/-
  File:      PluginsEngine/Net/HalfClose.lean
  Subject:   CLOSING THE WRITE SIDE OF A CONNECTION.

  `shutdownWrite` shuts the socket's write side down at once where the state is `Connected`, and
  `write` looks for `Disconnected` only. `HalfClosed` is what a half-close is to guarantee: it
  comes when `writeBuf` is empty, and no later `write` moves a byte.

  * `left_iff_unsent` -- something is queued exactly when some `write` so far was not taken whole;
  * `halfClosed_iff_orderly` -- the guarantee holds along a run exactly when its caller keeps to
    the order himself;
  * `backlog_is_cut_off` -- a write of which the socket takes one byte of three, and a
    `shutdownWrite` behind it.
-/
import PluginsEngine.Net.Session

namespace PluginsEngine

open Library ConnectionState

/-! ## 1. What has been called so far -/

/-- `shutdownCalled`: `shutdownWrite` was called; `left`: some `write` left bytes to queue. -/
structure WriteHistory where
  shutdownCalled : Bool
  left : Bool
  deriving DecidableEq, Repr

def WriteHistory.record (s : ConnectionState) (l : ConnectionStep) (_ : Shown)
    (g : WriteHistory) : WriteHistory :=
  match l with
  | .shutdownWrite => { g with shutdownCalled := true }
  | .write data a =>
    { g with left := g.left || decide (s.self.connect.state ≠ .Disconnected ∧ a.leaves data) }
  | _ => g

def writeSession : Machine (ConnectionState × WriteHistory) ConnectionStep Shown :=
  session.withHistory WriteHistory.record

namespace WriteHistory

/-- A connection just constructed, on which nothing was called. -/
def initial (loop : World TcpCallback) (fd : Int) (callbacks : List UserCallback) :
    ConnectionState × WriteHistory :=
  (.initial loop fd callbacks, ⟨false, false⟩)

/-- **Half-close loses nothing and stays closed.** The socket's write side is shut down (the
    branch `state == Connected` of `shutdownWrite`) only while nothing is queued; a `write` after
    a call of `shutdownWrite` hands no byte to the socket and queues none. -/
structure HalfClosed (s : ConnectionState × WriteHistory) (l : ConnectionStep)
    (s' : ConnectionState × WriteHistory) (o : Shown) : Prop where
  shut : l = .shutdownWrite → s.1.self.connect.state = .Connected → s.1.self.unsent = []
  stays : s.2.shutdownCalled = true → ∀ data a, l = .write data a →
    o.handed = [] ∧ s'.1.self.unsent = s.1.self.unsent

/-- The order a caller has to keep: `shutdownWrite`, where the state is `Connected`, only if every
    `write` so far was taken whole; and after a call of it only writes of no byte, or on a
    connection that is disconnected, or that the socket refuses with a fault error. -/
def Orderly (s : ConnectionState × WriteHistory) (l : ConnectionStep)
    (_ : ConnectionState × WriteHistory) (_ : Shown) : Prop :=
  match l with
  | .shutdownWrite => s.1.self.connect.state = .Connected → s.2.left = false
  | .write data a => s.2.shutdownCalled = true →
      s.1.self.connect.state = .Disconnected ∨ data = [] ∨ (s.2.left = false ∧ a.fault)
  | _ => True

/-! ## 2. What is queued was left by a write -/

/-- The connection is steady, and the history tells whether something is queued. -/
structure Tracks (s : ConnectionState × WriteHistory) : Prop where
  steady : s.1.Steady
  left_iff_unsent : s.2.left = true ↔ s.1.self.unsent ≠ []

variable {s s' : ConnectionState × WriteHistory} {l : ConnectionStep} {o : Shown}

theorem Tracks.left_eq_false_iff (h : Tracks s) : s.2.left = false ↔ s.1.self.unsent = [] := by
  rw [← Bool.not_eq_true, h.left_iff_unsent, Classical.not_not]

theorem tracks_initial (loop : World TcpCallback) (fd : Int) (callbacks : List UserCallback) :
    Tracks (initial loop fd callbacks) where
  steady := steady_initial loop fd callbacks
  left_iff_unsent := ⟨nofun, fun hne => absurd (Buffer.new_contents _) hne⟩

theorem Tracks.step (h : Tracks s) (hs : writeSession.step s l = some (s', o)) : Tracks s' := by
  obtain ⟨hstep, hhist⟩ := Machine.withHistory_step_iff.mp hs
  refine ⟨h.steady.session_step hstep, ?_⟩
  rw [hhist]
  rcases session_cases hstep with ⟨data, a, rfl, hdisc, hsame, -⟩ | hc
  · -- `write` returned at once
    rw [hsame]
    simp only [record, hdisc, ne_eq, not_true_eq_false, false_and, decide_false, Bool.or_false]
    exact h.left_iff_unsent
  cases l with
  | write data a =>
    have hstate := (write_shown hc).1
    simp only [record, hstate, ne_eq, not_false_eq_true, true_and, Bool.or_eq_true,
      decide_eq_true_eq]
    rw [h.left_iff_unsent]
    exact (write_unsent_iff h.steady hc).symm
  | shutdownWrite =>
    rw [unsent_of_not_write h.steady hc fun _ _ => nofun]
    exact h.left_iff_unsent
  | writable a | readable r | error | connectedHandle | callbackReturns =>
    rw [unsent_of_not_write h.steady hc fun _ _ => nofun]
    exact h.left_iff_unsent

/-! ## 3. When the guarantee holds -/

theorem Tracks.halfClosed_iff (h : Tracks s) (hs : writeSession.step s l = some (s', o)) :
    HalfClosed s l s' o ↔ Orderly s l s' o := by
  obtain ⟨hstep, -⟩ := Machine.withHistory_step_iff.mp hs
  cases l with
  | shutdownWrite =>
    constructor
    · intro hlaw hconn
      exact h.left_eq_false_iff.mpr (hlaw.shut rfl hconn)
    · intro hok
      exact ⟨fun _ hconn => h.left_eq_false_iff.mp (hok hconn), fun _ _ _ => nofun⟩
  | write data a =>
    have hmoves : (o.handed = [] ∧ s'.1.self.unsent = s.1.self.unsent) ↔
        s.1.self.connect.state = .Disconnected ∨ data = [] ∨ (s.2.left = false ∧ a.fault) := by
      rw [h.left_eq_false_iff]
      rcases session_cases hstep with ⟨_, _, -, hdisc, hsame, rfl⟩ | hc
      · rw [hsame]
        exact ⟨fun _ => Or.inl hdisc, fun _ => ⟨rfl, rfl⟩⟩
      · rw [write_still_iff h.steady hc]
        exact ⟨Or.inr, fun hor => hor.resolve_left (write_shown hc).1⟩
    constructor
    · intro hlaw hcalled
      exact hmoves.mp (hlaw.stays hcalled data a rfl)
    · intro hok
      refine ⟨nofun, fun hcalled data' a' hl => ?_⟩
      cases hl
      exact hmoves.mpr (hok hcalled)
  | writable a | readable r | error | connectedHandle | callbackReturns =>
    exact ⟨fun _ => trivial, fun _ => ⟨nofun, fun _ _ _ => nofun⟩⟩

end WriteHistory

open WriteHistory

/-- **Half-close, exactly.** For every run of a connection from its construction, whatever the
    socket answers: the write side is shut down only while nothing is queued and no `write` after
    a `shutdownWrite` moves a byte, if and only if the run is orderly. -/
theorem halfClosed_iff_orderly (loop : World TcpCallback) (fd : Int)
    (callbacks : List UserCallback) (ls : List ConnectionStep) :
    writeSession.Along HalfClosed (WriteHistory.initial loop fd callbacks) ls ↔
      writeSession.Along Orderly (WriteHistory.initial loop fd callbacks) ls :=
  Machine.along_iff (I := Tracks) (fun _ _ _ _ h hs => ⟨h.halfClosed_iff hs, fun _ => h.step hs⟩)
    (tracks_initial loop fd callbacks)

/-- Three bytes are written, of which the socket takes one; the write side is shut down; and one
    more byte is written. -/
def cutOffRun : List ConnectionStep :=
  [.connectedHandle, .write [3, 4, 5] ⟨1, 0⟩, .shutdownWrite, .write [6] ⟨1, 0⟩]

/-- **A backlog is cut off**: `cutOffRun` is a run, two bytes are still queued when the write side
    is shut down, and the last `write` queues a third one behind them. -/
theorem backlog_is_cut_off :
    (writeSession.run (WriteHistory.initial (.initial ∅ 8) 4 []) cutOffRun).map
        (fun p => (p.1.1.self.connect.state, p.1.1.self.unsent)) =
        some (.Disconnecting, [4, 5, 6]) ∧
      ¬ writeSession.Along HalfClosed (WriteHistory.initial (.initial ∅ 8) 4 []) cutOffRun := by
  refine ⟨by decide +kernel, fun h => ?_⟩
  let start := WriteHistory.initial (.initial ∅ 8) 4 []
  let begun : List ConnectionStep := [.connectedHandle, .write [3, 4, 5] ⟨1, 0⟩]
  have hsome : (writeSession.run start begun).isSome := by decide +kernel
  obtain ⟨⟨s, os⟩, hrun⟩ := Option.isSome_iff_exists.mp hsome
  have hqueued : (writeSession.run start begun).map
      (fun p => (p.1.1.self.connect.state, p.1.1.self.unsent)) = some (.Connected, [4, 5]) := by
    decide +kernel
  rw [hrun] at hqueued
  obtain ⟨hconn, hunsent⟩ := Prod.mk.inj (Option.some.inj hqueued)
  have hrest := (Machine.along_append (show writeSession.Along HalfClosed start
    (begun ++ [.shutdownWrite, .write [6] ⟨1, 0⟩]) from h) hrun).2
  exact absurd (hunsent.symm.trans ((hrest _ _ rfl).1.shut rfl hconn)) nofun

end PluginsEngine
