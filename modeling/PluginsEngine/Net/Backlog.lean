/-
  File:      PluginsEngine/Net/Backlog.lean
  Subject:   WHAT BECOMES OF A BACKLOG.

  A connection with a backlog waits for writability; each report of it is to hand the socket a
  prefix of `writeBuf`, until it is empty (`Drains`). `writeEvent` opens with the test
  `isWriting()` and returns when it holds, and a connection with a backlog is always writing.

  * `writable_backlog` -- a report of writability leaves a connection with a backlog as it is;
  * `drains_iff_no_delivery` -- so no sequence of reports drains anything, but for the empty one;
  * `backlog_stays` -- a concrete connection and its reports.
-/
import PluginsEngine.Net.OutgoingStream

namespace PluginsEngine

open Library ConnectionState

variable {s : ConnectionState}

/-- A report of writability hands the socket the prefix of the backlog it accepts and removes
    exactly this prefix. -/
def HandsPrefix (s : ConnectionState) (l : ConnectionStep) (s' : ConnectionState) (o : Shown) :
    Prop :=
  ∀ a, l = .writable a → o.handed = s.self.unsent.take a.ret.toNat ∧
    s'.self.unsent = s.self.unsent.drop a.ret.toNat

/-- **The backlog drains** under the reports that the socket answers with `answers`: each hands on
    a prefix, and after as many reports as there were bytes nothing is left, writability is no
    longer waited for, and the completion callback, where it is set, has run once. -/
structure Drains (s : ConnectionState) (answers : List WriteAnswer) : Prop where
  each : connection.Along HandsPrefix s (answers.map .writable)
  drained : ∀ t os, connection.run s (answers.map .writable) = some (t, os) →
    s.self.unsent.length ≤ answers.length →
      t.self.unsent = [] ∧ t.self.isWriting = false ∧
        os.flatMap Shown.ran = s.self.invoke .writeCompleteCallback

/-- **A report of writability leaves a backlog as it is**: the socket is not even called. -/
theorem writable_backlog (h : s.Steady) (hne : s.self.unsent ≠ []) (a : WriteAnswer) :
    connection.step s (.writable a) = some (s, ⟨none, []⟩) := by
  have hwriting : s.self.isWriting = true := h.self.writing.mpr hne
  have hguard : s.self.event.handle EPOLLOUT = [.writeEvent] ∧
      (s.self.isWriting = false → a.fits s.self.backlog.length) := by
    refine ⟨h.self.handle_writable, fun hoff => ?_⟩
    rw [hwriting] at hoff
    cases hoff
  have hevent : s.self.writeEvent a = (s.self, ⟨none, []⟩) := if_pos hwriting
  simp only [connection, if_pos hguard, hevent]
  rfl

theorem steady_of_run {loop : World TcpCallback} {fd : Int} {callbacks : List UserCallback}
    {ls : List ConnectionStep} {os : List Shown}
    (h : connection.run (initial loop fd callbacks) ls = some (s, os)) : s.Steady :=
  Machine.run_invariant (I := ConnectionState.Steady) (fun _ _ _ _ h hs => (h.step hs).1)
    (steady_initial loop fd callbacks) h

theorem not_drains (h : s.Steady) (hne : s.self.unsent ≠ []) {a : WriteAnswer} (ha : 0 < a.ret)
    (answers : List WriteAnswer) : ¬ Drains s (a :: answers) := by
  intro hd
  obtain ⟨hhanded, -⟩ := Machine.along_cons hd.each (writable_backlog h hne a)
  -- nothing was handed on, where at least one byte was to be
  have hnil : [] = s.self.unsent.take a.ret.toNat := (hhanded a rfl).1
  rcases List.take_eq_nil_iff.mp hnil.symm with hzero | hempty
  · omega
  · exact hne hempty

/-- **A backlog never drains.** For every connection in use that has a backlog, and every sequence
    of reports of writability in which the socket would accept at least one byte each time: the
    backlog drains as it should if and only if there is no report at all. -/
theorem drains_iff_no_delivery {loop : World TcpCallback} {fd : Int}
    {callbacks : List UserCallback} {ls : List ConnectionStep} {os : List Shown}
    (h : connection.run (initial loop fd callbacks) ls = some (s, os))
    (hne : s.self.unsent ≠ []) {answers : List WriteAnswer} (hpos : ∀ a ∈ answers, 0 < a.ret) :
    Drains s answers ↔ answers = [] := by
  have hsteady := steady_of_run h
  constructor
  · intro hd
    cases answers with
    | nil => rfl
    | cons a answers =>
      exact absurd hd (not_drains hsteady hne (hpos a List.mem_cons_self) answers)
  · intro heq
    subst heq
    refine ⟨trivial, fun t os _ hlen => ?_⟩
    exact absurd (List.length_eq_zero_iff.mp (Nat.le_zero.mp hlen)) hne

/-- Three bytes are written, of which the socket takes one. -/
def slowPeer : List ConnectionStep := [.connectedHandle, .write [3, 4, 5] ⟨1, 0⟩]

theorem slowPeer_backlog : ∃ s os,
    connection.run exampleConnection slowPeer = some (s, os) ∧ s.self.unsent = [4, 5] := by
  have hsome : (connection.run exampleConnection slowPeer).isSome := by decide +kernel
  obtain ⟨⟨s, os⟩, hrun⟩ := Option.isSome_iff_exists.mp hsome
  have hunsent : (connection.run exampleConnection slowPeer).map
      (fun p => p.1.self.unsent) = some [4, 5] := by decide +kernel
  rw [hrun] at hunsent
  exact ⟨s, os, hrun, Option.some.inj hunsent⟩

theorem drains_iff_no_delivery_slowPeer : ∃ s, s.self.unsent = [4, 5] ∧
    (Drains s [⟨1, 0⟩, ⟨1, 0⟩] ↔ ([⟨1, 0⟩, ⟨1, 0⟩] : List WriteAnswer) = []) := by
  obtain ⟨s, os, hrun, hunsent⟩ := slowPeer_backlog
  have hne : s.self.unsent ≠ [] := by
    rw [hunsent]
    decide
  exact ⟨s, hunsent, drains_iff_no_delivery hrun hne (by decide)⟩

/-- **The backlog stays**: after `slowPeer` two bytes are left and EPOLLOUT is waited for; two
    reports of writability, for each of which the socket has room for a byte, do not drain them. -/
theorem backlog_stays : ∃ s os, connection.run exampleConnection slowPeer = some (s, os) ∧
    s.self.unsent = [4, 5] ∧ s.self.isWriting = true ∧ ¬ Drains s [⟨1, 0⟩, ⟨1, 0⟩] := by
  obtain ⟨s, os, hrun, hunsent⟩ := slowPeer_backlog
  have hsteady := steady_of_run hrun
  have hne : s.self.unsent ≠ [] := by
    rw [hunsent]
    decide
  exact ⟨s, os, hrun, hunsent, hsteady.self.writing.mpr hne,
    not_drains hsteady hne (by decide) _⟩

end PluginsEngine
