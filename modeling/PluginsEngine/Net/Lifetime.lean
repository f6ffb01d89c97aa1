/-
  File:      PluginsEngine/Net/Lifetime.lean
  Subject:   CALLBACKS OF A CONNECTION THAT ONLY THE POOL OWNS.

  `Event::handle` runs up to three callbacks, one after the other, each bound to the bare pointer
  of the connection. One that closes the connection takes its entry out of the pool; with it goes
  the last reference, and the destructor runs before `handle` goes on.

  The steps are the accepts, the reports, the callbacks a report runs, one by one, and what the
  user calls in between. A callback of a destroyed connection is no step: what it does is
  undefined.

  * `Alive` -- the connections that a loop still has callbacks of are in the pool;
  * `noneDestroyed_iff_closes_last` -- no callback of a destroyed connection is due, exactly when
    every callback that closes its connection is the last of its report;
  * `write_callback_after_close` -- a report of input and writability at the end of the stream.
-/
import PluginsEngine.Net.TcpServer

namespace PluginsEngine

open Library

/-! ## 1. Reports, callback by callback -/

/-- A server, and the callbacks that the call of `handle` on each loop still has to run. -/
structure LifeState where
  server : TcpServer
  handling : Nat → List (ConnectId × TcpCallback)

inductive LifeStep where
  | newConnected (sockfd : Int) (addr : SocketAddr)
  /-- A loop calls `handle(events)` of the Event of a connection. -/
  | report (id : ConnectId) (events : Mask)
  /-- `handle` on loop `i` runs its next callback. -/
  | callback (i : Nat) (io : IoAnswer)
  | write (id : ConnectId) (data : List UInt8) (a : WriteAnswer)
  | shutdownWrite (id : ConnectId)

/-- The connections of a server whose application keeps no reference to any of them. -/
def lifetime : Machine LifeState LifeStep (List UserCallback) where
  step s
    | .newConnected sockfd addr =>
      some ({ s with server := (s.server.newConnected sockfd addr).2 }, [])
    | .report id events =>
      let i := (s.server.object id).loop
      if id < s.server.next ∧ s.server.owns id ∧ s.handling i = [] then
        let callbacks := ((s.server.connection id).event.handle events).map fun cb => (id, cb)
        some ({ s with handling := Function.update s.handling i callbacks }, [])
      else none
    | .callback i io =>
      match s.handling i with
      | [] => none
      | (id, cb) :: rest =>
        if s.server.owns id ∧ (s.server.connection id).callbackFits cb io then
          some (⟨(s.server.runCallback id cb io).1, Function.update s.handling i rest⟩,
            (s.server.runCallback id cb io).2)
        else none
    | .write id data a =>
      if id < s.server.next ∧ s.server.owns id then
        some ({ s with server := s.server.write id data a }, [])
      else none
    | .shutdownWrite id =>
      if id < s.server.next ∧ s.server.owns id then
        some ({ s with server := s.server.shutdownWrite id }, [])
      else none

namespace LifeState

variable {s s' : LifeState} {l : LifeStep} {o : List UserCallback}

def initial (poolSize : Nat) (loops : Nat → World TcpCallback) : LifeState :=
  ⟨.initial poolSize loops, fun _ => []⟩

/-- **No callback after destruction**: each callback that a `handle` has still to run is one of a
    connection the pool owns. -/
def NoneDestroyed (_ : LifeState) (_ : LifeStep) (s' : LifeState) (_ : List UserCallback) : Prop :=
  ∀ i, ∀ p ∈ s'.handling i, s'.server.owns p.1

/-- A callback that closes its connection is the last one of its report. -/
def ClosesLast (s : LifeState) (l : LifeStep) (_ : LifeState) (_ : List UserCallback) : Prop :=
  ∀ i io, l = .callback i io → ∀ id cb rest, s.handling i = (id, cb) :: rest →
    (s.server.connection id).closes cb io → rest = []

/-! ## 2. Who is alive -/

/-- **The connections with callbacks due are alive**: the pool owns them, each is on the loop that
    handles it, and one `handle` works on one connection. Every connection has its close
    callback. -/
structure Alive (s : LifeState) : Prop where
  owned : ∀ i, ∀ p ∈ s.handling i,
    s.server.owns p.1 ∧ p.1 < s.server.next ∧ (s.server.object p.1).loop = i
  single : ∀ i, ∀ p ∈ s.handling i, ∀ q ∈ s.handling i, p.1 = q.1
  bound : ∀ id, id < s.server.next → .closeCallback ∈ (s.server.object id).connect.callbacks

theorem alive_initial (poolSize : Nat) (loops : Nat → World TcpCallback) :
    (initial poolSize loops).Alive where
  owned _ _ hp := absurd hp List.not_mem_nil
  single _ _ hp := absurd hp List.not_mem_nil
  bound id hlt := absurd hlt (Nat.not_lt_zero id)

theorem Alive.newConnected (h : s.Alive) {addr : SocketAddr} {id : ConnectId}
    (hacc : s.server.Accepted addr id s'.server) (hh : s'.handling = s.handling) : s'.Alive where
  owned i p hp := by
    rw [hh] at hp
    obtain ⟨howns, hlt, hloop⟩ := h.owned i p hp
    refine ⟨hacc.owns hlt howns, ?_, by rw [hacc.old p.1 hlt, hloop]⟩
    rw [hacc.next]
    exact Nat.lt_succ_of_lt hlt
  single i p hp q hq := by
    rw [hh] at hp hq
    exact h.single i p hp q hq
  bound id' hlt := by
    rw [hacc.next] at hlt
    rcases Nat.lt_succ_iff_lt_or_eq.mp hlt with hold | rfl
    · rw [hacc.old id' hold]
      exact h.bound id' hold
    · rw [hacc.callbacks]
      exact List.mem_cons_self

/-- A call that leaves the pool alone. -/
theorem Alive.sameOwners (h : s.Alive) (hsame : s.server.SameOwners s'.server)
    (hh : s'.handling = s.handling) : s'.Alive where
  owned i p hp := by
    rw [hh] at hp
    obtain ⟨howns, hlt, hloop⟩ := h.owned i p hp
    refine ⟨?_, by rw [hsame.next]; exact hlt, by rw [hsame.loop, hloop]⟩
    rw [TcpServer.owns, hsame.pool, hsame.names]
    exact howns
  single i p hp q hq := by
    rw [hh] at hp hq
    exact h.single i p hp q hq
  bound id hlt := by
    rw [hsame.next] at hlt
    rw [hsame.callbacks]
    exact h.bound id hlt

theorem Alive.report (h : s.Alive) {id : ConnectId} {cbs : List TcpCallback}
    (hid : id < s.server.next) (howns : s.server.owns id) (hserver : s'.server = s.server)
    (hh : s'.handling = Function.update s.handling (s.server.object id).loop
      (cbs.map fun cb => (id, cb))) : s'.Alive where
  owned i p hp := by
    rw [hserver]
    rw [hh] at hp
    by_cases hi : i = (s.server.object id).loop
    · subst hi
      rw [Function.update_self] at hp
      obtain ⟨_, -, rfl⟩ := List.mem_map.mp hp
      exact ⟨howns, hid, rfl⟩
    · rw [Function.update_of_ne hi] at hp
      exact h.owned i p hp
  single i p hp q hq := by
    rw [hh] at hp hq
    by_cases hi : i = (s.server.object id).loop
    · subst hi
      rw [Function.update_self] at hp hq
      obtain ⟨_, -, rfl⟩ := List.mem_map.mp hp
      obtain ⟨_, -, rfl⟩ := List.mem_map.mp hq
      rfl
    · rw [Function.update_of_ne hi] at hp hq
      exact h.single i p hp q hq
  bound id' hlt := by
    rw [hserver] at hlt ⊢
    exact h.bound id' hlt

/-- A callback that closes nothing, or is the last of its report. -/
theorem Alive.callback (h : s.Alive) {i : Nat} {id : ConnectId} {cb : TcpCallback}
    {rest : List (ConnectId × TcpCallback)} {io : IoAnswer}
    (hi : s.handling i = (id, cb) :: rest)
    (hserver : s'.server = (s.server.runCallback id cb io).1)
    (hh : s'.handling = Function.update s.handling i rest)
    (hlast : (s.server.connection id).closes cb io → rest = []) : s'.Alive := by
  have hran := s.server.runCallback_pool id cb io
  have hself := s.server.runCallback_self id cb io
  rw [← hserver] at hran hself
  obtain ⟨hidowns, hidlt, hidloop⟩ := h.owned i (id, cb) (by rw [hi]; exact List.mem_cons_self)
  have hsub : ∀ j, ∀ p ∈ s'.handling j, p ∈ s.handling j := by
    intro j p hp
    rw [hh] at hp
    by_cases hj : j = i
    · subst hj
      rw [Function.update_self] at hp
      rw [hi]
      exact List.mem_cons_of_mem _ hp
    · rwa [Function.update_of_ne hj] at hp
  refine ⟨fun j p hp => ?_, fun j p hp q hq => h.single j p (hsub j p hp) q (hsub j q hq), ?_⟩
  · obtain ⟨howns, hlt, hloop⟩ := h.owned j p (hsub j p hp)
    refine ⟨?_, by rw [hran.next]; exact hlt, by rw [hran.loop, hloop]⟩
    by_cases hne : p.1 = id
    · -- more callbacks of the same connection: the callback did not close it
      have hj : j = i := by rw [← hloop, hne, hidloop]
      have hopen : ¬ (s.server.connection id).closes cb io := by
        intro hcloses
        rw [hh, hj, Function.update_self, hlast hcloses] at hp
        exact absurd hp List.not_mem_nil
      have hnotRan : .closeCallback ∉ (s.server.runCallback id cb io).2 :=
        fun hin => hopen (hself.closeRan.mp hin).1
      rw [TcpServer.owns, hran.names, hran.pool, if_neg hnotRan]
      exact howns
    · exact hran.owns hidowns hne howns
  · intro id' hlt
    rw [hran.next] at hlt
    by_cases hne : id' = id
    · subst hne
      have hcb : (s'.server.object id').connect.callbacks = _ := hself.callbacks
      rw [hcb]
      exact h.bound id' hlt
    · rw [hran.others id' hne]
      exact h.bound id' hlt

theorem callback_of_step {i : Nat} {io : IoAnswer}
    (hs : lifetime.step s (.callback i io) = some (s', o)) :
    ∃ id cb rest, s.handling i = (id, cb) :: rest ∧
      s'.server = (s.server.runCallback id cb io).1 ∧
      s'.handling = Function.update s.handling i rest := by
  simp only [lifetime] at hs
  split at hs
  · cases hs
  · rename_i id cb rest hi
    split at hs
    · obtain ⟨hs', -⟩ := Prod.mk.inj (Option.some.inj hs)
      exact ⟨id, cb, rest, hi, by rw [← hs'], by rw [← hs']⟩
    · cases hs

theorem Alive.step (h : s.Alive) (hs : lifetime.step s l = some (s', o))
    (hok : ClosesLast s l s' o) : s'.Alive := by
  cases l with
  | newConnected sockfd addr =>
    obtain ⟨hs', -⟩ := Prod.mk.inj (Option.some.inj hs)
    rw [← hs']
    exact h.newConnected (s.server.newConnected_law sockfd addr) rfl
  | report id events =>
    simp only [lifetime] at hs
    split at hs
    case isFalse => cases hs
    rename_i hok
    obtain ⟨hs', -⟩ := Prod.mk.inj (Option.some.inj hs)
    rw [← hs']
    exact h.report hok.1 hok.2.1 rfl rfl
  | callback i io =>
    obtain ⟨id, cb, rest, hi, hserver, hh⟩ := callback_of_step hs
    exact h.callback hi hserver hh (hok i io rfl id cb rest hi)
  | write id data a =>
    simp only [lifetime] at hs
    split at hs
    case isFalse => cases hs
    obtain ⟨hs', -⟩ := Prod.mk.inj (Option.some.inj hs)
    rw [← hs']
    exact h.sameOwners (s.server.write_sameOwners id data a) rfl
  | shutdownWrite id =>
    simp only [lifetime] at hs
    split at hs
    case isFalse => cases hs
    obtain ⟨hs', -⟩ := Prod.mk.inj (Option.some.inj hs)
    rw [← hs']
    exact h.sameOwners (s.server.shutdownWrite_sameOwners id) rfl

/-! ## 3. When none is destroyed -/

/-- A close with callbacks behind it destroys the connection they are of. -/
theorem Alive.closesLast (h : s.Alive) (hs : lifetime.step s l = some (s', o))
    (hlaw : NoneDestroyed s l s' o) : ClosesLast s l s' o := by
  intro i io hl id cb rest hi hcloses
  subst hl
  obtain ⟨id', cb', rest', hi', hserver, hh⟩ := callback_of_step hs
  rw [hi] at hi'
  cases hi'
  cases rest with
  | nil => rfl
  | cons q rest =>
    have hmem : (id, cb) ∈ s.handling i := by
      rw [hi]
      exact List.mem_cons_self
    have hq : q ∈ s.handling i := by
      rw [hi]
      exact List.mem_cons_of_mem _ List.mem_cons_self
    have hsame : q.1 = id := h.single i q hq _ hmem
    have hdue : q ∈ s'.handling i := by
      rw [hh, Function.update_self]
      exact List.mem_cons_self
    have howns := hlaw i q hdue
    have hran := s.server.runCallback_pool id cb io
    have hclosed := (s.server.runCallback_self id cb io).closeRan.mpr
      ⟨hcloses, h.bound id (h.owned i _ hmem).2.1⟩
    rw [← hserver] at hran
    rw [hsame, TcpServer.owns, hran.names, hran.pool, if_pos hclosed,
      Finmap.lookup_erase] at howns
    cases howns

end LifeState

open LifeState

/-- **No callback after destruction, exactly.** For every run of a server, with any reports and
    any answers of the reads and writes: no callback that is due is one of a destroyed connection
    if and only if every callback that closes its connection is the last one of its report. -/
theorem noneDestroyed_iff_closes_last (poolSize : Nat) (loops : Nat → World TcpCallback)
    (ls : List LifeStep) :
    lifetime.Along NoneDestroyed (LifeState.initial poolSize loops) ls ↔
      lifetime.Along ClosesLast (LifeState.initial poolSize loops) ls :=
  Machine.along_iff (I := Alive)
    (fun _ _ _ _ h hs => ⟨⟨h.closesLast hs, fun hok i p hp => ((h.step hs hok).owned i p hp).1⟩,
      h.step hs⟩)
    (alive_initial poolSize loops)

/-- The peer ends the stream; one report says that there is input and room to write. -/
def endOfStreamReport : List LifeStep :=
  [.newConnected 5 ⟨0x0700000a, 0x8813⟩, .report 0 (EPOLLIN ||| EPOLLOUT)]

/-- **`writeEvent` is due after the close**: the read callback of `endOfStreamReport` closes the
    connection, which leaves the pool, and `handle` goes on to its write callback. -/
theorem write_callback_after_close :
    (lifetime.run (LifeState.initial 0 fun _ => .initial ∅ 8)
        (endOfStreamReport ++ [.callback 0 ⟨⟨0, [], 0⟩, ⟨0, 0⟩⟩])).map
        (fun p => (p.2.getLast?, p.1.handling 0, decide (p.1.server.owns 0))) =
        some (some [.closeCallback], [(0, .writeEvent)], false) ∧
      ¬ lifetime.Along NoneDestroyed (LifeState.initial 0 fun _ => .initial ∅ 8)
        (endOfStreamReport ++ [.callback 0 ⟨⟨0, [], 0⟩, ⟨0, 0⟩⟩]) := by
  have hend : (lifetime.run (LifeState.initial 0 fun _ => .initial ∅ 8)
      (endOfStreamReport ++ [.callback 0 ⟨⟨0, [], 0⟩, ⟨0, 0⟩⟩])).map
      (fun p => (p.2.getLast?, p.1.handling 0, decide (p.1.server.owns 0))) =
      some (some [.closeCallback], [(0, .writeEvent)], false) := by
    decide +kernel
  refine ⟨hend, fun h => ?_⟩
  obtain ⟨⟨t, os⟩, hrun, hfacts⟩ := Option.map_eq_some_iff.mp hend
  obtain ⟨-, hstate⟩ := Prod.mk.inj hfacts
  obtain ⟨hdue, hgone⟩ := Prod.mk.inj hstate
  obtain ⟨_, _, _, -, -, hlaw⟩ := Machine.along_last h hrun
  exact of_decide_eq_false hgone (hlaw 0 (0, .writeEvent) (by rw [hdue]; exact List.mem_cons_self))

end PluginsEngine
