/-
  File:      PluginsEngine/Net/PostedLifetime.lean
  Subject:   POSTED WRITES AND THE LIFE OF THEIR CONNECTION (net/tcp/tcpConnect.cpp: writeInLoop).

  The function that `writeInLoop` makes holds the bare pointer of its connection. Where only the
  pool keeps connections alive, a close destroys one while the handlers run, and the functions of
  the same turn come after them.

  * `Holds` -- the writes that a loop or a thread still holds;
  * `holds_step` -- only `runInLoop` from another thread adds to them;
  * `owns_step` -- only a callback that closes a connection takes one out of the pool;
  * `held_connections_live` -- no write is held for a destroyed connection, exactly when writes are
    posted to connections that live and no connection closes while a write for it is held.
-/
import PluginsEngine.Net.PostedWrites

namespace PluginsEngine

open Library

/-! ## 1. What is held -/

/-- A write that has not begun: in the list of a loop, or in a call of `addFunInLoop`. -/
def LoopsState.Holds (s : LoopsState Nat PostedWrite) (f : PostedWrite) : Prop :=
  (∃ i, f ∈ s.queued i) ∨ ∃ x i, s.adding x = some (i, f)

section

variable {P : LoopProgram Nat PostedWrite} {s s' : LoopsState Nat PostedWrite}
  {l : LoopsStep Nat PostedWrite} {o : Unit}

/-- A step that only takes writes out of the list of loop `i`. -/
theorem LoopsState.Holds.of_queued {f : PostedWrite} (hf : s'.Holds f) (i : Nat)
    (hothers : ∀ j, j ≠ i → s'.queued j = s.queued j) (hqueued : s'.queued i ⊆ s.queued i)
    (hadding : s'.adding = s.adding) : s.Holds f := by
  rcases hf with ⟨j, hmem⟩ | ⟨x, j, hcall⟩
  · rcases eq_or_ne j i with rfl | hne
    · exact .inl ⟨j, hqueued hmem⟩
    · exact .inl ⟨j, by rwa [← hothers j hne]⟩
  · exact .inr ⟨x, j, by rwa [← hadding]⟩

/-- **Only a call of `runInLoop` from another thread adds a write that is held.** -/
theorem holds_step (h : LoopsHold P s) (hs : (eventLoops P).step s l = some (s', o))
    {f : PostedWrite} (hf : s'.Holds f) :
    s.Holds f ∨ ∃ x j, l = .runInLoop x j f ∧ x ≠ .loop j := by
  cases LoopsState.moves_of_step hs with
  | direct i callback huses => exact .inl hf
  | add x j callback hother hfree huses hcall =>
    rcases hf with hqueued | ⟨y, i, hadding⟩
    · exact .inl (.inl hqueued)
    · rcases of_update (p := fun a => a = some (i, f)) hadding with ⟨rfl, heq⟩ | ⟨-, hold⟩
      · cases heq
        exact .inr ⟨y, j, rfl, hother⟩
      · exact .inl (.inr ⟨y, i, hold⟩)
  | lock x j callback hadding hfree => exact .inl hf
  | pushBack x j callback hadding hmutex =>
    rcases hf with ⟨i, hqueued⟩ | ⟨y, i, hadding'⟩
    · have hfree := h.draining_of_pushBack hadding hmutex
      rcases eq_or_ne i j with rfl | hne
      · simp only [LoopsState.queued, Function.update_self, hfree, Option.getD_none,
          List.drop_zero] at hqueued
        rcases List.mem_append.mp hqueued with hold | hnew
        · refine .inl (.inl ⟨i, ?_⟩)
          rw [LoopsState.queued, hfree]
          exact hold
        · rw [List.mem_singleton.mp hnew]
          exact .inl (.inr ⟨x, i, hadding⟩)
      · refine .inl (.inl ⟨i, ?_⟩)
        simpa only [LoopsState.queued, Function.update_of_ne hne] using hqueued
    · rcases of_update (p := fun a => a = some (i, f)) hadding' with ⟨-, hnone⟩ | ⟨-, hold⟩
      · cases hnone
      · exact .inl (.inr ⟨y, i, hold⟩)
  | runAllFunctionInLoop i hdraining hrest hfree =>
    refine .inl (hf.of_queued i (fun j hne => ?_) ?_ rfl)
    · simp only [LoopsState.queued, Function.update_of_ne hne]
    · simp only [LoopsState.queued, Function.update_self, hdraining, Option.getD_some,
        Option.getD_none, List.Subset.refl]
  | next i it callback hdraining hcallback hrest =>
    refine .inl (hf.of_queued i (fun j hne => ?_) ?_ rfl)
    · simp only [LoopsState.queued, Function.update_of_ne hne]
    · simp only [LoopsState.queued, Function.update_self, hdraining, Option.getD_some]
      exact List.drop_subset_drop_left _ (Nat.le_succ it)
  | returns x callback rest hrunning => exact .inl hf
  | clear i it hdraining hrest =>
    refine .inl (hf.of_queued i (fun j hne => ?_) ?_ rfl)
    · simp only [LoopsState.queued, Function.update_of_ne hne]
    · simp only [LoopsState.queued, Function.update_self, List.drop_nil, List.nil_subset]

/-- And such a call does add it. -/
theorem holds_of_runInLoop {x : LoopThread Nat} {j : Nat} {f : PostedWrite}
    (hs : (eventLoops P).step s (.runInLoop x j f) = some (s', o)) (hother : x ≠ .loop j) :
    s'.Holds f := by
  cases LoopsState.moves_of_step hs with
  | direct i callback huses => exact absurd rfl hother
  | add _ _ _ _ hfree huses hcall => exact .inr ⟨x, j, Function.update_self _ _ _⟩

end

/-! ## 2. What keeps connections alive -/

/-- Nothing takes a connection out of the pool that is there, or renames it. -/
def TcpServer.KeepsOwners (s s' : TcpServer) : Prop :=
  s.next ≤ s'.next ∧ ∀ id, id < s.next → s.owns id → s'.owns id

namespace TcpServer

variable {s s' : TcpServer}

theorem SameOwners.keepsOwners (h : s.SameOwners s') : s.KeepsOwners s' := by
  refine ⟨Nat.le_of_eq h.next.symm, fun id _ howns => ?_⟩
  rw [owns, h.pool, h.names]
  exact howns

theorem setConnection_keepsOwners (id : ConnectId) (c : Connection) :
    s.KeepsOwners (s.setConnection id c) := by
  refine ⟨Nat.le_refl _, fun id' _ howns => ?_⟩
  rw [owns, setConnection_connectPool, setConnection_name]
  exact howns

theorem construct_keepsOwners (sockfd : Int) (addr : SocketAddr) :
    s.KeepsOwners (s.construct sockfd addr).2 := by
  have h := s.construct_law sockfd addr
  refine ⟨?_, fun id hid howns => ?_⟩
  · rw [h.next]
    exact Nat.le_succ _
  · rw [owns, h.pool, h.old id hid]
    exact howns

theorem acceptorStep_keepsOwners (id : ConnectId) (pc : AcceptorPc) :
    s.KeepsOwners (s.acceptorStep id pc).1 := by
  cases pc with
  | addConnect =>
    refine ⟨Nat.le_refl _, fun id' _ howns => ?_⟩
    exact lookup_insertNew_of_some howns
  | setMessageCallback | setCloseCallback | connectedHandle =>
    exact setConnection_keepsOwners _ _
  | connectCallback => exact ⟨Nat.le_refl _, fun _ _ howns => howns⟩

end TcpServer

/-- The callback of a record closes its connection, which has its close callback. -/
def ClosesNow (s : ProtocolState) (k : ServingStep) (id : ConnectId) : Prop :=
  ∃ i io cb rest, k = .threads (.callback i io) ∧ s.handling i = (id, cb) :: rest ∧
    (s.server.connection id).closes cb io ∧
    .closeCallback ∈ (s.server.connection id).connect.callbacks

section

variable {s s' : ProtocolState} {k : ServingStep} {o : Option (List UInt8)}

/-- A callback takes the connection that the pool has under its name out of the pool, where it
    closes, and keeps all others. -/
theorem owns_callback {i : Nat} {io : IoAnswer}
    (hs : serving.step s (.threads (.callback i io)) = some (s', o)) :
    s'.server.next = s.server.next ∧ ∀ id', s'.server.owns id' ↔ s.server.owns id' ∧
      ∀ id, ClosesNow s (.threads (.callback i io)) id →
        (s.server.object id').name ≠ (s.server.object id).name := by
  obtain ⟨⟨called, hmoves⟩, -⟩ := moves_of_serving hs
  cases hmoves with
  | callback _ _ id cb rest hi hfit =>
    have hran := s.server.runCallback_pool id cb io
    have hself := s.server.runCallback_self id cb io
    have hcloses : ∀ id₀, ClosesNow s (.threads (.callback i io)) id₀ ↔
        id₀ = id ∧ .closeCallback ∈ (s.server.runCallback id cb io).2 := by
      intro id₀
      constructor
      · rintro ⟨i', io', cb', rest', heq, hi', hcloses, hset⟩
        cases heq
        rw [hi] at hi'
        cases hi'
        exact ⟨rfl, hself.closeRan.mpr ⟨hcloses, hset⟩⟩
      · rintro ⟨rfl, hin⟩
        obtain ⟨hcloses, hset⟩ := hself.closeRan.mp hin
        exact ⟨i, io, cb, rest, rfl, hi, hcloses, hset⟩
    refine ⟨hran.next, fun id' => ?_⟩
    dsimp only
    rw [TcpServer.owns, hran.names, hran.pool]
    by_cases hin : .closeCallback ∈ (s.server.runCallback id cb io).2
    · rw [if_pos hin]
      by_cases hname : (s.server.object id').name = (s.server.object id).name
      · constructor
        · rw [hname, Finmap.lookup_erase]
          exact fun hnone => by cases hnone
        · exact fun h => absurd hname (h.2 id ((hcloses id).mpr ⟨rfl, hin⟩))
      · rw [Finmap.lookup_erase_ne hname]
        refine ⟨fun howns => ⟨howns, fun id₀ hnow => ?_⟩, And.left⟩
        rw [((hcloses id₀).mp hnow).1]
        exact hname
    · rw [if_neg hin]
      exact ⟨fun howns => ⟨howns, fun id₀ hnow => absurd ((hcloses id₀).mp hnow).2 hin⟩,
        And.left⟩

/-- **Every other step of the server keeps the connections that the pool has.** -/
theorem owns_step (hs : serving.step s k = some (s', o))
    (hk : ∀ i io, k ≠ .threads (.callback i io)) : s.server.KeepsOwners s'.server := by
  cases k with
  | takeLine id =>
    simp only [serving] at hs
    split at hs
    case isFalse => cases hs
    cases hs
    exact TcpServer.setConnection_keepsOwners _ _
  | threads k =>
    obtain ⟨⟨called, hmoves⟩, -⟩ := moves_of_serving hs
    cases hmoves with
    | accept sockfd addr => exact TcpServer.construct_keepsOwners sockfd addr
    | acceptor id pc => exact TcpServer.acceptorStep_keepsOwners id pc
    | report id events => exact ⟨Nat.le_refl _, fun _ _ howns => howns⟩
    | callback i io => exact absurd rfl (hk i io)
    | write id data a => exact (s.server.write_sameOwners id data a).keepsOwners
    | shutdownWrite id => exact (s.server.shutdownWrite_sameOwners id).keepsOwners

end

/-! ## 3. Writes and connections together -/

section

variable {s s' : PostingServer} {o : WriteShown}

theorem posting_loops {l : RunLabel Nat PostedWrite} {a : WriteAnswer} {found : List UInt8}
    (hs : posting.step s (.loops l a found) = some (s', o)) :
    s.admits l ∧ (loopRuns postedWrites).step s.loops l = some (s'.loops, o.loops) ∧
      s.server.KeepsOwners s'.server ∧ (begins l o.loops = none → s'.threads = s.threads) := by
  cases PostingServer.moves_of_step hs with
  | quiet _ _ _ loops shown hadmits hloops hnone =>
    exact ⟨hadmits, hloops, ⟨Nat.le_refl _, fun _ _ howns => howns⟩, fun _ => rfl⟩
  | begins _ _ _ loops shown f threads line hadmits hloops hbegins hlength hthreads =>
    obtain ⟨hserving, -⟩ := Machine.withHistory_step_iff.mp hthreads
    have howns : s.server.KeepsOwners threads.1.server :=
      owns_step hserving fun i io heq => by cases heq
    exact ⟨hadmits, hloops, howns, fun hnone => by cases hnone.symm.trans hbegins⟩

theorem posting_serving {k : ServingStep} (hs : posting.step s (.serving k) = some (s', o)) :
    s'.loops = s.loops ∧ o.loops = none ∧
      ∃ line, serving.step s.threads.1 k = some (s'.threads.1, line) := by
  cases PostingServer.moves_of_step hs with
  | serving _ threads line hmay hthreads =>
    exact ⟨rfl, rfl, line, (Machine.withHistory_step_iff.mp hthreads).1⟩

end

section

variable {P : LoopProgram Nat PostedWrite} {r r' : RunState Nat PostedWrite}
  {l : RunLabel Nat PostedWrite} {o : Option (LoopsShown Nat PostedWrite)}

/-- The lists and the mutexes change by the steps of `eventLoops` only. -/
theorem loops_of_step (hs : (loopRuns P).step r l = some (r', o)) :
    (∃ k u, l = .step k ∧ (eventLoops P).step r.loops k = some (r'.loops, u) ∧
      o = r.loops.shows k) ∨ ((∀ k, l ≠ .step k) ∧ r'.loops = r.loops ∧ o = none) := by
  cases l with
  | step k =>
    simp only [loopRuns] at hs
    split at hs
    case isFalse => cases hs
    split at hs
    case h_1 => cases hs
    rename_i loops u hstep
    cases hs
    exact .inl ⟨k, u, rfl, hstep, rfl⟩
  | run i | wait i | leave i =>
    simp only [loopRuns] at hs
    split at hs
    case isFalse => cases hs
    cases hs
    exact .inr ⟨(fun k heq => by cases heq), rfl, rfl⟩
  | stop i =>
    cases hs
    exact .inr ⟨(fun k heq => by cases heq), rfl, rfl⟩

/-- What a loop begins it held. -/
theorem holds_of_started {i : Nat} {f : PostedWrite}
    (hs : (loopRuns P).step r l = some (r', some (.started i f))) : r.loops.Holds f := by
  rcases loops_of_step hs with ⟨k, u, -, -, hshows⟩ | ⟨-, -, hnone⟩
  · cases k with
    | next j =>
      simp only [LoopsState.shows] at hshows
      split at hshows
      · cases hshows
      rename_i it hdraining
      obtain ⟨g, hget, heq⟩ := Option.map_eq_some_iff.mp hshows.symm
      cases heq
      obtain ⟨hlt, hval⟩ := List.getElem?_eq_some_iff.mp hget
      refine .inl ⟨i, ?_⟩
      rw [LoopsState.queued, hdraining, Option.getD_some, List.drop_eq_getElem_cons hlt, hval]
      exact List.mem_cons_self
    | pushBack x =>
      obtain ⟨p, -, heq⟩ := Option.map_eq_some_iff.mp hshows.symm
      cases heq
    | _ => cases hshows
  · cases hnone

end

/-- **No dangling write**: a write that a loop begins, and each one that is held, is for a
    connection that the pool has. -/
def NoneDangling (s : PostingServer) (_ : PostingStep) (s' : PostingServer) (o : WriteShown) :
    Prop :=
  (∀ i f, o.loops = some (.started i f) → s.server.owns f.connect) ∧
    ∀ f, s'.loops.loops.Holds f → s'.server.owns f.connect

/-- The writes that other threads post are for connections that the pool has; and while a write
    is held, nothing that has the name of its connection closes. -/
structure PostedInTime (s : PostingServer) (l : PostingStep) (_ : PostingServer)
    (_ : WriteShown) : Prop where
  post : ∀ x j f a found, l = .loops (.step (.runInLoop x j f)) a found → x ≠ .loop j →
    s.server.owns f.connect
  close : ∀ k id, l = .serving k → ClosesNow s.threads.1 k id → ∀ f, s.loops.loops.Holds f →
    (s.server.object f.connect).name ≠ (s.server.object id).name

/-- The mutexes are held, and the connections of the writes that are held live. -/
structure HeldLive (s : PostingServer) : Prop where
  hold : LoopsHold postedWrites s.loops.loops
  live : ∀ f, s.loops.loops.Holds f → s.server.owns f.connect ∧ f.connect < s.server.next

namespace HeldLive

variable {s s' : PostingServer} {l : PostingStep} {o : WriteShown}

theorem loops (h : HeldLive s) {l : RunLabel Nat PostedWrite} {a : WriteAnswer}
    {found : List UInt8} (hs : posting.step s (.loops l a found) = some (s', o))
    (hok : PostedInTime s (.loops l a found) s' o) : HeldLive s' := by
  obtain ⟨hadmits, hrun, ⟨hnext, hkeeps⟩, -⟩ := posting_loops hs
  have hlive : ∀ f : PostedWrite, s.server.owns f.connect ∧ f.connect < s.server.next →
      s'.server.owns f.connect ∧ f.connect < s'.server.next := fun f hf =>
    ⟨hkeeps f.connect hf.2 hf.1, Nat.lt_of_lt_of_le hf.2 hnext⟩
  rcases loops_of_step hrun with ⟨k, u, rfl, hstep, -⟩ | ⟨-, hsame, -⟩
  · refine ⟨loopsHold_step h.hold hstep, fun f hf => hlive f ?_⟩
    rcases holds_step h.hold hstep hf with hold | ⟨x, j, rfl, hother⟩
    · exact h.live f hold
    · exact ⟨hok.post x j f a found rfl hother, hadmits.1⟩
  · refine ⟨by rw [hsame]; exact h.hold, fun f hf => hlive f (h.live f ?_)⟩
    rwa [hsame] at hf

theorem serving (h : HeldLive s) {k : ServingStep}
    (hs : posting.step s (.serving k) = some (s', o))
    (hok : PostedInTime s (.serving k) s' o) : HeldLive s' := by
  obtain ⟨hsame, -, line, hstep⟩ := posting_serving hs
  refine ⟨by rw [hsame]; exact h.hold, fun f hf => ?_⟩
  rw [hsame] at hf
  obtain ⟨howns, hlt⟩ := h.live f hf
  by_cases hk : ∃ i io, k = .threads (.callback i io)
  · obtain ⟨i, io, rfl⟩ := hk
    obtain ⟨hnext, hiff⟩ := owns_callback hstep
    exact ⟨(hiff f.connect).mpr ⟨howns, fun id hnow => hok.close _ id rfl hnow f hf⟩,
      Nat.lt_of_lt_of_eq hlt hnext.symm⟩
  · obtain ⟨hnext, hkeeps⟩ := owns_step hstep fun i io heq => hk ⟨i, io, heq⟩
    exact ⟨hkeeps f.connect hlt howns, Nat.lt_of_lt_of_le hlt hnext⟩

theorem step (h : HeldLive s) (hs : posting.step s l = some (s', o))
    (hok : PostedInTime s l s' o) : HeldLive s' := by
  cases l with
  | loops l a found => exact h.loops hs hok
  | serving k => exact h.serving hs hok

theorem noneDangling (h : HeldLive s) (hs : posting.step s l = some (s', o))
    (h' : HeldLive s') : NoneDangling s l s' o := by
  refine ⟨fun i f hstarted => (h.live f ?_).1, fun f hf => (h'.live f hf).1⟩
  cases l with
  | loops l a found =>
    obtain ⟨-, hrun, -, -⟩ := posting_loops hs
    rw [hstarted] at hrun
    exact holds_of_started hrun
  | serving k =>
    obtain ⟨-, hnone, -⟩ := posting_serving hs
    cases hstarted.symm.trans hnone

/-- **A write posted too late, or a close too early, leaves one dangling.** -/
theorem postedInTime (hs : posting.step s l = some (s', o))
    (hlaw : NoneDangling s l s' o) : PostedInTime s l s' o := by
  constructor
  · rintro x j f a found rfl hother
    obtain ⟨-, hrun, -, hthreads⟩ := posting_loops hs
    rcases loops_of_step hrun with ⟨k, u, heq, hstep, hshows⟩ | ⟨hno, -, -⟩
    · cases heq
      -- it is queued: no write begins, and the server stays as it is
      have hbegins : begins (.step (.runInLoop x j f)) o.loops = none := by
        rw [hshows]
        cases x with
        | other n => rfl
        | loop i => exact if_neg fun heq => hother (congrArg LoopThread.loop heq)
      have howns := hlaw.2 f (holds_of_runInLoop hstep hother)
      rwa [PostingServer.server, hthreads hbegins] at howns
    · exact absurd rfl (hno _)
  · rintro k id rfl hnow f hf
    obtain ⟨hsame, -, line, hstep⟩ := posting_serving hs
    have howns := hlaw.2 f (by rw [hsame]; exact hf)
    have hk := hnow
    obtain ⟨i, io, cb, rest, rfl, -⟩ := hk
    exact (((owns_callback hstep).2 f.connect).mp howns).2 id hnow

end HeldLive

theorem heldLive_initial (poolSize : Nat) (loops : Nat → World TcpCallback) :
    HeldLive (.initial poolSize loops) where
  hold := loopsHold_initial postedWrites
  live _ hf := by
    rcases hf with ⟨i, hqueued⟩ | ⟨x, i, hadding⟩
    · cases hqueued
    · cases hadding

/-- **A posted write is never left without its connection**, at any point of any interleaving,
    exactly when writes are posted to connections that the pool has, and no connection closes while
    a write for it is held. Neither `writeInLoop` nor `connectCloseEvent` sees to the second. -/
theorem held_connections_live (poolSize : Nat) (loops : Nat → World TcpCallback)
    (ls : List PostingStep) :
    posting.Along NoneDangling (.initial poolSize loops) ls ↔
      posting.Along PostedInTime (.initial poolSize loops) ls := by
  refine Machine.along_iff (I := HeldLive) (fun s l s' o h hs => ?_)
    (heldLive_initial poolSize loops)
  exact ⟨⟨HeldLive.postedInTime hs, fun hok => h.noneDangling hs (h.step hs hok)⟩, h.step hs⟩

/-- The peer ends the stream in the turn in which the worker gets to the writes. -/
def closesBeforeThem : List PostingStep :=
  [.serving (.threads (.report 0 EPOLLIN)),
    .serving (.threads (.callback 1 ⟨⟨0, [], 0⟩, ⟨0, 0⟩⟩)),
    .loops (.step (.runAllFunctionInLoop 1)) ⟨0, 0⟩ []]

/-- The worker begins the first write, and its connection is gone. -/
theorem held_connections_live_closesBeforeThem : ∃ s os,
    posting.run (.initial 1 fun _ => .initial ∅ 8)
        (twoThreadsPost ++ closesBeforeThem ++ [.loops (.step (.next 1)) ⟨0, 0⟩ [1, 2]]) =
        some (s, os) ∧
      startedOn 1 (loopsLog os) = [⟨0, [1, 2]⟩] ∧ ¬ s.server.owns 0 ∧
      ¬ posting.Along PostedInTime (.initial 1 fun _ => .initial ∅ 8)
        (twoThreadsPost ++ closesBeforeThem ++ [.loops (.step (.next 1)) ⟨0, 0⟩ [1, 2]]) := by
  have hend : (posting.run (.initial 1 fun _ => .initial ∅ 8)
      (twoThreadsPost ++ closesBeforeThem ++ [.loops (.step (.next 1)) ⟨0, 0⟩ [1, 2]])).map
      (fun p =>
        (startedOn 1 (loopsLog p.2), decide (p.1.server.owns 0), p.1.loops.loops.queued 1)) =
      some ([⟨0, [1, 2]⟩], false, [⟨0, [3]⟩]) := by decide +kernel
  obtain ⟨⟨s, os⟩, hrun, hseen⟩ := Option.map_eq_some_iff.mp hend
  obtain ⟨hstarted, hseen⟩ := Prod.mk.inj hseen
  obtain ⟨howns, hqueued⟩ := Prod.mk.inj hseen
  have hgone : ¬ s.server.owns 0 := of_decide_eq_false howns
  refine ⟨s, os, hrun, hstarted, hgone, fun h => ?_⟩
  -- the second write is still in the list
  have hheld : s.loops.loops.Holds ⟨0, [3]⟩ :=
    .inl ⟨1, by rw [hqueued]; exact List.mem_singleton_self _⟩
  obtain ⟨_, _, _, -, -, hnone⟩ :=
    Machine.along_last ((held_connections_live 1 _ _).mpr h) hrun
  exact hgone (hnone.2 _ hheld)

end PluginsEngine
