/-
  File:      PluginsEngine/Timer/Pass.lean
  Subject:   ONE PASS OF `timerHandle`, under any clock (timer/timerQueue.cpp).

  A pass whose callbacks add no timers does what the clock makes it do: `timerPass` takes the
  pieces of `timerHandle` one after the other, and a label is what the clock reads at a piece. A
  clock is a stream of readings that does not go back.

  * `scan` -- the timers a loop over a multimap finds due when it only looks at the nodes that
    were there at first: two readings a timer, one to find it due and one behind its callback;
  * `onceLoop` -- what the loop over `onceTimers` does: it fires the scan and erases it;
  * `recurringLoop` -- what the loop over `recurringTimers` does, as long as no timer that has come
    back is due by the end of the scan: it fires the scan, and every timer comes back under its
    new deadline;
  * `recurringLoop_refires` -- otherwise a timer fires twice;
  * `pass_returns`, `pass_refires` -- the same for a whole pass;
  * `timerQueue_run_of_pass` -- a pass is a run of the queue in which no timer is added.
-/
import Mathlib.Data.Stream.Init
import PluginsEngine.Timer.TimerQueue

namespace PluginsEngine

open Library TimerState

/-! ## 1. A pass under a clock -/

/-- The piece of `timerHandle` that comes next, when the clock reads `t`. -/
def TimerState.piece (s : TimerState) (t : Nat) : Option TimerStep :=
  match s.pc with
  | .idle => none
  | .loop _ none => some .loopEnd
  | .loop _ (some _) => some (.check t)
  | .firing _ _ => some (.callbackReturns t)
  | .resetting => some (.resetTimer t)

/-- A pass whose callbacks add no timers; it stops when `timerHandle` has returned. -/
def timerPass : Machine TimerState Nat TimerShown where
  step s t := (s.piece t).bind (timerQueue.step s)

/-- `timerHandle` has been called. -/
def TimerState.enter (s : TimerState) : TimerState :=
  { s with pc := .loop .once s.queue.onceTimers.begin }

/-- A clock that does not go back and reads `t₀` or more. -/
structure Ticks (t₀ : Nat) (c : Stream' Nat) : Prop where
  mono : ∀ i, c.get i ≤ c.get (i + 1)
  valid : ∀ i, ValidReading (c.get i)
  start : t₀ ≤ c.head

/-- A timer a loop finds due, with the reading that finds it due and the one taken when its
    callback has returned. -/
structure Firing where
  node : Node Nat TimerId
  found : Nat
  back : Nat
  deriving DecidableEq, Repr

/-- The nodes from the front that are due, up to the first one that is not. -/
def scan : List (Node Nat TimerId) → Stream' Nat → List Firing
  | [], _ => []
  | n :: ns, c =>
    if n.key ≤ Timer.getNowTimeMSecond c.head then
      ⟨n, c.head, c.tail.head⟩ :: scan ns c.tail.tail
    else []

/-- What a firing shows. -/
def Firing.shown (kind : TimerKind) (f : Firing) : TimerKind × TimerId × Nat :=
  (kind, f.node.value, f.found)

/-- The callbacks a pass invoked, with the readings that found their timers due. -/
def firings (os : List TimerShown) : List (TimerKind × TimerId × Nat) :=
  os.filterMap TimerShown.fired

/-- The nodes under which recurring timers come back: their keys are the readings behind their
    callbacks plus their intervals. -/
def renewed (interval : TimerId → UInt32) : Nat → List Firing → List (Node Nat TimerId)
  | _, [] => []
  | id, f :: fs =>
    ⟨id, Timer.getNowTimeMSecond f.back + (interval f.node.value).toNat, f.node.value⟩ ::
      renewed interval (id + 1) fs

/-- The nodes `as` put into `ns`, one after the other. -/
def insertAll (ns as : List (Node Nat TimerId)) : List (Node Nat TimerId) :=
  as.foldl (fun ns a => insertNode a ns) ns

/-- The interval of each timer. -/
def TimerQueue.interval (q : TimerQueue) (timer : TimerId) : UInt32 := (q.timer timer).intervalMs

/-- The Timer objects after the firings `fs` of recurring timers, each updated at the reading
    behind its callback. -/
def updateAll (timer : TimerId → Timer) (fs : List Firing) : TimerId → Timer :=
  fs.foldl (fun timer f =>
    Function.update timer f.node.value ((timer f.node.value).update f.back)) timer

/-- The timers whose callbacks a pass invoked. -/
def firedTimers (os : List TimerShown) : List TimerId := (firings os).map fun f => f.2.1

/-! ## 2. Clocks -/

namespace Ticks

variable {t₀ : Nat} {c : Stream' Nat}

theorem tail (h : Ticks t₀ c) : Ticks c.head c.tail where
  mono i := h.mono (i + 1)
  valid i := h.valid (i + 1)
  start := h.mono 0

theorem of_le {t : Nat} (h : Ticks t₀ c) (ht : t ≤ c.head) : Ticks t c :=
  ⟨h.mono, h.valid, ht⟩

theorem get_le (h : Ticks t₀ c) {i j : Nat} (hij : i ≤ j) : c.get i ≤ c.get j :=
  monotone_nat_of_le_succ h.mono hij

theorem drop (h : Ticks t₀ c) (n : Nat) : Ticks t₀ (c.drop n) where
  mono i := by
    rw [Stream'.get_drop, Stream'.get_drop]
    exact h.mono (n + i)
  valid i := by
    rw [Stream'.get_drop]
    exact h.valid (n + i)
  start := by
    rw [Stream'.head_drop]
    exact Nat.le_trans h.start (h.get_le (Nat.zero_le n))

/-- The clock in milliseconds does not go back either. -/
theorem ms_le (h : Ticks t₀ c) {i j : Nat} (hij : i ≤ j) :
    Timer.getNowTimeMSecond (c.get i) ≤ Timer.getNowTimeMSecond (c.get j) := by
  rw [Timer.getNowTimeMSecond_eq (h.valid i), Timer.getNowTimeMSecond_eq (h.valid j)]
  exact Nat.div_le_div_right (h.get_le hij)

theorem reads {s : TimerState} (h : Ticks s.clock c) : s.reads c.head :=
  ⟨h.start, h.valid 0⟩

theorem const {t : Nat} (ht : ValidReading t) : Ticks t (Stream'.const t) :=
  ⟨fun _ => Nat.le_refl _, fun _ => ht, Nat.le_refl _⟩

end Ticks

/-! ## 3. The pieces of a pass -/

namespace TimerState

variable {s : TimerState} {kind : TimerKind} {n : Node Nat TimerId} {ns : List (Node Nat TimerId)}
  {t t' : Nat}

/-- A loop is left at its end, or at a node that is not due. -/
theorem pass_leave (hpc : s.pc = .loop kind (s.queue.timers kind).begin) (hr : s.reads t)
    (hlater : ∀ n ∈ (s.queue.timers kind).nodes, Timer.getNowTimeMSecond t < n.key) :
    ∃ clock ≤ t, timerPass.step s t = some (⟨s.queue, s.leave kind, clock⟩, quiet) := by
  cases hnodes : (s.queue.timers kind).nodes with
  | nil =>
    rw [Multimap.begin_eq_none.mpr hnodes] at hpc
    refine ⟨s.clock, hr.1, ?_⟩
    simp only [timerPass, piece, hpc, Option.bind_some, timerQueue]
  | cons n ns =>
    have hlt := hlater n (Multimap.first_mem hnodes)
    rw [Multimap.begin_eq_some hnodes] at hpc
    refine ⟨t, Nat.le_refl t, ?_⟩
    simp only [timerPass, piece, hpc, Option.bind_some, timerQueue, Multimap.deref_begin hnodes,
      if_pos hr, if_pos hlt]

/-- The first node is due, and the callback of its timer is invoked. -/
theorem pass_fire (hpc : s.pc = .loop kind (s.queue.timers kind).begin) (hr : s.reads t)
    (hnodes : (s.queue.timers kind).nodes = n :: ns) (hdue : n.key ≤ Timer.getNowTimeMSecond t) :
    timerPass.step s t = some (⟨s.queue, .firing kind n.id, t⟩,
      ⟨none, some (kind, n.value, t), none⟩) := by
  rw [Multimap.begin_eq_some hnodes] at hpc
  simp only [timerPass, piece, hpc, Option.bind_some, timerQueue, Multimap.deref_begin hnodes,
    if_pos hr, if_neg (Nat.not_lt.mpr hdue)]

/-- A callback returns, and its node goes. -/
theorem pass_return (hpc : s.pc = .firing kind n.id) (hr : s.reads t)
    (hnodes : (s.queue.timers kind).nodes = n :: ns) :
    timerPass.step s t = some (⟨(s.queue.afterCallback kind n.id n.value t).1,
      .loop kind (s.queue.afterCallback kind n.id n.value t).2, t⟩, quiet) := by
  simp only [timerPass, piece, hpc, Option.bind_some, timerQueue, Multimap.deref_begin hnodes,
    if_pos hr]

/-- `resetTimer()` touches the timerfd only. -/
theorem pass_reset (hpc : s.pc = .resetting) (hr : s.reads t) :
    ∃ timerFd armed, timerPass.step s t =
      some (⟨{ s.queue with timerFd := timerFd }, .idle, t⟩, ⟨none, none, armed⟩) := by
  have hreset : ∃ timerFd armed, s.queue.resetEarliest t =
      ({ s.queue with timerFd := timerFd }, armed) := by
    unfold TimerQueue.resetEarliest TimerQueue.resetTimer
    split
    · exact ⟨_, _, rfl⟩
    · exact ⟨_, _, rfl⟩
    · exact ⟨_, _, rfl⟩
    · split
      · exact ⟨_, _, rfl⟩
      · exact ⟨_, _, rfl⟩
  obtain ⟨timerFd, armed, heq⟩ := hreset
  refine ⟨timerFd, armed, ?_⟩
  simp only [timerPass, piece, hpc, Option.bind_some, timerQueue, if_pos hr, heq]

/-- Two pieces. -/
theorem pass_two {s₁ s₂ : TimerState} {o₁ o₂ : TimerShown}
    (h₁ : timerPass.step s t = some (s₁, o₁)) (h₂ : timerPass.step s₁ t' = some (s₂, o₂)) :
    timerPass.run s [t, t'] = some (s₂, [o₁, o₂]) :=
  Machine.run_cons_iff.mpr
    ⟨s₁, o₁, [o₂], h₁, Machine.run_cons_iff.mpr ⟨s₂, o₂, [], h₂, rfl, rfl⟩, rfl⟩

/-- **A round of the first loop**: the first timer fires and is erased. -/
theorem onceRound (hpc : s.pc = .loop .once s.queue.onceTimers.begin) (hr : s.reads t)
    (hnodes : s.queue.onceTimers.nodes = n :: ns) (hdue : n.key ≤ Timer.getNowTimeMSecond t)
    (htt : t ≤ t') (hv : ValidReading t') :
    ∃ m : Multimap Nat TimerId, m.nodes = ns ∧ timerPass.run s [t, t'] =
      some (⟨{ s.queue with timers := Function.update s.queue.timers .once m },
        .loop .once m.begin, t'⟩, [⟨none, some (.once, n.value, t), none⟩, quiet]) := by
  have hfire := pass_fire hpc hr hnodes hdue
  have hpc' : (⟨s.queue, .firing .once n.id, t⟩ : TimerState).pc = .firing .once n.id := rfl
  have hback := pass_return hpc' ⟨htt, hv⟩ hnodes
  obtain ⟨m, hm, hafter⟩ := TimerQueue.afterCallback_once hnodes n.value t'
  rw [hafter] at hback
  exact ⟨m, hm, pass_two hfire hback⟩

/-- **A round of the second loop**: the first timer fires, and its node is replaced by one under
    its new deadline. -/
theorem recurringRound (hpc : s.pc = .loop .recurring s.queue.recurringTimers.begin)
    (hr : s.reads t) (hnodes : s.queue.recurringTimers.nodes = n :: ns)
    (hdue : n.key ≤ Timer.getNowTimeMSecond t) (htt : t ≤ t') (hv : ValidReading t') :
    ∃ m : Multimap Nat TimerId,
      m.nodes = insertNode ⟨s.queue.recurringTimers.next, Timer.getNowTimeMSecond t' +
        (s.queue.timer n.value).intervalMs.toNat, n.value⟩ ns ∧
      m.next = s.queue.recurringTimers.next + 1 ∧ timerPass.run s [t, t'] =
      some (⟨{ s.queue with
          timer := Function.update s.queue.timer n.value ((s.queue.timer n.value).update t')
          timers := Function.update s.queue.timers .recurring m },
        .loop .recurring m.begin, t'⟩, [⟨none, some (.recurring, n.value, t), none⟩, quiet]) := by
  have hkey : ((s.queue.timer n.value).update t').getTimeOutMSecond =
      Timer.getNowTimeMSecond t' + (s.queue.timer n.value).intervalMs.toNat := by
    rw [Timer.getNowTimeMSecond_eq hv]
    exact Timer.getTimeOutMSecond_eq
      (show ((s.queue.timer n.value).update t').UpdatedAt t' from rfl) hv
  have hms : Timer.getNowTimeMSecond t ≤ Timer.getNowTimeMSecond t' := by
    rw [Timer.getNowTimeMSecond_eq hr.2, Timer.getNowTimeMSecond_eq hv]
    exact Nat.div_le_div_right htt
  have hfire := pass_fire hpc hr hnodes hdue
  have hpc' : (⟨s.queue, .firing .recurring n.id, t⟩ : TimerState).pc =
    .firing .recurring n.id := rfl
  have hback := pass_return hpc' ⟨htt, hv⟩ hnodes
  obtain ⟨m, hm, hnext, hafter⟩ := TimerQueue.afterCallback_recurring_insert hnodes
    (t := t') (by omega)
  rw [hafter] at hback
  rw [hkey] at hm
  exact ⟨m, hm, hnext, pass_two hfire hback⟩

end TimerState

/-! ## 4. The first loop -/

theorem firings_cons_some (o : TimerShown) {f : TimerKind × TimerId × Nat} (ho : o.fired = some f)
    (os : List TimerShown) : firings (o :: os) = f :: firings os :=
  List.filterMap_cons_some ho

theorem firings_cons_none (o : TimerShown) (ho : o.fired = none) (os : List TimerShown) :
    firings (o :: os) = firings os :=
  List.filterMap_cons_none ho

theorem firings_append (os₁ os₂ : List TimerShown) :
    firings (os₁ ++ os₂) = firings os₁ ++ firings os₂ :=
  List.filterMap_append

/-- A round and a run behind it. -/
theorem round_append {s s₁ s' : TimerState} {c : Stream' Nat} {n : Nat} {os₁ os : List TimerShown}
    (h₁ : timerPass.run s [c.head, c.tail.head] = some (s₁, os₁))
    (h : timerPass.run s₁ (c.tail.tail.take n) = some (s', os)) :
    timerPass.run s (c.take (n + 2)) = some (s', os₁ ++ os) := by
  have htake : c.take (n + 2) = [c.head, c.tail.head] ++ c.tail.tail.take n := by
    rw [Stream'.take_succ, Stream'.take_succ]
    rfl
  rw [htake]
  exact Machine.run_append_iff.mpr ⟨s₁, os₁, os, h₁, h, rfl⟩

theorem scan_cons_of_due {n : Node Nat TimerId} {c : Stream' Nat}
    (h : n.key ≤ Timer.getNowTimeMSecond c.head) (ns : List (Node Nat TimerId)) :
    scan (n :: ns) c = ⟨n, c.head, c.tail.head⟩ :: scan ns c.tail.tail :=
  if_pos h

theorem scan_cons_of_later {n : Node Nat TimerId} {c : Stream' Nat}
    (h : ¬ n.key ≤ Timer.getNowTimeMSecond c.head) (ns : List (Node Nat TimerId)) :
    scan (n :: ns) c = [] :=
  if_neg h

/-- **What a loop has done**, with the firings `fs` behind it. -/
structure LoopDone (kind : TimerKind) (s : TimerState) (c : Stream' Nat) (fs : List Firing)
    (s' : TimerState) (os : List TimerShown) : Prop where
  run : timerPass.run s (c.take (2 * fs.length + 1)) = some (s', os)
  shown : firings os = fs.map (Firing.shown kind)
  clock : s'.clock ≤ c.get (2 * fs.length)

/-- A loop that fires nothing. -/
theorem loopDone_leave {kind : TimerKind} {s : TimerState} {c : Stream' Nat}
    (hpc : s.pc = .loop kind (s.queue.timers kind).begin) (hc : Ticks s.clock c)
    (hlater : ∀ n ∈ (s.queue.timers kind).nodes, Timer.getNowTimeMSecond c.head < n.key) :
    ∃ clock, LoopDone kind s c [] ⟨s.queue, s.leave kind, clock⟩ [quiet] := by
  obtain ⟨clock, hle, hs⟩ := pass_leave hpc hc.reads hlater
  exact ⟨clock, Machine.run_cons_iff.mpr ⟨_, _, _, hs, rfl, rfl⟩, rfl, hle⟩

/-- A loop that fires a timer first. -/
theorem LoopDone.round {kind : TimerKind} {s s₁ s' : TimerState} {c : Stream' Nat}
    {n : Node Nat TimerId} {fs : List Firing} {os : List TimerShown}
    (h₁ : timerPass.run s [c.head, c.tail.head] =
      some (s₁, [⟨none, some (kind, n.value, c.head), none⟩, quiet]))
    (h : LoopDone kind s₁ c.tail.tail fs s' os) :
    LoopDone kind s c (⟨n, c.head, c.tail.head⟩ :: fs) s'
      (⟨none, some (kind, n.value, c.head), none⟩ :: quiet :: os) where
  run := round_append h₁ h.run
  shown := by
    rw [firings_cons_some _ rfl, firings_cons_none _ rfl, h.shown]
    rfl
  clock := h.clock

/-- **The loop over `onceTimers`** fires what its scan finds due, and erases it. -/
theorem onceLoop (ns : List (Node Nat TimerId)) {s : TimerState} {c : Stream' Nat}
    (hpc : s.pc = .loop .once s.queue.onceTimers.begin) (hnodes : s.queue.onceTimers.nodes = ns)
    (hc : Ticks s.clock c) :
    ∃ s' os, LoopDone .once s c (scan ns c) s' os ∧
      s'.pc = .loop .recurring s'.queue.recurringTimers.begin ∧
      s'.queue.onceTimers.nodes = ns.drop (scan ns c).length ∧
      s'.queue.recurringTimers = s.queue.recurringTimers ∧ s'.queue.timer = s.queue.timer := by
  induction ns generalizing s c with
  | nil =>
    obtain ⟨clock, hdone⟩ := loopDone_leave hpc hc (fun n hn => by
      rw [hnodes] at hn
      exact absurd hn List.not_mem_nil)
    exact ⟨_, _, hdone, rfl, hnodes, rfl, rfl⟩
  | cons n ns ih =>
    by_cases hdue : n.key ≤ Timer.getNowTimeMSecond c.head
    · obtain ⟨m, hm, hround⟩ := onceRound hpc hc.reads hnodes hdue (hc.mono 0) (hc.valid 1)
      obtain ⟨s', os, hdone, hpc', honce, hrec, htimer⟩ := ih
        (s := ⟨{ s.queue with timers := Function.update s.queue.timers .once m },
          .loop .once m.begin, c.tail.head⟩) (c := c.tail.tail) rfl hm hc.tail.tail
      rw [scan_cons_of_due hdue]
      exact ⟨s', _, hdone.round hround, hpc', honce, hrec, htimer⟩
    · obtain ⟨clock, hdone⟩ := loopDone_leave hpc hc fun x hx =>
        Nat.lt_of_lt_of_le (Nat.not_le.mp hdue) (Multimap.key_le hnodes x hx)
      rw [scan_cons_of_later hdue]
      exact ⟨_, _, hdone, rfl, hnodes, rfl, rfl⟩

/-! ## 5. The second loop -/

section

variable {n : Node Nat TimerId} {ns as : List (Node Nat TimerId)}

/-- What is below the first key of a sorted list is below all. -/
theorem lt_of_first {k : Nat} (h : ∀ x ∈ ns, n.key ≤ x.key) (hk : k < n.key) :
    ∀ x ∈ n :: ns, k < x.key := by
  refine List.forall_mem_cons.mpr ⟨hk, fun x hx => ?_⟩
  have hle := h x hx
  omega

theorem mem_insertAll {x : Node Nat TimerId} : x ∈ insertAll ns as ↔ x ∈ ns ∨ x ∈ as := by
  induction as generalizing ns with
  | nil => simp only [insertAll, List.foldl_nil, List.not_mem_nil, or_false]
  | cons a as ih =>
    have hstep : insertAll ns (a :: as) = insertAll (insertNode a ns) as := rfl
    rw [hstep, ih, (insertNode_perm a ns).mem_iff, List.mem_cons, List.mem_cons]
    tauto

/-- What is not smaller than the first key goes behind the first node. -/
theorem insertAll_cons_of_le (h : ∀ a ∈ as, n.key ≤ a.key) :
    insertAll (n :: ns) as = n :: insertAll ns as := by
  induction as generalizing ns with
  | nil => rfl
  | cons a as ih =>
    obtain ⟨ha, has⟩ := List.forall_mem_cons.mp h
    show insertAll (insertNode a (n :: ns)) as = _
    rw [insertNode_cons_of_le ha]
    exact ih has

theorem insertAll_append (a : Node Nat TimerId) :
    insertAll ns (as ++ [a]) = insertNode a (insertAll ns as) := by
  rw [insertAll, List.foldl_append]
  rfl

end

/-- An update leaves the intervals. -/
theorem interval_update (q : TimerQueue) (timer : TimerId) (t : Nat)
    (m : TimerKind → Multimap Nat TimerId) :
    ({ q with
      timer := Function.update q.timer timer ((q.timer timer).update t), timers := m } :
      TimerQueue).interval = q.interval := by
  funext x
  show (Function.update q.timer timer ((q.timer timer).update t) x).intervalMs = _
  by_cases hx : x = timer
  · rw [hx, Function.update_self]
    rfl
  · rw [Function.update_of_ne hx]
    rfl

section

variable {s : TimerState} {c : Stream' Nat} {n : Node Nat TimerId}
  {ns as : List (Node Nat TimerId)}

/-- A round that fires a timer which was there at first, with the nodes `as` of timers that have
    come back. -/
theorem renewRound (hpc : s.pc = .loop .recurring s.queue.recurringTimers.begin)
    (hnodes : s.queue.recurringTimers.nodes = insertAll (n :: ns) as) (hc : Ticks s.clock c)
    (hdue : n.key ≤ Timer.getNowTimeMSecond c.head) (hfirst : ∀ a ∈ as, n.key ≤ a.key) :
    ∃ s₁, timerPass.run s [c.head, c.tail.head] =
        some (s₁, [⟨none, some (.recurring, n.value, c.head), none⟩, quiet]) ∧
      s₁.pc = .loop .recurring s₁.queue.recurringTimers.begin ∧
      s₁.queue.recurringTimers.nodes = insertAll ns (as ++ [⟨s.queue.recurringTimers.next,
        Timer.getNowTimeMSecond c.tail.head + (s.queue.interval n.value).toNat, n.value⟩]) ∧
      s₁.queue.recurringTimers.next = s.queue.recurringTimers.next + 1 ∧
      s₁.queue.interval = s.queue.interval ∧ s₁.queue.onceTimers = s.queue.onceTimers ∧
      s₁.queue.timer = Function.update s.queue.timer n.value
        ((s.queue.timer n.value).update c.tail.head) ∧
      s₁.clock = c.tail.head := by
  rw [insertAll_cons_of_le hfirst] at hnodes
  obtain ⟨m, hm, hnext, hround⟩ :=
    recurringRound hpc hc.reads hnodes hdue (hc.mono 0) (hc.valid 1)
  refine ⟨_, hround, rfl, ?_, hnext, interval_update _ _ _ _, rfl, rfl, rfl⟩
  rw [insertAll_append]
  exact hm

/-- The loop ends when nothing is due, neither what was there at first nor what has come back. -/
theorem recurringLeave (hpc : s.pc = .loop .recurring s.queue.recurringTimers.begin)
    (hnodes : s.queue.recurringTimers.nodes = insertAll ns as) (hc : Ticks s.clock c)
    (hns : ∀ x ∈ ns, Timer.getNowTimeMSecond c.head < x.key)
    (has : ∀ a ∈ as, Timer.getNowTimeMSecond c.head < a.key) :
    ∃ clock, LoopDone .recurring s c [] ⟨s.queue, .resetting, clock⟩ [quiet] :=
  loopDone_leave hpc hc fun x hx => by
    rw [hnodes] at hx
    exact (mem_insertAll.mp hx).elim (hns x) (has x)

/-- **The loop over `recurringTimers`** fires what its scan finds due, and renews it, as long as
    no timer that has come back is due by the end of the scan. -/
theorem recurringLoop (ns : List (Node Nat TimerId))
    (hsorted : ns.Pairwise fun a b => a.key ≤ b.key)
    (hpc : s.pc = .loop .recurring s.queue.recurringTimers.begin)
    (hnodes : s.queue.recurringTimers.nodes = insertAll ns as) (hc : Ticks s.clock c)
    (hlater : ∀ a ∈ as ++ renewed s.queue.interval s.queue.recurringTimers.next (scan ns c),
      Timer.getNowTimeMSecond (c.get (2 * (scan ns c).length)) < a.key) :
    ∃ s' os, LoopDone .recurring s c (scan ns c) s' os ∧ s'.pc = .resetting ∧
      s'.queue.recurringTimers.nodes = insertAll (ns.drop (scan ns c).length)
        (as ++ renewed s.queue.interval s.queue.recurringTimers.next (scan ns c)) ∧
      s'.queue.onceTimers = s.queue.onceTimers ∧
      s'.queue.timer = updateAll s.queue.timer (scan ns c) := by
  induction ns generalizing s c as with
  | nil =>
    have has : as ++ renewed s.queue.interval s.queue.recurringTimers.next (scan [] c) = as :=
      List.append_nil as
    rw [has] at hlater ⊢
    obtain ⟨clock, hdone⟩ :=
      recurringLeave hpc hnodes hc (fun x hx => absurd hx List.not_mem_nil) hlater
    exact ⟨_, _, hdone, rfl, hnodes, rfl, rfl⟩
  | cons n ns ih =>
    obtain ⟨hn, hns⟩ := List.pairwise_cons.mp hsorted
    by_cases hdue : n.key ≤ Timer.getNowTimeMSecond c.head
    · rw [scan_cons_of_due hdue] at hlater ⊢
      -- what has come back is not due at any reading of the scan, so it stands behind `n`
      have hfirst : ∀ a ∈ as, n.key ≤ a.key := by
        intro a ha
        have hback := hlater a (List.mem_append_left _ ha)
        exact Nat.le_of_lt (Nat.lt_of_le_of_lt
          (Nat.le_trans hdue (hc.ms_le (Nat.zero_le _))) hback)
      obtain ⟨s₁, hround, hpc₁, hnodes₁, hnext₁, hinterval₁, honce₁, htimer₁, hclock₁⟩ :=
        renewRound hpc hnodes hc hdue hfirst
      have hc₁ : Ticks s₁.clock c.tail.tail := by
        rw [hclock₁]
        exact hc.tail.tail
      -- the timer that has just come back is one of those that came back
      have hrenewed := List.append_assoc as [⟨s.queue.recurringTimers.next,
        Timer.getNowTimeMSecond c.tail.head + (s.queue.interval n.value).toNat, n.value⟩]
        (renewed s.queue.interval (s.queue.recurringTimers.next + 1) (scan ns c.tail.tail))
      obtain ⟨s', os, hdone, hpc', hrec, honce, htimer⟩ := ih hns hpc₁ hnodes₁ hc₁ (by
        rw [hinterval₁, hnext₁, hrenewed]
        exact hlater)
      rw [hinterval₁, hnext₁, hrenewed] at hrec
      rw [htimer₁] at htimer
      exact ⟨s', _, hdone.round hround, hpc', hrec, honce.trans honce₁, htimer⟩
    · rw [scan_cons_of_later hdue] at hlater ⊢
      have has : as ++ renewed s.queue.interval s.queue.recurringTimers.next [] = as :=
        List.append_nil as
      rw [has] at hlater ⊢
      obtain ⟨clock, hdone⟩ :=
        recurringLeave hpc hnodes hc (lt_of_first hn (Nat.not_le.mp hdue)) hlater
      exact ⟨_, _, hdone, rfl, hnodes, rfl, rfl⟩

/-- When a timer that has come back is due before all that were there at first, one of those that
    have come back fires. -/
theorem refire (hpc : s.pc = .loop .recurring s.queue.recurringTimers.begin)
    (hnodes : s.queue.recurringTimers.nodes = insertAll ns as) (hc : Ticks s.clock c)
    {a : Node Nat TimerId} (ha : a ∈ as) (hdue : a.key ≤ Timer.getNowTimeMSecond c.head)
    (hns : ∀ x ∈ ns, a.key < x.key) :
    ∃ s' os, timerPass.run s (c.take 1) = some (s', os) ∧
      ¬ (as.map Node.value ++ firedTimers os).Nodup := by
  have hmem : a ∈ s.queue.recurringTimers.nodes := by
    rw [hnodes]
    exact mem_insertAll.mpr (Or.inr ha)
  cases hfirst : s.queue.recurringTimers.nodes with
  | nil =>
    rw [hfirst] at hmem
    exact absurd hmem List.not_mem_nil
  | cons x xs =>
    have hle := Multimap.key_le hfirst a hmem
    have hx : x ∈ as := by
      rcases mem_insertAll.mp (hnodes ▸ Multimap.first_mem hfirst) with hx | hx
      · exact absurd (hns x hx) (Nat.not_lt.mpr hle)
      · exact hx
    have hfire := pass_fire hpc hc.reads hfirst (Nat.le_trans hle hdue)
    refine ⟨_, _, Machine.run_cons_iff.mpr ⟨_, _, _, hfire, rfl, rfl⟩, fun hnodup => ?_⟩
    exact (List.nodup_append.mp hnodup).2.2 x.value (List.mem_map_of_mem hx) x.value
      (List.mem_singleton_self _) rfl

/-- **A timer fires twice** when one that has come back is due at the end of the scan. -/
theorem recurringLoop_refires (ns : List (Node Nat TimerId))
    (hsorted : ns.Pairwise fun a b => a.key ≤ b.key)
    (hpc : s.pc = .loop .recurring s.queue.recurringTimers.begin)
    (hnodes : s.queue.recurringTimers.nodes = insertAll ns as) (hc : Ticks s.clock c)
    {a : Node Nat TimerId}
    (ha : a ∈ as ++ renewed s.queue.interval s.queue.recurringTimers.next (scan ns c))
    (hdue : a.key ≤ Timer.getNowTimeMSecond (c.get (2 * (scan ns c).length))) :
    ∃ k s' os, timerPass.run s (c.take k) = some (s', os) ∧
      ¬ (as.map Node.value ++ firedTimers os).Nodup := by
  induction ns generalizing s c as with
  | nil =>
    have has : a ∈ as := by
      rcases List.mem_append.mp ha with ha | ha
      · exact ha
      · exact absurd ha List.not_mem_nil
    exact ⟨1, refire hpc hnodes hc has hdue fun x hx => absurd hx List.not_mem_nil⟩
  | cons n ns ih =>
    obtain ⟨hn, hns⟩ := List.pairwise_cons.mp hsorted
    by_cases hdue' : n.key ≤ Timer.getNowTimeMSecond c.head
    · rw [scan_cons_of_due hdue'] at ha hdue
      by_cases hfirst : ∀ a ∈ as, n.key ≤ a.key
      · obtain ⟨s₁, hround, hpc₁, hnodes₁, hnext₁, hinterval₁, -, -, hclock₁⟩ :=
          renewRound hpc hnodes hc hdue' hfirst
        have hc₁ : Ticks s₁.clock c.tail.tail := by
          rw [hclock₁]
          exact hc.tail.tail
        obtain ⟨k, s', os, hrun, htwice⟩ := ih hns hpc₁ hnodes₁ hc₁ (by
          rw [hinterval₁, hnext₁, List.append_assoc]
          exact ha) hdue
        refine ⟨k + 2, s', _, round_append hround hrun, ?_⟩
        rw [List.map_append, List.append_assoc] at htwice
        exact htwice
      · -- one that has come back stands before `n`
        have hback : ∃ b ∈ as, b.key < n.key := by
          by_contra hno
          exact hfirst fun b hb => Nat.not_lt.mp fun hlt => hno ⟨b, hb, hlt⟩
        obtain ⟨b, hb, hlt⟩ := hback
        have hbdue : b.key ≤ Timer.getNowTimeMSecond c.head := by omega
        exact ⟨1, refire hpc hnodes hc hb hbdue (lt_of_first hn hlt)⟩
    · rw [scan_cons_of_later hdue'] at ha hdue
      have has : a ∈ as := by
        rcases List.mem_append.mp ha with ha | ha
        · exact ha
        · exact absurd ha List.not_mem_nil
      have hlt : a.key < n.key := Nat.lt_of_le_of_lt hdue (Nat.not_le.mp hdue')
      exact ⟨1, refire hpc hnodes hc has hdue (lt_of_first hn hlt)⟩

end

/-! ## 6. A whole pass -/

namespace TimerQueue

variable (q : TimerQueue) (c : Stream' Nat)

/-- What the first loop finds due. -/
def onceScan : List Firing := scan q.onceTimers.nodes c

/-- What the second loop finds due among the timers that are there at first. -/
def recurringScan : List Firing :=
  scan q.recurringTimers.nodes (c.drop (2 * (q.onceScan c).length + 1))

/-- The reading that ends the scan of the second loop. -/
def lastCheck : Nat := c.get (2 * (q.onceScan c).length + 1 + 2 * (q.recurringScan c).length)

/-- **No timer the second loop has renewed is due again** when its scan ends. -/
def NoneDueAgain : Prop :=
  ∀ a ∈ renewed q.interval q.recurringTimers.next (q.recurringScan c),
    Timer.getNowTimeMSecond (q.lastCheck c) < a.key

instance : Decidable (q.NoneDueAgain c) := inferInstanceAs (Decidable (∀ _ ∈ _, _))

/-- The pieces of a pass that fires what the scans find due. -/
def passLength : Nat :=
  2 * (q.onceScan c).length + 1 + (2 * (q.recurringScan c).length + 1) + 1

end TimerQueue

section

variable {s : TimerState} {c : Stream' Nat}

/-- The pieces of a pass add no timers. -/
theorem piece_ne_addStep {t : Nat} {l : TimerStep} (h : s.piece t = some l) (kind : TimerKind)
    (interval : UInt32) (t₁ t₂ : Nat) : l ≠ addStep kind interval t₁ t₂ := by
  intro heq
  unfold TimerState.piece at h
  cases kind <;> split at h <;> cases h <;> cases heq

/-- **A pass is a run of the queue**: it begins with the call, and no step of it adds a timer. -/
theorem timerQueue_run_of_pass {rs : List Nat} {s' : TimerState} {os : List TimerShown}
    (hpc : s.pc = .idle) (h : timerPass.run s.enter rs = some (s', os)) :
    ∃ ls, timerQueue.run s (.timerHandle :: ls) = some (s', quiet :: os) ∧
      ∀ l ∈ ls, ∀ kind interval t t', l ≠ addStep kind interval t t' := by
  have hcall : timerQueue.step s .timerHandle = some (s.enter, quiet) := by
    simp only [timerQueue, hpc]
    rfl
  have hpieces : ∀ (rs : List Nat) (s₁ : TimerState) (os : List TimerShown),
      timerPass.run s₁ rs = some (s', os) → ∃ ls, timerQueue.run s₁ ls = some (s', os) ∧
        ∀ l ∈ ls, ∀ kind interval t t', l ≠ addStep kind interval t t' := by
    intro rs
    induction rs with
    | nil =>
      intro s₁ os h
      cases h
      exact ⟨[], rfl, fun l hl => absurd hl List.not_mem_nil⟩
    | cons r rs ih =>
      intro s₁ os h
      obtain ⟨s₂, o, os', hs, hr, rfl⟩ := Machine.run_cons_iff.mp h
      obtain ⟨l, hl, hs⟩ := Option.bind_eq_some_iff.mp hs
      obtain ⟨ls, hls, hno⟩ := ih s₂ os' hr
      refine ⟨l :: ls, Machine.run_cons_iff.mpr ⟨s₂, o, os', hs, hls, rfl⟩, ?_⟩
      exact List.forall_mem_cons.mpr ⟨piece_ne_addStep hl, hno⟩
  obtain ⟨ls, hls, hno⟩ := hpieces rs s.enter os h
  exact ⟨ls, Machine.run_cons_iff.mpr ⟨s.enter, quiet, os, hcall, hls, rfl⟩, hno⟩

/-- Two parts of a pass, one behind the other. -/
theorem run_take_add {a b : Nat} {s₁ s' : TimerState} {os₁ os : List TimerShown}
    (h₁ : timerPass.run s (c.take a) = some (s₁, os₁))
    (h : timerPass.run s₁ ((c.drop a).take b) = some (s', os)) :
    timerPass.run s (c.take (a + b)) = some (s', os₁ ++ os) := by
  rw [Stream'.take_add]
  exact Machine.run_append_iff.mpr ⟨s₁, os₁, os, h₁, h, rfl⟩

/-- The first loop of a pass. -/
theorem enter_onceLoop (hc : Ticks s.clock c) :
    ∃ s₁ os₁, LoopDone .once s.enter c (s.queue.onceScan c) s₁ os₁ ∧
      s₁.pc = .loop .recurring s₁.queue.recurringTimers.begin ∧
      s₁.queue.onceTimers.nodes = s.queue.onceTimers.nodes.drop (s.queue.onceScan c).length ∧
      s₁.queue.recurringTimers = s.queue.recurringTimers ∧ s₁.queue.timer = s.queue.timer ∧
      s₁.queue.interval = s.queue.interval ∧
      Ticks s₁.clock (c.drop (2 * (s.queue.onceScan c).length + 1)) := by
  obtain ⟨s₁, os₁, hdone, hpc, honce, hrec, htimer⟩ :=
    onceLoop s.queue.onceTimers.nodes (s := s.enter) rfl rfl hc
  refine ⟨s₁, os₁, hdone, hpc, honce, hrec, htimer, ?_, ?_⟩
  · funext timer
    rw [TimerQueue.interval, htimer]
    rfl
  · refine (hc.drop _).of_le ?_
    rw [Stream'.head_drop]
    exact Nat.le_trans hdone.clock (hc.mono _)

/-- **A pass returns** when no timer it has renewed is due again at the end of its scan. -/
theorem pass_returns (hc : Ticks s.clock c) (hlater : s.queue.NoneDueAgain c) :
    ∃ s' os, timerPass.run s.enter (c.take (s.queue.passLength c)) = some (s', os) ∧
      s'.pc = .idle ∧
      firings os = (s.queue.onceScan c).map (Firing.shown .once) ++
        (s.queue.recurringScan c).map (Firing.shown .recurring) ∧
      s'.queue.onceTimers.nodes = s.queue.onceTimers.nodes.drop (s.queue.onceScan c).length ∧
      s'.queue.recurringTimers.nodes =
        insertAll (s.queue.recurringTimers.nodes.drop (s.queue.recurringScan c).length)
          (renewed s.queue.interval s.queue.recurringTimers.next (s.queue.recurringScan c)) ∧
      s'.queue.timer = updateAll s.queue.timer (s.queue.recurringScan c) := by
  obtain ⟨s₁, os₁, hdone₁, hpc₁, honce₁, hrec₁, htimer₁, hinterval₁, hc₁⟩ := enter_onceLoop hc
  have hnodes₁ : s₁.queue.recurringTimers.nodes = insertAll s.queue.recurringTimers.nodes [] := by
    rw [hrec₁]
    rfl
  obtain ⟨s₂, os₂, hdone₂, hpc₂, hrec₂, honce₂, htimer₂⟩ :=
    recurringLoop s.queue.recurringTimers.nodes s.queue.recurringTimers.sorted hpc₁ hnodes₁ hc₁
      (by
        rw [hinterval₁, hrec₁, Stream'.get_drop]
        exact hlater)
  rw [hinterval₁, hrec₁] at hrec₂
  rw [htimer₁] at htimer₂
  have hclock₂ : s₂.clock ≤ c.get (2 * (s.queue.onceScan c).length + 1 +
      (2 * (s.queue.recurringScan c).length + 1)) := by
    have hle := hdone₂.clock
    rw [Stream'.get_drop] at hle
    exact Nat.le_trans hle (hc.mono _)
  obtain ⟨timerFd, armed, hreset⟩ := pass_reset hpc₂ ⟨hclock₂, hc.valid _⟩
  have hrun := run_take_add hdone₁.run hdone₂.run
  refine ⟨⟨{ s₂.queue with timerFd := timerFd }, .idle, c.get (2 * (s.queue.onceScan c).length +
    1 + (2 * (s.queue.recurringScan c).length + 1))⟩,
    (os₁ ++ os₂) ++ [⟨none, none, armed⟩], ?_, rfl, ?_, ?_, hrec₂, htimer₂⟩
  · rw [TimerQueue.passLength, Stream'.take_succ']
    exact Machine.run_append_iff.mpr ⟨s₂, os₁ ++ os₂, [⟨none, none, armed⟩], hrun,
      Machine.run_cons_iff.mpr ⟨_, _, [], hreset, rfl, rfl⟩, rfl⟩
  · rw [firings_append, firings_append, hdone₁.shown, hdone₂.shown]
    exact List.append_nil _
  · exact honce₂ ▸ honce₁

/-- **A timer fires twice** when one that a pass has renewed is due again at the end of its
    scan. -/
theorem pass_refires (hc : Ticks s.clock c) (hdue : ¬ s.queue.NoneDueAgain c) :
    ∃ k s' os, timerPass.run s.enter (c.take k) = some (s', os) ∧ ¬ (firedTimers os).Nodup := by
  have hback : ∃ a ∈ renewed s.queue.interval s.queue.recurringTimers.next
      (s.queue.recurringScan c), a.key ≤ Timer.getNowTimeMSecond (s.queue.lastCheck c) := by
    by_contra hno
    exact hdue fun a ha => Nat.not_le.mp fun hle => hno ⟨a, ha, hle⟩
  obtain ⟨a, ha, hle⟩ := hback
  obtain ⟨s₁, os₁, hdone₁, hpc₁, -, hrec₁, -, hinterval₁, hc₁⟩ := enter_onceLoop hc
  have hnodes₁ : s₁.queue.recurringTimers.nodes = insertAll s.queue.recurringTimers.nodes [] := by
    rw [hrec₁]
    rfl
  obtain ⟨k, s', os, hrun, htwice⟩ :=
    recurringLoop_refires s.queue.recurringTimers.nodes s.queue.recurringTimers.sorted hpc₁
      hnodes₁ hc₁ (by
        rw [hinterval₁, hrec₁]
        exact ha) (by
        rw [Stream'.get_drop]
        exact hle)
  refine ⟨_, s', _, run_take_add hdone₁.run hrun, fun hnodup => htwice ?_⟩
  rw [firedTimers, firings_append, List.map_append] at hnodup
  exact (List.nodup_append.mp hnodup).2.1

end

end PluginsEngine
