/-
  File:      PluginsEngine/Timer/TimerQueue.lean
  Subject:   THE TIMER QUEUE (timer/timerQueue.hpp, timerQueue.cpp).

  A `TimerQueue` is its Timer objects, the multimaps `onceTimers` and `recurringTimers` of them by
  deadline, and what its timerfd was armed with last. `timerHandle` runs callbacks, which may add
  timers, so a pass is cut at each callback and at each reading of the clock: the machine
  `timerQueue` has one label for each piece, with the reading it takes. `PassPc` says where the
  pass stands and holds its iterator.

  * `addTimer`, `needResetTimer`, `resetTimer`, `resetEarliest` -- the functions;
  * `timerQueue` -- the machine; it allows additions when no pass is running and from callbacks;
  * `TimerState.Wf`, `TimerState.Wf.step` -- what holds of the queue at every point: the keys are
    the deadlines, no timer is in it twice, and the iterator of a pass is at the first node;
  * `TimerState.Move`, `TimerState.Wf.move` -- everything a step can do.
-/
import Mathlib.Data.Nat.Basic
import Mathlib.Logic.Function.Basic
import PluginsEngine.Library.Multimap
import PluginsEngine.Library.Runs
import PluginsEngine.Timer.Timer

namespace PluginsEngine

open Library

/-! ## 1. The queue -/

/-- Which Timer object. -/
abbrev TimerId := Nat

/-- The two multimaps, and the two kinds of timers in them. -/
inductive TimerKind where
  | once
  | recurring
  deriving DecidableEq, Repr

/-- A call of `timerfd_settime`: for which timer, at which reading, and the relative interval. -/
structure Arming where
  timer : TimerId
  reading : Nat
  interval : Timespec
  deriving DecidableEq, Repr

structure TimerQueue where
  timer : TimerId → Timer
  next : TimerId
  timers : TimerKind → Multimap Nat TimerId
  timerFd : Option Arming

namespace TimerQueue

variable (q : TimerQueue)

abbrev onceTimers : Multimap Nat TimerId := q.timers .once

abbrev recurringTimers : Multimap Nat TimerId := q.timers .recurring

/-- `getTimeOutMSecond()` of a timer. -/
def deadline (timer : TimerId) : Nat := (q.timer timer).getTimeOutMSecond

def initial : TimerQueue := ⟨fun _ => ⟨0, ⟨0, 0⟩⟩, 0, fun _ => .empty, none⟩

/-- `new Timer(interval, callback)`. -/
def newTimer (interval : UInt32) (t : Nat) : TimerId × TimerQueue :=
  (q.next, { q with
    timer := Function.update q.timer q.next (.new interval t)
    next := q.next + 1 })

/-- `timers.insert(std::pair(timer->getTimeOutMSecond(), timer))`. -/
def insertTimer (kind : TimerKind) (timer : TimerId) : TimerQueue :=
  { q with
    timers := Function.update q.timers kind ((q.timers kind).insert (q.deadline timer) timer) }

def needResetTimer (timers : Multimap Nat TimerId) (timer : TimerId) : Bool :=
  match timers.nodes.head? with
  | none => true
  | some it =>
    if it.key < q.deadline timer then false
    else if timers.count (q.deadline timer) > 1 then false
    else true

/-- `resetTimer(timer)`, whose `getTimeInterval` reads `t`. -/
def resetTimer (timer : TimerId) (t : Nat) : TimerQueue × Option Arming :=
  let arming := ⟨timer, t, (q.timer timer).getTimeInterval t⟩
  ({ q with timerFd := some arming }, some arming)

/-- `resetTimer()`: of the two first timers, the one that is due earlier. -/
def resetEarliest (t : Nat) : TimerQueue × Option Arming :=
  match q.onceTimers.nodes.head?, q.recurringTimers.nodes.head? with
  | none, none => (q, none)
  | none, some it => q.resetTimer it.value t
  | some it, none => q.resetTimer it.value t
  | some it2, some it1 =>
    if q.deadline it1.value < q.deadline it2.value then q.resetTimer it1.value t
    else q.resetTimer it2.value t

/-- `addOnceTimer` and `addRecurringTimer`. The constructor of the timer reads `t`, and
    `getTimeInterval` reads `t'`, should the timerfd be armed. -/
def addTimer (kind : TimerKind) (interval : UInt32) (t t' : Nat) : TimerQueue × Option Arming :=
  let (timer, q) := q.newTimer interval t
  let q := q.insertTimer kind timer
  if q.needResetTimer q.onceTimers timer && q.needResetTimer q.recurringTimers timer then
    q.resetTimer timer t'
  else (q, none)

def addOnceTimer (interval : UInt32) (t t' : Nat) : TimerQueue × Option Arming :=
  q.addTimer .once interval t t'

def addRecurringTimer (interval : UInt32) (t t' : Nat) : TimerQueue × Option Arming :=
  q.addTimer .recurring interval t t'

/-- After a callback: a once timer is erased; a recurring one is updated (which reads `t`),
    inserted under its new deadline, and its old node erased. The iterator goes to the node after
    the erased one. -/
def afterCallback (kind : TimerKind) (it : Nat) (timer : TimerId) (t : Nat) :
    TimerQueue × Option Nat :=
  let q := match kind with
    | .once => q
    | .recurring =>
      { q with timer := Function.update q.timer timer ((q.timer timer).update t) }.insertTimer
        .recurring timer
  let (timers, it) := (q.timers kind).erase it
  ({ q with timers := Function.update q.timers kind timers }, it)

end TimerQueue

/-! ## 2. Passes -/

/-- Where a pass of `timerHandle` stands. -/
inductive PassPc where
  /-- No pass is running. -/
  | idle
  /-- At the head of the loop over a multimap, with its iterator. -/
  | loop (kind : TimerKind) (it : Option Nat)
  /-- In the callback of the node the iterator points to. -/
  | firing (kind : TimerKind) (it : Nat)
  /-- Behind the two loops. -/
  | resetting
  deriving DecidableEq, Repr

/-- A queue, where its pass stands, and the latest reading of the clock. -/
structure TimerState where
  queue : TimerQueue
  pc : PassPc
  clock : Nat

inductive TimerStep where
  | addOnceTimer (interval : UInt32) (t t' : Nat)
  | addRecurringTimer (interval : UInt32) (t t' : Nat)
  | timerHandle
  | loopEnd
  | check (t : Nat)
  | callbackReturns (t : Nat)
  | resetTimer (t : Nat)
  deriving DecidableEq, Repr

/-- What a step shows: the timer added, the timer whose callback is invoked and the reading that
    found it due, and the arming of the timerfd. -/
structure TimerShown where
  added : Option (TimerKind × TimerId)
  fired : Option (TimerKind × TimerId × Nat)
  armed : Option Arming
  deriving DecidableEq, Repr

namespace TimerState

variable (s : TimerState)

/-- A clock that does not go back reads `t`. -/
def reads (t : Nat) : Prop := s.clock ≤ t ∧ ValidReading t

instance (t : Nat) : Decidable (s.reads t) := inferInstanceAs (Decidable (_ ∧ _))

/-- Timers are added while no pass is running, and from callbacks. -/
def mayAdd : Bool :=
  match s.pc with
  | .idle | .firing _ _ => true
  | _ => false

/-- Where the pass goes from the loop over `kind`. -/
def leave (kind : TimerKind) : PassPc :=
  match kind with
  | .once => .loop .recurring s.queue.recurringTimers.begin
  | .recurring => .resetting

def add (kind : TimerKind) (interval : UInt32) (t t' : Nat) : Option (TimerState × TimerShown) :=
  if s.mayAdd ∧ s.reads t ∧ t ≤ t' ∧ ValidReading t' then
    let (q, arming) := s.queue.addTimer kind interval t t'
    some (⟨q, s.pc, t'⟩, ⟨some (kind, s.queue.next), none, arming⟩)
  else none

def initial : TimerState := ⟨.initial, .idle, 0⟩

end TimerState

open TimerState

/-- A timer queue in use. -/
def timerQueue : Machine TimerState TimerStep TimerShown where
  step s
    | .addOnceTimer interval t t' => s.add .once interval t t'
    | .addRecurringTimer interval t t' => s.add .recurring interval t t'
    | .timerHandle =>
      match s.pc with
      | .idle => some ({ s with pc := .loop .once s.queue.onceTimers.begin }, ⟨none, none, none⟩)
      | _ => none
    | .loopEnd =>
      match s.pc with
      | .loop kind none => some ({ s with pc := s.leave kind }, ⟨none, none, none⟩)
      | _ => none
    | .check t =>
      match s.pc with
      | .loop kind (some it) =>
        match (s.queue.timers kind).deref it with
        | none => none
        | some n =>
          if s.reads t then
            if n.key > Timer.getNowTimeMSecond t then
              some ({ s with pc := s.leave kind, clock := t }, ⟨none, none, none⟩)
            else
              some ({ s with pc := .firing kind it, clock := t },
                ⟨none, some (kind, n.value, t), none⟩)
          else none
      | _ => none
    | .callbackReturns t =>
      match s.pc with
      | .firing kind it =>
        match (s.queue.timers kind).deref it with
        | none => none
        | some n =>
          if s.reads t then
            let (q, it) := s.queue.afterCallback kind it n.value t
            some (⟨q, .loop kind it, t⟩, ⟨none, none, none⟩)
          else none
      | _ => none
    | .resetTimer t =>
      match s.pc with
      | .resetting =>
        if s.reads t then
          let (q, arming) := s.queue.resetEarliest t
          some (⟨q, .idle, t⟩, ⟨none, none, arming⟩)
        else none
      | _ => none

/-! ## 3. What the functions do -/

namespace TimerQueue

variable {q : TimerQueue}

/-- The nodes of both multimaps. -/
def nodes (q : TimerQueue) : List (Node Nat TimerId) :=
  q.onceTimers.nodes ++ q.recurringTimers.nodes

/-- The nodes of `kind` first, then those of the other kind. -/
theorem nodes_perm (q : TimerQueue) (kind : TimerKind) :
    ∃ other, q.nodes.Perm ((q.timers kind).nodes ++ other) ∧
      ∀ m, ({ q with timers := Function.update q.timers kind m } : TimerQueue).nodes.Perm
        (m.nodes ++ other) := by
  cases kind with
  | once => exact ⟨q.recurringTimers.nodes, List.Perm.refl _, fun _ => List.Perm.refl _⟩
  | recurring =>
    exact ⟨q.onceTimers.nodes, List.perm_append_comm, fun _ => List.perm_append_comm⟩

/-- A new timer of `kind` in its multimap, before it is decided whether the timerfd is armed. -/
def withTimer (q : TimerQueue) (kind : TimerKind) (interval : UInt32) (t : Nat) : TimerQueue :=
  (q.newTimer interval t).2.insertTimer kind q.next

/-- Whether adding the timer `timer` arms the timerfd. -/
def arms (q : TimerQueue) (timer : TimerId) : Bool :=
  q.needResetTimer q.onceTimers timer && q.needResetTimer q.recurringTimers timer

theorem addTimer_eq (q : TimerQueue) (kind : TimerKind) (interval : UInt32) (t t' : Nat) :
    q.addTimer kind interval t t' =
      if (q.withTimer kind interval t).arms q.next then
        (q.withTimer kind interval t).resetTimer q.next t'
      else (q.withTimer kind interval t, none) :=
  rfl

theorem withTimer_timer_of_ne {kind : TimerKind} {interval : UInt32} {t : Nat} {timer : TimerId}
    (h : timer ≠ q.next) : (q.withTimer kind interval t).timer timer = q.timer timer :=
  Function.update_of_ne h _ _

theorem withTimer_timer (kind : TimerKind) (interval : UInt32) (t : Nat) :
    (q.withTimer kind interval t).timer q.next = .new interval t :=
  Function.update_self _ _ _

theorem withTimer_timers (q : TimerQueue) (kind : TimerKind) (interval : UInt32) (t : Nat) :
    (q.withTimer kind interval t).timers = Function.update q.timers kind
      ((q.timers kind).insert ((q.withTimer kind interval t).deadline q.next) q.next) :=
  rfl

/-- The node of a new timer. -/
def newNode (q : TimerQueue) (kind : TimerKind) (interval : UInt32) (t : Nat) :
    Node Nat TimerId :=
  ⟨(q.timers kind).next, (q.withTimer kind interval t).deadline q.next, q.next⟩

theorem withTimer_nodes (q : TimerQueue) (kind : TimerKind) (interval : UInt32) (t : Nat) :
    (q.withTimer kind interval t).nodes.Perm (q.newNode kind interval t :: q.nodes) := by
  obtain ⟨other, hq, hm⟩ := nodes_perm q kind
  have hinsert := Multimap.nodes_insert_perm (m := q.timers kind)
    ((q.withTimer kind interval t).deadline q.next) q.next
  exact ((hm _).trans (hinsert.append_right other)).trans (hq.symm.cons _)

/-- The once timer whose callback returns is erased. -/
theorem afterCallback_once {n : Node Nat TimerId} {ns : List (Node Nat TimerId)}
    (h : q.onceTimers.nodes = n :: ns) (timer : TimerId) (t : Nat) :
    ∃ m : Multimap Nat TimerId, m.nodes = ns ∧ q.afterCallback .once n.id timer t =
      ({ q with timers := Function.update q.timers .once m }, m.begin) := by
  obtain ⟨hnodes, hit⟩ := Multimap.erase_begin h
  refine ⟨(q.onceTimers.erase n.id).1, hnodes, ?_⟩
  rw [← hit]
  rfl

/-- The recurring timer whose callback returns gets a new node, at the upper bound of its new
    deadline. -/
theorem afterCallback_recurring_insert {n : Node Nat TimerId} {ns : List (Node Nat TimerId)}
    (h : q.recurringTimers.nodes = n :: ns) {t : Nat}
    (hle : n.key ≤ ((q.timer n.value).update t).getTimeOutMSecond) :
    ∃ m : Multimap Nat TimerId,
      m.nodes = insertNode ⟨q.recurringTimers.next,
        ((q.timer n.value).update t).getTimeOutMSecond, n.value⟩ ns ∧
      m.next = q.recurringTimers.next + 1 ∧
      q.afterCallback .recurring n.id n.value t =
        ({ q with
          timer := Function.update q.timer n.value ((q.timer n.value).update t)
          timers := Function.update q.timers .recurring m }, m.begin) := by
  have hins := Multimap.insert_behind_begin h hle n.value
  obtain ⟨hnodes, hit⟩ := Multimap.erase_begin hins
  refine ⟨((q.recurringTimers.insert ((q.timer n.value).update t).getTimeOutMSecond
    n.value).erase n.id).1, hnodes, rfl, ?_⟩
  rw [← hit]
  simp only [afterCallback, insertTimer, deadline, Function.update_self, Function.update_idem]

theorem afterCallback_recurring {n : Node Nat TimerId} {ns : List (Node Nat TimerId)}
    (h : q.recurringTimers.nodes = n :: ns) {t : Nat}
    (hle : n.key ≤ ((q.timer n.value).update t).getTimeOutMSecond) :
    ∃ (m : Multimap Nat TimerId) (id : Nat),
      m.nodes.Perm (⟨id, ((q.timer n.value).update t).getTimeOutMSecond, n.value⟩ :: ns) ∧
      q.afterCallback .recurring n.id n.value t =
        ({ q with
          timer := Function.update q.timer n.value ((q.timer n.value).update t)
          timers := Function.update q.timers .recurring m }, m.begin) := by
  obtain ⟨m, hm, -, hafter⟩ := afterCallback_recurring_insert h hle
  refine ⟨m, q.recurringTimers.next, ?_, hafter⟩
  rw [hm]
  exact insertNode_perm _ _

end TimerQueue

/-! ## 4. What holds at every point -/

namespace TimerState

variable {s : TimerState}

/-- The iterator of a pass is at the first node, and the timer whose callback runs is due. -/
def PcOk (q : TimerQueue) (clock : Nat) : PassPc → Prop
  | .loop kind it => it = (q.timers kind).begin
  | .firing kind it => ∃ n ns, (q.timers kind).nodes = n :: ns ∧ n.id = it ∧
      n.key ≤ clock / 1000000
  | .idle | .resetting => True

/-- **The invariant of a queue**: each timer was updated at a reading of the past, the keys are the
    deadlines, and no timer has two nodes. -/
structure Wf (s : TimerState) : Prop where
  clock : ValidReading s.clock
  updated : ∀ timer < s.queue.next, ∃ t ≤ s.clock, (s.queue.timer timer).UpdatedAt t
  node : ∀ n ∈ s.queue.nodes, n.value < s.queue.next ∧ n.key = s.queue.deadline n.value
  distinct : (s.queue.nodes.map Node.value).Nodup
  pc : PcOk s.queue s.clock s.pc

theorem wf_initial : initial.Wf where
  clock := by decide
  updated timer h := absurd h (Nat.not_lt_zero _)
  node n hn := absurd hn List.not_mem_nil
  distinct := List.nodup_nil
  pc := trivial

/-- A timer's deadline, by the reading it was updated at. -/
theorem Wf.deadline_eq (h : s.Wf) {timer : TimerId} (ht : timer < s.queue.next) :
    ∃ t ≤ s.clock, ValidReading t ∧ (s.queue.timer timer).UpdatedAt t ∧
      s.queue.deadline timer = t / 1000000 + (s.queue.timer timer).intervalMs.toNat := by
  obtain ⟨t, hle, hup⟩ := h.updated timer ht
  have hv : ValidReading t := Nat.lt_of_le_of_lt hle h.clock
  exact ⟨t, hle, hv, hup, Timer.getTimeOutMSecond_eq hup hv⟩

/-- The node of a running callback is the first one, and is due. -/
theorem Wf.firing (h : s.Wf) {kind : TimerKind} {it : Nat} (hpc : s.pc = .firing kind it) :
    ∃ n ns, (s.queue.timers kind).nodes = n :: ns ∧ n.id = it ∧ n.key ≤ s.clock / 1000000 := by
  have hok := h.pc
  rw [hpc] at hok
  exact hok

theorem mayAdd_cases (h : s.mayAdd = true) :
    s.pc = .idle ∨ ∃ kind it, s.pc = .firing kind it := by
  unfold mayAdd at h
  split at h
  · rename_i hpc
    exact Or.inl hpc
  · rename_i kind it hpc
    exact Or.inr ⟨kind, it, hpc⟩
  · cases h

theorem mem_nodes {q : TimerQueue} {kind : TimerKind} {n : Node Nat TimerId}
    (h : n ∈ (q.timers kind).nodes) : n ∈ q.nodes := by
  cases kind with
  | once => exact List.mem_append_left _ h
  | recurring => exact List.mem_append_right _ h

/-- The timerfd does not matter to the invariant. -/
theorem Wf.arm {q : TimerQueue} {pc : PassPc} {clock : Nat} (h : Wf ⟨q, pc, clock⟩)
    (arming : Option Arming) : Wf ⟨{ q with timerFd := arming }, pc, clock⟩ :=
  ⟨h.clock, h.updated, h.node, h.distinct, by
    have hpc := h.pc
    cases pc with
    | idle => trivial
    | loop kind it => exact hpc
    | firing kind it => exact hpc
    | resetting => trivial⟩

/-- The pass goes on, and time passes. -/
theorem Wf.goOn (h : s.Wf) (pc : PassPc) {t : Nat} (hle : s.clock ≤ t) (ht : ValidReading t)
    (hpc : PcOk s.queue t pc) : Wf ⟨s.queue, pc, t⟩ where
  clock := ht
  updated timer hlt := by
    obtain ⟨t₀, h₀, hup⟩ := h.updated timer hlt
    exact ⟨t₀, Nat.le_trans h₀ hle, hup⟩
  node := h.node
  distinct := h.distinct
  pc := hpc

theorem pcOk_leave (s : TimerState) (kind : TimerKind) (t : Nat) :
    PcOk s.queue t (s.leave kind) := by
  cases kind with
  | once => rfl
  | recurring => trivial

/-- The deadline of a timer added at the reading `t`. -/
theorem deadline_withTimer {q : TimerQueue} {t : Nat} (ht : ValidReading t) (kind : TimerKind)
    (interval : UInt32) :
    (q.withTimer kind interval t).deadline q.next = t / 1000000 + interval.toNat := by
  rw [TimerQueue.deadline, TimerQueue.withTimer_timer]
  exact Timer.getTimeOutMSecond_eq (show (Timer.new interval t).UpdatedAt t from rfl) ht

/-- A timer added at the reading `t` goes behind the first node, if that one is due at `t`. -/
theorem withTimer_first {q : TimerQueue} {kind' : TimerKind} (kind : TimerKind)
    (interval : UInt32) {t : Nat} (ht : ValidReading t) {n : Node Nat TimerId}
    {ns : List (Node Nat TimerId)} (hnodes : (q.timers kind').nodes = n :: ns)
    (hdue : n.key ≤ t / 1000000) :
    ∃ ns', ((q.withTimer kind interval t).timers kind').nodes = n :: ns' := by
  rw [q.withTimer_timers]
  by_cases hkind : kind' = kind
  · subst hkind
    have hkey : n.key ≤ (q.withTimer kind' interval t).deadline q.next := by
      rw [deadline_withTimer ht kind' interval]
      omega
    rw [Function.update_self]
    exact ⟨_, Multimap.insert_behind_begin hnodes hkey _⟩
  · rw [Function.update_of_ne hkind]
    exact ⟨ns, hnodes⟩

/-- **An addition keeps the invariant**: the new node goes behind the node of a running callback,
    because it is due later. -/
theorem Wf.withTimer (h : s.Wf) {kind : TimerKind} {interval : UInt32} {t t' : Nat}
    (hle : s.clock ≤ t) (htt : t ≤ t') (hv : ValidReading t') (hadd : s.mayAdd = true) :
    Wf ⟨s.queue.withTimer kind interval t, s.pc, t'⟩ := by
  have hvt : ValidReading t := Nat.lt_of_le_of_lt htt hv
  have hold : ∀ timer < s.queue.next,
      (s.queue.withTimer kind interval t).timer timer = s.queue.timer timer := fun timer hlt =>
    TimerQueue.withTimer_timer_of_ne (Nat.ne_of_lt hlt)
  have hperm := s.queue.withTimer_nodes kind interval t
  refine ⟨hv, fun timer hlt => ?_, fun n hn => ?_, ?_, ?_⟩
  · rcases Nat.lt_succ_iff_lt_or_eq.mp hlt with hlt | rfl
    · obtain ⟨t₀, h₀, hup⟩ := h.updated timer hlt
      refine ⟨t₀, Nat.le_trans h₀ (Nat.le_trans hle htt), ?_⟩
      rw [Timer.UpdatedAt, hold timer hlt]
      exact hup
    · refine ⟨t, htt, ?_⟩
      rw [Timer.UpdatedAt, TimerQueue.withTimer_timer]
      rfl
  · rcases List.mem_cons.mp (hperm.mem_iff.mp hn) with rfl | hn
    · exact ⟨Nat.lt_succ_self _, rfl⟩
    · obtain ⟨hlt, hkey⟩ := h.node n hn
      refine ⟨Nat.lt_succ_of_lt hlt, hkey.trans ?_⟩
      rw [TimerQueue.deadline, TimerQueue.deadline, hold _ hlt]
  · rw [(hperm.map Node.value).nodup_iff, List.map_cons, List.nodup_cons]
    refine ⟨fun hmem => ?_, h.distinct⟩
    obtain ⟨n, hn, hval⟩ := List.mem_map.mp hmem
    exact absurd hval (Nat.ne_of_lt (h.node n hn).1)
  · rcases mayAdd_cases hadd with hpc | ⟨kind', it, hpc⟩
    · rw [hpc]
      trivial
    · obtain ⟨n, ns, hnodes, hid, hdue⟩ := h.firing hpc
      rw [hpc]
      have hclock : s.clock / 1000000 ≤ t / 1000000 := Nat.div_le_div_right hle
      have hclock' : t / 1000000 ≤ t' / 1000000 := Nat.div_le_div_right htt
      obtain ⟨ns', hfirst⟩ := withTimer_first kind interval hvt hnodes (Nat.le_trans hdue hclock)
      exact ⟨n, ns', hfirst, hid, Nat.le_trans hdue (Nat.le_trans hclock hclock')⟩

/-- The new deadline of a recurring timer whose callback returns at the reading `t`. -/
theorem updated_deadline {n : Node Nat TimerId} {t : Nat} (hr : s.reads t)
    (hdue : n.key ≤ s.clock / 1000000) :
    ((s.queue.timer n.value).update t).getTimeOutMSecond =
        t / 1000000 + (s.queue.timer n.value).intervalMs.toNat ∧
      n.key ≤ ((s.queue.timer n.value).update t).getTimeOutMSecond := by
  have heq : ((s.queue.timer n.value).update t).getTimeOutMSecond =
      t / 1000000 + (s.queue.timer n.value).intervalMs.toNat :=
    Timer.getTimeOutMSecond_eq
      (show ((s.queue.timer n.value).update t).UpdatedAt t from rfl) hr.2
  have hclock : s.clock / 1000000 ≤ t / 1000000 := Nat.div_le_div_right hr.1
  exact ⟨heq, by omega⟩

/-! ## 5. One step -/

/-- The call that adds a timer of `kind`. -/
def addStep : TimerKind → UInt32 → Nat → Nat → TimerStep
  | .once => .addOnceTimer
  | .recurring => .addRecurringTimer

/-- A step that shows nothing. -/
abbrev quiet : TimerShown := ⟨none, none, none⟩

/-- **Everything a step can do**, on a queue that is well formed. -/
inductive Move (s : TimerState) : TimerStep → TimerState → TimerShown → Prop where
  | add (kind : TimerKind) (interval : UInt32) (t t' : Nat) (hadd : s.mayAdd = true)
      (hle : s.clock ≤ t) (htt : t ≤ t') (hv : ValidReading t')
      (hno : (s.queue.withTimer kind interval t).arms s.queue.next = false) :
      Move s (addStep kind interval t t') ⟨s.queue.withTimer kind interval t, s.pc, t'⟩
        ⟨some (kind, s.queue.next), none, none⟩
  | addArming (kind : TimerKind) (interval : UInt32) (t t' : Nat) (hadd : s.mayAdd = true)
      (hle : s.clock ≤ t) (htt : t ≤ t') (hv : ValidReading t')
      (hyes : (s.queue.withTimer kind interval t).arms s.queue.next = true) :
      Move s (addStep kind interval t t')
        ⟨((s.queue.withTimer kind interval t).resetTimer s.queue.next t').1, s.pc, t'⟩
        ⟨some (kind, s.queue.next), none,
          ((s.queue.withTimer kind interval t).resetTimer s.queue.next t').2⟩
  | start (hpc : s.pc = .idle) :
      Move s .timerHandle { s with pc := .loop .once s.queue.onceTimers.begin } quiet
  | loopEnd (kind : TimerKind) (hpc : s.pc = .loop kind none)
      (hnodes : (s.queue.timers kind).nodes = []) :
      Move s .loopEnd { s with pc := s.leave kind } quiet
  | wait (kind : TimerKind) (n : Node Nat TimerId) (ns : List (Node Nat TimerId)) (t : Nat)
      (hpc : s.pc = .loop kind (some n.id)) (hnodes : (s.queue.timers kind).nodes = n :: ns)
      (hr : s.reads t) (hlater : t / 1000000 < n.key) :
      Move s (.check t) { s with pc := s.leave kind, clock := t } quiet
  | fire (kind : TimerKind) (n : Node Nat TimerId) (ns : List (Node Nat TimerId)) (t : Nat)
      (hpc : s.pc = .loop kind (some n.id)) (hnodes : (s.queue.timers kind).nodes = n :: ns)
      (hr : s.reads t) (hdue : n.key ≤ t / 1000000) :
      Move s (.check t) { s with pc := .firing kind n.id, clock := t }
        ⟨none, some (kind, n.value, t), none⟩
  | onceReturns (n : Node Nat TimerId) (ns : List (Node Nat TimerId)) (t : Nat)
      (m : Multimap Nat TimerId) (hpc : s.pc = .firing .once n.id)
      (hnodes : s.queue.onceTimers.nodes = n :: ns) (hr : s.reads t) (hm : m.nodes = ns) :
      Move s (.callbackReturns t)
        ⟨{ s.queue with timers := Function.update s.queue.timers .once m },
          .loop .once m.begin, t⟩ quiet
  | recurringReturns (n : Node Nat TimerId) (ns : List (Node Nat TimerId)) (t : Nat)
      (m : Multimap Nat TimerId) (id : Nat) (hpc : s.pc = .firing .recurring n.id)
      (hnodes : s.queue.recurringTimers.nodes = n :: ns) (hr : s.reads t)
      (hdue : n.key ≤ s.clock / 1000000)
      (hm : m.nodes.Perm
        (⟨id, ((s.queue.timer n.value).update t).getTimeOutMSecond, n.value⟩ :: ns)) :
      Move s (.callbackReturns t)
        ⟨{ s.queue with
            timer := Function.update s.queue.timer n.value ((s.queue.timer n.value).update t)
            timers := Function.update s.queue.timers .recurring m },
          .loop .recurring m.begin, t⟩ quiet
  | resetNone (t : Nat) (hpc : s.pc = .resetting) (hr : s.reads t)
      (hnodes : s.queue.nodes = []) : Move s (.resetTimer t) ⟨s.queue, .idle, t⟩ quiet
  | reset (n : Node Nat TimerId) (t : Nat) (hpc : s.pc = .resetting) (hr : s.reads t)
      (hn : n ∈ s.queue.nodes) (hmin : ∀ x ∈ s.queue.nodes, n.key ≤ x.key) :
      Move s (.resetTimer t) ⟨(s.queue.resetTimer n.value t).1, .idle, t⟩
        ⟨none, none, (s.queue.resetTimer n.value t).2⟩

/-- `resetTimer()` arms the timerfd for a timer that is due first. -/
theorem Wf.resetEarliest (h : s.Wf) (t : Nat) :
    (s.queue.nodes = [] ∧ s.queue.resetEarliest t = (s.queue, none)) ∨
      ∃ n ∈ s.queue.nodes, (∀ x ∈ s.queue.nodes, n.key ≤ x.key) ∧
        s.queue.resetEarliest t = s.queue.resetTimer n.value t := by
  have hmem : ∀ x, x ∈ s.queue.nodes ↔
      x ∈ s.queue.onceTimers.nodes ∨ x ∈ s.queue.recurringTimers.nodes := fun x =>
    List.mem_append
  unfold TimerQueue.resetEarliest
  cases ho : s.queue.onceTimers.nodes with
  | nil =>
    cases hr : s.queue.recurringTimers.nodes with
    | nil =>
      refine Or.inl ⟨?_, rfl⟩
      rw [TimerQueue.nodes, ho, hr]
      rfl
    | cons it1 ns =>
      have hin : it1 ∈ s.queue.nodes := (hmem it1).mpr (Or.inr (Multimap.first_mem hr))
      refine Or.inr ⟨it1, hin, fun x hx => ?_, rfl⟩
      rcases (hmem x).mp hx with hx | hx
      · rw [ho] at hx
        exact absurd hx List.not_mem_nil
      · exact Multimap.key_le hr x hx
  | cons it2 ms =>
    have hin2 : it2 ∈ s.queue.nodes := (hmem it2).mpr (Or.inl (Multimap.first_mem ho))
    cases hr : s.queue.recurringTimers.nodes with
    | nil =>
      refine Or.inr ⟨it2, hin2, fun x hx => ?_, rfl⟩
      rcases (hmem x).mp hx with hx | hx
      · exact Multimap.key_le ho x hx
      · rw [hr] at hx
        exact absurd hx List.not_mem_nil
    | cons it1 ns =>
      have hin1 : it1 ∈ s.queue.nodes := (hmem it1).mpr (Or.inr (Multimap.first_mem hr))
      -- the code compares the deadlines of the timers, which are the keys
      have hkey1 := (h.node it1 hin1).2
      have hkey2 := (h.node it2 hin2).2
      simp only [List.head?_cons]
      split
      · rename_i hlt
        refine Or.inr ⟨it1, hin1, fun x hx => ?_, rfl⟩
        rcases (hmem x).mp hx with hx | hx
        · have := Multimap.key_le ho x hx
          omega
        · exact Multimap.key_le hr x hx
      · rename_i hge
        refine Or.inr ⟨it2, hin2, fun x hx => ?_, rfl⟩
        rcases (hmem x).mp hx with hx | hx
        · exact Multimap.key_le ho x hx
        · have := Multimap.key_le hr x hx
          omega

theorem add_move (kind : TimerKind) {interval : UInt32} {t t' : Nat}
    {s' : TimerState} {o : TimerShown} (hs : s.add kind interval t t' = some (s', o)) :
    Move s (addStep kind interval t t') s' o := by
  unfold add at hs
  split at hs
  case isFalse => cases hs
  rename_i hok
  obtain ⟨hadd, hr, htt, hv⟩ := hok
  rw [TimerQueue.addTimer_eq] at hs
  cases harm : (s.queue.withTimer kind interval t).arms s.queue.next with
  | false =>
    simp only [harm, Bool.false_eq_true, if_false] at hs
    cases hs
    exact .add kind interval t t' hadd hr.1 htt hv harm
  | true =>
    simp only [harm, if_true] at hs
    cases hs
    exact .addArming kind interval t t' hadd hr.1 htt hv harm

theorem start_move {s' : TimerState} {o : TimerShown}
    (hs : timerQueue.step s .timerHandle = some (s', o)) : Move s .timerHandle s' o := by
  simp only [timerQueue] at hs
  split at hs
  · rename_i hpc
    cases hs
    exact .start hpc
  · cases hs

theorem Wf.loopEnd_move (h : s.Wf) {s' : TimerState} {o : TimerShown}
    (hs : timerQueue.step s .loopEnd = some (s', o)) : Move s .loopEnd s' o := by
  have hpcok := h.pc
  simp only [timerQueue] at hs
  split at hs
  · rename_i kind hpc
    cases hs
    rw [hpc] at hpcok
    exact .loopEnd kind hpc (Multimap.begin_eq_none.mp hpcok.symm)
  · cases hs

/-- The head of a loop looks at the first node. -/
theorem Wf.check_move (h : s.Wf) {t : Nat} {s' : TimerState} {o : TimerShown}
    (hs : timerQueue.step s (.check t) = some (s', o)) : Move s (.check t) s' o := by
  have hpcok := h.pc
  simp only [timerQueue] at hs
  split at hs
  · rename_i kind it hpc
    rw [hpc] at hpcok
    obtain ⟨n, ns, hnodes, rfl⟩ := Multimap.exists_of_begin hpcok.symm
    rw [Multimap.deref_begin hnodes] at hs
    dsimp only at hs
    split at hs
    · rename_i hr
      rw [Timer.getNowTimeMSecond_eq hr.2] at hs
      split at hs
      · rename_i hlater
        cases hs
        exact .wait kind n ns t hpc hnodes hr hlater
      · rename_i hdue
        cases hs
        exact .fire kind n ns t hpc hnodes hr (Nat.not_lt.mp hdue)
    · cases hs
  · cases hs

/-- The node of the callback that returns is still the first one. -/
theorem Wf.callbackReturns_move (h : s.Wf) {t : Nat} {s' : TimerState} {o : TimerShown}
    (hs : timerQueue.step s (.callbackReturns t) = some (s', o)) :
    Move s (.callbackReturns t) s' o := by
  simp only [timerQueue] at hs
  split at hs
  · rename_i kind it hpc
    obtain ⟨n, ns, hnodes, rfl, hdue⟩ := h.firing hpc
    rw [Multimap.deref_begin hnodes] at hs
    dsimp only at hs
    split at hs
    · rename_i hr
      cases kind with
      | once =>
        obtain ⟨m, hm, hafter⟩ := TimerQueue.afterCallback_once hnodes n.value t
        rw [hafter] at hs
        cases hs
        exact .onceReturns n ns t m hpc hnodes hr hm
      | recurring =>
        obtain ⟨-, hle⟩ := updated_deadline hr hdue
        obtain ⟨m, id, hm, hafter⟩ := TimerQueue.afterCallback_recurring hnodes hle
        rw [hafter] at hs
        cases hs
        exact .recurringReturns n ns t m id hpc hnodes hr hdue hm
    · cases hs
  · cases hs

theorem Wf.resetTimer_move (h : s.Wf) {t : Nat} {s' : TimerState} {o : TimerShown}
    (hs : timerQueue.step s (.resetTimer t) = some (s', o)) : Move s (.resetTimer t) s' o := by
  simp only [timerQueue] at hs
  split at hs
  · rename_i hpc
    split at hs
    · rename_i hr
      rcases h.resetEarliest t with ⟨hnodes, heq⟩ | ⟨n, hn, hmin, heq⟩
      · rw [heq] at hs
        cases hs
        exact .resetNone t hpc hr hnodes
      · rw [heq] at hs
        cases hs
        exact .reset n t hpc hr hn hmin
    · cases hs
  · cases hs

/-- **Every step is one of these moves.** -/
theorem Wf.move (h : s.Wf) {l : TimerStep} {s' : TimerState} {o : TimerShown}
    (hs : timerQueue.step s l = some (s', o)) : Move s l s' o := by
  cases l with
  | addOnceTimer interval t t' => exact add_move .once hs
  | addRecurringTimer interval t t' => exact add_move .recurring hs
  | timerHandle => exact start_move hs
  | loopEnd => exact h.loopEnd_move hs
  | check t => exact h.check_move hs
  | callbackReturns t => exact h.callbackReturns_move hs
  | resetTimer t => exact h.resetTimer_move hs

/-- A queue from whose multimap `kind` the first node goes and to which `again` come. -/
theorem nodes_after {q : TimerQueue} {kind : TimerKind} {n : Node Nat TimerId}
    {ns again : List (Node Nat TimerId)} {m : Multimap Nat TimerId}
    (hnodes : (q.timers kind).nodes = n :: ns) (hm : m.nodes.Perm (again ++ ns))
    (timer : TimerId → Timer) :
    ∃ rest, q.nodes.Perm (n :: rest) ∧
      ({ q with timer := timer, timers := Function.update q.timers kind m } :
        TimerQueue).nodes.Perm (again ++ rest) := by
  obtain ⟨other, hq, hupd⟩ := q.nodes_perm kind
  refine ⟨ns ++ other, ?_, ?_⟩
  · rw [hnodes] at hq
    exact hq
  · rw [← List.append_assoc]
    exact (hupd m).trans (hm.append_right other)

/-- The node of a once timer goes when its callback returns. -/
theorem Wf.onceReturns (h : s.Wf) {n : Node Nat TimerId} {ns : List (Node Nat TimerId)} {t : Nat}
    {m : Multimap Nat TimerId} (hnodes : s.queue.onceTimers.nodes = n :: ns) (hr : s.reads t)
    (hm : m.nodes = ns) :
    Wf ⟨{ s.queue with timers := Function.update s.queue.timers .once m },
      .loop .once m.begin, t⟩ := by
  have hperm : m.nodes.Perm ([] ++ ns) := List.Perm.of_eq hm
  obtain ⟨rest, hq, hq'⟩ := nodes_after hnodes hperm s.queue.timer
  have hdistinct := (hq.map Node.value).nodup_iff.mp h.distinct
  refine ⟨hr.2, fun timer hlt => ?_, fun x hx => ?_, ?_, ?_⟩
  · obtain ⟨t₀, h₀, hup⟩ := h.updated timer hlt
    exact ⟨t₀, Nat.le_trans h₀ hr.1, hup⟩
  · exact h.node x (hq.mem_iff.mpr (List.mem_cons_of_mem _ (hq'.mem_iff.mp hx)))
  · exact (hq'.map Node.value).nodup_iff.mpr (List.nodup_cons.mp hdistinct).2
  · show m.begin = (Function.update s.queue.timers .once m .once).begin
    rw [Function.update_self]

/-- One timer is updated at the reading `t`, as every one of them was at some reading before. -/
theorem Wf.updated_update (h : s.Wf) {t : Nat} (hr : s.reads t) (timer : TimerId) :
    ∀ timer' < s.queue.next, ∃ t₀ ≤ t,
      (Function.update s.queue.timer timer ((s.queue.timer timer).update t) timer').UpdatedAt
        t₀ := by
  intro timer' hlt
  rcases eq_or_ne timer' timer with rfl | hne
  · refine ⟨t, Nat.le_refl _, ?_⟩
    rw [Function.update_self]
    rfl
  · obtain ⟨t₀, h₀, hup⟩ := h.updated timer' hlt
    refine ⟨t₀, Nat.le_trans h₀ hr.1, ?_⟩
    rw [Function.update_of_ne hne]
    exact hup

/-- The node of a recurring timer comes again under its new deadline when its callback returns. -/
theorem Wf.recurringReturns (h : s.Wf) {n : Node Nat TimerId} {ns : List (Node Nat TimerId)}
    {t : Nat} {m : Multimap Nat TimerId} {id : Nat}
    (hnodes : s.queue.recurringTimers.nodes = n :: ns) (hr : s.reads t)
    (hm : m.nodes.Perm
      ([⟨id, ((s.queue.timer n.value).update t).getTimeOutMSecond, n.value⟩] ++ ns)) :
    Wf ⟨{ s.queue with
        timer := Function.update s.queue.timer n.value ((s.queue.timer n.value).update t)
        timers := Function.update s.queue.timers .recurring m },
      .loop .recurring m.begin, t⟩ := by
  obtain ⟨rest, hq, hq'⟩ := nodes_after hnodes hm
    (Function.update s.queue.timer n.value ((s.queue.timer n.value).update t))
  have hdistinct := (hq.map Node.value).nodup_iff.mp h.distinct
  have hn := h.node n (hq.mem_iff.mpr List.mem_cons_self)
  refine ⟨hr.2, h.updated_update hr n.value, fun x hx => ?_, ?_, ?_⟩
  · rcases List.mem_cons.mp (hq'.mem_iff.mp hx) with rfl | hx
    · refine ⟨hn.1, ?_⟩
      show _ = (Function.update s.queue.timer n.value _ n.value).getTimeOutMSecond
      rw [Function.update_self]
    · -- another node, hence another timer
      have hne : x.value ≠ n.value := fun e =>
        (List.nodup_cons.mp hdistinct).1 (List.mem_map.mpr ⟨x, hx, e⟩)
      obtain ⟨hlt, hkey⟩ := h.node x (hq.mem_iff.mpr (List.mem_cons_of_mem _ hx))
      refine ⟨hlt, hkey.trans ?_⟩
      show _ = (Function.update s.queue.timer n.value _ x.value).getTimeOutMSecond
      rw [Function.update_of_ne hne]
      rfl
  · exact (hq'.map Node.value).nodup_iff.mpr hdistinct
  · show m.begin = (Function.update s.queue.timers .recurring m .recurring).begin
    rw [Function.update_self]

/-- **Every step keeps the invariant.** -/
theorem Wf.step (h : s.Wf) {l : TimerStep} {s' : TimerState} {o : TimerShown}
    (hs : timerQueue.step s l = some (s', o)) : s'.Wf := by
  cases h.move hs with
  | add kind interval t t' hadd hle htt hv hno => exact h.withTimer hle htt hv hadd
  | addArming kind interval t t' hadd hle htt hv hyes => exact (h.withTimer hle htt hv hadd).arm _
  | start hpc => exact h.goOn _ (Nat.le_refl _) h.clock rfl
  | loopEnd kind hpc hnodes => exact h.goOn _ (Nat.le_refl _) h.clock (pcOk_leave s kind _)
  | wait kind n ns t hpc hnodes hr hlater => exact h.goOn _ hr.1 hr.2 (pcOk_leave s kind _)
  | fire kind n ns t hpc hnodes hr hdue => exact h.goOn _ hr.1 hr.2 ⟨n, ns, hnodes, rfl, hdue⟩
  | onceReturns n ns t m hpc hnodes hr hm => exact h.onceReturns hnodes hr hm
  | recurringReturns n ns t m id hpc hnodes hr hdue hm => exact h.recurringReturns hnodes hr hm
  | resetNone t hpc hr hnodes => exact h.goOn .idle hr.1 hr.2 trivial
  | reset n t hpc hr hn hmin => exact (h.goOn .idle hr.1 hr.2 trivial).arm _

end TimerState

end PluginsEngine
