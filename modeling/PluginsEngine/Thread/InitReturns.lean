/-
  File:      PluginsEngine/Thread/InitReturns.lean
  Subject:   THAT `EventThreadPool::init` RETURNS, in every interleaving with its workers.

  Each worker's wake-up is one `notify_one`, and the caller waits once for each worker, without a
  loop around the wait. So no wake-up may be lost, and none of the mutexes may be held for ever.

  * `Holds` -- the invariant: who holds which mutex, which workers are started, and that a caller
    that waits is still to be notified;
  * `remaining`, `remaining_step` -- what is left to do, and that every step does some of it;
  * `Holds.finished` -- where nobody can go on, everything is done;
  * `init_returns` -- the two together: every run is short, and where it can go no further `init`
    has returned, with all its workers in their loops.
-/
import Mathlib.Algebra.Order.BigOperators.Group.Finset
import PluginsEngine.Thread.EventThread

namespace PluginsEngine

open Library

namespace PoolStart

variable {Loop : Type} {s s' : PoolStart Loop}

/-! ## 1. Mutexes and wake-ups -/

/-- The worker holds the mutex of its `EventLoopThread`. -/
def inside : WorkerPhase Loop → Bool
  | .locked _ | .published _ | .notified _ => true
  | .beginRun | .created _ | .running _ => false

/-- The caller holds the mutex of the current one. -/
def callerInside : CallerPhase → Bool
  | .test | .unlock _ => true
  | .start | .lock | .waiting | .reacquire _ | .read _ => false

/-- The worker's `notify_one` is still to come. -/
def toNotify : WorkerPhase Loop → Bool
  | .beginRun | .created _ | .locked _ | .published _ => true
  | .notified _ | .running _ => false

structure Holds (s : PoolStart Loop) : Prop extends Tables s where
  i_le : s.i ≤ s.threadNum
  inRange : s.caller ≠ .start → s.i < s.threadNum
  started : ∀ j, (s.worker j).started = true ↔ j < s.i ∨ (j = s.i ∧ s.caller ≠ .start)
  fresh : ∀ j, (s.worker j).started = false → (s.worker j).phase = .beginRun
  workerHolds : ∀ j, s.mutex j = some .worker ↔ inside (s.worker j).phase = true
  callerHolds : ∀ j, s.mutex j = some .caller ↔ j = s.i ∧ callerInside s.caller = true
  /-- No wake-up is lost. -/
  waiting : s.caller = .waiting → toNotify (s.worker s.i).phase = true

theorem holds_initial (threadNum : Nat) : (initial threadNum : PoolStart Loop).Holds where
  toTables := tables_initial threadNum
  i_le := Nat.zero_le _
  inRange h := absurd rfl h
  started j := by
    refine ⟨nofun, fun h => ?_⟩
    rcases h with hlt | ⟨-, hne⟩
    · exact absurd hlt (Nat.not_lt_zero j)
    · exact absurd rfl hne
  fresh _ _ := rfl
  workerHolds _ := ⟨nofun, nofun⟩
  callerHolds _ := ⟨nofun, fun h => nomatch h.2⟩
  waiting := nofun

/-! ## 2. One step -/

theorem update_eq_some {m : Nat → Option Holder} {i : Nat} {h : Option Holder} (j : Nat)
    (x : Holder) :
    Function.update m i h j = some x ↔ (j = i ∧ h = some x) ∨ (j ≠ i ∧ m j = some x) := by
  by_cases hj : j = i
  · rw [hj, Function.update_self]
    exact ⟨fun hx => Or.inl ⟨rfl, hx⟩, fun hor => hor.elim And.right fun hx => absurd rfl hx.1⟩
  · rw [Function.update_of_ne hj]
    exact ⟨fun hx => Or.inr ⟨hj, hx⟩, fun hor => hor.elim (fun hx => absurd hx.1 hj) And.right⟩

/-- A mutex that nobody holds. -/
theorem Holds.free (h : s.Holds) {j : Nat} (hj : s.mutex j = none) :
    inside (s.worker j).phase = false ∧ ¬ (j = s.i ∧ callerInside s.caller = true) := by
  refine ⟨(Bool.not_eq_true _).mp fun hin => ?_, fun hin => ?_⟩
  · rw [(h.workerHolds j).mpr hin] at hj
    cases hj
  · rw [(h.callerHolds j).mpr hin] at hj
    cases hj

/-- The caller goes from one phase to another, with its mutex, and no worker does anything. -/
theorem Holds.callerMoves (h : s.Holds) {c : CallerPhase} {m : Option Holder}
    (hstart : s.caller ≠ .start) (hc : c ≠ .start) (hm : m ≠ some .worker)
    (hfree : inside (s.worker s.i).phase = false)
    (hcaller : m = some .caller ↔ callerInside c = true)
    (hwait : c = .waiting → toNotify (s.worker s.i).phase = true) :
    ({ s with caller := c, mutex := Function.update s.mutex s.i m } : PoolStart Loop).Holds where
  toTables := ⟨h.loops, h.count⟩
  i_le := h.i_le
  inRange _ := h.inRange hstart
  started j := by
    rw [h.started j]
    exact ⟨fun hor => hor.imp_right fun hi => ⟨hi.1, hc⟩,
      fun hor => hor.imp_right fun hi => ⟨hi.1, hstart⟩⟩
  fresh := h.fresh
  workerHolds j := by
    rw [update_eq_some, ← h.workerHolds j]
    refine ⟨fun hor => hor.elim (fun hx => absurd hx.2 hm) And.right, fun hx => Or.inr ⟨?_, hx⟩⟩
    intro hj
    rw [h.workerHolds j, hj, hfree] at hx
    cases hx
  callerHolds j := by
    rw [update_eq_some]
    refine ⟨fun hor => ?_, fun hx => Or.inl ⟨hx.1, hcaller.mpr hx.2⟩⟩
    rcases hor with ⟨hj, hx⟩ | ⟨hj, hx⟩
    · exact ⟨hj, hcaller.mp hx⟩
    · exact absurd ((h.callerHolds j).mp hx).1 hj
  waiting := hwait

/-- A worker that is not in `beginRun` any more was started. -/
theorem Holds.started_of_phase (h : s.Holds) {j : Nat} {p : WorkerPhase Loop}
    (hphase : (s.worker j).phase = p) (hp : p ≠ .beginRun) : (s.worker j).started = true :=
  (Bool.not_eq_false _).mp fun hf => hp (hphase.symm.trans (h.fresh j hf))

/-- A worker that was started does a step, and wakes the caller, or does not. -/
theorem Holds.workerMoves (h : s.Holds) {j : Nat} {w : Worker Loop} {m : Nat → Option Holder}
    {c : CallerPhase} (hrun : (s.worker j).started = true) (hw : w.started = true)
    (hloop : ∀ j', (Function.update s.worker j w j').loop =
      (Function.update s.worker j w j').phase.loop)
    (hworker : ∀ j', m j' = some .worker ↔
      inside (Function.update s.worker j w j').phase = true)
    (hcaller : ∀ j', m j' = some .caller ↔ s.mutex j' = some .caller)
    (hinside : callerInside c = callerInside s.caller) (hstart : c = .start ↔ s.caller = .start)
    (hwait : c = .waiting → s.caller = .waiting ∧ (s.i = j → toNotify w.phase = true)) :
    ({ s with caller := c, mutex := m, worker := Function.update s.worker j w } :
      PoolStart Loop).Holds where
  toTables := ⟨hloop, h.count⟩
  i_le := h.i_le
  inRange hne := h.inRange fun hs => hne (hstart.mpr hs)
  started j' := by
    have hsame : (Function.update s.worker j w j').started = (s.worker j').started := by
      by_cases hj : j' = j
      · rw [hj, Function.update_self, hrun, hw]
      · rw [Function.update_of_ne hj]
    show (Function.update s.worker j w j').started = true ↔ _
    rw [hsame, h.started j']
    exact or_congr Iff.rfl (and_congr_right fun _ => not_congr hstart.symm)
  fresh j' hf := by
    show (Function.update s.worker j w j').phase = .beginRun
    replace hf : (Function.update s.worker j w j').started = false := hf
    by_cases hj : j' = j
    · rw [hj, Function.update_self, hw] at hf
      cases hf
    · rw [Function.update_of_ne hj] at hf ⊢
      exact h.fresh j' hf
  workerHolds := hworker
  callerHolds j' := by
    rw [hcaller, h.callerHolds j', hinside]
  waiting hc := by
    show toNotify (Function.update s.worker j w s.i).phase = true
    obtain ⟨hbefore, hto⟩ := hwait hc
    by_cases hj : s.i = j
    · rw [hj, Function.update_self]
      exact hto hj
    · rw [Function.update_of_ne hj]
      exact h.waiting hbefore

/-- The mutex of a worker that moves and neither takes nor gives it. -/
theorem Holds.sameInside (h : s.Holds) {j : Nat} {p : WorkerPhase Loop} {w : Worker Loop}
    (hphase : (s.worker j).phase = p) (hin : inside w.phase = inside p) (j' : Nat) :
    s.mutex j' = some .worker ↔ inside (Function.update s.worker j w j').phase = true := by
  rw [h.workerHolds j']
  by_cases hj : j' = j
  · rw [hj, Function.update_self, hin, hphase]
  · rw [Function.update_of_ne hj]

/-- A worker that takes its mutex, or gives it back. -/
theorem Holds.changesInside (h : s.Holds) {j : Nat} {w : Worker Loop} {m : Option Holder}
    (hm : m = some .worker ↔ inside w.phase = true) (j' : Nat) :
    Function.update s.mutex j m j' = some .worker ↔
      inside (Function.update s.worker j w j').phase = true := by
  by_cases hj : j' = j
  · rw [hj, Function.update_self, Function.update_self]
    exact hm
  · rw [Function.update_of_ne hj, Function.update_of_ne hj]
    exact h.workerHolds j'

/-- That changes nothing for the caller. -/
theorem Holds.otherHolder (_h : s.Holds) {j : Nat} {m : Option Holder}
    (hold : s.mutex j ≠ some .caller) (hm : m ≠ some .caller) (j' : Nat) :
    Function.update s.mutex j m j' = some .caller ↔ s.mutex j' = some .caller := by
  by_cases hj : j' = j
  · rw [hj, Function.update_self]
    exact ⟨fun hx => absurd hx hm, fun hx => absurd hx hold⟩
  · rw [Function.update_of_ne hj]

/-- While the caller holds the mutex of a worker, the worker does not. -/
theorem Holds.outside (h : s.Holds) (hc : callerInside s.caller = true) :
    s.mutex s.i = some .caller ∧ inside (s.worker s.i).phase = false := by
  have hheld : s.mutex s.i = some .caller := (h.callerHolds s.i).mpr ⟨rfl, hc⟩
  refine ⟨hheld, (Bool.not_eq_true _).mp fun hin => ?_⟩
  rw [(h.workerHolds s.i).mpr hin] at hheld
  cases hheld

/-- The next worker is started. -/
theorem Holds.startWorker (h : s.Holds) (hc : s.caller = .start) (hlt : s.i < s.threadNum) :
    ({ s.setWorker s.i { s.worker s.i with started := true } with caller := .lock } :
      PoolStart Loop).Holds := by
  have hnot : ¬ (s.i < s.i ∨ (s.i = s.i ∧ s.caller ≠ .start)) := by
    rw [hc]
    exact fun hor => hor.elim (Nat.lt_irrefl _) fun hne => hne.2 rfl
  have hfresh : (s.worker s.i).phase = .beginRun :=
    h.fresh s.i ((Bool.not_eq_true _).mp fun hst => hnot ((h.started s.i).mp hst))
  refine ⟨h.toTables.step (.start hc hlt), h.i_le, fun _ => hlt, fun j => ?_, fun j hf => ?_,
    fun j => ?_, fun j => ?_, nofun⟩
  · show (Function.update s.worker s.i { s.worker s.i with started := true } j).started = true ↔
      j < s.i ∨ (j = s.i ∧ CallerPhase.lock ≠ .start)
    by_cases hj : j = s.i
    · rw [hj, Function.update_self]
      exact ⟨fun _ => Or.inr ⟨rfl, nofun⟩, fun _ => rfl⟩
    · rw [Function.update_of_ne hj, h.started j]
      exact or_congr Iff.rfl ⟨fun hx => absurd hx.1 hj, fun hx => absurd hx.1 hj⟩
  · replace hf : (Function.update s.worker s.i
      { s.worker s.i with started := true } j).started = false := hf
    show (Function.update s.worker s.i { s.worker s.i with started := true } j).phase = _
    by_cases hj : j = s.i
    · rw [hj, Function.update_self]
      exact hfresh
    · rw [Function.update_of_ne hj] at hf ⊢
      exact h.fresh j hf
  · exact h.sameInside (j := s.i) (w := { s.worker s.i with started := true }) rfl rfl j
  · show s.mutex j = some .caller ↔ j = s.i ∧ callerInside .lock = true
    rw [h.callerHolds j, hc]
    rfl

/-- The pointer of the current worker is returned, and it is the turn of the next. -/
theorem Holds.read (h : s.Holds) {spurious : Bool} (hc : s.caller = .read spurious) :
    s.afterRead.Holds := by
  have hlt : s.i < s.threadNum := h.inRange (by rw [hc]; exact nofun)
  refine ⟨h.toTables.step (.read spurious hc), hlt, fun hne => absurd rfl hne, fun j => ?_,
    h.fresh, h.workerHolds, fun j => ?_, nofun⟩
  · show (s.worker j).started = true ↔ j < s.i + 1 ∨ (j = s.i + 1 ∧ CallerPhase.start ≠ .start)
    rw [h.started j, hc]
    constructor
    · intro hor
      exact Or.inl (hor.elim (fun hj => Nat.lt_succ_of_lt hj) fun hj => hj.1 ▸ Nat.lt_succ_self _)
    · intro hor
      refine hor.elim (fun hj => ?_) fun hx => absurd rfl hx.2
      exact (Nat.lt_succ_iff_lt_or_eq.mp hj).imp_right fun hi => ⟨hi, nofun⟩
  · refine ⟨fun hx => ?_, fun hx => nomatch hx.2⟩
    have hin := ((h.callerHolds j).mp hx).2
    rw [hc] at hin
    cases hin

/-- A caller that holds the mutex and finds no pointer is still to be notified. -/
theorem Holds.toNotify_of_null (h : s.Holds) (hfree : inside (s.worker s.i).phase = false)
    (hnull : (s.worker s.i).loop = none) : toNotify (s.worker s.i).phase = true := by
  rw [h.loops] at hnull
  cases hphase : (s.worker s.i).phase with
  | beginRun | created l => rfl
  | locked l | published l | notified l =>
    rw [hphase] at hfree
    cases hfree
  | running l =>
    rw [hphase] at hnull
    cases hnull

/-- The wait comes back by itself. -/
theorem Holds.wakes (h : s.Holds) (hc : s.caller = .waiting) :
    ({ s with caller := .reacquire true } : PoolStart Loop).Holds := by
  refine ⟨h.toTables.step (.spuriousWake hc), h.i_le, fun _ => h.inRange (by rw [hc]; exact nofun),
    fun j => ?_, h.fresh, h.workerHolds, fun j => ?_, nofun⟩
  · rw [h.started j, hc]
    exact or_congr Iff.rfl (and_congr_right fun _ => ⟨fun _ => nofun, fun _ => nofun⟩)
  · rw [h.callerHolds j, hc]
    rfl

/-- **One step.** -/
theorem Holds.moves (h : s.Holds) {l : PoolStartLabel Loop} {o : Option (Option Loop)}
    (hm : s.Moves l s' o) : s'.Holds := by
  have ht := h.toTables.step hm
  cases hm with
  | start hc hlt => exact h.startWorker hc hlt
  | lock hc hfree | reacquire spurious hc hfree =>
    exact h.callerMoves (by rw [hc]; exact nofun) nofun nofun (h.free hfree).1
      ⟨fun _ => rfl, fun _ => rfl⟩ nofun
  | waits hc hnull =>
    obtain ⟨-, hfree⟩ := h.outside (by rw [hc]; rfl)
    exact h.callerMoves (by rw [hc]; exact nofun) nofun nofun hfree ⟨nofun, nofun⟩
      fun _ => h.toNotify_of_null hfree hnull
  | finds hc hthere =>
    obtain ⟨hheld, hfree⟩ := h.outside (by rw [hc]; rfl)
    have hsame : Function.update s.mutex s.i (some .caller) = s.mutex := by
      rw [← hheld, Function.update_eq_self]
    have hmoved := h.callerMoves (c := .unlock false) (m := some .caller)
      (by rw [hc]; exact nofun) nofun nofun hfree ⟨fun _ => rfl, fun _ => rfl⟩ nofun
    rwa [hsame] at hmoved
  | spuriousWake hc => exact h.wakes hc
  | unlock spurious hc =>
    obtain ⟨-, hfree⟩ := h.outside (by rw [hc]; rfl)
    exact h.callerMoves (by rw [hc]; exact nofun) nofun nofun hfree ⟨nofun, nofun⟩ nofun
  | read spurious hc => exact h.read hc
  | begins j loop hphase hstarted =>
    exact h.workerMoves hstarted hstarted ht.loops (h.sameInside hphase rfl) (fun _ => Iff.rfl) rfl
      Iff.rfl fun hwait => ⟨hwait, fun _ => rfl⟩
  | locks j loop l hphase hfree =>
    have hrun := h.started_of_phase hphase nofun
    have hno : s.mutex j ≠ some .caller := by rw [hfree]; exact nofun
    exact h.workerMoves hrun hrun ht.loops (h.changesInside ⟨fun _ => rfl, fun _ => rfl⟩)
      (h.otherHolder hno nofun) rfl Iff.rfl fun hwait => ⟨hwait, fun _ => rfl⟩
  | publishes j loop l hphase =>
    have hrun := h.started_of_phase hphase nofun
    exact h.workerMoves hrun hrun ht.loops (h.sameInside hphase rfl) (fun _ => Iff.rfl) rfl
      Iff.rfl fun hwait => ⟨hwait, fun _ => rfl⟩
  | notifies j loop l hphase hi hc =>
    have hrun := h.started_of_phase hphase nofun
    exact h.workerMoves hrun hrun ht.loops (h.sameInside hphase rfl) (fun _ => Iff.rfl)
      (by rw [hc]; rfl) (by rw [hc]; exact ⟨nofun, nofun⟩) nofun
  | notifiesNobody j loop l hphase hno =>
    have hrun := h.started_of_phase hphase nofun
    exact h.workerMoves hrun hrun ht.loops (h.sameInside hphase rfl) (fun _ => Iff.rfl) rfl
      Iff.rfl fun hwait => ⟨hwait, fun hi => absurd hwait (hno hi)⟩
  | unlocks j loop l hphase =>
    have hrun := h.started_of_phase hphase nofun
    have hheld : s.mutex j = some .worker := (h.workerHolds j).mpr (by rw [hphase]; rfl)
    have hno : s.mutex j ≠ some .caller := by rw [hheld]; exact nofun
    refine h.workerMoves hrun hrun ht.loops (h.changesInside ⟨nofun, nofun⟩)
      (h.otherHolder hno nofun) rfl Iff.rfl fun hwait => ⟨hwait, fun hi => ?_⟩
    -- a caller that waits for this worker has still to be notified
    have hto := h.waiting hwait
    rw [hi, hphase] at hto
    cases hto

theorem Holds.step (h : s.Holds) {l : PoolStartLabel Loop} {o : Option (Option Loop)}
    (hs : (poolStart Loop).step s l = some (s', o)) : s'.Holds :=
  h.moves (moves_of_step hs)

/-! ## 3. What is left to do -/

/-- The steps a worker still has to take. -/
def workerRemaining : WorkerPhase Loop → Nat
  | .beginRun => 5
  | .created _ => 4
  | .locked _ => 3
  | .published _ => 2
  | .notified _ => 1
  | .running _ => 0

/-- The steps of its round the caller has taken. -/
def callerDone : CallerPhase → Nat
  | .start => 0
  | .lock => 1
  | .test => 2
  | .waiting => 3
  | .reacquire _ => 4
  | .unlock _ => 5
  | .read _ => 6

/-- At most so many steps are left. -/
def remaining (s : PoolStart Loop) : Nat :=
  ((Finset.range s.threadNum).sum fun j => workerRemaining (s.worker j).phase) +
    (7 * (s.threadNum - s.i) - callerDone s.caller)

theorem remaining_initial (threadNum : Nat) :
    (initial threadNum : PoolStart Loop).remaining = 12 * threadNum := by
  show ((Finset.range threadNum).sum fun _ => 5) + (7 * (threadNum - 0) - 0) = _
  rw [Finset.sum_const_nat fun _ _ => rfl, Finset.card_range]
  omega

/-- A worker that is started and moves on. -/
theorem sum_lt_of_worker (h : s.Holds) {j : Nat} {w : Worker Loop} {p : WorkerPhase Loop}
    (hphase : (s.worker j).phase = p) (hstarted : (s.worker j).started = true)
    (hlt : workerRemaining w.phase < workerRemaining p) :
    ((Finset.range s.threadNum).sum fun j' =>
        workerRemaining (Function.update s.worker j w j').phase) <
      (Finset.range s.threadNum).sum fun j' => workerRemaining (s.worker j').phase := by
  have hj : j < s.threadNum := by
    rcases (h.started j).mp hstarted with hlt | ⟨hj, hne⟩
    · exact Nat.lt_of_lt_of_le hlt h.i_le
    · exact hj ▸ h.inRange hne
  rw [← hphase] at hlt
  refine Finset.sum_lt_sum (fun j' _ => ?_) ⟨j, Finset.mem_range.mpr hj, ?_⟩
  · by_cases hjj : j' = j
    · rw [hjj, Function.update_self]
      exact Nat.le_of_lt hlt
    · rw [Function.update_of_ne hjj]
  · rw [Function.update_self]
    exact hlt

/-- The start of a worker takes it no step further. -/
theorem sum_started (s : PoolStart Loop) :
    ((Finset.range s.threadNum).sum fun j' => workerRemaining
        (Function.update s.worker s.i { s.worker s.i with started := true } j').phase) =
      (Finset.range s.threadNum).sum fun j' => workerRemaining (s.worker j').phase := by
  refine Finset.sum_congr rfl fun j' _ => ?_
  by_cases hj : j' = s.i
  · rw [hj, Function.update_self]
  · rw [Function.update_of_ne hj]

theorem callerDone_le (c : CallerPhase) : callerDone c ≤ 6 := by
  unfold callerDone
  split <;> decide

/-- A step of the caller in its round. -/
theorem remaining_of_callerDone (h : s.Holds) (hne : s.caller ≠ .start)
    (hn : s'.threadNum = s.threadNum) (hi : s'.i = s.i) (hw : s'.worker = s.worker)
    (hlt : callerDone s.caller < callerDone s'.caller) : s'.remaining < s.remaining := by
  have hrange := h.inRange hne
  have hle := callerDone_le s'.caller
  unfold remaining
  rw [hn, hi, hw]
  omega

/-- A step of a worker that wakes nobody. -/
theorem remaining_of_worker (h : s.Holds) {j : Nat} {w : Worker Loop} {p : WorkerPhase Loop}
    (hphase : (s.worker j).phase = p) (hstarted : (s.worker j).started = true)
    (hn : s'.threadNum = s.threadNum) (hi : s'.i = s.i) (hc : s'.caller = s.caller)
    (hw : s'.worker = Function.update s.worker j w)
    (hlt : workerRemaining w.phase < workerRemaining p) : s'.remaining < s.remaining := by
  unfold remaining
  rw [hn, hi, hc, hw]
  exact Nat.add_lt_add_right (sum_lt_of_worker h hphase hstarted hlt) _

/-- **Every step does some of what is left.** -/
theorem remaining_step (h : s.Holds) {l : PoolStartLabel Loop} {o : Option (Option Loop)}
    (hs : (poolStart Loop).step s l = some (s', o)) : s'.remaining < s.remaining := by
  cases moves_of_step hs with
  | start hc hlt =>
    show ((Finset.range s.threadNum).sum fun j' => workerRemaining
        (Function.update s.worker s.i { s.worker s.i with started := true } j').phase) +
      (7 * (s.threadNum - s.i) - 1) < _
    rw [sum_started]
    unfold remaining
    rw [hc]
    show _ < _ + (7 * (s.threadNum - s.i) - 0)
    omega
  | lock hc _ | waits hc _ | spuriousWake hc | reacquire _ hc _ | unlock _ hc =>
    exact remaining_of_callerDone h (by rw [hc]; exact nofun) rfl rfl rfl
      (by rw [hc]; exact Nat.lt_succ_self _)
  | finds hc hthere =>
    exact remaining_of_callerDone h (by rw [hc]; exact nofun) rfl rfl rfl
      (by rw [hc]; exact show 2 < 5 by decide)
  | read spurious hc =>
    have hlt := h.inRange (by rw [hc]; exact nofun)
    unfold remaining
    rw [hc]
    refine Nat.add_lt_add_left ?_ _
    show 7 * (s.threadNum - (s.i + 1)) - 0 < 7 * (s.threadNum - s.i) - 6
    omega
  | begins j loop hphase hstarted =>
    exact remaining_of_worker h hphase hstarted rfl rfl rfl rfl (Nat.lt_succ_self 4)
  | locks j loop l hphase hfree =>
    exact remaining_of_worker h hphase (h.started_of_phase hphase nofun) rfl rfl rfl rfl
      (Nat.lt_succ_self 3)
  | publishes j loop l hphase =>
    exact remaining_of_worker h hphase (h.started_of_phase hphase nofun) rfl rfl rfl rfl
      (Nat.lt_succ_self 2)
  | notifies j loop l hphase hi hc =>
    have hsum := sum_lt_of_worker h (w := { s.worker j with phase := .notified l }) hphase
      (h.started_of_phase hphase nofun) (Nat.lt_succ_self 1)
    -- the caller has been woken as well
    refine Nat.add_lt_add_of_lt_of_le hsum ?_
    show 7 * (s.threadNum - s.i) - 4 ≤ 7 * (s.threadNum - s.i) - callerDone s.caller
    rw [hc]
    exact Nat.sub_le_sub_left (show 3 ≤ 4 by decide) _
  | notifiesNobody j loop l hphase hno =>
    exact remaining_of_worker h hphase (h.started_of_phase hphase nofun) rfl rfl rfl rfl
      (Nat.lt_succ_self 1)
  | unlocks j loop l hphase =>
    exact remaining_of_worker h hphase (h.started_of_phase hphase nofun) rfl rfl rfl rfl
      (Nat.lt_succ_self 0)

/-! ## 4. `init` returns -/

/-- Nobody can go on, unless a wait comes back without a notification. -/
def Halted (s : PoolStart Loop) : Prop :=
  ∀ l, l ≠ .spuriousWake → (poolStart Loop).step s l = none

/-- `init` has returned, and every worker is in its loop. -/
structure Finished (s : PoolStart Loop) : Prop where
  i : s.i = s.threadNum
  caller : s.caller = .start
  count : s.eventLoopPoll.length = s.threadNum
  running : ∀ j, j < s.threadNum → ∃ loop, (s.worker j).phase = .running loop

/-- A worker that was started can go on, unless it is in its loop, or the caller has its mutex. -/
theorem Holds.worker_stuck [Nonempty Loop] (h : s.Holds) (hhalted : s.Halted) {j : Nat}
    (hstarted : (s.worker j).started = true) (hmutex : s.mutex j ≠ some .caller) :
    ∃ loop, (s.worker j).phase = .running loop := by
  have hloop := Classical.arbitrary Loop
  have hnone : s.workerStep j hloop = none :=
    Option.map_eq_none_iff.mp (hhalted (.worker j hloop) nofun)
  unfold PoolStart.workerStep at hnone
  cases hphase : (s.worker j).phase with
  | beginRun =>
    simp only [hphase, hstarted, if_true] at hnone
    cases hnone
  | created l =>
    have hfree : s.mutex j = none := by
      cases hm : s.mutex j with
      | none => rfl
      | some x =>
        cases x with
        | caller => exact absurd hm hmutex
        | worker =>
          have hin := (h.workerHolds j).mp hm
          rw [hphase] at hin
          cases hin
    simp only [hphase, hfree, if_true] at hnone
    cases hnone
  | locked l | published l | notified l =>
    simp only [hphase] at hnone
    cases hnone
  | running l => exact ⟨l, rfl⟩

/-- **Where nobody can go on, everything is done**: nobody waits for a mutex or a wake-up. -/
theorem Holds.finished [Nonempty Loop] (h : s.Holds) (hhalted : s.Halted) : s.Finished := by
  have hnone : s.callerStep = none := hhalted .caller nofun
  have hstarted : s.caller ≠ .start → (s.worker s.i).started = true := fun hne =>
    (h.started s.i).mpr (Or.inr ⟨rfl, hne⟩)
  -- a caller outside its critical section finds the mutex free
  have hfree : s.caller ≠ .start → callerInside s.caller = false → s.mutex s.i = none := by
    intro hne hout
    have hno : s.mutex s.i ≠ some .caller := by
      intro hx
      have hin := ((h.callerHolds s.i).mp hx).2
      rw [hout] at hin
      cases hin
    obtain ⟨loop, hrunning⟩ := h.worker_stuck hhalted (hstarted hne) hno
    cases hm : s.mutex s.i with
    | none => rfl
    | some x =>
      cases x with
      | caller => exact absurd hm hno
      | worker =>
        have hin := (h.workerHolds s.i).mp hm
        rw [hrunning] at hin
        cases hin
  unfold PoolStart.callerStep at hnone
  cases hc : s.caller with
  | start =>
    simp only [hc] at hnone
    split at hnone
    · cases hnone
    · rename_i hge
      have hi : s.i = s.threadNum := Nat.le_antisymm h.i_le (Nat.not_lt.mp hge)
      refine ⟨hi, hc, h.count.trans hi, fun j hj => h.worker_stuck hhalted ?_ fun hx => ?_⟩
      · exact (h.started j).mpr (Or.inl (hi ▸ hj))
      · have hin := ((h.callerHolds j).mp hx).2
        rw [hc] at hin
        cases hin
  | lock =>
    have hm := hfree (by rw [hc]; exact nofun) (by rw [hc]; rfl)
    simp only [hc, hm, if_true] at hnone
    cases hnone
  | test =>
    simp only [hc] at hnone
    split at hnone <;> cases hnone
  | waiting =>
    -- its worker has not notified it yet, and can go on
    have hm := hfree (by rw [hc]; exact nofun) (by rw [hc]; rfl)
    obtain ⟨loop, hrunning⟩ := h.worker_stuck hhalted (hstarted (by rw [hc]; exact nofun))
      (by rw [hm]; exact nofun)
    have hto := h.waiting hc
    rw [hrunning] at hto
    cases hto
  | reacquire spurious =>
    have hm := hfree (by rw [hc]; exact nofun) (by rw [hc]; rfl)
    simp only [hc, hm, if_true] at hnone
    cases hnone
  | unlock spurious | read spurious =>
    simp only [hc] at hnone
    cases hnone

/-- **`init` returns**, whatever the schedule and whatever wake-ups are spurious: a run has at most
    twelve steps for each worker; and a run that can go no further without a spurious wake-up has
    come to the end of `init`, with a pointer for each worker and every worker in its loop. So no
    wake-up is lost, and nobody waits for a mutex for ever. -/
theorem init_returns [Nonempty Loop] {threadNum : Nat} {ls : List (PoolStartLabel Loop)}
    {t : PoolStart Loop} {os : List (Option (Option Loop))}
    (h : (poolStart Loop).run (initial threadNum) ls = some (t, os)) :
    ls.length ≤ 12 * threadNum ∧ (t.Halted → t.Finished) := by
  have hholds : t.Holds :=
    Machine.run_invariant (fun _ _ _ _ hI hs => hI.step hs) (holds_initial threadNum) h
  have hlength := Machine.run_length_le (m := remaining)
    (fun _ _ _ _ hI hs => ⟨Holds.step hI hs, remaining_step hI hs⟩) (holds_initial threadNum) h
  rw [remaining_initial] at hlength
  exact ⟨Nat.le_trans (Nat.le_add_left _ _) hlength, hholds.finished⟩

/-- The caller waits for the only worker, which then publishes its loop and notifies. -/
def oneWorkerRun : List (PoolStartLabel Nat) :=
  [.caller, .caller, .caller, .worker 0 7, .worker 0 7, .worker 0 7, .worker 0 7, .worker 0 7,
    .caller, .caller, .caller]

theorem init_returns_oneWorker : ∃ t os,
    (poolStart Nat).run (initial 1) oneWorkerRun = some (t, os) ∧
      t.eventLoopPoll = [some 7] ∧ oneWorkerRun.length ≤ 12 * 1 ∧ (t.Halted → t.Finished) := by
  have hsome : ((poolStart Nat).run (initial 1) oneWorkerRun).isSome := by decide
  obtain ⟨⟨t, os⟩, hrun⟩ := Option.isSome_iff_exists.mp hsome
  have hseen : ((poolStart Nat).run (initial 1) oneWorkerRun).map
      (fun p => p.1.eventLoopPoll) = some [some 7] := by decide
  rw [hrun] at hseen
  exact ⟨t, os, hrun, Option.some.inj hseen, init_returns hrun⟩

end PoolStart

end PluginsEngine
