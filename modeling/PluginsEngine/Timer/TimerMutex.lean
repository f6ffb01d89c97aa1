/-
  File:      PluginsEngine/Timer/TimerMutex.lean
  Subject:   THE MUTEX OF THE TIMER QUEUE, and callbacks that use the timer service.

  `runOnceAfter`, `runEveryInterval` and `timerHandle` take the mutex of the queue, which is not
  recursive; `timerHandle` keeps it while it runs the callbacks. `lockedQueue` is the timer queue
  with its mutex and the threads that call it: the loop's own thread (`none`), which runs the
  passes, and any others.

  * `timers_of_run` -- the mutex only restricts the queue: its runs are runs of `timerQueue`;
  * `Held` -- who holds the mutex, in every state of every run;
  * `relock_iff_nested` -- a thread waits for the mutex it holds exactly when a callback of a pass
    calls `runOnceAfter` or `runEveryInterval`; such a call never returns, and no timer is added
    any more;
  * `nested_call_waits_for_itself` -- a once timer whose callback asks for another one.
-/
import PluginsEngine.Library.FiniteMap
import PluginsEngine.Timer.TimerQueue

namespace PluginsEngine

open Library TimerState

variable {τ : Type} [DecidableEq τ]

/-! ## 1. The queue, its mutex and its threads -/

/-- A call of `runOnceAfter` or `runEveryInterval`, and whether its `lock` is taken. -/
structure TimerCall where
  kind : TimerKind
  interval : Int32
  locked : Bool
  deriving DecidableEq

/-- The queue, the thread that holds its mutex, and the call each thread is in. -/
structure LockedState (τ : Type) where
  timers : TimerState
  mutex : Option (Option τ)
  calls : Option τ → Option TimerCall

inductive LockedStep (τ : Type) where
  /-- A thread calls `runOnceAfter` or `runEveryInterval`. -/
  | run (x : Option τ) (kind : TimerKind) (interval : Int32)
  /-- Its `unique_lock` gets the mutex. -/
  | lock (x : Option τ)
  /-- It adds its timer, unlocks and returns. -/
  | add (x : Option τ) (t t' : Nat)
  /-- The loop's thread goes on in `timerHandle`. -/
  | pass (l : TimerStep)

/-- The steps of `timerHandle`. -/
def TimerStep.ofPass : TimerStep → Bool
  | .addOnceTimer _ _ _ | .addRecurringTimer _ _ _ => false
  | .timerHandle | .loopEnd | .check _ | .callbackReturns _ | .resetTimer _ => true

/-- The queue in use by several threads. The loop's thread calls from its handlers while no pass is
    running, and from the callbacks of a pass; a callback returns after the calls it made. -/
def lockedQueue (τ : Type) [DecidableEq τ] : Machine (LockedState τ) (LockedStep τ) TimerShown where
  step s
    | .run x kind interval =>
      if s.calls x = none ∧ (x = none → s.timers.mayAdd = true) then
        some ({ s with calls := Function.update s.calls x (some ⟨kind, interval, false⟩) }, quiet)
      else none
    | .lock x =>
      match s.calls x with
      | some ⟨kind, interval, false⟩ =>
        if s.mutex = none then
          some (⟨s.timers, some x, Function.update s.calls x (some ⟨kind, interval, true⟩)⟩, quiet)
        else none
      | _ => none
    | .add x t t' =>
      match s.calls x with
      | some ⟨kind, interval, true⟩ =>
        match s.timers.add kind interval.toUInt32 t t' with
        | none => none
        | some (timers, o) => some (⟨timers, none, Function.update s.calls x none⟩, o)
      | _ => none
    | .pass l =>
      if s.calls none = none ∧ l.ofPass ∧ (l = .timerHandle → s.mutex = none) then
        match timerQueue.step s.timers l with
        | none => none
        | some (timers, o) =>
          -- `lock` lives from the first statement of `timerHandle` to the last
          some ({ s with
            timers := timers, mutex := if timers.pc = .idle then none else some none }, o)
      else none

namespace LockedState

variable {s s' : LockedState τ} {l : LockedStep τ} {o : TimerShown}

/-- A queue just constructed. -/
def initial (τ : Type) : LockedState τ := ⟨.initial, none, fun _ => none⟩

/-! ## 2. The queue under the mutex -/

/-- **Everything a step can do**, with its guard. -/
inductive Locks (s : LockedState τ) : LockedStep τ → LockedState τ → TimerShown → Prop where
  | run (x : Option τ) (c : TimerCall) (hfree : s.calls x = none) (hlocked : c.locked = false)
      (hmay : x = none → s.timers.mayAdd = true) :
      Locks s (.run x c.kind c.interval)
        { s with calls := Function.update s.calls x (some c) } quiet
  | lock (x : Option τ) (c : TimerCall) (hcall : s.calls x = some c) (hwaits : c.locked = false)
      (hfree : s.mutex = none) :
      Locks s (.lock x)
        ⟨s.timers, some x, Function.update s.calls x (some { c with locked := true })⟩ quiet
  | add (x : Option τ) (c : TimerCall) (t t' : Nat) (timers : TimerState) (o : TimerShown)
      (hcall : s.calls x = some c) (hlocked : c.locked = true)
      (hadd : timerQueue.step s.timers (addStep c.kind c.interval.toUInt32 t t') =
        some (timers, o)) :
      Locks s (.add x t t') ⟨timers, none, Function.update s.calls x none⟩ o
  | pass (l : TimerStep) (timers : TimerState) (o : TimerShown) (hfree : s.calls none = none)
      (hpass : l.ofPass = true) (hmutex : l = .timerHandle → s.mutex = none)
      (hstep : timerQueue.step s.timers l = some (timers, o)) :
      Locks s (.pass l)
        ⟨timers, if timers.pc = .idle then none else some none, s.calls⟩ o

theorem locks_of_step (hs : (lockedQueue τ).step s l = some (s', o)) : Locks s l s' o := by
  cases l with
  | run x kind interval =>
    simp only [lockedQueue] at hs
    split at hs
    · rename_i hok
      cases hs
      exact .run x ⟨kind, interval, false⟩ hok.1 rfl hok.2
    · cases hs
  | lock x =>
    simp only [lockedQueue] at hs
    split at hs
    · rename_i kind interval hcall
      split at hs
      · rename_i hfree
        cases hs
        exact .lock x ⟨kind, interval, false⟩ hcall rfl hfree
      · cases hs
    · cases hs
  | add x t t' =>
    simp only [lockedQueue] at hs
    split at hs
    · rename_i kind interval hcall
      split at hs
      · cases hs
      · rename_i timers o' hadd
        cases hs
        refine .add x ⟨kind, interval, true⟩ t t' timers o hcall rfl ?_
        cases kind with
        | once => exact hadd
        | recurring => exact hadd
    · cases hs
  | pass l =>
    simp only [lockedQueue] at hs
    split at hs
    · rename_i hok
      split at hs
      · cases hs
      · rename_i timers o' hstep
        cases hs
        exact .pass l timers o hok.1 hok.2.1 hok.2.2 hstep
    · cases hs

/-- **The mutex only restricts the queue**: what it goes through in a run is a run of
    `timerQueue`. -/
theorem timers_of_run {ls : List (LockedStep τ)} {os : List TimerShown}
    (h : (lockedQueue τ).run (initial τ) ls = some (s, os)) :
    ∃ ls' os', timerQueue.run TimerState.initial ls' = some (s.timers, os') := by
  refine Machine.run_induct (P := fun _ _ s => ∃ ls' os', timerQueue.run TimerState.initial ls' =
    some (s.timers, os')) ⟨[], [], rfl⟩ (fun _ _ s l s' o hI hs => ?_) h
  obtain ⟨ls', os', hrun⟩ := hI
  have hone : ∀ {l' : TimerStep} {timers : TimerState} {o' : TimerShown},
      timerQueue.step s.timers l' = some (timers, o') →
        ∃ ls' os', timerQueue.run TimerState.initial ls' = some (timers, os') := by
    intro l' timers o' hstep
    exact ⟨ls' ++ [l'], os' ++ [o'], Machine.run_append_iff.mpr
      ⟨s.timers, os', [o'], hrun, Machine.run_cons_iff.mpr ⟨_, _, [], hstep, rfl, rfl⟩, rfl⟩⟩
  cases locks_of_step hs with
  | run x c hfree hlocked hmay => exact ⟨ls', os', hrun⟩
  | lock x c hcall hwaits hfree => exact ⟨ls', os', hrun⟩
  | add x c t t' timers o hcall hlocked hadd => exact hone hadd
  | pass l timers o hfree hpass hmutex hstep => exact hone hstep

/-! ## 3. Who holds the mutex -/

/-- An addition does not move the pass. -/
theorem pc_of_add {timers timers' : TimerState} {kind : TimerKind} {interval : UInt32}
    {t t' : Nat} {o : TimerShown}
    (hs : timerQueue.step timers (addStep kind interval t t') = some (timers', o)) :
    timers'.pc = timers.pc := by
  have hadd : timers.add kind interval t t' = some (timers', o) := by
    cases kind with
    | once => exact hs
    | recurring => exact hs
  simp only [TimerState.add] at hadd
  split at hadd
  · cases hadd
    rfl
  · cases hadd

/-- A pass begins with `timerHandle`. -/
theorem timerHandle_of_idle {timers timers' : TimerState} {l : TimerStep} {o : TimerShown}
    (hs : timerQueue.step timers l = some (timers', o)) (hpass : l.ofPass = true)
    (hidle : timers.pc = .idle) : l = .timerHandle := by
  cases l with
  | addOnceTimer interval t t' => cases hpass
  | addRecurringTimer interval t t' => cases hpass
  | timerHandle => rfl
  | loopEnd =>
    simp only [timerQueue, hidle] at hs
    cases hs
  | check t =>
    simp only [timerQueue, hidle] at hs
    cases hs
  | callbackReturns t =>
    simp only [timerQueue, hidle] at hs
    cases hs
  | resetTimer t =>
    simp only [timerQueue, hidle] at hs
    cases hs

/-- **The mutex is held** by the loop's thread while a pass runs, and by a thread that adds its
    timer, and by nobody else. -/
structure Held (s : LockedState τ) : Prop where
  pass : s.timers.pc ≠ .idle → s.mutex = some none
  adding : ∀ x c, s.calls x = some c → c.locked = true → s.mutex = some x ∧ s.timers.pc = .idle
  holder : ∀ x, s.mutex = some x →
    (x = none ∧ s.timers.pc ≠ .idle) ∨ ∃ c, s.calls x = some c ∧ c.locked = true

omit [DecidableEq τ] in
theorem held_initial : (initial τ).Held where
  pass h := absurd rfl h
  adding x c h := by
    simp only [initial] at h
    cases h
  holder x h := by
    simp only [initial] at h
    cases h

omit [DecidableEq τ] in
theorem Held.idle (h : s.Held) (hfree : s.mutex = none) : s.timers.pc = .idle := by
  by_contra hpc
  have hmutex := h.pass hpc
  rw [hfree] at hmutex
  cases hmutex

theorem Held.step (h : s.Held) (hs : (lockedQueue τ).step s l = some (s', o)) : s'.Held := by
  cases locks_of_step hs with
  | run x c hfree hlocked hmay =>
    refine ⟨h.pass, fun y c' hy hc' => ?_, fun y hy => ?_⟩
    · rcases update_cases hy with ⟨rfl, hc⟩ | ⟨-, hold⟩
      · cases hc
        rw [hlocked] at hc'
        cases hc'
      · exact h.adding y c' hold hc'
    · refine (h.holder y hy).imp_right ?_
      intro hcall
      obtain ⟨c', hy', hc'⟩ := hcall
      have hne : y ≠ x := by
        intro heq
        subst heq
        rw [hfree] at hy'
        cases hy'
      exact ⟨c', (Function.update_of_ne hne _ _).trans hy', hc'⟩
  | lock x c hcall hwaits hfree =>
    have hidle := h.idle hfree
    refine ⟨fun hpc => absurd hidle hpc, fun y c' hy hc' => ?_, fun y hy => ?_⟩
    · rcases update_cases hy with ⟨rfl, -⟩ | ⟨-, hold⟩
      · exact ⟨rfl, hidle⟩
      · have hmutex := (h.adding y c' hold hc').1
        rw [hfree] at hmutex
        cases hmutex
    · cases hy
      exact .inr ⟨{ c with locked := true }, Function.update_self x _ s.calls, rfl⟩
  | add x c t t' timers o hcall hlocked hadd =>
    obtain ⟨hmutex, hidle⟩ := h.adding x c hcall hlocked
    have hpc : timers.pc = .idle := (pc_of_add hadd).trans hidle
    refine ⟨fun hne => absurd hpc hne, fun y c' hy hc' => ?_, fun y hy => ?_⟩
    · -- a second thread in the middle of an addition would hold the mutex too
      rcases update_cases hy with ⟨-, hc⟩ | ⟨hne, hold⟩
      · cases hc
      · have hy' := (h.adding y c' hold hc').1
        rw [hmutex] at hy'
        exact absurd (Option.some.inj hy').symm hne
    · cases hy
  | pass l timers o hfree hpass hmutex hstep =>
    refine ⟨fun hpc => if_neg hpc, fun y c' hy hc' => ?_, fun y hy => ?_⟩
    · obtain ⟨hy', hidle⟩ := h.adding y c' hy hc'
      rw [hmutex (timerHandle_of_idle hstep hpass hidle)] at hy'
      cases hy'
    · by_cases hpc : timers.pc = .idle
      · rw [if_pos hpc] at hy
        cases hy
      · rw [if_neg hpc] at hy
        exact .inl ⟨(Option.some.inj hy).symm, hpc⟩

theorem held_of_run {ls : List (LockedStep τ)} {os : List TimerShown}
    (h : (lockedQueue τ).run (initial τ) ls = some (s, os)) : s.Held :=
  Machine.run_invariant (I := Held) (fun _ _ _ _ hI hs => hI.step hs) held_initial h

/-! ## 4. Nested calls -/

/-- No thread that is about to take the mutex holds it. -/
def NoRelock (s : LockedState τ) : Prop :=
  ∀ x c, s.calls x = some c → c.locked = false → s.mutex ≠ some x

/-- **No callback of a pass asks for a timer**: the loop's thread calls `runOnceAfter` and
    `runEveryInterval` only while no pass is running. -/
def NotNested (s : LockedState τ) (l : LockedStep τ) (_ : LockedState τ) (_ : TimerShown) : Prop :=
  ∀ kind interval, l = .run none kind interval → s.timers.pc = .idle

theorem noRelock_iff_of_step (hI : s.Held ∧ s.NoRelock)
    (hs : (lockedQueue τ).step s l = some (s', o)) : s'.NoRelock ↔ NotNested s l s' o := by
  obtain ⟨h, hfree⟩ := hI
  cases locks_of_step hs with
  | run x c hcalls hlocked hmay =>
    constructor
    · intro hno kind interval hl
      cases hl
      by_contra hpc
      exact hno none c (Function.update_self none (some c) s.calls) hlocked (h.pass hpc)
    · intro hok y c' hy hc' hmutex
      rcases update_cases hy with ⟨rfl, -⟩ | ⟨-, hold⟩
      · rcases h.holder y hmutex with ⟨rfl, hpc⟩ | ⟨c₁, hc₁, -⟩
        · exact hpc (hok c.kind c.interval rfl)
        · rw [hcalls] at hc₁
          cases hc₁
      · exact hfree y c' hold hc' hmutex
  | lock x c hcall hwaits hmutex =>
    refine ⟨fun _ kind interval hl => (by cases hl), fun _ y c' hy hc' hy' => ?_⟩
    cases hy'
    rcases update_cases hy with ⟨-, hc⟩ | ⟨hne, -⟩
    · cases hc
      cases hc'
    · exact hne rfl
  | add x c t t' timers o hcall hlocked hadd =>
    refine ⟨fun _ kind interval hl => (by cases hl), fun _ y c' hy hc' hy' => ?_⟩
    cases hy'
  | pass l timers o hcalls hpass hmutex hstep =>
    refine ⟨fun _ kind interval hl => (by cases hl), fun _ y c' hy hc' hy' => ?_⟩
    -- while the pass goes on, the loop's thread is in no call
    split at hy'
    · cases hy'
    · cases hy'
      rw [hcalls] at hy
      cases hy

/-- A nested call does not get the mutex, and holds up the pass that has it: nothing in the queue
    changes any more. -/
theorem Held.stuck (h : s.Held) {c : TimerCall} (hpc : s.timers.pc ≠ .idle)
    (hcall : s.calls none = some c) {ls : List (LockedStep τ)} {t : LockedState τ}
    {os : List TimerShown} (hrun : (lockedQueue τ).run s ls = some (t, os)) :
    t.calls none = some c ∧ t.timers = s.timers := by
  suffices hI : t.Held ∧ t.calls none = some c ∧ t.timers = s.timers from hI.2
  refine Machine.run_invariant
    (I := fun u => u.Held ∧ u.calls none = some c ∧ u.timers = s.timers)
    (fun u l u' o hu hs => ?_) ⟨h, hcall, rfl⟩ hrun
  obtain ⟨hheld, hcalls, htimers⟩ := hu
  have hbusy : u.timers.pc ≠ .idle := by rw [htimers]; exact hpc
  refine ⟨hheld.step hs, ?_⟩
  cases locks_of_step hs with
  | run x c' hfree hlocked hmay =>
    have hne : none ≠ x := by
      intro heq
      subst heq
      rw [hcalls] at hfree
      cases hfree
    exact ⟨(Function.update_of_ne hne _ _).trans hcalls, htimers⟩
  | lock x c' hcall' hwaits hfree => exact absurd (hheld.idle hfree) hbusy
  | add x c' t t' timers o hcall' hlocked hadd =>
    exact absurd (hheld.adding x c' hcall' hlocked).2 hbusy
  | pass l timers o hfree hpass hmutex hstep =>
    rw [hcalls] at hfree
    cases hfree

/-- **The mutex of a queue, and its callbacks.** In every run, no thread tries to take the mutex it
    holds exactly when no callback of a pass calls `runOnceAfter` or `runEveryInterval`. A callback
    that does never comes back: whatever the other threads do, its call goes on waiting, its timer
    is not added, and no other timer is added or run. -/
theorem relock_iff_nested (ls : List (LockedStep τ)) :
    ((lockedQueue τ).Along (fun _ _ s' _ => s'.NoRelock) (initial τ) ls ↔
      (lockedQueue τ).Along NotNested (initial τ) ls) ∧
    ∀ s os, (lockedQueue τ).run (initial τ) ls = some (s, os) → s.timers.pc ≠ .idle →
      ∀ c, s.calls none = some c → ∀ ls' t os', (lockedQueue τ).run s ls' = some (t, os') →
        t.calls none = some c ∧ t.timers = s.timers := by
  constructor
  · refine Machine.along_iff (I := fun s => s.Held ∧ s.NoRelock) (fun s l s' o hI hs => ?_)
      ⟨held_initial, fun x c h => (by simp only [initial] at h; cases h)⟩
    have hiff := noRelock_iff_of_step hI hs
    exact ⟨hiff, fun hok => ⟨hI.1.step hs, hiff.mpr hok⟩⟩
  · intro s os hrun hpc c hcall ls' t os' hrun'
    exact (held_of_run hrun).stuck hpc hcall hrun'

/-- A once timer due at once. Its callback asks for another one, and waits for the mutex that the
    pass around it has taken. -/
theorem nested_call_waits_for_itself :
    ¬ ∀ (ls : List (LockedStep Nat)), (lockedQueue Nat).Along (fun _ _ s' _ => s'.NoRelock)
      (initial Nat) ls := by
  intro h
  have hA := h [.run none .once 0, .lock none, .add none 0 0, .pass .timerHandle,
    .pass (.check 0), .run none .once 5]
  iterate 5 replace hA := (hA _ _ rfl).2
  exact (hA _ _ rfl).1 none ⟨.once, 5, false⟩ rfl rfl rfl

end LockedState

end PluginsEngine
