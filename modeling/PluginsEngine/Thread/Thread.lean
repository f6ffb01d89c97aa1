/-
  File:      PluginsEngine/Thread/Thread.lean
  Subject:   HOW A THREAD IS STARTED (Thread::Thread, start, beginRun).

  The constructor starts a thread that waits in `beginRun` until `start` was called, and then calls
  `run` with the mutex in its hands. `start` may be called any number of times, from anywhere, and a
  wait may come back without a notification.

  * `threadStart` -- the thread and the calls of `start`, in any interleaving;
  * `Sound`, `Sound.step` -- who holds the mutex, and that a thread that waits though `started` is
    set is still to be notified;
  * `left`, `left_step` -- the steps that either side can still take;
  * `Sound.settled` -- where neither side can go on;
  * `start_starts_the_thread` -- over every run: `run` is called once at most and only if `started`
    is set, no wake-up is lost, and a call of `start` that comes after `run` has begun waits for its
    end.
-/
import Mathlib.Algebra.BigOperators.Group.List.Basic
import PluginsEngine.Library.Runs

namespace PluginsEngine

open Library

/-! ## 1. The thread and the calls of `start` -/

/-- Where the thread is in `beginRun`: at its lock, at `while (!started)`, in the wait, woken and
    without the mutex, in `run`, and behind it. -/
inductive BeginPc where
  | lock
  | condition
  | waiting
  | reacquire
  | inRun
  | returned
  deriving DecidableEq

/-- Where a call of `start` is: at its lock, at `started = true`, at `notify_one`, at its end, and
    behind it. -/
inductive StartPc where
  | lock
  | assign
  | notify
  | unlock
  | returned
  deriving DecidableEq

/-- Who holds the mutex of a `Thread`. -/
inductive ThreadHolder where
  | thread
  | call (i : Nat)
  deriving DecidableEq

structure ThreadState where
  started : Bool
  mutex : Option ThreadHolder
  pc : BeginPc
  calls : List StartPc
  deriving DecidableEq

/-- What is seen of a step: that `run` begins, or that a call of `start` returns. -/
inductive ThreadShown where
  | run
  | startReturns (i : Nat)
  deriving DecidableEq

namespace ThreadState

/-- As the constructor leaves it. -/
def initial : ThreadState := ⟨false, none, .lock, []⟩

variable (s : ThreadState)

/-- The next step of the thread. -/
def threadStep : Option (ThreadState × Option ThreadShown) :=
  match s.pc with
  | .lock | .reacquire =>
    if s.mutex = none then some ({ s with mutex := some .thread, pc := .condition }, none) else none
  | .condition =>
    if s.started then some ({ s with pc := .inRun }, some .run)
    else some ({ s with mutex := none, pc := .waiting }, none)
  | .waiting | .inRun | .returned => none

def setCall (i : Nat) (pc : StartPc) : ThreadState := { s with calls := s.calls.set i pc }

def notifyOne : ThreadState := if s.pc = .waiting then { s with pc := .reacquire } else s

/-- The next step of a call of `start`. -/
def callStep (i : Nat) : Option (ThreadState × Option ThreadShown) :=
  match s.calls[i]? with
  | some .lock =>
    if s.mutex = none then some ({ s.setCall i .assign with mutex := some (.call i) }, none)
    else none
  | some .assign => some ({ s.setCall i .notify with started := true }, none)
  | some .notify => some (s.notifyOne.setCall i .unlock, none)
  | some .unlock => some ({ s.setCall i .returned with mutex := none }, some (.startReturns i))
  | some .returned | none => none

end ThreadState

inductive ThreadLabel where
  | thread
  | spuriousWake
  | runReturns
  /-- `start` is called. -/
  | start
  | call (i : Nat)
  deriving DecidableEq

/-- **A thread and the calls of its `start`.** -/
def threadStart : Machine ThreadState ThreadLabel (Option ThreadShown) where
  step s
    | .thread => s.threadStep
    | .spuriousWake => if s.pc = .waiting then some ({ s with pc := .reacquire }, none) else none
    | .runReturns =>
      if s.pc = .inRun then some ({ s with mutex := none, pc := .returned }, none) else none
    | .start => some ({ s with calls := s.calls ++ [.lock] }, none)
    | .call i => s.callStep i

/-! ## 2. One step of either side -/

namespace ThreadState

variable {s s' : ThreadState}

theorem notifyOne_calls : s.notifyOne.calls = s.calls := by
  unfold ThreadState.notifyOne
  split <;> rfl

/-- **A step of a call**: it goes one further, returns with its last step, and does nothing to the
    thread but wake it. -/
theorem callStep_cases {i : Nat} {o : Option ThreadShown} (hs : s.callStep i = some (s', o)) :
    (s'.pc = s.pc ∨ s.pc = .waiting ∧ s'.pc = .reacquire) ∧
      ∃ c₀ c, s.calls[i]? = some c₀ ∧ c₀ ≠ .returned ∧ s'.calls = s.calls.set i c ∧
        (o = none ∧ c ≠ .returned ∨ o = some (.startReturns i) ∧ c₀ = .unlock ∧ c = .returned) := by
  unfold ThreadState.callStep at hs
  cases hi : s.calls[i]? with
  | none =>
    simp only [hi] at hs
    cases hs
  | some c =>
    cases c with
    | lock =>
      simp only [hi] at hs
      split at hs
      · cases hs
        exact ⟨Or.inl rfl, _, _, rfl, nofun, rfl, Or.inl ⟨rfl, nofun⟩⟩
      · cases hs
    | assign =>
      simp only [hi] at hs
      cases hs
      exact ⟨Or.inl rfl, _, _, rfl, nofun, rfl, Or.inl ⟨rfl, nofun⟩⟩
    | notify =>
      simp only [hi] at hs
      cases hs
      refine ⟨?_, .notify, .unlock, rfl, nofun, congrArg (·.set i .unlock) notifyOne_calls,
        Or.inl ⟨rfl, nofun⟩⟩
      show s.notifyOne.pc = s.pc ∨ s.pc = .waiting ∧ s.notifyOne.pc = .reacquire
      unfold ThreadState.notifyOne
      split
      · rename_i hp
        exact Or.inr ⟨hp, rfl⟩
      · exact Or.inl rfl
    | unlock =>
      simp only [hi] at hs
      cases hs
      exact ⟨Or.inl rfl, _, _, rfl, nofun, rfl, Or.inr ⟨rfl, rfl, rfl⟩⟩
    | returned =>
      simp only [hi] at hs
      cases hs

/-- **A step of the thread**: from `lock` or `reacquire` to the condition, and from there into
    `run` or into the wait. -/
theorem threadStep_cases {o : Option ThreadShown} (hs : s.threadStep = some (s', o)) :
    s'.calls = s.calls ∧ ((s.pc = .lock ∨ s.pc = .reacquire) ∧ s'.pc = .condition ∧ o = none ∨
      s.pc = .condition ∧ (s'.pc = .inRun ∧ o = some .run ∨ s'.pc = .waiting ∧ o = none)) := by
  unfold ThreadState.threadStep at hs
  cases hp : s.pc with
  | lock | reacquire =>
    simp only [hp] at hs
    split at hs
    · cases hs
      exact ⟨rfl, Or.inl ⟨by simp, rfl, rfl⟩⟩
    · cases hs
  | condition =>
    simp only [hp] at hs
    split at hs
    · cases hs
      exact ⟨rfl, Or.inr ⟨rfl, Or.inl ⟨rfl, rfl⟩⟩⟩
    · cases hs
      exact ⟨rfl, Or.inr ⟨rfl, Or.inr ⟨rfl, rfl⟩⟩⟩
  | waiting | inRun | returned =>
    simp only [hp] at hs
    cases hs

/-- **The calls after a step**: as they were, or one more, or one of them one further. -/
theorem calls_step {l : ThreadLabel} {o : Option ThreadShown}
    (hs : threadStart.step s l = some (s', o)) :
    s'.calls = s.calls ∧ (∀ i, o ≠ some (.startReturns i)) ∨
      l = .start ∧ s'.calls = s.calls ++ [.lock] ∧ o = none ∨
      ∃ i c₀ c, l = .call i ∧ s.calls[i]? = some c₀ ∧ c₀ ≠ .returned ∧ s'.calls = s.calls.set i c ∧
        (o = none ∧ c ≠ .returned ∨ o = some (.startReturns i) ∧ c₀ = .unlock ∧ c = .returned) := by
  cases l with
  | call i =>
    obtain ⟨-, c₀, c, hcall⟩ := callStep_cases hs
    exact Or.inr (Or.inr ⟨i, c₀, c, rfl, hcall⟩)
  | start =>
    cases hs
    exact Or.inr (Or.inl ⟨rfl, rfl, rfl⟩)
  | thread =>
    obtain ⟨hcalls, hpc⟩ := threadStep_cases hs
    refine Or.inl ⟨hcalls, fun i => ?_⟩
    rcases hpc with ⟨-, -, rfl⟩ | ⟨-, ⟨-, rfl⟩ | ⟨-, rfl⟩⟩ <;> exact nofun
  | spuriousWake | runReturns =>
    simp only [threadStart] at hs
    split at hs
    · cases hs
      exact Or.inl ⟨rfl, nofun⟩
    · cases hs

/-- Only the end of `run` is the end of `beginRun`. -/
theorem returned_step {l : ThreadLabel} {o : Option ThreadShown}
    (hs : threadStart.step s l = some (s', o)) (hp : s'.pc = .returned) :
    s.pc = .returned ∨ l = .runReturns := by
  cases l with
  | call i =>
    rcases (callStep_cases hs).1 with hpc | ⟨-, hpc⟩
    · exact Or.inl (hpc.symm.trans hp)
    · cases hpc.symm.trans hp
  | start =>
    cases hs
    exact Or.inl hp
  | thread =>
    rcases (threadStep_cases hs).2 with ⟨-, hpc, -⟩ | ⟨-, ⟨hpc, -⟩ | ⟨hpc, -⟩⟩ <;>
      cases hpc.symm.trans hp
  | spuriousWake =>
    simp only [threadStart] at hs
    split at hs
    · cases hs
      cases hp
    · cases hs
  | runReturns => exact Or.inr rfl

end ThreadState

/-! ## 3. The mutex and the wake-up -/

/-- The thread holds the mutex. -/
def BeginPc.inside : BeginPc → Bool
  | .condition | .inRun => true
  | .lock | .waiting | .reacquire | .returned => false

/-- The call does. -/
def StartPc.inside : StartPc → Bool
  | .assign | .notify | .unlock => true
  | .lock | .returned => false

/-- The call is behind `started = true`. -/
def StartPc.assigned : StartPc → Bool
  | .notify | .unlock | .returned => true
  | .lock | .assign => false

/-- `run` has begun. -/
def BeginPc.begun : BeginPc → Bool
  | .inRun | .returned => true
  | .lock | .condition | .waiting | .reacquire => false

namespace ThreadState

structure Sound (s : ThreadState) : Prop where
  threadHolds : s.mutex = some .thread ↔ s.pc.inside = true
  callHolds : ∀ i, s.mutex = some (.call i) ↔ ∃ c, s.calls[i]? = some c ∧ c.inside = true
  flag : s.started = true ↔ ∃ c ∈ s.calls, c.assigned = true
  entered : s.pc = .inRun ∨ s.pc = .returned → s.started = true
  /-- No wake-up is lost. -/
  waiting : s.pc = .waiting → s.started = true → .notify ∈ s.calls

theorem sound_initial : initial.Sound where
  threadHolds := ⟨nofun, nofun⟩
  callHolds _ := ⟨nofun, fun h => h.elim fun _ hc => nomatch hc.1⟩
  flag := ⟨nofun, fun h => h.elim fun _ hc => nomatch hc.1⟩
  entered h := h.elim nofun nofun
  waiting := nofun

variable {s s' : ThreadState}

/-- The thread goes on, and takes or gives the mutex with it. -/
theorem Sound.threadMoves (h : s.Sound) {p : BeginPc} {m : Option ThreadHolder}
    (hold : ∀ i, s.mutex ≠ some (.call i))
    (hm : m = some .thread ∧ p.inside = true ∨ m = none ∧ p.inside = false)
    (hentered : p = .inRun ∨ p = .returned → s.started = true)
    (hwait : p = .waiting → s.started = false) :
    ({ s with mutex := m, pc := p } : ThreadState).Sound where
  threadHolds := by
    rcases hm with ⟨rfl, hp⟩ | ⟨rfl, hp⟩
    · exact ⟨fun _ => hp, fun _ => rfl⟩
    · refine ⟨nofun, fun hx => ?_⟩
      rw [show p.inside = false from hp] at hx
      cases hx
  callHolds i := by
    refine ⟨fun hx => ?_, fun hx => absurd ((h.callHolds i).mpr hx) (hold i)⟩
    rcases hm with ⟨rfl, -⟩ | ⟨rfl, -⟩ <;> cases hx
  flag := h.flag
  entered := hentered
  waiting hp hs := by
    rw [show s.started = false from hwait hp] at hs
    cases hs

/-- A wait that ends, for whatever reason. -/
theorem Sound.wakes (h : s.Sound) (hp : s.pc = .waiting) :
    ({ s with pc := .reacquire } : ThreadState).Sound where
  threadHolds := by
    rw [h.threadHolds, hp]
    exact Iff.rfl
  callHolds := h.callHolds
  flag := h.flag
  entered hx := hx.elim nofun nofun
  waiting := nofun

theorem Sound.notifyOne (h : s.Sound) : s.notifyOne.Sound := by
  unfold ThreadState.notifyOne
  split
  · rename_i hp
    exact h.wakes hp
  · exact h

theorem notifyOne_pc : s.notifyOne.pc ≠ .waiting := by
  unfold ThreadState.notifyOne
  split
  · exact nofun
  · assumption

/-- The other calls stay where they are. -/
theorem mem_setCall {i : Nat} {c₀ c c' : StartPc} (hi : s.calls[i]? = some c₀)
    (hc' : c' ∈ s.calls) (hne : c' ≠ c₀) : c' ∈ s.calls.set i c := by
  obtain ⟨j, hj⟩ := List.getElem?_of_mem hc'
  have hij : i ≠ j := by
    rintro rfl
    rw [hi] at hj
    exact hne (Option.some.inj hj).symm
  exact List.mem_of_getElem? ((List.getElem?_set_ne hij).trans hj)

/-- Where no thread has the mutex but possibly a call, the thread is not inside. -/
theorem Sound.outside (h : s.Sound) {i : Nat}
    (hold : s.mutex = none ∨ s.mutex = some (.call i)) : s.pc.inside = false := by
  refine (Bool.not_eq_true _).mp fun hx => ?_
  rw [h.threadHolds.mpr hx] at hold
  rcases hold with hx | hx <;> cases hx

/-- Which call has the mutex, when call `i` has taken or given it. -/
theorem Sound.callHolds_setCall (h : s.Sound) {i : Nat} {c : StartPc} {m : Option ThreadHolder}
    (hlt : i < s.calls.length) (hold : s.mutex = none ∨ s.mutex = some (.call i))
    (hm : m = some (.call i) ∧ c.inside = true ∨ m = none ∧ c.inside = false) (j : Nat) :
    m = some (.call j) ↔ ∃ c', (s.calls.set i c)[j]? = some c' ∧ c'.inside = true := by
  by_cases hij : i = j
  · subst hij
    rw [List.getElem?_set_self hlt]
    rcases hm with ⟨rfl, hc⟩ | ⟨rfl, hc⟩
    · exact ⟨fun _ => ⟨c, rfl, hc⟩, fun _ => rfl⟩
    · refine ⟨nofun, fun ⟨c', hc', hin⟩ => ?_⟩
      cases hc'
      rw [hc] at hin
      cases hin
  · rw [List.getElem?_set_ne hij, ← h.callHolds j]
    constructor
    · intro hx
      rcases hm with ⟨rfl, -⟩ | ⟨rfl, -⟩
      · cases hx
        exact absurd rfl hij
      · cases hx
    · intro hx
      rw [hx] at hold
      rcases hold with hy | hy
      · cases hy
      · cases hy
        exact absurd rfl hij

/-- A call of `start` goes on, and takes or gives the mutex, or sets the flag. -/
theorem Sound.callMoves (h : s.Sound) {i : Nat} {c₀ c : StartPc} {m : Option ThreadHolder}
    {b : Bool} (hi : s.calls[i]? = some c₀)
    (hold : s.mutex = none ∨ s.mutex = some (.call i))
    (hm : m = some (.call i) ∧ c.inside = true ∨ m = none ∧ c.inside = false)
    (hmono : c₀.assigned = true → c.assigned = true)
    (hb : b = true ↔ s.started = true ∨ c.assigned = true)
    (hwait : s.pc = .waiting → b = true → c = .notify ∨ c₀ ≠ .notify ∧ s.started = true) :
    ({ s.setCall i c with mutex := m, started := b } : ThreadState).Sound := by
  have hlt : i < s.calls.length := (List.getElem?_eq_some_iff.mp hi).1
  have hmem : c ∈ s.calls.set i c := List.mem_of_getElem? (List.getElem?_set_self hlt)
  constructor
  case threadHolds =>
    show m = some .thread ↔ s.pc.inside = true
    rw [h.outside hold]
    refine ⟨fun hx => ?_, nofun⟩
    rcases hm with ⟨rfl, -⟩ | ⟨rfl, -⟩ <;> cases hx
  case callHolds => exact h.callHolds_setCall hlt hold hm
  case flag =>
    show b = true ↔ ∃ c' ∈ s.calls.set i c, c'.assigned = true
    rw [hb, h.flag]
    constructor
    · rintro (⟨c', hc', ha⟩ | ha)
      · by_cases hne : c' = c₀
        · exact ⟨c, hmem, hmono (hne ▸ ha)⟩
        · exact ⟨c', mem_setCall hi hc' hne, ha⟩
      · exact ⟨c, hmem, ha⟩
    · rintro ⟨c', hc', ha⟩
      rcases List.mem_or_eq_of_mem_set hc' with hc' | rfl
      · exact Or.inl ⟨c', hc', ha⟩
      · exact Or.inr ha
  case entered => exact fun hx => hb.mpr (Or.inl (h.entered hx))
  case waiting =>
    intro hp hs
    rcases hwait hp hs with rfl | ⟨hne, hstarted⟩
    · exact hmem
    · exact mem_setCall hi (h.waiting hp hstarted) (Ne.symm hne)

theorem Sound.threadStep (h : s.Sound) {o : Option ThreadShown}
    (hs : s.threadStep = some (s', o)) : s'.Sound := by
  unfold ThreadState.threadStep at hs
  cases hp : s.pc with
  | lock | reacquire =>
    simp only [hp] at hs
    split at hs
    · rename_i hfree
      cases hs
      exact h.threadMoves (fun i hx => by rw [hfree] at hx; cases hx) (Or.inl ⟨rfl, rfl⟩)
        (fun hx => hx.elim nofun nofun) nofun
    · cases hs
  | condition =>
    have hheld : s.mutex = some .thread := h.threadHolds.mpr (by rw [hp]; rfl)
    have hold : ∀ i, s.mutex ≠ some (.call i) := fun i hx => by
      rw [hheld] at hx
      cases hx
    simp only [hp] at hs
    split at hs
    · rename_i hstarted
      cases hs
      have hmoved := h.threadMoves (p := .inRun) hold (Or.inl ⟨hheld, rfl⟩) (fun _ => hstarted)
        nofun
      exact hmoved
    · rename_i hnot
      cases hs
      exact h.threadMoves hold (Or.inr ⟨rfl, rfl⟩) (fun hx => hx.elim nofun nofun)
        fun _ => (Bool.not_eq_true _).mp hnot
  | waiting | inRun | returned =>
    simp only [hp] at hs
    cases hs

theorem Sound.callStep (h : s.Sound) {i : Nat} {o : Option ThreadShown}
    (hs : s.callStep i = some (s', o)) : s'.Sound := by
  unfold ThreadState.callStep at hs
  cases hi : s.calls[i]? with
  | none =>
    simp only [hi] at hs
    cases hs
  | some c =>
    have hheld : c.inside = true → s.mutex = some (.call i) := fun hin =>
      (h.callHolds i).mpr ⟨c, hi, hin⟩
    have hassigned : c.assigned = true → s.started = true := fun ha =>
      h.flag.mpr ⟨c, List.mem_of_getElem? hi, ha⟩
    cases c with
    | lock =>
      simp only [hi] at hs
      split at hs
      · rename_i hfree
        cases hs
        exact h.callMoves hi (Or.inl hfree) (Or.inl ⟨rfl, rfl⟩) nofun
          ⟨Or.inl, fun hx => hx.elim id nofun⟩ fun _ hb => Or.inr ⟨nofun, hb⟩
      · cases hs
    | assign =>
      simp only [hi] at hs
      cases hs
      exact h.callMoves hi (Or.inr (hheld rfl)) (Or.inl ⟨hheld rfl, rfl⟩) (fun _ => rfl)
        ⟨fun _ => Or.inr rfl, fun _ => rfl⟩ fun _ _ => Or.inl rfl
    | notify =>
      simp only [hi] at hs
      cases hs
      -- what `notify_one` leaves of the state is sound, and its thread does not wait
      have hn := h.notifyOne
      have hcalls : s.notifyOne.calls = s.calls ∧ s.notifyOne.mutex = s.mutex ∧
          s.notifyOne.started = s.started := by
        unfold ThreadState.notifyOne
        split <;> exact ⟨rfl, rfl, rfl⟩
      have hmutex : s.notifyOne.mutex = some (.call i) := hcalls.2.1.trans (hheld rfl)
      exact hn.callMoves (by rw [hcalls.1]; exact hi) (Or.inr hmutex) (Or.inl ⟨hmutex, rfl⟩)
        (fun _ => rfl) ⟨Or.inl, fun _ => hcalls.2.2.trans (hassigned rfl)⟩
        fun hp => absurd hp notifyOne_pc
    | unlock =>
      simp only [hi] at hs
      cases hs
      exact h.callMoves hi (Or.inr (hheld rfl)) (Or.inr ⟨rfl, rfl⟩) (fun _ => rfl)
        ⟨Or.inl, fun _ => hassigned rfl⟩ fun _ hb => Or.inr ⟨nofun, hb⟩
    | returned =>
      simp only [hi] at hs
      cases hs

/-- A new call does not take part yet. -/
theorem Sound.start (h : s.Sound) :
    ({ s with calls := s.calls ++ [.lock] } : ThreadState).Sound where
  threadHolds := h.threadHolds
  callHolds i := by
    show s.mutex = some (.call i) ↔ ∃ c, (s.calls ++ [.lock])[i]? = some c ∧ c.inside = true
    rw [h.callHolds i]
    constructor
    · rintro ⟨c, hc, hin⟩
      exact ⟨c, by rw [List.getElem?_append_left (List.getElem?_eq_some_iff.mp hc).1, hc], hin⟩
    · rintro ⟨c, hc, hin⟩
      by_cases hlt : i < s.calls.length
      · rw [List.getElem?_append_left hlt] at hc
        exact ⟨c, hc, hin⟩
      · rw [List.getElem?_append_right (Nat.not_lt.mp hlt)] at hc
        have hlock : c = .lock := List.mem_singleton.mp (List.mem_of_getElem? hc)
        rw [hlock] at hin
        cases hin
  flag := by
    show s.started = true ↔ ∃ c ∈ s.calls ++ [.lock], c.assigned = true
    rw [h.flag]
    constructor
    · rintro ⟨c, hc, ha⟩
      exact ⟨c, List.mem_append_left _ hc, ha⟩
    · rintro ⟨c, hc, ha⟩
      rcases List.mem_append.mp hc with hc | hc
      · exact ⟨c, hc, ha⟩
      · rw [List.mem_singleton.mp hc] at ha
        cases ha
  entered := h.entered
  waiting hp hs := List.mem_append_left _ (h.waiting hp hs)

theorem Sound.step (h : s.Sound) {l : ThreadLabel} {o : Option ThreadShown}
    (hs : threadStart.step s l = some (s', o)) : s'.Sound := by
  cases l with
  | thread => exact h.threadStep hs
  | call i => exact h.callStep hs
  | start =>
    cases hs
    exact h.start
  | spuriousWake =>
    simp only [threadStart] at hs
    split at hs
    · rename_i hp
      cases hs
      exact h.wakes hp
    · cases hs
  | runReturns =>
    simp only [threadStart] at hs
    split at hs
    · rename_i hp
      cases hs
      have hheld : s.mutex = some .thread := h.threadHolds.mpr (by rw [hp]; rfl)
      exact h.threadMoves (fun i hx => by rw [hheld] at hx; cases hx) (Or.inr ⟨rfl, rfl⟩)
        (fun _ => h.entered (Or.inl hp)) nofun
    · cases hs

end ThreadState

/-! ## 4. What is left to do -/

/-- The steps of the thread that are still to come, unless it waits again. -/
def BeginPc.left : BeginPc → Nat
  | .lock | .reacquire => 2
  | .condition => 1
  | .waiting | .inRun | .returned => 0

/-- The steps of a call that are, and two of the thread that it wakes. -/
def StartPc.left : StartPc → Nat
  | .lock => 6
  | .assign => 5
  | .notify => 4
  | .unlock => 1
  | .returned => 0

/-- The steps that `beginRun` and the calls of `start` take by themselves. -/
def ThreadLabel.cost : ThreadLabel → Nat
  | .thread | .call _ => 1
  | .spuriousWake | .runReturns | .start => 0

/-- What a new call, or a wait that comes back by itself, adds to them. -/
def ThreadLabel.credit : ThreadLabel → Nat
  | .start => 6
  | .spuriousWake => 2
  | .thread | .runReturns | .call _ => 0

/-- A sum after one of its terms has changed. -/
theorem sum_map_set {α : Type} (f : α → Nat) {as : List α} {i : Nat} {a b : α}
    (h : as[i]? = some a) : ((as.set i b).map f).sum + f a = (as.map f).sum + f b := by
  obtain ⟨hlt, hget⟩ := List.getElem?_eq_some_iff.mp h
  have hsame : (as.map f).set i (f a) = as.map f := by
    rw [← List.map_set, ← hget, List.set_getElem_self]
  have hlength : i < (as.map f).length := (List.length_map f).symm ▸ hlt
  have hnew := List.sum_set (as.map f) i (f b)
  have hold := List.sum_set (as.map f) i (f a)
  rw [if_pos hlength] at hnew hold
  rw [hsame] at hold
  rw [List.map_set]
  omega

namespace ThreadState

variable {s s' : ThreadState}

/-- At most so many steps are left. -/
def left (s : ThreadState) : Nat := s.pc.left + (s.calls.map StartPc.left).sum

theorem left_notifyOne : s.notifyOne.pc.left ≤ s.pc.left + 2 := by
  unfold ThreadState.notifyOne
  split
  · exact Nat.le_add_left _ _
  · exact Nat.le_add_right _ _

/-- A step of a call. -/
theorem left_callStep {i : Nat} {o : Option ThreadShown} (hs : s.callStep i = some (s', o)) :
    s'.left + 1 ≤ s.left := by
  have hsum : ∀ {c : StartPc} (c' : StartPc), s.calls[i]? = some c →
      ((s.calls.set i c').map StartPc.left).sum + c.left =
        (s.calls.map StartPc.left).sum + c'.left := fun _ hi => sum_map_set StartPc.left hi
  unfold ThreadState.callStep at hs
  cases hi : s.calls[i]? with
  | none =>
    simp only [hi] at hs
    cases hs
  | some c =>
    cases c with
    | lock =>
      have h := hsum .assign hi
      simp only [hi] at hs
      split at hs
      · cases hs
        simp only [left, setCall, StartPc.left] at h ⊢
        omega
      · cases hs
    | assign =>
      have h := hsum .notify hi
      simp only [hi] at hs
      cases hs
      simp only [left, setCall, StartPc.left] at h ⊢
      omega
    | notify =>
      have h := hsum .unlock hi
      have hn := left_notifyOne (s := s)
      simp only [hi] at hs
      cases hs
      simp only [left, setCall, StartPc.left, notifyOne_calls] at h ⊢
      omega
    | unlock =>
      have h := hsum .returned hi
      simp only [hi] at hs
      cases hs
      simp only [left, setCall, StartPc.left] at h ⊢
      omega
    | returned =>
      simp only [hi] at hs
      cases hs

theorem left_step {l : ThreadLabel} {o : Option ThreadShown}
    (hs : threadStart.step s l = some (s', o)) : s'.left + l.cost ≤ s.left + l.credit := by
  cases l with
  | call i => exact left_callStep hs
  | start =>
    cases hs
    simp only [left, List.map_append, List.sum_append, List.map_cons, List.map_nil, List.sum_cons,
      List.sum_nil, StartPc.left, ThreadLabel.cost, ThreadLabel.credit]
    omega
  | spuriousWake =>
    simp only [threadStart] at hs
    split at hs
    · rename_i hp
      cases hs
      simp only [left, hp, BeginPc.left, ThreadLabel.cost, ThreadLabel.credit]
      omega
    · cases hs
  | runReturns =>
    simp only [threadStart] at hs
    split at hs
    · rename_i hp
      cases hs
      simp only [left, hp, BeginPc.left, ThreadLabel.cost, ThreadLabel.credit]
      omega
    · cases hs
  | thread =>
    obtain ⟨hcalls, hpc⟩ := threadStep_cases hs
    rcases hpc with ⟨hp | hp, hpc, -⟩ | ⟨hp, ⟨hpc, -⟩ | ⟨hpc, -⟩⟩ <;>
    · simp only [left, hcalls, hp, hpc, BeginPc.left, ThreadLabel.cost, ThreadLabel.credit]
      omega

/-! ## 5. `start` starts the thread -/

/-- Neither side can go on by itself. -/
def Halted (s : ThreadState) : Prop := ∀ l, l.cost = 1 → threadStart.step s l = none

/-- The thread waits because nobody has called `start`, or has come to `run`; and a call that has
    not returned waits for the end of `run`. -/
structure Settled (s : ThreadState) : Prop where
  thread : s.pc = .waiting ∧ s.calls = [] ∨
    (s.pc = .inRun ∨ s.pc = .returned) ∧ .returned ∈ s.calls
  calls : ∀ c ∈ s.calls, c = .returned ∨ c = .lock ∧ s.pc = .inRun

/-- A call that does not hold the mutex and cannot go on. -/
theorem Halted.call (h : s.Halted) {c : StartPc} (hc : c ∈ s.calls) :
    c = .returned ∨ c = .lock ∧ s.mutex ≠ none := by
  obtain ⟨i, hi⟩ := List.getElem?_of_mem hc
  have hnone : s.callStep i = none := h (.call i) rfl
  unfold ThreadState.callStep at hnone
  cases c with
  | lock =>
    simp only [hi] at hnone
    split at hnone
    · cases hnone
    · rename_i hmutex
      exact Or.inr ⟨rfl, hmutex⟩
  | assign | notify | unlock =>
    simp only [hi] at hnone
    cases hnone
  | returned => exact Or.inl rfl

/-- **Where neither side can go on**, nobody waits for a wake-up that is lost. -/
theorem Sound.settled (h : s.Sound) (hhalted : s.Halted) : s.Settled := by
  have hnone : s.threadStep = none := hhalted .thread rfl
  -- no call is in its critical section, so the mutex is with the thread or free
  have hmutex : s.mutex = none ∨ s.mutex = some .thread := by
    cases hm : s.mutex with
    | none => exact Or.inl rfl
    | some x =>
      cases x with
      | thread => exact Or.inr rfl
      | call i =>
        obtain ⟨c, hc, hin⟩ := (h.callHolds i).mp hm
        rcases hhalted.call (List.mem_of_getElem? hc) with rfl | ⟨rfl, -⟩ <;> cases hin
  have hreturned : s.started = true → .returned ∈ s.calls := by
    intro hstarted
    obtain ⟨c, hc, ha⟩ := h.flag.mp hstarted
    rcases hhalted.call hc with rfl | ⟨rfl, -⟩
    · exact hc
    · cases ha
  have hfree : s.pc.inside = false → s.mutex = none := by
    intro hout
    refine hmutex.elim id fun hm => ?_
    rw [h.threadHolds.mp hm] at hout
    cases hout
  have hall : s.pc.inside = false → ∀ c ∈ s.calls, c = .returned := fun hout c hc =>
    (hhalted.call hc).elim id fun hx => absurd (hfree hout) hx.2
  unfold ThreadState.threadStep at hnone
  cases hp : s.pc with
  | lock | reacquire =>
    simp only [hp, hfree (by rw [hp]; rfl), if_true] at hnone
    cases hnone
  | condition =>
    simp only [hp] at hnone
    split at hnone <;> cases hnone
  | waiting =>
    have hback := hall (by rw [hp]; rfl)
    refine ⟨Or.inl ⟨hp, List.eq_nil_iff_forall_not_mem.mpr fun c hc => ?_⟩,
      fun c hc => Or.inl (hback c hc)⟩
    -- a call has set the flag, and one of them is still to notify the thread
    have hstarted : s.started = true := h.flag.mpr ⟨c, hc, by rw [hback c hc]; rfl⟩
    cases hback _ (h.waiting hp hstarted)
  | inRun =>
    refine ⟨Or.inr ⟨Or.inl hp, hreturned (h.entered (Or.inl hp))⟩, fun c hc => ?_⟩
    exact (hhalted.call hc).imp_right fun hx => ⟨hx.1, hp⟩
  | returned =>
    exact ⟨Or.inr ⟨Or.inr hp, hreturned (h.entered (Or.inr hp))⟩,
      fun c hc => Or.inl (hall (by rw [hp]; rfl) c hc)⟩

/-- `run` begins once. -/
theorem begun_step {l : ThreadLabel} {o : Option ThreadShown}
    (hs : threadStart.step s l = some (s', o)) :
    s'.pc.begun.toNat = s.pc.begun.toNat + [o].count (some .run) := by
  cases l with
  | call i =>
    obtain ⟨hpc, c₀, c, -, -, -, ho⟩ := callStep_cases hs
    have hsame : s'.pc.begun = s.pc.begun := by
      rcases hpc with hpc | ⟨hp, hpc⟩
      · rw [hpc]
      · rw [hp, hpc]
        rfl
    rw [hsame]
    rcases ho with ⟨rfl, -⟩ | ⟨rfl, -⟩ <;> rfl
  | start =>
    cases hs
    rfl
  | spuriousWake | runReturns =>
    simp only [threadStart] at hs
    split at hs
    · rename_i hp
      cases hs
      rw [hp]
      rfl
    · cases hs
  | thread =>
    rcases (threadStep_cases hs).2 with ⟨hp | hp, hpc, rfl⟩ | ⟨hp, ⟨hpc, rfl⟩ | ⟨hpc, rfl⟩⟩ <;>
    · rw [hp, hpc]
      rfl

/-- The thread holds the mutex as long as it is in `run`. -/
theorem Sound.no_return (h : s.Sound) {l : ThreadLabel} {o : Option ThreadShown}
    (hs : threadStart.step s l = some (s', o)) (hp : s.pc = .inRun) : o = none := by
  have hheld : s.mutex = some .thread := h.threadHolds.mpr (by rw [hp]; rfl)
  cases l with
  | call i =>
    obtain ⟨-, c₀, c, hi, -, -, ⟨ho, -⟩ | ⟨-, rfl, -⟩⟩ := callStep_cases hs
    · exact ho
    · rw [(h.callHolds i).mpr ⟨.unlock, hi, rfl⟩] at hheld
      cases hheld
  | start =>
    cases hs
    rfl
  | thread =>
    rcases (threadStep_cases hs).2 with ⟨hx | hx, -⟩ | ⟨hx, -⟩ <;>
    · rw [hp] at hx
      cases hx
  | spuriousWake =>
    simp only [threadStart, hp, reduceCtorEq, if_false] at hs
  | runReturns =>
    simp only [threadStart, hp, if_true] at hs
    cases hs
    rfl

/-- **A call of `start` starts the thread**, in every run: `run` is called at most once, and only
    when the flag is set; while it lasts no call of `start` returns; the steps that both sides take
    are bounded by the calls and the spurious wake-ups; and where neither can go on, a thread whose
    `start` was called has come to `run`. -/
theorem start_starts_the_thread {ls : List ThreadLabel} {t : ThreadState}
    {os : List (Option ThreadShown)} (h : threadStart.run initial ls = some (t, os)) :
    os.count (some .run) ≤ 1 ∧ (some .run ∈ os → t.started = true) ∧
      threadStart.Along (fun s _ _ o => s.pc = .inRun → o = none) initial ls ∧
      (ls.map ThreadLabel.cost).sum ≤ 2 + (ls.map ThreadLabel.credit).sum ∧
      (t.Halted → t.Settled) := by
  have hsound : t.Sound := Machine.run_invariant (fun _ _ _ _ hI hs => hI.step hs) sound_initial h
  have hcount : os.count (some .run) = t.pc.begun.toNat := by
    refine Machine.run_induct (P := fun _ os s => os.count (some .run) = s.pc.begun.toNat) rfl
      (fun ls os s l s' o hI hs => ?_) h
    rw [List.count_append, hI, begun_step hs]
  have hcost := Machine.run_cost_le (M := threadStart) (I := fun _ => True) (m := left)
    (fun _ _ _ _ _ hs => ⟨trivial, left_step hs⟩) trivial h
  refine ⟨?_, fun hmem => ?_, ?_, ?_, hsound.settled⟩
  · rw [hcount]
    exact Bool.toNat_le _
  · have hpos := List.count_pos_iff.mpr hmem
    rw [hcount] at hpos
    cases hp : t.pc with
    | lock | condition | waiting | reacquire =>
      rw [hp] at hpos
      exact absurd hpos (Nat.lt_irrefl 0)
    | inRun => exact hsound.entered (Or.inl hp)
    | returned => exact hsound.entered (Or.inr hp)
  · exact Machine.along_of_invariant
      (fun _ _ _ _ hI hs => ⟨Sound.step hI hs, hI.no_return hs⟩) sound_initial
  · exact Nat.le_trans (Nat.le_add_left _ _) hcost

/-- The thread waits, wakes up by itself and waits again; a second call of `start` finds it in
    `run`. -/
def startedTwice : List ThreadLabel :=
  [.thread, .thread, .start, .spuriousWake, .thread, .thread, .call 0, .call 0, .start, .call 0,
    .call 0, .thread, .thread]

theorem start_starts_the_thread_startedTwice : ∃ t os,
    threadStart.run initial startedTwice = some (t, os) ∧ t.calls = [.returned, .lock] ∧
      os.count (some .run) ≤ 1 ∧ (some .run ∈ os → t.started = true) ∧
      threadStart.Along (fun s _ _ o => s.pc = .inRun → o = none) initial startedTwice ∧
      (startedTwice.map ThreadLabel.cost).sum ≤ 2 + (startedTwice.map ThreadLabel.credit).sum ∧
      (t.Halted → t.Settled) := by
  have hseen : (threadStart.run initial startedTwice).map (fun p => p.1.calls) =
      some [.returned, .lock] := by decide
  obtain ⟨⟨t, os⟩, hrun, hcalls⟩ := Option.map_eq_some_iff.mp hseen
  exact ⟨t, os, hrun, hcalls, start_starts_the_thread hrun⟩

end ThreadState

end PluginsEngine
