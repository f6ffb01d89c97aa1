/-
  File:      PluginsEngine/Event/LoopRun.lean
  Subject:   EventLoop::run AND THE FUNCTIONS THAT ARE POSTED TO IT (event/eventLoop.cpp).

  `run` waits for events, runs what is queued, and begins again until someone has called `stop`.
  Around the machine `eventLoops`, `loopRuns` adds where the thread of each loop is in its `run`,
  and shows each function that is posted to a loop and each one that a loop begins.

  * `LoopAccount` -- what has been started and what is queued is what was posted, in order;
  * `posted_run_in_turn` -- and what is posted before a wait begins is run when that turn is over;
  * `stop_loses_the_late` -- a loop that has returned has run exactly what was posted before it took
    its mutex for the last time, and never runs the rest.
-/
import PluginsEngine.Event.RunInLoop

namespace PluginsEngine

open Library

variable {ι φ : Type} [DecidableEq ι]

/-! ## 1. The loops at their work -/

/-- Where the thread of a loop is in `run`. -/
inductive LoopPc where
  | beforeRun
  /-- At `while(running)`. -/
  | condition
  /-- In `waitAndRunHandler`, or at the `unique_lock` of `runAllFunctionInLoop`. -/
  | inWait
  | inFunctions
  | returned
  deriving DecidableEq

structure RunState (ι φ : Type) where
  loops : LoopsState ι φ
  /-- `running` of the loop. -/
  going : ι → Bool
  pc : ι → LoopPc

inductive RunLabel (ι φ : Type) where
  | run (i : ι)
  /-- The condition holds, and the loop calls `waitAndRunHandler`. -/
  | wait (i : ι)
  /-- It does not, and `run` returns. -/
  | leave (i : ι)
  | stop (i : ι)
  | step (l : LoopsStep ι φ)

/-- What is seen of a step: a function pushed back to a loop, or one that a loop begins. -/
inductive LoopsShown (ι φ : Type) where
  | posted (i : ι) (callback : φ)
  | started (i : ι) (callback : φ)

namespace RunState

/-- Loops just constructed. -/
def initial (ι φ : Type) : RunState ι φ :=
  ⟨LoopsState.initial ι φ, fun _ => true, fun _ => .beforeRun⟩

variable (s : RunState ι φ)

/-- The step stands where the thread is: handlers run in the wait, posted functions behind it. -/
def allows : LoopsStep ι φ → Bool
  | .runInLoop (.loop i) _ _ =>
    !(s.loops.running (.loop i)).isEmpty || s.pc i != .condition && s.pc i != .inFunctions
  | .runAllFunctionInLoop i => s.pc i = .inWait
  | _ => true

def pcAfter : LoopsStep ι φ → ι → LoopPc
  | .runAllFunctionInLoop i => Function.update s.pc i .inFunctions
  | .clear i => Function.update s.pc i .condition
  | _ => s.pc

end RunState

def LoopsState.shows (s : LoopsState ι φ) : LoopsStep ι φ → Option (LoopsShown ι φ)
  | .pushBack x => (s.adding x).map fun p => .posted p.1 p.2
  | .next i =>
    match s.draining i with
    | none => none
    | some it => ((s.callbacks i)[it]?).map (.started i)
  | _ => none

/-- The loops of a program, each in its `run`. -/
def loopRuns (P : LoopProgram ι φ) :
    Machine (RunState ι φ) (RunLabel ι φ) (Option (LoopsShown ι φ)) where
  step s
    | .run i =>
      if (s.pc i = .beforeRun ∨ s.pc i = .returned) ∧ s.loops.atRest i then
        some ({ s with pc := Function.update s.pc i .condition }, none)
      else none
    | .wait i =>
      if s.pc i = .condition ∧ s.going i then
        some ({ s with pc := Function.update s.pc i .inWait }, none)
      else none
    | .leave i =>
      if s.pc i = .condition ∧ s.going i = false then
        some ({ s with pc := Function.update s.pc i .returned }, none)
      else none
    | .stop i => some ({ s with going := Function.update s.going i false }, none)
    | .step l =>
      if s.allows l then
        match (eventLoops P).step s.loops l with
        | none => none
        | some (loops, _) =>
          some ({ s with loops := loops, pc := s.pcAfter l }, s.loops.shows l)
      else none

/-! ## 2. What a step is to one loop -/

/-- What concerns one loop: its list, its iterator, and its `run`. -/
structure LoopView (φ : Type) where
  callbacks : List φ
  draining : Option Nat
  pc : LoopPc
  going : Bool

def RunState.view (s : RunState ι φ) (i : ι) : LoopView φ :=
  ⟨s.loops.callbacks i, s.loops.draining i, s.pc i, s.going i⟩

namespace LoopsShown

def postedOn (i : ι) : LoopsShown ι φ → Option φ
  | .posted j callback => if j = i then some callback else none
  | .started _ _ => none

def startedOn (i : ι) : LoopsShown ι φ → Option φ
  | .posted _ _ => none
  | .started j callback => if j = i then some callback else none

end LoopsShown

/-- The loop begins a wait, or takes its mutex behind it. -/
def RunLabel.isTurn (i : ι) : RunLabel ι φ → Bool
  | .wait j => j = i
  | .step (.runAllFunctionInLoop j) => j = i
  | _ => false

/-- **What a step can be to loop `i`.** -/
inductive LoopMoves (i : ι) (v : LoopView φ) :
    RunLabel ι φ → Option (LoopsShown ι φ) → LoopView φ → Prop where
  | posts (x : LoopThread ι) (callback : φ) (hfree : v.draining = none) :
      LoopMoves i v (.step (.pushBack x)) (some (.posted i callback))
        { v with callbacks := v.callbacks ++ [callback] }
  | locks (hpc : v.pc = .inWait) (hfree : v.draining = none) :
      LoopMoves i v (.step (.runAllFunctionInLoop i)) none
        { v with draining := some 0, pc := .inFunctions }
  | starts (it : Nat) (callback : φ) (hdraining : v.draining = some it)
      (hcallback : v.callbacks[it]? = some callback) :
      LoopMoves i v (.step (.next i)) (some (.started i callback))
        { v with draining := some (it + 1) }
  | clears (hdraining : v.draining = some v.callbacks.length) :
      LoopMoves i v (.step (.clear i)) none
        { v with callbacks := [], draining := none, pc := .condition }
  | runs (hpc : v.pc = .beforeRun ∨ v.pc = .returned) :
      LoopMoves i v (.run i) none { v with pc := .condition }
  | waits (hpc : v.pc = .condition) (hgoing : v.going = true) :
      LoopMoves i v (.wait i) none { v with pc := .inWait }
  | leaves (hpc : v.pc = .condition) (hgoing : v.going = false) :
      LoopMoves i v (.leave i) none { v with pc := .returned }
  | stops : LoopMoves i v (.stop i) none { v with going := false }
  | elsewhere (l : RunLabel ι φ) (o : Option (LoopsShown ι φ)) (hturn : l.isTurn i = false)
      (hposted : o.bind (·.postedOn i) = none) (hstarted : o.bind (·.startedOn i) = none) :
      LoopMoves i v l o v

/-- **The invariant of the mutexes**: a loop in `runAllFunctionInLoop` holds its own. -/
structure LoopsHold (P : LoopProgram ι φ) (s : LoopsState ι φ) : Prop where
  follows : s.Follows P
  holds : ∀ i, s.draining i ≠ none → s.mutex i = some (.loop i)

omit [DecidableEq ι] in
theorem loopsHold_initial (P : LoopProgram ι φ) : LoopsHold P (LoopsState.initial ι φ) where
  follows := LoopsState.follows_initial P
  holds _ h := absurd rfl h

section

variable {P : LoopProgram ι φ} {i : ι}

section

variable {s s' : LoopsState ι φ} {l : LoopsStep ι φ} {o : Unit}

omit [DecidableEq ι] in
/-- Nobody pushes a function back to a loop that runs its functions. -/
theorem LoopsHold.draining_of_pushBack (h : LoopsHold P s) {x : LoopThread ι} {callback : φ}
    (hadding : s.adding x = some (i, callback)) (hmutex : s.mutex i = some x) :
    s.draining i = none := by
  by_contra hdraining
  rw [h.holds i hdraining] at hmutex
  exact (h.follows.adding x i callback hadding).1 (Option.some.inj hmutex).symm

theorem loopsHold_step (h : LoopsHold P s) (hs : (eventLoops P).step s l = some (s', o)) :
    LoopsHold P s' := by
  refine ⟨h.follows.step hs, fun i hi => ?_⟩
  cases LoopsState.moves_of_step hs with
  | direct j callback huses => exact h.holds i hi
  | add x j callback hother hfree huses hcall => exact h.holds i hi
  | lock x j callback hadding hfree =>
    refine (Function.update_of_ne (fun heq => ?_) _ _).trans (h.holds i hi)
    rw [heq] at hi
    rw [h.holds j hi] at hfree
    cases hfree
  | pushBack x j callback hadding hmutex =>
    refine (Function.update_of_ne (fun heq => ?_) _ _).trans (h.holds i hi)
    rw [heq] at hi
    exact hi (h.draining_of_pushBack hadding hmutex)
  | runAllFunctionInLoop j hdraining hrest hfree =>
    rcases of_update (p := fun it => it ≠ none) hi with ⟨rfl, -⟩ | ⟨hne, hold⟩
    · exact Function.update_self _ _ _
    · exact (Function.update_of_ne hne _ _).trans (h.holds i hold)
  | next j it callback hdraining hcallback hrest =>
    rcases of_update (p := fun it => it ≠ none) hi with ⟨rfl, -⟩ | ⟨-, hold⟩
    · exact h.holds i (by rw [hdraining]; exact Option.some_ne_none it)
    · exact h.holds i hold
  | returns x callback rest hrunning => exact h.holds i hi
  | clear j it hdraining hrest =>
    rcases of_update (p := fun it => it ≠ none) hi with ⟨-, hnone⟩ | ⟨hne, hold⟩
    · exact absurd rfl hnone
    · exact (Function.update_of_ne hne _ _).trans (h.holds i hold)

end

variable {s s' : RunState ι φ} {l : RunLabel ι φ} {o : Option (LoopsShown ι φ)}

/-- A step that leaves the list, the iterator and the `run` of loop `i` alone, and shows nothing
    of it. -/
theorem LoopMoves.of_view (hview : s'.view i = s.view i) (hturn : l.isTurn i = false)
    (hposted : o.bind (·.postedOn i) = none) (hstarted : o.bind (·.startedOn i) = none) :
    LoopMoves i (s.view i) l o (s'.view i) := by
  rw [hview]
  exact .elsewhere l o hturn hposted hstarted

theorem loopMoves_of_loops (h : LoopsHold P s.loops) {l : LoopsStep ι φ} {loops : LoopsState ι φ}
    {u : Unit} (i : ι) (hallows : s.allows l = true)
    (hs : (eventLoops P).step s.loops l = some (loops, u)) :
    LoopMoves i (s.view i) (.step l) (s.loops.shows l)
      (RunState.view { s with loops := loops, pc := s.pcAfter l } i) := by
  cases l with
  | runInLoop x j callback =>
    cases LoopsState.moves_of_step hs with
    | direct _ _ _ => exact .of_view rfl rfl rfl rfl
    | add _ _ _ _ _ _ _ => exact .of_view rfl rfl rfl rfl
  | lock x =>
    cases LoopsState.moves_of_step hs with
    | lock _ j callback hadding hfree => exact .of_view rfl rfl rfl rfl
  | pushBack x =>
    cases LoopsState.moves_of_step hs with
    | pushBack _ j callback hadding hmutex =>
      have hshows : s.loops.shows (.pushBack x) = some (.posted j callback) := by
        simp only [LoopsState.shows, hadding, Option.map_some]
      rw [hshows]
      rcases eq_or_ne j i with rfl | hne
      · have hview := LoopMoves.posts (v := s.view j) (i := j) x callback
          (h.draining_of_pushBack hadding hmutex)
        simpa only [RunState.view, RunState.pcAfter, Function.update_self] using hview
      · refine .of_view ?_ rfl (if_neg hne) rfl
        simp only [RunState.view, Function.update_of_ne hne.symm, RunState.pcAfter]
  | runAllFunctionInLoop j =>
    cases LoopsState.moves_of_step hs with
    | runAllFunctionInLoop _ hdraining hrest hfree =>
      rcases eq_or_ne j i with rfl | hne
      · have hview := LoopMoves.locks (v := s.view j) (i := j)
          (of_decide_eq_true hallows) hdraining
        simpa only [RunState.view, RunState.pcAfter, LoopsState.shows, Function.update_self]
          using hview
      · refine .of_view ?_ (decide_eq_false hne) rfl rfl
        simp only [RunState.view, RunState.pcAfter, Function.update_of_ne hne.symm]
  | next j =>
    simp only [eventLoops] at hs
    split at hs
    case h_2 => cases hs
    rename_i it hdraining
    split at hs
    case h_2 => cases hs
    rename_i callback hcallback
    split at hs
    case isFalse => cases hs
    cases hs
    have hshows : s.loops.shows (.next j) = some (.started j callback) := by
      simp only [LoopsState.shows, hdraining, hcallback, Option.map_some]
    rw [hshows]
    rcases eq_or_ne j i with rfl | hne
    · have hview := LoopMoves.starts (v := s.view j) (i := j) it callback hdraining hcallback
      simpa only [RunState.view, RunState.pcAfter, Function.update_self] using hview
    · refine .of_view ?_ rfl rfl (if_neg hne)
      simp only [RunState.view, RunState.pcAfter, Function.update_of_ne hne.symm]
  | returns x =>
    cases LoopsState.moves_of_step hs with
    | returns _ callback rest hrunning => exact .of_view rfl rfl rfl rfl
  | clear j =>
    simp only [eventLoops] at hs
    split at hs
    case h_2 => cases hs
    rename_i it hdraining
    split at hs
    case isFalse => cases hs
    rename_i hend
    cases hs
    rcases eq_or_ne j i with rfl | hne
    · have hview := LoopMoves.clears (v := s.view j) (i := j)
        (hdraining.trans (congrArg some hend.1))
      simpa only [RunState.view, RunState.pcAfter, LoopsState.shows, Function.update_self]
        using hview
    · refine .of_view ?_ rfl rfl rfl
      simp only [RunState.view, RunState.pcAfter, Function.update_of_ne hne.symm]

theorem loopMoves_of_step (h : LoopsHold P s.loops) (i : ι)
    (hs : (loopRuns P).step s l = some (s', o)) : LoopMoves i (s.view i) l o (s'.view i) := by
  cases l with
  | run j =>
    simp only [loopRuns] at hs
    split at hs
    case isFalse => cases hs
    rename_i hpc
    cases hs
    rcases eq_or_ne j i with rfl | hne
    · have hview := LoopMoves.runs (v := s.view j) (i := j) hpc.1
      simpa only [RunState.view, Function.update_self] using hview
    · refine .of_view ?_ rfl rfl rfl
      simp only [RunState.view, Function.update_of_ne hne.symm]
  | wait j =>
    simp only [loopRuns] at hs
    split at hs
    case isFalse => cases hs
    rename_i hpc
    cases hs
    rcases eq_or_ne j i with rfl | hne
    · have hview := LoopMoves.waits (v := s.view j) (i := j) hpc.1 hpc.2
      simpa only [RunState.view, Function.update_self] using hview
    · refine .of_view ?_ (decide_eq_false hne) rfl rfl
      simp only [RunState.view, Function.update_of_ne hne.symm]
  | leave j =>
    simp only [loopRuns] at hs
    split at hs
    case isFalse => cases hs
    rename_i hpc
    cases hs
    rcases eq_or_ne j i with rfl | hne
    · have hview := LoopMoves.leaves (v := s.view j) (i := j) hpc.1 hpc.2
      simpa only [RunState.view, Function.update_self] using hview
    · refine .of_view ?_ rfl rfl rfl
      simp only [RunState.view, Function.update_of_ne hne.symm]
  | stop j =>
    cases hs
    rcases eq_or_ne j i with rfl | hne
    · have hview := LoopMoves.stops (v := s.view j) (i := j)
      simpa only [RunState.view, Function.update_self] using hview
    · refine .of_view ?_ rfl rfl rfl
      simp only [RunState.view, Function.update_of_ne hne.symm]
  | step l =>
    simp only [loopRuns] at hs
    split at hs
    case isFalse => cases hs
    rename_i hallows
    split at hs
    case h_1 => cases hs
    rename_i loops u hstep
    cases hs
    exact loopMoves_of_loops h i hallows hstep

/-! ## 3. What is posted is started, in order -/

/-- The functions posted to the loop, in order. -/
def postedOn (i : ι) (os : List (Option (LoopsShown ι φ))) : List φ :=
  os.flatMap fun o => (o.bind (·.postedOn i)).toList

/-- The posted functions the loop has begun, in order. -/
def startedOn (i : ι) (os : List (Option (LoopsShown ι φ))) : List φ :=
  os.flatMap fun o => (o.bind (·.startedOn i)).toList

section

variable {v v' : LoopView φ} {os os₁ os₂ : List (Option (LoopsShown ι φ))}

variable (os₁ os₂) in
@[simp] theorem postedOn_append : postedOn i (os₁ ++ os₂) = postedOn i os₁ ++ postedOn i os₂ :=
  List.flatMap_append

variable (os₁ os₂) in
@[simp] theorem startedOn_append :
    startedOn i (os₁ ++ os₂) = startedOn i os₁ ++ startedOn i os₂ :=
  List.flatMap_append

theorem postedOn_singleton : postedOn i [o] = (o.bind (·.postedOn i)).toList :=
  List.flatMap_singleton _ _

theorem startedOn_singleton : startedOn i [o] = (o.bind (·.startedOn i)).toList :=
  List.flatMap_singleton _ _

/-- **What a loop has been given is what it has begun and what is queued**, in that order; and
    its iterator stands exactly while it runs functions. -/
structure LoopAccount (i : ι) (os : List (Option (LoopsShown ι φ))) (v : LoopView φ) : Prop where
  order : startedOn i os ++ v.callbacks.drop (v.draining.getD 0) = postedOn i os
  inFunctions : v.pc = .inFunctions ↔ v.draining ≠ none
  ended : v.pc = .returned → v.going = false

namespace LoopAccount

theorem draining_of_pc (h : LoopAccount i os v) (hpc : v.pc ≠ .inFunctions) :
    v.draining = none :=
  not_not.mp fun hdraining => hpc (h.inFunctions.mpr hdraining)

/-- A loop that runs no functions has begun what it was given, up to its list. -/
theorem order_of_free (h : LoopAccount i os v) (hfree : v.draining = none) :
    startedOn i os ++ v.callbacks = postedOn i os := by
  have horder := h.order
  rwa [hfree, Option.getD_none, List.drop_zero] at horder

/-- Behind its last function it has begun everything. -/
theorem order_of_end (h : LoopAccount i os v) (hend : v.draining = some v.callbacks.length) :
    startedOn i os = postedOn i os := by
  have horder := h.order
  rwa [hend, Option.getD_some, List.drop_length, List.append_nil] at horder

theorem step (h : LoopAccount i os v) (hm : LoopMoves i v l o v') :
    LoopAccount i (os ++ [o]) v' := by
  refine ⟨?_, ?_, ?_⟩
  · rw [startedOn_append, postedOn_append, startedOn_singleton, postedOn_singleton]
    cases hm with
    | posts x callback hfree =>
      simp [LoopsShown.postedOn, LoopsShown.startedOn, hfree, ← h.order_of_free hfree]
    | locks hpc hfree => simpa using h.order_of_free hfree
    | starts it callback hdraining hcallback =>
      obtain ⟨hlt, hget⟩ := List.getElem?_eq_some_iff.mp hcallback
      have horder := h.order
      rw [hdraining, Option.getD_some, List.drop_eq_getElem_cons hlt, hget] at horder
      simp [LoopsShown.postedOn, LoopsShown.startedOn, ← horder]
    | clears hdraining => simpa using h.order_of_end hdraining
    | runs hpc => simpa using h.order
    | waits hpc hgoing => simpa using h.order
    | leaves hpc hgoing => simpa using h.order
    | stops => simpa using h.order
    | elsewhere l o hturn hposted hstarted =>
      rw [hposted, hstarted]
      simpa using h.order
  · have hin := h.inFunctions
    cases hm with
    | posts x callback hfree => exact hin
    | locks hpc hfree => simp
    | starts it callback hdraining hcallback => simp [hin, hdraining]
    | clears hdraining => simp
    | runs hpc =>
      have hfree := h.draining_of_pc (by rcases hpc with hpc | hpc <;> rw [hpc] <;> decide)
      simp [hfree]
    | waits hpc hgoing =>
      have hfree := h.draining_of_pc (by rw [hpc]; decide)
      simp [hfree]
    | leaves hpc hgoing =>
      have hfree := h.draining_of_pc (by rw [hpc]; decide)
      simp [hfree]
    | stops => exact hin
    | elsewhere l o hturn hposted hstarted => exact hin
  · intro hpc
    cases hm with
    | posts x callback hfree => exact h.ended hpc
    | starts it callback hdraining hcallback => exact h.ended hpc
    | leaves hcondition hgoing => exact hgoing
    | stops => rfl
    | elsewhere l o hturn hposted hstarted => exact h.ended hpc
    | locks | clears | runs | waits => cases hpc

end LoopAccount

/-- In every state a run reaches the mutexes are held and the account of each loop is right. -/
structure RunAccount (P : LoopProgram ι φ) (os : List (Option (LoopsShown ι φ)))
    (s : RunState ι φ) : Prop where
  hold : LoopsHold P s.loops
  account : ∀ i, LoopAccount i os (s.view i)

theorem runAccount_initial (P : LoopProgram ι φ) : RunAccount P [] (RunState.initial ι φ) where
  hold := loopsHold_initial P
  account _ := ⟨rfl, by simp [RunState.view, RunState.initial, LoopsState.initial], by
    simp [RunState.view, RunState.initial]⟩

theorem runAccount_step (h : RunAccount P os s) (hs : (loopRuns P).step s l = some (s', o)) :
    RunAccount P (os ++ [o]) s' := by
  refine ⟨?_, fun i => (h.account i).step (loopMoves_of_step h.hold i hs)⟩
  cases l with
  | run j =>
    simp only [loopRuns] at hs
    split at hs
    case isFalse => cases hs
    cases hs
    exact h.hold
  | wait j =>
    simp only [loopRuns] at hs
    split at hs
    case isFalse => cases hs
    cases hs
    exact h.hold
  | leave j =>
    simp only [loopRuns] at hs
    split at hs
    case isFalse => cases hs
    cases hs
    exact h.hold
  | stop j =>
    cases hs
    exact h.hold
  | step l =>
    simp only [loopRuns] at hs
    split at hs
    case isFalse => cases hs
    split at hs
    case h_1 => cases hs
    rename_i hstep
    cases hs
    exact loopsHold_step h.hold hstep

theorem runAccount_of_run {ls : List (RunLabel ι φ)}
    (h : (loopRuns P).run (RunState.initial ι φ) ls = some (s, os)) : RunAccount P os s :=
  Machine.run_induct (P := fun _ os s => RunAccount P os s) (runAccount_initial P)
    (fun _ _ _ _ _ _ hI hs => runAccount_step hI hs) h

/-! ## 4. Turns -/

/-- Behind a wait that has begun: the loop is still in its turn, or has begun all it was given
    before. -/
def TurnOver (i : ι) (os₁ os : List (Option (LoopsShown ι φ))) (v : LoopView φ) : Prop :=
  v.pc = .inWait ∨ v.pc = .inFunctions ∨ postedOn i os₁ <+: startedOn i os

theorem turnOver_step (h : LoopAccount i (os₁ ++ os) v) (hturn : TurnOver i os₁ (os₁ ++ os) v)
    (hm : LoopMoves i v l o v') : TurnOver i os₁ (os₁ ++ os ++ [o]) v' := by
  have hgrows : postedOn i os₁ <+: startedOn i (os₁ ++ os) →
      postedOn i os₁ <+: startedOn i (os₁ ++ os ++ [o]) := fun hprefix => by
    rw [startedOn_append _ [o]]
    exact hprefix.trans (List.prefix_append _ _)
  cases hm with
  | posts x callback hfree => exact hturn.imp id (Or.imp id hgrows)
  | locks hpc hfree => exact .inr (.inl rfl)
  | starts it callback hdraining hcallback => exact hturn.imp id (Or.imp id hgrows)
  | clears hdraining =>
    -- the mutex was held all the time: what has been begun is all there is
    refine .inr (.inr (hgrows ?_))
    rw [h.order_of_end hdraining, postedOn_append]
    exact List.prefix_append _ _
  | runs hpc =>
    rcases hturn with hwait | hin | hprefix
    · rcases hpc with hpc | hpc <;> cases hwait.symm.trans hpc
    · rcases hpc with hpc | hpc <;> cases hin.symm.trans hpc
    · exact .inr (.inr (hgrows hprefix))
  | waits hpc hgoing => exact .inl rfl
  | leaves hpc hgoing =>
    rcases hturn with hwait | hin | hprefix
    · cases hwait.symm.trans hpc
    · cases hin.symm.trans hpc
    · exact .inr (.inr (hgrows hprefix))
  | stops => exact hturn.imp id (Or.imp id hgrows)
  | elsewhere l o hl hposted hstarted => exact hturn.imp id (Or.imp id hgrows)

theorem pc_of_wait (hs : (loopRuns P).step s (.wait i) = some (s', o)) : s'.pc i = .inWait := by
  simp only [loopRuns] at hs
  split at hs
  case isFalse => cases hs
  cases hs
  exact Function.update_self _ _ _

variable {m t : RunState ι φ} {ls₁ ls₂ ls₃ : List (RunLabel ι φ)}
  {os₃ : List (Option (LoopsShown ι φ))}

/-- Once a loop is through with a wait and the functions behind it, it has begun all that was
    posted before that wait. -/
theorem begun_of_turn (i : ι) (h₁ : (loopRuns P).run (.initial ι φ) ls₁ = some (m, os₁))
    (h₂ : (loopRuns P).run m (.wait i :: ls₂) = some (s, os₂))
    (hpc : s.pc i = .condition ∨ s.pc i = .returned) :
    postedOn i os₁ <+: startedOn i (os₁ ++ os₂) := by
  obtain ⟨s₁, o, os, hwait, hr, rfl⟩ := Machine.run_cons_iff.mp h₂
  have hfirst := runAccount_step (runAccount_of_run h₁) hwait
  have hrun : RunAccount P (os₁ ++ o :: os) s ∧
      TurnOver i os₁ (os₁ ++ o :: os) (s.view i) := by
    refine Machine.run_induct (P := fun _ os s => RunAccount P (os₁ ++ o :: os) s ∧
      TurnOver i os₁ (os₁ ++ o :: os) (s.view i)) ⟨hfirst, .inl (pc_of_wait hwait)⟩ ?_ hr
    intro _ os s l s' o' ih hs
    have hassoc : os₁ ++ o :: (os ++ [o']) = os₁ ++ o :: os ++ [o'] := by
      rw [List.append_assoc, List.cons_append]
    rw [hassoc]
    exact ⟨runAccount_step ih.1 hs,
      turnOver_step (ih.1.account i) ih.2 (loopMoves_of_step ih.1.hold i hs)⟩
  rcases hrun.2 with hin | hin | hprefix
  · rcases hpc with hpc | hpc <;> cases hin.symm.trans hpc
  · rcases hpc with hpc | hpc <;> cases hin.symm.trans hpc
  · exact hprefix

/-- **Posted functions are run once, in order, and within one turn.** In every run of any loops
    and threads, what a loop has begun and what is still queued is what was posted to it, in the
    order of the posts; and once it is through with a wait and the functions behind it, it has
    begun everything that was posted before that wait. -/
theorem posted_run_in_turn (i : ι) {ls : List (RunLabel ι φ)}
    (h : (loopRuns P).run (.initial ι φ) ls = some (s, os)) :
    startedOn i os ++ (s.loops.callbacks i).drop ((s.loops.draining i).getD 0) =
        postedOn i os ∧
      ∀ ls₁ ls₂ m os₁, ls = ls₁ ++ .wait i :: ls₂ →
        (loopRuns P).run (.initial ι φ) ls₁ = some (m, os₁) →
        s.pc i = .condition ∨ s.pc i = .returned → postedOn i os₁ <+: startedOn i os := by
  refine ⟨((runAccount_of_run h).account i).order, ?_⟩
  rintro ls₁ ls₂ m os₁ rfl h₁ hpc
  obtain ⟨m', os', os₂, h', h₂, rfl⟩ := Machine.run_append_iff.mp h
  cases h₁.symm.trans h'
  exact begun_of_turn i h₁ h₂ hpc

/-- All functions may be given to the loop, and may post. -/
def anyCalls : LoopProgram Unit Nat := ⟨fun _ _ => true, fun _ _ _ => true⟩

/-- Two threads post before the loop waits. The one that calls first is not the first to post. -/
def twoPosts : List (RunLabel Unit Nat) :=
  [.step (.runInLoop (.other 0) () 5), .step (.runInLoop (.other 1) () 6),
    .step (.lock (.other 1)), .step (.pushBack (.other 1)), .run (), .step (.lock (.other 0)),
    .step (.pushBack (.other 0))]

def postInWait : List (RunLabel Unit Nat) :=
  [.step (.runInLoop (.other 1) () 7), .step (.lock (.other 1)), .step (.pushBack (.other 1))]

/-- The loop runs three functions and one is posted to it when it has. Then it is stopped. -/
def lastFunctions : List (RunLabel Unit Nat) :=
  [.step (.next ()), .step (.returns (.loop ())), .step (.next ()), .step (.returns (.loop ())),
    .step (.next ()), .step (.returns (.loop ())), .step (.clear ()),
    .step (.runInLoop (.other 0) () 8), .step (.lock (.other 0)), .step (.pushBack (.other 0)),
    .stop (), .leave ()]

theorem posted_run_in_turn_lastFunctions :
    ∃ s os, (loopRuns anyCalls).run (.initial Unit Nat) (twoPosts ++ .wait () :: (postInWait ++
        .step (.runAllFunctionInLoop ()) :: lastFunctions)) = some (s, os) ∧
      startedOn () os ++ s.loops.callbacks () = [6, 5, 7, 8] ∧ [6, 5] <+: startedOn () os := by
  have hsome : ((loopRuns anyCalls).run (.initial Unit Nat) (twoPosts ++ .wait () :: (postInWait ++
      .step (.runAllFunctionInLoop ()) :: lastFunctions))).isSome := by decide +kernel
  obtain ⟨⟨s, os⟩, hrun⟩ := Option.isSome_iff_exists.mp hsome
  obtain ⟨m, os₁, os₂, h₁, h₂, rfl⟩ := Machine.run_append_iff.mp hrun
  have hend : ((loopRuns anyCalls).run (.initial Unit Nat) (twoPosts ++ .wait () :: (postInWait ++
      .step (.runAllFunctionInLoop ()) :: lastFunctions))).map
        (fun p => (p.1.pc (), p.1.loops.draining (), postedOn () p.2)) =
      some (.returned, none, [6, 5, 7, 8]) := by decide +kernel
  have hposted : ((loopRuns anyCalls).run (.initial Unit Nat) twoPosts).map
      (fun p => postedOn () p.2) = some [6, 5] := by decide +kernel
  rw [hrun, Option.map_some, Option.some.injEq, Prod.mk.injEq, Prod.mk.injEq] at hend
  rw [h₁, Option.map_some, Option.some.injEq] at hposted
  obtain ⟨hpc, hdraining, hall⟩ := hend
  obtain ⟨horder, hturn⟩ := posted_run_in_turn () hrun
  rw [hdraining, hall] at horder
  exact ⟨s, os₁ ++ os₂, hrun, horder, hposted ▸ hturn _ _ m os₁ rfl h₁ (.inr hpc)⟩

/-! ## 5. The end of run -/

/-- Behind the last time the loop takes its mutex: while it runs its functions nothing is posted,
    and afterwards nothing more is begun. -/
structure LastTurn (i : ι) (os₁ os : List (Option (LoopsShown ι φ))) (v : LoopView φ) : Prop where
  account : LoopAccount i (os₁ ++ os) v
  held : v.draining ≠ none → postedOn i os = []
  finished : v.draining = none → startedOn i (os₁ ++ os) = postedOn i os₁

theorem LastTurn.queued (h : LastTurn i os₁ os v) (hfree : v.draining = none) :
    v.callbacks = postedOn i os := by
  have horder := h.account.order_of_free hfree
  rw [h.finished hfree, postedOn_append] at horder
  exact List.append_cancel_left horder

/-- A step that shows nothing of the loop and leaves its iterator. -/
theorem LastTurn.quiet (h : LastTurn i os₁ os v) (haccount : LoopAccount i (os₁ ++ os ++ [o]) v')
    (hdraining : v'.draining = v.draining) (hposted : o.bind (·.postedOn i) = none)
    (hstarted : o.bind (·.startedOn i) = none) : LastTurn i os₁ (os ++ [o]) v' := by
  refine ⟨by rwa [← List.append_assoc], fun hheld => ?_, fun hfree => ?_⟩
  · rw [postedOn_append, postedOn_singleton, hposted, h.held (hdraining ▸ hheld)]
    rfl
  · rw [← List.append_assoc, startedOn_append _ [o], startedOn_singleton, hstarted,
      h.finished (hdraining ▸ hfree)]
    exact List.append_nil _

theorem lastTurn_step (h : LastTurn i os₁ os v) (hm : LoopMoves i v l o v')
    (hl : l ≠ .step (.runAllFunctionInLoop i)) : LastTurn i os₁ (os ++ [o]) v' := by
  have haccount := h.account.step hm
  cases hm with
  | posts x callback hfree =>
    refine ⟨by rwa [← List.append_assoc], fun hheld => absurd hfree hheld, fun _ => ?_⟩
    rw [← List.append_assoc, startedOn_append _ [_], h.finished hfree]
    exact List.append_nil _
  | locks hpc hfree => exact absurd rfl hl
  | starts it callback hdraining hcallback =>
    have hheld : v.draining ≠ none := by
      rw [hdraining]
      exact Option.some_ne_none it
    refine ⟨by rwa [← List.append_assoc], fun _ => ?_, fun hfree => by cases hfree⟩
    rw [postedOn_append, h.held hheld]
    rfl
  | clears hdraining =>
    have hheld : v.draining ≠ none := by
      rw [hdraining]
      exact Option.some_ne_none _
    refine ⟨by rwa [← List.append_assoc], fun hnone => absurd rfl hnone, fun _ => ?_⟩
    rw [← List.append_assoc, startedOn_append _ [none],
      h.account.order_of_end hdraining, postedOn_append, h.held hheld, List.append_nil]
    exact List.append_nil _
  | runs hpc => exact h.quiet haccount rfl rfl rfl
  | waits hpc hgoing => exact h.quiet haccount rfl rfl rfl
  | leaves hpc hgoing => exact h.quiet haccount rfl rfl rfl
  | stops => exact h.quiet haccount rfl rfl rfl
  | elsewhere l o hturn hposted hstarted => exact h.quiet haccount rfl hposted hstarted

/-- `run` has returned, or is called again and at its condition: the flag is never set again. -/
def AtEnd (v : LoopView φ) : Prop := (v.pc = .condition ∨ v.pc = .returned) ∧ v.going = false

omit [DecidableEq ι] in
theorem AtEnd.not_inWait (h : AtEnd v) : v.pc ≠ .inWait := by
  rcases h.1 with hpc | hpc <;> rw [hpc] <;> decide

theorem atEnd_step (h : AtEnd v) (hfree : v.draining = none) (hm : LoopMoves i v l o v') :
    AtEnd v' ∧ l ≠ .step (.runAllFunctionInLoop i) := by
  cases hm with
  | posts x callback _ => exact ⟨h, fun heq => by cases heq⟩
  | locks hpc _ => exact absurd hpc h.not_inWait
  | starts it callback hdraining hcallback => cases hfree.symm.trans hdraining
  | clears hdraining => cases hfree.symm.trans hdraining
  | runs hpc => exact ⟨⟨.inl rfl, h.2⟩, fun heq => by cases heq⟩
  | waits hpc hgoing => cases h.2.symm.trans hgoing
  | leaves hpc hgoing => exact ⟨⟨.inr rfl, h.2⟩, fun heq => by cases heq⟩
  | stops => exact ⟨⟨h.1, rfl⟩, fun heq => by cases heq⟩
  | elsewhere l o hturn hposted hstarted =>
    refine ⟨h, fun heq => ?_⟩
    rw [heq] at hturn
    exact absurd rfl (of_decide_eq_false hturn)

theorem lastTurn_run (os₀ : List (Option (LoopsShown ι φ))) (ha : RunAccount P (os₁ ++ os₀) s)
    (h : LastTurn i os₁ os₀ (s.view i)) (hrun : (loopRuns P).run s ls₂ = some (t, os₂))
    (hlast : .step (.runAllFunctionInLoop i) ∉ ls₂) :
    RunAccount P (os₁ ++ (os₀ ++ os₂)) t ∧ LastTurn i os₁ (os₀ ++ os₂) (t.view i) := by
  refine Machine.run_induct (P := fun ls os t => .step (.runAllFunctionInLoop i) ∉ ls →
    RunAccount P (os₁ ++ (os₀ ++ os)) t ∧ LastTurn i os₁ (os₀ ++ os) (t.view i)) ?_ ?_ hrun hlast
  · intro _
    rw [List.append_nil]
    exact ⟨ha, h⟩
  · intro ls os s l s' o ih hs hls
    obtain ⟨hno, hl⟩ := not_or.mp (mt List.mem_append.mpr hls)
    obtain ⟨ha, h⟩ := ih hno
    have hnext := lastTurn_step h (loopMoves_of_step ha.hold i hs)
      fun heq => hl (List.mem_singleton.mpr heq.symm)
    have ha' := runAccount_step ha hs
    rw [List.append_assoc] at hnext ha'
    rw [List.append_assoc] at ha'
    exact ⟨ha', hnext⟩

/-- A loop whose `run` has returned never takes its mutex again. -/
theorem atEnd_run {os₀ : List (Option (LoopsShown ι φ))} (ha : RunAccount P os₀ s)
    (h : AtEnd (s.view i)) (hrun : (loopRuns P).run s ls₃ = some (t, os₃)) :
    RunAccount P (os₀ ++ os₃) t ∧ AtEnd (t.view i) ∧ .step (.runAllFunctionInLoop i) ∉ ls₃ := by
  refine Machine.run_induct (P := fun ls os t => RunAccount P (os₀ ++ os) t ∧
    AtEnd (t.view i) ∧ .step (.runAllFunctionInLoop i) ∉ ls) ?_ ?_ hrun
  · rw [List.append_nil]
    exact ⟨ha, h, List.not_mem_nil⟩
  · intro ls os s l s' o ih hs
    obtain ⟨ha, hend, hno⟩ := ih
    have hfree := (ha.account i).draining_of_pc (by
      rcases hend.1 with hpc | hpc <;> rw [hpc] <;> decide)
    obtain ⟨hend', hl⟩ := atEnd_step hend hfree (loopMoves_of_step ha.hold i hs)
    rw [← List.append_assoc]
    exact ⟨runAccount_step ha hs, hend', fun hin => (List.mem_append.mp hin).elim hno
      fun hin => hl (List.mem_singleton.mp hin).symm⟩

theorem lastTurn_of_lock (ha : RunAccount P os₁ m)
    (hs : (loopRuns P).step m (.step (.runAllFunctionInLoop i)) = some (s, o)) :
    LastTurn i os₁ [o] (s.view i) := by
  have hm := loopMoves_of_step ha.hold i hs
  have haccount := (ha.account i).step hm
  generalize s.view i = v' at hm haccount
  cases hm with
  | locks hpc hfree => exact ⟨haccount, fun _ => rfl, fun hnone => by cases hnone⟩
  | elsewhere _ _ hturn _ _ => exact absurd rfl (of_decide_eq_false hturn)

/-- **What `stop` loses.** A loop whose `run` has returned has run exactly what was posted before
    it took its mutex for the last time, in that order, and whatever happens afterwards it runs
    nothing more: what was posted later stays in its list. -/
theorem stop_loses_the_late (i : ι) (h₁ : (loopRuns P).run (.initial ι φ) ls₁ = some (m, os₁))
    (h₂ : (loopRuns P).run m (.step (.runAllFunctionInLoop i) :: ls₂) = some (s, os₂))
    (hlast : .step (.runAllFunctionInLoop i) ∉ ls₂) (hreturned : s.pc i = .returned)
    (h₃ : (loopRuns P).run s ls₃ = some (t, os₃)) :
    startedOn i (os₁ ++ (os₂ ++ os₃)) = postedOn i os₁ ∧
      t.loops.callbacks i = postedOn i (os₂ ++ os₃) := by
  obtain ⟨s₁, o, os, hlock, hr, rfl⟩ := Machine.run_cons_iff.mp h₂
  have ha := runAccount_of_run h₁
  obtain ⟨ha', hturn⟩ := lastTurn_run [o] (runAccount_step ha hlock)
    (lastTurn_of_lock ha hlock) hr hlast
  have hend : AtEnd (s.view i) := ⟨.inr hreturned, (ha'.account i).ended hreturned⟩
  obtain ⟨hat, hend', hno⟩ := atEnd_run ha' hend h₃
  obtain ⟨-, hturn'⟩ := lastTurn_run _ ha' hturn h₃ hno
  have hfree := (hat.account i).draining_of_pc (by
    rcases hend'.1 with hpc | hpc <;> rw [hpc] <;> decide)
  exact ⟨hturn'.finished hfree, hturn'.queued hfree⟩

/-- After that a thread posts to the loop once more, and `run` is called again. -/
def runAgain : List (RunLabel Unit Nat) :=
  [.step (.runInLoop (.other 0) () 9), .step (.lock (.other 0)), .step (.pushBack (.other 0)),
    .run (), .leave ()]

theorem stop_loses_the_late_lastFunctions :
    ∃ t os, (loopRuns anyCalls).run (.initial Unit Nat) ((twoPosts ++ .wait () :: postInWait) ++
        (.step (.runAllFunctionInLoop ()) :: lastFunctions ++ runAgain)) = some (t, os) ∧
      startedOn () os = [6, 5, 7] ∧ t.loops.callbacks () = [8, 9] := by
  have hsome : ((loopRuns anyCalls).run (.initial Unit Nat)
      ((twoPosts ++ .wait () :: postInWait) ++
        (.step (.runAllFunctionInLoop ()) :: lastFunctions ++ runAgain))).isSome := by
    decide +kernel
  obtain ⟨⟨t, os⟩, hrun⟩ := Option.isSome_iff_exists.mp hsome
  obtain ⟨m, os₁, os', h₁, h', rfl⟩ := Machine.run_append_iff.mp hrun
  obtain ⟨s, os₂, os₃, h₂, h₃, rfl⟩ := Machine.run_append_iff.mp h'
  have hposted : ((loopRuns anyCalls).run (.initial Unit Nat)
      (twoPosts ++ .wait () :: postInWait)).map (fun p => postedOn () p.2) = some [6, 5, 7] := by
    decide +kernel
  have hreturned : ((loopRuns anyCalls).run (.initial Unit Nat)
      ((twoPosts ++ .wait () :: postInWait) ++
        .step (.runAllFunctionInLoop ()) :: lastFunctions)).map (fun p => p.1.pc ()) =
      some .returned := by decide +kernel
  have hlate : ((loopRuns anyCalls).run (.initial Unit Nat)
      ((twoPosts ++ .wait () :: postInWait) ++
        (.step (.runAllFunctionInLoop ()) :: lastFunctions ++ runAgain))).map
        (fun p => postedOn () p.2) = some ([6, 5, 7] ++ [8, 9]) := by decide +kernel
  rw [h₁, Option.map_some, Option.some.injEq] at hposted
  rw [Machine.run_append_iff.mpr ⟨m, os₁, os₂, h₁, h₂, rfl⟩, Option.map_some,
    Option.some.injEq] at hreturned
  rw [hrun, Option.map_some, Option.some.injEq, postedOn_append, hposted] at hlate
  have hno : .step (.runAllFunctionInLoop ()) ∉ lastFunctions := by simp [lastFunctions]
  obtain ⟨hstarted, hleft⟩ := stop_loses_the_late () h₁ h₂ hno hreturned h₃
  exact ⟨t, _, hrun, hstarted.trans hposted, hleft.trans (List.append_cancel_left hlate)⟩

end

end

end PluginsEngine
