/-
  File:      PluginsEngine/Event/RunInLoop.lean
  Subject:   EVENT LOOPS THAT POST TO EACH OTHER (event/eventLoop.hpp, eventLoop.cpp).

  `runInLoop` runs a function at once on the loop's own thread, and queues it from any other one;
  `runAllFunctionInLoop` runs what is queued. Both hold the mutex of the loop, the second one
  while the functions run. `eventLoops` is any number of loops, each on its thread, and further
  threads; each time a mutex is taken or given back is a step.

  Which functions there are is a parameter, `LoopProgram`: what is ever given to `runInLoop` of
  which loop, and which calls of `runInLoop` a function may make, in any order and as often as it
  likes, while it runs.

  * `Waits`, `Deadlock` -- a loop that holds its own mutex and waits for another one's, and cycles
    of them;
  * `Deadlock.run` -- such a cycle is for good;
  * `deadlockFree_iff` -- no run reaches one exactly when the program has no cycle of loops with
    functions that may post to the next one;
  * `two_loops_wait_for_each_other` -- two loops, a function on each that posts to the other.
-/
import PluginsEngine.Library.FiniteMap
import PluginsEngine.Library.Runs
import PluginsEngine.Library.WaitCycle

namespace PluginsEngine

open Library Relation

variable {ι φ : Type} [DecidableEq ι]

/-! ## 1. Loops, threads and functions -/

/-- The functions in use. -/
structure LoopProgram (ι φ : Type) where
  /-- The function is given to `runInLoop` of the loop. -/
  uses : ι → φ → Bool
  /-- While it runs, the function may call `runInLoop` of the loop with the other function. -/
  calls : φ → ι → φ → Bool

/-- The thread of a loop, or another one. -/
inductive LoopThread (ι : Type) where
  | loop (i : ι)
  | other (n : Nat)
  deriving DecidableEq

/-- The loops and their threads. -/
structure LoopsState (ι φ : Type) where
  callbacks : ι → List φ
  mutex : ι → Option (LoopThread ι)
  /-- The iterator of `runAllFunctionInLoop`, while the loop is in it. -/
  draining : ι → Option Nat
  /-- The functions the thread is in, the innermost first. -/
  running : LoopThread ι → List φ
  /-- The call of `addFunInLoop` the thread is in: the loop and the function. -/
  adding : LoopThread ι → Option (ι × φ)

inductive LoopsStep (ι φ : Type) where
  /-- A thread calls `runInLoop` of a loop. -/
  | runInLoop (x : LoopThread ι) (j : ι) (callback : φ)
  /-- In `addFunInLoop`, its `unique_lock` gets the mutex. -/
  | lock (x : LoopThread ι)
  /-- In `addFunInLoop`, it pushes the function back, unlocks and returns. -/
  | pushBack (x : LoopThread ι)
  /-- A loop enters `runAllFunctionInLoop` and gets its mutex. -/
  | runAllFunctionInLoop (i : ι)
  /-- The loop of `runAllFunctionInLoop` goes on to its next function. -/
  | next (i : ι)
  /-- The innermost function of a thread returns. -/
  | returns (x : LoopThread ι)
  /-- Behind its last function a loop clears its list, unlocks and leaves. -/
  | clear (i : ι)

namespace LoopsState

variable (s : LoopsState ι φ)

/-- What the thread runs may call `runInLoop`: a function that may, or, outside
    `runAllFunctionInLoop`, the handlers of the loop and the code of the other threads. -/
def mayCall (P : LoopProgram ι φ) (x : LoopThread ι) (j : ι) (callback : φ) : Bool :=
  match s.running x with
  | f :: _ => P.calls f j callback
  | [] =>
    match x with
    | .loop i => s.draining i = none
    | .other _ => true

/-- The thread of the loop is in no function. -/
def atRest (i : ι) : Bool := (s.running (.loop i)).isEmpty && (s.adding (.loop i)).isNone

/-- Loops just constructed. -/
def initial (ι φ : Type) : LoopsState ι φ :=
  ⟨fun _ => [], fun _ => none, fun _ => none, fun _ => [], fun _ => none⟩

end LoopsState

/-- The loops of a program. -/
def eventLoops (P : LoopProgram ι φ) : Machine (LoopsState ι φ) (LoopsStep ι φ) Unit where
  step s
    | .runInLoop x j callback =>
      if s.adding x = none ∧ P.uses j callback ∧ s.mayCall P x j callback then
        -- `inThisThread()`
        if x = .loop j then
          some ({ s with running := Function.update s.running x (callback :: s.running x) }, ())
        else
          some ({ s with adding := Function.update s.adding x (some (j, callback)) }, ())
      else none
    | .lock x =>
      match s.adding x with
      | some (j, _) =>
        if s.mutex j = none then
          some ({ s with mutex := Function.update s.mutex j (some x) }, ())
        else none
      | none => none
    | .pushBack x =>
      match s.adding x with
      | some (j, callback) =>
        if s.mutex j = some x then
          some ({ s with
            callbacks := Function.update s.callbacks j (s.callbacks j ++ [callback])
            mutex := Function.update s.mutex j none
            adding := Function.update s.adding x none }, ())
        else none
      | none => none
    | .runAllFunctionInLoop i =>
      if s.draining i = none ∧ s.atRest i ∧ s.mutex i = none then
        some ({ s with
          mutex := Function.update s.mutex i (some (.loop i))
          draining := Function.update s.draining i (some 0) }, ())
      else none
    | .next i =>
      match s.draining i with
      | some it =>
        match (s.callbacks i)[it]? with
        | some callback =>
          if s.atRest i then
            some ({ s with
              draining := Function.update s.draining i (some (it + 1))
              running := Function.update s.running (.loop i) [callback] }, ())
          else none
        | none => none
      | none => none
    | .returns x =>
      match s.running x with
      | _ :: rest =>
        if s.adding x = none then
          some ({ s with running := Function.update s.running x rest }, ())
        else none
      | [] => none
    | .clear i =>
      match s.draining i with
      | some it =>
        if it = (s.callbacks i).length ∧ s.atRest i then
          some ({ s with
            callbacks := Function.update s.callbacks i []
            mutex := Function.update s.mutex i none
            draining := Function.update s.draining i none }, ())
        else none
      | none => none

namespace LoopsState

variable {P : LoopProgram ι φ} {s s' : LoopsState ι φ} {l : LoopsStep ι φ} {o : Unit}

/-! ## 2. What a step can do -/

/-- **Everything a step can do**, with its guard. -/
inductive Moves (P : LoopProgram ι φ) (s : LoopsState ι φ) :
    LoopsStep ι φ → LoopsState ι φ → Prop where
  | direct (i : ι) (callback : φ) (huses : P.uses i callback = true) :
      Moves P s (.runInLoop (.loop i) i callback)
        { s with
          running := Function.update s.running (.loop i) (callback :: s.running (.loop i)) }
  | add (x : LoopThread ι) (j : ι) (callback : φ) (hother : x ≠ .loop j)
      (hfree : s.adding x = none) (huses : P.uses j callback = true)
      (hcall : s.mayCall P x j callback = true) :
      Moves P s (.runInLoop x j callback)
        { s with adding := Function.update s.adding x (some (j, callback)) }
  | lock (x : LoopThread ι) (j : ι) (callback : φ) (hadding : s.adding x = some (j, callback))
      (hfree : s.mutex j = none) :
      Moves P s (.lock x) { s with mutex := Function.update s.mutex j (some x) }
  | pushBack (x : LoopThread ι) (j : ι) (callback : φ)
      (hadding : s.adding x = some (j, callback)) (hmutex : s.mutex j = some x) :
      Moves P s (.pushBack x) { s with
        callbacks := Function.update s.callbacks j (s.callbacks j ++ [callback])
        mutex := Function.update s.mutex j none
        adding := Function.update s.adding x none }
  | runAllFunctionInLoop (i : ι) (hdraining : s.draining i = none) (hrest : s.atRest i = true)
      (hfree : s.mutex i = none) :
      Moves P s (.runAllFunctionInLoop i) { s with
        mutex := Function.update s.mutex i (some (.loop i))
        draining := Function.update s.draining i (some 0) }
  | next (i : ι) (it : Nat) (callback : φ) (hdraining : s.draining i = some it)
      (hcallback : callback ∈ s.callbacks i) (hrest : s.atRest i = true) :
      Moves P s (.next i) { s with
        draining := Function.update s.draining i (some (it + 1))
        running := Function.update s.running (.loop i) [callback] }
  | returns (x : LoopThread ι) (callback : φ) (rest : List φ)
      (hrunning : s.running x = callback :: rest) :
      Moves P s (.returns x) { s with running := Function.update s.running x rest }
  | clear (i : ι) (it : Nat) (hdraining : s.draining i = some it) (hrest : s.atRest i = true) :
      Moves P s (.clear i) { s with
        callbacks := Function.update s.callbacks i []
        mutex := Function.update s.mutex i none
        draining := Function.update s.draining i none }

theorem moves_of_step (hs : (eventLoops P).step s l = some (s', o)) : Moves P s l s' := by
  cases l with
  | runInLoop x j callback =>
    simp only [eventLoops] at hs
    split at hs
    · rename_i hok
      obtain ⟨hfree, huses, hcall⟩ := hok
      split at hs
      · rename_i hx
        subst hx
        cases hs
        exact .direct j callback huses
      · rename_i hx
        cases hs
        exact .add x j callback hx hfree huses hcall
    · cases hs
  | lock x =>
    simp only [eventLoops] at hs
    split at hs
    · rename_i j callback hadding
      split at hs
      · rename_i hfree
        cases hs
        exact .lock x j callback hadding hfree
      · cases hs
    · cases hs
  | pushBack x =>
    simp only [eventLoops] at hs
    split at hs
    · rename_i j callback hadding
      split at hs
      · rename_i hmutex
        cases hs
        exact .pushBack x j callback hadding hmutex
      · cases hs
    · cases hs
  | runAllFunctionInLoop i =>
    simp only [eventLoops] at hs
    split at hs
    · rename_i hok
      cases hs
      exact .runAllFunctionInLoop i hok.1 hok.2.1 hok.2.2
    · cases hs
  | next i =>
    simp only [eventLoops] at hs
    split at hs
    · rename_i it hdraining
      split at hs
      · rename_i callback hcallback
        split at hs
        · rename_i hrest
          cases hs
          exact .next i it callback hdraining (List.mem_of_getElem? hcallback) hrest
        · cases hs
      · cases hs
    · cases hs
  | returns x =>
    simp only [eventLoops] at hs
    split at hs
    · rename_i callback rest hrunning
      split at hs
      · cases hs
        exact .returns x callback rest hrunning
      · cases hs
    · cases hs
  | clear i =>
    simp only [eventLoops] at hs
    split at hs
    · rename_i it hdraining
      split at hs
      · rename_i hok
        cases hs
        exact .clear i it hdraining hok.2
      · cases hs
    · cases hs

/-! ## 3. Who waits for whom -/

/-- Loop `i` holds its own mutex in `runAllFunctionInLoop`, and waits in `addFunInLoop` for that
    of `j`. -/
structure Waits (s : LoopsState ι φ) (i j : ι) : Prop where
  draining : s.draining i ≠ none
  holds : s.mutex i = some (.loop i)
  adding : ∃ callback, s.adding (.loop i) = some (j, callback)
  blocked : s.mutex j ≠ some (.loop i)

/-- A cycle of loops each of which waits for the next one. -/
def Deadlock (s : LoopsState ι φ) : Prop := ∃ i, TransGen s.Waits i i

end LoopsState

/-- A function given to `runInLoop` of `i` may give one to `runInLoop` of another loop `j`. -/
def LoopProgram.Posts (P : LoopProgram ι φ) (i j : ι) : Prop :=
  i ≠ j ∧ ∃ callback callback', P.uses i callback = true ∧ P.calls callback j callback' = true ∧
    P.uses j callback' = true

namespace LoopsState

variable {P : LoopProgram ι φ} {s s' : LoopsState ι φ} {l : LoopsStep ι φ} {o : Unit}

omit [DecidableEq ι] in
theorem adding_of_atRest {i : ι} (h : s.atRest i = true) : s.adding (.loop i) = none := by
  simp only [atRest, Bool.and_eq_true, Option.isNone_iff_eq_none] at h
  exact h.2

/-- **The invariant of the loops**: what is queued and run is in use, a thread in `addFunInLoop`
    posts to another loop, and from `runAllFunctionInLoop` only as the program has it. -/
structure Follows (P : LoopProgram ι φ) (s : LoopsState ι φ) : Prop where
  queued : ∀ i, ∀ callback ∈ s.callbacks i, P.uses i callback = true
  running : ∀ i, ∀ callback ∈ s.running (.loop i), P.uses i callback = true
  adding : ∀ x j callback, s.adding x = some (j, callback) →
    x ≠ .loop j ∧ P.uses j callback = true
  posts : ∀ i j callback, s.adding (.loop i) = some (j, callback) → s.draining i ≠ none →
    P.Posts i j

omit [DecidableEq ι] in
theorem follows_initial (P : LoopProgram ι φ) : (initial ι φ).Follows P where
  queued _ _ h := absurd h List.not_mem_nil
  running _ _ h := absurd h List.not_mem_nil
  adding x j callback h := by
    simp only [initial] at h
    cases h
  posts i j callback h := by
    simp only [initial] at h
    cases h

omit [DecidableEq ι] in
/-- What a loop calls from `runAllFunctionInLoop` is a call of a function that runs there. -/
theorem Follows.posts_of_mayCall (h : s.Follows P) {i j : ι} {callback : φ}
    (hother : LoopThread.loop i ≠ .loop j) (huses : P.uses j callback = true)
    (hcall : s.mayCall P (.loop i) j callback = true) (hdraining : s.draining i ≠ none) :
    P.Posts i j := by
  simp only [mayCall] at hcall
  split at hcall
  · rename_i f rest hrunning
    have hf : f ∈ s.running (.loop i) := by
      rw [hrunning]
      exact List.mem_cons_self
    exact ⟨fun hij => hother (by rw [hij]), f, callback, h.running i f hf, hcall, huses⟩
  · exact absurd (of_decide_eq_true hcall) hdraining

theorem Follows.step (h : s.Follows P) (hs : (eventLoops P).step s l = some (s', o)) :
    s'.Follows P := by
  cases moves_of_step hs with
  | direct i callback huses =>
    refine ⟨h.queued, fun k f hf => ?_, h.adding, h.posts⟩
    rcases of_update (p := fun fs => f ∈ fs) hf with ⟨hk, hnew⟩ | ⟨-, hold⟩
    · cases hk
      rcases List.mem_cons.mp hnew with rfl | hold
      · exact huses
      · exact h.running i f hold
    · exact h.running k f hold
  | add x j callback hother hfree huses hcall =>
    refine ⟨h.queued, h.running, fun y k g hy => ?_, fun i k g hi hd => ?_⟩
    · rcases update_cases hy with ⟨rfl, hg⟩ | ⟨-, hold⟩
      · cases hg
        exact ⟨hother, huses⟩
      · exact h.adding y k g hold
    · rcases update_cases hi with ⟨rfl, hg⟩ | ⟨-, hold⟩
      · cases hg
        exact h.posts_of_mayCall hother huses hcall hd
      · exact h.posts i k g hold hd
  | lock x j callback hadding hfree => exact ⟨h.queued, h.running, h.adding, h.posts⟩
  | pushBack x j callback hadding hmutex =>
    refine ⟨fun i f hf => ?_, h.running, fun y k g hy => ?_, fun i k g hi hd => ?_⟩
    · rcases of_update (p := fun fs => f ∈ fs) hf with ⟨rfl, hnew⟩ | ⟨-, hold⟩
      · rcases List.mem_append.mp hnew with hold | hnew
        · exact h.queued i f hold
        · rw [List.mem_singleton.mp hnew]
          exact (h.adding x i callback hadding).2
      · exact h.queued i f hold
    · rcases update_cases hy with ⟨-, hg⟩ | ⟨-, hold⟩
      · cases hg
      · exact h.adding y k g hold
    · rcases update_cases hi with ⟨-, hg⟩ | ⟨-, hold⟩
      · cases hg
      · exact h.posts i k g hold hd
  | runAllFunctionInLoop i hdraining hrest hfree =>
    refine ⟨h.queued, h.running, h.adding, fun i' k g hi hd => ?_⟩
    rcases of_update (p := fun it => it ≠ none) hd with ⟨rfl, -⟩ | ⟨-, hold⟩
    · rw [adding_of_atRest hrest] at hi
      cases hi
    · exact h.posts i' k g hi hold
  | next i it callback hdraining hcallback hrest =>
    refine ⟨h.queued, fun k f hf => ?_, h.adding, fun i' k g hi hd => ?_⟩
    · rcases of_update (p := fun fs => f ∈ fs) hf with ⟨hk, hnew⟩ | ⟨-, hold⟩
      · cases hk
        rw [List.mem_singleton.mp hnew]
        exact h.queued i callback hcallback
      · exact h.running k f hold
    · rcases of_update (p := fun it => it ≠ none) hd with ⟨rfl, -⟩ | ⟨-, hold⟩
      · rw [adding_of_atRest hrest] at hi
        cases hi
      · exact h.posts i' k g hi hold
  | returns x callback rest hrunning =>
    refine ⟨h.queued, fun k f hf => ?_, h.adding, h.posts⟩
    rcases of_update (p := fun fs => f ∈ fs) hf with ⟨rfl, hnew⟩ | ⟨-, hold⟩
    · refine h.running k f ?_
      rw [hrunning]
      exact List.mem_cons_of_mem _ hnew
    · exact h.running k f hold
  | clear i it hdraining hrest =>
    refine ⟨fun k f hf => ?_, h.running, h.adding, fun i' k g hi hd => ?_⟩
    · rcases of_update (p := fun fs => f ∈ fs) hf with ⟨-, hnew⟩ | ⟨-, hold⟩
      · exact absurd hnew List.not_mem_nil
      · exact h.queued k f hold
    · rcases of_update (p := fun it => it ≠ none) hd with ⟨-, hnew⟩ | ⟨-, hold⟩
      · exact absurd rfl hnew
      · exact h.posts i' k g hi hold

theorem follows_of_run {ls : List (LoopsStep ι φ)} {os : List Unit}
    (h : (eventLoops P).run (initial ι φ) ls = some (s, os)) : s.Follows P :=
  Machine.run_invariant (I := Follows P) (fun _ _ _ _ hI hs => hI.step hs) (follows_initial P) h

omit [DecidableEq ι] in
theorem Waits.posts {i j : ι} (hw : s.Waits i j) (h : s.Follows P) : P.Posts i j := by
  obtain ⟨callback, hadding⟩ := hw.adding
  exact h.posts i j callback hadding hw.draining

/-! ## 4. A cycle is for good -/

section

variable {i j k m : ι}

omit [DecidableEq ι] in
theorem Waits.ne_of_free (hw : s.Waits i j) (hfree : s.mutex m = none) : i ≠ m := by
  intro heq
  subst heq
  rw [hw.holds] at hfree
  cases hfree

omit [DecidableEq ι] in
theorem Waits.ne_of_atRest (hw : s.Waits i j) (hrest : s.atRest m = true) : i ≠ m := by
  intro heq
  subst heq
  obtain ⟨callback, hadding⟩ := hw.adding
  rw [adding_of_atRest hrest] at hadding
  cases hadding

omit [DecidableEq ι] in
/-- The thread that pushes a function back to `m` holds the mutex of `m`: it is not the loop, and
    `m` is not. -/
theorem Waits.ne_of_pushBack (hw : s.Waits i j) {x : LoopThread ι} {callback : φ}
    (hadding : s.adding x = some (m, callback)) (hmutex : s.mutex m = some x) :
    LoopThread.loop i ≠ x ∧ i ≠ m := by
  obtain ⟨callback', hadding'⟩ := hw.adding
  have hx : LoopThread.loop i ≠ x := by
    intro heq
    subst heq
    rw [hadding'] at hadding
    cases hadding
    exact hw.blocked hmutex
  refine ⟨hx, fun heq => ?_⟩
  subst heq
  rw [hw.holds] at hmutex
  exact hx (Option.some.inj hmutex)

omit [DecidableEq ι] in
/-- Only four entries matter to a loop that waits. -/
theorem Waits.of_same (hw : s.Waits i j) (hdraining : s'.draining i = s.draining i)
    (hholds : s'.mutex i = s.mutex i) (hadding : s'.adding (.loop i) = s.adding (.loop i))
    (hblocked : s'.mutex j = s.mutex j) : s'.Waits i j where
  draining := by rw [hdraining]; exact hw.draining
  holds := by rw [hholds, hw.holds]
  adding := by rw [hadding]; exact hw.adding
  blocked := by rw [hblocked]; exact hw.blocked

/-- **A loop that waits for one that waits goes on waiting**, whatever step any thread takes. -/
theorem Waits.keep (hw : s.Waits i j) (hj : s.Waits j k)
    (hs : (eventLoops P).step s l = some (s', o)) : s'.Waits i j := by
  cases moves_of_step hs with
  | direct m callback huses => exact hw.of_same rfl rfl rfl rfl
  | add x m callback hother hfree huses hcall =>
    have hne : LoopThread.loop i ≠ x := by
      intro heq
      subst heq
      obtain ⟨callback', hadding⟩ := hw.adding
      rw [hfree] at hadding
      cases hadding
    exact hw.of_same rfl rfl (Function.update_of_ne hne _ _) rfl
  | lock x m callback hadding hfree =>
    exact hw.of_same rfl (Function.update_of_ne (hw.ne_of_free hfree) _ _) rfl
      (Function.update_of_ne (hj.ne_of_free hfree) _ _)
  | pushBack x m callback hadding hmutex =>
    obtain ⟨hx, hi⟩ := hw.ne_of_pushBack hadding hmutex
    obtain ⟨-, hj⟩ := hj.ne_of_pushBack hadding hmutex
    exact hw.of_same rfl (Function.update_of_ne hi _ _) (Function.update_of_ne hx _ _)
      (Function.update_of_ne hj _ _)
  | runAllFunctionInLoop m hdraining hrest hfree =>
    have hi := hw.ne_of_free hfree
    exact hw.of_same (Function.update_of_ne hi _ _) (Function.update_of_ne hi _ _) rfl
      (Function.update_of_ne (hj.ne_of_free hfree) _ _)
  | next m it callback hdraining hcallback hrest =>
    exact hw.of_same (Function.update_of_ne (hw.ne_of_atRest hrest) _ _) rfl rfl rfl
  | returns x callback rest hrunning => exact hw.of_same rfl rfl rfl rfl
  | clear m it hdraining hrest =>
    have hi := hw.ne_of_atRest hrest
    exact hw.of_same (Function.update_of_ne hi _ _) (Function.update_of_ne hi _ _) rfl
      (Function.update_of_ne (hj.ne_of_atRest hrest) _ _)

end

/-- **A deadlock is for good**: whatever the threads do from there on, there is a cycle. -/
theorem Deadlock.run (h : s.Deadlock) {ls : List (LoopsStep ι φ)} {t : LoopsState ι φ}
    {os : List Unit} (hrun : (eventLoops P).run s ls = some (t, os)) : t.Deadlock :=
  Machine.run_invariant (I := Deadlock)
    (fun _ _ _ _ hd hs => cycle_of_edges (fun _ _ _ hab hbc => hab.keep hbc hs) hd) h hrun

/-! ## 5. The bad schedule -/

/-- The loops of `L` are in `runAllFunctionInLoop`, each in its function `f`; those of `W` are in
    a call of `addFunInLoop` of the loop `target`, with `g`. -/
def allDraining (f g : ι → φ) (target : ι → ι) (L W : List ι) : LoopsState ι φ where
  callbacks i := if i ∈ L then [f i] else []
  mutex i := if i ∈ L then some (.loop i) else none
  draining i := if i ∈ L then some 1 else none
  running
    | .loop i => if i ∈ L then [f i] else []
    | .other _ => []
  adding
    | .loop i => if i ∈ W then some (target i, g i) else none
    | .other _ => none

/-- A thread posts a function to a loop at rest, which begins to run it. -/
def occupy (i : ι) (callback : φ) : List (LoopsStep ι φ) :=
  [.runInLoop (.other 0) i callback, .lock (.other 0), .pushBack (.other 0),
    .runAllFunctionInLoop i, .next i]

theorem update_ite_mem {ν : Type} (a : ι → ν) (b : ν) (L : List ι) (i : ι) :
    Function.update (fun k => if k ∈ L then a k else b) i (a i) =
      fun k => if k ∈ i :: L then a k else b := by
  funext k
  rcases eq_or_ne k i with rfl | hne
  · rw [Function.update_self, if_pos List.mem_cons_self]
  · simp only [Function.update_of_ne hne, List.mem_cons, hne, false_or]

/-- One more loop runs its function. -/
theorem allDraining_cons (f g : ι → φ) (target : ι → ι) (L : List ι) (i : ι) :
    { allDraining f g target L [] with
      callbacks := Function.update (allDraining f g target L []).callbacks i [f i]
      mutex := Function.update (allDraining f g target L []).mutex i (some (.loop i))
      draining := Function.update (allDraining f g target L []).draining i (some 1)
      running := Function.update (allDraining f g target L []).running (.loop i) [f i] } =
      allDraining f g target (i :: L) [] := by
  have hcallbacks := update_ite_mem (fun k => [f k]) [] L i
  have hmutex := update_ite_mem (fun k => some (LoopThread.loop k)) none L i
  have hdraining := update_ite_mem (fun _ => some 1) none L i
  have hrunning : Function.update (allDraining f g target L []).running (.loop i) [f i] =
      (allDraining f g target (i :: L) []).running := by
    funext x
    cases x with
    | loop k =>
      rcases eq_or_ne k i with rfl | hne
      · simp [allDraining]
      · simp [allDraining, hne]
    | other n => rfl
  rw [hrunning]
  simp only [allDraining, hcallbacks, hmutex, hdraining, List.not_mem_nil, if_false]

theorem run_occupy (f g : ι → φ) (target : ι → ι) {L : List ι} {i : ι} (hi : i ∉ L)
    (huses : P.uses i (f i) = true) :
    ∃ os, (eventLoops P).run (allDraining f g target L []) (occupy i (f i)) =
      some (allDraining f g target (i :: L) [], os) := by
  refine ⟨[(), (), (), (), ()], ?_⟩
  rw [← allDraining_cons]
  simp [Machine.run, occupy, eventLoops, allDraining, mayCall, atRest, hi, huses]

/-- The loops of a list are occupied one after the other. -/
theorem run_occupyAll (f g : ι → φ) (target : ι → ι) {L : List ι} (hnodup : L.Nodup)
    (huses : ∀ i ∈ L, P.uses i (f i) = true) :
    ∃ ls os, (eventLoops P).run (initial ι φ) ls = some (allDraining f g target L [], os) := by
  induction L with
  | nil =>
    have hinitial : allDraining f g target [] [] = initial ι φ := by
      simp only [allDraining, initial, List.not_mem_nil, if_false, mk.injEq, true_and]
      constructor
      · funext x
        cases x <;> rfl
      · funext x
        cases x <;> rfl
    exact ⟨[], [], by rw [hinitial, Machine.run_nil]⟩
  | cons i L ih =>
    obtain ⟨hi, hnodup⟩ := List.nodup_cons.mp hnodup
    obtain ⟨ls, os, hrun⟩ := ih hnodup fun k hk => huses k (List.mem_cons_of_mem _ hk)
    obtain ⟨os', hrun'⟩ := run_occupy (P := P) f g target hi (huses i List.mem_cons_self)
    exact ⟨ls ++ occupy i (f i), os ++ os',
      Machine.run_append_iff.mpr ⟨_, os, os', hrun, hrun', rfl⟩⟩

/-- A loop that runs its function posts to another one. -/
theorem step_post {f g : ι → φ} {target : ι → ι} {L W : List ι} {i : ι} (hi : i ∈ L) (hiW : i ∉ W)
    (hne : i ≠ target i) (hcalls : P.calls (f i) (target i) (g i) = true)
    (huses : P.uses (target i) (g i) = true) :
    (eventLoops P).step (allDraining f g target L W) (.runInLoop (.loop i) (target i) (g i)) =
      some (allDraining f g target L (i :: W), ()) := by
  have hadding : Function.update (allDraining f g target L W).adding (.loop i)
      (some (target i, g i)) = (allDraining f g target L (i :: W)).adding := by
    funext x
    cases x with
    | loop k =>
      rcases eq_or_ne k i with rfl | hk
      · simp [allDraining]
      · simp [allDraining, hk]
    | other n => rfl
  have hok : (allDraining f g target L W).adding (.loop i) = none ∧
      P.uses (target i) (g i) = true ∧
      (allDraining f g target L W).mayCall P (.loop i) (target i) (g i) = true := by
    refine ⟨if_neg hiW, huses, ?_⟩
    simp [mayCall, allDraining, hi, hcalls]
  simp only [eventLoops]
  rw [if_pos hok, if_neg (fun h => hne (LoopThread.loop.inj h)), hadding]
  rfl

/-- All of them do, one after the other. -/
theorem run_postAll (f g : ι → φ) (target : ι → ι) {L W : List ι} (hnodup : W.Nodup)
    (hsub : ∀ i ∈ W, i ∈ L)
    (hposts : ∀ i ∈ L, i ≠ target i ∧ P.calls (f i) (target i) (g i) = true ∧
      P.uses (target i) (g i) = true) :
    ∃ ls os, (eventLoops P).run (allDraining f g target L []) ls =
      some (allDraining f g target L W, os) := by
  induction W with
  | nil => exact ⟨[], [], rfl⟩
  | cons i W ih =>
    obtain ⟨hi, hnodup⟩ := List.nodup_cons.mp hnodup
    obtain ⟨ls, os, hrun⟩ := ih hnodup fun k hk => hsub k (List.mem_cons_of_mem _ hk)
    have hiL := hsub i List.mem_cons_self
    obtain ⟨hne, hcalls, huses⟩ := hposts i hiL
    exact ⟨ls ++ [.runInLoop (.loop i) (target i) (g i)], os ++ [()], Machine.run_append_iff.mpr
      ⟨_, os, [()], hrun, Machine.run_cons_iff.mpr
        ⟨_, (), [], step_post hiL hi hne hcalls huses, rfl, rfl⟩, rfl⟩⟩

theorem waits_allDraining {f g : ι → φ} {target : ι → ι} {L : List ι} {i : ι} (hi : i ∈ L)
    (htarget : target i ∈ L) (hne : i ≠ target i) :
    (allDraining f g target L L).Waits i (target i) where
  draining := by simp [allDraining, hi]
  holds := if_pos hi
  adding := ⟨g i, if_pos hi⟩
  blocked := by
    simp only [allDraining, if_pos htarget]
    exact fun h => hne (LoopThread.loop.inj (Option.some.inj h)).symm

/-- **A cycle of posts is a deadlock that can happen**: all its loops drain at the same moment, and
    each then posts to the next one. -/
theorem deadlock_of_cycle (h : ∃ i, TransGen P.Posts i i) :
    ∃ ls s os, (eventLoops P).run (initial ι φ) ls = some (s, os) ∧ s.Deadlock := by
  obtain ⟨L, hne, hnodup, hL⟩ := exists_cycle_iff.mp h
  obtain ⟨i₀, hi₀⟩ := List.exists_mem_of_ne_nil L hne
  obtain ⟨-, -, -, f₀, -⟩ := hL i₀ hi₀
  have : Nonempty ι := ⟨i₀⟩
  have : Nonempty φ := ⟨f₀⟩
  choose! target htarget hother f g hf hcalls hg using hL
  obtain ⟨ls₁, os₁, h₁⟩ := run_occupyAll (P := P) f g target hnodup hf
  obtain ⟨ls₂, os₂, h₂⟩ := run_postAll (P := P) f g target hnodup
    (fun _ hi => hi) (fun i hi => ⟨hother i hi, hcalls i hi, hg i hi⟩)
  refine ⟨ls₁ ++ ls₂, allDraining f g target L L, os₁ ++ os₂,
    Machine.run_append_iff.mpr ⟨_, os₁, os₂, h₁, h₂, rfl⟩, ?_⟩
  exact exists_cycle_of_points hne fun i hi =>
    ⟨target i, htarget i hi, waits_allDraining hi (htarget i hi) (hother i hi)⟩

/-- **Deadlocks of loops that post to each other.** No run reaches a cycle of loops, each in
    `runAllFunctionInLoop` and waiting in `addFunInLoop` for the next one, exactly when there is no
    cycle of loops each of which has a function that may post to the next one. -/
theorem deadlockFree_iff (P : LoopProgram ι φ) :
    (∀ ls s os, (eventLoops P).run (initial ι φ) ls = some (s, os) → ¬ s.Deadlock) ↔
      ¬ ∃ i, TransGen P.Posts i i := by
  constructor
  · intro hfree hcycle
    obtain ⟨ls, s, os, hrun, hdead⟩ := deadlock_of_cycle hcycle
    exact hfree ls s os hrun hdead
  · rintro hacyclic ls s os hrun ⟨i, hi⟩
    have hposts : ∀ i j, s.Waits i j → P.Posts i j := fun _ _ hw => hw.posts (follows_of_run hrun)
    exact hacyclic ⟨i, TransGen.mono hposts _ _ hi⟩

/-- One function, which may be given to each loop and may give itself to each. -/
def selfPosting : LoopProgram Bool Unit := ⟨fun _ _ => true, fun _ _ _ => true⟩

/-- Two loops get the function from a third thread and drain at the same moment. On each it posts
    to the other one, whose mutex is held until it is through. -/
theorem two_loops_wait_for_each_other :
    ¬ ∀ ls s os, (eventLoops selfPosting).run (initial Bool Unit) ls = some (s, os) →
      ¬ s.Deadlock := by
  intro h
  refine h [.runInLoop (.other 0) false (), .lock (.other 0), .pushBack (.other 0),
    .runInLoop (.other 0) true (), .lock (.other 0), .pushBack (.other 0),
    .runAllFunctionInLoop false, .runAllFunctionInLoop true, .next false, .next true,
    .runInLoop (.loop false) true (), .runInLoop (.loop true) false ()] _ _ rfl ⟨false, ?_⟩
  exact .head (b := true) ⟨by decide, rfl, ⟨(), rfl⟩, by decide⟩
    (.single ⟨by decide, rfl, ⟨(), rfl⟩, by decide⟩)

end LoopsState

end PluginsEngine
