/-
  File:      PluginsEngine/Library/Runs.lean
  Subject:   GUARDED EXECUTABLE MACHINES AND THEIR RUNS. Names nothing of the repository.

  A `Machine` is a partial step function: `step s l = some (s', o)` says that label `l` is
  allowed in state `s`, leads to `s'` and shows `o` to the outside; `none` says it is not allowed.
  Everything the environment decides (an argument, a clock reading, the answer of a system call)
  stands in the label, so a run is a list of labels and is replayed by evaluation.

  * `run`, `run_cons_iff`, `run_append_iff` -- runs, taken apart at the front and in the middle;
  * `run_induct`, `run_invariant` -- what holds at the start and over one step holds of every run;
  * `Along`, `along_of_invariant`, `along_iff` -- a property of every single step a run takes, and
    the rule that settles "every step is good exactly when every step meets a condition";
  * `along_last` -- the last step of a run, for a run that fails there;
  * `run_cost_le`, `run_length_le` -- what the steps of a run cost is bounded by a measure they use
    up; so is the length of a run whose every step makes it smaller;
  * `run_induct_along` -- the induction over runs all of whose steps meet a condition;
  * `along_of_not_spoilt` -- what breaks a condition shows at the end of the run;
  * `Refinement`, `Refinement.run` -- a machine that is simulated through an abstraction function
    shows the outputs of the abstract machine, over whole runs;
  * `Simulation`, `Simulation.run` -- the same where some steps are none of the abstract machine;
  * `withHistory`, `withHistory_step_iff`, `withHistory_run_iff` -- a machine with a history
    variable, which every step writes and none reads: its runs are those of the machine;
  * `restrict` -- a machine that takes only the steps its environment allows.
-/
import Mathlib.Algebra.GroupWithZero.Nat
import Mathlib.Data.List.Induction
import Mathlib.Data.List.ReduceOption

namespace PluginsEngine.Library

/-- A guarded, executable machine with states `σ`, labels `ℓ` and outputs `ω`. -/
structure Machine (σ ℓ ω : Type) where
  step : σ → ℓ → Option (σ × ω)

namespace Machine

variable {σ ℓ ω : Type}

/-! ## 1. Runs -/

/-- The run of a list of labels: the last state and the outputs in order; `none` as soon as a
    label is not allowed. -/
def run (M : Machine σ ℓ ω) : σ → List ℓ → Option (σ × List ω)
  | s, [] => some (s, [])
  | s, l :: ls =>
    match M.step s l with
    | none => none
    | some (s', o) =>
      match M.run s' ls with
      | none => none
      | some (s'', os) => some (s'', o :: os)

variable {M : Machine σ ℓ ω}

@[simp] theorem run_nil (s : σ) : M.run s [] = some (s, []) := rfl

theorem run_cons_iff {s t : σ} {l : ℓ} {ls : List ℓ} {os : List ω} :
    M.run s (l :: ls) = some (t, os) ↔
      ∃ s' o os', M.step s l = some (s', o) ∧ M.run s' ls = some (t, os') ∧ os = o :: os' := by
  constructor
  · intro h
    unfold run at h
    split at h
    · cases h
    · rename_i s' o hs
      split at h
      · cases h
      · rename_i s'' os' hr
        cases h
        exact ⟨s', o, os', hs, hr, rfl⟩
  · rintro ⟨s', o, os', hs, hr, rfl⟩
    simp only [run, hs, hr]

theorem run_append_iff {ls₁ ls₂ : List ℓ} {s t : σ} {os : List ω} :
    M.run s (ls₁ ++ ls₂) = some (t, os) ↔
      ∃ m os₁ os₂, M.run s ls₁ = some (m, os₁) ∧ M.run m ls₂ = some (t, os₂) ∧
        os = os₁ ++ os₂ := by
  induction ls₁ generalizing s os with
  | nil =>
    constructor
    · intro h
      exact ⟨s, [], os, rfl, h, rfl⟩
    · rintro ⟨m, os₁, os₂, h₁, h₂, rfl⟩
      cases h₁
      exact h₂
  | cons l ls ih =>
    rw [List.cons_append, run_cons_iff]
    constructor
    · rintro ⟨s', o, os', hs, hr, rfl⟩
      obtain ⟨m, os₁, os₂, h₁, h₂, rfl⟩ := ih.mp hr
      exact ⟨m, o :: os₁, os₂, run_cons_iff.mpr ⟨s', o, os₁, hs, h₁, rfl⟩, h₂, rfl⟩
    · rintro ⟨m, os₁, os₂, h₁, h₂, rfl⟩
      obtain ⟨s', o, os', hs, hr, rfl⟩ := run_cons_iff.mp h₁
      exact ⟨s', o, os' ++ os₂, hs, ih.mpr ⟨m, os', os₂, hr, h₂, rfl⟩, rfl⟩

/-- **Induction over a run**: a property of the labels taken, the outputs shown and the state
    reached holds of every run once it holds of the empty one and one more step keeps it. -/
theorem run_induct {P : List ℓ → List ω → σ → Prop} {s₀ : σ} (h₀ : P [] [] s₀)
    (hstep : ∀ ls os s l s' o, P ls os s → M.step s l = some (s', o) →
      P (ls ++ [l]) (os ++ [o]) s') :
    ∀ {ls : List ℓ} {t : σ} {os : List ω}, M.run s₀ ls = some (t, os) → P ls os t := by
  intro ls
  -- the run is read from its end: a run of `ls ++ [l]` is a run of `ls` and one step
  induction ls using List.reverseRecOn with
  | nil =>
    intro t os h
    cases h
    exact h₀
  | append_singleton ls l ih =>
    intro t os h
    obtain ⟨m, os₁, os₂, h₁, h₂, rfl⟩ := run_append_iff.mp h
    obtain ⟨s', o, os', hs, hr, rfl⟩ := run_cons_iff.mp h₂
    cases hr
    exact hstep _ _ _ _ _ _ (ih h₁) hs

/-- **The invariant rule**: what one step keeps holds in every state a run reaches. -/
theorem run_invariant {I : σ → Prop}
    (hstep : ∀ s l s' o, I s → M.step s l = some (s', o) → I s') {s t : σ} {ls : List ℓ}
    {os : List ω} (h₀ : I s) (h : M.run s ls = some (t, os)) : I t :=
  run_induct (P := fun _ _ s => I s) h₀ (fun _ _ s l s' o hI hs => hstep s l s' o hI hs) h

/-! ## 2. Properties of the steps of a run -/

/-- Every step the run of `ls` takes from `s` satisfies `Q` (state before, label, state after,
    output). -/
def Along (M : Machine σ ℓ ω) (Q : σ → ℓ → σ → ω → Prop) : σ → List ℓ → Prop
  | _, [] => True
  | s, l :: ls => ∀ s' o, M.step s l = some (s', o) → Q s l s' o ∧ M.Along Q s' ls

theorem along_cons {Q : σ → ℓ → σ → ω → Prop} {s s' : σ} {l : ℓ} {ls : List ℓ} {o : ω}
    (h : M.Along Q s (l :: ls)) (hs : M.step s l = some (s', o)) :
    Q s l s' o ∧ M.Along Q s' ls :=
  h s' o hs

/-- Whether every step of a run satisfies a decidable `Q` is decided by replaying the run. -/
instance decidableAlong (M : Machine σ ℓ ω) (Q : σ → ℓ → σ → ω → Prop)
    [∀ s l s' o, Decidable (Q s l s' o)] : ∀ s ls, Decidable (M.Along Q s ls)
  | _, [] => isTrue trivial
  | s, l :: ls =>
    match hs : M.step s l with
    | none => isTrue fun s' o hs' => by
        rw [hs] at hs'
        cases hs'
    | some (s', o) =>
      have : Decidable (M.Along Q s' ls) := decidableAlong M Q s' ls
      decidable_of_iff (Q s l s' o ∧ M.Along Q s' ls)
        ⟨fun h s'' o' hs' => by
          rw [hs] at hs'
          cases hs'
          exact h, fun h => along_cons h hs⟩

/-- What an invariant gives of each step holds along every run. -/
theorem along_of_invariant {I : σ → Prop} {Q : σ → ℓ → σ → ω → Prop}
    (hstep : ∀ s l s' o, I s → M.step s l = some (s', o) → I s' ∧ Q s l s' o)
    {ls : List ℓ} {s : σ} (hI : I s) : M.Along Q s ls := by
  induction ls generalizing s with
  | nil => trivial
  | cons l ls ih =>
    intro s' o hs
    obtain ⟨hI', hQ⟩ := hstep s l s' o hI hs
    exact ⟨hQ, ih hI'⟩

/-- Under an invariant that good steps keep, a property of good steps holds along every run of
    good steps. -/
theorem along_mono {I : σ → Prop} {ok Q : σ → ℓ → σ → ω → Prop}
    (hstep : ∀ s l s' o, I s → M.step s l = some (s', o) → ok s l s' o → I s' ∧ Q s l s' o)
    {ls : List ℓ} {s : σ} (hI : I s) (h : M.Along ok s ls) : M.Along Q s ls := by
  induction ls generalizing s with
  | nil => trivial
  | cons l ls ih =>
    intro s' o hs
    obtain ⟨hok, hrest⟩ := along_cons h hs
    obtain ⟨hI', hQ⟩ := hstep s l s' o hI hs hok
    exact ⟨hQ, ih hI' hrest⟩

/-- **Every step is good exactly when every step meets the condition**: settled by one step, once
    the condition also keeps the invariant. -/
theorem along_iff {I : σ → Prop} {ok Q : σ → ℓ → σ → ω → Prop}
    (hstep : ∀ s l s' o, I s → M.step s l = some (s', o) →
      (Q s l s' o ↔ ok s l s' o) ∧ (ok s l s' o → I s'))
    {ls : List ℓ} {s : σ} (hI : I s) : M.Along Q s ls ↔ M.Along ok s ls := by
  constructor
  · exact along_mono (fun s l s' o hI hs hQ =>
      have hok := (hstep s l s' o hI hs).1.mp hQ
      ⟨(hstep s l s' o hI hs).2 hok, hok⟩) hI
  · exact along_mono (fun s l s' o hI hs hok =>
      ⟨(hstep s l s' o hI hs).2 hok, (hstep s l s' o hI hs).1.mpr hok⟩) hI

/-- A condition that holds along a run holds along its two halves. -/
theorem along_append {Q : σ → ℓ → σ → ω → Prop} {ls₁ ls₂ : List ℓ} {s m : σ} {os : List ω}
    (hA : M.Along Q s (ls₁ ++ ls₂)) (h : M.run s ls₁ = some (m, os)) :
    M.Along Q s ls₁ ∧ M.Along Q m ls₂ := by
  induction ls₁ generalizing s os with
  | nil =>
    cases h
    exact ⟨trivial, hA⟩
  | cons l ls₁ ih =>
    obtain ⟨s', o, os', hs, hr, rfl⟩ := run_cons_iff.mp h
    obtain ⟨hQ, hrest⟩ := along_cons hA hs
    obtain ⟨h₁, h₂⟩ := ih hrest hr
    refine ⟨fun s'' o' hs' => ?_, h₂⟩
    rw [hs] at hs'
    cases hs'
    exact ⟨hQ, h₁⟩

/-- The last step of a run, and what a property of all steps says of it. -/
theorem along_last {Q : σ → ℓ → σ → ω → Prop} {ls : List ℓ} {l : ℓ} {s t : σ} {os : List ω}
    (hA : M.Along Q s (ls ++ [l])) (h : M.run s (ls ++ [l]) = some (t, os)) :
    ∃ m os' o, M.run s ls = some (m, os') ∧ M.step m l = some (t, o) ∧ Q m l t o := by
  obtain ⟨m, os₁, os₂, h₁, h₂, -⟩ := run_append_iff.mp h
  obtain ⟨s', o, os', hs, hr, -⟩ := run_cons_iff.mp h₂
  cases hr
  exact ⟨m, os₁, o, h₁, hs, (along_cons (along_append hA h₁).2 hs).1⟩

/-- **Induction over a run all of whose steps meet a condition.** -/
theorem run_induct_along {P : List ℓ → List ω → σ → Prop} {ok : σ → ℓ → σ → ω → Prop} {s₀ : σ}
    (h₀ : P [] [] s₀)
    (hstep : ∀ ls os s l s' o, M.run s₀ ls = some (s, os) → P ls os s →
      M.step s l = some (s', o) → ok s l s' o → P (ls ++ [l]) (os ++ [o]) s')
    {ls : List ℓ} {t : σ} {os : List ω} (hok : M.Along ok s₀ ls)
    (h : M.run s₀ ls = some (t, os)) : P ls os t := by
  induction ls using List.reverseRecOn generalizing t os with
  | nil =>
    cases h
    exact h₀
  | append_singleton ls l ih =>
    obtain ⟨m, os₁, os₂, h₁, h₂, rfl⟩ := run_append_iff.mp h
    obtain ⟨s', o, os', hs, hr, rfl⟩ := run_cons_iff.mp h₂
    cases hr
    obtain ⟨hok₁, hok₂⟩ := along_append hok h₁
    exact hstep _ _ _ _ _ _ h₁ (ih hok₁ h₁) hs (along_cons hok₂ hs).1

/-- What good steps do not mend lasts to the end of a run of good steps. -/
theorem run_lasting {I S : σ → Prop} {Q : σ → ℓ → σ → ω → Prop}
    (hstep : ∀ s l s' o, I s → M.step s l = some (s', o) → Q s l s' o →
      I s' ∧ (S s → S s')) {ls : List ℓ} {s t : σ} {os : List ω} (hI : I s)
    (hA : M.Along Q s ls) (h : M.run s ls = some (t, os)) (hs : S s) : S t := by
  induction ls generalizing s os with
  | nil =>
    cases h
    exact hs
  | cons l ls ih =>
    obtain ⟨s', o, os', hstep', hr, -⟩ := run_cons_iff.mp h
    obtain ⟨hQ, hrest⟩ := along_cons hA hstep'
    obtain ⟨hI', hkeep⟩ := hstep s l s' o hI hstep' hQ
    exact ih hI' hrest hr (hkeep hs)

/-- **A run that does not end spoilt has met the condition**, where a step that breaks it leaves a
    state that no good step mends. -/
theorem along_of_not_spoilt {I S : σ → Prop} {ok Q : σ → ℓ → σ → ω → Prop}
    (hstep : ∀ s l s' o, I s → M.step s l = some (s', o) → Q s l s' o →
      I s' ∧ (S s → S s') ∧ (ok s l s' o ∨ S s')) {ls : List ℓ} {s t : σ}
    {os : List ω} (hI : I s) (hA : M.Along Q s ls) (h : M.run s ls = some (t, os))
    (ht : ¬ S t) : M.Along ok s ls := by
  induction ls generalizing s os with
  | nil => trivial
  | cons l ls ih =>
    obtain ⟨m, o, os', hm, hr, -⟩ := run_cons_iff.mp h
    obtain ⟨hQ, hrest⟩ := along_cons hA hm
    obtain ⟨hI', -, hok⟩ := hstep s l m o hI hm hQ
    intro s' o' hs'
    rw [hm] at hs'
    cases hs'
    refine ⟨hok.resolve_right fun hspoilt => ht ?_, ih hI' hrest hr⟩
    exact run_lasting (fun s l s' o hI hs hQ => ⟨(hstep s l s' o hI hs hQ).1,
      (hstep s l s' o hI hs hQ).2.1⟩) hI' hrest hr hspoilt

/-- **What the steps of a run cost is bounded** by what there is at the beginning and by what the
    steps of the environment add. -/
theorem run_cost_le {I : σ → Prop} {m : σ → Nat} {cost credit : ℓ → Nat}
    (hstep : ∀ s l s' o, I s → M.step s l = some (s', o) →
      I s' ∧ m s' + cost l ≤ m s + credit l) {ls : List ℓ} {s t : σ} {os : List ω}
    (hI : I s) (h : M.run s ls = some (t, os)) :
    m t + (ls.map cost).sum ≤ m s + (ls.map credit).sum := by
  induction ls generalizing s os with
  | nil =>
    cases h
    exact Nat.le_refl _
  | cons l ls ih =>
    obtain ⟨s', o, os', hs, hr, -⟩ := run_cons_iff.mp h
    obtain ⟨hI', hle⟩ := hstep s l s' o hI hs
    have hrest := ih hI' hr
    rw [List.map_cons, List.map_cons, List.sum_cons, List.sum_cons]
    omega

/-- **A measure that every step makes smaller bounds the length of runs.** -/
theorem run_length_le {I : σ → Prop} {m : σ → Nat}
    (hstep : ∀ s l s' o, I s → M.step s l = some (s', o) → I s' ∧ m s' < m s) {ls : List ℓ}
    {s t : σ} {os : List ω} (hI : I s) (h : M.run s ls = some (t, os)) :
    m t + ls.length ≤ m s := by
  have hle : m t + (ls.map fun _ => 1).sum ≤ m s + (ls.map fun _ => 0).sum :=
    run_cost_le (fun s l s' o hI hs => hstep s l s' o hI hs) hI h
  rw [List.map_const', List.map_const', List.sum_replicate_nat, List.sum_replicate_nat] at hle
  omega

end Machine

/-! ## 3. Refinement -/

/-- **A refinement** of the machine `A` by the machine `C`: under the invariant `inv`, each step
    of `C` is, through the abstraction `abs`, the step of `A` with the label `label s l`, and
    shows the same output. -/
structure Refinement {σ α ℓ κ ω : Type} (C : Machine σ ℓ ω) (A : Machine α κ ω) where
  inv : σ → Prop
  abs : σ → α
  label : σ → ℓ → κ
  step : ∀ {s : σ} {l : ℓ} {s' : σ} {o : ω}, inv s → C.step s l = some (s', o) →
    inv s' ∧ A.step (abs s) (label s l) = some (abs s', o)

namespace Refinement

variable {σ α ℓ κ ω : Type} {C : Machine σ ℓ ω} {A : Machine α κ ω}

/-- The abstract labels of a concrete run. -/
def labels (R : Refinement C A) : σ → List ℓ → List κ
  | _, [] => []
  | s, l :: ls =>
    R.label s l ::
      match C.step s l with
      | none => []
      | some (s', _) => R.labels s' ls

/-- **A refinement lifts to runs**: the abstract machine takes the abstract labels, ends in the
    abstraction of the concrete end state and shows the same outputs. -/
theorem run (R : Refinement C A) {ls : List ℓ} {s t : σ} {os : List ω} (hI : R.inv s)
    (h : C.run s ls = some (t, os)) :
    R.inv t ∧ A.run (R.abs s) (R.labels s ls) = some (R.abs t, os) := by
  induction ls generalizing s os with
  | nil =>
    cases h
    exact ⟨hI, rfl⟩
  | cons l ls ih =>
    obtain ⟨s', o, os', hs, hr, rfl⟩ := Machine.run_cons_iff.mp h
    obtain ⟨hI', ha⟩ := R.step hI hs
    obtain ⟨hIt, hrun⟩ := ih hI' hr
    refine ⟨hIt, Machine.run_cons_iff.mpr ⟨R.abs s', o, os', ha, ?_, rfl⟩⟩
    simpa only [hs] using hrun

end Refinement

/-- **A simulation** of `C` by `A` in which a step of `C` may be none of `A`: then it shows nothing
    and the abstraction of the state stays. -/
structure Simulation {σ α ℓ κ ω : Type} (C : Machine σ ℓ (Option ω))
    (A : Machine α κ (Option ω)) where
  inv : σ → Prop
  abs : σ → α
  step : ∀ {s : σ} {l : ℓ} {s' : σ} {o : Option ω}, inv s → C.step s l = some (s', o) →
    inv s' ∧ ((∃ k, A.step (abs s) k = some (abs s', o)) ∨ (abs s' = abs s ∧ o = none))

/-- **A simulation lifts to runs**: the abstract machine has a run that ends in the abstraction of
    the concrete end state and shows the same, in the same order. -/
theorem Simulation.run {σ α ℓ κ ω : Type} {C : Machine σ ℓ (Option ω)}
    {A : Machine α κ (Option ω)} (R : Simulation C A) {ls : List ℓ} {s t : σ}
    {os : List (Option ω)} (hI : R.inv s) (h : C.run s ls = some (t, os)) :
    R.inv t ∧ ∃ ks os', A.run (R.abs s) ks = some (R.abs t, os') ∧
      os'.reduceOption = os.reduceOption := by
  induction ls generalizing s os with
  | nil =>
    cases h
    exact ⟨hI, [], [], rfl, rfl⟩
  | cons l ls ih =>
    obtain ⟨s', o, os', hs, hr, rfl⟩ := Machine.run_cons_iff.mp h
    obtain ⟨hI', habs⟩ := R.step hI hs
    obtain ⟨hIt, ks, shown, hrun, hshown⟩ := ih hI' hr
    refine ⟨hIt, ?_⟩
    rcases habs with ⟨k, hk⟩ | ⟨hsame, rfl⟩
    · refine ⟨k :: ks, o :: shown, Machine.run_cons_iff.mpr ⟨_, _, _, hk, hrun, rfl⟩, ?_⟩
      rw [List.reduceOption, List.filterMap_cons, List.filterMap_cons]
      cases o with
      | none => exact hshown
      | some x => exact congrArg (x :: ·) hshown
    · rw [hsame] at hrun
      exact ⟨ks, shown, hrun, hshown⟩

/-! ## 4. History variables and restricted machines -/

namespace Machine

variable {σ ℓ ω γ : Type}

/-- The machine `M` with a history variable. `record s l o g` is the history after the step with
    label `l` from `s` that showed `o`, when it was `g` before. -/
def withHistory (M : Machine σ ℓ ω) (record : σ → ℓ → ω → γ → γ) : Machine (σ × γ) ℓ ω where
  step s l :=
    match M.step s.1 l with
    | none => none
    | some (s', o) => some ((s', record s.1 l o s.2), o)

variable {M : Machine σ ℓ ω} {record : σ → ℓ → ω → γ → γ}

theorem withHistory_step_iff {s s' : σ × γ} {l : ℓ} {o : ω} :
    (M.withHistory record).step s l = some (s', o) ↔
      M.step s.1 l = some (s'.1, o) ∧ s'.2 = record s.1 l o s.2 := by
  obtain ⟨t, g⟩ := s'
  simp only [withHistory]
  cases hs : M.step s.1 l with
  | none => exact ⟨nofun, fun h => absurd h.1 nofun⟩
  | some p =>
    constructor
    · intro h
      cases h
      exact ⟨rfl, rfl⟩
    · rintro ⟨hp, rfl⟩
      cases hp
      rfl

/-- **The history changes nothing**: with it the machine takes the runs it takes without. -/
theorem withHistory_run_iff {s t : σ} {g : γ} {ls : List ℓ} {os : List ω} :
    (∃ g', (M.withHistory record).run (s, g) ls = some ((t, g'), os)) ↔
      M.run s ls = some (t, os) := by
  induction ls generalizing s g os with
  | nil =>
    constructor
    · rintro ⟨g', h⟩
      cases h
      rfl
    · intro h
      cases h
      exact ⟨g, rfl⟩
  | cons l ls ih =>
    constructor
    · rintro ⟨g', h⟩
      obtain ⟨⟨s', g₁⟩, o, os', hs, hr, rfl⟩ := run_cons_iff.mp h
      exact run_cons_iff.mpr
        ⟨s', o, os', (withHistory_step_iff.mp hs).1, ih.mp ⟨g', hr⟩, rfl⟩
    · intro h
      obtain ⟨s', o, os', hs, hr, rfl⟩ := run_cons_iff.mp h
      obtain ⟨g', hr'⟩ := ih.mpr hr
      exact ⟨g', run_cons_iff.mpr
        ⟨(s', record s l o g), o, os', withHistory_step_iff.mpr ⟨hs, rfl⟩, hr', rfl⟩⟩

/-- The machine `M` in an environment that takes only the steps `allowed` admits. -/
def restrict (M : Machine σ ℓ ω) (allowed : σ → ℓ → Prop) [∀ s l, Decidable (allowed s l)] :
    Machine σ ℓ ω where
  step s l := if allowed s l then M.step s l else none

theorem restrict_step_iff {allowed : σ → ℓ → Prop} [∀ s l, Decidable (allowed s l)] {s s' : σ}
    {l : ℓ} {o : ω} :
    (M.restrict allowed).step s l = some (s', o) ↔
      allowed s l ∧ M.step s l = some (s', o) := by
  simp only [restrict]
  by_cases h : allowed s l
  · rw [if_pos h]
    exact ⟨fun hs => ⟨h, hs⟩, And.right⟩
  · rw [if_neg h]
    exact ⟨nofun, fun hs => absurd hs.1 h⟩

end Machine

end PluginsEngine.Library
