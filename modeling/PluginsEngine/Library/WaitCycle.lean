/-
  File:      PluginsEngine/Library/WaitCycle.lean
  Subject:   CYCLES OF A RELATION. Names nothing of the repository.

  A deadlock is a cycle of the relation "waits for". Rather than by its edges in order, a cycle is
  handled as a finite set of points each of which has a successor in the set: one can go through
  such a set point by point, and a change that keeps every edge inside it keeps the cycle.

  * `exists_cycle_iff` -- a relation has a cycle exactly when it has such a set;
  * `cycle_of_edges` -- edges that go on keep a cycle.
-/
import Mathlib.Data.Fintype.Card
import Mathlib.Data.Fintype.EquivFin
import Mathlib.Data.Fintype.Sets
import Mathlib.Logic.Relation

namespace PluginsEngine.Library

open Relation

variable {α : Type} {r r' : α → α → Prop}

/-- The points of a path: each but the last has a successor among them. -/
theorem exists_points_of_path {a b : α} (h : TransGen r a b) :
    ∃ L : List α, a ∈ L ∧ b ∈ L ∧ (∃ y ∈ L, r a y) ∧ ∀ x ∈ L, x = b ∨ ∃ y ∈ L, r x y := by
  induction h using TransGen.head_induction_on with
  | @single a hab =>
    refine ⟨[a, b], by simp, by simp, ⟨b, by simp, hab⟩, fun x hx => ?_⟩
    rcases List.mem_cons.mp hx with rfl | hx
    · exact .inr ⟨b, by simp, hab⟩
    · exact .inl (List.mem_singleton.mp hx)
  | @head a c hac _ ih =>
    obtain ⟨L, hc, hb, -, hL⟩ := ih
    have hout : ∃ y ∈ a :: L, r a y := ⟨c, List.mem_cons_of_mem _ hc, hac⟩
    refine ⟨a :: L, List.mem_cons_self, List.mem_cons_of_mem _ hb, hout, fun x hx => ?_⟩
    rcases List.mem_cons.mp hx with rfl | hx
    · exact .inr hout
    · refine (hL x hx).imp_right ?_
      intro hsucc
      obtain ⟨y, hy, hxy⟩ := hsucc
      exact ⟨y, List.mem_cons_of_mem _ hy, hxy⟩

/-- In a finite set where each point has a successor, some point leads back to itself. -/
theorem exists_cycle_of_points {L : List α} (hne : L ≠ [])
    (hL : ∀ x ∈ L, ∃ y ∈ L, r x y) : ∃ a, TransGen r a a := by
  classical
  by_contra hno
  -- otherwise the paths inside the set are well-founded, and every point leads to a later one
  let after : {x // x ∈ L} → {x // x ∈ L} → Prop := fun y x => TransGen r x.1 y.1
  have : IsTrans _ after := ⟨fun _ _ _ h₁ h₂ => h₂.trans h₁⟩
  have : Std.Irrefl after := ⟨fun x h => hno ⟨x.1, h⟩⟩
  have hwf : WellFounded after := Finite.wellFounded_of_trans_of_irrefl after
  have hempty : ∀ x : {x // x ∈ L}, False := by
    intro x
    induction x using hwf.induction with
    | _ x ih =>
      obtain ⟨y, hy, hxy⟩ := hL x.1 x.2
      exact ih ⟨y, hy⟩ (TransGen.single hxy)
  obtain ⟨x, hx⟩ := List.exists_mem_of_ne_nil L hne
  exact hempty ⟨x, hx⟩

/-- **Cycles, as sets**: a relation has a cycle exactly when each point of some finite set has a
    successor in the set. -/
theorem exists_cycle_iff :
    (∃ a, TransGen r a a) ↔ ∃ L : List α, L ≠ [] ∧ L.Nodup ∧ ∀ x ∈ L, ∃ y ∈ L, r x y := by
  classical
  constructor
  · intro hcycle
    obtain ⟨a, h⟩ := hcycle
    obtain ⟨L, ha, -, hout, hL⟩ := exists_points_of_path h
    refine ⟨L.dedup, List.ne_nil_of_mem (List.mem_dedup.mpr ha), L.nodup_dedup, fun x hx => ?_⟩
    have hx' : ∃ y ∈ L, r x y := by
      rcases hL x (List.mem_dedup.mp hx) with rfl | hx'
      · exact hout
      · exact hx'
    obtain ⟨y, hy, hxy⟩ := hx'
    exact ⟨y, List.mem_dedup.mpr hy, hxy⟩
  · intro hset
    obtain ⟨L, hne, -, hL⟩ := hset
    exact exists_cycle_of_points hne hL

/-- **A cycle outlasts a change** that keeps every edge whose target has an edge of its own. -/
theorem cycle_of_edges (hkeep : ∀ a b c, r a b → r b c → r' a b)
    (h : ∃ a, TransGen r a a) : ∃ a, TransGen r' a a := by
  obtain ⟨L, hne, hnodup, hL⟩ := exists_cycle_iff.mp h
  refine exists_cycle_iff.mpr ⟨L, hne, hnodup, fun x hx => ?_⟩
  obtain ⟨y, hy, hxy⟩ := hL x hx
  obtain ⟨z, -, hyz⟩ := hL y hy
  exact ⟨y, hy, hkeep x y z hxy hyz⟩

end PluginsEngine.Library
