/-
  File:      PluginsEngine/Library/FiniteMap.lean
  Subject:   CHANGING A MAP AT ONE KEY. Names nothing of the repository.

  `insert` of the C++ maps keeps an entry that is there already; Mathlib's `Finmap.insert`
  replaces it. `insertNew` is the former over the latter. `of_update` is for total maps, such as
  the one from threads to what each of them is in.
-/
import Mathlib.Data.Finmap
import Mathlib.Logic.Function.Basic

namespace PluginsEngine.Library

variable {κ ν : Type} [DecidableEq κ]

/-- `m` with `v` under `k`, unless `k` has an entry already. -/
def insertNew (k : κ) (v : ν) (m : Finmap fun _ : κ => ν) : Finmap fun _ : κ => ν :=
  if k ∈ m then m else m.insert k v

theorem insertNew_of_mem {k : κ} {v : ν} {m : Finmap fun _ : κ => ν} (h : k ∈ m) :
    insertNew k v m = m :=
  if_pos h

theorem insertNew_of_notMem {k : κ} {v : ν} {m : Finmap fun _ : κ => ν} (h : k ∉ m) :
    insertNew k v m = m.insert k v :=
  if_neg h

theorem mem_insertNew {x k : κ} {v : ν} {m : Finmap fun _ : κ => ν} :
    x ∈ insertNew k v m ↔ x = k ∨ x ∈ m := by
  by_cases hm : k ∈ m
  · rw [insertNew_of_mem hm]
    exact ⟨Or.inr, fun h => h.elim (fun heq => heq ▸ hm) id⟩
  · rw [insertNew_of_notMem hm, Finmap.mem_insert]

/-- The entries that are there stay. -/
theorem lookup_insertNew_of_some {x k : κ} {v w : ν} {m : Finmap fun _ : κ => ν}
    (h : m.lookup x = some w) : (insertNew k v m).lookup x = some w := by
  by_cases hm : k ∈ m
  · rw [insertNew_of_mem hm]
    exact h
  · have hne : x ≠ k := fun heq => hm (heq ▸ Finmap.mem_of_lookup_eq_some h)
    rw [insertNew_of_notMem hm, Finmap.lookup_insert_of_ne _ hne]
    exact h

/-- What was inserted for the time being is gone with its key. -/
theorem erase_insert_of_notMem {k : κ} {v : ν} {m : Finmap fun _ : κ => ν} (h : k ∉ m) :
    (m.insert k v).erase k = m := by
  refine Finmap.ext_lookup fun x => ?_
  by_cases hx : x = k
  · subst hx
    rw [Finmap.lookup_erase, Finmap.lookup_eq_none.mpr h]
  · rw [Finmap.lookup_erase_ne hx, Finmap.lookup_insert_of_ne m hx]

theorem erase_of_notMem {k : κ} {m : Finmap fun _ : κ => ν} (h : k ∉ m) : m.erase k = m := by
  refine Finmap.ext_lookup fun x => ?_
  by_cases hx : x = k
  · subst hx
    rw [Finmap.lookup_erase, Finmap.lookup_eq_none.mpr h]
  · rw [Finmap.lookup_erase_ne hx]

/-- What holds of an entry of an updated map holds of the new one or of an old one. -/
theorem of_update {p : ν → Prop} {f : κ → ν} {a b : κ} {v : ν} (h : p (Function.update f a v b)) :
    (b = a ∧ p v) ∨ (b ≠ a ∧ p (f b)) := by
  rcases eq_or_ne b a with rfl | hne
  · rw [Function.update_self] at h
    exact .inl ⟨rfl, h⟩
  · rw [Function.update_of_ne hne] at h
    exact .inr ⟨hne, h⟩

theorem update_cases {f : κ → ν} {a b : κ} {v w : ν} (h : Function.update f a v b = w) :
    (b = a ∧ v = w) ∨ (b ≠ a ∧ f b = w) :=
  of_update (p := fun x => x = w) h

end PluginsEngine.Library
