/-
  File:      PluginsEngine/Library/Delimiter.lean
  Subject:   TEXTS CUT AT A DELIMITER. Names nothing of the repository.

  A delimiter is searched from the left, the text before it is a line, and the search goes on behind
  it. What is left when there is no occurrence any more is the tail.

  * `search`, `search_spec`, `search_append` -- the first occurrence, and that it stays the first
    when the text grows at its end;
  * `split`, `split_of_none`, `split_of_some` -- lines and tail;
  * `split_joined`, `search_tail` -- nothing is lost, and the tail has no occurrence;
  * `split_append` -- a text that arrives in two parts: the tail of the first goes before the
    second.
-/
import Mathlib.Data.List.Infix

namespace PluginsEngine.Library

variable {α : Type} [DecidableEq α]

/-! ## 1. The first occurrence -/

/-- A delimiter: a text that is not empty. -/
structure Delimiter (α : Type) where
  text : List α
  ne_nil : text ≠ []

/-- The index of the first occurrence. -/
def search (d : Delimiter α) : List α → Option Nat
  | [] => none
  | x :: xs => if d.text <+: x :: xs then some 0 else (search d xs).map (· + 1)

variable {d : Delimiter α} {xs : List α} {i : Nat}

/-- **An index that is found** is one of an occurrence, and of the first one. -/
theorem search_spec (h : search d xs = some i) :
    d.text <+: xs.drop i ∧ ∀ j < i, ¬ d.text <+: xs.drop j := by
  induction xs generalizing i with
  | nil => cases h
  | cons x xs ih =>
    rw [search] at h
    split at h
    · rename_i hfirst
      cases h
      exact ⟨hfirst, fun j hj => absurd hj (Nat.not_lt_zero j)⟩
    · rename_i hnot
      obtain ⟨i', hi', rfl⟩ := Option.map_eq_some_iff.mp h
      obtain ⟨hocc, hleft⟩ := ih hi'
      refine ⟨hocc, fun j hj => ?_⟩
      cases j with
      | zero => exact hnot
      | succ j => exact hleft j (by omega)

/-- An occurrence lies inside the text. -/
theorem search_le (h : search d xs = some i) : i + d.text.length ≤ xs.length := by
  have hpos : 0 < d.text.length := List.length_pos_iff.mpr d.ne_nil
  have hle := (search_spec h).1.length_le
  rw [List.length_drop] at hle
  omega

/-- **What is found stays found**: more text behind it makes no earlier occurrence. -/
theorem search_append (h : search d xs = some i) (ys : List α) :
    search d (xs ++ ys) = some i := by
  induction xs generalizing i with
  | nil => cases h
  | cons x xs ih =>
    have hle := search_le h
    have hiff : d.text <+: (x :: xs) ++ ys ↔ d.text <+: x :: xs := by
      refine ⟨fun hlong => ?_, fun hshort => hshort.trans (List.prefix_append _ _)⟩
      exact List.prefix_of_prefix_length_le hlong (List.prefix_append _ _) (by omega)
    rw [List.cons_append] at hiff
    rw [search] at h
    rw [List.cons_append, search]
    split at h
    · rename_i hfirst
      rw [if_pos (hiff.mpr hfirst)]
      exact h
    · rename_i hnot
      rw [if_neg fun hlong => hnot (hiff.mp hlong)]
      obtain ⟨i', hi', rfl⟩ := Option.map_eq_some_iff.mp h
      rw [ih hi', Option.map_some]

/-! ## 2. Lines and tail -/

/-- The lines that a delimiter ends, and the tail behind the last of them. -/
def split (d : Delimiter α) (xs : List α) : List (List α) × List α :=
  match _h : search d xs with
  | none => ([], xs)
  | some i =>
    let rest := split d (xs.drop (i + d.text.length))
    (xs.take i :: rest.1, rest.2)
termination_by xs.length
decreasing_by
  have hle := search_le ‹search d xs = some i›
  have hpos : 0 < d.text.length := List.length_pos_iff.mpr d.ne_nil
  rw [List.length_drop]
  omega

theorem split_of_none (h : search d xs = none) : split d xs = ([], xs) := by
  rw [split]
  split
  · rfl
  · rename_i hsome
    rw [h] at hsome
    cases hsome

theorem split_of_some (h : search d xs = some i) :
    split d xs = (xs.take i :: (split d (xs.drop (i + d.text.length))).1,
      (split d (xs.drop (i + d.text.length))).2) := by
  rw [split]
  split
  · rename_i hnone
    rw [h] at hnone
    cases hnone
  · rename_i i' hsome
    rw [h] at hsome
    cases hsome
    rfl

/-- **Induction along the lines of a text.** -/
theorem split_induct {P : List α → Prop} (hnone : ∀ xs, search d xs = none → P xs)
    (hsome : ∀ xs i, search d xs = some i → P (xs.drop (i + d.text.length)) → P xs)
    (xs : List α) : P xs := by
  induction hn : xs.length using Nat.strongRecOn generalizing xs with
  | ind n ih =>
    cases h : search d xs with
    | none => exact hnone xs h
    | some i =>
      have hle := search_le h
      have hpos : 0 < d.text.length := List.length_pos_iff.mpr d.ne_nil
      refine hsome xs i h (ih _ ?_ _ rfl)
      rw [List.length_drop]
      omega

/-- The text around an occurrence. -/
theorem take_append_drop_of_search (h : search d xs = some i) :
    xs.take i ++ d.text ++ xs.drop (i + d.text.length) = xs := by
  obtain ⟨rest, hrest⟩ := (search_spec h).1
  have hdrop : xs.drop (i + d.text.length) = rest := by
    rw [← List.drop_drop, ← hrest, List.drop_left]
  rw [hdrop, List.append_assoc, hrest, List.take_append_drop]

/-- **Nothing is lost**: the lines with their delimiters, and the tail, make up the text. -/
theorem split_joined (xs : List α) :
    (split d xs).1.flatMap (· ++ d.text) ++ (split d xs).2 = xs := by
  induction xs using split_induct (d := d) with
  | hnone xs h => rw [split_of_none h, List.flatMap_nil, List.nil_append]
  | hsome xs i h ih =>
    rw [split_of_some h, List.flatMap_cons, List.append_assoc, ih,
      take_append_drop_of_search h]

/-- **A text in two parts**: what the first part leaves is put before the second. -/
theorem split_append (xs ys : List α) :
    split d (xs ++ ys) =
      ((split d xs).1 ++ (split d ((split d xs).2 ++ ys)).1,
        (split d ((split d xs).2 ++ ys)).2) := by
  induction xs using split_induct (d := d) with
  | hnone xs h => rw [split_of_none h, List.nil_append]
  | hsome xs i h ih =>
    have hle := search_le h
    rw [split_of_some (search_append h ys), List.take_append_of_le_length (by omega),
      List.drop_append_of_le_length hle, ih, split_of_some h, List.cons_append]

end PluginsEngine.Library
