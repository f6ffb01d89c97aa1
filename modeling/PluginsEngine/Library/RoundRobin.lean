/-
  File:      PluginsEngine/Library/RoundRobin.lean
  Subject:   TAKING TURNS. Names nothing of the repository.

  The members of a group stand in a queue. A turn is given to the first of them, who then goes to
  the end.

  * `turns` -- who has the next `k` turns;
  * `turns_append`, `turns_round`, `turns_of_le` -- a whole round, and a part of one;
  * `turns_fair` -- two members' numbers of turns never differ by more than one.
-/
import Mathlib.Data.List.Rotate

namespace PluginsEngine.Library

variable {α : Type}

/-- Who has the next `k` turns, in order. -/
def turns : Nat → List α → List α
  | 0, _ => []
  | _ + 1, [] => []
  | k + 1, x :: xs => x :: turns k (xs ++ [x])

theorem turns_append (xs ys : List α) (k : Nat) :
    turns (xs.length + k) (xs ++ ys) = xs ++ turns k (ys ++ xs) := by
  induction xs generalizing ys with
  | nil => rw [List.length_nil, Nat.zero_add, List.nil_append, List.nil_append, List.append_nil]
  | cons x xs ih =>
    have hlen : (x :: xs).length + k = xs.length + k + 1 := by
      rw [List.length_cons]
      omega
    rw [hlen, List.cons_append, turns, List.append_assoc, ih, List.append_assoc,
      List.singleton_append, List.cons_append]

/-- **A round** gives everybody one turn and leaves the queue as it was. -/
theorem turns_round (xs : List α) (k : Nat) : turns (xs.length + k) xs = xs ++ turns k xs := by
  have h := turns_append xs [] k
  rw [List.append_nil, List.nil_append] at h
  exact h

theorem turns_of_le {xs : List α} {k : Nat} (h : k ≤ xs.length) : turns k xs = xs.take k := by
  have hk : (xs.take k).length + 0 = k := by
    rw [List.length_take]
    omega
  have hturns := turns_append (xs.take k) (xs.drop k) 0
  rw [List.take_append_drop, hk] at hturns
  rw [hturns]
  exact List.append_nil _

/-- A turn, for a queue that is given as a rotation. -/
theorem turns_succ {xs : List α} {x : α} (k : Nat) (h : xs.head? = some x) :
    turns (k + 1) xs = x :: turns k (xs.rotate 1) := by
  cases xs with
  | nil => cases h
  | cons y xs =>
    cases h
    rw [turns, List.rotate_cons_succ, List.rotate_zero]

/-- **Turns are fair**: after any number of them, no member has had two more than another. -/
theorem turns_fair [DecidableEq α] {xs : List α} (hxs : xs.Nodup) {a b : α} (hb : b ∈ xs)
    (k : Nat) : (turns k xs).count a ≤ (turns k xs).count b + 1 := by
  -- rounds are taken off until less than a round is left
  induction k using Nat.strongRecOn with
  | ind k ih =>
    rcases Nat.lt_or_ge k xs.length with hk | hk
    · rw [turns_of_le (Nat.le_of_lt hk)]
      have ha : (xs.take k).count a ≤ 1 :=
        List.nodup_iff_count_le_one.mp (hxs.sublist (List.take_sublist k xs)) a
      omega
    · obtain ⟨j, rfl⟩ := Nat.exists_eq_add_of_le hk
      have hpos : 0 < xs.length := List.length_pos_of_mem hb
      have hj := ih j (by omega)
      have hcount : xs.count a ≤ xs.count b := by
        rw [List.count_eq_one_of_mem hxs hb]
        exact List.nodup_iff_count_le_one.mp hxs a
      rw [turns_round, List.count_append, List.count_append]
      omega

end PluginsEngine.Library
