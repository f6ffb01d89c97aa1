/-
  File:      PluginsEngine/Library/Segments.lean
  Subject:   SEGMENTS BETWEEN SEPARATORS. Names nothing of the repository.

  A list is cut at every occurrence of one element, the separator. A SEGMENT is a stretch without
  the separator that cannot be made longer; it is given by its two ends, so that two segments with
  the same elements are two.

  * `Opens`, `IsSegment` -- a stretch that begins as a segment does, and a whole segment;
  * `Found`, `Found.close` -- what a scan from the left has found, and one more segment;
  * `pieces`, `pieces_append_cons` -- split and filter, cut at a separator;
  * `Spaced`, `Spaced.pieces_text` -- parts written out with separators are read back.
-/
import PluginsEngine.Library.Fifo

namespace PluginsEngine.Library

variable {α : Type}

/-! ## 1. Segments by their ends -/

/-- The stretch from `a` up to, not including, `b` is free of the separator and begins where a
    segment does: at the front, or behind a separator. -/
structure Opens (sep : α) (xs : List α) (a b : Nat) : Prop where
  le : a ≤ b
  bound : b ≤ xs.length
  free : ∀ i, a ≤ i → i < b → xs[i]? ≠ some sep
  front : a = 0 ∨ xs[a - 1]? = some sep

/-- **A maximal stretch without the separator.** -/
structure IsSegment (sep : α) (xs : List α) (a b : Nat) : Prop extends Opens sep xs a b where
  behind : b = xs.length ∨ xs[b]? = some sep

section

variable {sep : α} {xs : List α} {a b a' b' : Nat}

theorem opens_front (sep : α) (xs : List α) : Opens sep xs 0 0 where
  le := Nat.le_refl 0
  bound := Nat.zero_le _
  free i _ hi := absurd hi (Nat.not_lt_zero i)
  front := Or.inl rfl

theorem opens_behind (h : xs[b]? = some sep) : Opens sep xs (b + 1) (b + 1) where
  le := Nat.le_refl _
  bound := (List.getElem?_eq_some_iff.mp h).1
  free _ hle hlt := absurd hlt (Nat.not_lt.mpr hle)
  front := Or.inr h

theorem Opens.longer (h : Opens sep xs a b) (hb : b < xs.length) (hne : xs[b]? ≠ some sep) :
    Opens sep xs a (b + 1) where
  le := Nat.le_succ_of_le h.le
  bound := hb
  free i hle hlt := by
    rcases Nat.lt_succ_iff_lt_or_eq.mp hlt with hold | rfl
    · exact h.free i hle hold
    · exact hne
  front := h.front

/-- Of two beginnings with one end neither is the earlier. -/
theorem Opens.not_lt (h : Opens sep xs a b) (h' : Opens sep xs a' b) : ¬ a < a' := by
  intro hlt
  have hle := h'.le
  -- the separator in front of the later one would lie inside the other
  rcases h'.front with hzero | hsep
  · omega
  · exact h.free (a' - 1) (by omega) (by omega) hsep

/-- **A segment that ends inside an open stretch** is that stretch. -/
theorem IsSegment.eq_of_opens (h : IsSegment sep xs a' b') (ho : Opens sep xs a b) (hle : a ≤ b')
    (hle' : b' ≤ b) : a' = a ∧ b' = b := by
  have hend : b' = b := by
    refine Nat.le_antisymm hle' (Nat.not_lt.mp fun hlt => ?_)
    have hbound := ho.bound
    rcases h.behind with hlast | hsep
    · omega
    · exact ho.free b' hle hlt hsep
  subst hend
  exact ⟨Nat.le_antisymm (Nat.not_lt.mp (ho.not_lt h.toOpens))
    (Nat.not_lt.mp (h.toOpens.not_lt ho)), rfl⟩

end

/-! ## 2. A scan from the left -/

/-- **The segments that end before `bound`**, from left to right, but the empty ones. -/
structure Found (sep : α) (xs : List α) (bound : Nat) (cuts : List (Nat × Nat)) : Prop where
  sorted : cuts.Pairwise fun p q => p.2 < q.1
  mem_iff : ∀ a b, (a, b) ∈ cuts ↔ IsSegment sep xs a b ∧ a < b ∧ b < bound

section

variable {sep : α} {xs : List α} {a b : Nat} {cuts : List (Nat × Nat)}

theorem found_nil (sep : α) (xs : List α) : Found sep xs 0 [] where
  sorted := List.Pairwise.nil
  mem_iff a b := by
    constructor
    · intro h
      cases h
    · intro h
      exact absurd h.2.2 (Nat.not_lt_zero b)

/-- The next segment is empty. -/
theorem Found.close_empty (h : Found sep xs a cuts) (hseg : IsSegment sep xs a a) :
    Found sep xs (a + 1) cuts where
  sorted := h.sorted
  mem_iff a' b' := by
    rw [h.mem_iff]
    constructor
    · intro hin
      exact ⟨hin.1, hin.2.1, Nat.lt_succ_of_lt hin.2.2⟩
    · intro hin
      refine ⟨hin.1, hin.2.1, Nat.not_le.mp fun hle => ?_⟩
      have heq := hin.1.eq_of_opens hseg.toOpens hle (Nat.lt_succ_iff.mp hin.2.2)
      omega

/-- **The next segment** goes to the end. -/
theorem Found.close (h : Found sep xs a cuts) (hseg : IsSegment sep xs a b) (hlt : a < b) :
    Found sep xs (b + 1) (cuts ++ [(a, b)]) where
  sorted := by
    refine List.pairwise_append.mpr ⟨h.sorted, List.pairwise_singleton _ _, fun p hp q hq => ?_⟩
    rw [List.mem_singleton.mp hq]
    exact ((h.mem_iff p.1 p.2).mp hp).2.2
  mem_iff a' b' := by
    rw [List.mem_append, List.mem_singleton, h.mem_iff]
    constructor
    · intro hin
      rcases hin with hold | hnew
      · exact ⟨hold.1, hold.2.1, by omega⟩
      · cases hnew
        exact ⟨hseg, hlt, Nat.lt_succ_self b⟩
    · intro hin
      rcases Nat.lt_or_ge b' a with hbefore | hbehind
      · exact Or.inl ⟨hin.1, hin.2.1, hbefore⟩
      · obtain ⟨rfl, rfl⟩ :=
          hin.1.eq_of_opens hseg.toOpens hbehind (Nat.lt_succ_iff.mp hin.2.2)
        exact Or.inr rfl

/-- A counted loop keeps what each of its rounds keeps. -/
theorem foldl_range_invariant {σ : Type} {P : Nat → σ → Prop} {f : σ → Nat → σ} {s : σ} {n : Nat}
    (h₀ : P 0 s) (hstep : ∀ i t, i < n → P i t → P (i + 1) (f t i)) :
    P n ((List.range n).foldl f s) := by
  induction n with
  | zero => exact h₀
  | succ n ih =>
    rw [List.range_succ, List.foldl_append]
    exact hstep n _ (Nat.lt_succ_self n) (ih fun i t hi => hstep i t (Nat.lt_succ_of_lt hi))

end

/-! ## 3. Split and filter -/

variable [DecidableEq α]

/-- What stands between the separators, but the empty parts. -/
def pieces (sep : α) (xs : List α) : List (List α) := (xs.splitOn sep).filter (· ≠ [])

section

variable {sep : α}

/-- **Cut at a separator.** -/
theorem pieces_append_cons (xs ys : List α) :
    pieces sep (xs ++ sep :: ys) = pieces sep xs ++ pieces sep ys := by
  simp only [pieces, List.splitOn_eq_splitOnP]
  have hsep : (sep == sep) = true := beq_self_eq_true sep
  rw [List.splitOnP_append_cons (p := fun x => x == sep) xs ys hsep, List.filter_append]

theorem pieces_nil : pieces sep ([] : List α) = [] := by
  simp [pieces, List.splitOn_eq_splitOnP]

/-- Separators in front belong to no part. -/
theorem pieces_replicate_append (n : Nat) (ys : List α) :
    pieces sep (List.replicate n sep ++ ys) = pieces sep ys := by
  induction n with
  | zero => rfl
  | succ n ih =>
    have hfront : pieces sep (sep :: (List.replicate n sep ++ ys)) =
        pieces sep [] ++ pieces sep (List.replicate n sep ++ ys) := pieces_append_cons [] _
    rw [pieces_nil, List.nil_append, ih] at hfront
    exact hfront

/-- A part alone. -/
theorem pieces_part {part : List α} (hne : part ≠ []) (hfree : sep ∉ part) :
    pieces sep part = [part] := by
  have hsplit : part.splitOn sep = [part] := by
    rw [List.splitOn_eq_splitOnP]
    refine List.splitOnP_eq_singleton fun x hx => beq_eq_false_iff_ne.mpr fun heq => ?_
    exact hfree (heq ▸ hx)
  rw [pieces, hsplit]
  simpa using hne

end

/-- **Parts written out**: non-empty parts without the separator, each with the number of
    separators behind it. Only behind the last one there may be none. -/
structure Spaced (sep : α) where
  before : Nat
  entries : List (List α × Nat)
  isPart : ∀ e ∈ entries, e.1 ≠ [] ∧ sep ∉ e.1
  separated : ∀ e ∈ entries.dropLast, 0 < e.2

namespace Spaced

variable {sep : α}

def parts (t : Spaced sep) : List (List α) := t.entries.map Prod.fst

/-- One entry of the text. -/
def written (sep : α) (e : List α × Nat) : List α := e.1 ++ List.replicate e.2 sep

def text (t : Spaced sep) : List α :=
  List.replicate t.before sep ++ t.entries.flatMap (written sep)

theorem pieces_written {e : List α × Nat} {ys : List α} (h : e.1 ≠ [] ∧ sep ∉ e.1)
    (hsep : 0 < e.2 ∨ ys = []) : pieces sep (written sep e ++ ys) = e.1 :: pieces sep ys := by
  obtain ⟨part, n⟩ := e
  unfold written
  cases n with
  | zero =>
    have hys := hsep.resolve_left (Nat.lt_irrefl 0)
    rw [hys, List.replicate_zero, List.append_nil, List.append_nil, pieces_nil]
    exact pieces_part h.1 h.2
  | succ n =>
    rw [List.replicate_succ, List.append_assoc, List.cons_append, pieces_append_cons,
      pieces_part h.1 h.2, pieces_replicate_append, List.singleton_append]

theorem pieces_entries : ∀ {entries : List (List α × Nat)},
    (∀ e ∈ entries, e.1 ≠ [] ∧ sep ∉ e.1) → (∀ e ∈ entries.dropLast, 0 < e.2) →
    pieces sep (entries.flatMap (written sep)) = entries.map Prod.fst
  | [], _, _ => pieces_nil
  | [e], hpart, _ => by
    have hlast : pieces sep (written sep e ++ []) = e.1 :: pieces sep [] :=
      pieces_written (hpart e List.mem_cons_self) (Or.inr rfl)
    rw [pieces_nil] at hlast
    exact hlast
  | e :: e' :: rest, hpart, hsep => by
    have hrest : pieces sep ((e' :: rest).flatMap (written sep)) = (e' :: rest).map Prod.fst :=
      pieces_entries (fun x hx => hpart x (List.mem_cons_of_mem _ hx))
        (fun x hx => hsep x (List.mem_cons_of_mem _ hx))
    have hfirst := hsep e List.mem_cons_self
    rw [List.flatMap_cons, pieces_written (hpart e List.mem_cons_self) (Or.inl hfirst), hrest]
    rfl

/-- **The parts are read back.** -/
theorem pieces_text (t : Spaced sep) : pieces sep t.text = t.parts := by
  unfold text parts
  rw [pieces_replicate_append, pieces_entries t.isPart t.separated]

end Spaced

end PluginsEngine.Library
