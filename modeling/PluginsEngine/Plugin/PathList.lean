/-
  File:      PluginsEngine/Plugin/PathList.lean
  Subject:   PATH LISTS IN A VARIABLE (PluginCreator::colonSeparatedStringToPaths).

  The loop keeps two iterators: `i` goes over the string, and `previous` stands where the path it is
  in began. Behind the loop the path that no colon ends is taken in. `PathScan` is this loop with
  indices for the iterators; `colonSeparatedStringToPaths` reads the same paths off a list.

  * `PathScan.scan`, `scan_eq` -- the loop with its iterators, and that it is the same function;
  * `PathScan.Scanned` -- the loop invariant: every segment before `previous` has been taken in;
  * `paths_are_the_segments` -- over every string, the paths are its segments but the empty ones,
    and paths that are written out with colons are read back;
  * `mem_colonSeparatedStringToPaths_iff` -- so no entry of a blacklist is lost.
-/
import PluginsEngine.Library.Segments
import PluginsEngine.Plugin.PluginCreator

namespace PluginsEngine

open Library

namespace PluginCreator

/-! ## 1. The loop with its iterators -/

/-- Between two rounds: the index `previous` stands at, and the paths so far. -/
structure PathScan where
  previous : Nat
  ret : List StdString

namespace PathScan

/-- `candidate(previous, i)`, which is taken in if it is not empty. -/
def push (str : StdString) (s : PathScan) (i : Nat) : List StdString :=
  let candidate := window str s.previous i
  if candidate = [] then s.ret else s.ret ++ [candidate]

/-- One round, with `i` at a byte of the string. -/
def round (str : StdString) (s : PathScan) (i : Nat) : PathScan :=
  if str[i]? = some colon then ⟨i + 1, s.push str i⟩ else s

def loop (str : StdString) : PathScan := (List.range str.length).foldl (round str) ⟨0, []⟩

/-- The loop, and the last candidate. -/
def scan (str : StdString) : List StdString :=
  let s := loop str
  if s.previous ≠ str.length then s.push str str.length else s.ret

variable {str : StdString} {s : PathScan} {i : Nat}

theorem window_succ {a : Nat} {c : UInt8} (hle : a ≤ i) (hc : str[i]? = some c) :
    window str a (i + 1) = window str a i ++ [c] := by
  have hdrop : (str.drop a)[i - a]? = some c := by
    rw [List.getElem?_drop, Nat.add_sub_cancel' hle, hc]
  have hlen : i + 1 - a = i - a + 1 := by omega
  unfold window
  rw [hlen, List.take_add_one, hdrop]
  rfl

/-- What is left to do for `colonLoop`, beside what `ret` has. -/
def Goes (str : StdString) (i : Nat) (s : PathScan) : Prop :=
  s.previous ≤ i ∧
    colonSeparatedStringToPaths str =
      s.ret ++ colonLoop (window str s.previous i) (str.drop i)

theorem Goes.round (h : Goes str i s) (hi : i < str.length) :
    Goes str (i + 1) (s.round str i) := by
  obtain ⟨hle, hpaths⟩ := h
  have hget : str[i]? = some str[i] := List.getElem?_eq_getElem hi
  rw [List.drop_eq_getElem_cons hi, colonLoop] at hpaths
  unfold PathScan.round
  by_cases hc : str[i] = colon
  · rw [if_pos (hget.trans (congrArg some hc))]
    rw [if_pos hc] at hpaths
    refine ⟨Nat.le_refl _, ?_⟩
    rw [hpaths, window_self]
    unfold push
    dsimp only
    split
    · rfl
    · rw [List.append_assoc, List.singleton_append]
  · rw [if_neg fun heq => hc (Option.some.inj (hget.symm.trans heq))]
    rw [if_neg hc] at hpaths
    exact ⟨Nat.le_succ_of_le hle, by rw [hpaths, window_succ hle hget]⟩

/-- **The loop with its iterators reads the same paths.** -/
theorem scan_eq (str : StdString) : scan str = colonSeparatedStringToPaths str := by
  have hgoes : Goes str str.length (loop str) :=
    foldl_range_invariant (P := Goes str)
      ⟨Nat.le_refl 0, by rw [window_self]; rfl⟩ fun _ _ hi h => h.round hi
  obtain ⟨hle, hpaths⟩ := hgoes
  rw [hpaths, List.drop_length, colonLoop]
  unfold scan push
  dsimp only
  split
  · split
    · exact (List.append_nil _).symm
    · rfl
  · rename_i hlast
    rw [not_not.mp hlast, window_self, if_pos rfl, List.append_nil]

/-! ## 2. The loop invariant -/

/-- **At `i`**: the stretch from `previous` to `i` is open, and `ret` has the segments before it. -/
def Scanned (str : StdString) (i : Nat) (s : PathScan) : Prop :=
  Opens colon str s.previous i ∧
    ∃ cuts, Found colon str s.previous cuts ∧ s.ret = cuts.map fun c => window str c.1 c.2

/-- A segment that `push` has looked at is found, and nothing else. -/
theorem found_push {cuts : List (Nat × Nat)} (hseg : IsSegment colon str s.previous i)
    (hfound : Found colon str s.previous cuts)
    (hret : s.ret = cuts.map fun c => window str c.1 c.2) :
    ∃ cuts', Found colon str (i + 1) cuts' ∧
      s.push str i = cuts'.map fun c => window str c.1 c.2 := by
  have hlen := length_window (i := s.previous) hseg.bound
  unfold push
  dsimp only
  rcases Nat.eq_or_lt_of_le hseg.le with heq | hlt
  · rw [← heq] at hseg ⊢
    rw [window_self, if_pos rfl]
    exact ⟨cuts, hfound.close_empty hseg, hret⟩
  · have hne : window str s.previous i ≠ [] := by
      intro hnil
      rw [hnil, List.length_nil] at hlen
      omega
    rw [if_neg hne, hret]
    refine ⟨cuts ++ [(s.previous, i)], hfound.close hseg hlt, ?_⟩
    rw [List.map_append]
    rfl

theorem Scanned.round (h : Scanned str i s) (hi : i < str.length) :
    Scanned str (i + 1) (s.round str i) := by
  obtain ⟨hopen, cuts, hfound, hret⟩ := h
  unfold PathScan.round
  by_cases hc : str[i]? = some colon
  · rw [if_pos hc]
    exact ⟨opens_behind hc, found_push ⟨hopen, Or.inr hc⟩ hfound hret⟩
  · rw [if_neg hc]
    exact ⟨hopen.longer hi hc, cuts, hfound, hret⟩

/-- **What the loop reads**: the segments of the string, from left to right, but the empty ones. -/
theorem scan_segments (str : StdString) :
    ∃ cuts : List (Nat × Nat), cuts.Pairwise (fun p q => p.2 < q.1) ∧
      (∀ a b, (a, b) ∈ cuts ↔ IsSegment colon str a b ∧ a < b) ∧
      scan str = cuts.map fun c => window str c.1 c.2 := by
  have hscanned : Scanned str str.length (loop str) :=
    foldl_range_invariant (P := Scanned str) ⟨opens_front colon str, [], found_nil colon str, rfl⟩
      fun _ _ hi h => h.round hi
  obtain ⟨hopen, cuts, hfound, hret⟩ := hscanned
  obtain ⟨cuts', hfound', hpush⟩ := found_push ⟨hopen, Or.inl rfl⟩ hfound hret
  have hscan : scan str = (loop str).push str str.length := by
    unfold scan
    dsimp only
    split
    · rfl
    · rename_i hlast
      -- nothing stands behind the last colon, so there is nothing to push
      unfold push
      rw [not_not.mp hlast, window_self]
      exact (if_pos rfl).symm
  refine ⟨cuts', hfound'.sorted, fun a b => ?_, hscan.trans hpush⟩
  rw [hfound'.mem_iff]
  constructor
  · intro hin
    exact ⟨hin.1, hin.2.1⟩
  · intro hin
    exact ⟨hin.1, hin.2, Nat.lt_succ_of_le hin.1.bound⟩

end PathScan

/-! ## 3. Split and filter -/

/-- **The paths of a variable are its segments.** For every string: the paths are what splitting at
    the colons gives, but the empty parts; they are the maximal stretches without a colon, from
    left to right, but the empty ones; and paths that are written out, with any number of colons in
    front and behind and at least one between two of them, are read back as they were. -/
theorem paths_are_the_segments :
    (∀ str : StdString,
      colonSeparatedStringToPaths str = (str.splitOn colon).filter (· ≠ []) ∧
      ∃ cuts : List (Nat × Nat), cuts.Pairwise (fun p q => p.2 < q.1) ∧
        (∀ a b, (a, b) ∈ cuts ↔ IsSegment colon str a b ∧ a < b) ∧
        colonSeparatedStringToPaths str = cuts.map fun c => window str c.1 c.2) ∧
    ∀ t : Spaced colon, colonSeparatedStringToPaths t.text = t.parts := by
  refine ⟨fun str => ⟨colonSeparatedStringToPaths_eq str, ?_⟩, fun t => ?_⟩
  · rw [← PathScan.scan_eq]
    exact PathScan.scan_segments str
  · rw [colonSeparatedStringToPaths_eq]
    exact t.pieces_text

/-- **Nothing is lost and nothing is added**: the entries of a variable are exactly its segments
    that are not empty. -/
theorem mem_colonSeparatedStringToPaths_iff {str path : StdString} :
    path ∈ colonSeparatedStringToPaths str ↔
      ∃ a b, IsSegment colon str a b ∧ a < b ∧ path = window str a b := by
  obtain ⟨cuts, -, hmem, hscan⟩ := PathScan.scan_segments str
  rw [← PathScan.scan_eq, hscan, List.mem_map]
  constructor
  · intro h
    obtain ⟨c, hc, rfl⟩ := h
    obtain ⟨hseg, hlt⟩ := (hmem c.1 c.2).mp hc
    exact ⟨c.1, c.2, hseg, hlt, rfl⟩
  · intro h
    obtain ⟨a, b, hseg, hlt, rfl⟩ := h
    exact ⟨(a, b), (hmem a b).mpr ⟨hseg, hlt⟩, rfl⟩

end PluginCreator

end PluginsEngine
