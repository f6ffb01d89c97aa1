/-
  File:      PluginsEngine/Net/Framing.lean
  Subject:   LINES OUT OF A BUFFER (Buffer::findCRLF, readAsString, retrieveUntil).

  Bytes arrive in chunks of any size and are appended; a line is taken where `findCRLF` finds its
  end. The two may alternate in any way. Indices stay below 2^32: `roomFor` is what the owner of the
  buffer keeps to.

  * `findCRLF`, `takeLine` -- the search, and one step of a framing loop;
  * `findCRLF_eq`, `takeLine_of_some` -- they see the unread bytes and nothing else;
  * `framing` -- the machine; `framing_split` -- over every run, the lines so far and what the
    unread bytes still hold are the lines of the whole stream; `framing_conserves` -- so no byte
    is lost;
  * `takeLines_terminates` -- a framing loop ends;
  * `framing_independent_of_chunks` -- so lines and remainder are those of the stream.
-/
import Mathlib.Data.List.ReduceOption
import PluginsEngine.Library.Delimiter
import PluginsEngine.Net.Buffer

namespace PluginsEngine

open Library

/-- `kCRLF`, without the terminating null. -/
def kCRLF : Delimiter UInt8 := ⟨[13, 10], List.cons_ne_nil _ _⟩

namespace Buffer

/-! ## 1. The operations -/

/-- `findCRLF`: a pointer into the vector, or null. -/
def findCRLF (b : Buffer) : Option Nat :=
  (search kCRLF (window b.buffer b.readIndex.toNat b.writeIndex.toNat)).map
    (b.readIndex.toNat + ·)

/-- One step of a framing loop: if there is a line end, the bytes before it are read as a line and
    the line end is retrieved too. -/
def takeLine (b : Buffer) : Buffer × Option (List UInt8) :=
  match b.findCRLF with
  | none => (b, none)
  | some p =>
    let read := b.readAsString (UInt32.ofNat (p - b.readIndex.toNat))
    (read.1.retrieveUntil (p + 2 : Nat), some read.2.1)

/-! ## 2. What they see -/

variable {b : Buffer}

theorem findCRLF_eq (b : Buffer) :
    b.findCRLF = (search kCRLF b.contents).map (b.readIndex.toNat + ·) := rfl

/-- **Nothing behind the write index is found**: a line end that is found lies, with both its
    bytes, in `[readIndex, writeIndex)`. -/
theorem findCRLF_inside (h : b.Wf) {p : Nat} (hp : b.findCRLF = some p) :
    b.readIndex.toNat ≤ p ∧ p + 2 ≤ b.writeIndex.toNat ∧
      window b.buffer p (p + 2) = kCRLF.text := by
  rw [findCRLF_eq] at hp
  obtain ⟨i, hi, rfl⟩ := Option.map_eq_some_iff.mp hp
  have hle := search_le hi
  rw [h.length_contents, show kCRLF.text.length = 2 from rfl] at hle
  have hr := h.read_le
  refine ⟨Nat.le_add_right _ _, by omega, ?_⟩
  obtain ⟨rest, hrest⟩ := (search_spec hi).1
  rw [contents, drop_window] at hrest
  rw [← take_window (k := 2) (j := b.writeIndex.toNat) (by omega), ← hrest]
  rfl

/-- A read that leaves bytes moves the read index. -/
theorem readAsString_of_lt (h : b.Wf) {len : Nat} (hlt : len < b.contents.length) :
    (b.readAsString (UInt32.ofNat len)).1 =
      { b with readIndex := b.readIndex + UInt32.ofNat len } := by
  have hs := h.size_lt
  have hw := h.write_le
  have hlen := h.length_contents
  have hsmall : (UInt32.ofNat len).toNat = len := by
    rw [UInt32.toNat_ofNat', Nat.mod_eq_of_lt (by omega)]
  have hread : UInt32.ofNat len < b.readableBytes := by
    rw [UInt32.lt_iff_toNat_lt, hsmall, h.readable_toNat]
    exact hlt
  have hclamp : ¬ UInt32.ofNat len > b.readableBytes := fun hgt =>
    absurd (UInt32.lt_iff_toNat_lt.mp hgt) (Nat.lt_asymm (UInt32.lt_iff_toNat_lt.mp hread))
  unfold readAsString readFront clearReadIndex
  dsimp only
  rw [if_neg hclamp, if_pos hread]

/-- Without a line end nothing changes. -/
theorem takeLine_of_none (h : search kCRLF b.contents = none) : b.takeLine = (b, none) := by
  have hfind : b.findCRLF = none := by
    rw [findCRLF_eq, h]
    rfl
  unfold takeLine
  rw [hfind]

/-- **One line**: the unread bytes up to the first line end are the line, those behind it are
    left. -/
theorem takeLine_of_some (h : b.Wf) {i : Nat} (hi : search kCRLF b.contents = some i) :
    b.takeLine.1.Wf ∧ b.takeLine.2 = some (b.contents.take i) ∧
      b.takeLine.1.contents = b.contents.drop (i + 2) := by
  have hle : i + 2 ≤ b.contents.length := search_le hi
  have hlen := h.length_contents
  have hw := h.write_le
  have hs := h.size_lt
  have hfind : b.findCRLF = some (b.readIndex.toNat + i) := by
    rw [findCRLF_eq, hi]
    rfl
  have hsmall : (UInt32.ofNat i).toNat = i := by
    rw [UInt32.toNat_ofNat', Nat.mod_eq_of_lt (by omega)]
  -- the read stops at the line end, which is then what is unread
  obtain ⟨hwf, hdrop, hline⟩ := readFront_contents h (UInt32.ofNat i)
  have hread : (b.readFront (UInt32.ofNat i)).1 =
      { b with readIndex := b.readIndex + UInt32.ofNat i } :=
    readAsString_of_lt h (by omega)
  rw [hsmall] at hdrop hline
  have hidx : ((b.readFront (UInt32.ofNat i)).1).readIndex.toNat = b.readIndex.toNat + i := by
    rw [hread]
    show (b.readIndex + UInt32.ofNat i).toNat = _
    rw [UInt32.toNat_add, hsmall]
    omega
  have hwidx : ((b.readFront (UInt32.ofNat i)).1).writeIndex = b.writeIndex := by
    rw [hread]
  obtain ⟨hwf', hrest⟩ := retrieveUntil_contents hwf ((b.readIndex.toNat + i + 2 : Nat) : Int)
  rw [hidx, hwidx, if_pos (by omega), hdrop, List.drop_drop] at hrest
  have htake : b.takeLine = ((b.readFront (UInt32.ofNat i)).1.retrieveUntil
      (b.readIndex.toNat + i + 2 : Nat), some (b.readFront (UInt32.ofNat i)).2.1) := by
    unfold takeLine
    rw [hfind]
    dsimp only
    rw [Nat.add_sub_cancel_left]
    rfl
  rw [htake]
  refine ⟨hwf', congrArg some hline, ?_⟩
  rw [hrest]
  congr 1
  omega

/-! ## 3. Chunks and lines in any order -/

inductive FramingLabel where
  | append (chunk : List UInt8)
  | takeLine
  deriving DecidableEq

/-- The assumption on the indices: a chunk is appended only where the write index stays below
    2^32. -/
def roomFor (b : Buffer) : FramingLabel → Prop
  | .append chunk => b.writeIndex.toNat + chunk.length < 2 ^ 32
  | .takeLine => True

instance decidableRoomFor (b : Buffer) (l : FramingLabel) : Decidable (b.roomFor l) := by
  cases l <;> unfold roomFor <;> infer_instance

/-- A buffer between a sender and a framing loop. A step shows the line it took. -/
def framing : Machine Buffer FramingLabel (Option (List UInt8)) where
  step b l :=
    if b.roomFor l then
      match l with
      | .append chunk => some (b.append chunk, none)
      | .takeLine => some b.takeLine
    else none

theorem framing_takeLine (b : Buffer) : framing.step b .takeLine = some b.takeLine := by
  simp only [framing]
  exact if_pos trivial

/-- The bytes a step appends. -/
def appended : FramingLabel → List UInt8
  | .append chunk => chunk
  | .takeLine => []

/-- **One step of a run**: the line it takes, and what the unread bytes hold afterwards, are what
    the unread bytes and the appended ones held before. -/
theorem framing_step {b' : Buffer} {l : FramingLabel} {o : Option (List UInt8)} (h : b.Wf)
    (hs : framing.step b l = some (b', o)) :
    b'.Wf ∧ split kCRLF (b.contents ++ appended l) =
      (o.toList ++ (split kCRLF b'.contents).1, (split kCRLF b'.contents).2) := by
  simp only [framing] at hs
  split at hs
  · rename_i hroom
    cases l with
    | append chunk =>
      cases hs
      obtain ⟨hwf, hc⟩ := append_contents h chunk fun _ => hroom
      rw [hc]
      exact ⟨hwf, rfl⟩
    | takeLine =>
      have heq : b.takeLine = (b', o) := Option.some.inj hs
      rw [appended, List.append_nil]
      cases hsearch : search kCRLF b.contents with
      | none =>
        rw [takeLine_of_none hsearch] at heq
        cases heq
        exact ⟨h, rfl⟩
      | some i =>
        obtain ⟨hwf, hline, hrest⟩ := takeLine_of_some h hsearch
        rw [heq] at hwf hline hrest
        dsimp only at hwf hline hrest
        rw [hrest, hline, split_of_some hsearch]
        exact ⟨hwf, rfl⟩
  · cases hs

/-- **The invariant of a framing loop**: the lines so far, and those still in the unread bytes, are
    the lines of all that was appended; and the unread bytes end with its tail. -/
theorem framing_split (size : UInt32) {ls : List FramingLabel} {b : Buffer}
    {os : List (Option (List UInt8))} (h : framing.run (new size) ls = some (b, os)) :
    b.Wf ∧ split kCRLF (ls.flatMap appended) =
      (os.reduceOption ++ (split kCRLF b.contents).1, (split kCRLF b.contents).2) := by
  refine Machine.run_induct (P := fun ls os b => b.Wf ∧ split kCRLF (ls.flatMap appended) =
    (os.reduceOption ++ (split kCRLF b.contents).1, (split kCRLF b.contents).2)) ?_ ?_ h
  · refine ⟨new_wf size, ?_⟩
    rw [new_contents]
    rfl
  · intro ls os b l b' o hI hs
    obtain ⟨hwf, hsplit⟩ := hI
    obtain ⟨hwf', hstep⟩ := framing_step hwf hs
    refine ⟨hwf', ?_⟩
    have hstream : (ls ++ [l]).flatMap appended = ls.flatMap appended ++ appended l := by
      rw [List.flatMap_append, List.flatMap_singleton]
    -- the tail so far ends the unread bytes: both sides go on from it
    have hcontents := split_append (d := kCRLF) b.contents (appended l)
    rw [hstep] at hcontents
    obtain ⟨hlines, htail⟩ := Prod.mk.inj hcontents
    rw [hstream, split_append, hsplit]
    dsimp only
    rw [← htail, List.append_assoc, ← hlines, List.reduceOption_append, List.append_assoc]
    cases o <;> rfl

/-- **No byte is lost**: the lines so far with their line ends, and the unread bytes, are all that
    was appended. -/
theorem framing_conserves (size : UInt32) {ls : List FramingLabel} {b : Buffer}
    {os : List (Option (List UInt8))} (h : framing.run (new size) ls = some (b, os)) :
    os.reduceOption.flatMap (· ++ kCRLF.text) ++ b.contents = ls.flatMap appended := by
  obtain ⟨-, hsplit⟩ := framing_split size h
  have hstream := split_joined (d := kCRLF) (ls.flatMap appended)
  rw [hsplit, List.flatMap_append, List.append_assoc, split_joined] at hstream
  exact hstream

/-! ## 4. The end of a framing loop -/

/-- **A framing loop ends**: each line takes at least two bytes away, so after at most half as many
    steps as there are unread bytes `findCRLF` returns null. -/
theorem takeLines_terminates (h : b.Wf) :
    ∃ n t os, 2 * n ≤ b.contents.length ∧
      framing.run b (List.replicate n .takeLine) = some (t, os) ∧ t.findCRLF = none := by
  induction hn : b.contents.length using Nat.strongRecOn generalizing b with
  | ind n ih =>
    cases hsearch : search kCRLF b.contents with
    | none =>
      refine ⟨0, b, [], Nat.zero_le _, rfl, ?_⟩
      rw [findCRLF_eq, hsearch]
      rfl
    | some i =>
      have hle : i + 2 ≤ b.contents.length := search_le hsearch
      obtain ⟨hwf, -, hrest⟩ := takeLine_of_some h hsearch
      have hlen : b.takeLine.1.contents.length = b.contents.length - (i + 2) := by
        rw [hrest, List.length_drop]
      obtain ⟨k, t, os, hk, hrun, hnull⟩ := ih _ (by omega) hwf rfl
      refine ⟨k + 1, t, b.takeLine.2 :: os, by omega, ?_, hnull⟩
      rw [List.replicate_succ]
      exact Machine.run_cons_iff.mpr ⟨_, _, os, framing_takeLine b, hrun, rfl⟩

theorem findCRLF_eq_none_iff (b : Buffer) :
    b.findCRLF = none ↔ search kCRLF b.contents = none := by
  rw [findCRLF_eq, Option.map_eq_none_iff]

/-- **Lines do not depend on the chunks.** For every run of appended chunks and framing steps, from
    an empty buffer of any size: where `findCRLF` returns null the lines are those of the stream,
    split at the leftmost line ends, and the unread bytes are what is behind the last of them;
    repeating the step comes to that; and a line end that is found lies in the unread bytes. -/
theorem framing_independent_of_chunks (size : UInt32) (ls : List FramingLabel) (b : Buffer)
    (os : List (Option (List UInt8))) (h : framing.run (new size) ls = some (b, os)) :
    (b.findCRLF = none → split kCRLF (ls.flatMap appended) = (os.reduceOption, b.contents)) ∧
    (∃ n t os', framing.run (new size) (ls ++ List.replicate n .takeLine) = some (t, os ++ os') ∧
      t.findCRLF = none ∧
      split kCRLF (ls.flatMap appended) = ((os ++ os').reduceOption, t.contents)) ∧
    ∀ p, b.findCRLF = some p → b.readIndex.toNat ≤ p ∧ p + 2 ≤ b.writeIndex.toNat ∧
      window b.buffer p (p + 2) = kCRLF.text := by
  obtain ⟨hwf, hsplit⟩ := framing_split size h
  refine ⟨fun hnull => ?_, ?_, fun p hp => findCRLF_inside hwf hp⟩
  · rw [hsplit, split_of_none ((b.findCRLF_eq_none_iff).mp hnull), List.append_nil]
  · obtain ⟨n, t, os', -, hrun, hnull⟩ := takeLines_terminates hwf
    have hall : framing.run (new size) (ls ++ List.replicate n .takeLine) = some (t, os ++ os') :=
      Machine.run_append_iff.mpr ⟨b, os, os', h, hrun, rfl⟩
    have hsame : (ls ++ List.replicate n FramingLabel.takeLine).flatMap appended =
        ls.flatMap appended := by
      rw [List.flatMap_append, List.flatMap_replicate]
      simp only [appended, List.flatten_replicate_nil, List.append_nil]
    obtain ⟨-, hsplit'⟩ := framing_split size hall
    rw [hsame, split_of_none ((t.findCRLF_eq_none_iff).mp hnull), List.append_nil] at hsplit'
    exact ⟨n, t, os', hall, hnull, hsplit'⟩

/-- A line end that is cut between its two bytes, in a buffer of four. -/
def cutRun : List FramingLabel :=
  [.append [97, 13], .takeLine, .append [10, 98], .takeLine]

theorem cutRun_lines :
    ∃ b, framing.run (new 4) cutRun = some (b, [none, none, none, some [97]]) ∧
      split kCRLF (cutRun.flatMap appended) = ([[97]], b.contents) ∧ b.contents = [98] := by
  have hrun : framing.run (new 4) cutRun =
      some (⟨3, 4, [97, 13, 10, 98]⟩, [none, none, none, some [97]]) := by decide
  exact ⟨_, hrun, (framing_independent_of_chunks 4 _ _ _ hrun).1 (by decide), by decide⟩

end Buffer

end PluginsEngine
