/-
  File:      PluginsEngine/Net/BufferQueue.lean
  Subject:   A BUFFER IS A FIFO BYTE QUEUE, over whole runs of its operations.

  The buffers of a program (as many as it has, indexed by `ι`, because `swap` joins two) are the
  machine `buffers`: its labels are the calls with their arguments and, for `readFromIO`, the
  answer of `readv`; its outputs are the bytes a read hands out. `bufferRefinement` is the
  refinement of the queues of Library/Fifo.lean by it, with `Buffer.contents` as the abstraction;
  `buffer_refines_fifo` is the result over runs.
-/
import PluginsEngine.Net.Buffer
import Mathlib.Data.Fintype.Basic

namespace PluginsEngine

open Library

/-- The calls on the buffers `ι`. -/
inductive BufferOp (ι : Type) where
  | append (i : ι) (data : List UInt8)
  | ensureWritableBytes (i : ι) (len : Nat)
  | readFromIO (i : ι) (r : ReadvAnswer)
  | clearReadIndex (i : ι) (len : UInt32)
  | readAsString (i : ι) (len : UInt32)
  | readAllAsString (i : ι)
  | readBytes (i : ι) (len : UInt32)
  | readAllAsByte (i : ι)
  | retrieveUntil (i : ι) (endPtr : Int)
  | resetIndex (i : ι)
  | swap (i j : ι)

variable {ι : Type} [DecidableEq ι]

/-! ## 1. The buffers as a machine -/

/-- A call is allowed while the write index stays below 2^32 at each growth, and `readv` answers
    as documented. -/
def BufferOp.admissible (s : ι → Buffer) : BufferOp ι → Prop
  | .append i data => (s i).growthFits data.length
  | .ensureWritableBytes i len => (s i).growthFits len
  | BufferOp.readFromIO i r => r.fits (s i).iovec ∧ (s i).readGrowthFits r
  | _ => True

instance (s : ι → Buffer) (op : BufferOp ι) : Decidable (op.admissible s) := by
  cases op <;> unfold BufferOp.admissible <;> infer_instance

/-- One call: the buffers after it and the bytes it hands out. -/
def bufferStep (s : ι → Buffer) : BufferOp ι → (ι → Buffer) × List UInt8
  | .append i data => (Function.update s i ((s i).append data), [])
  | .ensureWritableBytes i len => (Function.update s i ((s i).ensureWritableBytes len), [])
  | BufferOp.readFromIO i r => (Function.update s i ( Buffer.readFromIO (s i) r).1, [])
  | .clearReadIndex i len => (Function.update s i ((s i).clearReadIndex len), [])
  | .readAsString i len =>
    (Function.update s i ((s i).readAsString len).1, ((s i).readAsString len).2.1)
  | .readAllAsString i => (Function.update s i (s i).readAllAsString.1, (s i).readAllAsString.2.1)
  | .readBytes i len => (Function.update s i ((s i).readBytes len).1, ((s i).readBytes len).2.1)
  | .readAllAsByte i => (Function.update s i (s i).readAllAsByte.1, (s i).readAllAsByte.2.1)
  | .retrieveUntil i endPtr => (Function.update s i ((s i).retrieveUntil endPtr), [])
  | .resetIndex i => (Function.update s i (s i).resetIndex, [])
  | .swap i j =>
    (Function.update (Function.update s i ((s i).swap (s j)).1) j ((s i).swap (s j)).2, [])

/-- The buffers `ι` as a machine. -/
def buffers (ι : Type) [DecidableEq ι] : Machine (ι → Buffer) (BufferOp ι) (List UInt8) where
  step s op := if op.admissible s then some (bufferStep s op) else none

/-! ## 2. The queue operation each call stands for -/

/-- What a call does to the abstract queues. `readFromIO` pushes the first `ret` bytes of the
    stream (none when `ret <= 0`); the reads of everything pop as much as there is; a
    `retrieveUntil` behind or before the readable range drops nothing. -/
def queueOp (s : ι → Buffer) : BufferOp ι → QueueOp ι UInt8
  | .append i data => .push i data
  | .ensureWritableBytes i _ => .drop i 0
  | BufferOp.readFromIO i r => .push i (r.stream.take r.ret.toNat)
  | .clearReadIndex i len => .drop i len.toNat
  | .readAsString i len => .pop i len.toNat
  | .readAllAsString i => .pop i (s i).contents.length
  | .readBytes i len => .pop i len.toNat
  | .readAllAsByte i => .pop i (s i).contents.length
  | .retrieveUntil i endPtr =>
    if (s i).readIndex.toNat ≤ endPtr ∧ endPtr ≤ (s i).writeIndex.toNat then
      .drop i (endPtr - (s i).readIndex.toNat).toNat
    else .drop i 0
  | .resetIndex i => .clear i
  | .swap i j => .swap i j

/-- The unread bytes of every buffer. -/
def contentsOf (s : ι → Buffer) : ι → List UInt8 := fun i => (s i).contents

/-! ## 3. The refinement -/

/-- Replacing buffer `i` by a well-formed one keeps all buffers well-formed and replaces its
    contents only. -/
theorem update_contentsOf {s : ι → Buffer} (h : ∀ k, (s k).Wf) {i : ι} {b : Buffer}
    {q : List UInt8} (hb : b.Wf ∧ b.contents = q) :
    (∀ k, (Function.update s i b k).Wf) ∧
      contentsOf (Function.update s i b) = Function.update (contentsOf s) i q := by
  refine ⟨fun k => ?_, funext fun k => ?_⟩
  · by_cases hk : k = i
    · subst hk
      rw [Function.update_self]
      exact hb.1
    · rw [Function.update_of_ne hk]
      exact h k
  · by_cases hk : k = i
    · subst hk
      simp only [contentsOf, Function.update_self]
      exact hb.2
    · simp only [contentsOf, Function.update_of_ne hk]

theorem bufferStep_refines {s : ι → Buffer} (h : ∀ k, (s k).Wf) {op : BufferOp ι}
    (hop : op.admissible s) :
    (∀ k, ((bufferStep s op).1 k).Wf) ∧
      queueStep (contentsOf s) (queueOp s op) =
        (contentsOf (bufferStep s op).1, (bufferStep s op).2) := by
  -- a call on one buffer: its contents change as the queue does, the others stay
  have one : ∀ (i : ι) (b : Buffer) (q out out' : List UInt8), b.Wf ∧ b.contents = q →
      out' = out →
      (∀ k, (Function.update s i b k).Wf) ∧
        (Function.update (contentsOf s) i q, out) =
          (contentsOf (Function.update s i b), out') := by
    intro i b q out out' hb hout
    obtain ⟨hwf, hc⟩ := update_contentsOf h (i := i) hb
    exact ⟨hwf, by rw [hc, hout]⟩
  -- reading everything is reading as many bytes as there are
  have all : ∀ i, (s i).readableBytes.toNat = (contentsOf s i).length := fun i =>
    (h i).readable_toNat
  cases op with
  | append i data => exact one i _ _ _ _ (Buffer.append_contents (h i) data hop) rfl
  | ensureWritableBytes i len =>
    exact one i _ _ _ _ ⟨(Buffer.ensureWritableBytes_wf (h i) hop).1,
      Buffer.ensureWritableBytes_contents (h i) len⟩ rfl
  | readFromIO i r => exact one i _ _ _ _ (Buffer.readFromIO_contents (h i) hop.1 hop.2) rfl
  | clearReadIndex i len => exact one i _ _ _ _ (Buffer.clearReadIndex_contents (h i) len) rfl
  | readAsString i len =>
    obtain ⟨hwf, hc, hout⟩ := Buffer.readFront_contents (h i) len
    exact one i _ _ _ _ ⟨hwf, hc⟩ hout
  | readAllAsString i =>
    obtain ⟨hwf, hc, hout⟩ := Buffer.readFront_contents (h i) (s i).readableBytes
    rw [all i] at hc hout
    exact one i _ _ _ _ ⟨hwf, hc⟩ hout
  | readBytes i len =>
    obtain ⟨hwf, hc, hout⟩ := Buffer.readFront_contents (h i) len
    exact one i _ _ _ _ ⟨hwf, hc⟩ hout
  | readAllAsByte i =>
    obtain ⟨hwf, hc, hout⟩ := Buffer.readFront_contents (h i) (s i).readableBytes
    rw [all i] at hc hout
    exact one i _ _ _ _ ⟨hwf, hc⟩ hout
  | retrieveUntil i endPtr =>
    have hb := Buffer.retrieveUntil_contents (h i) endPtr
    simp only [queueOp]
    split at hb
    · rename_i hin
      rw [if_pos hin]
      exact one i _ _ _ _ hb rfl
    · rename_i hout
      rw [if_neg hout]
      exact one i _ _ _ _ hb rfl
  | resetIndex i =>
    exact one i _ _ _ _ ⟨Buffer.resetIndex_wf (h i), Buffer.resetIndex_contents _⟩ rfl
  | swap i j =>
    obtain ⟨hwf₁, hc₁⟩ := update_contentsOf h (i := i) (b := ((s i).swap (s j)).1)
      (q := contentsOf s j) ⟨h j, rfl⟩
    obtain ⟨hwf₂, hc₂⟩ := update_contentsOf hwf₁ (i := j) (b := ((s i).swap (s j)).2)
      (q := contentsOf s i) ⟨h i, rfl⟩
    exact ⟨hwf₂, by simp only [bufferStep, queueOp, queueStep, hc₂, hc₁]⟩

/-- **The buffers refine the queues**, through their contents. -/
def bufferRefinement (ι : Type) [DecidableEq ι] : Refinement (buffers ι) (queues ι UInt8) where
  inv s := ∀ i, (s i).Wf
  abs := contentsOf
  label := queueOp
  step := by
    intro s op s' o h hs
    simp only [buffers] at hs
    split at hs
    · rename_i hop
      obtain ⟨hwf, hq⟩ := bufferStep_refines h hop
      rw [Option.some.inj hs] at hwf hq
      exact ⟨hwf, congrArg some hq⟩
    · cases hs

/-- **A buffer is a FIFO byte queue.** After every run of calls from freshly constructed buffers
    of any sizes, `readIndex <= writeIndex <= buffer.size()` holds of every buffer, and the run of
    the corresponding queue operations from empty queues hands out the same bytes and leaves
    exactly the unread bytes. -/
theorem buffer_refines_fifo (size : ι → UInt32) (ops : List (BufferOp ι)) (s : ι → Buffer)
    (outs : List (List UInt8))
    (h : (buffers ι).run (fun i => Buffer.new (size i)) ops = some (s, outs)) :
    (∀ i, (s i).readIndex.toNat ≤ (s i).writeIndex.toNat ∧
      (s i).writeIndex.toNat ≤ (s i).buffer.length) ∧
    (queues ι UInt8).run (fun _ => [])
      ((bufferRefinement ι).labels (fun i => Buffer.new (size i)) ops) =
        some (contentsOf s, outs) := by
  obtain ⟨hwf, hrun⟩ := (bufferRefinement ι).run (fun i => Buffer.new_wf (size i)) h
  refine ⟨fun i => ⟨(hwf i).read_le, (hwf i).write_le⟩, ?_⟩
  have hstart : (bufferRefinement ι).abs (fun i => Buffer.new (size i)) = fun _ => [] :=
    funext fun i => Buffer.new_contents (size i)
  rwa [hstart] at hrun

/-- Two buffers of 2 and 0 bytes: a spilling `readFromIO`, a partial read, a swap, a read of
    everything and a `retrieveUntil`. -/
def demoOps : List (BufferOp Bool) :=
  [.append true [1, 2, 3], BufferOp.readFromIO false ⟨2, [7, 8, 9], 0⟩, .readAsString true 1,
    .swap true false, .readAllAsByte true, .retrieveUntil false 2]

/-- Where `demoOps` ends. -/
def demoEnd : Bool → Buffer
  | true => ⟨0, 0, [7, 8]⟩
  | false => ⟨2, 3, [1, 2, 3]⟩

theorem buffer_refines_fifo_demo :
    (∀ i, (demoEnd i).readIndex.toNat ≤ (demoEnd i).writeIndex.toNat ∧
      (demoEnd i).writeIndex.toNat ≤ (demoEnd i).buffer.length) ∧
    (queues Bool UInt8).run (fun _ => [])
      ((bufferRefinement Bool).labels (fun i => Buffer.new (cond i 2 0)) demoOps) =
        some (contentsOf demoEnd, [[], [], [1], [], [7, 8], []]) :=
  buffer_refines_fifo (fun i => cond i 2 0) demoOps demoEnd _ (by decide)

end PluginsEngine
