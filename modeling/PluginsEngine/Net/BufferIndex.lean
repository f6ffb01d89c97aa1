/-
  File:      PluginsEngine/Net/BufferIndex.lean
  Subject:   HOW FAR THE INDICES OF A BUFFER GO (net/tcp/buffer.cpp).

  The indices go back to 0 when a read takes all that is unread, and only then. A consumer that
  leaves something unread each time moves them on for ever, however little that is.

  `bufferTraffic` is one buffer under any calls, with two numbers beside it: the bytes that are
  unread in truth, and the bytes taken in since the buffer was last empty.

  * `Buffer.readFromIO_writeIndex`, `Buffer.clearReadIndex_writeIndex` -- what a call does to the
    write index, modulo 2^32;
  * `InStep` -- the indices stand where the traffic says;
  * `indexLaw_iff_emptiedInTime` -- the indices are in order after each call of a run exactly when
    no call takes in the 2^32nd byte since the buffer was last empty;
  * `partial_reads_wrap_the_index` -- bytes come in singly and are read singly, one late: after
    2^32 bytes the write index is behind the read index.
-/
import PluginsEngine.Library.Runs
import PluginsEngine.Net.Buffer

namespace PluginsEngine

open Library

/-! ## 1. A buffer and its traffic -/

inductive BufferCall where
  | append (data : List UInt8)
  | readFromIO (r : ReadvAnswer)
  | readAsString (len : UInt32)
  | readBytes (len : UInt32)
  | clearReadIndex (len : UInt32)
  | retrieveUntil (endPtr : Int)

namespace BufferCall

/-- The bytes a call takes in. -/
def incoming : BufferCall → Nat
  | .append data => data.length
  | BufferCall.readFromIO r => r.received.length
  | _ => 0

/-- The bytes a call asks to be taken out. -/
def outgoing (b : Buffer) : BufferCall → Nat
  | .readAsString len | .readBytes len | .clearReadIndex len => len.toNat
  | .retrieveUntil endPtr =>
    if b.readIndex.toNat ≤ endPtr ∧ endPtr ≤ b.writeIndex.toNat then
      (endPtr - b.readIndex.toNat).toNat
    else 0
  | _ => 0

/-- `readv` answers as documented. -/
def fits (b : Buffer) : BufferCall → Prop
  | BufferCall.readFromIO r => r.fits b.iovec
  | _ => True

instance (b : Buffer) (c : BufferCall) : Decidable (c.fits b) := by
  cases c <;> unfold BufferCall.fits <;> infer_instance

end BufferCall

/-- The buffer after a call. -/
def Buffer.after (b : Buffer) : BufferCall → Buffer
  | .append data => b.append data
  | BufferCall.readFromIO r => ( Buffer.readFromIO b r).1
  | .readAsString len => (b.readAsString len).1
  | .readBytes len => (b.readBytes len).1
  | .clearReadIndex len => b.clearReadIndex len
  | .retrieveUntil endPtr => b.retrieveUntil endPtr

def bufferCalls : Machine Buffer BufferCall Unit where
  step b c := if c.fits b then some (b.after c, ()) else none

/-- What went through a buffer: the bytes unread, and those taken in since it was last empty. -/
structure Traffic where
  unread : Nat
  taken : Nat

def trafficAfter (b : Buffer) (c : BufferCall) (_ : Unit) (t : Traffic) : Traffic :=
  let unread := t.unread + c.incoming - c.outgoing b
  ⟨unread, if unread = 0 then 0 else t.taken + c.incoming⟩

abbrev TrafficState := Buffer × Traffic

/-- A buffer whose unread bytes never exceed `N`. -/
def bufferTraffic (N : UInt32) : Machine TrafficState BufferCall Unit :=
  (bufferCalls.withHistory trafficAfter).restrict fun s c =>
    (trafficAfter s.1 c () s.2).unread ≤ N.toNat

def TrafficState.start (size : UInt32) : TrafficState := (Buffer.new size, ⟨0, 0⟩)

/-- **The indices are in order**: `readIndex <= writeIndex <= buffer.size()`, and
    `readableBytes()` is the number of unread bytes. -/
structure IndexLaw (_ : TrafficState) (_ : BufferCall) (s' : TrafficState) (_ : Unit) : Prop where
  read_le : s'.1.readIndex.toNat ≤ s'.1.writeIndex.toNat
  write_le : s'.1.writeIndex.toNat ≤ s'.1.buffer.length
  readable : s'.1.readableBytes.toNat = s'.2.unread

/-- **The buffer is emptied in time**: a call takes in less than 2^32 bytes together with those
    since the buffer was last empty. -/
def EmptiedInTime (s : TrafficState) (c : BufferCall) (_ : TrafficState) (_ : Unit) : Prop :=
  s.2.taken + c.incoming < 2 ^ 32

/-! ## 2. The write index -/

namespace Buffer

variable {b : Buffer}

theorem append_writeIndex (b : Buffer) (data : List UInt8) :
    (b.append data).writeIndex = b.writeIndex + UInt32.ofNat data.length := by
  unfold append
  simp only [ensureWritableBytes_writeIndex]

theorem append_readIndex (b : Buffer) (data : List UInt8) :
    (b.append data).readIndex = b.readIndex := by
  unfold append ensureWritableBytes
  split <;> rfl

/-- `readFromIO` moves the write index by the bytes received, modulo 2^32. -/
theorem readFromIO_writeIndex (h : b.Wf) {r : ReadvAnswer} (hf : r.fits b.iovec) :
    ( Buffer.readFromIO b r).1.writeIndex = b.writeIndex + UInt32.ofNat r.received.length ∧
      ( Buffer.readFromIO b r).1.readIndex = b.readIndex := by
  have hw := h.write_le
  have hs := h.size_lt
  have hwr := h.writable_toNat
  unfold readFromIO
  by_cases hneg : r.ret < 0
  · have hnil : r.received = [] := by
      rw [ReadvAnswer.received, Int.toNat_eq_zero.mpr (by omega), List.take_zero]
    rw [if_pos hneg, hnil]
    refine ⟨?_, rfl⟩
    rw [← UInt32.toNat_inj, UInt32.toNat_add]
    exact (Nat.mod_eq_of_lt b.writeIndex.toNat_lt).symm
  have hrec := length_received hf (by omega)
  simp only [if_neg hneg]
  split
  · rw [hrec]
    exact ⟨rfl, rfl⟩
  · rename_i hle
    rw [append_writeIndex, append_readIndex]
    refine ⟨?_, rfl⟩
    -- the vector is filled to its end, and the rest appended
    have hnat : b.writableBytes.toNat < r.ret.toNat := by
      by_contra hc
      refine hle (UInt32.le_iff_toNat_le.mpr ?_)
      rw [UInt32.toNat_ofNat']
      exact Nat.le_trans (Nat.mod_le _ _) (by omega)
    rw [← UInt32.toNat_inj, UInt32.toNat_add, UInt32.toNat_add, UInt32.toNat_ofNat',
      UInt32.toNat_ofNat', UInt32.toNat_ofNat', List.length_take, List.length_drop, hrec]
    omega

/-- The write index goes back to 0 when all is read, and stays otherwise. -/
theorem clearReadIndex_writeIndex (h : b.Wf) (len : UInt32) :
    (b.clearReadIndex len).writeIndex.toNat =
      if b.contents.length ≤ len.toNat then 0 else b.writeIndex.toNat := by
  have hread := h.readable_toNat
  unfold clearReadIndex
  by_cases hlt : len < b.readableBytes
  · rw [if_pos hlt, if_neg]
    rw [← hread]
    exact Nat.not_le.mpr (UInt32.lt_iff_toNat_lt.mp hlt)
  · rw [if_neg hlt, if_pos]
    · rfl
    · rw [← hread]
      exact Nat.not_lt.mp fun e => hlt (UInt32.lt_iff_toNat_lt.mpr e)

/-- A read of `len` bytes clears as `clearReadIndex(len)` does. -/
theorem readFront_fst (b : Buffer) (len : UInt32) :
    (b.readFront len).1 = b.clearReadIndex len := by
  unfold readFront
  by_cases hgt : len > b.readableBytes
  · have hnot : ¬ len < b.readableBytes := fun hlt =>
      UInt32.lt_irrefl _ (UInt32.lt_trans hlt hgt)
    simp only [if_pos hgt, clearReadIndex, if_neg (UInt32.lt_irrefl _), if_neg hnot]
  · simp only [if_neg hgt]

/-- **What a call does to the indices.** It moves the write index by the bytes it takes in, modulo
    2^32, and leaves the read index; or it takes nothing in and clears. -/
theorem after_cases (h : b.Wf) {c : BufferCall} (hf : c.fits b) :
    (c.outgoing b = 0 ∧ (b.after c).readIndex = b.readIndex ∧
      (b.after c).writeIndex = b.writeIndex + UInt32.ofNat c.incoming ∧
      (b.writeIndex.toNat + c.incoming < 2 ^ 32 →
        (b.after c).Wf ∧ (b.after c).contents.length = b.contents.length + c.incoming)) ∨
    (c.incoming = 0 ∧ ∃ len, b.after c = b.clearReadIndex len ∧ c.outgoing b = len.toNat) := by
  have hw := h.write_le
  cases c with
  | append data =>
    refine .inl ⟨rfl, append_readIndex b data, append_writeIndex b data, fun hlt => ?_⟩
    obtain ⟨hwf, hc⟩ := append_contents h data (fun _ => hlt)
    exact ⟨hwf, by rw [Buffer.after, hc, List.length_append, BufferCall.incoming]⟩
  | readFromIO r =>
    obtain ⟨hwi, hri⟩ := readFromIO_writeIndex h hf
    refine .inl ⟨rfl, hri, hwi, fun hlt => ?_⟩
    have hwr := h.writable_toNat
    obtain ⟨hwf, hc⟩ := readFromIO_contents h hf (fun hg => by
      have hrec := length_received hf (by omega)
      simp only [BufferCall.incoming] at hlt
      omega)
    exact ⟨hwf, by rw [Buffer.after, hc, List.length_append, BufferCall.incoming]⟩
  | readAsString len => exact .inr ⟨rfl, len, readFront_fst b len, rfl⟩
  | readBytes len => exact .inr ⟨rfl, len, readFront_fst b len, rfl⟩
  | clearReadIndex len => exact .inr ⟨rfl, len, rfl, rfl⟩
  | retrieveUntil endPtr =>
    have hs := h.size_lt
    have hin : (BufferCall.retrieveUntil endPtr).incoming = 0 := rfl
    have hafter : b.after (.retrieveUntil endPtr) = b.retrieveUntil endPtr := rfl
    rw [hin, hafter, retrieveUntil, BufferCall.outgoing]
    by_cases hout : endPtr < b.readIndex.toNat ∨ endPtr > b.writeIndex.toNat
    · rw [if_pos hout, if_neg (by omega)]
      refine .inl ⟨rfl, rfl, ?_, fun _ => ⟨h, rfl⟩⟩
      rw [← UInt32.toNat_inj, UInt32.toNat_add]
      exact (Nat.mod_eq_of_lt b.writeIndex.toNat_lt).symm
    · rw [if_neg hout, if_pos (by omega)]
      refine .inr ⟨rfl, _, rfl, ?_⟩
      rw [UInt32.toNat_ofNat', Nat.mod_eq_of_lt (by omega)]

end Buffer

/-! ## 3. The indices of a run -/

/-- **The indices stand where the traffic says**: the write index counts the bytes taken in since
    the buffer was last empty. -/
structure InStep (s : TrafficState) : Prop where
  wf : s.1.Wf
  unread_eq : s.1.contents.length = s.2.unread
  taken_eq : s.1.writeIndex.toNat = s.2.taken
  drained : s.2.unread = 0 → s.2.taken = 0

theorem TrafficState.start_inStep (size : UInt32) : InStep (TrafficState.start size) where
  wf := Buffer.new_wf size
  unread_eq := by rw [TrafficState.start, Buffer.new_contents, List.length_nil]
  taken_eq := rfl
  drained _ := rfl

/-- Indices that stand where the traffic says are in order. -/
theorem InStep.indexLaw {s s' : TrafficState} {c : BufferCall} {o : Unit} (h : InStep s') :
    IndexLaw s c s' o where
  read_le := h.wf.read_le
  write_le := h.wf.write_le
  readable := h.wf.readable_toNat.trans h.unread_eq

/-- What a step of the traffic is. -/
theorem bufferTraffic_step_iff {N : UInt32} {s s' : TrafficState} {c : BufferCall} {o : Unit} :
    (bufferTraffic N).step s c = some (s', o) ↔
      c.fits s.1 ∧ s' = (s.1.after c, trafficAfter s.1 c () s.2) ∧ s'.2.unread ≤ N.toNat := by
  unfold bufferTraffic
  rw [Machine.restrict_step_iff, Machine.withHistory_step_iff]
  simp only [bufferCalls]
  constructor
  · intro ⟨hN, hs, ht⟩
    split at hs
    · rename_i hf
      obtain ⟨hb, -⟩ := Prod.mk.inj (Option.some.inj hs)
      have hs' : s' = (s.1.after c, trafficAfter s.1 c () s.2) := Prod.ext hb.symm ht
      exact ⟨hf, hs', hs' ▸ hN⟩
    · cases hs
  · intro ⟨hf, hs', hN⟩
    subst hs'
    exact ⟨hN, by rw [if_pos hf], rfl⟩

/-- A call that takes in less than 2^32 bytes with those before it keeps the indices in step. -/
theorem InStep.after {s : TrafficState} {c : BufferCall} (h : InStep s) (hf : c.fits s.1)
    (hlt : s.2.taken + c.incoming < 2 ^ 32) :
    InStep (s.1.after c, trafficAfter s.1 c () s.2) := by
  have hu := h.unread_eq
  have ht := h.taken_eq
  have hd := h.drained
  rcases Buffer.after_cases h.wf hf with ⟨hout, hri, hwi, hgrow⟩ | ⟨hin, len, hafter, hout⟩
  · -- bytes come in
    obtain ⟨hwf, hc⟩ := hgrow (by omega)
    have hw : (s.1.after c).writeIndex.toNat = s.1.writeIndex.toNat + c.incoming := by
      rw [hwi, UInt32.toNat_add, UInt32.toNat_ofNat']
      omega
    refine ⟨hwf, ?_, ?_, ?_⟩
    · show (s.1.after c).contents.length = s.2.unread + c.incoming - c.outgoing s.1
      omega
    · show (s.1.after c).writeIndex.toNat =
        if s.2.unread + c.incoming - c.outgoing s.1 = 0 then 0 else s.2.taken + c.incoming
      split <;> omega
    · intro hzero
      exact if_pos hzero
  · -- bytes go out: the write index goes back to 0 when they are the last
    obtain ⟨hwf, hc⟩ := Buffer.clearReadIndex_contents h.wf len
    have hw := Buffer.clearReadIndex_writeIndex h.wf len
    rw [← hafter] at hwf hc hw
    have hlen : (s.1.after c).contents.length = s.2.unread - len.toNat := by
      rw [hc, List.length_drop, hu]
    refine ⟨hwf, ?_, ?_, ?_⟩
    · show (s.1.after c).contents.length = s.2.unread + c.incoming - c.outgoing s.1
      omega
    · show (s.1.after c).writeIndex.toNat =
        if s.2.unread + c.incoming - c.outgoing s.1 = 0 then 0 else s.2.taken + c.incoming
      rw [hw]
      split <;> split <;> omega
    · intro hzero
      exact if_pos hzero

/-- When the bytes since the buffer was last empty reach 2^32, the write index ends up behind the
    read index: fewer than 2^32 bytes are unread. -/
theorem InStep.write_behind_read {s : TrafficState} {c : BufferCall} (h : InStep s)
    (hf : c.fits s.1) (hN : (trafficAfter s.1 c () s.2).unread < 2 ^ 32)
    (hge : 2 ^ 32 ≤ s.2.taken + c.incoming) :
    (s.1.after c).writeIndex.toNat < (s.1.after c).readIndex.toNat := by
  have hu := h.unread_eq
  have ht := h.taken_eq
  have hlen := h.wf.length_contents
  have hread := h.wf.read_le
  have hwlt := s.1.writeIndex.toNat_lt
  rcases Buffer.after_cases h.wf hf with ⟨hout, hri, hwi, -⟩ | ⟨hin, -⟩
  · have hsum : s.2.unread + c.incoming - c.outgoing s.1 < 2 ^ 32 := hN
    rw [hri, hwi, UInt32.toNat_add, UInt32.toNat_ofNat']
    omega
  · omega

/-- **One call**: the indices stay in order exactly when the buffer was emptied in time. -/
theorem indexLaw_step {N : UInt32} {s s' : TrafficState} {c : BufferCall} {o : Unit}
    (h : InStep s) (hs : (bufferTraffic N).step s c = some (s', o)) :
    (IndexLaw s c s' o ↔ EmptiedInTime s c s' o) ∧ (EmptiedInTime s c s' o → InStep s') := by
  obtain ⟨hf, rfl, hN⟩ := bufferTraffic_step_iff.mp hs
  have hin : s.2.taken + c.incoming < 2 ^ 32 →
      InStep (s.1.after c, trafficAfter s.1 c () s.2) := h.after hf
  refine ⟨⟨fun hlaw => ?_, fun hlt => (hin hlt).indexLaw⟩, hin⟩
  by_contra hge
  have hNlt := N.toNat_lt
  have hback := h.write_behind_read hf (Nat.lt_of_le_of_lt hN hNlt) (Nat.not_lt.mp hge)
  exact Nat.not_le.mpr hback hlaw.read_le

/-- **The indices of a buffer are in order exactly as long as it is emptied in time.** -/
theorem indexLaw_iff_emptiedInTime (N size : UInt32) (calls : List BufferCall) :
    (bufferTraffic N).Along IndexLaw (TrafficState.start size) calls ↔
      (bufferTraffic N).Along EmptiedInTime (TrafficState.start size) calls :=
  Machine.along_iff (I := InStep) (fun _ _ _ _ h hs => indexLaw_step h hs)
    (TrafficState.start_inStep size)

/-! ## 4. A consumer one byte late -/

/-- Bytes come in singly and are read singly. -/
def oneLate (rounds : Nat) : List BufferCall :=
  (List.replicate rounds [.append [0], .clearReadIndex 1]).flatten

theorem appendOne_step {s : TrafficState} (hu : s.2.unread = 1) :
    (bufferTraffic 2).step s (.append [0]) =
      some ((s.1.append [0], ⟨2, s.2.taken + 1⟩), ()) := by
  refine bufferTraffic_step_iff.mpr ⟨trivial, ?_, Nat.le_refl 2⟩
  rw [trafficAfter, hu]
  rfl

theorem clearOne_step {s : TrafficState} (hu : s.2.unread = 2) :
    (bufferTraffic 2).step s (.clearReadIndex 1) =
      some ((s.1.clearReadIndex 1, ⟨1, s.2.taken⟩), ()) := by
  refine bufferTraffic_step_iff.mpr ⟨trivial, ?_, Nat.le_succ 1⟩
  rw [trafficAfter, hu]
  rfl

/-- With a byte left over, each round moves the write index on. -/
theorem oneLate_taken {s : TrafficState} {rounds : Nat} (hu : s.2.unread = 1)
    (hA : (bufferTraffic 2).Along EmptiedInTime s (oneLate (rounds + 1))) :
    s.2.taken + rounds + 1 < 2 ^ 32 := by
  induction rounds generalizing s with
  | zero =>
    obtain ⟨hlt, -⟩ := Machine.along_cons hA (appendOne_step hu)
    exact hlt
  | succ n ih =>
    obtain ⟨-, hA⟩ := Machine.along_cons hA (appendOne_step hu)
    obtain ⟨-, hA⟩ := Machine.along_cons hA (clearOne_step rfl)
    have hlt : s.2.taken + 1 + n + 1 < 2 ^ 32 := ih rfl hA
    omega

/-- **A buffer that is never emptied**: of two bytes at most one is left over, and once 2^32 bytes
    have come in the write index is behind the read index. -/
theorem partial_reads_wrap_the_index :
    ¬ (bufferTraffic 2).Along IndexLaw (TrafficState.start Buffer.InitSize)
      (.append [0] :: oneLate (2 ^ 32 - 1)) := by
  intro h
  have hA := (Machine.along_iff (I := InStep) (fun _ _ _ _ h hs => indexLaw_step h hs)
    (TrafficState.start_inStep Buffer.InitSize)).mp h
  have hs : (bufferTraffic 2).step (TrafficState.start Buffer.InitSize) (.append [0]) =
      some (((Buffer.new Buffer.InitSize).append [0], ⟨1, 1⟩), ()) :=
    bufferTraffic_step_iff.mpr ⟨trivial, rfl, Nat.le_succ 1⟩
  obtain ⟨-, hA⟩ := Machine.along_cons hA hs
  have hlt : 1 + (2 ^ 32 - 2) + 1 < 2 ^ 32 := oneLate_taken rfl hA
  exact absurd hlt (by decide)

end PluginsEngine
