/-
  File:      PluginsEngine/Net/Buffer.lean
  Subject:   THE BUFFER OF A CONNECTION (net/tcp/buffer.hpp, buffer.cpp), as the code computes it.

  A `Buffer` is a vector of bytes and two 32-bit indices. The indices are `UInt32` and wrap as
  the code's do; `std::size_t` values (lengths, `buffer.size()`) are naturals. A pointer into the
  vector is its distance from `buffer.data()`.

  * `Buffer.Wf` -- `readIndex <= writeIndex <= buffer.size()`, with a size that 32 bits hold;
  * `Buffer.contents` -- the bytes in `[readIndex, writeIndex)`;
  * one lemma per operation: it keeps `Wf` and does to the contents what a queue would
    (`append_contents`, `readFromIO_contents`, `clearReadIndex_contents`, ...).
-/
import PluginsEngine.Library.Fifo
import PluginsEngine.Net.SocketOperation

namespace PluginsEngine

open Library

structure Buffer where
  readIndex : UInt32
  writeIndex : UInt32
  buffer : List UInt8
  deriving DecidableEq, Repr

namespace Buffer

/-! ## 1. The operations -/

def InitSize : UInt32 := 1024

def new (size : UInt32) : Buffer := ⟨0, 0, List.replicate size.toNat 0⟩

def isEmpty (b : Buffer) : Bool := b.readIndex == b.writeIndex

/-- `buffer.size() - writeIndex`, converted to 32 bits on return. -/
def writableBytes (b : Buffer) : UInt32 := UInt32.ofNat b.buffer.length - b.writeIndex

def readableBytes (b : Buffer) : UInt32 := b.writeIndex - b.readIndex

def resetIndex (b : Buffer) : Buffer := { b with readIndex := 0, writeIndex := 0 }

def ensureWritableBytes (b : Buffer) (len : Nat) : Buffer :=
  if b.writableBytes.toNat < len then
    { b with buffer := resize b.buffer (b.writeIndex.toNat + len) 0 }
  else b

def append (b : Buffer) (data : List UInt8) : Buffer :=
  let b' := b.ensureWritableBytes data.length
  { b' with
    buffer := overwrite b'.buffer b'.writeIndex.toNat data
    writeIndex := b'.writeIndex + UInt32.ofNat data.length }

/-- `sizeof(extrabuf)`. -/
def extrabufSize : Nat := 65536

/-- The lengths of the iovec `readFromIO` gives to `readv`: the writable part of the vector, and
    the stack buffer when the writable part is smaller than it. -/
def iovec (b : Buffer) : List Nat :=
  if b.writableBytes.toNat < extrabufSize then [b.writableBytes.toNat, extrabufSize]
  else [b.writableBytes.toNat]

/-- `readFromIO` with the answer `r` of `readv`: the buffer, the return value and `errorNo` when
    it is set. `readv` fills the vector's tail first and `extrabuf` with the rest. -/
def readFromIO (b : Buffer) (r : ReadvAnswer) : Buffer × Int × Option Errno :=
  let writable := b.writableBytes
  let filled := overwrite b.buffer b.writeIndex.toNat (r.received.take writable.toNat)
  if r.ret < 0 then
    (b, toInt32 r.ret, some r.errno)
  else if UInt32.ofNat r.ret.toNat ≤ writable then
    ({ b with buffer := filled, writeIndex := b.writeIndex + UInt32.ofNat r.ret.toNat },
      toInt32 r.ret, none)
  else
    let extrabuf := r.received.drop writable.toNat
    (append { b with buffer := filled, writeIndex := UInt32.ofNat b.buffer.length }
      (extrabuf.take (r.ret.toNat - writable.toNat)), toInt32 r.ret, none)

def clearReadIndex (b : Buffer) (len : UInt32) : Buffer :=
  if len < b.readableBytes then { b with readIndex := b.readIndex + len } else b.resetIndex

/-- What `readAsString` and `readBytes` share: clamp `len`, copy that many bytes from
    `readIndexPtr()`, clear them, return the count as `int`. -/
def readFront (b : Buffer) (len : UInt32) : Buffer × List UInt8 × Int :=
  let len := if len > b.readableBytes then b.readableBytes else len
  (b.clearReadIndex len,
    window b.buffer b.readIndex.toNat (b.readIndex.toNat + len.toNat), toInt32 len.toNat)

def readAsString (b : Buffer) (len : UInt32) : Buffer × List UInt8 × Int := b.readFront len

def readAllAsString (b : Buffer) : Buffer × List UInt8 × Int := b.readAsString b.readableBytes

def readBytes (b : Buffer) (len : UInt32) : Buffer × List UInt8 × Int := b.readFront len

def readAllAsByte (b : Buffer) : Buffer × List UInt8 × Int := b.readBytes b.readableBytes

def swap (b rhs : Buffer) : Buffer × Buffer :=
  (⟨rhs.readIndex, rhs.writeIndex, rhs.buffer⟩, ⟨b.readIndex, b.writeIndex, b.buffer⟩)

/-- `retrieveUntil(end)`, `endPtr` bytes behind `buffer.data()`. -/
def retrieveUntil (b : Buffer) (endPtr : Int) : Buffer :=
  if endPtr < b.readIndex.toNat ∨ endPtr > b.writeIndex.toNat then b
  else b.clearReadIndex (UInt32.ofNat (endPtr - b.readIndex.toNat).toNat)

/-! ## 2. Well-formed buffers and their contents -/

/-- **The invariant of a buffer**: the indices are in order and inside the vector, whose size a
    `uint32_t` holds. -/
structure Wf (b : Buffer) : Prop where
  read_le : b.readIndex.toNat ≤ b.writeIndex.toNat
  write_le : b.writeIndex.toNat ≤ b.buffer.length
  size_lt : b.buffer.length < 2 ^ 32

/-- The unread bytes: those in `[readIndex, writeIndex)`. -/
def contents (b : Buffer) : List UInt8 :=
  window b.buffer b.readIndex.toNat b.writeIndex.toNat

/-- Room for `len` more bytes without a write index of 2^32 or more, should the vector have to
    grow for them. -/
def growthFits (b : Buffer) (len : Nat) : Prop :=
  b.writableBytes.toNat < len → b.writeIndex.toNat + len < 2 ^ 32

instance (b : Buffer) (len : Nat) : Decidable (b.growthFits len) :=
  inferInstanceAs (Decidable (_ → _))

variable {b : Buffer}

theorem new_wf (size : UInt32) : (new size).Wf where
  read_le := Nat.le_refl _
  write_le := Nat.zero_le _
  size_lt := by
    rw [new, List.length_replicate]
    exact size.toNat_lt

@[simp] theorem new_contents (size : UInt32) : (new size).contents = [] := window_self _ _

theorem Wf.length_contents (h : b.Wf) :
    b.contents.length = b.writeIndex.toNat - b.readIndex.toNat :=
  length_window h.write_le

theorem Wf.writable_toNat (h : b.Wf) :
    b.writableBytes.toNat = b.buffer.length - b.writeIndex.toNat := by
  have := h.write_le
  have := h.size_lt
  rw [writableBytes, UInt32.toNat_sub, UInt32.toNat_ofNat']
  omega

/-- `readableBytes()` is the number of unread bytes. -/
theorem Wf.readable_toNat (h : b.Wf) : b.readableBytes.toNat = b.contents.length := by
  have := h.read_le
  have := h.write_le
  have := h.size_lt
  rw [h.length_contents, readableBytes, UInt32.toNat_sub]
  omega

/-- `isEmpty()` says whether there is no unread byte. -/
theorem Wf.isEmpty_iff (h : b.Wf) : b.isEmpty = true ↔ b.contents = [] := by
  have := h.read_le
  rw [isEmpty, beq_iff_eq, ← UInt32.toNat_inj, ← List.length_eq_zero_iff, h.length_contents]
  omega

/-! ## 3. One lemma per operation -/

theorem resetIndex_wf (h : b.Wf) : b.resetIndex.Wf where
  read_le := Nat.le_refl _
  write_le := Nat.zero_le _
  size_lt := h.size_lt

@[simp] theorem resetIndex_contents (b : Buffer) : b.resetIndex.contents = [] := window_self _ _

@[simp] theorem ensureWritableBytes_writeIndex (b : Buffer) (len : Nat) :
    (b.ensureWritableBytes len).writeIndex = b.writeIndex := by
  unfold ensureWritableBytes
  split <;> rfl

/-- After `ensureWritableBytes(len)` there is room for `len` bytes behind the write index. -/
theorem ensureWritableBytes_wf (h : b.Wf) {len : Nat} (hg : b.growthFits len) :
    (b.ensureWritableBytes len).Wf ∧
      b.writeIndex.toNat + len ≤ (b.ensureWritableBytes len).buffer.length := by
  have hr := h.read_le
  have hw := h.write_le
  have hwr := h.writable_toNat
  unfold ensureWritableBytes
  by_cases hlt : b.writableBytes.toNat < len
  · have hfit := hg hlt
    rw [if_pos hlt]
    refine ⟨⟨hr, ?_, ?_⟩, ?_⟩
    · show b.writeIndex.toNat ≤ (resize _ _ _).length
      rw [length_resize]
      omega
    · show (resize _ _ _).length < 2 ^ 32
      rw [length_resize]
      exact hfit
    · exact Nat.le_of_eq (length_resize _ _ _).symm
  · rw [if_neg hlt]
    exact ⟨h, by omega⟩

/-- `ensureWritableBytes` leaves the unread bytes alone. -/
theorem ensureWritableBytes_contents (h : b.Wf) (len : Nat) :
    (b.ensureWritableBytes len).contents = b.contents := by
  unfold ensureWritableBytes
  split
  · exact window_resize 0 h.write_le (Nat.le_add_right _ _)
  · rfl

/-- What the write of `d` bytes at the write index does, once there is room for them. -/
theorem write_behind (h : b.Wf) {d : List UInt8}
    (hroom : b.writeIndex.toNat + d.length ≤ b.buffer.length) :
    let b' : Buffer := { b with
      buffer := overwrite b.buffer b.writeIndex.toNat d
      writeIndex := b.writeIndex + UInt32.ofNat d.length }
    b'.Wf ∧ b'.contents = b.contents ++ d := by
  have hr := h.read_le
  have hs := h.size_lt
  have hidx : (b.writeIndex + UInt32.ofNat d.length).toNat = b.writeIndex.toNat + d.length := by
    rw [UInt32.toNat_add, UInt32.toNat_ofNat']
    omega
  have hlen := length_overwrite b.buffer b.writeIndex.toNat d
  refine ⟨⟨?_, ?_, ?_⟩, ?_⟩
  · show b.readIndex.toNat ≤ (b.writeIndex + UInt32.ofNat d.length).toNat
    omega
  · show (b.writeIndex + UInt32.ofNat d.length).toNat ≤ (overwrite _ _ _).length
    omega
  · show (overwrite _ _ _).length < 2 ^ 32
    omega
  · show window (overwrite _ _ _) _ (b.writeIndex + UInt32.ofNat d.length).toNat = _
    rw [hidx]
    exact window_overwrite_append hr hroom

/-- **`append` pushes its bytes at the back.** -/
theorem append_contents (h : b.Wf) (data : List UInt8) (hg : b.growthFits data.length) :
    (b.append data).Wf ∧ (b.append data).contents = b.contents ++ data := by
  obtain ⟨hwf, hroom⟩ := ensureWritableBytes_wf h hg
  have hw := write_behind hwf (d := data) (by rwa [ensureWritableBytes_writeIndex])
  rw [ensureWritableBytes_contents h] at hw
  exact hw

/-- **`clearReadIndex` drops the front**, all of it when `len` reaches the number of unread
    bytes. -/
theorem clearReadIndex_contents (h : b.Wf) (len : UInt32) :
    (b.clearReadIndex len).Wf ∧ (b.clearReadIndex len).contents = b.contents.drop len.toNat := by
  have hr := h.read_le
  have hw := h.write_le
  have hs := h.size_lt
  have hlen := h.length_contents
  have hread := h.readable_toNat
  unfold clearReadIndex
  by_cases hlt : len < b.readableBytes
  · have hnat : len.toNat < b.contents.length := by
      rw [← hread]
      exact UInt32.lt_iff_toNat_lt.mp hlt
    have hidx : (b.readIndex + len).toNat = b.readIndex.toNat + len.toNat := by
      rw [UInt32.toNat_add]
      omega
    rw [if_pos hlt]
    refine ⟨⟨?_, hw, hs⟩, ?_⟩
    · show (b.readIndex + len).toNat ≤ b.writeIndex.toNat
      omega
    · show window _ (b.readIndex + len).toNat _ = _
      rw [hidx, contents, drop_window]
  · have hnat : b.contents.length ≤ len.toNat := by
      rw [← hread]
      exact Nat.not_lt.mp fun e => hlt (UInt32.lt_iff_toNat_lt.mpr e)
    rw [if_neg hlt, List.drop_eq_nil_of_le hnat]
    exact ⟨resetIndex_wf h, resetIndex_contents b⟩

/-- **A read takes the first `min len size` bytes**: they are returned and gone. -/
theorem readFront_contents (h : b.Wf) (len : UInt32) :
    (b.readFront len).1.Wf ∧ (b.readFront len).1.contents = b.contents.drop len.toNat ∧
      (b.readFront len).2.1 = b.contents.take len.toNat := by
  have hlen := h.length_contents
  have hr := h.read_le
  have hread := h.readable_toNat
  unfold readFront
  by_cases hgt : len > b.readableBytes
  · have hnat : b.contents.length ≤ len.toNat := by
      rw [← hread]
      exact Nat.le_of_lt (UInt32.lt_iff_toNat_lt.mp hgt)
    obtain ⟨hwf, hc⟩ := clearReadIndex_contents h b.readableBytes
    rw [hread, List.drop_length] at hc
    simp only [if_pos hgt]
    refine ⟨hwf, ?_, ?_⟩
    · rw [hc, List.drop_eq_nil_of_le hnat]
    · rw [List.take_of_length_le hnat, hread, hlen, Nat.add_sub_cancel' hr]
      rfl
  · have hnat : len.toNat ≤ b.contents.length := by
      rw [← hread]
      exact Nat.not_lt.mp fun e => hgt (UInt32.lt_iff_toNat_lt.mpr e)
    obtain ⟨hwf, hc⟩ := clearReadIndex_contents h len
    simp only [if_neg hgt]
    exact ⟨hwf, hc, (take_window (by omega)).symm⟩

/-- The bytes `readv` put into the iovec are `ret` many. -/
theorem length_received {r : ReadvAnswer} {iov : List Nat} (hf : r.fits iov) (h₀ : 0 ≤ r.ret) :
    r.received.length = r.ret.toNat := by
  rcases hf with hneg | ⟨hs, _⟩
  · omega
  · rw [ReadvAnswer.received, List.length_take]
    omega

/-- Room for what `readFromIO` appends from `extrabuf`: the vector is full then. -/
def readGrowthFits (b : Buffer) (r : ReadvAnswer) : Prop :=
  b.writableBytes.toNat < r.ret.toNat →
    b.buffer.length + (r.ret.toNat - b.writableBytes.toNat) < 2 ^ 32

instance (b : Buffer) (r : ReadvAnswer) : Decidable (b.readGrowthFits r) :=
  inferInstanceAs (Decidable (_ → _))

/-- **`readFromIO` pushes exactly the bytes `readv` delivered**, whether they fit into the vector
    or spill into `extrabuf`; an error and an end of file push nothing. -/
theorem readFromIO_contents (h : b.Wf) {r : ReadvAnswer} (hf : r.fits b.iovec)
    (hg : b.readGrowthFits r) :
    ( Buffer.readFromIO b r).1.Wf ∧
      ( Buffer.readFromIO b r).1.contents = b.contents ++ r.received := by
  have hw := h.write_le
  have hs := h.size_lt
  have hwr := h.writable_toNat
  unfold readFromIO
  by_cases hneg : r.ret < 0
  · have hnil : r.received = [] := by
      rw [ReadvAnswer.received, Int.toNat_eq_zero.mpr (by omega), List.take_zero]
    simp only [if_pos hneg]
    rw [hnil, List.append_nil]
    exact ⟨h, rfl⟩
  have hrec := length_received hf (by omega)
  -- the count fits 32 bits: it is at most the writable part and, below 65536 of it, extrabuf
  have hcount : (UInt32.ofNat r.ret.toNat).toNat = r.ret.toNat := by
    have hle : r.ret ≤ (b.iovec.sum : Nat) := hf.resolve_left hneg |>.2
    unfold iovec extrabufSize at hle
    rw [UInt32.toNat_ofNat', Nat.mod_eq_of_lt]
    split at hle <;> simp only [List.sum_cons, List.sum_nil] at hle <;> omega
  by_cases hle : UInt32.ofNat r.ret.toNat ≤ b.writableBytes
  · have hnat : r.ret.toNat ≤ b.writableBytes.toNat := by
      rw [← hcount]
      exact UInt32.le_iff_toNat_le.mp hle
    simp only [if_neg hneg, if_pos hle]
    rw [List.take_of_length_le (by omega), ← hrec]
    exact write_behind h (by omega)
  · have hnat : b.writableBytes.toNat < r.ret.toNat := by
      rw [← hcount]
      exact Nat.not_le.mp fun e => hle (UInt32.le_iff_toNat_le.mpr e)
    simp only [if_neg hneg, if_neg hle]
    have htl : (r.received.take b.writableBytes.toNat).length = b.writableBytes.toNat := by
      rw [List.length_take]
      omega
    -- first the vector is filled to its end, then the rest is appended
    obtain ⟨hwf₁, hc₁⟩ := write_behind h (d := r.received.take b.writableBytes.toNat) (by omega)
    have hidx : b.writeIndex + UInt32.ofNat (r.received.take b.writableBytes.toNat).length =
        UInt32.ofNat b.buffer.length := by
      rw [← UInt32.toNat_inj, UInt32.toNat_add, UInt32.toNat_ofNat', UInt32.toNat_ofNat', htl]
      omega
    rw [hidx] at hwf₁ hc₁
    have hdl : (r.received.drop b.writableBytes.toNat).length =
        r.ret.toNat - b.writableBytes.toNat := by
      rw [List.length_drop, hrec]
    rw [← hdl, List.take_length]
    have hfull : (UInt32.ofNat b.buffer.length).toNat = b.buffer.length := by
      rw [UInt32.toNat_ofNat', Nat.mod_eq_of_lt hs]
    obtain ⟨hwf₂, hc₂⟩ := append_contents hwf₁ (r.received.drop b.writableBytes.toNat)
      (fun _ => by
        rw [hdl]
        show (UInt32.ofNat b.buffer.length).toNat + _ < _
        rw [hfull]
        exact hg hnat)
    refine ⟨hwf₂, ?_⟩
    rw [hc₂, hc₁, List.append_assoc, List.take_append_drop]

/-- **`retrieveUntil(end)` drops the bytes before `end`** when `end` lies in the readable range
    and changes nothing otherwise. -/
theorem retrieveUntil_contents (h : b.Wf) (endPtr : Int) :
    (b.retrieveUntil endPtr).Wf ∧
      (b.retrieveUntil endPtr).contents =
        if b.readIndex.toNat ≤ endPtr ∧ endPtr ≤ b.writeIndex.toNat then
          b.contents.drop (endPtr - b.readIndex.toNat).toNat
        else b.contents := by
  have hw := h.write_le
  have hs := h.size_lt
  unfold retrieveUntil
  by_cases hout : endPtr < b.readIndex.toNat ∨ endPtr > b.writeIndex.toNat
  · rw [if_pos hout, if_neg (by omega)]
    exact ⟨h, rfl⟩
  · rw [if_neg hout, if_pos (by omega)]
    obtain ⟨hwf, hc⟩ :=
      clearReadIndex_contents h (UInt32.ofNat (endPtr - b.readIndex.toNat).toNat)
    rw [UInt32.toNat_ofNat', Nat.mod_eq_of_lt (by omega)] at hc
    exact ⟨hwf, hc⟩

end Buffer

end PluginsEngine
