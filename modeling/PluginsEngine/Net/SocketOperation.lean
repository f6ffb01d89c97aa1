/-
  File:      PluginsEngine/Net/SocketOperation.lean
  Subject:   THE SOCKET CALLS, AS THEY ANSWER (net/tcp/socketOperation.cpp).

  `SocketOperation::readv` and `SocketOperation::write` hand their arguments to the kernel and
  retry on EINTR. The kernel is outside the repository: its answer is an argument of the model,
  and `fits` says which answers readv(2) and write(2) document for what they were given.
-/
import Mathlib.Algebra.Ring.Int.Defs
import Mathlib.Algebra.Ring.Nat

namespace PluginsEngine

/-- `errno`, as the code compares it. -/
abbrev Errno := Int

def EINVAL : Errno := 22
def EPIPE : Errno := 32
def EWOULDBLOCK : Errno := 11
def ECONNRESET : Errno := 104
def ENOTCONN : Errno := 107

/-- The conversion of a `ssize_t` to `int`. -/
def toInt32 (x : Int) : Int := Int.bmod x (2 ^ 32)

theorem toInt32_eq {x : Int} (h₀ : -2 ^ 31 ≤ x) (h₁ : x < 2 ^ 31) : toInt32 x = x := by
  rw [toInt32, Int.bmod_eq_iff (Nat.two_pow_pos 32)]
  omega

/-- What one call transfers at most (write(2): 0x7ffff000 bytes, on every Linux system). -/
def maxRwCount : Nat := 0x7ffff000

/-- An answer of `SocketOperation::write`: the return value, and `errno` as it reads after the
    call (a successful call leaves an older value there). -/
structure WriteAnswer where
  ret : Int
  errno : Errno
  deriving DecidableEq, Repr

/-- The answers write(2) documents for `count` bytes offered. -/
def WriteAnswer.fits (a : WriteAnswer) (count : Nat) : Prop :=
  a.ret = -1 ∨ (0 ≤ a.ret ∧ a.ret ≤ count ∧ a.ret ≤ maxRwCount)

instance (a : WriteAnswer) (count : Nat) : Decidable (a.fits count) :=
  inferInstanceAs (Decidable (_ ∨ _))

/-- The bytes of `offered` that the answer says the socket took. -/
def WriteAnswer.taken (a : WriteAnswer) (offered : List UInt8) : List UInt8 :=
  offered.take a.ret.toNat

/-- The errors after which `TcpConnect::write` gives the data up. -/
def WriteAnswer.fault (a : WriteAnswer) : Prop :=
  a.ret < 0 ∧ (a.errno = EPIPE ∨ a.errno = ECONNRESET ∨ a.errno = ENOTCONN ∨ a.errno = EINVAL)

instance (a : WriteAnswer) : Decidable a.fault :=
  inferInstanceAs (Decidable (_ ∧ _))

theorem WriteAnswer.taken_eq_nil {a : WriteAnswer} {offered : List UInt8} (h : a.ret ≤ 0) :
    a.taken offered = [] := by
  rw [WriteAnswer.taken, Int.toNat_eq_zero.mpr h, List.take_zero]

/-- An answer of `SocketOperation::readv`: the return value, the bytes that stood in the stream
    (the call puts the first `ret` of them into the iovec, in order) and `errno`. -/
structure ReadvAnswer where
  ret : Int
  stream : List UInt8
  errno : Errno
  deriving DecidableEq, Repr

/-- The answers readv(2) documents for an iovec with the lengths `iov`. -/
def ReadvAnswer.fits (a : ReadvAnswer) (iov : List Nat) : Prop :=
  a.ret < 0 ∨ (a.ret ≤ a.stream.length ∧ a.ret ≤ (iov.sum : Nat))

instance (a : ReadvAnswer) (iov : List Nat) : Decidable (a.fits iov) :=
  inferInstanceAs (Decidable (_ ∨ _))

/-- The bytes the answer put into the iovec. -/
def ReadvAnswer.received (a : ReadvAnswer) : List UInt8 := a.stream.take a.ret.toNat

end PluginsEngine
