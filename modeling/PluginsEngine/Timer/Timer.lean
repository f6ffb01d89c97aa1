/-
  File:      PluginsEngine/Timer/Timer.lean
  Subject:   TIMERS: deadlines and intervals (timer/timer.hpp, timer.cpp).

  A reading of CLOCK_MONOTONIC is the number of nanoseconds the kernel keeps, `clockGettime` the
  `timespec` it is given out as. The kernel keeps it in 64 bits, signed: `ValidReading`.

  * `getTimeout_eq`, `getTimeOutMSecond_eq` -- a deadline is the last update plus the interval, to
    the nanosecond and in milliseconds;
  * `getTimeInterval_eq` -- the interval armed for a timer: what is left to its deadline, at least
    15 ms, and modulo 2^64 when the deadline has passed.
-/
import Mathlib.Algebra.Ring.Nat

namespace PluginsEngine

/-! ## 1. The clock -/

/-- `struct timespec`, of times that are not negative. -/
structure Timespec where
  tv_sec : Nat
  tv_nsec : Nat
  deriving DecidableEq, Repr

/-- A reading the kernel can give (`ktime_t` is a signed 64-bit integer). -/
def ValidReading (t : Nat) : Prop := t < 2 ^ 63

instance (t : Nat) : Decidable (ValidReading t) := inferInstanceAs (Decidable (t < 2 ^ 63))

/-- `clock_gettime(CLOCK_MONOTONIC, ..)`. -/
def clockGettime (t : Nat) : Timespec := ⟨t / 1000000000, t % 1000000000⟩

/-- The milliseconds of a `timespec`, as `tv_sec * 1000 + tv_nsec / 1000000`. -/
def Timespec.milliseconds (ts : Timespec) : Nat := ts.tv_sec * 1000 + ts.tv_nsec / 1000000

/-! ## 2. Timers -/

structure Timer where
  intervalMs : UInt32
  now : Timespec
  deriving DecidableEq, Repr

namespace Timer

/-- `Timer(interval, callback)`, which reads the clock. -/
def new (interval : UInt32) (t : Nat) : Timer := ⟨interval, clockGettime t⟩

def update (timer : Timer) (t : Nat) : Timer := { timer with now := clockGettime t }

def getTimeout (timer : Timer) : Timespec :=
  let tv_nsec := timer.now.tv_nsec + (timer.intervalMs % 1000 * 1000000).toNat
  let tv_sec := timer.now.tv_sec + (timer.intervalMs / 1000).toNat
  if tv_nsec ≥ 1000000000 then ⟨tv_sec + tv_nsec / 1000000000, tv_nsec % 1000000000⟩
  else ⟨tv_sec, tv_nsec⟩

/-- The conversion to `uint64_t` on return is the reduction modulo 2^64. -/
def getTimeOutMSecond (timer : Timer) : Nat := timer.getTimeout.milliseconds % 2 ^ 64

def getNowTimeMSecond (t : Nat) : Nat := (clockGettime t).milliseconds % 2 ^ 64

/-- `getTimeInterval`, when it reads `t` from the clock. The subtraction is that of `uint64_t`. -/
def getTimeInterval (timer : Timer) (t : Nat) : Timespec :=
  let interval := (timer.getTimeOutMSecond + (2 ^ 64 - getNowTimeMSecond t)) % 2 ^ 64
  let interval := if interval ≤ 15 then 15 else interval
  ⟨interval / 1000, interval % 1000 * 1000000⟩

/-! ## 3. In milliseconds -/

theorem clockGettime_milliseconds (t : Nat) :
    (clockGettime t).milliseconds = t / 1000000 := by
  unfold clockGettime Timespec.milliseconds
  dsimp only
  omega

/-- **The clock in milliseconds.** -/
theorem getNowTimeMSecond_eq {t : Nat} (h : ValidReading t) :
    getNowTimeMSecond t = t / 1000000 := by
  unfold ValidReading at h
  rw [getNowTimeMSecond, clockGettime_milliseconds]
  omega

theorem interval_toNat (i : UInt32) :
    (i % 1000 * 1000000).toNat = i.toNat % 1000 * 1000000 ∧ (i / 1000).toNat = i.toNat / 1000 := by
  refine ⟨?_, UInt32.toNat_div _ _⟩
  rw [UInt32.toNat_mul, UInt32.toNat_mod]
  show i.toNat % 1000 * 1000000 % 2 ^ 32 = _
  omega

/-- The timer was updated at the reading `t`. -/
def UpdatedAt (timer : Timer) (t : Nat) : Prop := timer.now = clockGettime t

/-- **A timeout** is the time of the last update plus the interval, given out as the clock would. -/
theorem getTimeout_eq {timer : Timer} {t : Nat} (h : timer.UpdatedAt t) :
    timer.getTimeout = clockGettime (t + timer.intervalMs.toNat * 1000000) := by
  obtain ⟨hmod, hdiv⟩ := interval_toNat timer.intervalMs
  unfold getTimeout
  rw [h, hmod, hdiv]
  unfold clockGettime
  dsimp only
  split
  · exact congrArg₂ Timespec.mk (by omega) (by omega)
  · exact congrArg₂ Timespec.mk (by omega) (by omega)

/-- **A deadline** is the millisecond of the last update plus the interval. -/
theorem getTimeOutMSecond_eq {timer : Timer} {t : Nat} (h : timer.UpdatedAt t)
    (ht : ValidReading t) :
    timer.getTimeOutMSecond = t / 1000000 + timer.intervalMs.toNat := by
  have hi := timer.intervalMs.toNat_lt
  unfold ValidReading at ht
  rw [getTimeOutMSecond, getTimeout_eq h, clockGettime_milliseconds]
  omega

/-- **The interval a timer is armed with**: what is left to its deadline, but at least 15 ms; once
    the deadline has passed, 2^64 ms less what it has passed by. -/
theorem getTimeInterval_eq {timer : Timer} {t₀ t : Nat} (h : timer.UpdatedAt t₀)
    (h₀ : ValidReading t₀) (ht : ValidReading t) :
    (timer.getTimeInterval t).milliseconds =
      if t / 1000000 ≤ timer.getTimeOutMSecond then
        max 15 (timer.getTimeOutMSecond - t / 1000000)
      else 2 ^ 64 - (t / 1000000 - timer.getTimeOutMSecond) := by
  have hd := getTimeOutMSecond_eq h h₀
  have hi := timer.intervalMs.toNat_lt
  have hn := getNowTimeMSecond_eq ht
  unfold ValidReading at h₀ ht
  unfold getTimeInterval
  rw [hn]
  generalize timer.getTimeOutMSecond = d at hd ⊢
  have hms : ∀ x, (⟨x / 1000, x % 1000 * 1000000⟩ : Timespec).milliseconds = x := by
    intro x
    unfold Timespec.milliseconds
    dsimp only
    omega
  dsimp only
  rw [hms]
  by_cases hle : t / 1000000 ≤ d
  · rw [if_pos hle]
    split <;> omega
  · rw [if_neg hle]
    split <;> omega

end Timer

end PluginsEngine
