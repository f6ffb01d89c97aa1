/-
  File:      PluginsEngine/Timer/Deadline.lean
  Subject:   DEADLINES IN MACHINE WORDS (timer/timer.cpp: getTimeout, getTimeOutMSecond,
             getNowTimeMSecond, getTimeInterval).

  `Timer.lean` counts in natural numbers. Here are the same functions on the types they are written
  on: a `timespec` of two signed 64-bit numbers, an interval of 32 bits, milliseconds of 64 bits
  without a sign. What overflows is `none`.

  * `getTimeout_eq_some_iff` -- the result is the exact deadline, normalised, or there is none;
  * `getTimeOutMSecond_exact`, `getTimeInterval_exact` -- the key and the interval of a timer;
  * `DeadlineExact`, `deadline_exact_iff` -- the law, and for which timers it holds;
  * `keys_order_deadlines` -- keys order timers as the deadlines do, up to one millisecond;
  * `deadline_arithmetic` -- all of it, over every base time and interval;
  * `reads_as_timer` -- for readings of the clock these are the functions of `Timer.lean`.
-/
import PluginsEngine.Library.MachineInt
import PluginsEngine.Timer.Timer

namespace PluginsEngine

open Library

namespace Words

/-! ## 1. The functions -/

structure Timespec where
  tv_sec : Int64
  tv_nsec : Int64
  deriving DecidableEq

/-- A `Timer`: its interval, and the time of its last `update`. -/
structure Timer where
  intervalMs : UInt32
  now : Timespec
  deriving DecidableEq

/-- `tv_sec * 1000 + tv_nsec / 1000000`. -/
def Timespec.milliseconds (ts : Timespec) : Option Int64 := do
  let sec ← mulExact ts.tv_sec 1000
  addExact sec (ts.tv_nsec / 1000000)

namespace Timer

def getTimeout (timer : Timer) : Option Timespec := do
  let nsec ← mulExact (timer.intervalMs % 1000) 1000000
  let tv_nsec ← addExact timer.now.tv_nsec (widen nsec)
  let tv_sec ← addExact timer.now.tv_sec (widen (timer.intervalMs / 1000))
  if 1000000000 ≤ tv_nsec then
    let tv_sec ← addExact tv_sec (tv_nsec / 1000000000)
    return ⟨tv_sec, tv_nsec % 1000000000⟩
  else
    return ⟨tv_sec, tv_nsec⟩

/-- The conversion on return drops the sign. -/
def getTimeOutMSecond (timer : Timer) : Option UInt64 := do
  let timeout ← timer.getTimeout
  let mSecond ← timeout.milliseconds
  return mSecond.toUInt64

/-- `getNowTimeMSecond`, when the clock gives `nowDate`. -/
def getNowTimeMSecond (nowDate : Timespec) : Option UInt64 := do
  let ms ← nowDate.milliseconds
  return ms.toUInt64

/-- `getTimeInterval`, when the clock gives `nowDate`. The subtraction is that of `uint64_t`. -/
def getTimeInterval (timer : Timer) (nowDate : Timespec) : Option Timespec := do
  let deadline ← timer.getTimeOutMSecond
  let now ← getNowTimeMSecond nowDate
  let interval := if deadline - now ≤ 15 then 15 else deadline - now
  return ⟨(interval / 1000).toInt64, (interval % 1000 * 1000000).toInt64⟩

end Timer

/-! ## 2. What they mean -/

namespace Timespec

/-- The nanoseconds are less than a second. -/
def Normalised (ts : Timespec) : Prop := 0 ≤ ts.tv_nsec.toInt ∧ ts.tv_nsec.toInt < 1000000000

/-- The time, in nanoseconds. -/
def ns (ts : Timespec) : Int := ts.tv_sec.toInt * 1000000000 + ts.tv_nsec.toInt

/-- The time, cut off to milliseconds. -/
def ms (ts : Timespec) : Int := ts.tv_sec.toInt * 1000 + ts.tv_nsec.toInt / 1000000

/-- What CLOCK_MONOTONIC gives: a normalised time that is not negative. -/
def Reading (ts : Timespec) : Prop := ts.Normalised ∧ 0 ≤ ts.tv_sec.toInt

end Timespec

namespace Timer

/-- **The exact deadline**, in nanoseconds. -/
def deadline (timer : Timer) : Int := timer.now.ns + timer.intervalMs.toNat * 1000000

/-- The deadline in milliseconds, from the base in milliseconds. -/
def key (timer : Timer) : Int := timer.now.ms + timer.intervalMs.toNat

end Timer

/-! ## 3. One lemma per function -/

theorem Timespec.ms_eq (ts : Timespec) : ts.ms = ts.ns / 1000000 := by
  unfold ms ns
  omega

theorem Timer.key_eq (timer : Timer) : timer.key = timer.deadline / 1000000 := by
  unfold key deadline
  rw [timer.now.ms_eq]
  omega

/-- A second of nanoseconds, as the literal of the source. -/
theorem toInt_second : (1000000000 : Int64).toInt = 1000000000 := by decide

/-- The milliseconds of a normalised time, unless the seconds are too many. -/
theorem Timespec.milliseconds_eq_some_iff {ts : Timespec} (h : ts.Normalised) {x : Int64} :
    ts.milliseconds = some x ↔ -2 ^ 63 ≤ ts.tv_sec.toInt * 1000 ∧ x.toInt = ts.ms := by
  have hnsec : (ts.tv_nsec / 1000000).toInt = ts.tv_nsec.toInt / 1000000 :=
    toInt_div_of_nonneg (by decide) h.1
  have hnonneg := h.1
  have hx := x.toInt_lt
  have h1000 : (1000 : Int64).toInt = 1000 := by decide
  unfold milliseconds ms
  simp only [Option.bind_eq_bind, Option.bind_eq_some_iff, mulExact_int64, addExact_int64, hnsec,
    h1000]
  constructor
  · intro hrun
    obtain ⟨sec, hsec, hsum⟩ := hrun
    have hle := sec.le_toInt
    exact ⟨by omega, by omega⟩
  · intro hms
    obtain ⟨sec, hsec⟩ := exists_int64 (x := ts.tv_sec.toInt * 1000) hms.1 (by omega)
    exact ⟨sec, hsec, by omega⟩

/-- A normalised `timespec` is given by its time. -/
theorem Timespec.eq_of_ns {ts ts' : Timespec} (h : ts.Normalised) (h' : ts'.Normalised)
    (heq : ts.ns = ts'.ns) : ts = ts' := by
  obtain ⟨sec, nsec⟩ := ts
  obtain ⟨sec', nsec'⟩ := ts'
  unfold Normalised ns at *
  dsimp only at *
  have hsec : sec = sec' := Int64.toInt_inj.mp (by omega)
  have hnsec : nsec = nsec' := Int64.toInt_inj.mp (by omega)
  rw [hsec, hnsec]

namespace Timer

variable {timer : Timer}

/-- **`getTimeout` behind its first two sums**: the product of the milliseconds fits 32 bits, and
    the nanoseconds stay below two seconds. -/
theorem getTimeout_bind (h : timer.now.Normalised) :
    ∃ tv_nsec : Int64,
      tv_nsec.toInt = timer.now.tv_nsec.toInt + timer.intervalMs.toNat % 1000 * 1000000 ∧
      timer.getTimeout =
        (addExact timer.now.tv_sec (widen (timer.intervalMs / 1000))).bind fun tv_sec =>
          if 1000000000 ≤ tv_nsec then
            (addExact tv_sec (tv_nsec / 1000000000)).bind fun tv_sec =>
              some ⟨tv_sec, tv_nsec % 1000000000⟩
          else some ⟨tv_sec, tv_nsec⟩ := by
  obtain ⟨hmod, -⟩ := PluginsEngine.Timer.interval_toNat timer.intervalMs
  have hlow := h.1
  have hhigh := h.2
  have hnsec : mulExact (timer.intervalMs % 1000) 1000000 =
      some (timer.intervalMs % 1000 * 1000000) := by
    rw [mulExact_eq_some_iff, toInt_uint32, toInt_uint32, hmod, UInt32.toNat_mod]
    exact Int.natCast_mul _ _
  obtain ⟨tv_nsec, htv_nsec⟩ := exists_int64
    (x := timer.now.tv_nsec.toInt + timer.intervalMs.toNat % 1000 * 1000000) (by omega) (by omega)
  have hsum : addExact timer.now.tv_nsec (widen (timer.intervalMs % 1000 * 1000000)) =
      some tv_nsec := by
    rw [addExact_int64, toInt_widen, hmod, htv_nsec]
    rfl
  refine ⟨tv_nsec, htv_nsec, ?_⟩
  unfold getTimeout
  rw [hnsec]
  simp only [Option.bind_eq_bind, Option.bind_some, hsum, Option.pure_def]

/-- What `getTimeout` returns is normalised and the exact deadline. -/
theorem getTimeout_sound (h : timer.now.Normalised) {timeout : Timespec}
    (hrun : timer.getTimeout = some timeout) :
    timeout.Normalised ∧ timeout.ns = timer.deadline := by
  obtain ⟨tv_nsec, hnsec, hbind⟩ := getTimeout_bind h
  obtain ⟨-, hdiv⟩ := PluginsEngine.Timer.interval_toNat timer.intervalMs
  have hlow := h.1
  have hhigh := h.2
  rw [hbind] at hrun
  obtain ⟨tv_sec, hsec, hrun⟩ := Option.bind_eq_some_iff.mp hrun
  rw [addExact_int64, toInt_widen, hdiv] at hsec
  unfold Timespec.Normalised Timespec.ns deadline Timespec.ns
  by_cases hcarry : 1000000000 ≤ tv_nsec
  · rw [if_pos hcarry] at hrun
    obtain ⟨tv_sec', hsec', hrun⟩ := Option.bind_eq_some_iff.mp hrun
    cases hrun
    rw [addExact_int64, toInt_div_of_nonneg (by decide) (by omega), toInt_second] at hsec'
    dsimp only
    rw [toInt_mod_of_nonneg (by omega), toInt_second]
    omega
  · rw [if_neg hcarry] at hrun
    cases hrun
    rw [Int64.le_iff_toInt_le, toInt_second] at hcarry
    dsimp only
    omega

/-- `getTimeout` returns if the seconds of the deadline fit. -/
theorem getTimeout_total (h : timer.now.Normalised)
    (hfits : timer.deadline < 2 ^ 63 * 1000000000) :
    ∃ timeout, timer.getTimeout = some timeout := by
  obtain ⟨tv_nsec, hnsec, hbind⟩ := getTimeout_bind h
  obtain ⟨-, hdiv⟩ := PluginsEngine.Timer.interval_toNat timer.intervalMs
  have hlow := h.1
  have hleast := timer.now.tv_sec.le_toInt
  unfold deadline Timespec.ns at hfits
  obtain ⟨tv_sec, hsec⟩ := exists_int64
    (x := timer.now.tv_sec.toInt + (timer.intervalMs.toNat / 1000 : Nat)) (by omega) (by omega)
  have hsum : addExact timer.now.tv_sec (widen (timer.intervalMs / 1000)) = some tv_sec := by
    rw [addExact_int64, toInt_widen, hdiv, hsec]
  rw [hbind, hsum, Option.bind_some]
  by_cases hcarry : 1000000000 ≤ tv_nsec
  · obtain ⟨tv_sec', hsec'⟩ := exists_int64
      (x := tv_sec.toInt + tv_nsec.toInt / 1000000000) (by omega) (by omega)
    have hsum' : addExact tv_sec (tv_nsec / 1000000000) = some tv_sec' := by
      rw [addExact_int64, toInt_div_of_nonneg (by decide) (by omega), toInt_second, hsec']
    rw [if_pos hcarry, hsum', Option.bind_some]
    exact ⟨_, rfl⟩
  · rw [if_neg hcarry]
    exact ⟨_, rfl⟩

/-- **The deadline, or nothing**: `getTimeout` returns a `timespec` exactly if it is normalised and
    the exact deadline, so it overflows only where there is none. -/
theorem getTimeout_eq_some_iff (h : timer.now.Normalised) {timeout : Timespec} :
    timer.getTimeout = some timeout ↔ timeout.Normalised ∧ timeout.ns = timer.deadline := by
  refine ⟨getTimeout_sound h, fun hexact => ?_⟩
  obtain ⟨hnorm, hns⟩ := hexact
  have hfits : timer.deadline < 2 ^ 63 * 1000000000 := by
    have hlt := timeout.tv_sec.toInt_lt
    have hhigh := hnorm.2
    rw [← hns, Timespec.ns]
    omega
  obtain ⟨timeout', hrun⟩ := getTimeout_total h hfits
  obtain ⟨hnorm', hns'⟩ := getTimeout_sound h hrun
  rw [hrun, Timespec.eq_of_ns hnorm' hnorm (hns'.trans hns.symm)]

end Timer

/-- Milliseconds that are not negative keep their value without the sign. -/
theorem Timespec.milliseconds_toUInt64 {ts : Timespec} (h : ts.Normalised) (hle : 0 ≤ ts.ms)
    (hlt : ts.ms < 2 ^ 63) :
    ∃ x : Int64, ts.milliseconds = some x ∧ (x.toUInt64.toNat : Int) = ts.ms := by
  obtain ⟨x, hx⟩ := exists_int64 (x := ts.ms) (by omega) hlt
  have hhigh := h.2
  have hsec : -2 ^ 63 ≤ ts.tv_sec.toInt * 1000 := by
    unfold ms at hle
    omega
  refine ⟨x, (ts.milliseconds_eq_some_iff h).mpr ⟨hsec, hx⟩, ?_⟩
  rw [toNat_toUInt64, hx]
  omega

/-- The `timespec` that `getTimeInterval` makes of a number of milliseconds. -/
def span (interval : UInt64) : Timespec :=
  ⟨(interval / 1000).toInt64, (interval % 1000 * 1000000).toInt64⟩

theorem span_toInt (interval : UInt64) :
    (span interval).tv_sec.toInt = (interval.toNat / 1000 : Nat) ∧
      (span interval).tv_nsec.toInt = (interval.toNat % 1000 * 1000000 : Nat) := by
  have hlt := interval.toNat_lt
  have hsec : (interval / 1000).toNat = interval.toNat / 1000 := UInt64.toNat_div _ _
  have hnsec : (interval % 1000 * 1000000).toNat = interval.toNat % 1000 * 1000000 := by
    rw [UInt64.toNat_mul, UInt64.toNat_mod]
    show interval.toNat % 1000 * 1000000 % 2 ^ 64 = _
    omega
  unfold span
  dsimp only
  rw [toInt_toInt64 (by omega), toInt_toInt64 (by omega), hsec, hnsec]
  exact ⟨rfl, rfl⟩

/-- **A span is normalised and exact.** -/
theorem span_exact (interval : UInt64) :
    (span interval).Normalised ∧ (span interval).ns = interval.toNat * 1000000 := by
  obtain ⟨hsec, hnsec⟩ := span_toInt interval
  unfold Timespec.Normalised Timespec.ns
  rw [hsec, hnsec]
  omega

namespace Timer

variable {timer : Timer}

/-- **The key of a timer** whose deadline in milliseconds is not negative and fits. -/
theorem getTimeOutMSecond_exact (h : timer.now.Normalised) (hle : 0 ≤ timer.key)
    (hlt : timer.key < 2 ^ 63) :
    ∃ key, timer.getTimeOutMSecond = some key ∧ (key.toNat : Int) = timer.key := by
  have hkey := timer.key_eq
  obtain ⟨timeout, hrun⟩ := getTimeout_total h (by omega)
  obtain ⟨hnorm, hns⟩ := getTimeout_sound h hrun
  have hms : timeout.ms = timer.key := by rw [timeout.ms_eq, hns, hkey]
  obtain ⟨x, hx, hval⟩ := timeout.milliseconds_toUInt64 hnorm (by omega) (by omega)
  refine ⟨x.toUInt64, ?_, hval.trans hms⟩
  unfold getTimeOutMSecond
  rw [hrun, Option.bind_eq_bind, Option.bind_some, hx]
  rfl

/-- A key is computed with a sign: if there is one, the deadline is below 2^63 milliseconds. -/
theorem key_lt_of_run (h : timer.now.Normalised) {key : UInt64}
    (hrun : timer.getTimeOutMSecond = some key) : timer.key < 2 ^ 63 := by
  unfold getTimeOutMSecond at hrun
  obtain ⟨timeout, htimeout, hrun⟩ := Option.bind_eq_some_iff.mp hrun
  obtain ⟨x, hx, -⟩ := Option.bind_eq_some_iff.mp hrun
  obtain ⟨hnorm, hns⟩ := getTimeout_sound h htimeout
  obtain ⟨-, hval⟩ := (timeout.milliseconds_eq_some_iff hnorm).mp hx
  have hlt := x.toInt_lt
  rw [timer.key_eq, ← hns, ← timeout.ms_eq, ← hval]
  exact hlt

/-- What `getTimeInterval` makes of the two numbers it reads. -/
theorem getTimeInterval_eq_span {nowDate : Timespec} {key now : UInt64}
    (hkey : timer.getTimeOutMSecond = some key) (hnow : getNowTimeMSecond nowDate = some now) :
    timer.getTimeInterval nowDate = some (span (if key - now ≤ 15 then 15 else key - now)) := by
  unfold getTimeInterval
  rw [hkey, Option.bind_eq_bind, Option.bind_some, hnow]
  rfl

theorem getNowTimeMSecond_exact {nowDate : Timespec} (h : nowDate.Reading)
    (hlt : nowDate.ms < 2 ^ 63) :
    ∃ now, getNowTimeMSecond nowDate = some now ∧ (now.toNat : Int) = nowDate.ms := by
  have hle : 0 ≤ nowDate.ms := by
    have hsec := h.2
    have hnsec := h.1.1
    unfold Timespec.ms
    omega
  obtain ⟨x, hx, hval⟩ := nowDate.milliseconds_toUInt64 h.1 hle hlt
  refine ⟨x.toUInt64, ?_, hval⟩
  unfold getNowTimeMSecond
  rw [hx]
  rfl

/-- **The interval armed before the deadline**: what is left, at least 15 ms. -/
theorem getTimeInterval_exact (h : timer.now.Normalised) (hle : 0 ≤ timer.key)
    (hlt : timer.key < 2 ^ 63) {nowDate : Timespec} (hnow : nowDate.Reading)
    (hbefore : nowDate.ms ≤ timer.key) :
    ∃ interval, timer.getTimeInterval nowDate = some interval ∧ interval.Normalised ∧
      interval.ns = max 15 (timer.key - nowDate.ms) * 1000000 := by
  obtain ⟨key, hkey, hkeyval⟩ := getTimeOutMSecond_exact h hle hlt
  obtain ⟨now, hnowrun, hnowval⟩ := getNowTimeMSecond_exact hnow (Int.lt_of_le_of_lt hbefore hlt)
  have hsub : (key - now).toNat = key.toNat - now.toNat :=
    UInt64.toNat_sub_of_le _ _ (UInt64.le_iff_toNat_le.mpr (by omega))
  obtain ⟨hnorm, hns⟩ := span_exact (if key - now ≤ 15 then 15 else key - now)
  refine ⟨_, getTimeInterval_eq_span hkey hnowrun, hnorm, ?_⟩
  rw [hns]
  have hfifteen : (15 : UInt64).toNat = 15 := rfl
  split
  · rename_i hsmall
    rw [UInt64.le_iff_toNat_le, hsub, hfifteen] at hsmall
    rw [hfifteen]
    omega
  · rename_i hlarge
    rw [UInt64.le_iff_toNat_le, hsub, hfifteen] at hlarge
    rw [hsub]
    omega

end Timer

/-! ## 4. Readings of the clock -/

/-- `clock_gettime(CLOCK_MONOTONIC, ..)`, in words. -/
def clockGettime (t : Nat) : Timespec :=
  ⟨Int64.ofNat (t / 1000000000), Int64.ofNat (t % 1000000000)⟩

theorem clockGettime_toInt {t : Nat} (h : t < 2 ^ 63 * 1000000000) :
    (clockGettime t).tv_sec.toInt = (t / 1000000000 : Nat) ∧
      (clockGettime t).tv_nsec.toInt = (t % 1000000000 : Nat) :=
  ⟨Int64.toInt_ofNat_of_lt (by omega), Int64.toInt_ofNat_of_lt (by omega)⟩

theorem clockGettime_reading {t : Nat} (h : t < 2 ^ 63 * 1000000000) :
    (clockGettime t).Reading ∧ (clockGettime t).ns = t := by
  obtain ⟨hsec, hnsec⟩ := clockGettime_toInt h
  unfold Timespec.Reading Timespec.Normalised Timespec.ns
  rw [hsec, hnsec]
  omega

namespace Timer

/-- The deadline in milliseconds is not negative and less than 2^63. -/
def InRange (timer : Timer) : Prop :=
  0 ≤ timer.now.ms + timer.intervalMs.toNat ∧ timer.now.ms + timer.intervalMs.toNat < 2 ^ 63

/-- **A timer that was updated from the clock** is in range. -/
theorem inRange_of_reading {timer : Timer} {t : Nat} (h : ValidReading t)
    (hup : timer.now = clockGettime t) :
    timer.InRange ∧ timer.now.Normalised ∧
      timer.deadline = (t + timer.intervalMs.toNat * 1000000 : Nat) := by
  unfold ValidReading at h
  obtain ⟨hreading, hns⟩ := clockGettime_reading (t := t) (by omega)
  have hms := (clockGettime t).ms_eq
  have hi := timer.intervalMs.toNat_lt
  unfold InRange deadline
  rw [hup, hms, hns]
  exact ⟨⟨by omega, by omega⟩, hreading.1, by omega⟩

end Timer

/-! ## 5. The law -/

namespace Timer

/-- **The arithmetic of a timer is exact**: `getTimeout` meets no overflow and gives the deadline,
    normalised; `getTimeOutMSecond` gives it in milliseconds; and before the deadline
    `getTimeInterval` gives what is left of it, at least 15 ms, normalised. -/
structure DeadlineExact (timer : Timer) : Prop where
  timeout : ∃ timeout, timer.getTimeout = some timeout ∧ timeout.Normalised ∧
    timeout.ns = timer.now.ns + timer.intervalMs.toNat * 1000000
  mSecond : ∃ key, timer.getTimeOutMSecond = some key ∧
    (key.toNat : Int) = timer.now.ms + timer.intervalMs.toNat
  interval : ∀ nowDate : Timespec, nowDate.Reading →
    nowDate.ms ≤ timer.now.ms + timer.intervalMs.toNat →
    ∃ interval, timer.getTimeInterval nowDate = some interval ∧ interval.Normalised ∧
      interval.ns = max 15 (timer.now.ms + timer.intervalMs.toNat - nowDate.ms) * 1000000

theorem deadline_exact_iff {timer : Timer} (h : timer.now.Normalised) :
    timer.DeadlineExact ↔ timer.InRange := by
  constructor
  · intro hexact
    obtain ⟨key, hrun, hkey⟩ := hexact.mSecond
    exact ⟨hkey ▸ Int.natCast_nonneg _, key_lt_of_run h hrun⟩
  · intro hrange
    have hkey := timer.key_eq
    have hlt : timer.key < 2 ^ 63 := hrange.2
    obtain ⟨timeout, hrun⟩ := getTimeout_total h (by omega)
    refine ⟨⟨timeout, hrun, getTimeout_sound h hrun⟩, ?_, fun nowDate hnow hbefore => ?_⟩
    · exact getTimeOutMSecond_exact h hrange.1 hrange.2
    · exact getTimeInterval_exact h hrange.1 hrange.2 hnow hbefore

/-- **Keys order timers as their deadlines do**, up to one millisecond: the smaller key has the
    earlier deadline, and of equal keys the deadlines are less than a millisecond apart. -/
structure KeysOrder (a b : Timer) : Prop where
  earlier : ∀ ka kb, a.getTimeOutMSecond = some ka → b.getTimeOutMSecond = some kb →
    ka < kb → a.deadline < b.deadline
  kept : ∀ ka kb, a.getTimeOutMSecond = some ka → b.getTimeOutMSecond = some kb →
    a.deadline ≤ b.deadline → ka ≤ kb
  close : ∀ ka kb, a.getTimeOutMSecond = some ka → b.getTimeOutMSecond = some kb →
    ka ≤ kb → a.deadline < b.deadline + 1000000

theorem keys_order_deadlines {a b : Timer} (ha : a.DeadlineExact) (hb : b.DeadlineExact) :
    KeysOrder a b := by
  have hkeys : ∀ ka kb, a.getTimeOutMSecond = some ka → b.getTimeOutMSecond = some kb →
      (ka.toNat : Int) = a.deadline / 1000000 ∧ (kb.toNat : Int) = b.deadline / 1000000 := by
    intro ka kb hka hkb
    obtain ⟨ka', hka', hvala⟩ := ha.mSecond
    obtain ⟨kb', hkb', hvalb⟩ := hb.mSecond
    rw [hka] at hka'
    rw [hkb] at hkb'
    cases hka'
    cases hkb'
    exact ⟨hvala.trans a.key_eq, hvalb.trans b.key_eq⟩
  refine ⟨fun ka kb hka hkb hlt => ?_, fun ka kb hka hkb hle => ?_, fun ka kb hka hkb hle => ?_⟩
  · obtain ⟨hvala, hvalb⟩ := hkeys ka kb hka hkb
    rw [UInt64.lt_iff_toNat_lt] at hlt
    omega
  · obtain ⟨hvala, hvalb⟩ := hkeys ka kb hka hkb
    rw [UInt64.le_iff_toNat_le]
    omega
  · obtain ⟨hvala, hvalb⟩ := hkeys ka kb hka hkb
    rw [UInt64.le_iff_toNat_le] at hle
    omega

/-- **Deadline arithmetic.** For every base time that is normalised and every interval: while the
    seconds of the deadline fit, `getTimeout` meets no overflow and its result is normalised and
    exact; all of the arithmetic is exact precisely where the deadline, in milliseconds, is not
    negative and less than 2^63, as it is behind every reading of the clock; and there keys order
    timers as their deadlines do. -/
theorem deadline_arithmetic (timer : Timer) (h : timer.now.Normalised) :
    (timer.deadline < 2 ^ 63 * 1000000000 → ∃ timeout, timer.getTimeout = some timeout ∧
      timeout.Normalised ∧ timeout.ns = timer.deadline) ∧
    (timer.DeadlineExact ↔ timer.InRange) ∧
    (∀ t, ValidReading t → timer.now = clockGettime t → timer.InRange) ∧
    ∀ other : Timer, other.now.Normalised → timer.InRange → other.InRange →
      KeysOrder timer other := by
  refine ⟨fun hfits => ?_, deadline_exact_iff h, fun t ht hup => ?_,
    fun other ho hrange hrange' => ?_⟩
  · obtain ⟨timeout, hrun⟩ := getTimeout_total h hfits
    exact ⟨timeout, hrun, getTimeout_sound h hrun⟩
  · exact (inRange_of_reading ht hup).1
  · exact keys_order_deadlines ((deadline_exact_iff h).mpr hrange)
      ((deadline_exact_iff ho).mpr hrange')

/-- A second and a half behind 7.6 s, and one millisecond behind 9.1 s. -/
theorem deadline_arithmetic_carry :
    DeadlineExact ⟨1500, ⟨7, 600000000⟩⟩ ∧ KeysOrder ⟨1500, ⟨7, 600000000⟩⟩ ⟨1, ⟨9, 100000000⟩⟩ :=
  have h := deadline_arithmetic ⟨1500, ⟨7, 600000000⟩⟩ ⟨by decide, by decide⟩
  have hrange : InRange ⟨1500, ⟨7, 600000000⟩⟩ := ⟨by decide, by decide⟩
  ⟨h.2.1.mpr hrange,
    h.2.2.2 ⟨1, ⟨9, 100000000⟩⟩ ⟨by decide, by decide⟩ hrange ⟨by decide, by decide⟩⟩

/-- **The last second of a `time_t`**: adding one more overflows. -/
theorem deadline_overflows :
    getTimeout ⟨1000, ⟨9223372036854775807, 0⟩⟩ = none ∧
      ¬ ∀ timer : Timer, timer.now.Normalised → timer.DeadlineExact := by
  have hnone : getTimeout ⟨1000, ⟨9223372036854775807, 0⟩⟩ = none := by decide
  refine ⟨hnone, fun h => ?_⟩
  obtain ⟨timeout, hrun, -⟩ :=
    (h ⟨1000, ⟨9223372036854775807, 0⟩⟩ ⟨by decide, by decide⟩).timeout
  rw [hnone] at hrun
  cases hrun

end Timer

/-! ## 6. The timers of the queue -/

/-- A `timespec` without its signs. -/
def Timespec.toNat (ts : Timespec) : PluginsEngine.Timespec :=
  ⟨ts.tv_sec.toInt.toNat, ts.tv_nsec.toInt.toNat⟩

/-- `Timer(interval, callback)`, which reads the clock. -/
def Timer.new (interval : UInt32) (t : Nat) : Timer := ⟨interval, clockGettime t⟩

section

variable {t : Nat}

theorem clockGettime_toNat (h : t < 2 ^ 63 * 1000000000) :
    (clockGettime t).toNat = PluginsEngine.clockGettime t := by
  obtain ⟨hsec, hnsec⟩ := clockGettime_toInt h
  unfold Timespec.toNat
  rw [hsec, hnsec]
  rfl

theorem getNowTimeMSecond_reads (h : ValidReading t) :
    ∃ now, Timer.getNowTimeMSecond (clockGettime t) = some now ∧
      now.toNat = PluginsEngine.Timer.getNowTimeMSecond t := by
  unfold ValidReading at h
  obtain ⟨hreading, hns⟩ := clockGettime_reading (t := t) (by omega)
  have hms := (clockGettime t).ms_eq
  rw [hns] at hms
  obtain ⟨now, hrun, hval⟩ := Timer.getNowTimeMSecond_exact hreading (by omega)
  refine ⟨now, hrun, ?_⟩
  rw [PluginsEngine.Timer.getNowTimeMSecond_eq h]
  omega

/-- **The timers of the queue compute in words what they compute in numbers**: for every interval
    and all readings of the clock, before the deadline and behind it. -/
theorem reads_as_timer (interval : UInt32) {t' : Nat} (h : ValidReading t) (h' : ValidReading t') :
    (Timer.new interval t).getTimeout.map Timespec.toNat =
        some (PluginsEngine.Timer.new interval t).getTimeout ∧
      (Timer.new interval t).getTimeOutMSecond.map UInt64.toNat =
        some (PluginsEngine.Timer.new interval t).getTimeOutMSecond ∧
      ((Timer.new interval t).getTimeInterval (clockGettime t')).map Timespec.toNat =
        some ((PluginsEngine.Timer.new interval t).getTimeInterval t') := by
  have hup : (PluginsEngine.Timer.new interval t).UpdatedAt t := rfl
  have hi := interval.toNat_lt
  obtain ⟨hrange, hnorm, hdeadline⟩ :=
    Timer.inRange_of_reading h (show (Timer.new interval t).now = _ from rfl)
  have hinterval : (Timer.new interval t).intervalMs = interval := rfl
  rw [hinterval] at hdeadline
  obtain ⟨now, hnow, hnowval⟩ := getNowTimeMSecond_reads h'
  obtain ⟨key, hkey, hkeyval⟩ := Timer.getTimeOutMSecond_exact hnorm hrange.1 hrange.2
  have hkeynat : key.toNat = (PluginsEngine.Timer.new interval t).getTimeOutMSecond := by
    rw [PluginsEngine.Timer.getTimeOutMSecond_eq hup h]
    rw [(Timer.new interval t).key_eq, hdeadline] at hkeyval
    show _ = t / 1000000 + interval.toNat
    omega
  refine ⟨?_, ?_, ?_⟩
  · unfold ValidReading at h
    have hfits : t + interval.toNat * 1000000 < 2 ^ 63 * 1000000000 := by omega
    obtain ⟨hreading, hns⟩ := clockGettime_reading hfits
    rw [(Timer.getTimeout_eq_some_iff hnorm).mpr ⟨hreading.1, hns.trans hdeadline.symm⟩,
      Option.map_some, clockGettime_toNat hfits, PluginsEngine.Timer.getTimeout_eq hup]
    rfl
  · rw [hkey, Option.map_some, hkeynat]
  · -- the subtraction wraps in both where the deadline has passed
    have hsub : (key - now).toNat =
        ((PluginsEngine.Timer.new interval t).getTimeOutMSecond +
          (2 ^ 64 - PluginsEngine.Timer.getNowTimeMSecond t')) % 2 ^ 64 := by
      rw [UInt64.toNat_sub, hkeynat, hnowval, Nat.add_comm]
    obtain ⟨hsec, hnsec⟩ := span_toInt (if key - now ≤ 15 then 15 else key - now)
    rw [Timer.getTimeInterval_eq_span hkey hnow, Option.map_some]
    unfold Timespec.toNat PluginsEngine.Timer.getTimeInterval
    rw [hsec, hnsec, ← hsub]
    dsimp only
    have hfifteen : key - now ≤ 15 ↔ (key - now).toNat ≤ 15 := UInt64.le_iff_toNat_le
    by_cases hsmall : key - now ≤ 15
    · rw [if_pos hsmall, if_pos (hfifteen.mp hsmall)]
      rfl
    · rw [if_neg hsmall, if_neg fun hle => hsmall (hfifteen.mpr hle)]
      rfl

end

end Words

end PluginsEngine
