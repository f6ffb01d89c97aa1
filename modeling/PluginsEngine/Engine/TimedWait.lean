/-
  File:      PluginsEngine/Engine/TimedWait.lean
  Subject:   THE TIMED WAIT OF THE ENGINE (engine/engine.cpp: waitAndHandleEvents(timeout)).

  A `steady_clock::duration` counts nanoseconds in 64 bits; `epoll_wait` takes milliseconds in an
  `int`. A timeout that is not positive gets a wait of its own, and after it the wait that every
  timeout gets.

  * `waitAndHandleEvents` -- the call, with the timeouts it hands to `epoll_wait`;
  * `toInt_timeoutArgument_of_neg`, `toInt_timeoutArgument_of_pos` -- the argument of the wait that
    every timeout gets;
  * `HonoursTimeout`, `waitAndHandleEvents_honours_iff` -- the law, and for which timeouts it holds;
  * `waitAndHandleEvents_millisecond` -- minus one millisecond: an infinite wait.
-/
import PluginsEngine.Event.Drivers

namespace PluginsEngine

namespace Engine

open EventLoop

variable {κ α : Type}

/-! ## 1. The call -/

/-- `duration_cast<milliseconds>(timeout).count()`: the division truncates towards zero. -/
def timeoutMs (timeout : Int64) : Int64 := timeout / 1000000

/-- `numeric_limits<int>::max()`. -/
def intMax : Int64 := 2147483647

/-- The argument of the last `handleEvent`: clamped from above, then narrowed to `int`. -/
def timeoutArgument (timeout : Int64) : Int32 :=
  (if timeoutMs timeout > intMax then intMax else timeoutMs timeout).toInt32

/-- What a call of `waitAndHandleEvents(timeout)` does: the loop after it, the functions it ran,
    the timeouts it gave to `epoll_wait`, and what it returns. -/
structure TimedWait (κ α : Type) where
  loop : EventLoop κ α
  ran : List κ
  timeouts : List Int32
  result : Bool

/-- `waitAndHandleEvents(timeout)`. `fast` and `last` are what the two waits return and what other
    threads queue meanwhile; `fast` is used only if there are two. -/
def waitAndHandleEvents (effect : κ → LoopCore κ α → LoopCore κ α) (timeout : Int64)
    (fast last : List EpollEvent × List κ) (l : EventLoop κ α) : TimedWait κ α :=
  let first := if timeout ≤ 0 then (handleEvent effect fast.1 fast.2 l, [0]) else ((l, []), [])
  let second := handleEvent effect last.1 last.2 first.1.1
  ⟨second.1, first.1.2 ++ second.2, first.2 ++ [timeoutArgument timeout], true⟩

/-! ## 2. The argument -/

theorem toInt_timeoutMs (timeout : Int64) :
    (timeoutMs timeout).toInt = timeout.toInt.tdiv 1000000 :=
  Int64.toInt_div_of_ne_right timeout 1000000 (by decide)

/-- **Not positive**: the milliseconds are narrowed as they are, to any `int`. -/
theorem toInt_timeoutArgument_of_neg {timeout : Int64} (h : timeout.toInt ≤ 0) :
    (timeoutArgument timeout).toInt = (-(-timeout.toInt / 1000000)).bmod (2 ^ 32) := by
  have hms : (timeoutMs timeout).toInt = -(-timeout.toInt / 1000000) := by
    rw [toInt_timeoutMs, ← Int.tdiv_eq_ediv_of_nonneg (Int.neg_nonneg_of_nonpos h), Int.neg_tdiv,
      Int.neg_neg]
  have hclamp : ¬ timeoutMs timeout > intMax := by
    have hmax : intMax.toInt = 2147483647 := by decide
    rw [gt_iff_lt, Int64.lt_iff_toInt_lt, hms, hmax]
    omega
  unfold timeoutArgument
  rw [if_neg hclamp, Int64.toInt_toInt32, hms]

/-- **Positive**: the whole milliseconds, or the greatest `int`. -/
theorem toInt_timeoutArgument_of_pos {timeout : Int64} (h : 0 ≤ timeout.toInt) :
    (timeoutArgument timeout).toInt = min (timeout.toInt / 1000000) 2147483647 := by
  have hms : (timeoutMs timeout).toInt = timeout.toInt / 1000000 := by
    rw [toInt_timeoutMs, Int.tdiv_eq_ediv_of_nonneg h]
  have hmax : intMax.toInt = 2147483647 := by decide
  have hclamp : timeoutMs timeout > intMax ↔ 2147483647 < timeout.toInt / 1000000 := by
    rw [gt_iff_lt, Int64.lt_iff_toInt_lt, hms, hmax]
  unfold timeoutArgument
  rw [Int64.toInt_toInt32]
  split
  · rename_i hgt
    have hlt := hclamp.mp hgt
    rw [hmax, Int.min_eq_right (Int.le_of_lt hlt)]
    decide
  · rename_i hle
    have hge : timeout.toInt / 1000000 ≤ 2147483647 := Int.not_lt.mp fun hlt => hle (hclamp.mpr hlt)
    rw [hms, Int.min_eq_left hge]
    exact Int.bmod_eq_of_le (by omega) (by omega)

/-! ## 3. The law -/

/-- **Every wait honours the timeout**: its argument is an `int` that is not negative and not more
    than the timeout, and nothing blocks if the timeout is not positive. -/
structure HonoursTimeout (timeout : Int64) (timeouts : List Int32) : Prop where
  range : ∀ timeMs ∈ timeouts, 0 ≤ timeMs.toInt ∧ timeMs.toInt ≤ 2147483647
  within : ∀ timeMs ∈ timeouts, timeMs.toInt * 1000000 ≤ max 0 timeout.toInt
  nonblocking : timeout ≤ 0 → ∀ timeMs ∈ timeouts, timeMs = 0

/-- The timeouts that are honoured: the positive ones, and those that lie less than a millisecond
    below minus a multiple of 2^32 milliseconds. -/
def TimeoutFits (timeout : Int64) : Prop :=
  0 < timeout.toInt ∨ ∃ k : Nat,
    k * 4294967296000000 ≤ -timeout.toInt ∧ -timeout.toInt < k * 4294967296000000 + 1000000

theorem nonpositive_iff (timeout : Int64) : timeout ≤ 0 ↔ timeout.toInt ≤ 0 :=
  Int64.le_iff_toInt_le

/-- Of a timeout that is not positive the narrowed milliseconds are zero exactly when it fits. -/
theorem timeoutArgument_eq_zero_iff {timeout : Int64} (h : timeout.toInt ≤ 0) :
    timeoutArgument timeout = 0 ↔ TimeoutFits timeout := by
  rw [← Int32.toInt_inj, toInt_timeoutArgument_of_neg h, Int32.toInt_zero,
    ← Int.dvd_iff_bmod_eq_zero]
  unfold TimeoutFits
  constructor
  · intro hdvd
    obtain ⟨k, hk⟩ := hdvd
    refine Or.inr ⟨(-k).toNat, ?_, ?_⟩
    · omega
    · omega
  · intro hfits
    obtain ⟨k, hlow, hhigh⟩ := hfits.resolve_left (Int.not_lt.mpr h)
    have hk : -timeout.toInt / 1000000 = k * 4294967296 := by omega
    exact ⟨-k, by rw [hk]; omega⟩

/-- **The timed wait honours exactly the timeouts that fit**, whatever the waits return. -/
theorem waitAndHandleEvents_honours_iff (effect : κ → LoopCore κ α → LoopCore κ α)
    (timeout : Int64) (fast last : List EpollEvent × List κ) (l : EventLoop κ α) :
    HonoursTimeout timeout (waitAndHandleEvents effect timeout fast last l).timeouts ↔
      TimeoutFits timeout := by
  have hlast : timeoutArgument timeout ∈
      (waitAndHandleEvents effect timeout fast last l).timeouts :=
    List.mem_append_right _ List.mem_cons_self
  rcases Int.lt_or_le 0 timeout.toInt with hpos | hneg
  · -- one wait, of the milliseconds or of the greatest `int`
    have hnot : ¬ timeout ≤ 0 := fun hle => Int.not_le.mpr hpos ((nonpositive_iff timeout).mp hle)
    have honly : (waitAndHandleEvents effect timeout fast last l).timeouts =
        [timeoutArgument timeout] := by
      unfold waitAndHandleEvents
      rw [if_neg hnot]
      rfl
    have harg := toInt_timeoutArgument_of_pos (Int.le_of_lt hpos)
    refine ⟨fun _ => Or.inl hpos, fun _ => ⟨?_, ?_, fun hle => absurd hle hnot⟩⟩
    · rw [honly]
      intro timeMs hmem
      rw [List.mem_singleton.mp hmem, harg]
      omega
    · rw [honly]
      intro timeMs hmem
      rw [List.mem_singleton.mp hmem, harg]
      omega
  · -- two waits, and the second must be the one that does not block
    have hboth : (waitAndHandleEvents effect timeout fast last l).timeouts =
        [0, timeoutArgument timeout] := by
      unfold waitAndHandleEvents
      rw [if_pos ((nonpositive_iff timeout).mpr hneg)]
      rfl
    rw [← timeoutArgument_eq_zero_iff hneg]
    constructor
    · intro hlaw
      exact hlaw.nonblocking ((nonpositive_iff timeout).mpr hneg) _ hlast
    · intro hzero
      have hall : ∀ timeMs ∈ (waitAndHandleEvents effect timeout fast last l).timeouts,
          timeMs = 0 := by
        rw [hboth, hzero]
        intro timeMs hmem
        simpa only [List.mem_cons, List.not_mem_nil, or_false, or_self] using hmem
      refine ⟨fun timeMs hmem => ?_, fun timeMs hmem => ?_, fun _ => hall⟩
      · rw [hall timeMs hmem]
        decide
      · rw [hall timeMs hmem, Int32.toInt_zero]
        omega

/-- Minus one millisecond: the second wait gets -1, which waits for ever. -/
theorem waitAndHandleEvents_millisecond :
    ¬ ∀ (timeout : Int64) (fast last : List EpollEvent × List Unit) (l : EventLoop Unit Unit),
      HonoursTimeout timeout
        (waitAndHandleEvents (fun _ c => c) timeout fast last l).timeouts := by
  intro h
  have l : EventLoop Unit Unit := ⟨⟨World.initial ∅ 0, true, ()⟩, [], 0⟩
  have hlaw := h (-1000000) ([], []) ([], []) l
  have hmem : (-1 : Int32) ∈
      (waitAndHandleEvents (fun _ c => c) (-1000000) ([], []) ([], []) l).timeouts :=
    List.mem_append_right _ List.mem_cons_self
  exact absurd (hlaw.nonblocking (by decide) (-1) hmem) (by decide)

end Engine

end PluginsEngine
