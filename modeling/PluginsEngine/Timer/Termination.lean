/-
  File:      PluginsEngine/Timer/Termination.lean
  Subject:   WHETHER A PASS RETURNS.

  The loop over `recurringTimers` inserts what it has fired into the multimap it is scanning, and
  reads the clock again for every node. A timer that is due again by then fires again.

  * `pass_stops` -- a pass that has returned goes no further;
  * `timerHandle_returns_iff` -- a pass calls every timer at most once and returns exactly when no
    timer it has renewed is due again at the end of its scan;
  * `zero_interval_never_returns` -- a recurring timer with the interval 0.
-/
import PluginsEngine.Timer.DueTimers

namespace PluginsEngine

open Library TimerState

/-! ## 1. A pass that has returned -/

section

variable {s s₁ s₂ : TimerState} {c : Stream' Nat} {os₁ os₂ : List TimerShown}

/-- A pass that has returned goes no further. -/
theorem pass_stops {rs : List Nat} {os : List TimerShown} (hpc : s₁.pc = .idle)
    (h : timerPass.run s₁ rs = some (s₂, os)) : rs = [] := by
  cases rs with
  | nil => rfl
  | cons r rs =>
    obtain ⟨s', o, os', hs, -, -⟩ := Machine.run_cons_iff.mp h
    simp only [timerPass, piece, hpc, Option.bind_none] at hs
    cases hs

/-- A pass that has returned is the longest under its clock. -/
theorem pass_longest {n k : Nat} (h₁ : timerPass.run s (c.take n) = some (s₁, os₁))
    (hpc : s₁.pc = .idle) (h₂ : timerPass.run s (c.take k) = some (s₂, os₂)) :
    k ≤ n ∧ ∃ os, os₁ = os₂ ++ os := by
  rcases Nat.le_total k n with hkn | hnk
  · refine ⟨hkn, ?_⟩
    rw [← Nat.add_sub_cancel' hkn, Stream'.take_add] at h₁
    obtain ⟨m, os, os', hm, -, hos⟩ := Machine.run_append_iff.mp h₁
    rw [h₂] at hm
    cases hm
    exact ⟨os', hos⟩
  · have hk : k = n := by
      rw [← Nat.add_sub_cancel' hnk, Stream'.take_add] at h₂
      obtain ⟨m, os, os', hm, hrest, -⟩ := Machine.run_append_iff.mp h₂
      rw [h₁] at hm
      cases hm
      have hnil := congrArg List.length (pass_stops hpc hrest)
      rw [Stream'.length_take, List.length_nil] at hnil
      omega
    subst hk
    rw [h₁] at h₂
    cases h₂
    exact ⟨Nat.le_refl _, [], (List.append_nil _).symm⟩

/-- **A pass calls every timer at most once and returns** exactly when no timer it has renewed is
    due again at the end of its scan. -/
theorem timerHandle_returns_iff (hq : s.queue.Contents) (hc : Ticks s.clock c) :
    (∃ n s' os, timerPass.run s.enter (c.take n) = some (s', os) ∧ s'.pc = .idle ∧
      (firedTimers os).Nodup) ↔ s.queue.NoneDueAgain c := by
  constructor
  · intro ⟨n, s', os, hrun, hpc, hnodup⟩
    by_contra hdue
    obtain ⟨k, s₂, os₂, hrun₂, htwice⟩ := pass_refires hc hdue
    obtain ⟨-, rest, hos⟩ := pass_longest hrun hpc hrun₂
    rw [hos, firedTimers, firings_append, List.map_append] at hnodup
    exact htwice (List.nodup_append.mp hnodup).1
  · intro hlater
    obtain ⟨s', os, hrun, hpc, hshown, -⟩ := pass_returns hc hlater
    exact ⟨_, s', os, hrun, hpc, hq.fired_nodup hshown⟩

end

theorem timerHandle_returns_iff_threeTimers :
    (∃ n s' os, timerPass.run threeTimers.enter ((Stream'.const 25000000).take n) =
      some (s', os) ∧ s'.pc = .idle ∧ (firedTimers os).Nodup) ↔
      threeTimers.queue.NoneDueAgain (Stream'.const 25000000) :=
  timerHandle_returns_iff (s := threeTimers) ⟨by decide, by decide⟩
    ((Ticks.const (by decide)).of_le (by decide))

/-! ## 2. An interval of 0 -/

/-- A recurring timer alone, due, with the interval 0: it fires again and again. -/
theorem zeroInterval_spins {s : TimerState} {v : TimerId} {id : Nat} {t : Nat}
    (hpc : s.pc = .loop .recurring s.queue.recurringTimers.begin)
    (hnodes : s.queue.recurringTimers.nodes = [⟨id, Timer.getNowTimeMSecond t, v⟩])
    (hinterval : s.queue.interval v = 0) (hr : s.reads t) (n : Nat) :
    ∃ s' os, timerPass.run s ((Stream'.const t).take (2 * n)) = some (s', os) ∧
      firedTimers os = List.replicate n v := by
  induction n generalizing s id with
  | zero => exact ⟨s, [], rfl, rfl⟩
  | succ n ih =>
    have hc : Ticks s.clock (Stream'.const t) := (Ticks.const hr.2).of_le hr.1
    have hnodes₀ : s.queue.recurringTimers.nodes =
        insertAll [⟨id, Timer.getNowTimeMSecond t, v⟩] [] := hnodes
    obtain ⟨s₁, hround, hpc₁, hnodes₁, -, hinterval₁, -, -, hclock₁⟩ :=
      renewRound hpc hnodes₀ hc (Nat.le_refl _) fun a ha => absurd ha List.not_mem_nil
    have hclock : s₁.clock = t := hclock₁
    have hnodes' : s₁.queue.recurringTimers.nodes =
        [⟨s.queue.recurringTimers.next, Timer.getNowTimeMSecond t, v⟩] := by
      rw [hnodes₁, hinterval]
      rfl
    obtain ⟨s', os, hrun, hfired⟩ := ih hpc₁ hnodes' (hinterval₁ ▸ hinterval)
      ⟨Nat.le_of_eq hclock, hr.2⟩
    refine ⟨s', _, round_append hround hrun, ?_⟩
    show v :: firedTimers os = _
    rw [hfired]
    rfl

/-- A queue in which a recurring timer with the interval 0 has been added. -/
def zeroInterval : TimerState :=
  ⟨(TimerQueue.initial.addRecurringTimer 0 0 0).1, .idle, 0⟩

/-- **The pass never returns**: the timer is due under its new deadline as soon as it has fired,
    and the loop finds it again. -/
theorem zero_interval_never_returns :
    zeroInterval.queue.Contents ∧ Ticks zeroInterval.clock (Stream'.const 0) ∧
    (∀ n, ∃ s' os, timerPass.run zeroInterval.enter ((Stream'.const 0).take (1 + 2 * n)) =
      some (s', os) ∧ firedTimers os = List.replicate n 0) ∧
    ¬ ∃ n s' os, timerPass.run zeroInterval.enter ((Stream'.const 0).take n) = some (s', os) ∧
      s'.pc = .idle := by
  have hc : Ticks zeroInterval.clock (Stream'.const 0) := Ticks.const (by decide)
  have hspins : ∀ n, ∃ s' os, timerPass.run zeroInterval.enter
      ((Stream'.const 0).take (1 + 2 * n)) = some (s', os) ∧
        firedTimers os = List.replicate n 0 := by
    intro n
    -- the first loop ends at once
    have henter : timerPass.run zeroInterval.enter ((Stream'.const 0).take 1) =
        some (⟨zeroInterval.queue, .loop .recurring zeroInterval.queue.recurringTimers.begin, 0⟩,
          [quiet]) := rfl
    have hnodes : zeroInterval.queue.recurringTimers.nodes = [⟨0, 0, 0⟩] := rfl
    obtain ⟨s', os, hrun, hfired⟩ := zeroInterval_spins (s := ⟨zeroInterval.queue,
      .loop .recurring zeroInterval.queue.recurringTimers.begin, 0⟩) (t := 0) rfl hnodes rfl
      ⟨Nat.le_refl 0, by decide⟩ n
    exact ⟨s', _, run_take_add henter hrun, hfired⟩
  refine ⟨⟨by decide, by decide⟩, hc, hspins, ?_⟩
  intro ⟨n, s', os, hrun, hpc⟩
  obtain ⟨s₂, os₂, hrun₂, -⟩ := hspins n
  have hle := (pass_longest hrun hpc hrun₂).1
  omega

end PluginsEngine
