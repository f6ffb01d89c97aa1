/-
  File:      PluginsEngine/Timer/Arming.lean
  Subject:   WHAT THE TIMERFD IS ARMED WITH, over whole runs of a timer queue.

  * `Wf.sound_iff` -- an arming is sound exactly when the clock has not passed the deadline of the
    timer it is for: only then the subtraction in `getTimeInterval` does not wrap;
  * `armings_sound_iff_onTime` -- over runs, by a condition on the clock;
  * `Wf.expiry_bounds` -- an arming in time expires from the deadline on, within 15 ms.
-/
import PluginsEngine.Timer.TimerQueue

namespace PluginsEngine

open Library TimerState

/-! ## 1. Sound armings -/

namespace Arming

/-- The clock has not passed the deadline of the timer armed. -/
def InTime (q : TimerQueue) (a : Arming) : Prop :=
  Timer.getNowTimeMSecond a.reading ≤ q.deadline a.timer

instance decidableInTime (q : TimerQueue) (a : Arming) : Decidable (a.InTime q) :=
  inferInstanceAs (Decidable (_ ≤ _))

/-- When an arming expires, in milliseconds: the reading it took, and the interval. -/
def expiry (a : Arming) : Nat := Timer.getNowTimeMSecond a.reading + a.interval.milliseconds

/-- **A sound arming**: no longer than 15 ms or the timer's own interval, from a subtraction that
    did not wrap, and 15 ms for a timer that is due. -/
structure Sound (q : TimerQueue) (a : Arming) : Prop where
  bounded : a.interval.milliseconds ≤ max 15 (q.timer a.timer).intervalMs.toNat
  exact : (((q.deadline a.timer + (2 ^ 64 - Timer.getNowTimeMSecond a.reading)) % 2 ^ 64 : Nat) :
    Int) = q.deadline a.timer - Timer.getNowTimeMSecond a.reading
  due : q.deadline a.timer ≤ Timer.getNowTimeMSecond a.reading → a.interval.milliseconds = 15

instance decidableSound (q : TimerQueue) (a : Arming) : Decidable (a.Sound q) :=
  decidable_of_iff (_ ∧ _ ∧ _)
    ⟨fun h => ⟨h.1, h.2.1, h.2.2⟩, fun h => ⟨h.bounded, h.exact, h.due⟩⟩

/-- Soundness is about the timers, not about the timerfd. -/
theorem sound_timerFd {q : TimerQueue} {timerFd : Option Arming} {a : Arming} :
    a.Sound { q with timerFd := timerFd } ↔ a.Sound q :=
  ⟨fun h => ⟨h.bounded, h.exact, h.due⟩, fun h => ⟨h.bounded, h.exact, h.due⟩⟩

end Arming

/-- What `resetTimer(timer)` arms the timerfd with at the reading `t`. -/
def TimerQueue.arming (q : TimerQueue) (timer : TimerId) (t : Nat) : Arming :=
  ⟨timer, t, (q.timer timer).getTimeInterval t⟩

namespace TimerState

variable {s s' : TimerState} {l : TimerStep} {o : TimerShown}

/-- **What a timer is armed with now**, by its deadline; which is at most its interval away. -/
theorem Wf.arming_interval (h : s.Wf) {timer : TimerId} (ht : timer < s.queue.next) :
    s.queue.deadline timer ≤ s.clock / 1000000 + (s.queue.timer timer).intervalMs.toNat ∧
      (s.queue.arming timer s.clock).interval.milliseconds =
        if s.clock / 1000000 ≤ s.queue.deadline timer then
          max 15 (s.queue.deadline timer - s.clock / 1000000)
        else 2 ^ 64 - (s.clock / 1000000 - s.queue.deadline timer) := by
  obtain ⟨t₀, hle, hv, hup, hd⟩ := h.deadline_eq ht
  refine ⟨?_, Timer.getTimeInterval_eq hup hv h.clock⟩
  have hclock : t₀ / 1000000 ≤ s.clock / 1000000 := Nat.div_le_div_right hle
  omega

theorem Wf.inTime_iff (h : s.Wf) (timer : TimerId) :
    (s.queue.arming timer s.clock).InTime s.queue ↔
      s.clock / 1000000 ≤ s.queue.deadline timer := by
  show Timer.getNowTimeMSecond s.clock ≤ s.queue.deadline timer ↔ _
  rw [Timer.getNowTimeMSecond_eq h.clock]

/-- **An arming is sound exactly when it is in time.** -/
theorem Wf.sound_iff (h : s.Wf) {timer : TimerId} (ht : timer < s.queue.next) :
    (s.queue.arming timer s.clock).Sound s.queue ↔
      s.clock / 1000000 ≤ s.queue.deadline timer := by
  obtain ⟨hd, hi⟩ := h.arming_interval ht
  have hn := Timer.getNowTimeMSecond_eq h.clock
  have hinterval := (s.queue.timer timer).intervalMs.toNat_lt
  have hv := h.clock
  unfold ValidReading at hv
  constructor
  · intro hsound
    have hbounded : (s.queue.arming timer s.clock).interval.milliseconds ≤
      max 15 (s.queue.timer timer).intervalMs.toNat := hsound.bounded
    by_cases hle : s.clock / 1000000 ≤ s.queue.deadline timer
    · exact hle
    · -- 2^64 less what a 63-bit clock can have passed by is above every 32-bit interval
      rw [hi, if_neg hle] at hbounded
      omega
  · intro hle
    rw [if_pos hle] at hi
    refine ⟨?_, ?_, ?_⟩
    · show _ ≤ max 15 (s.queue.timer timer).intervalMs.toNat
      rw [hi]
      omega
    · show (((s.queue.deadline timer + (2 ^ 64 - Timer.getNowTimeMSecond s.clock)) % 2 ^ 64 : Nat) :
        Int) = s.queue.deadline timer - Timer.getNowTimeMSecond s.clock
      rw [hn]
      omega
    · show s.queue.deadline timer ≤ Timer.getNowTimeMSecond s.clock → _
      intro hdue
      rw [hn] at hdue
      rw [hi]
      omega

/-- **When an arming in time expires**: from the deadline on, within 15 ms. -/
theorem Wf.expiry_bounds (h : s.Wf) {timer : TimerId} (ht : timer < s.queue.next)
    (hin : (s.queue.arming timer s.clock).InTime s.queue) :
    s.queue.deadline timer ≤ (s.queue.arming timer s.clock).expiry ∧
      (s.queue.arming timer s.clock).expiry ≤ s.queue.deadline timer + 15 := by
  have hle := (h.inTime_iff timer).mp hin
  obtain ⟨-, hi⟩ := h.arming_interval ht
  rw [if_pos hle] at hi
  have hexpiry : (s.queue.arming timer s.clock).expiry =
      s.clock / 1000000 + max 15 (s.queue.deadline timer - s.clock / 1000000) := by
    rw [← hi, ← Timer.getNowTimeMSecond_eq h.clock]
    rfl
  rw [hexpiry]
  omega

/-- **On time**: an addition that arms the timerfd reads the clock a second time before the new
    timer is overdue, and a pass that comes to `resetTimer()` finds no timer overdue. -/
def OnTime (s : TimerState) : TimerStep → Prop
  | .addOnceTimer interval t t' =>
    (s.queue.withTimer .once interval t).arms s.queue.next = true →
      t' / 1000000 ≤ t / 1000000 + interval.toNat
  | .addRecurringTimer interval t t' =>
    (s.queue.withTimer .recurring interval t).arms s.queue.next = true →
      t' / 1000000 ≤ t / 1000000 + interval.toNat
  | .resetTimer t => ∀ n ∈ s.queue.nodes, t / 1000000 ≤ n.key
  | _ => True

theorem onTime_addStep (s : TimerState) (kind : TimerKind) (interval : UInt32) (t t' : Nat) :
    s.OnTime (addStep kind interval t t') ↔
      ((s.queue.withTimer kind interval t).arms s.queue.next = true →
        t' / 1000000 ≤ t / 1000000 + interval.toNat) := by
  cases kind with
  | once => exact Iff.rfl
  | recurring => exact Iff.rfl

/-- A step that arms nothing. -/
theorem sound_of_quiet (h : s.OnTime l) (ho : o.armed = none) :
    (∀ a ∈ o.armed, a.Sound s'.queue) ↔ s.OnTime l := by
  rw [ho]
  exact ⟨fun _ => h, fun _ _ ha => by cases ha⟩

theorem forall_mem_some {α : Type} {P : α → Prop} {a : α} : (∀ x ∈ some a, P x) ↔ P a :=
  ⟨fun h => h a rfl, fun h x hx => by cases hx; exact h⟩

/-- **The armings of a step are sound exactly when it is on time.** -/
theorem Wf.sound_iff_onTime (h : s.Wf) (hs : timerQueue.step s l = some (s', o)) :
    (∀ a ∈ o.armed, a.Sound s'.queue) ↔ s.OnTime l := by
  cases h.move hs with
  | add kind interval t t' hadd hle htt hv hno =>
    refine sound_of_quiet ((onTime_addStep s kind interval t t').mpr fun hyes => ?_) rfl
    rw [hno] at hyes
    cases hyes
  | addArming kind interval t t' hadd hle htt hv hyes =>
    have hwf : Wf ⟨s.queue.withTimer kind interval t, s.pc, t'⟩ := h.withTimer hle htt hv hadd
    have hsound := hwf.sound_iff (Nat.lt_succ_self s.queue.next)
    have hd := deadline_withTimer (q := s.queue) (Nat.lt_of_le_of_lt htt hv) kind interval
    rw [onTime_addStep, ← hd]
    refine forall_mem_some.trans (Arming.sound_timerFd.trans (hsound.trans ?_))
    exact ⟨fun hle _ => hle, fun hle => hle hyes⟩
  | start hpc => exact sound_of_quiet trivial rfl
  | loopEnd kind hpc hnodes => exact sound_of_quiet trivial rfl
  | wait kind n ns t hpc hnodes hr hlater => exact sound_of_quiet trivial rfl
  | fire kind n ns t hpc hnodes hr hdue => exact sound_of_quiet trivial rfl
  | onceReturns n ns t m hpc hnodes hr hm => exact sound_of_quiet trivial rfl
  | recurringReturns n ns t m id hpc hnodes hr hdue hm => exact sound_of_quiet trivial rfl
  | resetNone t hpc hr hnodes =>
    refine sound_of_quiet (fun n hn => ?_) rfl
    rw [hnodes] at hn
    cases hn
  | reset n t hpc hr hn hmin =>
    have hwf : Wf ⟨s.queue, .idle, t⟩ := h.goOn .idle hr.1 hr.2 trivial
    obtain ⟨hlt, hkey⟩ := h.node n hn
    refine forall_mem_some.trans (Arming.sound_timerFd.trans ((hwf.sound_iff hlt).trans ?_))
    show t / 1000000 ≤ s.queue.deadline n.value ↔ ∀ x ∈ s.queue.nodes, t / 1000000 ≤ x.key
    rw [← hkey]
    exact ⟨fun hle x hx => Nat.le_trans hle (hmin x hx), fun hle => hle n hn⟩

/-- **Over runs**: every arming is sound exactly when every step is on time. -/
theorem armings_sound_iff_onTime (ls : List TimerStep) :
    timerQueue.Along (fun _ _ s' o => ∀ a ∈ o.armed, a.Sound s'.queue) initial ls ↔
      timerQueue.Along (fun s l _ _ => s.OnTime l) initial ls :=
  Machine.along_iff (I := Wf)
    (fun _ _ _ _ h hs => ⟨h.sound_iff_onTime hs, fun _ => h.step hs⟩) wf_initial

/-- A recurring timer of 20 ms and a once timer of 30 ms. A pass at 25 ms runs the callback of the
    first, which takes 15 ms. -/
def slowCallback : List TimerStep :=
  [.addRecurringTimer 20 0 0, .addOnceTimer 30 0 0, .timerHandle, .check 25000000,
    .check 25000000, .callbackReturns 40000000, .check 40000000, .resetTimer 40000000]

/-- **An overdue timer is armed far ahead**: the once timer, late by 10 ms, is armed with 10 ms
    less than 2^64 ms. -/
theorem slow_callback_arms_far_ahead :
    ((timerQueue.run initial slowCallback).map fun p =>
        p.2.getLast?.bind fun o => o.armed.map fun a => (a.timer, a.interval.milliseconds)) =
      some (some (1, 2 ^ 64 - 10)) ∧
    ¬ timerQueue.Along (fun _ _ s' o => ∀ a ∈ o.armed, a.Sound s'.queue) initial slowCallback := by
  exact ⟨by decide +kernel, by decide +kernel⟩

end TimerState

end PluginsEngine
