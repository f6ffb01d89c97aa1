/-
  File:      PluginsEngine/Adapter/Waits.lean
  Subject:   WHICH WAITS OF THE ADAPTER ARE OUTSTANDING.

  `askedAdapter` is the adapter with what was asked of it and what happened: for each descriptor
  the events of the latest `add` or `modify`, whether a `modify` has started the waits, and which
  waits have completed. `KeepsArmed` is what the owner of a descriptor relies on: while nothing is
  pending, one wait is outstanding for the error event and for each event asked for.

  `waitedEvents` notes a wait when it is started, and nothing takes the note back when the wait
  completes. So each of the three waits is started once in the life of a descriptor:

  * `Waited` -- a wait is outstanding exactly when it is noted and has not completed;
  * `keepsArmed_iff_unspent` -- `KeepsArmed` holds along a run exactly when no `modify` asks for
    an event that completed before, and no delivery ends with the error wait or the wait of an
    event asked for completed;
  * `silent_after_the_first_event` -- one input event, and nobody waits for the next.
-/
import PluginsEngine.Adapter.IOContextAdapter

namespace PluginsEngine

open Library

namespace IOContextAdapter

variable {κ : Type}

/-! ## 1. What was asked -/

/-- What was asked for a descriptor since it was added, and which of its waits completed. -/
structure Asked where
  requested : Mask
  started : Bool
  completed : Wait → Bool

def askedAfter (_ : Adapter κ) (l : AdapterLabel κ) (_ : Shown κ) (asked : Int → Asked) :
    Int → Asked :=
  match l with
  | .add fd events _ _ => Function.update asked fd ⟨events, false, fun _ => false⟩
  | .modify fd evnets =>
    Function.update asked fd { asked fd with requested := evnets, started := true }
  | .complete fd w =>
    Function.update asked fd
      { asked fd with completed := Function.update (asked fd).completed w true }
  | _ => asked

abbrev AskedState (κ : Type) := Adapter κ × (Int → Asked)

def askedAdapter (κ : Type) : Machine (AskedState κ) (AdapterLabel κ) (Shown κ) :=
  (adapter κ).withHistory askedAfter

/-- Nothing is registered. -/
def AskedState.start (κ : Type) : AskedState κ :=
  (IOContextAdapter.start κ, fun _ => ⟨0, false, fun _ => false⟩)

/-! ## 2. The law and the condition -/

/-- A collected event of the descriptor is still to be delivered, or is being delivered. -/
def Pending (a : Adapter κ) (fd : Int) (d : StreamDesc κ) : Prop :=
  d.collectedEvents ≠ 0 ∨ a.running = .of fd

/-- **The waits of one descriptor**: never more than one of a kind; and where waits have been
    started and nothing is pending, one for the error event and one for each event asked for. -/
structure ArmedAt (a : Adapter κ) (fd : Int) (d : StreamDesc κ) (asked : Asked) : Prop where
  atMostOne : ∀ w, d.outstanding w ≤ 1
  error : asked.started → ¬ Pending a fd d → d.outstanding .error = 1
  requested : asked.started → ¬ Pending a fd d →
    ∀ w, w ≠ .error → asked.requested.has w.event → d.outstanding w = 1

/-- **Interest is kept armed**: after the step, for every registered descriptor. -/
def KeepsArmed (_ : AskedState κ) (_ : AdapterLabel κ) (s' : AskedState κ) (_ : Shown κ) : Prop :=
  ∀ fd d, s'.1.map fd = some d → ArmedAt s'.1 fd d (s'.2 fd)

/-- Neither the error wait nor the wait of an event asked for has completed yet. -/
def Asked.Unspent (asked : Asked) : Prop :=
  asked.completed .error = false ∧
    ∀ w, w ≠ .error → asked.requested.has w.event → asked.completed w = false

/-- **No wait is needed a second time**: a `modify` with nothing pending asks for no event that
    completed before, and when a delivery ends, neither the error wait nor the wait of an event
    asked for has completed. -/
def NotSpent (s : AskedState κ) (l : AdapterLabel κ) (_ : AskedState κ) (_ : Shown κ) : Prop :=
  match l with
  | .modify fd evnets => ∀ d, s.1.map fd = some d → ¬ Pending s.1 fd d →
      ∀ w, w ≠ .error → evnets.has w.event → (s.2 fd).completed w = false
  | .rearm => ∀ fd, s.1.running = .of fd → (s.2 fd).Unspent
  | _ => True

/-! ## 3. One descriptor -/

/-- A wait is outstanding exactly when it is noted and has not completed; what completed is noted;
    once waits are started, the error event and all events asked for are. -/
structure Waited (d : StreamDesc κ) (asked : Asked) : Prop where
  outstanding : ∀ w, d.outstanding w =
    if d.waitedEvents.has w.event ∧ asked.completed w = false then 1 else 0
  completed : ∀ w, asked.completed w → d.waitedEvents.has w.event
  wanted : asked.started → ∀ w : Wait, w = .error ∨ asked.requested.has w.event →
    d.waitedEvents.has w.event
  unstarted : asked.started = false → d.waitedEvents = 0 ∧ d.posted = 0

namespace Waited

variable {d : StreamDesc κ} {asked : Asked}

/-- **When a descriptor is armed.** -/
theorem armedAt_iff (h : Waited d asked) {a : Adapter κ} {fd : Int} :
    ArmedAt a fd d asked ↔ (asked.started → ¬ Pending a fd d → asked.Unspent) := by
  have hone : ∀ w, d.waitedEvents.has w.event → (d.outstanding w = 1 ↔ asked.completed w = false)
      := by
    intro w hw
    rw [h.outstanding w]
    by_cases hc : asked.completed w = false
    · rw [if_pos ⟨hw, hc⟩]
      exact ⟨fun _ => hc, fun _ => rfl⟩
    · rw [if_neg fun hh => hc hh.2]
      exact ⟨fun h0 => absurd h0 (by decide), fun hh => absurd hh hc⟩
  constructor
  · intro ha hs hp
    have hwanted := h.wanted hs
    exact ⟨(hone _ (hwanted _ (Or.inl rfl))).mp (ha.error hs hp), fun w hw hr =>
      (hone w (hwanted w (Or.inr hr))).mp (ha.requested hs hp w hw hr)⟩
  · intro hu
    refine ⟨fun w => ?_, fun hs hp => ?_, fun hs hp w hw hr => ?_⟩
    · rw [h.outstanding w]
      split <;> omega
    · exact (hone _ (h.wanted hs _ (Or.inl rfl))).mpr (hu hs hp).1
    · exact (hone w (h.wanted hs w (Or.inr hr))).mpr ((hu hs hp).2 w hw hr)

/-- Nothing completes before the waits are started. -/
theorem started_of_completed (h : Waited d asked) {w : Wait} (hc : asked.completed w) :
    asked.started := by
  by_contra hs
  have h0 := (h.unstarted (Bool.eq_false_iff.mpr hs)).1
  have hw := h.completed w hc
  rw [h0, has_zero] at hw
  cases hw

theorem new (events : Mask) (handler : κ) (memory : Bool) :
    Waited (.new events handler memory) ⟨events, false, fun _ => false⟩ where
  outstanding w := by
    rw [if_neg]
    · rfl
    · intro hw
      exact absurd (hw.1.symm.trans (has_zero w.event)) (by decide)
  completed _ hc := absurd hc Bool.false_ne_true
  wanted hs := absurd hs Bool.false_ne_true
  unstarted _ := ⟨rfl, rfl⟩

/-- `waitAsync` starts what is wanted and not noted yet; what completed is noted, so it is not
    started again. -/
theorem waitAsync (h : Waited d asked) {d' : StreamDesc κ} {asked' : Asked}
    (hout : d'.outstanding = d.outstanding) (hwaited : d'.waitedEvents = d.waitedEvents)
    (hcompleted : asked'.completed = asked.completed) (hstarted : asked'.started = true)
    (hwanted : ∀ w : Wait, w = .error ∨ asked'.requested.has w.event →
      d.waitedEvents.has w.event ∨ d'.wants w) : Waited d'.waitAsync asked' where
  outstanding w := by
    rw [StreamDesc.waitAsync_outstanding, StreamDesc.waitAsync_waited, hout, hwaited,
      hcompleted, h.outstanding w]
    have hc := h.completed w
    by_cases hw : d.waitedEvents.has w.event
    · simp [hw]
    · have hnot : asked.completed w = false := Bool.eq_false_iff.mpr fun hh => hw (hc hh)
      simp [hw, hnot]
  completed w hc := by
    rw [hcompleted] at hc
    rw [StreamDesc.waitAsync_waited, hwaited, h.completed w hc, Bool.true_or]
  wanted _ w hw := by
    rw [StreamDesc.waitAsync_waited, hwaited, Bool.or_eq_true]
    exact hwanted w hw
  unstarted hs := by
    rw [hstarted] at hs
    cases hs

theorem complete (h : Waited d asked) {w : Wait} (hw : 0 < d.outstanding w) :
    Waited (d.complete w)
      { asked with completed := Function.update asked.completed w true } := by
  have hnoted : d.waitedEvents.has w.event := by
    rw [h.outstanding w] at hw
    split at hw
    · rename_i hh
      exact hh.1
    · omega
  have hone : d.outstanding w = 1 := by
    rw [h.outstanding w] at hw ⊢
    split at hw
    · rename_i hh
      exact if_pos hh
    · omega
  have hout : (d.complete w).outstanding = Function.update d.outstanding w 0 := by
    rw [d.complete_eq, hone]
  have hwaited : (d.complete w).waitedEvents = d.waitedEvents := by rw [d.complete_eq]
  refine ⟨fun w' => ?_, fun w' hc => ?_, fun hs w' => ?_, fun hs => ?_⟩
  · rw [hout, hwaited]
    by_cases hne : w' = w
    · subst hne
      simp only [Function.update_self]
      rw [if_neg fun hh => absurd hh.2 (by decide)]
    · simp only [Function.update_of_ne hne]
      exact h.outstanding w'
  · rw [hwaited]
    by_cases hne : w' = w
    · subst hne
      exact hnoted
    · simp only [Function.update_of_ne hne] at hc
      exact h.completed w' hc
  · rw [hwaited]
    exact h.wanted hs w'
  · have h0 := (h.unstarted hs).1
    rw [h0, has_zero] at hnoted
    cases hnoted

theorem collect (h : Waited d asked) (polled : Option Mask) : Waited (d.collect polled).1 asked :=
  ⟨h.outstanding, h.completed, h.wanted, fun hs =>
    ⟨(h.unstarted hs).1, by
      show d.posted - 1 = 0
      rw [(h.unstarted hs).2]⟩⟩

end Waited

theorem complete_collectedEvents (d : StreamDesc κ) (w : Wait) :
    (d.complete w).collectedEvents ≠ 0 := by
  intro h0
  have hhas := has_or_event d.collectedEvents w w
  rw [d.complete_eq] at h0
  dsimp only at h0
  rw [h0, has_zero, decide_eq_true rfl, Bool.or_true] at hhas
  cases hhas

/-! ## 4. Whole adapters -/

/-- Every registered descriptor is in order; an event handler runs for a registered descriptor
    with started waits, whose collected events it has taken; and the law holds. -/
structure Armed (s : AskedState κ) : Prop where
  waited : ∀ fd d, s.1.map fd = some d → Waited d (s.2 fd)
  running : ∀ fd, s.1.running = .of fd →
    ∃ d, s.1.map fd = some d ∧ d.collectedEvents = 0 ∧ (s.2 fd).started
  law : ∀ fd d, s.1.map fd = some d → ArmedAt s.1 fd d (s.2 fd)

/-- **What a step about `fd` does**: the other descriptors are as they were, and `fd` is in
    order again. -/
structure About (s s' : AskedState κ) (fd : Int) : Prop where
  map : ∀ fd' ≠ fd, s'.1.map fd' = s.1.map fd'
  asked : ∀ fd' ≠ fd, s'.2 fd' = s.2 fd'
  others : ∀ fd' ≠ fd, s'.1.running = .of fd' ↔ s.1.running = .of fd'
  waited : ∀ d, s'.1.map fd = some d → Waited d (s'.2 fd)
  running : s'.1.running = .of fd →
    ∃ d, s'.1.map fd = some d ∧ d.collectedEvents = 0 ∧ (s'.2 fd).started

namespace About

variable {s s' : AskedState κ} {fd : Int}

theorem armedAt_of_ne (h : About s s' fd) (hI : Armed s) {fd' : Int} (hne : fd' ≠ fd)
    {d : StreamDesc κ} (hd : s'.1.map fd' = some d) : ArmedAt s'.1 fd' d (s'.2 fd') := by
  rw [h.map fd' hne] at hd
  rw [h.asked fd' hne]
  have hold := hI.law fd' d hd
  have hp : Pending s'.1 fd' d ↔ Pending s.1 fd' d := or_congr Iff.rfl (h.others fd' hne)
  exact ⟨hold.atMostOne, fun hs hn => hold.error hs (mt hp.mpr hn),
    fun hs hn => hold.requested hs (mt hp.mpr hn)⟩

/-- The law after the step is a matter of `fd` alone. -/
theorem keepsArmed_iff (h : About s s' fd) (hI : Armed s) {l : AdapterLabel κ} {o : Shown κ} :
    KeepsArmed s l s' o ↔ ∀ d, s'.1.map fd = some d →
      (s'.2 fd).started → ¬ Pending s'.1 fd d → (s'.2 fd).Unspent := by
  constructor
  · intro hk d hd
    exact (h.waited d hd).armedAt_iff.mp (hk fd d hd)
  · intro hu fd' d hd
    by_cases hfd : fd' = fd
    · subst hfd
      exact (h.waited d hd).armedAt_iff.mpr (hu d hd)
    · exact h.armedAt_of_ne hI hfd hd

theorem armed (h : About s s' fd) (hI : Armed s) {l : AdapterLabel κ} {o : Shown κ}
    (hk : KeepsArmed s l s' o) : Armed s' where
  waited fd' d hd := by
    by_cases hfd : fd' = fd
    · subst hfd
      exact h.waited d hd
    · rw [h.map fd' hfd] at hd
      rw [h.asked fd' hfd]
      exact hI.waited fd' d hd
  running fd' hr := by
    by_cases hfd : fd' = fd
    · subst hfd
      exact h.running hr
    · rw [h.map fd' hfd, h.asked fd' hfd]
      exact hI.running fd' ((h.others fd' hfd).mp hr)
  law := hk

end About

/-- The map with another descriptor under `fd`, and the same event handler running. -/
theorem about_set {s s' : AskedState κ} {fd : Int} {d : StreamDesc κ} {asked : Asked}
    (hmap : s'.1.map = Function.update s.1.map fd (some d))
    (hrun : s'.1.running = s.1.running) (hasked : s'.2 = Function.update s.2 fd asked)
    (hwaited : Waited d asked)
    (hrunning : s.1.running = .of fd → d.collectedEvents = 0 ∧ asked.started) :
    About s s' fd where
  map fd' hne := by rw [hmap, Function.update_of_ne hne]
  asked fd' hne := by rw [hasked, Function.update_of_ne hne]
  others fd' _ := by rw [hrun]
  waited d' hd := by
    rw [hmap, Function.update_self] at hd
    cases hd
    rw [hasked, Function.update_self]
    exact hwaited
  running hr := by
    rw [hrun] at hr
    rw [hmap, hasked, Function.update_self, Function.update_self]
    exact ⟨d, rfl, hrunning hr⟩

/-! ## 5. The steps -/

namespace Armed

variable {s : AskedState κ} {a' : Adapter κ} {o : Shown κ}

/-- A descriptor that the step leaves alone. -/
theorem about_self (hI : Armed s) (fd : Int) : About s s fd where
  map _ _ := rfl
  asked _ _ := rfl
  others _ _ := Iff.rfl
  waited d hd := hI.waited fd d hd
  running hr := hI.running fd hr

theorem unspent (hI : Armed s) {fd : Int} {d : StreamDesc κ} (hd : s.1.map fd = some d)
    (hs : (s.2 fd).started) (hp : ¬ Pending s.1 fd d) : (s.2 fd).Unspent :=
  (hI.waited fd d hd).armedAt_iff.mp (hI.law fd d hd) hs hp

/-- With nothing pending the error wait has not completed, whether waits were started or not. -/
theorem error_unspent (hI : Armed s) {fd : Int} {d : StreamDesc κ} (hd : s.1.map fd = some d)
    (hp : ¬ Pending s.1 fd d) : (s.2 fd).completed .error = false := by
  by_contra hc
  have hs := (hI.waited fd d hd).started_of_completed (Bool.eq_true_of_not_eq_false hc)
  exact hc (hI.unspent hd hs hp).1

/-- What a step about `fd` has to show: where it ends with nothing pending, the waits that are
    needed have not completed. -/
def Settles (s : AskedState κ) (l : AdapterLabel κ) (s' : AskedState κ) (o : Shown κ)
    (fd : Int) : Prop :=
  About s s' fd ∧ ((∀ d, s'.1.map fd = some d → (s'.2 fd).started → ¬ Pending s'.1 fd d →
    (s'.2 fd).Unspent) ↔ NotSpent s l s' o)

theorem settles_self (hI : Armed s) {l : AdapterLabel κ} (fd : Int) (h : NotSpent s l s o) :
    Settles s l s o fd :=
  ⟨hI.about_self fd, fun _ => h, fun _ _ => hI.unspent⟩

theorem add (hI : Armed s) {fd : Int} {events : Mask} {handler : κ} {memory : Bool}
    (hs : (adapter κ).step s.1 (.add fd events handler memory) = some (a', o)) :
    Settles s (.add fd events handler memory)
      (a', askedAfter s.1 (.add fd events handler memory) o s.2) o fd := by
  simp only [adapter] at hs
  split at hs
  · rename_i hnone
    rw [Option.isNone_iff_eq_none] at hnone
    simp only [Adapter.add, hnone] at hs
    obtain ⟨rfl, -⟩ := Prod.mk.inj (Option.some.inj hs)
    refine ⟨about_set rfl rfl rfl (Waited.new events handler memory) fun hr => ?_,
      fun _ => trivial, fun _ d _ hst => ?_⟩
    · obtain ⟨d, hd, -⟩ := hI.running fd hr
      rw [hnone] at hd
      cases hd
    · -- nothing has started its waits
      simp only [askedAfter, Function.update_self] at hst
      cases hst
  · cases hs

theorem modify (hI : Armed s) {fd : Int} {evnets : Mask}
    (hs : (adapter κ).step s.1 (.modify fd evnets) = some (a', o)) :
    Settles s (.modify fd evnets) (a', askedAfter s.1 (.modify fd evnets) o s.2) o fd := by
  simp only [adapter, Adapter.modify] at hs
  cases hd : s.1.map fd with
  | none =>
    simp only [hd] at hs
    obtain ⟨rfl, -⟩ := Prod.mk.inj (Option.some.inj hs)
    refine ⟨⟨fun _ _ => rfl, fun fd' hne => Function.update_of_ne hne _ _, fun _ _ => Iff.rfl,
      fun d hd' => ?_, fun hr => ?_⟩, fun _ d hd' => ?_, fun _ d hd' => ?_⟩
    · exact absurd (hd.symm.trans hd') (by simp)
    · obtain ⟨d, hd', -⟩ := hI.running fd hr
      exact absurd (hd.symm.trans hd') (by simp)
    · exact absurd (hd.symm.trans hd') (by simp)
    · exact absurd (hd.symm.trans hd') (by simp)
  | some d =>
    simp only [hd] at hs
    obtain ⟨rfl, -⟩ := Prod.mk.inj (Option.some.inj hs)
    have hw := hI.waited fd d hd
    have hwaited : Waited { d with events := evnets }.waitAsync
        { s.2 fd with requested := evnets, started := true } := by
      refine hw.waitAsync rfl rfl rfl rfl fun w hw => Or.inr ?_
      cases w with
      | error => rfl
      | read | write => exact hw.resolve_left (by decide)
    -- starting waits collects nothing
    have hpending : Pending (s.1.set fd (some { d with events := evnets }.waitAsync)) fd
        { d with events := evnets }.waitAsync ↔ Pending s.1 fd d := by
      unfold Pending
      rw [StreamDesc.waitAsync_collectedEvents]
      exact Iff.rfl
    refine ⟨about_set rfl rfl rfl hwaited fun hr => ?_, fun hu d₀ hd₀ hp w hw hr => ?_,
      fun hn d' hd' _ hp => ?_⟩
    · obtain ⟨d₀, hd₀, hc, -⟩ := hI.running fd hr
      obtain rfl := Option.some.inj (hd.symm.trans hd₀)
      rw [StreamDesc.waitAsync_collectedEvents]
      exact ⟨hc, rfl⟩
    · obtain rfl := Option.some.inj (hd.symm.trans hd₀)
      have hnew := hu { d with events := evnets }.waitAsync (s.1.set_self fd _)
      simp only [askedAfter, Function.update_self] at hnew
      exact (hnew trivial (mt hpending.mp hp)).2 w hw hr
    · obtain rfl := Option.some.inj ((s.1.set_self fd _).symm.trans hd')
      have hp₀ : ¬ Pending s.1 fd d := mt hpending.mpr hp
      simp only [askedAfter, Function.update_self]
      exact ⟨hI.error_unspent hd hp₀, hn d hd hp₀⟩

theorem complete (hI : Armed s) {fd : Int} {w : Wait}
    (hs : (adapter κ).step s.1 (.complete fd w) = some (a', o)) :
    Settles s (.complete fd w) (a', askedAfter s.1 (.complete fd w) o s.2) o fd := by
  simp only [adapter] at hs
  cases hd : s.1.map fd with
  | none =>
    simp only [hd] at hs
    cases hs
  | some d =>
    simp only [hd] at hs
    split at hs
    · rename_i hguard
      obtain ⟨rfl, -⟩ := Prod.mk.inj (Option.some.inj hs)
      refine ⟨about_set rfl rfl rfl ((hI.waited fd d hd).complete hguard.2) fun hr => ?_,
        fun _ => trivial, fun _ d' hd' _ hp => ?_⟩
      · rw [hguard.1] at hr
        cases hr
      · -- the event is collected and pending
        obtain rfl := Option.some.inj ((s.1.set_self fd _).symm.trans hd')
        exact absurd (Or.inl (complete_collectedEvents d w)) hp
    · cases hs

theorem collect (hI : Armed s) {fd : Int} {polled : Option Mask}
    (hs : (adapter κ).step s.1 (.collect fd polled) = some (a', o)) :
    Settles s (.collect fd polled) (a', askedAfter s.1 (.collect fd polled) o s.2) o fd := by
  simp only [adapter] at hs
  cases hd : s.1.map fd with
  | none =>
    simp only [hd] at hs
    cases hs
  | some d =>
    simp only [hd] at hs
    split at hs
    · rename_i hguard
      obtain ⟨rfl, -⟩ := Prod.mk.inj (Option.some.inj hs)
      have hw := hI.waited fd d hd
      refine ⟨⟨fun fd' hne => s.1.set_of_ne hne _, fun _ _ => rfl, fun fd' hne => ?_,
        fun d' hd' => ?_, fun _ => ⟨_, s.1.set_self fd _, rfl, ?_⟩⟩, fun _ => trivial,
        fun _ d' _ _ hp => absurd (Or.inr rfl) hp⟩
      · rw [hguard.1]
        exact iff_of_false (fun h => hne (Delivery.of.inj h).symm) Delivery.noConfusion
      · obtain rfl := Option.some.inj ((s.1.set_self fd _).symm.trans hd')
        exact hw.collect polled
      · -- nothing is posted before the waits are started
        by_contra hst
        have h0 := (hw.unstarted (Bool.eq_false_iff.mpr hst)).2
        have := hguard.2
        omega
    · cases hs

theorem del (hI : Armed s) {fd : Int} (hs : (adapter κ).step s.1 (.del fd) = some (a', o)) :
    Settles s (.del fd) (a', askedAfter s.1 (.del fd) o s.2) o fd := by
  simp only [adapter, Adapter.del] at hs
  cases hd : s.1.map fd with
  | none =>
    simp only [hd] at hs
    obtain ⟨rfl, -⟩ := Prod.mk.inj (Option.some.inj hs)
    exact hI.settles_self fd trivial
  | some d =>
    simp only [hd] at hs
    obtain ⟨rfl, -⟩ := Prod.mk.inj (Option.some.inj hs)
    refine ⟨⟨fun fd' hne => s.1.set_of_ne hne _, fun _ _ => rfl, fun fd' hne => ?_,
      fun d' hd' => ?_, fun hr => ?_⟩, fun _ => trivial, fun _ d' hd' => ?_⟩
    · dsimp only
      split
      · rename_i hr
        rw [hr]
        exact iff_of_false Delivery.noConfusion fun h => hne (Delivery.of.inj h).symm
      · exact Iff.rfl
    · exact absurd ((s.1.set_self fd _).symm.trans hd') (by simp)
    · dsimp only at hr
      split at hr
      · cases hr
      · contradiction
    · exact absurd ((s.1.set_self fd _).symm.trans hd') (by simp)

theorem rearm (hI : Armed s) (hs : (adapter κ).step s.1 .rearm = some (a', o)) :
    ∃ fd, Settles s .rearm (a', askedAfter s.1 .rearm o s.2) o fd := by
  simp only [adapter] at hs
  split at hs
  · cases hs
  rename_i hrun
  obtain ⟨rfl, -⟩ := Prod.mk.inj (Option.some.inj hs)
  unfold Adapter.rearm
  cases hr : s.1.running with
  | none => exact absurd hr hrun
  | ofDeleted =>
    -- no descriptor has an event handler running, before and after
    refine ⟨0, ⟨fun _ _ => rfl, fun _ _ => rfl, fun fd' _ => ?_, hI.waited 0, fun h => ?_⟩,
      fun _ fd' hr' => ?_, fun _ d hd hst hp => hI.unspent hd hst fun hp' => hp ?_⟩
    · rw [hr]
      exact iff_of_false Delivery.noConfusion Delivery.noConfusion
    · cases h
    · rw [hr] at hr'
      cases hr'
    · rcases hp' with hc | hr'
      · exact Or.inl hc
      · rw [hr] at hr'
        cases hr'
  | of fd =>
    obtain ⟨d, hd, hc, hst⟩ := hI.running fd hr
    simp only [hd]
    have hw := hI.waited fd d hd
    have hwaited : Waited d.waitAsync (s.2 fd) :=
      hw.waitAsync rfl rfl rfl hst fun w hwant => Or.inl (hw.wanted hst w hwant)
    refine ⟨fd, ⟨fun fd' hne => s.1.set_of_ne hne _, fun _ _ => rfl, fun fd' hne => ?_,
      fun d' hd' => ?_, fun h => ?_⟩, fun hu fd' hr' => ?_, fun hn _ _ _ _ => hn fd hr⟩
    · rw [hr]
      exact iff_of_false Delivery.noConfusion fun h => hne (Delivery.of.inj h).symm
    · obtain rfl := Option.some.inj ((s.1.set_self fd _).symm.trans hd')
      exact hwaited
    · cases h
    · rw [hr] at hr'
      cases hr'
      refine hu _ (s.1.set_self fd _) hst fun hp => ?_
      rcases hp with hc' | hr'
      · exact hc' ((StreamDesc.waitAsync_collectedEvents d).trans hc)
      · cases hr'

/-- **One step**: the law holds after it exactly when it needs no wait a second time. -/
theorem step (hI : Armed s) {l : AdapterLabel κ} {s' : AskedState κ}
    (hs : (askedAdapter κ).step s l = some (s', o)) :
    (KeepsArmed s l s' o ↔ NotSpent s l s' o) ∧ (NotSpent s l s' o → Armed s') := by
  obtain ⟨a', asked'⟩ := s'
  obtain ⟨hstep, hasked⟩ := Machine.withHistory_step_iff.mp hs
  dsimp only at hstep hasked
  subst hasked
  have hsettles : ∃ fd, Settles s l (a', askedAfter s.1 l o s.2) o fd := by
    cases l with
    | add fd _ _ _ => exact ⟨fd, hI.add hstep⟩
    | modify fd _ => exact ⟨fd, hI.modify hstep⟩
    | del fd => exact ⟨fd, hI.del hstep⟩
    | complete fd _ => exact ⟨fd, hI.complete hstep⟩
    | collect fd _ => exact ⟨fd, hI.collect hstep⟩
    | rearm => exact hI.rearm hstep
  obtain ⟨fd, habout, hsettle⟩ := hsettles
  have hiff := (habout.keepsArmed_iff hI (l := l) (o := o)).trans hsettle
  exact ⟨hiff, fun hn => habout.armed hI (hiff.mpr hn)⟩

end Armed

theorem armed_start : Armed (AskedState.start κ) where
  waited _ _ hd := by cases hd
  running _ hr := by cases hr
  law _ _ hd := by cases hd

/-- **Interest is kept armed exactly while no wait is needed twice.** For every run of additions,
    modifications, deletions, completions and deliveries: after each step every registered
    descriptor with nothing pending has its waits outstanding, if and only if no step needs a wait
    that completed before. -/
theorem keepsArmed_iff_unspent (ls : List (AdapterLabel κ)) :
    (askedAdapter κ).Along KeepsArmed (AskedState.start κ) ls ↔
      (askedAdapter κ).Along NotSpent (AskedState.start κ) ls :=
  Machine.along_iff (I := Armed) (fun _ _ _ _ hI hs => hI.step hs) armed_start

/-- Input is asked for on descriptor 5 and arrives; the handler reads it and asks for input
    again, from within the call. -/
def firstEventRun : List (AdapterLabel Unit) :=
  [.add 5 ComAPIEventLoop.EVENT_IN () false, .modify 5 ComAPIEventLoop.EVENT_IN,
   .complete 5 .read, .collect 5 none, .modify 5 ComAPIEventLoop.EVENT_IN, .rearm]

/-- **Silent after the first event**: in `firstEventRun` the handler gets the first input, and
    afterwards nothing waits for the next. -/
theorem silent_after_the_first_event :
    ((adapter Unit).run (start Unit) firstEventRun).map (fun p =>
        ((p.1.map 5).map fun d => (d.outstanding .read, d.events, d.collectedEvents))) =
      some (some (0, ComAPIEventLoop.EVENT_IN, 0)) ∧
      ¬ (askedAdapter Unit).Along KeepsArmed (AskedState.start Unit) firstEventRun := by
  refine ⟨by decide, fun h => ?_⟩
  iterate 5 replace h := (h _ _ rfl).2
  have hlaw := (h _ _ rfl).1 5 _ rfl
  exact absurd (hlaw.requested rfl (by simp [Pending]; decide) .read (by decide) (by decide))
    (by decide)

end IOContextAdapter

end PluginsEngine
