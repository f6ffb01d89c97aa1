/-
  File:      PluginsEngine/Adapter/Delivery.lean
  Subject:   FROM A COMPLETION TO THE EVENT HANDLER (handleAndWait, handleCollectEvents).

  Completions are gathered in `collectedEvents`, and one queued `handleCollectEvents` passes all of
  them on. Whether one is queued is kept in `eventHandlerPosted`, which the constructor of a
  `StreamDesc` does not set.

  * `delivery` -- one descriptor that stays registered, with the completions that no call of the
    event handler has passed on yet as a history variable;
  * `Delivers` -- the law: those completions are in `collectedEvents` with one call queued for all
    of them, and a call passes on exactly these;
  * `Gathered` -- the invariant of a descriptor whose flag began as false; `Stuck` -- of one whose
    flag began as true, until a wait completes;
  * `posted_of_run` -- what that means for the descriptor, without the history;
  * `delivers_iff` -- the law holds exactly if the flag began as false or no wait ever completes.
-/
import PluginsEngine.Adapter.IOContextAdapter

namespace PluginsEngine

open Library

namespace IOContextAdapter

open ComAPIEventLoop

variable {κ : Type}

/-! ## 1. One descriptor and its history -/

/-- What happens to a descriptor that stays registered. The event handler runs behind `collect`;
    what it calls, what completes meanwhile and the `waitAsync` behind it are steps of their own. -/
inductive DeliveryLabel where
  | modify (evnets : Mask)
  | waitAsync
  | complete (w : Wait)
  | collect (polled : Option Mask)
  deriving DecidableEq

/-- A completion needs an outstanding wait and a collection a queued call. A collection shows the
    events that are passed to the event handler. -/
def descriptor (κ : Type) : Machine (StreamDesc κ) DeliveryLabel (Option Mask) where
  step d
    | .modify evnets => some ({ d with events := evnets }.waitAsync, none)
    | .waitAsync => some (d.waitAsync, none)
    | .complete w => if 0 < d.outstanding w then some (d.complete w, none) else none
    | .collect polled =>
      if 0 < d.posted then some ((d.collect polled).1, some (d.collect polled).2) else none

/-- The completions that were not passed on: a completion is added at the end, and a call of the
    event handler is answerable for all there are. -/
def undeliveredAfter (_ : StreamDesc κ) (l : DeliveryLabel) (_ : Option Mask)
    (undelivered : List Wait) : List Wait :=
  match l with
  | .modify _ | .waitAsync => undelivered
  | .complete w => undelivered ++ [w]
  | .collect _ => []

abbrev DeliveryState (κ : Type) := StreamDesc κ × List Wait

def delivery (κ : Type) : Machine (DeliveryState κ) DeliveryLabel (Option Mask) :=
  (descriptor κ).withHistory undeliveredAfter

/-! ## 2. The law -/

/-- The events of some completions, in one mask. -/
def eventsOf (ws : List Wait) : Mask := ws.foldl (fun m w => m ||| w.event) 0

/-- What the event handler is to be told of some completions: their events, and in place of an
    error what poll reports. -/
def reportOf (ws : List Wait) (polled : Option Mask) : Mask :=
  eventsOf (ws.filter (· ≠ .error)) ||| if .error ∈ ws then polled.getD 0 else 0

/-- **Each completion is delivered once.** Those that were not passed on are in `collectedEvents`,
    with one call of `handleCollectEvents` queued if there are any, none otherwise; and a call
    passes on exactly those there are. -/
structure Delivers (s : DeliveryState κ) (l : DeliveryLabel) (s' : DeliveryState κ)
    (o : Option Mask) : Prop where
  collected : s'.1.collectedEvents = eventsOf s'.2
  queued : s'.1.posted = if s'.2 = [] then 0 else 1
  passed : ∀ polled, l = .collect polled → s.2 ≠ [] ∧ o = some (reportOf s.2 polled)

/-- No wait completes in this step. -/
def NoCompletion (_ : DeliveryState κ) (l : DeliveryLabel) (_ : DeliveryState κ)
    (_ : Option Mask) : Prop :=
  ∀ w, l ≠ .complete w

/-! ## 3. Masks of completions -/

theorem eventsOf_concat (ws : List Wait) (w : Wait) :
    eventsOf (ws ++ [w]) = eventsOf ws ||| w.event := by
  rw [eventsOf, List.foldl_append, List.foldl_cons, List.foldl_nil]
  rfl

theorem has_eventsOf (ws : List Wait) (w : Wait) :
    (eventsOf ws).has w.event = decide (w ∈ ws) := by
  induction ws using List.reverseRecOn with
  | nil => exact has_zero _
  | append_singleton ws w' ih =>
    rw [eventsOf_concat, has_or_event, ih]
    simp only [List.mem_append, List.mem_singleton, Bool.decide_or, eq_comm]

theorem eventsOf_eq_zero_iff {ws : List Wait} : eventsOf ws = 0 ↔ ws = [] := by
  constructor
  · intro hzero
    refine List.eq_nil_iff_forall_not_mem.mpr fun w hw => ?_
    have hhas := has_eventsOf ws w
    rw [hzero, has_zero, decide_eq_true hw] at hhas
    cases hhas
  · intro hnil
    rw [hnil]
    rfl

theorem or_and_right (a b m : Mask) : (a ||| b) &&& m = (a &&& m) ||| (b &&& m) := by
  rw [← UInt32.toBitVec_inj, UInt32.toBitVec_and, UInt32.toBitVec_or, UInt32.toBitVec_or,
    UInt32.toBitVec_and, UInt32.toBitVec_and]
  ext i hi
  simp only [BitVec.getElem_and, BitVec.getElem_or, Bool.and_or_distrib_right]

/-- Without the error event: the events of the other completions. -/
theorem eventsOf_and_not_error (ws : List Wait) :
    eventsOf ws &&& ~~~ERROR_EVENT = eventsOf (ws.filter (· ≠ .error)) := by
  induction ws using List.reverseRecOn with
  | nil => exact UInt32.zero_and
  | append_singleton ws w ih =>
    rw [eventsOf_concat, or_and_right, ih, List.filter_append]
    cases w with
    | error =>
      have hgone : Wait.error.event &&& ~~~ERROR_EVENT = 0 := by decide
      rw [hgone, UInt32.or_zero]
      exact congrArg eventsOf (List.append_nil _).symm
    | read =>
      have hstays : Wait.read.event &&& ~~~ERROR_EVENT = Wait.read.event := by decide
      rw [hstays]
      exact (eventsOf_concat _ _).symm
    | write =>
      have hstays : Wait.write.event &&& ~~~ERROR_EVENT = Wait.write.event := by decide
      rw [hstays]
      exact (eventsOf_concat _ _).symm

/-- What `handleCollectEvents` passes on of gathered completions. -/
theorem collect_snd {d : StreamDesc κ} {ws : List Wait} (h : d.collectedEvents = eventsOf ws)
    (polled : Option Mask) : (d.collect polled).2 = reportOf ws polled := by
  have herror : (eventsOf ws).has ERROR_EVENT = decide (.error ∈ ws) := has_eventsOf ws .error
  unfold StreamDesc.collect reportOf
  dsimp only
  rw [h, herror, eventsOf_and_not_error]
  by_cases hmem : Wait.error ∈ ws
  · rw [decide_eq_true hmem, if_pos rfl, if_pos hmem]
  · rw [decide_eq_false hmem, if_neg Bool.false_ne_true, if_neg hmem, UInt32.or_zero]

/-! ## 4. The invariants -/

/-- **The flag tells whether there is something to deliver.** -/
structure Gathered (s : DeliveryState κ) : Prop where
  collected : s.1.collectedEvents = eventsOf s.2
  flag : s.1.eventHandlerPosted = decide (s.2 ≠ [])
  queued : s.1.posted = if s.2 = [] then 0 else 1

/-- **Nothing was ever collected, but the flag is set**: so nothing will be queued. -/
structure Stuck (s : DeliveryState κ) : Prop where
  collected : s.1.collectedEvents = 0
  flag : s.1.eventHandlerPosted = true
  queued : s.1.posted = 0
  none : s.2 = []

/-- `waitAsync` touches neither what was collected nor the flag nor the queue. -/
theorem Gathered.waitAsync {d : StreamDesc κ} {ws : List Wait} (h : Gathered (d, ws))
    (d' : StreamDesc κ) (hc : d'.collectedEvents = d.collectedEvents)
    (hf : d'.eventHandlerPosted = d.eventHandlerPosted) (hp : d'.posted = d.posted) :
    Gathered (d'.waitAsync, ws) where
  collected := by rw [d'.waitAsync_collectedEvents, hc, h.collected]
  flag := by rw [d'.waitAsync_eventHandlerPosted, hf, h.flag]
  queued := by rw [d'.waitAsync_posted, hp, h.queued]

theorem Stuck.waitAsync {d : StreamDesc κ} {ws : List Wait} (h : Stuck (d, ws)) (d' : StreamDesc κ)
    (hc : d'.collectedEvents = d.collectedEvents)
    (hf : d'.eventHandlerPosted = d.eventHandlerPosted) (hp : d'.posted = d.posted) :
    Stuck (d'.waitAsync, ws) where
  collected := by rw [d'.waitAsync_collectedEvents, hc, h.collected]
  flag := by rw [d'.waitAsync_eventHandlerPosted, hf, h.flag]
  queued := by rw [d'.waitAsync_posted, hp, h.queued]
  none := h.none

/-- A completion: the first one since a call queues the next call, the others find the flag. -/
theorem Gathered.complete {d : StreamDesc κ} {ws : List Wait} (h : Gathered (d, ws)) (w : Wait) :
    Gathered (d.complete w, ws ++ [w]) := by
  have hne : ws ++ [w] ≠ [] := List.append_ne_nil_of_right_ne_nil _ (List.cons_ne_nil _ _)
  rw [d.complete_eq]
  refine ⟨?_, ?_, ?_⟩
  · rw [eventsOf_concat, ← h.collected]
  · rw [decide_eq_true hne]
  · have hf : d.eventHandlerPosted = decide (ws ≠ []) := h.flag
    have hq : d.posted = if ws = [] then 0 else 1 := h.queued
    dsimp only
    rw [hf, hq, if_neg hne]
    by_cases hws : ws = [] <;> simp [hws]

/-- A call of the event handler leaves nothing collected and the flag cleared. -/
theorem Gathered.collect {d : StreamDesc κ} {ws : List Wait} (h : Gathered (d, ws))
    (polled : Option Mask) : Gathered ((d.collect polled).1, []) where
  collected := rfl
  flag := rfl
  queued := by
    have hq : d.posted = if ws = [] then 0 else 1 := h.queued
    show d.posted - 1 = 0
    rw [hq]
    split <;> rfl

theorem Gathered.ne_nil {d : StreamDesc κ} {ws : List Wait} (h : Gathered (d, ws))
    (hpos : 0 < d.posted) : ws ≠ [] := by
  intro hnil
  have hq : d.posted = if ws = [] then 0 else 1 := h.queued
  rw [if_pos hnil] at hq
  omega

/-- Where the flag is right afterwards, a step that is no call of the event handler obeyed the
    law. -/
theorem Gathered.delivers {s s' : DeliveryState κ} {l : DeliveryLabel} {o : Option Mask}
    (h : Gathered s') (hl : ∀ polled, l ≠ .collect polled) : Delivers s l s' o where
  collected := h.collected
  queued := h.queued
  passed polled heq := absurd heq (hl polled)

/-- Every step of a descriptor whose flag is right keeps it right and obeys the law. -/
theorem gathered_step {s s' : DeliveryState κ} {l : DeliveryLabel} {o : Option Mask}
    (h : Gathered s) (hs : (delivery κ).step s l = some (s', o)) :
    Gathered s' ∧ Delivers s l s' o := by
  obtain ⟨d, ws⟩ := s
  obtain ⟨d', ws'⟩ := s'
  obtain ⟨hstep, hws⟩ := Machine.withHistory_step_iff.mp hs
  dsimp only at hstep hws
  cases l with
  | modify evnets =>
    cases hstep
    subst hws
    have hkept := h.waitAsync { d with events := evnets } rfl rfl rfl
    exact ⟨hkept, hkept.delivers fun _ heq => by cases heq⟩
  | waitAsync =>
    cases hstep
    subst hws
    have hkept := h.waitAsync d rfl rfl rfl
    exact ⟨hkept, hkept.delivers fun _ heq => by cases heq⟩
  | complete w =>
    simp only [descriptor] at hstep
    split at hstep
    · cases hstep
      subst hws
      have hkept := h.complete w
      exact ⟨hkept, hkept.delivers fun _ heq => by cases heq⟩
    · cases hstep
  | collect polled =>
    simp only [descriptor] at hstep
    split at hstep
    · rename_i hpos
      cases hstep
      subst hws
      have hkept := h.collect polled
      refine ⟨hkept, hkept.collected, hkept.queued, fun polled' heq => ?_⟩
      cases heq
      exact ⟨h.ne_nil hpos, congrArg some (collect_snd h.collected polled)⟩
    · cases hstep

/-- **Without the history**: of a descriptor whose flag began as false, exactly one call is queued
    while something is collected, and none otherwise. -/
theorem posted_of_run {events : Mask} {handler : κ} {ls : List DeliveryLabel} {d : StreamDesc κ}
    {os : List (Option Mask)}
    (h : (descriptor κ).run (.new events handler false) ls = some (d, os)) :
    d.posted = if d.collectedEvents = 0 then 0 else 1 := by
  obtain ⟨ws, hrun⟩ : ∃ ws, (delivery κ).run (.new events handler false, []) ls =
      some ((d, ws), os) := Machine.withHistory_run_iff.mpr h
  have hgathered : Gathered (d, ws) :=
    Machine.run_invariant (I := Gathered) (fun _ _ _ _ hI hs => (gathered_step hI hs).1)
      ⟨rfl, rfl, rfl⟩ hrun
  have hcollected : d.collectedEvents = eventsOf ws := hgathered.collected
  have hqueued : d.posted = if ws = [] then 0 else 1 := hgathered.queued
  rw [hqueued, hcollected]
  exact if_congr eventsOf_eq_zero_iff.symm rfl rfl

/-- With nothing ever collected there is nothing to deliver. -/
theorem Stuck.delivers {s s' : DeliveryState κ} {l : DeliveryLabel} {o : Option Mask}
    (h : Stuck s') (hl : ∀ polled, l ≠ .collect polled) : Delivers s l s' o where
  collected := by
    rw [h.none, h.collected]
    rfl
  queued := by
    rw [h.none, h.queued]
    rfl
  passed polled heq := absurd heq (hl polled)

/-- Of a descriptor whose flag was set from the beginning a step obeys the law exactly if no wait
    completes in it. -/
theorem stuck_step {s s' : DeliveryState κ} {l : DeliveryLabel} {o : Option Mask}
    (h : Stuck s) (hs : (delivery κ).step s l = some (s', o)) :
    (Delivers s l s' o ↔ NoCompletion s l s' o) ∧ (NoCompletion s l s' o → Stuck s') := by
  obtain ⟨d, ws⟩ := s
  obtain ⟨d', ws'⟩ := s'
  obtain ⟨hstep, hws⟩ := Machine.withHistory_step_iff.mp hs
  dsimp only at hstep hws
  have hnil : ws = [] := h.none
  cases l with
  | modify evnets =>
    cases hstep
    subst hws
    have hkept := h.waitAsync { d with events := evnets } rfl rfl rfl
    refine ⟨⟨fun _ w heq => ?_, fun _ => hkept.delivers fun polled heq => ?_⟩, fun _ => hkept⟩
    · cases heq
    · cases heq
  | waitAsync =>
    cases hstep
    subst hws
    have hkept := h.waitAsync d rfl rfl rfl
    refine ⟨⟨fun _ w heq => ?_, fun _ => hkept.delivers fun polled heq => ?_⟩, fun _ => hkept⟩
    · cases heq
    · cases heq
  | complete w =>
    have hnot : ¬ NoCompletion (d, ws) (.complete w) (d', ws') o := fun hno => hno w rfl
    refine ⟨⟨fun hlaw => ?_, fun hno => absurd hno hnot⟩, fun hno => absurd hno hnot⟩
    simp only [descriptor] at hstep
    split at hstep
    · cases hstep
      subst hws
      -- the event is collected, but the flag keeps the call from being queued
      have hqueued := hlaw.queued
      have hflag : d.eventHandlerPosted = true := h.flag
      have hzero : d.posted = 0 := h.queued
      rw [d.complete_eq] at hqueued
      dsimp only at hqueued
      rw [hflag, if_pos rfl, hzero, hnil] at hqueued
      cases hqueued
    · cases hstep
  | collect polled =>
    have hzero : d.posted = 0 := h.queued
    simp only [descriptor] at hstep
    rw [hzero, if_neg (Nat.lt_irrefl 0)] at hstep
    cases hstep

/-! ## 5. Every run -/

/-- **Each completion is delivered exactly once, if the memory of the flag held false, or while no
    wait completes.** For every mask and handler, whatever the flag began as, and every run. -/
theorem delivers_iff (events : Mask) (handler : κ) (memory : Bool) (ls : List DeliveryLabel) :
    (delivery κ).Along Delivers (.new events handler memory, []) ls ↔
      memory = false ∨
        (delivery κ).Along NoCompletion (.new events handler memory, []) ls := by
  cases memory with
  | false =>
    refine ⟨fun _ => Or.inl rfl, fun _ => ?_⟩
    exact Machine.along_of_invariant (I := Gathered) (fun _ _ _ _ hI hs => gathered_step hI hs)
      ⟨rfl, rfl, rfl⟩
  | true =>
    rw [or_iff_right (Bool.noConfusion : true ≠ false)]
    exact Machine.along_iff (I := Stuck) (fun _ _ _ _ hI hs => stuck_step hI hs)
      ⟨rfl, rfl, rfl, rfl⟩

/-- A flag that began as true: input is awaited and comes, and no call is queued. -/
theorem first_completion_is_not_posted :
    ((delivery Nat).run (.new EVENT_IN 7 true, []) [.waitAsync, .complete .read]).map
        (fun p => (p.1.1.collectedEvents, p.1.1.posted)) = some (EVENT_IN, 0) ∧
    ¬ ∀ (memory : Bool) (ls : List DeliveryLabel),
      (delivery Nat).Along Delivers (.new EVENT_IN 7 memory, []) ls := by
  refine ⟨by decide, fun h => ?_⟩
  have hcomplete := ((h true [.waitAsync, .complete .read] _ _ rfl).2 _ _ rfl).1
  exact absurd hcomplete.queued (by decide)

end IOContextAdapter

end PluginsEngine
