/-
  File:      PluginsEngine/Engine/Reports.lean
  Subject:   WHICH REPORTS THE OWNER OF A DESCRIPTOR HEARS OF.

  A level-triggered epoll reports what it was asked for, and EPOLLERR and EPOLLHUP besides, again
  and again until somebody deals with it. `Event::handle` runs the callback slot of the condition,
  and `addFd` fills the one slot of its flag.

  * `Kept` -- the registry keeps the Event that `addFd` built, and the kernel watches for its
    flags or for nothing;
  * `tellsOwner_iff_answered` -- along a run every report that can come for a descriptor added with
    one flag runs its handler, exactly when each such report is without an error for EVENT_IN,
    without an error and with output for EVENT_OUT, and with an error for EVENT_ERR;
  * `hangup_without_a_listener` -- a hang-up of a descriptor monitored for output.
-/
import PluginsEngine.Engine.FdMonitor

namespace PluginsEngine

open Library Engine FdMonitor

variable {κ : Type}

/-! ## 1. The law and the condition -/

/-- What epoll may report of a descriptor it watches for `mask`: something, and nothing but these
    flags, EPOLLERR and EPOLLHUP. -/
def Reportable (mask events : Mask) : Prop :=
  events ≠ 0 ∧ events &&& ~~~(mask ||| (EPOLLERR ||| EPOLLHUP)) = 0

/-- The report `c` is one that can come for the request `r`, of a single flag. -/
def Reports (s : Monitor κ) (c : MonitorCall κ) (r : Request κ) (events : Mask) : Prop :=
  ∃ fd mask, c = .report fd events ∧ s.asked fd = some r ∧ r.added ∈ monitored ∧
    s.world.kernel.interest.lookup fd = some mask ∧ Reportable mask events

/-- **No condition is dropped**: every report that can come runs the handler. -/
def TellsOwner (s : Monitor κ) (c : MonitorCall κ) (_ : Monitor κ) (ran : List κ) : Prop :=
  ∀ r events, Reports s c r events → r.handler ∈ ran

/-- **What is answered**, of the reports for a single flag. -/
structure Answers (added events : Mask) : Prop where
  input : added = EVENT_IN → ¬ events.has EPOLLERR
  output : added = EVENT_OUT → ¬ events.has EPOLLERR ∧ events.has EPOLLOUT
  error : added = EVENT_ERR → events.has EPOLLERR

def Answered (s : Monitor κ) (c : MonitorCall κ) (_ : Monitor κ) (_ : List κ) : Prop :=
  ∀ r events, Reports s c r events → Answers r.added events

/-! ## 2. Masks -/

theorem and_or_mask (m a b : Mask) : m &&& (a ||| b) = (m &&& a) ||| (m &&& b) := by
  rw [← UInt32.toBitVec_inj]
  simp only [UInt32.toBitVec_and, UInt32.toBitVec_or]
  exact BitVec.and_or_distrib_left

theorem Mask.has_or (m a b : Mask) : m.has (a ||| b) = (m.has a || m.has b) := by
  rw [Bool.eq_iff_iff, Bool.or_eq_true]
  simp only [Mask.has, and_or_mask, bne_iff_ne, ne_eq, UInt32.or_eq_zero_iff]
  exact Classical.not_and_iff_not_or_not

/-- A report tells of a flag asked for, an error or a hang-up. -/
theorem Reportable.has {mask events : Mask} (h : Reportable mask events) :
    events.has mask ∨ events.has EPOLLERR ∨ events.has EPOLLHUP := by
  have hall : events.has (mask ||| (EPOLLERR ||| EPOLLHUP)) := by
    refine bne_iff_ne.mpr fun h0 => h.1 ?_
    calc events = events &&& ((mask ||| (EPOLLERR ||| EPOLLHUP)) |||
          ~~~(mask ||| (EPOLLERR ||| EPOLLHUP))) := by
            rw [UInt32.or_not_self, UInt32.and_neg_one]
      _ = 0 := by rw [and_or_mask, h0, h.2, UInt32.zero_or]
  rw [Mask.has_or, Mask.has_or, Bool.or_eq_true, Bool.or_eq_true] at hall
  exact hall

/-- A report to a descriptor monitored for input, without an error, is one that is read. -/
theorem Reportable.reads {mask events : Mask} (h : Reportable mask events)
    (hmask : mask = monitorFlags EVENT_IN ∨ mask = 0) (herr : ¬ events.has EPOLLERR) :
    (events.has EPOLLHUP ∧ ¬ events.has EPOLLIN) ∨
      events.has (EPOLLIN ||| EPOLLPRI ||| EPOLLRDHUP) := by
  rw [Mask.has_or, Mask.has_or, Bool.or_eq_true, Bool.or_eq_true]
  rcases h.has with hm | he | hhup
  · -- one of the flags asked for
    rcases hmask with rfl | rfl
    · have hflags : events.has (EPOLLIN ||| EPOLLPRI) := hm
      rw [Mask.has_or, Bool.or_eq_true] at hflags
      exact Or.inr (Or.inl hflags)
    · exact absurd hm (by simp [Mask.has])
  · exact absurd he herr
  · -- a hang-up, with or without input
    by_cases hin : events.has EPOLLIN
    · exact Or.inr (Or.inl (Or.inl hin))
    · exact Or.inl ⟨hhup, hin⟩

/-- **When a report runs the handler** of a descriptor added with one flag. -/
theorem mem_handle_iff_answers {fd : Int} {added events mask : Mask} {handler : κ}
    (ha : added ∈ monitored) (hmask : mask = monitorFlags added ∨ mask = 0)
    (hrep : Reportable mask events) :
    handler ∈ (monitorEvent fd added handler).handle events ↔ Answers added events := by
  have hio : EVENT_IN ≠ EVENT_OUT := by decide
  have hie : EVENT_IN ≠ EVENT_ERR := by decide
  have hoe : EVENT_OUT ≠ EVENT_ERR := by decide
  simp only [monitored, List.mem_cons, List.not_mem_nil, or_false] at ha
  by_cases herr : events.has EPOLLERR
  · -- an error report runs the error slot alone
    have hran : (monitorEvent fd added handler).handle events =
        (if added = EVENT_ERR then some handler else none).toList :=
      Event.handle_of_error herr
    rw [hran]
    by_cases he : added = EVENT_ERR
    · subst he
      rw [if_pos rfl]
      exact iff_of_true (List.mem_singleton_self _)
        ⟨fun h => absurd h.symm hie, fun h => absurd h.symm hoe, fun _ => herr⟩
    · rw [if_neg he]
      refine iff_of_false List.not_mem_nil fun h => ?_
      rcases ha with hi | ho | he'
      · exact h.input hi herr
      · exact (h.output ho).1 herr
      · exact he he'
  · rw [Event.mem_handle_iff herr]
    rcases ha with rfl | rfl | rfl
    · -- input: what is left is one of the flags asked for, or a hang-up
      exact iff_of_true (Or.inl ⟨rfl, hrep.reads hmask herr⟩)
        ⟨fun _ => herr, fun h => absurd h hio, fun h => absurd h hie⟩
    · -- output: the write slot alone is filled
      constructor
      · intro h
        rcases h with ⟨h, -⟩ | ⟨-, hout⟩
        · cases h
        · exact ⟨fun h => absurd h.symm hio, fun _ => ⟨herr, hout⟩, fun h => absurd h hoe⟩
      · intro h
        exact Or.inr ⟨rfl, (h.output rfl).2⟩
    · -- errors: the error slot alone is filled
      refine iff_of_false (fun h => ?_) fun h => herr (h.error rfl)
      rcases h with ⟨h, -⟩ | ⟨h, -⟩
      · cases h
      · cases h

/-! ## 3. The Events of the monitored descriptors -/

/-- The registry keeps the Event that `addFd` built for the request `r`; the kernel, if it watches
    the descriptor at all, watches it for the flags of that Event or for nothing. -/
structure KeptAt (w : World κ) (fd : Int) (r : Request κ) : Prop where
  event : ∃ e, w.eventPool.lookup fd = some (some e) ∧ e < w.next ∧
    w.object e = monitorEvent fd r.added r.handler
  interest : ∀ mask, w.kernel.interest.lookup fd = some mask →
    mask = monitorFlags r.added ∨ mask = 0

def Kept (s : Monitor κ) : Prop := ∀ fd r, s.asked fd = some r → KeptAt s.world fd r

namespace Kept

variable {s s' : Monitor κ} {fd : Int}

theorem frame (h : Kept s) (hasked : ∀ fd' ≠ fd, s'.asked fd' = s.asked fd')
    (honly : OnlyAt s.world s'.world fd)
    (hself : ∀ r, s'.asked fd = some r → KeptAt s'.world fd r) : Kept s' := by
  intro fd' r hr
  by_cases hfd : fd' = fd
  · subst hfd
    exact hself r hr
  rw [hasked fd' hfd] at hr
  obtain ⟨e, hl, hlt, ho⟩ := (h fd' r hr).event
  refine ⟨⟨e, (honly.eventPool fd' hfd).trans hl, Nat.lt_of_lt_of_le hlt honly.next,
    (honly.object e hlt).trans ho⟩, fun mask hm => ?_⟩
  rw [honly.interest fd' hfd] at hm
  exact (h fd' r hr).interest mask hm

theorem addFd (h : Kept s) {events : Mask} {handler : κ}
    (ha : (MonitorCall.addFd fd events handler).allowed s) :
    Kept (monitorStep s (.addFd fd events handler)).1 := by
  obtain ⟨-, ⟨-, hpool, hint⟩, -⟩ := ha
  have hreg := addFd_registers hpool events handler
  have hasked : (monitorStep s (.addFd fd events handler)).1.asked fd =
      some ⟨events, events, handler⟩ := Function.update_self _ _ _
  refine h.frame (fun fd' hne => Function.update_of_ne hne _ _) hreg.onlyAt (fun r hr => ?_)
  obtain rfl := Option.some.inj (hasked.symm.trans hr)
  refine ⟨⟨s.world.next, ?_, ?_, hreg.new⟩, fun mask hm => ?_⟩
  · show (Engine.addFd s.world fd events handler).eventPool.lookup fd = _
    rw [hreg.eventPool]
    exact Finmap.lookup_insert _
  · show s.world.next < (Engine.addFd s.world fd events handler).next
    rw [hreg.next]
    exact Nat.lt_succ_self _
  · change (Engine.addFd s.world fd events handler).kernel.interest.lookup fd = _ at hm
    rw [hreg.interest] at hm
    split at hm
    · change (s.world.kernel.interest.insert fd _).lookup fd = _ at hm
      rw [Finmap.lookup_insert] at hm
      exact Or.inl (Option.some.inj hm).symm
    · rw [Finmap.lookup_eq_none.mpr hint] at hm
      cases hm

theorem modifyFd (h : Kept s) {events : Mask}
    (ha : (MonitorCall.modifyFd fd events : MonitorCall κ).allowed s) :
    Kept (monitorStep s (.modifyFd fd events)).1 := by
  obtain ⟨r, hr⟩ := Option.ne_none_iff_exists'.mp ha.1
  obtain ⟨⟨e, hl, hlt, ho⟩, hint⟩ := h fd r hr
  have htold := modifyFd_told hl hlt (by rw [ho]; rfl) events
  have hasked : (monitorStep s (.modifyFd fd events)).1.asked fd =
      some { r with mask := events } := by
    show Function.update s.asked fd _ fd = _
    rw [Function.update_self, hr]
    rfl
  refine h.frame (fun fd' hne => Function.update_of_ne hne _ _) htold.onlyAt (fun r' hr' => ?_)
  obtain rfl := Option.some.inj (hasked.symm.trans hr')
  refine ⟨⟨e, ?_, Nat.lt_of_lt_of_le hlt htold.next, (htold.object e hlt).trans ho⟩,
    fun mask hm => ?_⟩
  · show (Engine.modifyFd s.world fd events).eventPool.lookup fd = _
    rw [htold.eventPool, hl]
  · change (Engine.modifyFd s.world fd events).kernel.interest.lookup fd = _ at hm
    rw [htold.kernel, s.world.kernel.mod_interest] at hm
    split at hm
    · rw [Finmap.lookup_insert, ho] at hm
      -- the flags of the Event in the registry, or those of the temporary one
      split at hm
      · exact Or.inl (Option.some.inj hm).symm
      · exact Or.inr (Option.some.inj hm).symm
    · exact hint mask hm

theorem removeFd (h : Kept s) (fd : Int) : Kept (monitorStep s (.removeFd fd)).1 := by
  refine h.frame (fun fd' hne => Function.update_of_ne hne _ _) (removeFd_onlyAt s.world fd)
    (fun r hr => ?_)
  have hnone : (monitorStep s (.removeFd fd)).1.asked fd = none := Function.update_self _ _ _
  rw [hnone] at hr
  cases hr

/-- A report is handed to the Event of the addition, and changes nothing. -/
theorem report_eq (h : Kept s) {r : Request κ} (hr : s.asked fd = some r) (events : Mask) :
    monitorStep s (.report fd events) =
      (s, (monitorEvent fd r.added r.handler).handle events) := by
  obtain ⟨e, hl, -, ho⟩ := (h fd r hr).event
  simp only [monitorStep, World.dispatch_of_registered s.world (r := ⟨fd, events⟩) hl, ho]

theorem step {c : MonitorCall κ} {ran : List κ} (h : Kept s)
    (hs : (monitor κ).step s c = some (s', ran)) : Kept s' := by
  simp only [monitor] at hs
  split at hs
  case isFalse => cases hs
  rename_i ha
  obtain ⟨rfl, rfl⟩ := Prod.ext_iff.mp (Option.some.inj hs).symm
  cases c with
  | addFd fd events handler => exact h.addFd ha
  | modifyFd fd events => exact h.modifyFd ha
  | removeFd fd => exact h.removeFd fd
  | report fd events =>
    obtain ⟨r, hr⟩ := Option.ne_none_iff_exists'.mp ha
    rw [h.report_eq hr]
    exact h
  | openFile fd kind => exact fun fd' r hr => ⟨(h fd' r hr).event, (h fd' r hr).interest⟩
  | closeFile fd =>
    have hsame : (monitorStep s (.closeFile fd)).1.world.kernel.interest =
        s.world.kernel.interest := erase_of_notMem ha.2.2
    refine fun fd' r hr => ⟨(h fd' r hr).event, fun mask hm => ?_⟩
    rw [hsame] at hm
    exact (h fd' r hr).interest mask hm

/-- **One step**: a report runs the handler exactly when it is one that is answered. -/
theorem tellsOwner_iff {c : MonitorCall κ} {ran : List κ} (h : Kept s)
    (hs : (monitor κ).step s c = some (s', ran)) :
    TellsOwner s c s' ran ↔ Answered s c s' ran := by
  refine forall_congr' fun r => forall_congr' fun events => forall_congr' fun hrep => ?_
  obtain ⟨fd, mask, rfl, hr, ha, hmask, hreportable⟩ := hrep
  simp only [monitor] at hs
  split at hs
  case isFalse => cases hs
  obtain ⟨-, rfl⟩ := Prod.ext_iff.mp (Option.some.inj hs).symm
  rw [h.report_eq hr]
  exact mem_handle_iff_answers ha ((h fd r hr).interest mask hmask) hreportable

end Kept

/-! ## 4. Runs -/

/-- **The owner hears of every condition exactly when each is answered.** For every loop and every
    run of calls from it: every report that can come for a descriptor added with a single flag
    runs its handler, if and only if each of these reports is one that `Answers` describes. -/
theorem tellsOwner_iff_answered (w : World κ) (calls : List (MonitorCall κ)) :
    (monitor κ).Along TellsOwner (.start w) calls ↔
      (monitor κ).Along Answered (.start w) calls :=
  Machine.along_iff (I := Kept)
    (fun _ _ _ _ h hs => ⟨h.tellsOwner_iff hs, fun _ => h.step hs⟩) (fun _ _ hr => nomatch hr)

/-- A descriptor is monitored for output, and the peer hangs up. -/
def hangupRun : List (MonitorCall Unit) :=
  [.openFile 4 .pollable, .addFd 4 EVENT_OUT (), .report 4 EPOLLHUP]

/-- **A hang-up without a listener**: in `hangupRun` epoll reports EPOLLHUP and no callback
    runs. -/
theorem hangup_without_a_listener :
    ((monitor Unit).run (.start (.initial ∅ 8)) hangupRun).map (fun p => p.2.getLast?) =
        some (some []) ∧
      ¬ (monitor Unit).Along TellsOwner (.start (.initial ∅ 8)) hangupRun := by
  refine ⟨by decide, fun h => ?_⟩
  iterate 2 replace h := (h _ _ rfl).2
  have hreport := (h _ _ rfl).1 ⟨EVENT_OUT, EVENT_OUT, ()⟩ EPOLLHUP
    ⟨4, EPOLLOUT, rfl, rfl, by decide, by decide, by decide, by decide⟩
  exact absurd hreport (by decide)

end PluginsEngine
