/-
  File:      PluginsEngine/Engine/FdMonitor.lean
  Subject:   THE INTEREST LAW OF FD MONITORING, over whole runs of calls.

  `monitor` is the engine's loop together with what was asked of it (`Request`: the mask and the
  handler given to `addFd`, and the mask asked for last). `InterestLaw` says of one step that the
  kernel watches every monitored descriptor for what was asked last, that no other descriptor is
  touched, and that a report of something asked for runs the handler.

  * `Served` -- loop and requests agree: the Event in the registry is the one `addFd` built;
  * `law_iff_honoured` -- the law holds along a run exactly when each call is one the code honours:
    an addition of at most one flag, a modification to nothing or to the mask of the addition, and
    no error report beside a flag that was asked for;
  * `combined_and_modified_interest_is_lost` -- two short runs that break it.
-/
import PluginsEngine.Engine.Engine
import PluginsEngine.Library.Runs

namespace PluginsEngine

open Library Engine FdMonitor

variable {κ : Type}

/-! ## 1. The monitored descriptors -/

/-- What was asked for a descriptor: the mask and the handler of `addFd`, and the latest mask. -/
structure Request (κ : Type) where
  added : Mask
  mask : Mask
  handler : κ

structure Monitor (κ : Type) where
  world : World κ
  asked : Int → Option (Request κ)

/-- The calls, the reports of the kernel, and the opening and closing of descriptors. -/
inductive MonitorCall (κ : Type) where
  | addFd (fd : Int) (events : Mask) (handler : κ)
  | modifyFd (fd : Int) (events : Mask)
  | removeFd (fd : Int)
  | report (fd : Int) (events : Mask)
  | openFile (fd : Int) (kind : FileKind)
  | closeFile (fd : Int)

/-- The three flags that can be asked for. -/
def monitored : List Mask := [EVENT_IN, EVENT_OUT, EVENT_ERR]

/-- Any combination of them. -/
def combinations : List Mask :=
  [0, EVENT_IN, EVENT_OUT, EVENT_ERR, EVENT_IN ||| EVENT_OUT, EVENT_IN ||| EVENT_ERR,
    EVENT_OUT ||| EVENT_ERR, EVENT_IN ||| EVENT_OUT ||| EVENT_ERR]

/-- At most one of them. -/
def atMostOne : List Mask := [0, EVENT_IN, EVENT_OUT, EVENT_ERR]

/-- `fd` is used by nobody on this loop. -/
def Monitor.unused (s : Monitor κ) (fd : Int) : Prop :=
  s.asked fd = none ∧ fd ∉ s.world.eventPool ∧ fd ∉ s.world.kernel.interest

/-- What the callers keep to: they add open, unmonitored descriptors, modify and remove monitored
    ones, and close unused ones. -/
def MonitorCall.allowed (s : Monitor κ) : MonitorCall κ → Prop
  | .addFd fd events _ => fd ∈ s.world.kernel.files ∧ s.unused fd ∧ events ∈ combinations
  | .modifyFd fd events => s.asked fd ≠ none ∧ events ∈ combinations
  | .removeFd fd | .report fd _ => s.asked fd ≠ none
  | .openFile fd _ => fd ∉ s.world.kernel.files
  | .closeFile fd => s.unused fd

instance Monitor.decidableAsked (s : Monitor κ) (fd : Int) : Decidable (s.asked fd = none) :=
  decidable_of_iff ((s.asked fd).isNone = true) Option.isNone_iff_eq_none

instance Monitor.decidableUnused (s : Monitor κ) (fd : Int) : Decidable (s.unused fd) :=
  inferInstanceAs (Decidable (_ ∧ _))

instance MonitorCall.decidableAllowed (s : Monitor κ) (c : MonitorCall κ) :
    Decidable (c.allowed s) := by
  cases c <;> unfold MonitorCall.allowed <;> infer_instance

/-- One call. The output of a report is the callbacks it runs. -/
def monitorStep (s : Monitor κ) : MonitorCall κ → Monitor κ × List κ
  | .addFd fd events handler =>
    (⟨Engine.addFd s.world fd events handler,
      Function.update s.asked fd (some ⟨events, events, handler⟩)⟩, [])
  | .modifyFd fd events =>
    (⟨Engine.modifyFd s.world fd events,
      Function.update s.asked fd ((s.asked fd).map fun r => { r with mask := events })⟩, [])
  | .removeFd fd => (⟨Engine.removeFd s.world fd, Function.update s.asked fd none⟩, [])
  | .report fd events =>
    match s.world.dispatch ⟨fd, events⟩ with
    | (w, some e) => ({ s with world := w }, (w.object e).handle events)
    | (w, none) => ({ s with world := w }, [])
  | .openFile fd kind => ({ s with world := s.world.act (.openFile fd kind) }, [])
  | .closeFile fd => ({ s with world := s.world.act (.closeFile fd) }, [])

def monitor (κ : Type) : Machine (Monitor κ) (MonitorCall κ) (List κ) where
  step s c := if c.allowed s then some (monitorStep s c) else none

/-! ## 2. The law and the condition -/

/-- The descriptor a call is about. -/
def MonitorCall.target : MonitorCall κ → Int
  | .addFd fd _ _ | .modifyFd fd _ | .removeFd fd | .report fd _ | .openFile fd _
  | .closeFile fd => fd

/-- **The interest law**, of one step from `s` to `s'`. -/
structure InterestLaw (s : Monitor κ) (c : MonitorCall κ) (s' : Monitor κ) (ran : List κ) :
    Prop where
  effective : ∀ fd r, s'.asked fd = some r → ∃ mask,
    s'.world.kernel.interest.lookup fd = some mask ∧
      ∀ flag ∈ monitored, mask.has flag = r.mask.has flag
  others : ∀ fd ≠ c.target,
    s'.world.kernel.interest.lookup fd = s.world.kernel.interest.lookup fd
  reported : ∀ fd events r, c = .report fd events → s.asked fd = some r →
    ∀ flag ∈ monitored, r.mask.has flag → events.has flag → r.handler ∈ ran

/-- **What the code honours**: the addition of at most one flag, which the kernel accepts; the
    modification to nothing or to the mask of the addition; and of the reports of something asked
    for, those without an error unless errors were asked for. -/
def Honoured (s : Monitor κ) : MonitorCall κ → Prop
  | .addFd fd events _ => events ∈ atMostOne ∧ s.world.kernel.accepts fd
  | .modifyFd fd events => ∀ r, s.asked fd = some r → events = 0 ∨ events = r.added
  | .report fd events => ∀ r, s.asked fd = some r →
      (∃ flag ∈ monitored, r.mask.has flag ∧ events.has flag) → events.has EPOLLERR →
      r.mask.has EVENT_ERR
  | _ => True

/-! ## 3. Masks -/

/-- What holds of the masks in a list is decided mask by mask, not over all 2^32. -/
instance (priority := high) decidableForallMasks (p : Mask → Prop) [DecidablePred p]
    (masks : List Mask) : Decidable (∀ mask ∈ masks, p mask) :=
  List.decidableBAll p masks

/-- The flags an Event gets are those asked for exactly when there was at most one. -/
theorem monitorFlags_iff : ∀ events ∈ combinations,
    (∀ flag ∈ monitored, (monitorFlags events).has flag = events.has flag) ↔
      events ∈ atMostOne := by
  decide

/-- The mask `modifyFd` sends is the one asked for exactly when that is nothing or the mask of the
    addition. -/
theorem modified_iff : ∀ added ∈ atMostOne, ∀ events ∈ combinations,
    (∀ flag ∈ monitored, Mask.has
      (if events = EVENT_IN ∨ events = EVENT_OUT ∨ events = EVENT_ERR then monitorFlags added
        else Event.noneEventFlag) flag = events.has flag) ↔ events = 0 ∨ events = added := by
  decide

/-- The mask sent is then the flags of the mask asked for. -/
theorem modified_eq : ∀ added ∈ atMostOne, ∀ events, events = 0 ∨ events = added →
    (if events = EVENT_IN ∨ events = EVENT_OUT ∨ events = EVENT_ERR then monitorFlags added
      else Event.noneEventFlag) = monitorFlags events := by
  rintro added ha events (rfl | rfl)
  · decide +revert
  · decide +revert

/-- A mask of at most one flag has only that flag. -/
theorem eq_of_has : ∀ added ∈ atMostOne, ∀ flag ∈ monitored, added.has flag → flag = added := by
  decide

/-- **When a report of the flag asked for runs the handler**: unless it is an error report, which
    runs the error callback alone, and the flag is another one. -/
theorem mem_handle_iff {fd : Int} {added events : Mask} {handler : κ} (ha : added ∈ monitored)
    (hev : events.has added) :
    handler ∈ (monitorEvent fd added handler).handle events ↔
      (events.has EPOLLERR → added.has EVENT_ERR) := by
  have hiff : ∀ added ∈ monitored, added.has EVENT_ERR ↔ added = EVENT_ERR := by decide
  rw [hiff added ha]
  by_cases herr : events.has EPOLLERR
  · rw [Event.handle_of_error herr]
    show handler ∈ (if added = EVENT_ERR then some handler else none).toList ↔ _
    by_cases h : added = EVENT_ERR
    · rw [if_pos h]
      exact ⟨fun _ _ => h, fun _ => List.mem_singleton_self _⟩
    · rw [if_neg h]
      exact ⟨fun hm => absurd hm List.not_mem_nil, fun hi => absurd (hi herr) h⟩
  · refine ⟨fun _ he => absurd he herr, fun _ => (Event.mem_handle_iff herr).mpr ?_⟩
    simp only [monitored, List.mem_cons, List.not_mem_nil, or_false] at ha
    rcases ha with rfl | rfl | rfl
    · exact Or.inl ⟨rfl, Or.inr (Event.has_or_of_has (Event.has_or_of_has hev))⟩
    · exact Or.inr ⟨rfl, hev⟩
    · exact absurd hev herr

theorem reported_iff {fd : Int} {added events : Mask} {handler : κ} (ha : added ∈ atMostOne) :
    (∀ flag ∈ monitored, added.has flag → events.has flag →
        handler ∈ (monitorEvent fd added handler).handle events) ↔
      ((∃ flag ∈ monitored, added.has flag ∧ events.has flag) → events.has EPOLLERR →
        added.has EVENT_ERR) := by
  constructor
  · rintro h ⟨flag, hflag, hhas, hev⟩
    obtain rfl := eq_of_has added ha flag hflag hhas
    exact (mem_handle_iff hflag hev).mp (h flag hflag hhas hev)
  · intro h flag hflag hhas hev
    have hok := h ⟨flag, hflag, hhas, hev⟩
    obtain rfl := eq_of_has added ha flag hflag hhas
    exact (mem_handle_iff hflag hev).mpr hok

/-! ## 4. The Events of the monitored descriptors -/

/-- The registry holds the Event that `addFd` built for the request `r`, and the kernel has the
    flags of the mask asked for last. -/
structure ServedAt (w : World κ) (fd : Int) (r : Request κ) : Prop where
  added : r.added ∈ atMostOne
  mask : r.mask = 0 ∨ r.mask = r.added
  event : ∃ e, w.eventPool.lookup fd = some (some e) ∧ e < w.next ∧
    w.object e = monitorEvent fd r.added r.handler
  interest : w.kernel.interest.lookup fd = some (monitorFlags r.mask)

/-- Loop and requests agree. -/
def Served (s : Monitor κ) : Prop :=
  ∀ fd r, s.asked fd = some r → ServedAt s.world fd r

theorem ServedAt.mask_mem {w : World κ} {fd : Int} {r : Request κ} (h : ServedAt w fd r) :
    r.mask ∈ atMostOne := by
  rcases h.mask with h0 | ha
  · rw [h0]
    decide
  · rw [ha]
    exact h.added

namespace Served

variable {s s' : Monitor κ} {fd : Int}

/-- A call about `fd` leaves the other descriptors as they are. -/
theorem frame (h : Served s) (hasked : ∀ fd' ≠ fd, s'.asked fd' = s.asked fd')
    (honly : OnlyAt s.world s'.world fd)
    (hself : ∀ r, s'.asked fd = some r → ServedAt s'.world fd r) : Served s' := by
  intro fd' r hr
  by_cases hfd : fd' = fd
  · subst hfd
    exact hself r hr
  rw [hasked fd' hfd] at hr
  obtain ⟨e, hl, hlt, ho⟩ := (h fd' r hr).event
  exact ⟨(h fd' r hr).added, (h fd' r hr).mask,
    ⟨e, (honly.eventPool fd' hfd).trans hl, Nat.lt_of_lt_of_le hlt honly.next,
      (honly.object e hlt).trans ho⟩,
    (honly.interest fd' hfd).trans (h fd' r hr).interest⟩

/-- What is asked for is in effect. -/
theorem effective (h : Served s) {r : Request κ} (hr : s.asked fd = some r) :
    ∃ mask, s.world.kernel.interest.lookup fd = some mask ∧
      ∀ flag ∈ monitored, mask.has flag = r.mask.has flag := by
  have hsub : ∀ m ∈ atMostOne, m ∈ combinations := by decide
  have hm := (h fd r hr).mask_mem
  exact ⟨_, (h fd r hr).interest, (monitorFlags_iff _ (hsub _ hm)).mpr hm⟩

/-! ### The calls -/

theorem served_addFd (h : Served s) {events : Mask} {handler : κ} (hpool : fd ∉ s.world.eventPool)
    (hok : Honoured s (.addFd fd events handler)) :
    Served (monitorStep s (.addFd fd events handler)).1 := by
  obtain ⟨hmost, hacc⟩ := hok
  have hreg := addFd_registers hpool events handler
  have hasked : (monitorStep s (.addFd fd events handler)).1.asked fd =
      some ⟨events, events, handler⟩ := Function.update_self _ _ _
  refine h.frame (fun fd' hne => Function.update_of_ne hne _ _) hreg.onlyAt (fun r hr => ?_)
  obtain rfl := Option.some.inj (hasked.symm.trans hr)
  refine ⟨hmost, Or.inr rfl, ⟨s.world.next, ?_, ?_, hreg.new⟩, ?_⟩
  · show (Engine.addFd s.world fd events handler).eventPool.lookup fd = _
    rw [hreg.eventPool]
    exact Finmap.lookup_insert _
  · show s.world.next < (Engine.addFd s.world fd events handler).next
    rw [hreg.next]
    exact Nat.lt_succ_self _
  · show (Engine.addFd s.world fd events handler).kernel.interest.lookup fd = _
    rw [hreg.interest]
    exact (congrArg (Finmap.lookup fd) (if_pos hacc)).trans (Finmap.lookup_insert _)

theorem addFd (h : Served s) {events : Mask} {handler : κ}
    (ha : (MonitorCall.addFd fd events handler).allowed s) :
    (InterestLaw s (.addFd fd events handler) (monitorStep s (.addFd fd events handler)).1 [] ↔
        Honoured s (.addFd fd events handler)) ∧
      (Honoured s (.addFd fd events handler) →
        Served (monitorStep s (.addFd fd events handler)).1) := by
  obtain ⟨-, ⟨hnone, hpool, hint⟩, hcomb⟩ := ha
  have hasked : (monitorStep s (.addFd fd events handler)).1.asked fd =
      some ⟨events, events, handler⟩ := Function.update_self _ _ _
  refine ⟨⟨fun hlaw => ?_, fun hok => ?_⟩, h.served_addFd hpool⟩
  · obtain ⟨mask, hmask, hflags⟩ := hlaw.effective fd _ hasked
    change (Engine.addFd s.world fd events handler).kernel.interest.lookup fd = some mask at hmask
    rw [(addFd_registers hpool events handler).interest] at hmask
    split at hmask
    · rename_i hacc
      change (s.world.kernel.interest.insert fd _).lookup fd = _ at hmask
      rw [Finmap.lookup_insert] at hmask
      cases hmask
      exact ⟨(monitorFlags_iff events hcomb).mp hflags, hacc⟩
    · rw [Finmap.lookup_eq_none.mpr hint] at hmask
      cases hmask
  · exact ⟨fun fd' r hr => (h.served_addFd hpool hok).effective hr,
      (addFd_registers hpool events handler).onlyAt.interest, nofun⟩

theorem modifyFd (h : Served s) {events : Mask}
    (ha : (MonitorCall.modifyFd fd events : MonitorCall κ).allowed s) :
    (InterestLaw s (.modifyFd fd events) (monitorStep s (.modifyFd fd events)).1 [] ↔
        Honoured s (.modifyFd fd events)) ∧
      (Honoured s (.modifyFd fd events) → Served (monitorStep s (.modifyFd fd events)).1) := by
  obtain ⟨hsome, hcomb⟩ := ha
  obtain ⟨r, hr⟩ := Option.ne_none_iff_exists'.mp hsome
  obtain ⟨hmost, hmask, ⟨e, hl, hlt, ho⟩, hint⟩ := h fd r hr
  have hflags : (s.world.object e).events = monitorFlags r.added := by rw [ho]; rfl
  have htold := modifyFd_told hl hlt (by rw [ho]; rfl) events
  rw [hflags] at htold
  set w' := Engine.modifyFd s.world fd events with hw'
  set sent := if events = EVENT_IN ∨ events = EVENT_OUT ∨ events = EVENT_ERR then
    monitorFlags r.added else Event.noneEventFlag with hsent
  have hinterest : w'.kernel.interest = s.world.kernel.interest.insert fd sent := by
    rw [htold.kernel, s.world.kernel.mod_interest]
    exact if_pos (Finmap.mem_of_lookup_eq_some hint)
  have hasked : (monitorStep s (.modifyFd fd events)).1.asked fd =
      some { r with mask := events } := by
    show Function.update s.asked fd _ fd = _
    rw [Function.update_self, hr]
    rfl
  have hserved : Honoured s (.modifyFd fd events) →
      Served (monitorStep s (.modifyFd fd events)).1 := by
    intro hok
    refine h.frame (fun fd' hne => Function.update_of_ne hne _ _) htold.onlyAt (fun r' hr' => ?_)
    obtain rfl := Option.some.inj (hasked.symm.trans hr')
    refine ⟨hmost, hok r hr, ⟨e, ?_, Nat.lt_of_lt_of_le hlt htold.next, ?_⟩, ?_⟩
    · show w'.eventPool.lookup fd = _
      rw [htold.eventPool, hl]
    · exact (htold.object e hlt).trans ho
    · show w'.kernel.interest.lookup fd = _
      rw [hinterest, Finmap.lookup_insert, hsent, modified_eq r.added hmost events (hok r hr)]
  refine ⟨⟨fun hlaw => ?_, fun hok => ?_⟩, hserved⟩
  · intro r' hr'
    obtain rfl := Option.some.inj (hr.symm.trans hr')
    obtain ⟨mask, hm, hf⟩ := hlaw.effective fd _ hasked
    change w'.kernel.interest.lookup fd = some mask at hm
    rw [hinterest, Finmap.lookup_insert] at hm
    cases hm
    exact (modified_iff r.added hmost events hcomb).mp hf
  · exact ⟨fun fd' r hr => (hserved hok).effective hr, htold.onlyAt.interest, nofun⟩

/-- The calls that are always honoured: they ask for nothing new, and touch the kernel at most at
    `fd`. -/
theorem lawful {c : MonitorCall κ} {ran : List κ} (h : Served s') (hother : ∀ fd ≠ c.target,
      s'.world.kernel.interest.lookup fd = s.world.kernel.interest.lookup fd)
    (hreport : ∀ fd events, c ≠ .report fd events) : InterestLaw s c s' ran :=
  ⟨fun _ _ hr => h.effective hr, hother, fun fd events _ hc => absurd hc (hreport fd events)⟩

theorem removeFd (h : Served s) (fd : Int) : Served (monitorStep s (.removeFd fd)).1 ∧
    InterestLaw s (.removeFd fd) (monitorStep s (.removeFd fd)).1 [] := by
  have hserved : Served (monitorStep s (.removeFd fd)).1 := by
    refine h.frame (fun fd' hne => Function.update_of_ne hne _ _) (removeFd_onlyAt s.world fd)
      (fun r hr => ?_)
    have hnone : (monitorStep s (.removeFd fd)).1.asked fd = none := Function.update_self _ _ _
    rw [hnone] at hr
    cases hr
  exact ⟨hserved, lawful hserved (removeFd_onlyAt s.world fd).interest nofun⟩

/-- **A report**: the registry holds the Event that `addFd` built, and the record is handed to
    it. -/
theorem report (h : Served s) {events : Mask}
    (ha : (MonitorCall.report fd events : MonitorCall κ).allowed s) :
    Served (monitorStep s (.report fd events)).1 ∧
      (InterestLaw s (.report fd events) (monitorStep s (.report fd events)).1
          (monitorStep s (.report fd events)).2 ↔ Honoured s (.report fd events)) := by
  obtain ⟨r, hr⟩ := Option.ne_none_iff_exists'.mp ha
  obtain ⟨hmost, hmask, ⟨e, hl, -, ho⟩, -⟩ := h fd r hr
  have hstep : monitorStep s (.report fd events) =
      (s, (monitorEvent fd r.added r.handler).handle events) := by
    simp only [monitorStep, World.dispatch_of_registered s.world (r := ⟨fd, events⟩) hl, ho]
  rw [hstep]
  have hzero : ∀ flag, ¬ Mask.has 0 flag := by
    intro flag
    simp only [Mask.has, UInt32.zero_and, bne_self_eq_false, Bool.false_eq_true, not_false_eq_true]
  -- of the request's two masks only the one of the addition shows in a report
  have hran : (∀ flag ∈ monitored, r.mask.has flag → events.has flag →
        r.handler ∈ (monitorEvent fd r.added r.handler).handle events) ↔
      ((∃ flag ∈ monitored, r.mask.has flag ∧ events.has flag) → events.has EPOLLERR →
        r.mask.has EVENT_ERR) := by
    rcases hmask with h0 | ha'
    · rw [h0]
      exact ⟨fun _ ⟨flag, _, hf, _⟩ => absurd hf (hzero flag),
        fun _ flag _ hf => absurd hf (hzero flag)⟩
    · rw [ha']
      exact reported_iff hmost
  refine ⟨h, ⟨fun hlaw r' hr' => ?_, fun hok => ?_⟩⟩
  · obtain rfl := Option.some.inj (hr.symm.trans hr')
    exact hran.mp (hlaw.reported fd events r rfl hr)
  · refine ⟨fun fd' r' hr' => h.effective hr', fun _ _ => rfl, ?_⟩
    rintro _ _ r' ⟨rfl, rfl⟩ hr'
    obtain rfl := Option.some.inj (hr.symm.trans hr')
    exact hran.mpr (hok r hr)

/-- **One step**: the law holds of it exactly when the call is honoured, and an honoured call
    keeps loop and requests in agreement. -/
theorem step {c : MonitorCall κ} {ran : List κ} (h : Served s)
    (hs : (monitor κ).step s c = some (s', ran)) :
    (InterestLaw s c s' ran ↔ Honoured s c) ∧ (Honoured s c → Served s') := by
  simp only [monitor] at hs
  split at hs
  case isFalse => cases hs
  rename_i ha
  obtain ⟨rfl, rfl⟩ := Prod.ext_iff.mp (Option.some.inj hs).symm
  cases c with
  | addFd fd events handler => exact h.addFd ha
  | modifyFd fd events => exact h.modifyFd ha
  | removeFd fd =>
    obtain ⟨hserved, hlaw⟩ := h.removeFd fd
    exact ⟨⟨fun _ => trivial, fun _ => hlaw⟩, fun _ => hserved⟩
  | report fd events =>
    obtain ⟨hserved, hlaw⟩ := h.report ha
    exact ⟨hlaw, fun _ => hserved⟩
  | openFile fd kind =>
    have hserved : Served (monitorStep s (.openFile fd kind)).1 := by
      intro fd' r hr
      obtain ⟨hmost, hmask, hevent, hint⟩ := h fd' r hr
      exact ⟨hmost, hmask, hevent, hint⟩
    exact ⟨⟨fun _ => trivial, fun _ => lawful hserved (fun _ _ => rfl) nofun⟩, fun _ => hserved⟩
  | closeFile fd =>
    have hsame : (monitorStep s (.closeFile fd)).1.world.kernel.interest =
        s.world.kernel.interest := erase_of_notMem ha.2.2
    have hserved : Served (monitorStep s (.closeFile fd)).1 := by
      intro fd' r hr
      obtain ⟨hmost, hmask, hevent, hint⟩ := h fd' r hr
      exact ⟨hmost, hmask, hevent, by rw [hsame]; exact hint⟩
    exact ⟨⟨fun _ => trivial, fun _ => lawful hserved (fun fd' _ => by rw [hsame]) nofun⟩,
      fun _ => hserved⟩

end Served

/-! ## 5. Runs -/

/-- A loop nothing of which is monitored, whatever else is registered on it. -/
def Monitor.start (w : World κ) : Monitor κ := ⟨w, fun _ => none⟩

/-- **The interest law holds exactly as far as the calls are honoured.** For every loop and every
    run of calls from it: each step obeys the law if and only if each call is one that `Honoured`
    describes. -/
theorem law_iff_honoured (w : World κ) (calls : List (MonitorCall κ)) :
    (monitor κ).Along InterestLaw (.start w) calls ↔
      (monitor κ).Along (fun s c _ _ => Honoured s c) (.start w) calls :=
  Machine.along_iff (I := Served) (fun _ _ _ _ h hs => h.step hs) (fun _ _ hr => nomatch hr)

/-- A pollable descriptor, monitored for input and output at once. -/
def bothRun : List (MonitorCall Unit) :=
  [.openFile 4 .pollable, .addFd 4 (EVENT_IN ||| EVENT_OUT) ()]

/-- A pollable descriptor, monitored for input and then for output. -/
def switchRun : List (MonitorCall Unit) :=
  [.openFile 4 .pollable, .addFd 4 EVENT_IN (), .modifyFd 4 EVENT_OUT]

/-- **The law fails**: a combined mask registers no interest at all, and asking for output after
    input leaves the kernel watching for input. -/
theorem combined_and_modified_interest_is_lost :
    (((monitor Unit).run (.start (.initial ∅ 8)) bothRun).map
        fun p => p.1.world.kernel.interest.lookup 4) = some (some 0) ∧
      ¬ (monitor Unit).Along InterestLaw (.start (.initial ∅ 8)) bothRun ∧
      (((monitor Unit).run (.start (.initial ∅ 8)) switchRun).map
        fun p => p.1.world.kernel.interest.lookup 4) = some (some (EPOLLIN ||| EPOLLPRI)) ∧
      ¬ (monitor Unit).Along InterestLaw (.start (.initial ∅ 8)) switchRun := by
  refine ⟨by decide, fun h => ?_, by decide, fun h => ?_⟩
  · replace h := (h _ _ rfl).2
    obtain ⟨mask, hmask, hflags⟩ := (h _ _ rfl).1.effective 4 _ rfl
    obtain rfl : mask = 0 := Option.some.inj (hmask.symm.trans rfl)
    exact absurd (hflags EVENT_IN (by decide)) (by decide)
  · iterate 2 replace h := (h _ _ rfl).2
    obtain ⟨mask, hmask, hflags⟩ := (h _ _ rfl).1.effective 4 _ rfl
    obtain rfl : mask = EPOLLIN ||| EPOLLPRI := Option.some.inj (hmask.symm.trans rfl)
    exact absurd (hflags EVENT_OUT (by decide)) (by decide)

end PluginsEngine
