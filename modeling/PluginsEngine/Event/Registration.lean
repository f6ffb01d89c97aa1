/-
  File:      PluginsEngine/Event/Registration.lean
  Subject:   WHICH REGISTRATION IS IN FORCE.

  A registration is in force from an `addEvent(e)` whose EPOLL_CTL_ADD the kernel accepts until
  `e` is deleted; `liveLoop` is the event loop with the set of these Events as its history. What
  the caller of `addEvent` may expect is `Wins`: the records of the descriptor go to `e`, and a
  mask change through `e` reaches the kernel. Descriptors may be closed without a deletion, and
  their numbers used again.

  * `Registered` -- every Event in force is the registry's entry under its descriptor;
  * `wins_iff_undisturbed` -- `Wins` holds along a run exactly when no accepted addition finds the
    entry of another Event, no Event deletes the entry of another one that is in force, and no
    mask is changed through an Event whose descriptor has left the epoll set;
  * `forgotten_entry_gets_the_records` -- descriptor 5 is closed without a deletion; the Event of
    the connection that is given number 5 next never sees a record.
-/
import PluginsEngine.Event.StaleDispatch

namespace PluginsEngine

open Library

variable {κ : Type}

/-! ## 1. The loop and the registrations in force -/

/-- The Events in force after a step, from those in force before it. -/
def liveAfter (s : LoopState κ) (l : LoopLabel) (_ : Option EventId) (live : Finset EventId) :
    Finset EventId :=
  match l with
  | .act (.addEvent e) =>
    if s.world.kernel.accepts (s.world.object e).eventFd then insert e live else live
  | .act (.deleteEvent e) | .act (.removeFromLoop e) => live.erase e
  | .act (.deleteEventFd fd) => live.filter fun e => (s.world.object e).eventFd ≠ fd
  | _ => live

/-- A loop, its batch, and the Events whose registration is in force. -/
abbrev LiveState (κ : Type) := LoopState κ × Finset EventId

def liveLoop (κ : Type) : Machine (LiveState κ) LoopLabel (Option EventId) :=
  (eventLoop fun (w : World κ) a => a.onExisting w).withHistory liveAfter

namespace LiveState

/-- A loop at its start: nothing is registered. -/
def initial (files : Finmap fun _ : Int => FileKind) (maxWatches : Nat) : LiveState κ :=
  (⟨World.initial files maxWatches, []⟩, ∅)

/-- The Event whose mask a call changes. -/
def changesMask : World.Act → Option EventId
  | .enableReading e _ | .enableWriting e _ | .enableErrorEvent e _ | .disableAll e => some e
  | _ => none

/-- **The newest registration wins.** For every Event in force after the step, a record of its
    descriptor would go to it, whatever is reported; the record this step dispatched went to the
    Event in force; and the mask this step changed through an Event in force is the kernel's. -/
structure Wins (s : LiveState κ) (l : LoopLabel) (s' : LiveState κ) (o : Option EventId) :
    Prop where
  serves : ∀ e ∈ s'.2, ∀ events,
    (s'.1.world.dispatch ⟨(s'.1.world.object e).eventFd, events⟩).2 = some e
  delivered : l = .dispatch → ∀ r ∈ s.1.pending.head?, ∀ e ∈ s.2,
    (s.1.world.object e).eventFd = r.fd → o = some e
  told : ∀ a, l = .act a → ∀ e ∈ changesMask a, e ∈ s.2 →
    s'.1.world.kernel.interest.lookup (s'.1.world.object e).eventFd =
      some (s'.1.world.object e).events

/-- What a step is not to do to the registrations in force: an accepted addition finds no entry of
    another Event; a deletion through an Event takes out no entry in force of another one; a mask
    is changed through an Event in force only while its descriptor is in the epoll set. -/
def Undisturbed (s : LiveState κ) (l : LoopLabel) (_ : LiveState κ) (_ : Option EventId) : Prop :=
  let w := s.1.world
  match l with
  | .act (.addEvent e) =>
    w.kernel.accepts (w.object e).eventFd →
      ∀ e', w.eventPool.lookup (w.object e).eventFd = some (some e') → e' = e
  | .act (.deleteEvent e') | .act (.removeFromLoop e') =>
    ∀ e ∈ s.2, (w.object e).eventFd = (w.object e').eventFd → e = e'
  | .act (.enableReading e _) | .act (.enableWriting e _) | .act (.enableErrorEvent e _)
  | .act (.disableAll e) => e ∈ s.2 → (w.object e).eventFd ∈ w.kernel.interest
  | _ => True

/-! ## 2. Mask changes and the kernel -/

/-- EPOLL_CTL_MOD neither adds nor removes. -/
theorem mem_modifyEventFd_interest (w : World κ) (fd fd' : Int) :
    fd' ∈ (w.modifyEventFd fd).kernel.interest ↔ fd' ∈ w.kernel.interest := by
  unfold World.modifyEventFd
  split
  · rename_i e _
    show fd' ∈ (w.kernel.epollCtl .mod _ _).1.interest ↔ _
    rw [w.kernel.mod_interest]
    split
    · rename_i hin
      rw [Finmap.mem_insert]
      refine ⟨fun h => h.elim (fun heq => ?_) id, Or.inr⟩
      rw [heq]
      exact hin
    · exact Iff.rfl
  · exact Iff.rfl

/-- **A mask change through the registered Event** is in the kernel afterwards exactly when the
    descriptor is in the epoll set. -/
theorem update_told_iff (w : World κ) (e : EventId)
    (h : w.eventPool.lookup (w.object e).eventFd = some (some e)) :
    (w.update e).kernel.interest.lookup (w.object e).eventFd = some (w.object e).events ↔
      (w.object e).eventFd ∈ w.kernel.interest := by
  constructor
  · intro ht
    exact (mem_modifyEventFd_interest w _ _).mp (Finmap.mem_of_lookup_eq_some ht)
  · intro hin
    unfold World.update World.modifyEventFd
    rw [h]
    show (w.kernel.epollCtl .mod _ _).1.interest.lookup _ = _
    rw [w.kernel.mod_interest, if_pos hin]
    exact Finmap.lookup_insert _

/-- The four methods that change a mask: an update of the object that keeps its descriptor, and
    the loop is told. -/
theorem act_of_changesMask (w : World κ) {a : World.Act} {e : EventId}
    (h : changesMask a = some e) :
    ∃ f : Event κ → Event κ, (∀ x, (f x).eventFd = x.eventFd) ∧
      w.act a = (w.setObject e f).update e := by
  cases a with
  | enableReading e' b =>
    cases h
    exact ⟨Event.withFlag Event.readEventFlag b, fun _ => rfl, rfl⟩
  | enableWriting e' b =>
    cases h
    exact ⟨Event.withFlag Event.writeEventFlag b, fun _ => rfl, rfl⟩
  | enableErrorEvent e' b =>
    cases h
    exact ⟨Event.withFlag Event.errorEventFlag b, fun _ => rfl, rfl⟩
  | disableAll e' =>
    cases h
    exact ⟨fun event => { event with events := Event.noneEventFlag }, fun _ => rfl, rfl⟩
  | _ => cases h

/-- `update_told_iff` for a whole mask change. -/
theorem act_told_iff (w : World κ) {a : World.Act} {e : EventId} (h : changesMask a = some e)
    (hreg : w.eventPool.lookup (w.object e).eventFd = some (some e)) :
    (w.act a).kernel.interest.lookup ((w.act a).object e).eventFd =
        some ((w.act a).object e).events ↔ (w.object e).eventFd ∈ w.kernel.interest := by
  obtain ⟨f, hf, ha⟩ := act_of_changesMask w h
  have hfd : ((w.setObject e f).object e).eventFd = (w.object e).eventFd := by
    rw [World.setObject_self, hf]
  rw [ha, World.update_object, update_told_iff _ _ (by rw [hfd]; exact hreg), hfd]
  exact Iff.rfl

/-! ## 3. What is in force is what the registry has -/

structure Registered (s : LiveState κ) : Prop where
  entry : ∀ e ∈ s.2, e < s.1.world.next ∧
    s.1.world.eventPool.lookup (s.1.world.object e).eventFd = some (some e)
  notNull : ∀ fd, s.1.world.eventPool.lookup fd ≠ some none

namespace Registered

variable {s s' : LiveState κ} {l : LoopLabel} {o : Option EventId}

/-- The registry stays as it is, and every Event in force was so or is its descriptor's entry. -/
theorem keep (h : s.Registered) (hn : s.1.world.next ≤ s'.1.world.next)
    (ho : ∀ e, e < s.1.world.next →
      (s'.1.world.object e).eventFd = (s.1.world.object e).eventFd)
    (hp : s'.1.world.eventPool = s.1.world.eventPool)
    (hlive : ∀ e ∈ s'.2, e ∈ s.2 ∨ e < s.1.world.next ∧
      s.1.world.eventPool.lookup (s.1.world.object e).eventFd = some (some e)) :
    s'.Registered where
  entry e he := by
    have hreg : e < s.1.world.next ∧
        s.1.world.eventPool.lookup (s.1.world.object e).eventFd = some (some e) := by
      rcases hlive e he with hold | hnew
      · exact h.entry e hold
      · exact hnew
    rw [hp, ho e hreg.1]
    exact ⟨Nat.lt_of_lt_of_le hreg.1 hn, hreg.2⟩
  notNull fd := by
    rw [hp]
    exact h.notNull fd

/-- An entry for a descriptor that had none. -/
theorem register (h : s.Registered) {e₀ : EventId} (hlt : e₀ < s.1.world.next)
    (hn : s.1.world.next ≤ s'.1.world.next)
    (ho : ∀ e, e < s.1.world.next →
      (s'.1.world.object e).eventFd = (s.1.world.object e).eventFd)
    (hnew : (s.1.world.object e₀).eventFd ∉ s.1.world.eventPool)
    (hp : s'.1.world.eventPool =
      s.1.world.eventPool.insert (s.1.world.object e₀).eventFd (some e₀))
    (hlive : ∀ e ∈ s'.2, e ∈ s.2 ∨ e = e₀) : s'.Registered where
  entry e he := by
    rw [hp]
    rcases hlive e he with hold | rfl
    · obtain ⟨hlt', hreg⟩ := h.entry e hold
      have hne : (s.1.world.object e).eventFd ≠ (s.1.world.object e₀).eventFd := by
        intro heq
        rw [← heq] at hnew
        exact hnew (Finmap.mem_of_lookup_eq_some hreg)
      rw [ho e hlt', Finmap.lookup_insert_of_ne _ hne]
      exact ⟨Nat.lt_of_lt_of_le hlt' hn, hreg⟩
    · rw [ho e hlt, Finmap.lookup_insert]
      exact ⟨Nat.lt_of_lt_of_le hlt hn, rfl⟩
  notNull fd := by
    rw [hp]
    by_cases hfd : fd = (s.1.world.object e₀).eventFd
    · rw [hfd, Finmap.lookup_insert]
      exact nofun
    · rw [Finmap.lookup_insert_of_ne _ hfd]
      exact h.notNull fd

/-- The entry of a descriptor goes, and with it whatever was in force for it. -/
theorem unregister (h : s.Registered) {fd : Int} (hn : s.1.world.next ≤ s'.1.world.next)
    (ho : ∀ e, e < s.1.world.next →
      (s'.1.world.object e).eventFd = (s.1.world.object e).eventFd)
    (hp : s'.1.world.eventPool = s.1.world.eventPool.erase fd)
    (hlive : ∀ e ∈ s'.2, e ∈ s.2 ∧ (s.1.world.object e).eventFd ≠ fd) : s'.Registered where
  entry e he := by
    obtain ⟨hold, hne⟩ := hlive e he
    obtain ⟨hlt, hreg⟩ := h.entry e hold
    rw [hp, ho e hlt, Finmap.lookup_erase_ne hne]
    exact ⟨Nat.lt_of_lt_of_le hlt hn, hreg⟩
  notNull fd' := by
    rw [hp]
    by_cases hfd : fd' = fd
    · rw [hfd, Finmap.lookup_erase]
      exact nofun
    · rw [Finmap.lookup_erase_ne hfd]
      exact h.notNull fd'

/-- **What a record of its descriptor does**: it goes to the Event in force. -/
theorem dispatch_snd (h : s.Registered) {e : EventId} (he : e ∈ s.2) {r : EpollEvent}
    (hr : (s.1.world.object e).eventFd = r.fd) : (s.1.world.dispatch r).2 = some e := by
  rw [World.dispatch_snd, ← hr, (h.entry e he).2]
  rfl

/-- An addition. Where the descriptor has an entry already, what counts is whose it is. -/
theorem addEvent (h : s.Registered) {e₀ : EventId} (hlt : e₀ < s.1.world.next)
    (hs : s'.1.world = s.1.world.addEvent e₀)
    (hlive : s'.2 = liveAfter s.1 (.act (.addEvent e₀)) o s.2)
    (hok : Undisturbed s (.act (.addEvent e₀)) s' o) : s'.Registered := by
  have hn : s.1.world.next ≤ s'.1.world.next := Nat.le_of_eq (by rw [hs]; rfl)
  have ho : ∀ e, e < s.1.world.next →
      (s'.1.world.object e).eventFd = (s.1.world.object e).eventFd := by
    intro e _
    rw [hs, World.addEvent_object]
  have hcases : ∀ e ∈ s'.2,
      e ∈ s.2 ∨ (e = e₀ ∧ s.1.world.kernel.accepts (s.1.world.object e₀).eventFd) := by
    intro e he
    rw [hlive] at he
    unfold liveAfter at he
    dsimp only at he
    split at he
    · rename_i hacc
      rcases Finset.mem_insert.mp he with heq | hold
      · exact Or.inr ⟨heq, hacc⟩
      · exact Or.inl hold
    · exact Or.inl he
  by_cases hm : (s.1.world.object e₀).eventFd ∈ s.1.world.eventPool
  · refine h.keep hn ho (by rw [hs]; exact insertNew_of_mem hm) fun e he => ?_
    rcases hcases e he with hold | ⟨rfl, hacc⟩
    · exact Or.inl hold
    · -- the entry that is there is no null pointer, and by `hok` no other Event
      obtain ⟨v, hv⟩ := Finmap.mem_iff.mp hm
      cases v with
      | none => exact absurd hv (h.notNull _)
      | some e' =>
        have heq : e' = e := hok hacc e' hv
        rw [heq] at hv
        exact Or.inr ⟨hlt, hv⟩
  · refine h.register hlt hn ho hm (by rw [hs]; exact insertNew_of_notMem hm) fun e he => ?_
    exact (hcases e he).imp id And.left

end Registered

theorem registered_initial (files : Finmap fun _ : Int => FileKind) (maxWatches : Nat) :
    (initial files maxWatches : LiveState κ).Registered where
  entry e he := absurd he (Finset.notMem_empty e)
  notNull fd h := by
    have hnone : (∅ : Finmap fun _ : Int => Option EventId).lookup fd = none :=
      Finmap.lookup_empty fd
    exact absurd (hnone.symm.trans h) nofun

/-! ## 4. One step -/

variable {s s' : LiveState κ} {o : Option EventId}

theorem liveLoop_act {a : World.Act} (hs : (liveLoop κ).step s (.act a) = some (s', o)) :
    a.onExisting s.1.world ∧ s'.1.world = s.1.world.act a ∧
      s'.2 = liveAfter s.1 (.act a) o s.2 := by
  obtain ⟨hstep, hlive⟩ := Machine.withHistory_step_iff.mp hs
  simp only [eventLoop] at hstep
  split at hstep
  · rename_i ha
    obtain ⟨hw, -⟩ := Prod.mk.inj (Option.some.inj hstep)
    exact ⟨ha, by rw [← hw], hlive⟩
  · cases hstep

theorem liveLoop_dispatch (hs : (liveLoop κ).step s .dispatch = some (s', o)) :
    ∃ r, s.1.pending.head? = some r ∧ s'.1.world = (s.1.world.dispatch r).1 ∧
      o = (s.1.world.dispatch r).2 ∧ s'.2 = s.2 := by
  obtain ⟨hstep, hlive⟩ := Machine.withHistory_step_iff.mp hs
  simp only [eventLoop] at hstep
  split at hstep
  · cases hstep
  · rename_i r rest hr
    obtain ⟨hw, ho⟩ := Prod.mk.inj (Option.some.inj hstep)
    exact ⟨r, by rw [hr, List.head?_cons], by rw [← hw], ho.symm, hlive⟩

theorem liveLoop_wait {records : List EpollEvent}
    (hs : (liveLoop κ).step s (.wait records) = some (s', o)) :
    s'.1.world = s.1.world ∧ s'.2 = s.2 := by
  obtain ⟨hstep, hlive⟩ := Machine.withHistory_step_iff.mp hs
  obtain ⟨hw, -⟩ := Prod.mk.inj (Option.some.inj hstep)
  exact ⟨by rw [← hw], hlive⟩

/-- What `Undisturbed` asks of the methods that change a mask. -/
theorem undisturbed_of_changesMask {a : World.Act} {e : EventId} (h : changesMask a = some e) :
    Undisturbed s (.act a) s' o ↔
      (e ∈ s.2 → (s.1.world.object e).eventFd ∈ s.1.world.kernel.interest) := by
  cases a with
  | enableReading e' b | enableWriting e' b | enableErrorEvent e' b | disableAll e' =>
    cases h
    exact Iff.rfl
  | _ => cases h

/-- **An undisturbed step keeps what is in force registered.** -/
theorem Registered.step {l : LoopLabel} (h : s.Registered)
    (hs : (liveLoop κ).step s l = some (s', o)) (hok : Undisturbed s l s' o) :
    s'.Registered := by
  cases l with
  | wait records =>
    obtain ⟨hw, hlive⟩ := liveLoop_wait hs
    exact h.keep (by rw [hw]) (fun e _ => by rw [hw]) (by rw [hw])
      fun e he => Or.inl (by rwa [← hlive])
  | dispatch =>
    obtain ⟨r, -, hw, -, hlive⟩ := liveLoop_dispatch hs
    exact h.keep (by rw [hw, World.dispatch_next])
      (fun e _ => by rw [hw, World.dispatch_object])
      (by rw [hw, World.dispatch_eventPool _ r (h.notNull r.fd)])
      fun e he => Or.inl (by rwa [← hlive])
  | act a =>
    obtain ⟨ha, hw, hlive⟩ := liveLoop_act hs
    have hn : s.1.world.next ≤ s'.1.world.next := by
      rw [hw]
      exact BatchState.next_le_act _ a
    have ho : ∀ e, e < s.1.world.next →
        (s'.1.world.object e).eventFd = (s.1.world.object e).eventFd := by
      intro e he
      rw [hw]
      exact BatchState.act_eventFd _ a he
    have hp : s'.1.world.eventPool = _ := (congrArg World.eventPool hw).trans
      (BatchState.act_eventPool s.1.world a)
    cases a with
    | addEvent e => exact h.addEvent ha hw hlive hok
    | deleteEvent e' | removeFromLoop e' =>
      refine h.unregister hn ho hp fun e he => ?_
      rw [hlive] at he
      obtain ⟨hne, hold⟩ := Finset.mem_erase.mp he
      exact ⟨hold, fun hfd => hne (hok e hold hfd)⟩
    | deleteEventFd fd =>
      refine h.unregister hn ho hp fun e he => ?_
      rw [hlive] at he
      exact Finset.mem_filter.mp he
    | openFile _ _ | closeFile _ | newEvent _ | modifyEventFd _ | enableReading _ _
    | enableWriting _ _ | enableErrorEvent _ _ | disableAll _ =>
      exact h.keep hn ho hp fun e he => Or.inl (by rwa [hlive] at he)

theorem Registered.wins {l : LoopLabel} (h : s.Registered)
    (hs : (liveLoop κ).step s l = some (s', o)) (hok : Undisturbed s l s' o) :
    Wins s l s' o where
  serves e he events := (h.step hs hok).dispatch_snd he rfl
  delivered hl r hr e he hfd := by
    subst hl
    obtain ⟨r', hr', -, ho, -⟩ := liveLoop_dispatch hs
    rw [hr'] at hr
    cases hr
    rw [ho]
    exact h.dispatch_snd he hfd
  told a hl e hmask he := by
    subst hl
    obtain ⟨-, hw, -⟩ := liveLoop_act hs
    rw [hw]
    exact (act_told_iff _ hmask (h.entry e he).2).mpr
      ((undisturbed_of_changesMask hmask).mp hok he)

/-- An Event in force serves its descriptor, so the registry has it. -/
theorem Wins.lookup {l : LoopLabel} (hw : Wins s l s' o) {e : EventId} (he : e ∈ s'.2) :
    s'.1.world.eventPool.lookup (s'.1.world.object e).eventFd = some (some e) := by
  have hserves := hw.serves e he 0
  rw [World.dispatch_snd] at hserves
  exact Option.join_eq_some_iff.mp hserves

theorem Registered.undisturbed {l : LoopLabel} (h : s.Registered)
    (hs : (liveLoop κ).step s l = some (s', o)) (hwins : Wins s l s' o) :
    Undisturbed s l s' o := by
  cases l with
  | wait records => trivial
  | dispatch => trivial
  | act a =>
    obtain ⟨-, hw, hlive⟩ := liveLoop_act hs
    cases a with
    | addEvent e =>
      intro hacc e' hv
      have he : e ∈ s'.2 := by
        rw [hlive]
        show e ∈ if _ then _ else _
        rw [if_pos hacc]
        exact Finset.mem_insert_self e _
      have hreg := hwins.lookup he
      rw [hw] at hreg
      -- `insert` left the entry that was there
      have hkept : (s.1.world.addEvent e).eventPool = s.1.world.eventPool :=
        insertNew_of_mem (Finmap.mem_of_lookup_eq_some hv)
      rw [World.act, World.addEvent_object, hkept, hv] at hreg
      cases hreg
      rfl
    | deleteEvent e' | removeFromLoop e' =>
      intro e he hfd
      refine Classical.byContradiction fun hne => ?_
      have hreg := hwins.lookup (e := e) (by rw [hlive]; exact Finset.mem_erase.mpr ⟨hne, he⟩)
      rw [hw, BatchState.act_eventFd _ _ (h.entry e he).1, BatchState.act_eventPool, hfd] at hreg
      have hgone := (Finmap.lookup_erase (s.1.world.object e').eventFd s.1.world.eventPool)
      exact absurd (hgone.symm.trans hreg) nofun
    | enableReading e b | enableWriting e b | enableErrorEvent e b | disableAll e =>
      intro he
      have htold := hwins.told _ rfl e rfl he
      rw [hw] at htold
      exact (act_told_iff _ rfl (h.entry e he).2).mp htold
    | openFile _ _ | closeFile _ | newEvent _ | modifyEventFd _ | deleteEventFd _ => trivial

end LiveState

open LiveState

/-- **The newest registration wins exactly where no step disturbs it.** For every run of a loop
    from its start: after each step every Event in force gets the records of its descriptor, and
    the step's own record and mask change arrive, if and only if every step of the run is
    undisturbed. -/
theorem wins_iff_undisturbed (files : Finmap fun _ : Int => FileKind) (maxWatches : Nat)
    (ls : List LoopLabel) :
    (liveLoop κ).Along Wins (LiveState.initial files maxWatches) ls ↔
      (liveLoop κ).Along Undisturbed (LiveState.initial files maxWatches) ls :=
  Machine.along_iff (I := Registered)
    (fun _ _ _ _ h hs => ⟨⟨h.undisturbed hs, h.wins hs⟩, h.step hs⟩)
    (registered_initial files maxWatches)

/-- A connection on descriptor 5 is registered; the descriptor is closed and nobody calls
    `deleteEvent`; the next connection gets number 5, is registered, and input is reported. -/
def forgottenEntryRun : List LoopLabel :=
  [.act (.openFile 5 .pollable), .act (.newEvent 5), .act (.addEvent 0), .act (.closeFile 5),
   .act (.openFile 5 .pollable), .act (.newEvent 5), .act (.addEvent 1),
   .wait [⟨5, EPOLLIN⟩], .dispatch]

/-- **A forgotten entry gets the records**: in `forgottenEntryRun` the kernel accepts the addition
    of Event 1, and the record goes to Event 0. -/
theorem forgotten_entry_gets_the_records :
    (((liveLoop Unit).run (LiveState.initial ∅ 8) forgottenEntryRun).map fun p =>
        (p.1.2, p.2.getLast?)) = some ({0, 1}, some (some 0)) ∧
      ¬ (liveLoop Unit).Along Wins (LiveState.initial ∅ 8) forgottenEntryRun := by
  refine ⟨by decide, fun h => ?_⟩
  iterate 8 replace h := (h _ _ rfl).2
  exact absurd ((h _ _ rfl).1.serves 1 (by decide) EPOLLIN) (by decide)

end PluginsEngine
