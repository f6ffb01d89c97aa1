/-
  File:      PluginsEngine/Event/StaleDispatch.lean
  Subject:   WHO GETS THE RECORDS OF A BATCH.

  A record names its target by descriptor number only, and the registry is looked up when the
  record's turn comes. `batchLoop` is the event loop with a history of the current batch: the
  registry when the wait returned (`atWait`), the Events added since (`added`), and the
  descriptors whose present registration was made since (`fresh`). Handlers may do anything to
  Events that exist; no descriptor discipline is asked of them.

  * `historyFree` -- the history changes nothing: without it the machine is `eventLoop`;
  * `Traced` -- what ties history and registry together in every state of every run;
  * `not_stale_iff_not_fresh` -- every record goes to the Event registered when the wait returned,
    and to none added since, exactly when no record's turn finds its descriptor `fresh`;
  * `reused_descriptor_gets_stale_record` -- a handler that removes and closes descriptor 7, and
    registers the next connection, which is given number 7 again, hands it the old record.
-/
import Mathlib.Data.Finset.Basic
import PluginsEngine.Event.EventLoop

namespace PluginsEngine

open Library

variable {κ : Type}

/-! ## 1. The loop with the history of a batch -/

structure BatchState (κ : Type) extends LoopState κ where
  atWait : Finmap fun _ : Int => Option EventId
  added : Finset EventId
  fresh : Finset Int

namespace BatchState

/-- The Event a call puts into the registry: `addEvent` of a descriptor that has no entry. -/
def registers (w : World κ) : World.Act → Option EventId
  | .addEvent e => if (w.object e).eventFd ∈ w.eventPool then none else some e
  | _ => none

/-- The descriptor whose entry a call takes out of the registry, if there is one. -/
def unregisters (w : World κ) : World.Act → Option Int
  | .deleteEvent e | .removeFromLoop e => some (w.object e).eventFd
  | .deleteEventFd fd => some fd
  | _ => none

/-- A call of a handler, and its place in the history. -/
def act (s : BatchState κ) (a : World.Act) : BatchState κ :=
  let s' := { s with world := s.world.act a }
  match registers s.world a with
  | some e =>
    { s' with added := insert e s.added, fresh := insert (s.world.object e).eventFd s.fresh }
  | none =>
    match unregisters s.world a with
    | some fd => { s' with fresh := s.fresh.erase fd }
    | none => s'

end BatchState

/-- The event loop with the history of its current batch. -/
def batchLoop (κ : Type) : Machine (BatchState κ) LoopLabel (Option EventId) where
  step s
    | .act a => if a.onExisting s.world then some (s.act a, none) else none
    | .wait records =>
      some ({ s with
        pending := records, atWait := s.world.eventPool, added := ∅, fresh := ∅ }, none)
    | .dispatch =>
      match s.pending with
      | [] => none
      | r :: rest =>
        some ({ s with world := (s.world.dispatch r).1, pending := rest }, (s.world.dispatch r).2)

namespace BatchState

@[simp] theorem act_toLoopState (s : BatchState κ) (a : World.Act) :
    (s.act a).toLoopState = { s.toLoopState with world := s.world.act a } := by
  unfold act
  dsimp only
  split
  · rfl
  · split <;> rfl

/-- **The history is only looked at**: forgetting it refines `batchLoop` to `eventLoop`. -/
def historyFree :
    Refinement (batchLoop κ) (eventLoop fun (w : World κ) a => a.onExisting w) where
  inv _ := True
  abs := toLoopState
  label _ l := l
  step {s l s' o} _ hs := by
    refine ⟨trivial, ?_⟩
    cases l with
    | wait records =>
      cases hs
      rfl
    | act a =>
      simp only [batchLoop] at hs
      split at hs
      case isFalse => cases hs
      rename_i ha
      cases hs
      rw [act_toLoopState]
      exact if_pos ha
    | dispatch =>
      simp only [batchLoop] at hs
      split at hs
      · cases hs
      · rename_i r rest hr
        cases hs
        simp only [eventLoop, hr]

/-- A loop at its start, before its first wait. -/
def initial (files : Finmap fun _ : Int => FileKind) (maxWatches : Nat) : BatchState κ :=
  ⟨⟨World.initial files maxWatches, []⟩, ∅, ∅, ∅⟩

/-! ## 2. What a call does to the registry -/

/-- **The registry after a call**, whatever the call is. -/
theorem act_eventPool (w : World κ) (a : World.Act) :
    (w.act a).eventPool =
      match registers w a with
      | some e => w.eventPool.insert (w.object e).eventFd (some e)
      | none =>
        match unregisters w a with
        | some fd => w.eventPool.erase fd
        | none => w.eventPool := by
  cases a with
  | addEvent e =>
    by_cases hm : (w.object e).eventFd ∈ w.eventPool
    · simp only [registers, unregisters, if_pos hm]
      exact insertNew_of_mem hm
    · simp only [registers, if_neg hm]
      exact insertNew_of_notMem hm
  | deleteEvent e => rfl
  | deleteEventFd fd => exact w.deleteEventFd_eventPool fd
  | removeFromLoop e => exact w.deleteEventFd_eventPool _
  | openFile fd kind => rfl
  | closeFile fd => rfl
  | newEvent fd => rfl
  | modifyEventFd fd => exact w.modifyEventFd_eventPool fd
  | enableReading e b => exact World.update_eventPool _ e
  | enableWriting e b => exact World.update_eventPool _ e
  | enableErrorEvent e b => exact World.update_eventPool _ e
  | disableAll e => exact World.update_eventPool _ e

theorem next_le_act (w : World κ) (a : World.Act) : w.next ≤ (w.act a).next := by
  have changed : ∀ (e : EventId) (f : Event κ → Event κ),
      w.next ≤ ((w.setObject e f).update e).next := by
    intro e f
    rw [World.update_next, World.setObject_next]
  cases a with
  | newEvent fd => exact Nat.le_succ _
  | addEvent e => exact Nat.le_refl _
  | deleteEvent e => exact Nat.le_refl _
  | openFile fd kind => exact Nat.le_refl _
  | closeFile fd => exact Nat.le_refl _
  | deleteEventFd fd => exact Nat.le_of_eq (w.deleteEventFd_next fd).symm
  | removeFromLoop e => exact Nat.le_of_eq (w.deleteEventFd_next _).symm
  | modifyEventFd fd => exact Nat.le_of_eq (w.modifyEventFd_next fd).symm
  | enableReading e b => exact changed e _
  | enableWriting e b => exact changed e _
  | enableErrorEvent e b => exact changed e _
  | disableAll e => exact changed e _

/-- An Event keeps its descriptor. -/
theorem act_eventFd (w : World κ) (a : World.Act) {e : EventId} (he : e < w.next) :
    ((w.act a).object e).eventFd = (w.object e).eventFd := by
  have changed : ∀ (e' : EventId) (f : Event κ → Event κ), (∀ x, (f x).eventFd = x.eventFd) →
      (((w.setObject e' f).update e').object e).eventFd = (w.object e).eventFd := by
    intro e' f hf
    rw [World.update_object]
    by_cases h : e = e'
    · subst h
      rw [World.setObject_self, hf]
    · rw [World.setObject_of_ne w e' h]
  cases a with
  | newEvent fd => exact congrArg Event.eventFd (World.newEvent_of_lt w he fd)
  | deleteEventFd fd => exact congrArg (fun o => (o e).eventFd) (w.deleteEventFd_object fd)
  | removeFromLoop e' => exact congrArg (fun o => (o e).eventFd) (w.deleteEventFd_object _)
  | modifyEventFd fd => exact congrArg (fun o => (o e).eventFd) (w.modifyEventFd_object fd)
  | enableReading e' b => exact changed e' _ fun _ => rfl
  | enableWriting e' b => exact changed e' _ fun _ => rfl
  | enableErrorEvent e' b => exact changed e' _ fun _ => rfl
  | disableAll e' => exact changed e' _ fun _ => rfl
  | addEvent e' => rfl
  | deleteEvent e' => rfl
  | openFile fd kind => rfl
  | closeFile fd => rfl

theorem registers_lt {w : World κ} {a : World.Act} {e : EventId} (ha : a.onExisting w)
    (h : registers w a = some e) : e < w.next := by
  cases a with
  | addEvent e' =>
    simp only [registers] at h
    split at h
    · cases h
    · cases h
      exact ha
  | _ => cases h

/-! ## 3. What the history says about the registry -/

/-- **History and registry**: an entry is an Event of that descriptor; one under a `fresh`
    descriptor was added in this batch, any other one is the entry the wait found. -/
structure Traced (s : BatchState κ) : Prop where
  entry : ∀ fd v, s.world.eventPool.lookup fd = some v →
    ∃ e, v = some e ∧ e < s.world.next ∧ (s.world.object e).eventFd = fd ∧
      (fd ∈ s.fresh → e ∈ s.added) ∧
      (fd ∉ s.fresh → s.atWait.lookup fd = some (some e) ∧ e ∉ s.added)
  fresh_mem : ∀ fd ∈ s.fresh, fd ∈ s.world.eventPool
  added_lt : ∀ e ∈ s.added, e < s.world.next

namespace Traced

variable {s : BatchState κ}

/-- A call that registers nothing and unregisters nothing. -/
theorem keep (h : s.Traced) {s' : BatchState κ}
    (ho : ∀ e, e < s.world.next → (s'.world.object e).eventFd = (s.world.object e).eventFd)
    (hn : s.world.next ≤ s'.world.next) (hp : s'.world.eventPool = s.world.eventPool)
    (hw : s'.atWait = s.atWait) (ha : s'.added = s.added) (hf : s'.fresh = s.fresh) :
    s'.Traced where
  entry fd v hv := by
    rw [hp] at hv
    rw [hw, ha, hf]
    obtain ⟨e, he, hlt, hfd, hrest⟩ := h.entry fd v hv
    exact ⟨e, he, Nat.lt_of_lt_of_le hlt hn, (ho e hlt).trans hfd, hrest⟩
  fresh_mem fd hfd := by
    rw [hp]
    rw [hf] at hfd
    exact h.fresh_mem fd hfd
  added_lt e he := by
    rw [ha] at he
    exact Nat.lt_of_lt_of_le (h.added_lt e he) hn

/-- A registration: its descriptor is fresh from now on. -/
theorem register (h : s.Traced) {s' : BatchState κ} {e : EventId} (hlt : e < s.world.next)
    (ho : ∀ e, e < s.world.next → (s'.world.object e).eventFd = (s.world.object e).eventFd)
    (hn : s.world.next ≤ s'.world.next)
    (hp : s'.world.eventPool = s.world.eventPool.insert (s.world.object e).eventFd (some e))
    (hw : s'.atWait = s.atWait) (ha : s'.added = insert e s.added)
    (hf : s'.fresh = insert (s.world.object e).eventFd s.fresh) : s'.Traced where
  entry fd v hv := by
    rw [hp] at hv
    rw [hw, ha, hf]
    by_cases hfd : fd = (s.world.object e).eventFd
    · subst hfd
      rw [Finmap.lookup_insert] at hv
      cases hv
      exact ⟨e, rfl, Nat.lt_of_lt_of_le hlt hn, ho e hlt, fun _ => Finset.mem_insert_self _ _,
        fun hno => absurd (Finset.mem_insert_self _ _) hno⟩
    · rw [Finmap.lookup_insert_of_ne _ hfd] at hv
      obtain ⟨e', he', hlt', hfd', hfresh, hold⟩ := h.entry fd v hv
      -- another descriptor, hence another Event
      have hne : e' ≠ e := fun hee => hfd (by rw [← hfd', hee])
      refine ⟨e', he', Nat.lt_of_lt_of_le hlt' hn, (ho e' hlt').trans hfd', ?_, ?_⟩
      · intro hin
        exact Finset.mem_insert_of_mem (hfresh (Finset.mem_of_mem_insert_of_ne hin hfd))
      · intro hout
        obtain ⟨hat, hnot⟩ := hold fun hin => hout (Finset.mem_insert_of_mem hin)
        exact ⟨hat, fun hin => hnot (Finset.mem_of_mem_insert_of_ne hin hne)⟩
  fresh_mem fd hfd := by
    rw [hf] at hfd
    rw [hp, Finmap.mem_insert]
    rcases Finset.mem_insert.mp hfd with heq | hin
    · exact Or.inl heq
    · exact Or.inr (h.fresh_mem fd hin)
  added_lt e' he' := by
    rw [ha] at he'
    rcases Finset.mem_insert.mp he' with rfl | hin
    · exact Nat.lt_of_lt_of_le hlt hn
    · exact Nat.lt_of_lt_of_le (h.added_lt e' hin) hn

/-- A removal: nothing is registered under its descriptor. -/
theorem unregister (h : s.Traced) {s' : BatchState κ} {fd : Int}
    (ho : ∀ e, e < s.world.next → (s'.world.object e).eventFd = (s.world.object e).eventFd)
    (hn : s.world.next ≤ s'.world.next) (hp : s'.world.eventPool = s.world.eventPool.erase fd)
    (hw : s'.atWait = s.atWait) (ha : s'.added = s.added) (hf : s'.fresh = s.fresh.erase fd) :
    s'.Traced where
  entry fd' v hv := by
    rw [hp] at hv
    rw [hw, ha, hf]
    have hne : fd' ≠ fd := by
      rintro rfl
      rw [Finmap.lookup_erase] at hv
      cases hv
    rw [Finmap.lookup_erase_ne hne] at hv
    obtain ⟨e, he, hlt, hfd, hfresh, hold⟩ := h.entry fd' v hv
    exact ⟨e, he, Nat.lt_of_lt_of_le hlt hn, (ho e hlt).trans hfd,
      fun hin => hfresh (Finset.mem_of_mem_erase hin),
      fun hout => hold fun hin => hout (Finset.mem_erase.mpr ⟨hne, hin⟩)⟩
  fresh_mem fd' hfd' := by
    rw [hf] at hfd'
    obtain ⟨hne, hin⟩ := Finset.mem_erase.mp hfd'
    rw [hp, Finmap.mem_erase]
    exact ⟨hne, h.fresh_mem fd' hin⟩
  added_lt e he := by
    rw [ha] at he
    exact Nat.lt_of_lt_of_le (h.added_lt e he) hn

theorem act (h : s.Traced) {a : World.Act} (ha : a.onExisting s.world) : (s.act a).Traced := by
  have hp := act_eventPool s.world a
  have hn := next_le_act s.world a
  have ho := fun e (he : e < s.world.next) => act_eventFd s.world a he
  cases hr : registers s.world a with
  | some e =>
    simp only [hr] at hp
    have hs : s.act a = { s with
        world := s.world.act a, added := insert e s.added,
        fresh := insert (s.world.object e).eventFd s.fresh } := by
      simp only [BatchState.act, hr]
    rw [hs]
    exact h.register (registers_lt ha hr) ho hn hp rfl rfl rfl
  | none =>
    cases hu : unregisters s.world a with
    | some fd =>
      simp only [hr, hu] at hp
      have hs : s.act a = { s with world := s.world.act a, fresh := s.fresh.erase fd } := by
        simp only [BatchState.act, hr, hu]
      rw [hs]
      exact h.unregister ho hn hp rfl rfl rfl
    | none =>
      simp only [hr, hu] at hp
      have hs : s.act a = { s with world := s.world.act a } := by
        simp only [BatchState.act, hr, hu]
      rw [hs]
      exact h.keep ho hn hp rfl rfl rfl

theorem lookup_ne_null (h : s.Traced) (fd : Int) : s.world.eventPool.lookup fd ≠ some none := by
  intro hv
  obtain ⟨e, he, -⟩ := h.entry fd _ hv
  cases he

theorem step {l : LoopLabel} {s' : BatchState κ} {o : Option EventId} (h : s.Traced)
    (hs : (batchLoop κ).step s l = some (s', o)) : s'.Traced := by
  cases l with
  | act a =>
    simp only [batchLoop] at hs
    split at hs
    case isFalse => cases hs
    rename_i ha
    cases hs
    exact h.act ha
  | wait records =>
    cases hs
    refine ⟨fun fd v hv => ?_, fun fd hfd => absurd hfd (Finset.notMem_empty _),
      fun e he => absurd he (Finset.notMem_empty _)⟩
    obtain ⟨e, rfl, hlt, hfd, -⟩ := h.entry fd v hv
    exact ⟨e, rfl, hlt, hfd, fun hin => absurd hin (Finset.notMem_empty _),
      fun _ => ⟨hv, Finset.notMem_empty _⟩⟩
  | dispatch =>
    simp only [batchLoop] at hs
    split at hs
    · cases hs
    · rename_i r rest hr
      cases hs
      exact h.keep (fun e _ => by rw [World.dispatch_object])
        (Nat.le_of_eq (World.dispatch_next _ r).symm)
        (World.dispatch_eventPool _ r (h.lookup_ne_null r.fd)) rfl rfl rfl

end Traced

theorem traced_initial (files : Finmap fun _ : Int => FileKind) (maxWatches : Nat) :
    (initial files maxWatches : BatchState κ).Traced where
  entry fd v hv := by
    have hnone : (∅ : Finmap fun _ : Int => Option EventId).lookup fd = none :=
      Finmap.lookup_empty fd
    exact absurd (hnone.symm.trans hv) nofun
  fresh_mem fd hfd := absurd hfd (Finset.notMem_empty _)
  added_lt e he := absurd he (Finset.notMem_empty _)

/-! ## 4. Stale records -/

/-- The record whose turn it is goes to the Event that the wait found under its descriptor, and
    to none added since. -/
def NotStale (s : BatchState κ) (l : LoopLabel) (_ : BatchState κ) (o : Option EventId) : Prop :=
  l = .dispatch → ∀ r ∈ s.pending.head?, ∀ e ∈ o,
    s.atWait.lookup r.fd = some (some e) ∧ e ∉ s.added

/-- The descriptor of the record whose turn it is carries no registration made since the wait. -/
def NotFresh (s : BatchState κ) (l : LoopLabel) (_ : BatchState κ) (_ : Option EventId) : Prop :=
  l = .dispatch → ∀ r ∈ s.pending.head?, r.fd ∉ s.fresh

theorem Traced.notStale_iff {s s' : BatchState κ} {l : LoopLabel} {o : Option EventId}
    (h : s.Traced) (hs : (batchLoop κ).step s l = some (s', o)) :
    NotStale s l s' o ↔ NotFresh s l s' o := by
  cases l with
  | act a => exact ⟨fun _ => nofun, fun _ => nofun⟩
  | wait records => exact ⟨fun _ => nofun, fun _ => nofun⟩
  | dispatch =>
    simp only [batchLoop] at hs
    split at hs
    · cases hs
    rename_i r rest hr
    cases hs
    rw [NotStale, NotFresh, hr, World.dispatch_snd]
    constructor
    · rintro hstale - r' hr' hfresh
      cases hr'
      -- a fresh descriptor is registered, and its Event was added in this batch
      obtain ⟨v, hv⟩ := Finmap.mem_iff.mp (h.fresh_mem r.fd hfresh)
      obtain ⟨e, rfl, -, -, hadded, -⟩ := h.entry r.fd v hv
      have hgets : e ∈ (s.world.eventPool.lookup r.fd).join := by rw [hv]; exact rfl
      exact (hstale rfl r rfl e hgets).2 (hadded hfresh)
    · rintro hfresh - r' hr' e he
      cases hr'
      cases hv : s.world.eventPool.lookup r.fd with
      | none =>
        rw [hv] at he
        cases he
      | some v =>
        obtain ⟨e', rfl, -, -, -, hold⟩ := h.entry r.fd v hv
        rw [hv] at he
        cases he
        exact hold (hfresh rfl r rfl)

/-- **Who gets the records of a batch.** For every run of a loop from its start, with any handlers
    and any batches: every record goes to the Event registered for its descriptor when the wait
    returned, and to none added during the batch, if and only if no record's turn finds its
    descriptor registered during the batch. -/
theorem not_stale_iff_not_fresh (files : Finmap fun _ : Int => FileKind) (maxWatches : Nat)
    (ls : List LoopLabel) :
    (batchLoop κ).Along NotStale (initial files maxWatches) ls ↔
      (batchLoop κ).Along NotFresh (initial files maxWatches) ls :=
  Machine.along_iff (I := Traced)
    (fun _ _ _ _ h hs => ⟨h.notStale_iff hs, fun _ => h.step hs⟩)
    (traced_initial files maxWatches)

/-- Descriptors 5 and 7 are registered and both reported. The handler of 5 drops the connection
    on 7 and closes it; the next connection gets number 7 again and is registered. -/
def reuseRun : List LoopLabel :=
  [.act (.openFile 5 .pollable), .act (.newEvent 5), .act (.addEvent 0),
   .act (.openFile 7 .pollable), .act (.newEvent 7), .act (.addEvent 1),
   .wait [⟨5, EPOLLIN⟩, ⟨7, EPOLLIN⟩], .dispatch,
   .act (.removeFromLoop 1), .act (.closeFile 7),
   .act (.openFile 7 .pollable), .act (.newEvent 7), .act (.addEvent 2), .dispatch]

/-- **A reused descriptor gets a stale record**: in `reuseRun` Event 2, added during the batch,
    gets the record the wait returned for Event 1. -/
theorem reused_descriptor_gets_stale_record :
    (((batchLoop Unit).run (initial ∅ 8) reuseRun).map fun p => p.2.getLast?) =
        some (some (some 2)) ∧
      ¬ (batchLoop Unit).Along NotStale (initial ∅ 8) reuseRun := by
  refine ⟨by decide, fun h => ?_⟩
  iterate 13 replace h := (h _ _ rfl).2
  exact absurd ((h _ _ rfl).1 rfl _ rfl 2 rfl) (by decide)

end BatchState

end PluginsEngine
