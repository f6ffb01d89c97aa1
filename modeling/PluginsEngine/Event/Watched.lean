/-
  File:      PluginsEngine/Event/Watched.lean
  Subject:   DESCRIPTORS THAT ARE WATCHED FOR INPUT.

  The eventfd of a callback queue, the timerfd of a timer queue, the signalfd of a signal monitor
  and the socket of an acceptor are each one descriptor with one Event, of which the read callback
  is set and nothing but input is asked for. Their constructors call the loop in two orders.

  * `Keyed` -- every entry of the registry is a constructed Event of its descriptor;
  * `Watches` -- registry, Event and kernel agree that input on the descriptor runs the callback;
  * `addReader`, `addReaderLate` -- the calls of the constructors, and `watches_addReader`,
    `watches_addReaderLate`, what they leave where the kernel accepts the descriptor;
  * `Watches.act`, `Watches.dispatch` -- kept by everything that spares the descriptor and the
    Event;
  * `Watches.report` -- a report of input runs the callback, and nothing else.
-/
import PluginsEngine.Event.Registration
import PluginsEngine.Event.StaleDispatch

namespace PluginsEngine

open Library

variable {κ : Type}

/-! ## 1. Registries whose entries are Events of their descriptors -/

structure World.Keyed (w : World κ) : Prop where
  entry : ∀ fd v, w.eventPool.lookup fd = some v →
    ∃ e, v = some e ∧ e < w.next ∧ (w.object e).eventFd = fd

namespace World.Keyed

variable {w w' : World κ}

theorem initial (files : Finmap fun _ : Int => FileKind) (maxWatches : Nat) :
    (World.initial files maxWatches : World κ).Keyed where
  entry fd v h := by
    rw [World.initial, Finmap.lookup_empty] at h
    cases h

theorem lookup_ne_null (h : w.Keyed) (fd : Int) : w.eventPool.lookup fd ≠ some none := by
  intro hnull
  obtain ⟨_, he, _⟩ := h.entry fd _ hnull
  cases he

/-- No entry is new, and Events keep their descriptors. -/
theorem keep (h : w.Keyed) (hn : w.next ≤ w'.next)
    (ho : ∀ e, e < w.next → (w'.object e).eventFd = (w.object e).eventFd)
    (hp : ∀ fd v, w'.eventPool.lookup fd = some v → w.eventPool.lookup fd = some v) :
    w'.Keyed where
  entry fd v hv := by
    obtain ⟨e, he, hlt, hfd⟩ := h.entry fd v (hp fd v hv)
    exact ⟨e, he, Nat.lt_of_lt_of_le hlt hn, (ho e hlt).trans hfd⟩

/-- An object is changed, but for its descriptor. -/
theorem setObject (h : w.Keyed) (e : EventId) {f : Event κ → Event κ}
    (hf : (f (w.object e)).eventFd = (w.object e).eventFd) : (w.setObject e f).Keyed := by
  refine h.keep (Nat.le_refl _) (fun e' _ => ?_) fun _ _ => id
  by_cases he : e' = e
  · rw [he, World.setObject_self, hf]
  · rw [World.setObject_of_ne _ _ he]

/-- Every call on Events that exist. -/
theorem act (h : w.Keyed) {a : World.Act} (ha : a.onExisting w) : (w.act a).Keyed := by
  have hn := BatchState.next_le_act w a
  have ho : ∀ e, e < w.next → ((w.act a).object e).eventFd = (w.object e).eventFd :=
    fun _ he => BatchState.act_eventFd w a he
  have hpool := BatchState.act_eventPool w a
  cases hreg : BatchState.registers w a with
  | some e =>
    rw [hreg] at hpool
    have hlt := BatchState.registers_lt ha hreg
    refine ⟨fun fd v hv => ?_⟩
    rw [hpool] at hv
    by_cases hfd : fd = (w.object e).eventFd
    · rw [hfd, Finmap.lookup_insert] at hv
      exact ⟨e, (Option.some.inj hv).symm, Nat.lt_of_lt_of_le hlt hn, (ho e hlt).trans hfd.symm⟩
    · rw [Finmap.lookup_insert_of_ne _ hfd] at hv
      obtain ⟨e', he, hlt', hfd'⟩ := h.entry fd v hv
      exact ⟨e', he, Nat.lt_of_lt_of_le hlt' hn, (ho e' hlt').trans hfd'⟩
  | none =>
    rw [hreg] at hpool
    refine h.keep hn ho fun fd v hv => ?_
    rw [hpool] at hv
    cases hun : BatchState.unregisters w a with
    | none =>
      rw [hun] at hv
      exact hv
    | some fd' =>
      rw [hun] at hv
      by_cases hfd : fd = fd'
      · rw [hfd, Finmap.lookup_erase] at hv
        cases hv
      · rw [Finmap.lookup_erase_ne hfd] at hv
        exact hv

theorem dispatch (h : w.Keyed) (r : EpollEvent) : (w.dispatch r).1.Keyed := by
  refine h.keep (Nat.le_of_eq (w.dispatch_next r).symm) (fun e _ => ?_) fun fd v hv => ?_
  · rw [World.dispatch_object]
  · rw [World.dispatch_eventPool w r (h.lookup_ne_null r.fd)] at hv
    exact hv

end World.Keyed

/-! ## 2. Watched descriptors -/

/-- The Event of such a descriptor. -/
def Event.reader (fd : Int) (callback : κ) : Event κ :=
  { Event.new fd with events := Event.readEventFlag, readCallback := some callback }

/-- A new Event becomes one by enabling input and setting the callback, in either order. -/
theorem Event.withFlag_reader (fd : Int) (callback : κ) :
    Event.withFlag Event.readEventFlag true
        { Event.new fd with readCallback := some callback } = Event.reader fd callback ∧
      { Event.withFlag Event.readEventFlag true (Event.new fd) with
        readCallback := some callback } = Event.reader fd callback := by
  have hflag : (Event.new fd : Event κ).events ||| Event.readEventFlag = Event.readEventFlag :=
    UInt32.zero_or
  unfold Event.withFlag Event.reader
  rw [if_pos rfl]
  dsimp only
  rw [hflag]
  exact ⟨rfl, rfl⟩

/-- A report of input, and of nothing else, runs the callback once. -/
theorem Event.handle_reader (fd : Int) (callback : κ) :
    (Event.reader fd callback).handle EPOLLIN = [callback] := by
  have herr : ¬ Mask.has EPOLLIN EPOLLERR := by decide
  have hhup : ¬ (Mask.has EPOLLIN EPOLLHUP ∧ ¬ Mask.has EPOLLIN EPOLLIN) := by decide
  have hin : Mask.has EPOLLIN (EPOLLIN ||| EPOLLPRI ||| EPOLLRDHUP) := by decide
  have hout : ¬ Mask.has EPOLLIN EPOLLOUT := by decide
  rw [Event.handle, if_neg herr, if_neg hhup, if_pos hin, if_neg hout]
  rfl

/-- **Input on `fd` runs `callback`**: the registry has the Event `e` under `fd`, that is a reader
    of `fd`, and the kernel watches `fd` for input. -/
structure World.Watches (w : World κ) (fd : Int) (e : EventId) (callback : κ) : Prop where
  registered : w.eventPool.lookup fd = some (some e)
  object : w.object e = Event.reader fd callback
  interest : w.kernel.interest.lookup fd = some Event.readEventFlag

/-- What others have to spare: they do not close `fd`, nor take its entry out, nor change the mask
    of `e`. -/
def World.Act.spares (w : World κ) (fd : Int) (e : EventId) : World.Act → Prop
  | .closeFile fd' | .deleteEventFd fd' => fd' ≠ fd
  | .deleteEvent e' | .removeFromLoop e' => (w.object e').eventFd ≠ fd
  | .enableReading e' _ | .enableWriting e' _ | .enableErrorEvent e' _ | .disableAll e' => e' ≠ e
  | .openFile _ _ | .newEvent _ | .addEvent _ | .modifyEventFd _ => True

instance World.Act.decidableSpares (w : World κ) (fd : Int) (e : EventId) :
    (a : World.Act) → Decidable (a.spares w fd e)
  | .closeFile fd' | .deleteEventFd fd' => inferInstanceAs (Decidable (fd' ≠ fd))
  | .deleteEvent e' | .removeFromLoop e' =>
    inferInstanceAs (Decidable ((w.object e').eventFd ≠ fd))
  | .enableReading e' _ | .enableWriting e' _ | .enableErrorEvent e' _ | .disableAll e' =>
    inferInstanceAs (Decidable (e' ≠ e))
  | .openFile _ _ | .newEvent _ | .addEvent _ | .modifyEventFd _ =>
    inferInstanceAs (Decidable True)

namespace World.Watches

variable {w : World κ} {fd : Int} {e : EventId} {callback : κ}

theorem lt_next (h : w.Watches fd e callback) (hk : w.Keyed) : e < w.next := by
  obtain ⟨e', he, hlt, -⟩ := hk.entry fd _ h.registered
  cases he
  exact hlt

/-- **A report of input runs the callback**, and leaves the loop as it is. -/
theorem report (h : w.Watches fd e callback) :
    w.dispatch ⟨fd, EPOLLIN⟩ = (w, some e) ∧ (w.object e).handle EPOLLIN = [callback] := by
  refine ⟨w.dispatch_of_registered (r := ⟨fd, EPOLLIN⟩) h.registered, ?_⟩
  rw [h.object]
  exact Event.handle_reader fd callback

/-- **The dispatch of any record**: it is the report of input, or it is one of another Event. -/
theorem dispatch_cases (h : w.Watches fd e callback) (hk : w.Keyed) {r : EpollEvent}
    (hinput : r.fd = fd → r.events = EPOLLIN) :
    (r = ⟨fd, EPOLLIN⟩ ∧ w.dispatch r = (w, some e) ∧
        (w.object e).handle r.events = [callback]) ∨
      (r.fd ≠ fd ∧ (w.dispatch r).2 ≠ some e) := by
  by_cases hfd : r.fd = fd
  · have hr : r = ⟨fd, EPOLLIN⟩ := by
      cases r
      subst hfd
      exact congrArg (EpollEvent.mk _) (hinput rfl)
    subst hr
    exact Or.inl ⟨rfl, h.report⟩
  · -- another entry of the registry: its Event is another one
    refine Or.inr ⟨hfd, ?_⟩
    rw [World.dispatch_snd]
    intro heq
    cases hl : w.eventPool.lookup r.fd with
    | none =>
      rw [hl] at heq
      cases heq
    | some v =>
      obtain ⟨e', rfl, -, hfd'⟩ := hk.entry r.fd v hl
      rw [hl] at heq
      cases heq
      rw [h.object] at hfd'
      exact hfd hfd'.symm

theorem setObject (h : w.Watches fd e callback) {e' : EventId} (hne : e' ≠ e)
    (f : Event κ → Event κ) : (w.setObject e' f).Watches fd e callback where
  registered := h.registered
  object := by rw [World.setObject_of_ne _ _ (Ne.symm hne), h.object]
  interest := h.interest

/-- EPOLL_CTL_MOD of the descriptor sends the mask the kernel has already. -/
theorem modifyEventFd (h : w.Watches fd e callback) (hk : w.Keyed) (fd' : Int) :
    (w.modifyEventFd fd').Watches fd e callback where
  registered := by
    rw [World.modifyEventFd_eventPool]
    exact h.registered
  object := by
    rw [World.modifyEventFd_object]
    exact h.object
  interest := by
    unfold World.modifyEventFd
    split
    · rename_i e' hlookup
      obtain ⟨e'', he, -, hfd⟩ := hk.entry fd' _ hlookup
      cases he
      show (w.kernel.epollCtl .mod (w.object e').eventFd (w.object e').events).1.interest.lookup fd
        = _
      rw [w.kernel.mod_interest, hfd]
      split
      · by_cases hsame : fd = fd'
        · rw [← hsame, h.registered] at hlookup
          cases hlookup
          rw [← hsame, Finmap.lookup_insert, h.object]
          rfl
        · rw [Finmap.lookup_insert_of_ne _ hsame]
          exact h.interest
      · exact h.interest
    · exact h.interest

theorem deleteEventFd (h : w.Watches fd e callback) {fd' : Int} (hne : fd' ≠ fd) :
    (w.deleteEventFd fd').Watches fd e callback where
  registered := by
    rw [World.deleteEventFd_eventPool, Finmap.lookup_erase_ne (Ne.symm hne)]
    exact h.registered
  object := by
    rw [World.deleteEventFd_object]
    exact h.object
  interest := by
    unfold World.deleteEventFd
    split
    · show (w.kernel.epollCtl .del fd' 0).1.interest.lookup fd = _
      rw [w.kernel.del_interest, Finmap.lookup_erase_ne (Ne.symm hne)]
      exact h.interest
    · exact h.interest

/-- An addition of anything: the descriptor has its entry, and the kernel rejects a second one. -/
theorem addEvent (h : w.Watches fd e callback) (e' : EventId) :
    (w.addEvent e').Watches fd e callback where
  registered := lookup_insertNew_of_some h.registered
  object := h.object
  interest := by
    show (w.kernel.epollCtl .add (w.object e').eventFd (w.object e').events).1.interest.lookup fd
      = _
    rw [w.kernel.add_interest]
    split
    · rename_i haccepts
      have hne : fd ≠ (w.object e').eventFd := by
        intro heq
        rw [← heq] at haccepts
        exact haccepts.2.1 (Finmap.mem_of_lookup_eq_some h.interest)
      rw [Finmap.lookup_insert_of_ne _ hne]
      exact h.interest
    · exact h.interest

/-- **Calls that spare the descriptor and its Event.** -/
theorem act (h : w.Watches fd e callback) (hk : w.Keyed) {a : World.Act}
    (ha : a.spares w fd e) : (w.act a).Watches fd e callback := by
  have changed : ∀ e' (f : Event κ → Event κ), (∀ x, (f x).eventFd = x.eventFd) → e' ≠ e →
      ((w.setObject e' f).update e').Watches fd e callback := by
    intro e' f hf hne
    exact (h.setObject hne f).modifyEventFd (hk.setObject e' (hf _)) _
  cases a with
  | openFile fd' kind => exact ⟨h.registered, h.object, h.interest⟩
  | closeFile fd' =>
    refine ⟨h.registered, h.object, ?_⟩
    show (w.kernel.interest.erase fd').lookup fd = _
    rw [Finmap.lookup_erase_ne (Ne.symm ha)]
    exact h.interest
  | newEvent fd' =>
    refine ⟨h.registered, ?_, h.interest⟩
    show (w.newEvent fd').2.object e = _
    rw [World.newEvent_of_lt w (h.lt_next hk), h.object]
  | addEvent e' => exact h.addEvent e'
  | deleteEvent e' =>
    refine ⟨?_, h.object, ?_⟩
    · show (w.eventPool.erase (w.object e').eventFd).lookup fd = _
      rw [Finmap.lookup_erase_ne (Ne.symm ha)]
      exact h.registered
    · show (w.kernel.epollCtl .del (w.object e').eventFd _).1.interest.lookup fd = _
      rw [w.kernel.del_interest, Finmap.lookup_erase_ne (Ne.symm ha)]
      exact h.interest
  | deleteEventFd fd' => exact h.deleteEventFd ha
  | removeFromLoop e' => exact h.deleteEventFd ha
  | modifyEventFd fd' => exact h.modifyEventFd hk fd'
  | enableReading e' b => exact changed e' _ (fun _ => rfl) ha
  | enableWriting e' b => exact changed e' _ (fun _ => rfl) ha
  | enableErrorEvent e' b => exact changed e' _ (fun _ => rfl) ha
  | disableAll e' => exact changed e' _ (fun _ => rfl) ha

/-- The entry that a dispatch takes out is one without an Event. -/
theorem dispatch (h : w.Watches fd e callback) (hk : w.Keyed) (r : EpollEvent) :
    (w.dispatch r).1.Watches fd e callback := by
  by_cases hm : r.fd ∈ w.eventPool
  · obtain ⟨v, hv⟩ := Finmap.mem_iff.mp hm
    obtain ⟨e', rfl, -, -⟩ := hk.entry r.fd v hv
    rw [w.dispatch_of_registered hv]
    exact h
  · have hne : r.fd ≠ fd := by
      intro heq
      rw [heq] at hm
      exact hm (Finmap.mem_of_lookup_eq_some h.registered)
    have hnull : ({ w with eventPool := insertNew r.fd none w.eventPool } : World κ).Watches fd e
        callback := ⟨lookup_insertNew_of_some h.registered, h.object, h.interest⟩
    have hlookup : (insertNew r.fd (none : Option EventId) w.eventPool).lookup r.fd =
        some none := by
      rw [insertNew_of_notMem hm, Finmap.lookup_insert]
    simp only [World.dispatch, hlookup]
    exact hnull.deleteEventFd hne

end World.Watches

/-! ## 3. The constructors -/

namespace World

/-- The Event is added, its callback is set, and it is enabled: the constructors of `TimerQueue`
    and `SignalMonitor`. -/
def addReader (w : World κ) (fd : Int) (callback : κ) : EventId × World κ :=
  let (event, w) := w.newEvent fd
  let w := w.addEvent event
  let w := w.setReadCallback event callback
  (event, w.enableReading event true)

/-- The Event is added and enabled before its callback is set: the constructor of `EventFD`. -/
def addReaderLate (w : World κ) (fd : Int) (callback : κ) : EventId × World κ :=
  let (event, w) := w.newEvent fd
  let w := w.addEvent event
  let w := w.enableReading event true
  (event, w.setReadCallback event callback)

variable (w : World κ) (fd : Int) (callback : κ)

/-- A new Event that is registered, and not enabled yet. -/
theorem lookup_added (hfd : fd ∉ w.eventPool) :
    ((w.newEvent fd).2.addEvent w.next).eventPool.lookup fd = some (some w.next) ∧
      ((w.newEvent fd).2.addEvent w.next).object w.next = Event.new fd := by
  have hnew : (w.newEvent fd).2.object w.next = Event.new fd := w.newEvent_self fd
  refine ⟨?_, hnew⟩
  show (insertNew ((w.newEvent fd).2.object w.next).eventFd _ _).lookup fd = _
  rw [hnew]
  show (insertNew fd _ w.eventPool).lookup fd = _
  rw [insertNew_of_notMem hfd, Finmap.lookup_insert]

/-- The kernel watches it exactly if it accepts it. -/
theorem interest_added :
    ((w.newEvent fd).2.addEvent w.next).kernel.interest =
      if w.kernel.accepts fd then w.kernel.interest.insert fd Event.noneEventFlag
      else w.kernel.interest := by
  have hnew : (w.newEvent fd).2.object w.next = Event.new fd := w.newEvent_self fd
  show (w.kernel.epollCtl .add ((w.newEvent fd).2.object w.next).eventFd
    ((w.newEvent fd).2.object w.next).events).1.interest = _
  rw [hnew]
  exact w.kernel.add_interest fd _

/-- **Enabling input** of a registered Event whose mask is empty. -/
theorem enableReading_interest {w : World κ} {fd : Int} {e : EventId}
    (hlookup : w.eventPool.lookup fd = some (some e)) (hfd : (w.object e).eventFd = fd)
    (hmask : (w.object e).events = Event.noneEventFlag) :
    (w.enableReading e true).kernel.interest =
      if fd ∈ w.kernel.interest then w.kernel.interest.insert fd Event.readEventFlag
      else w.kernel.interest := by
  have hself : (w.setObject e (Event.withFlag Event.readEventFlag true)).object e =
      (w.object e).withFlag Event.readEventFlag true := World.setObject_self _ _ _
  have hflag : ((w.object e).withFlag Event.readEventFlag true).events = Event.readEventFlag := by
    unfold Event.withFlag
    rw [if_pos rfl, hmask]
    exact UInt32.zero_or
  unfold enableReading enableFlag update modifyEventFd
  rw [hself, Event.withFlag_eventFd, hfd, World.setObject_eventPool, hlookup]
  show (w.kernel.epollCtl .mod ((w.setObject e _).object e).eventFd
    ((w.setObject e _).object e).events).1.interest = _
  rw [hself, Event.withFlag_eventFd, hfd, hflag]
  exact w.kernel.mod_interest fd _

/-- What both orders leave. -/
structure ReaderAdded (w : World κ) (fd : Int) (callback : κ) (e : EventId) (w' : World κ) :
    Prop where
  id_eq : e = w.next
  next : w'.next = w.next + 1
  object : w'.object e = Event.reader fd callback
  registered : w'.eventPool.lookup fd = some (some e)
  interest : w'.kernel.interest =
    if w.kernel.accepts fd then w.kernel.interest.insert fd Event.readEventFlag
    else w.kernel.interest

/-- The kernel after the addition and the enabling of a new reader. -/
theorem interest_enabled (hfd : fd ∉ w.kernel.interest) {m : Finmap fun _ : Int => Mask}
    (hm : m = if w.kernel.accepts fd then w.kernel.interest.insert fd Event.noneEventFlag
      else w.kernel.interest) :
    (if fd ∈ m then m.insert fd Event.readEventFlag else m) =
      if w.kernel.accepts fd then w.kernel.interest.insert fd Event.readEventFlag
      else w.kernel.interest := by
  by_cases ha : w.kernel.accepts fd
  · rw [if_pos ha] at hm ⊢
    rw [hm, if_pos (Finmap.mem_insert.mpr (Or.inl rfl))]
    exact Finmap.insert_insert _
  · rw [if_neg ha] at hm ⊢
    rw [hm, if_neg hfd]

theorem addReader_added (hpool : fd ∉ w.eventPool) (hfd : fd ∉ w.kernel.interest) :
    w.ReaderAdded fd callback (w.addReader fd callback).1 (w.addReader fd callback).2 := by
  obtain ⟨hlookup, hobject⟩ := w.lookup_added fd hpool
  refine ⟨rfl, ?_, ?_, ?_, ?_⟩
  · simp only [addReader, enableReading, enableFlag, update_next, setObject_next,
      setReadCallback]
    rfl
  · simp only [addReader, enableReading, enableFlag, update_object, setObject_self,
      setReadCallback, newEvent_fst, addEvent_object, newEvent_self]
    exact (Event.withFlag_reader fd callback).1
  · simp only [addReader, enableReading, enableFlag, update_eventPool, setObject_eventPool,
      setReadCallback]
    exact hlookup
  · have hself : (((w.newEvent fd).2.addEvent w.next).setReadCallback w.next callback).object
        w.next = { Event.new fd with readCallback := some callback } := by
      rw [setReadCallback, setObject_self, hobject]
    have henabled := enableReading_interest (w := ((w.newEvent fd).2.addEvent
      w.next).setReadCallback w.next callback) (e := w.next) hlookup
      (by rw [hself]; rfl) (by rw [hself]; rfl)
    exact henabled.trans (interest_enabled w fd hfd (w.interest_added fd))

theorem addReaderLate_added (hpool : fd ∉ w.eventPool) (hfd : fd ∉ w.kernel.interest) :
    w.ReaderAdded fd callback (w.addReaderLate fd callback).1 (w.addReaderLate fd callback).2 := by
  obtain ⟨hlookup, hobject⟩ := w.lookup_added fd hpool
  refine ⟨rfl, ?_, ?_, ?_, ?_⟩
  · simp only [addReaderLate, enableReading, enableFlag, update_next, setObject_next,
      setReadCallback]
    rfl
  · simp only [addReaderLate, enableReading, enableFlag, update_object, setObject_self,
      setReadCallback, newEvent_fst, addEvent_object, newEvent_self]
    exact (Event.withFlag_reader fd callback).2
  · simp only [addReaderLate, enableReading, enableFlag, update_eventPool, setObject_eventPool,
      setReadCallback]
    exact hlookup
  · have henabled := enableReading_interest (w := (w.newEvent fd).2.addEvent w.next)
      (e := w.next) hlookup (by rw [hobject]; rfl) (by rw [hobject]; rfl)
    exact henabled.trans (interest_enabled w fd hfd (w.interest_added fd))

/-- **A reader that the kernel accepts is watched.** -/
theorem ReaderAdded.watches {w w' : World κ} {fd : Int} {callback : κ} {e : EventId}
    (h : w.ReaderAdded fd callback e w') (ha : w.kernel.accepts fd) :
    w'.Watches fd e callback where
  registered := h.registered
  object := h.object
  interest := by rw [h.interest, if_pos ha, Finmap.lookup_insert]

end World

end PluginsEngine
