/-
  File:      PluginsEngine/Engine/Engine.lean
  Subject:   FD MONITORING OF THE ENGINE (engine/engine.cpp, comapi/plugin/FdMonitor.hpp).

  `addFd` and `modifyFd` build a fresh Event each; what reaches the kernel depends on which Event
  the registry holds.

  * `addFd_eq` -- an addition registers one Event, `Engine.monitorEvent`;
  * `modifyFd_told` -- of an EVENT_ mask alone: the mask of the Event *in the registry* is sent to
    the kernel again; of any other mask: the empty mask of the temporary Event.
-/
import PluginsEngine.Event.EventCtrl

namespace PluginsEngine

open Library

/-! ## 1. The calls -/

namespace FdMonitor

def EVENT_IN : Mask := EPOLLIN
def EVENT_OUT : Mask := EPOLLOUT
def EVENT_ERR : Mask := EPOLLERR

end FdMonitor

namespace Engine

open FdMonitor

variable {κ : Type}

def addFd (w : World κ) (fd : Int) (events : Mask) (handler : κ) : World κ :=
  let (event, w) := w.newEvent fd
  let w := if events = EVENT_IN then
    (w.setReadCallback event handler).enableReading event true else w
  let w := if events = EVENT_OUT then
    (w.setWriteCallback event handler).enableWriting event true else w
  let w := if events = EVENT_ERR then
    (w.setErrorCallback event handler).enableErrorEvent event true else w
  w.addEvent event

def removeFd (w : World κ) (fd : Int) : World κ := w.deleteEventFd fd

def modifyFd (w : World κ) (fd : Int) (events : Mask) : World κ :=
  let (event, w) := w.newEvent fd
  if events = EVENT_IN then w.enableReading event true
  else if events = EVENT_OUT then w.enableWriting event true
  else if events = EVENT_ERR then w.enableErrorEvent event true
  else w.modifyEvent event

/-! ## 2. What they do -/

/-- The epoll flags an Event gets for a mask: none, unless the mask is one of the three. -/
def monitorFlags (events : Mask) : Mask :=
  if events = EVENT_IN then Event.readEventFlag
  else if events = EVENT_OUT then Event.writeEventFlag
  else if events = EVENT_ERR then Event.errorEventFlag
  else Event.noneEventFlag

/-- The Event `addFd` registers. -/
def monitorEvent (fd : Int) (events : Mask) (handler : κ) : Event κ where
  eventFd := fd
  events := monitorFlags events
  readCallback := if events = EVENT_IN then some handler else none
  writeCallback := if events = EVENT_OUT then some handler else none
  errorCallback := if events = EVENT_ERR then some handler else none
  closeCallback := none

/-- The loop with one more Event object, which is not registered yet. -/
def withObject (w : World κ) (event : Event κ) : World κ :=
  { w with object := Function.update w.object w.next event, next := w.next + 1 }

/-- Setting up a new Event, whose descriptor is not registered, changes that object only: `f` sets
    its callback, `flag` becomes its mask. -/
theorem setUp_new {w : World κ} {fd : Int} (h : fd ∉ w.eventPool) (f : Event κ → Event κ)
    (flag : Mask) (hfd : (f (Event.new fd)).eventFd = fd) (hf : (f (Event.new fd)).events = 0) :
    World.enableFlag flag ((w.newEvent fd).2.setObject w.next f) w.next true =
      withObject w { f (Event.new fd) with events := flag } := by
  have hflag : (f (Event.new fd)).withFlag flag true =
      { f (Event.new fd) with events := flag } := by
    unfold Event.withFlag
    rw [if_pos rfl, hf, UInt32.zero_or]
  have hset : ((w.newEvent fd).2.setObject w.next f).setObject w.next (Event.withFlag flag true) =
      withObject w { f (Event.new fd) with events := flag } := by
    rw [← hflag]
    simp only [World.setObject, World.newEvent, withObject, Function.update_self,
      Function.update_idem]
  have hobj : ((withObject w { f (Event.new fd) with events := flag }).object w.next).eventFd
      = fd := by
    show (Function.update w.object w.next _ w.next).eventFd = fd
    rw [Function.update_self]
    exact hfd
  -- the loop is told, and finds nothing under `fd`
  have hlookup : (withObject w { f (Event.new fd) with events := flag }).eventPool.lookup fd =
      none := Finmap.lookup_eq_none.mpr h
  rw [World.enableFlag, hset, World.update, World.modifyEventFd, hobj, hlookup]

/-- **An addition** of a descriptor that is not registered. -/
theorem addFd_eq {w : World κ} {fd : Int} (h : fd ∉ w.eventPool) (events : Mask) (handler : κ) :
    addFd w fd events handler =
      (withObject w (monitorEvent fd events handler)).addEvent w.next := by
  have hio : EVENT_IN ≠ EVENT_OUT := by decide
  have hie : EVENT_IN ≠ EVENT_ERR := by decide
  have hoe : EVENT_OUT ≠ EVENT_ERR := by decide
  unfold addFd monitorEvent monitorFlags
  by_cases hin : events = EVENT_IN
  · subst hin
    simp only [if_true, if_neg hio, if_neg hie]
    exact congrArg (World.addEvent · w.next)
      (setUp_new h (fun event => { event with readCallback := some handler }) _ rfl rfl)
  by_cases hout : events = EVENT_OUT
  · subst hout
    simp only [if_true, if_neg hio.symm, if_neg hoe]
    exact congrArg (World.addEvent · w.next)
      (setUp_new h (fun event => { event with writeCallback := some handler }) _ rfl rfl)
  by_cases herr : events = EVENT_ERR
  · subst herr
    simp only [if_true, if_neg hie.symm, if_neg hoe.symm]
    exact congrArg (World.addEvent · w.next)
      (setUp_new h (fun event => { event with errorCallback := some handler }) _ rfl rfl)
  simp only [if_neg hin, if_neg hout, if_neg herr]
  rfl

/-- From `w` to `w'` the kernel is sent the mask `events` for `fd`, and no registered Event and no
    entry of the registry changes. -/
structure Told (w w' : World κ) (fd : Int) (events : Mask) : Prop where
  eventPool : w'.eventPool = w.eventPool
  next : w.next ≤ w'.next
  object : ∀ e < w.next, w'.object e = w.object e
  kernel : w'.kernel = (w.kernel.epollCtl .mod fd events).1

section

variable {w : World κ} {fd : Int} {e : EventId}

/-- A flag of the temporary Event: the kernel is sent the mask of the Event in the registry. -/
theorem enableFlag_told (h : w.eventPool.lookup fd = some (some e)) (he : e < w.next)
    (hfd : (w.object e).eventFd = fd) (flag : Mask) :
    Told w (World.enableFlag flag (w.newEvent fd).2 w.next true) fd (w.object e).events := by
  have hne : e ≠ w.next := Nat.ne_of_lt he
  have htemp : (((w.newEvent fd).2.setObject w.next (Event.withFlag flag true)).object
      w.next).eventFd = fd := by
    rw [World.setObject_self, World.newEvent_self, Event.withFlag_eventFd]
    rfl
  have hpooled : ((w.newEvent fd).2.setObject w.next (Event.withFlag flag true)).object e
      = w.object e := by
    rw [World.setObject_of_ne _ _ hne, World.newEvent_of_lt w he]
  refine ⟨World.update_eventPool _ _, ?_, fun e' he' => ?_, ?_⟩
  · rw [World.enableFlag, World.update_next]
    exact Nat.le_succ _
  · rw [World.enableFlag, World.update_object, World.setObject_of_ne _ _ (Nat.ne_of_lt he'),
      World.newEvent_of_lt w he']
  · rw [World.enableFlag, World.update, World.modifyEventFd, htemp, World.setObject_eventPool,
      World.newEvent_eventPool, h]
    show (Epoll.modifyEvent w.kernel _).1 = _
    rw [hpooled, Epoll.modifyEvent, hfd]

/-- **A modification** of a registered descriptor. One of the three masks sends what the Event in
    the registry has, whichever of them it is; any other mask sends the empty mask. -/
theorem modifyFd_told (h : w.eventPool.lookup fd = some (some e)) (he : e < w.next)
    (hfd : (w.object e).eventFd = fd) (events : Mask) :
    Told w (modifyFd w fd events) fd
      (if events = EVENT_IN ∨ events = EVENT_OUT ∨ events = EVENT_ERR then (w.object e).events
      else Event.noneEventFlag) := by
  unfold modifyFd
  by_cases hin : events = EVENT_IN
  · simp only [if_pos hin]
    rw [if_pos (Or.inl hin)]
    exact enableFlag_told h he hfd _
  by_cases hout : events = EVENT_OUT
  · simp only [if_neg hin, if_pos hout]
    rw [if_pos (Or.inr (Or.inl hout))]
    exact enableFlag_told h he hfd _
  by_cases herr : events = EVENT_ERR
  · simp only [if_neg hin, if_neg hout, if_pos herr]
    rw [if_pos (Or.inr (Or.inr herr))]
    exact enableFlag_told h he hfd _
  simp only [hin, hout, herr, or_self, if_false]
  have hmem : fd ∈ w.eventPool := Finmap.mem_of_lookup_eq_some h
  have hobj : (w.newEvent fd).2.object w.next = Event.new fd := w.newEvent_self fd
  have hmod : (w.newEvent fd).2.modifyEvent w.next =
      { (w.newEvent fd).2 with kernel := (w.kernel.epollCtl .mod fd Event.noneEventFlag).1 } := by
    simp only [World.modifyEvent, hobj]
    exact if_pos hmem
  show Told w ((w.newEvent fd).2.modifyEvent w.next) fd _
  rw [hmod]
  exact ⟨rfl, Nat.le_succ _, fun e' he' => w.newEvent_of_lt he' fd, rfl⟩

end

/-! ## 3. What they leave alone -/

/-- From `w` to `w'` nothing changes that concerns a descriptor other than `fd`, and no Event that
    exists. -/
structure OnlyAt (w w' : World κ) (fd : Int) : Prop where
  eventPool : ∀ fd' ≠ fd, w'.eventPool.lookup fd' = w.eventPool.lookup fd'
  next : w.next ≤ w'.next
  object : ∀ e < w.next, w'.object e = w.object e
  interest : ∀ fd' ≠ fd, w'.kernel.interest.lookup fd' = w.kernel.interest.lookup fd'

/-- From `w` to `w'` a new Event `event` is made and registered, and the kernel is asked to watch
    its descriptor. -/
structure Registers (w w' : World κ) (event : Event κ) : Prop where
  eventPool : w'.eventPool = w.eventPool.insert event.eventFd (some w.next)
  next : w'.next = w.next + 1
  object : ∀ e < w.next, w'.object e = w.object e
  new : w'.object w.next = event
  interest : w'.kernel.interest =
    if w.kernel.accepts event.eventFd then w.kernel.interest.insert event.eventFd event.events
    else w.kernel.interest

section

variable {w w' : World κ} {fd : Int}

theorem addFd_registers (h : fd ∉ w.eventPool) (events : Mask) (handler : κ) :
    Registers w (addFd w fd events handler) (monitorEvent fd events handler) := by
  have hnew : (withObject w (monitorEvent fd events handler)).object w.next =
      monitorEvent fd events handler := Function.update_self _ _ _
  rw [addFd_eq h events handler, World.addEvent]
  refine ⟨?_, rfl, fun e he => Function.update_of_ne (Nat.ne_of_lt he) _ _, hnew, ?_⟩
  · rw [hnew]
    exact insertNew_of_notMem h
  · rw [hnew]
    exact w.kernel.add_interest _ _

theorem Registers.onlyAt {event : Event κ} (h : Registers w w' event) :
    OnlyAt w w' event.eventFd where
  eventPool fd' hne := by
    rw [h.eventPool]
    exact Finmap.lookup_insert_of_ne _ hne
  next := by
    rw [h.next]
    exact Nat.le_succ _
  object := h.object
  interest fd' hne := by
    rw [h.interest]
    split
    · exact Finmap.lookup_insert_of_ne _ hne
    · rfl

theorem Told.onlyAt {events : Mask} (h : Told w w' fd events) : OnlyAt w w' fd where
  eventPool fd' _ := by rw [h.eventPool]
  next := h.next
  object := h.object
  interest fd' hne := by
    rw [h.kernel, w.kernel.mod_interest]
    split
    · exact Finmap.lookup_insert_of_ne _ hne
    · rfl

theorem removeFd_onlyAt (w : World κ) (fd : Int) : OnlyAt w (removeFd w fd) fd where
  eventPool fd' hne := by
    rw [removeFd, World.deleteEventFd_eventPool]
    exact Finmap.lookup_erase_ne hne
  next := Nat.le_of_eq (World.deleteEventFd_next _ _).symm
  object e _ := congrFun (World.deleteEventFd_object _ _) e
  interest fd' hne := by
    unfold removeFd World.deleteEventFd
    split
    · rw [Epoll.removeEventFd, w.kernel.del_interest]
      exact Finmap.lookup_erase_ne hne
    · rfl

end

end Engine

end PluginsEngine
