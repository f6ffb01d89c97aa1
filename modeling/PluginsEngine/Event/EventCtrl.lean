/-
  File:      PluginsEngine/Event/EventCtrl.lean
  Subject:   THE REGISTRY OF AN EVENT LOOP AND ITS DISPATCH (event/eventCtrl.cpp, and the parts of
             event.cpp that call the loop).

  A `World` is one event loop: the Event objects that refer to it, the registry `eventPool`
  (descriptor to shared pointer, which may be null) and the kernel behind its epoll instance.
  Event objects are named by numbers; those below `next` have been constructed.

  * `addEvent`, `deleteEvent`, `modifyEvent`, `deleteEventFd`, `modifyEventFd` -- EventCtrl;
  * `enableReading`, `enableWriting`, `enableErrorEvent`, `disableAll`, `removeFromLoop` -- the
    methods of Event, which tell the loop through `update`;
  * `dispatch`, `waitAndRunHandler` -- the loop over the records of one epoll_wait;
  * `Act`, `World.act` -- everything a handler can do to the loop, in one type.
-/
import PluginsEngine.Event.Epoll

namespace PluginsEngine

open Library

/-- Which Event object. -/
abbrev EventId := Nat

structure World (κ : Type) where
  object : EventId → Event κ
  next : EventId
  eventPool : Finmap fun _ : Int => Option EventId
  kernel : Kernel

namespace World

variable {κ : Type}

/-! ## 1. EventCtrl -/

/-- `EventCtrl::addEvent`: `insert` keeps an entry that is there, and what the kernel answers is
    not looked at. -/
def addEvent (w : World κ) (e : EventId) : World κ :=
  let event := w.object e
  { w with
    eventPool := insertNew event.eventFd (some e) w.eventPool
    kernel := (Epoll.addEvent w.kernel event).1 }

/-- `EventCtrl::deleteEvent(std::shared_ptr<Event>)`. -/
def deleteEvent (w : World κ) (e : EventId) : World κ :=
  let event := w.object e
  { w with
    kernel := (Epoll.removeEvent w.kernel event).1
    eventPool := w.eventPool.erase event.eventFd }

/-- `EventCtrl::modifyEvent(std::shared_ptr<Event>)`. -/
def modifyEvent (w : World κ) (e : EventId) : World κ :=
  let event := w.object e
  if event.eventFd ∈ w.eventPool then { w with kernel := (Epoll.modifyEvent w.kernel event).1 }
  else w

/-- `EventCtrl::modifyEvent(int)`: the object is the one in the registry. -/
def modifyEventFd (w : World κ) (fd : Int) : World κ :=
  match w.eventPool.lookup fd with
  | some (some e) => { w with kernel := (Epoll.modifyEvent w.kernel (w.object e)).1 }
  | _ => w

/-- `EventCtrl::deleteEvent(int)`. -/
def deleteEventFd (w : World κ) (fd : Int) : World κ :=
  if fd ∈ w.eventPool then
    { w with
      kernel := (Epoll.removeEventFd w.kernel fd).1
      eventPool := w.eventPool.erase fd }
  else w

/-! ## 2. Event -/

/-- `Event(loop, fd)`: a new object, and which one it is. -/
def newEvent (w : World κ) (fd : Int) : EventId × World κ :=
  (w.next, { w with object := Function.update w.object w.next (Event.new fd), next := w.next + 1 })

/-- Object `e` is changed by `f`; the loop is not told. -/
def setObject (w : World κ) (e : EventId) (f : Event κ → Event κ) : World κ :=
  { w with object := Function.update w.object e (f (w.object e)) }

def setReadCallback (w : World κ) (e : EventId) (cb : κ) : World κ :=
  w.setObject e fun event => { event with readCallback := some cb }

def setWriteCallback (w : World κ) (e : EventId) (cb : κ) : World κ :=
  w.setObject e fun event => { event with writeCallback := some cb }

def setErrorCallback (w : World κ) (e : EventId) (cb : κ) : World κ :=
  w.setObject e fun event => { event with errorCallback := some cb }

def setCloseCallback (w : World κ) (e : EventId) (cb : κ) : World κ :=
  w.setObject e fun event => { event with closeCallback := some cb }

/-- `Event::update`. -/
def update (w : World κ) (e : EventId) : World κ := w.modifyEventFd (w.object e).eventFd

/-- `enableReading`, `enableWriting` and `enableErrorEvent` with their flag: the mask, then
    `update()`. -/
def enableFlag (flag : Mask) (w : World κ) (e : EventId) (isEnable : Bool) : World κ :=
  (w.setObject e (Event.withFlag flag isEnable)).update e

def enableReading (w : World κ) (e : EventId) (isEnable : Bool) : World κ :=
  enableFlag Event.readEventFlag w e isEnable

def enableWriting (w : World κ) (e : EventId) (isEnable : Bool) : World κ :=
  enableFlag Event.writeEventFlag w e isEnable

def enableErrorEvent (w : World κ) (e : EventId) (isEnable : Bool) : World κ :=
  enableFlag Event.errorEventFlag w e isEnable

def disableAll (w : World κ) (e : EventId) : World κ :=
  (w.setObject e fun event => { event with events := Event.noneEventFlag }).update e

def removeFromLoop (w : World κ) (e : EventId) : World κ :=
  w.deleteEventFd (w.object e).eventFd

/-! ## 3. What a handler can do -/

/-- The calls on the loop and its Events, and the opening and closing of descriptors. -/
inductive Act where
  | openFile (fd : Int) (kind : FileKind)
  | closeFile (fd : Int)
  | newEvent (fd : Int)
  | addEvent (e : EventId)
  | deleteEvent (e : EventId)
  | deleteEventFd (fd : Int)
  | modifyEventFd (fd : Int)
  | enableReading (e : EventId) (isEnable : Bool)
  | enableWriting (e : EventId) (isEnable : Bool)
  | enableErrorEvent (e : EventId) (isEnable : Bool)
  | disableAll (e : EventId)
  | removeFromLoop (e : EventId)
  deriving DecidableEq, Repr

def act (w : World κ) : Act → World κ
  | .openFile fd kind => { w with kernel := w.kernel.openFile fd kind }
  | .closeFile fd => { w with kernel := w.kernel.closeFile fd }
  | .newEvent fd => (w.newEvent fd).2
  | .addEvent e => w.addEvent e
  | .deleteEvent e => w.deleteEvent e
  | .deleteEventFd fd => w.deleteEventFd fd
  | .modifyEventFd fd => w.modifyEventFd fd
  | .enableReading e isEnable => w.enableReading e isEnable
  | .enableWriting e isEnable => w.enableWriting e isEnable
  | .enableErrorEvent e isEnable => w.enableErrorEvent e isEnable
  | .disableAll e => w.disableAll e
  | .removeFromLoop e => w.removeFromLoop e

def acts (w : World κ) : List Act → World κ
  | [] => w
  | a :: as => (w.act a).acts as

/-! ## 4. Dispatch -/

/-- The body of the dispatch loop up to the call of `handle`: `eventPool[fd]` (which puts a null
    pointer under `fd` when there is no entry), and the removal when the pointer is null. The
    Event object whose `handle` is then called is returned. -/
def dispatch (w : World κ) (r : EpollEvent) : World κ × Option EventId :=
  let w' : World κ := { w with eventPool := insertNew r.fd none w.eventPool }
  match w'.eventPool.lookup r.fd with
  | some (some e) => (w', some e)
  | _ => (w'.deleteEventFd r.fd, none)

/-- `EventCtrl::waitAndRunHandler` over the records one wait returned. Each record comes with what
    the callbacks do that its delivery runs; the result tells which object got which record. -/
def waitAndRunHandler (w : World κ) :
    List (EpollEvent × List Act) → World κ × List (EpollEvent × Option EventId)
  | [] => (w, [])
  | (r, callbackActs) :: rest =>
    match w.dispatch r with
    | (w', none) =>
      let (w'', log) := w'.waitAndRunHandler rest
      (w'', (r, none) :: log)
    | (w', some e) =>
      let (w'', log) := (w'.acts callbackActs).waitAndRunHandler rest
      (w'', (r, some e) :: log)

/-- A loop at its start: no object, nothing registered. -/
def initial (files : Finmap fun _ : Int => FileKind) (maxWatches : Nat) : World κ :=
  ⟨fun _ => Event.new (-1), 0, ∅, ⟨files, ∅, maxWatches⟩⟩

/-! ## 5. What each operation changes -/

variable (w : World κ) (e : EventId)

@[simp] theorem addEvent_object : (w.addEvent e).object = w.object := rfl

@[simp] theorem modifyEventFd_object (fd : Int) : (w.modifyEventFd fd).object = w.object := by
  unfold modifyEventFd
  split <;> rfl

@[simp] theorem modifyEventFd_next (fd : Int) : (w.modifyEventFd fd).next = w.next := by
  unfold modifyEventFd
  split <;> rfl

@[simp] theorem modifyEventFd_eventPool (fd : Int) :
    (w.modifyEventFd fd).eventPool = w.eventPool := by
  unfold modifyEventFd
  split <;> rfl

@[simp] theorem modifyEventFd_files (fd : Int) :
    (w.modifyEventFd fd).kernel.files = w.kernel.files := by
  unfold modifyEventFd
  split
  · exact Kernel.epollCtl_files _ _ _ _
  · rfl

@[simp] theorem deleteEventFd_object (fd : Int) : (w.deleteEventFd fd).object = w.object := by
  unfold deleteEventFd
  split <;> rfl

@[simp] theorem deleteEventFd_next (fd : Int) : (w.deleteEventFd fd).next = w.next := by
  unfold deleteEventFd
  split <;> rfl

@[simp] theorem deleteEventFd_files (fd : Int) :
    (w.deleteEventFd fd).kernel.files = w.kernel.files := by
  unfold deleteEventFd
  split
  · exact Kernel.epollCtl_files _ _ _ _
  · rfl

/-- After `deleteEvent(fd)` the registry has no entry for `fd`, whether it had one or not. -/
@[simp] theorem deleteEventFd_eventPool (fd : Int) :
    (w.deleteEventFd fd).eventPool = w.eventPool.erase fd := by
  unfold deleteEventFd
  by_cases h : fd ∈ w.eventPool
  · simp only [if_pos h]
  · simp only [if_neg h]
    exact (erase_of_notMem h).symm

@[simp] theorem setObject_eventPool (f : Event κ → Event κ) :
    (w.setObject e f).eventPool = w.eventPool := rfl
@[simp] theorem setObject_next (f : Event κ → Event κ) : (w.setObject e f).next = w.next := rfl
@[simp] theorem setObject_self (f : Event κ → Event κ) :
    (w.setObject e f).object e = f (w.object e) := Function.update_self _ _ _
theorem setObject_of_ne {e' : EventId} (h : e' ≠ e) (f : Event κ → Event κ) :
    (w.setObject e f).object e' = w.object e' := Function.update_of_ne h _ _

@[simp] theorem update_object : (w.update e).object = w.object := modifyEventFd_object _ _
@[simp] theorem update_eventPool : (w.update e).eventPool = w.eventPool :=
  modifyEventFd_eventPool _ _
@[simp] theorem update_next : (w.update e).next = w.next := modifyEventFd_next _ _

@[simp] theorem newEvent_fst (fd : Int) : (w.newEvent fd).1 = w.next := rfl
@[simp] theorem newEvent_eventPool (fd : Int) : (w.newEvent fd).2.eventPool = w.eventPool := rfl
@[simp] theorem newEvent_self (fd : Int) : (w.newEvent fd).2.object w.next = Event.new fd :=
  Function.update_self _ _ _
theorem newEvent_of_lt {e : EventId} (h : e < w.next) (fd : Int) :
    (w.newEvent fd).2.object e = w.object e :=
  Function.update_of_ne (Nat.ne_of_lt h) _ _

/-- What a record does to the registry, before its handler runs: nothing. The null placeholder of
    `operator[]` is gone again. -/
@[simp] theorem dispatch_eventPool (r : EpollEvent) (h : w.eventPool.lookup r.fd ≠ some none) :
    (w.dispatch r).1.eventPool = w.eventPool := by
  unfold dispatch
  by_cases hm : r.fd ∈ w.eventPool
  · obtain ⟨v, hv⟩ := Finmap.mem_iff.mp hm
    cases v with
    | none => exact absurd hv h
    | some e => simp only [insertNew_of_mem hm, hv]
  · simp only [insertNew_of_notMem hm, Finmap.lookup_insert, deleteEventFd_eventPool]
    exact erase_insert_of_notMem hm

@[simp] theorem dispatch_object (r : EpollEvent) : (w.dispatch r).1.object = w.object := by
  unfold dispatch
  dsimp only
  split
  · rfl
  · rw [deleteEventFd_object]

@[simp] theorem dispatch_next (r : EpollEvent) : (w.dispatch r).1.next = w.next := by
  unfold dispatch
  dsimp only
  split
  · rfl
  · rw [deleteEventFd_next]

/-- The record of a registered descriptor is handed to its Event, and the loop stays as it is. -/
theorem dispatch_of_registered {r : EpollEvent} {e : EventId}
    (h : w.eventPool.lookup r.fd = some (some e)) : w.dispatch r = (w, some e) := by
  unfold dispatch
  simp only [insertNew_of_mem (Finmap.mem_of_lookup_eq_some h), h]

/-- **Who gets a record**: the object the registry has under its descriptor when its turn comes,
    nobody when there is none. -/
theorem dispatch_snd (r : EpollEvent) : (w.dispatch r).2 = (w.eventPool.lookup r.fd).join := by
  unfold dispatch
  by_cases hm : r.fd ∈ w.eventPool
  · obtain ⟨v, hv⟩ := Finmap.mem_iff.mp hm
    cases v with
    | none => simp only [insertNew_of_mem hm, hv]; rfl
    | some e => simp only [insertNew_of_mem hm, hv]; rfl
  · simp only [insertNew_of_notMem hm, Finmap.lookup_insert, Finmap.lookup_eq_none.mpr hm]
    rfl

end World

end PluginsEngine
