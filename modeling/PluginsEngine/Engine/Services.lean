/-
  File:      PluginsEngine/Engine/Services.lean
  Subject:   THE SERVICES OF AN ENGINE ON ITS LOOP (engine/engine.cpp: getEventCallbackQueue,
             getTimerService, getSignalMonitor, ComAPI::create; the constructor of SignalMonitor).

  An engine makes each of its three services when it is first asked for it. Making one opens a
  descriptor and puts its Event on the loop; nobody looks at whether the descriptor could be
  opened or the kernel accepted it. Beside that the application monitors descriptors of its own,
  and other components use the loop.

  * `getService` -- the three getters, one definition; `ComAPI.create`;
  * `Own`, `Own.onlyAt` -- calls for one descriptor and one new Event leave the others alone;
  * `engine` -- the machine; `Heard` -- input on a service's descriptor runs its handler;
  * `LeavesServices` -- what the other calls keep to;
  * `Untouched`, `Serves`, `Sound.step` -- what the calls of others leave alone;
  * `heard_iff_accepted` -- over every run: a service that was made stays the same one, and it is
    heard exactly if, when it was made, the kernel accepted its descriptor and the registry had no
    entry left under that number.
-/
import PluginsEngine.Engine.Engine
import PluginsEngine.Event.Wakeup
import PluginsEngine.Timer.TimerLoop

namespace PluginsEngine

open Library

/-! ## 1. Making a service -/

/-- The callbacks of the Events on an engine's loop: those of its services, and handlers. -/
inductive EngineCallback (ι : Type) where
  | handleEvents
  | timerHandle
  | handleSignal
  | handler (h : ι)
  deriving DecidableEq, Repr

/-- The members that the getters fill. -/
inductive Service where
  | callbackQueue
  | timerQueue
  | signalMonitor
  deriving DecidableEq, Repr

/-- An engine's loop, and of each service it has made the descriptor and the Event. -/
structure EngineState (ι : Type) where
  world : World (EngineCallback ι)
  service : Service → Option (Int × EventId)

section

variable {κ : Type}

/-- `SignalMonitor(eventLoop)` with the descriptor `signalFd`. -/
def SignalMonitor.construct (w : World κ) (signalFd : Int) (handleSignal : κ) :
    EventId × World κ :=
  w.addReader signalFd handleSignal

/-- `eventfd`, `timerfd_create` or `signalfd` answered `fd`: -1 is an error. -/
def World.opened (w : World κ) (fd : Int) : World κ :=
  if fd = -1 then w else w.act (.openFile fd .pollable)

end

namespace EngineState

variable {ι : Type}

/-- The callback of a service's Event. -/
def callback : Service → EngineCallback ι
  | .callbackQueue => .handleEvents
  | .timerQueue => .timerHandle
  | .signalMonitor => .handleSignal

/-- The constructor of a service. -/
def construct (k : Service) (w : World (EngineCallback ι)) (fd : Int) :
    EventId × World (EngineCallback ι) :=
  match k with
  | .callbackQueue => EventFD.construct w fd (callback k)
  | .timerQueue => TimerQueue.construct w fd (callback k)
  | .signalMonitor => SignalMonitor.construct w fd (callback k)

/-- What the getters share: a service that is not there is made, with the descriptor `fd`. -/
def getService (k : Service) (s : EngineState ι) (fd : Int) : EngineState ι :=
  match s.service k with
  | some _ => s
  | none =>
    let (e, w) := construct k (s.world.opened fd) fd
    ⟨w, Function.update s.service k (some (fd, e))⟩

def getEventCallbackQueue (s : EngineState ι) (fd : Int) : EngineState ι :=
  s.getService .callbackQueue fd

def getTimerService (s : EngineState ι) (fd : Int) : EngineState ι := s.getService .timerQueue fd

def getSignalMonitor (s : EngineState ι) (fd : Int) : EngineState ι :=
  s.getService .signalMonitor fd

/-- `Engine()`: a loop, and no service. -/
def new (w : World (EngineCallback ι)) : EngineState ι := ⟨w, fun _ => none⟩

/-- `ComAPI::create` and `ComAPIEventLoop::create`: the callback queue is made at once. -/
def create (w : World (EngineCallback ι)) (fd : Int) : EngineState ι :=
  (new w).getEventCallbackQueue fd

end EngineState

/-! ## 2. Calls for one descriptor -/

section

variable {κ : Type}

open Engine

/-- From `w₀` to `w` only `fd` and a new Event of it were touched; nothing was opened or closed, and
    a descriptor that is watched now was so before, or is open. -/
structure Own (w₀ w : World κ) (fd : Int) : Prop where
  onlyAt : OnlyAt w₀ w fd
  keyed : w.Keyed
  next : w.next = w₀.next + 1
  object : (w.object w₀.next).eventFd = fd
  files : w.kernel.files = w₀.kernel.files
  watched : fd ∈ w.kernel.interest → fd ∈ w₀.kernel.interest ∨ fd ∈ w₀.kernel.files

namespace Own

variable {w₀ w : World κ} {fd : Int}

theorem newEvent (hk : w₀.Keyed) (fd : Int) : Own w₀ (w₀.newEvent fd).2 fd where
  onlyAt := ⟨fun _ _ => rfl, Nat.le_succ _, fun _ he => w₀.newEvent_of_lt he fd, fun _ _ => rfl⟩
  keyed := hk.act (a := .newEvent fd) trivial
  next := rfl
  object := by
    rw [w₀.newEvent_self]
    rfl
  files := rfl
  watched := Or.inl

theorem setObject (h : Own w₀ w fd) {f : Event κ → Event κ}
    (hf : ∀ x, (f x).eventFd = x.eventFd) : Own w₀ (w.setObject w₀.next f) fd where
  onlyAt :=
    ⟨h.onlyAt.eventPool, h.onlyAt.next, fun e he =>
      (World.setObject_of_ne _ _ (Nat.ne_of_lt he) f).trans (h.onlyAt.object e he),
      h.onlyAt.interest⟩
  keyed := h.keyed.setObject _ (hf _)
  next := h.next
  object := by rw [World.setObject_self, hf, h.object]
  files := h.files
  watched := h.watched

theorem modifyEventFd (h : Own w₀ w fd) : Own w₀ (w.modifyEventFd fd) fd where
  onlyAt := by
    refine ⟨fun fd' hne => ?_, ?_, fun e he => ?_, fun fd' hne => ?_⟩
    · rw [World.modifyEventFd_eventPool]
      exact h.onlyAt.eventPool fd' hne
    · rw [World.modifyEventFd_next]
      exact h.onlyAt.next
    · rw [World.modifyEventFd_object]
      exact h.onlyAt.object e he
    · refine Eq.trans ?_ (h.onlyAt.interest fd' hne)
      unfold World.modifyEventFd
      split
      · rename_i e hlookup
        obtain ⟨e', he, -, hfd⟩ := h.keyed.entry fd _ hlookup
        cases he
        show (w.kernel.epollCtl .mod (w.object e).eventFd _).1.interest.lookup fd' = _
        rw [w.kernel.mod_interest, hfd]
        split
        · exact Finmap.lookup_insert_of_ne _ hne
        · rfl
      · rfl
  keyed := h.keyed.act (a := .modifyEventFd fd) trivial
  next := by rw [World.modifyEventFd_next, h.next]
  object := by rw [World.modifyEventFd_object, h.object]
  files := by rw [World.modifyEventFd_files, h.files]
  watched hin := h.watched ((LiveState.mem_modifyEventFd_interest w fd fd).mp hin)

/-- A flag of the new Event. -/
theorem enableFlag (h : Own w₀ w fd) (flag : Mask) (b : Bool) :
    Own w₀ (World.enableFlag flag w w₀.next b) fd := by
  have hset := h.setObject (f := Event.withFlag flag b) fun _ => rfl
  unfold World.enableFlag World.update
  rw [hset.object]
  exact hset.modifyEventFd

theorem addEvent (h : Own w₀ w fd) : Own w₀ (w.addEvent w₀.next) fd where
  onlyAt := by
    refine ⟨fun fd' hne => ?_, h.onlyAt.next, h.onlyAt.object, fun fd' hne => ?_⟩
    · refine Eq.trans ?_ (h.onlyAt.eventPool fd' hne)
      show (insertNew (w.object w₀.next).eventFd _ w.eventPool).lookup fd' = _
      rw [h.object]
      by_cases hm : fd ∈ w.eventPool
      · rw [insertNew_of_mem hm]
      · rw [insertNew_of_notMem hm, Finmap.lookup_insert_of_ne _ hne]
    · refine Eq.trans ?_ (h.onlyAt.interest fd' hne)
      show (w.kernel.epollCtl .add (w.object w₀.next).eventFd _).1.interest.lookup fd' = _
      rw [h.object, w.kernel.add_interest]
      split
      · exact Finmap.lookup_insert_of_ne _ hne
      · rfl
  keyed := h.keyed.act (a := .addEvent w₀.next) (by
    show w₀.next < w.next
    rw [h.next]
    exact Nat.lt_succ_self _)
  next := h.next
  object := h.object
  files := (Kernel.epollCtl_files _ _ _ _).trans h.files
  watched hin := by
    have hadd : fd ∈ (w.kernel.epollCtl .add (w.object w₀.next).eventFd
        (w.object w₀.next).events).1.interest := hin
    rw [w.kernel.add_interest, h.object] at hadd
    split at hadd
    · rename_i haccepts
      exact Or.inr (h.files ▸ Finmap.mem_of_lookup_eq_some haccepts.1)
    · exact h.watched hadd

theorem modifyEvent (h : Own w₀ w fd) : Own w₀ (w.modifyEvent w₀.next) fd := by
  unfold World.modifyEvent
  dsimp only
  rw [h.object]
  split
  · refine ⟨⟨h.onlyAt.eventPool, h.onlyAt.next, h.onlyAt.object, fun fd' hne => ?_⟩,
      ⟨h.keyed.entry⟩, h.next, h.object, (Kernel.epollCtl_files _ _ _ _).trans h.files,
      fun hin => ?_⟩
    · refine Eq.trans ?_ (h.onlyAt.interest fd' hne)
      show (w.kernel.epollCtl .mod (w.object w₀.next).eventFd _).1.interest.lookup fd' = _
      rw [h.object, w.kernel.mod_interest]
      split
      · exact Finmap.lookup_insert_of_ne _ hne
      · rfl
    · have hmod : fd ∈ (w.kernel.epollCtl .mod (w.object w₀.next).eventFd
          (w.object w₀.next).events).1.interest := hin
      rw [w.kernel.mod_interest, h.object] at hmod
      split at hmod
      · rename_i hold
        exact h.watched hold
      · exact h.watched hmod
  · exact h

end Own

theorem addReader_own {w : World κ} (hk : w.Keyed) (fd : Int) (cb : κ) :
    Own w (w.addReader fd cb).2 fd :=
  ((Own.newEvent hk fd).addEvent.setObject
    (f := fun event => { event with readCallback := some cb }) fun _ => rfl).enableFlag
    Event.readEventFlag true

theorem addReaderLate_own {w : World κ} (hk : w.Keyed) (fd : Int) (cb : κ) :
    Own w (w.addReaderLate fd cb).2 fd :=
  ((Own.newEvent hk fd).addEvent.enableFlag Event.readEventFlag true).setObject
    (f := fun event => { event with readCallback := some cb }) fun _ => rfl

/-- **`addFd` is such a call**, whatever the mask is and whether the descriptor is registered. -/
theorem addFd_own {w : World κ} (hk : w.Keyed) (fd : Int) (events : Mask) (handler : κ) :
    Own w (Engine.addFd w fd events handler) fd := by
  have step : ∀ {w' : World κ} (p : Prop) [Decidable p] (f : Event κ → Event κ) (flag : Mask),
      (∀ x, (f x).eventFd = x.eventFd) → Own w w' fd →
      Own w (if p then World.enableFlag flag (w'.setObject w.next f) w.next true else w') fd := by
    intro w' p _ f flag hf h
    split
    · exact (h.setObject hf).enableFlag flag true
    · exact h
  exact (step _ (fun event => { event with errorCallback := some handler }) Event.errorEventFlag
    (fun _ => rfl)
    (step _ (fun event => { event with writeCallback := some handler }) Event.writeEventFlag
      (fun _ => rfl)
      (step _ (fun event => { event with readCallback := some handler }) Event.readEventFlag
        (fun _ => rfl) (Own.newEvent hk fd)))).addEvent

theorem modifyFd_own {w : World κ} (hk : w.Keyed) (fd : Int) (events : Mask) :
    Own w (Engine.modifyFd w fd events) fd := by
  have hnew := Own.newEvent hk fd
  unfold Engine.modifyFd
  dsimp only
  split
  · exact hnew.enableFlag _ true
  · split
    · exact hnew.enableFlag _ true
    · split
      · exact hnew.enableFlag _ true
      · exact hnew.modifyEvent

end

/-! ## 3. What a service needs of others -/

section

variable {κ : Type} {w w' w'' : World κ} {fd : Int}

/-- From `w` to `w'` the entry of `fd` stays, and the kernel watches `fd` or not as before. -/
structure World.Untouched (w w' : World κ) (fd : Int) : Prop where
  entry : w'.eventPool.lookup fd = w.eventPool.lookup fd
  watched : fd ∈ w'.kernel.interest ↔ fd ∈ w.kernel.interest

theorem World.Untouched.trans (h : w.Untouched w' fd) (h' : w'.Untouched w'' fd) :
    w.Untouched w'' fd :=
  ⟨h'.entry.trans h.entry, h'.watched.trans h.watched⟩

/-- The Event a call adds to the loop, and the descriptor it opens. -/
def World.Act.adds : World.Act → Option EventId
  | .addEvent e => some e
  | _ => none

def World.Act.opens : World.Act → Option Int
  | .openFile fd _ => some fd
  | _ => none

/-- The use of a loop by others: they leave `fd` alone, and the mask of its Event `e`. -/
def World.Act.leaves (w : World κ) (fd : Int) (e : EventId) (a : World.Act) : Prop :=
  a.onExisting w ∧ a.spares w fd e ∧ ∀ e' ∈ a.adds, (w.object e').eventFd ≠ fd

instance World.Act.decidableLeaves (w : World κ) (fd : Int) (e : EventId) (a : World.Act) :
    Decidable (a.leaves w fd e) :=
  inferInstanceAs (Decidable (_ ∧ _ ∧ ∀ e' ∈ a.adds, (w.object e').eventFd ≠ fd))

theorem Engine.OnlyAt.untouched {fd' : Int} (h : Engine.OnlyAt w w' fd') (hne : fd ≠ fd') :
    w.Untouched w' fd where
  entry := h.eventPool fd hne
  watched := by
    rw [Finmap.mem_iff, Finmap.mem_iff, h.interest fd hne]

/-- A service stays watched when calls for another descriptor are made. -/
theorem Engine.OnlyAt.watches {fd' : Int} {e : EventId} {cb : κ} (h : Engine.OnlyAt w w' fd')
    (hne : fd ≠ fd') (hk : w.Keyed) (hw : w.Watches fd e cb) : w'.Watches fd e cb where
  registered := by rw [h.eventPool fd hne, hw.registered]
  object := by rw [h.object e (hw.lt_next hk), hw.object]
  interest := by rw [h.interest fd hne, hw.interest]

theorem untouched_act {e : EventId} {a : World.Act} (ha : a.leaves w fd e) :
    w.Untouched (w.act a) fd := by
  obtain ⟨-, hspares, hadd⟩ := ha
  have changed : ∀ e' (f : Event κ → Event κ),
      w.Untouched ((w.setObject e' f).update e') fd := by
    intro e' f
    refine ⟨?_, ?_⟩
    · rw [World.update_eventPool, World.setObject_eventPool]
    · exact LiveState.mem_modifyEventFd_interest (w.setObject e' f) _ fd
  have deleted : ∀ fd', fd' ≠ fd → w.Untouched (w.deleteEventFd fd') fd :=
    fun fd' hne => (Engine.removeFd_onlyAt w fd').untouched (Ne.symm hne)
  cases a with
  | openFile fd' kind => exact ⟨rfl, Iff.rfl⟩
  | closeFile fd' =>
    refine ⟨rfl, ?_⟩
    show fd ∈ w.kernel.interest.erase fd' ↔ _
    rw [Finmap.mem_erase]
    exact ⟨And.right, fun hin => ⟨Ne.symm hspares, hin⟩⟩
  | newEvent fd' => exact ⟨rfl, Iff.rfl⟩
  | addEvent e' =>
    have hne := hadd e' rfl
    refine ⟨?_, ?_⟩
    · show (insertNew (w.object e').eventFd _ w.eventPool).lookup fd = _
      by_cases hm : (w.object e').eventFd ∈ w.eventPool
      · rw [insertNew_of_mem hm]
      · rw [insertNew_of_notMem hm, Finmap.lookup_insert_of_ne _ (Ne.symm hne)]
    · show fd ∈ (w.kernel.epollCtl .add (w.object e').eventFd _).1.interest ↔ _
      rw [w.kernel.add_interest]
      split
      · rw [Finmap.mem_insert]
        exact ⟨fun hin => hin.resolve_left (Ne.symm hne), Or.inr⟩
      · exact Iff.rfl
  | deleteEvent e' =>
    refine ⟨?_, ?_⟩
    · exact Finmap.lookup_erase_ne (Ne.symm hspares)
    · show fd ∈ (w.kernel.epollCtl .del (w.object e').eventFd _).1.interest ↔ _
      rw [w.kernel.del_interest, Finmap.mem_erase]
      exact ⟨And.right, fun hin => ⟨Ne.symm hspares, hin⟩⟩
  | deleteEventFd fd' => exact deleted fd' hspares
  | removeFromLoop e' => exact deleted _ hspares
  | modifyEventFd fd' =>
    exact ⟨by rw [World.act, World.modifyEventFd_eventPool],
      LiveState.mem_modifyEventFd_interest w fd' fd⟩
  | enableReading e' b => exact changed e' _
  | enableWriting e' b => exact changed e' _
  | enableErrorEvent e' b => exact changed e' _
  | disableAll e' => exact changed e' _

/-- A dispatch leaves every entry that has an Event, and what the kernel watches. -/
theorem untouched_dispatch (hk : w.Keyed) (hm : fd ∈ w.eventPool) (r : EpollEvent) :
    w.Untouched (w.dispatch r).1 fd := by
  refine ⟨by rw [World.dispatch_eventPool w r (hk.lookup_ne_null r.fd)], ?_⟩
  by_cases hr : r.fd ∈ w.eventPool
  · obtain ⟨v, hv⟩ := Finmap.mem_iff.mp hr
    obtain ⟨e, rfl, -, -⟩ := hk.entry r.fd v hv
    rw [w.dispatch_of_registered hv]
  · have hlookup : (insertNew r.fd (none : Option EventId) w.eventPool).lookup r.fd =
        some none := by
      rw [insertNew_of_notMem hr, Finmap.lookup_insert]
    have hne : fd ≠ r.fd := fun heq => hr (heq ▸ hm)
    simp only [World.dispatch, hlookup]
    exact (Engine.removeFd_onlyAt
      { w with eventPool := insertNew r.fd none w.eventPool } r.fd).untouched hne |>.watched

end

/-! ## 4. The engine -/

inductive EngineStep (ι : Type) where
  /-- A getter; the system answers `fd` if the service is to be made. -/
  | get (k : Service) (fd : Int)
  /-- A call on the loop by some other component. -/
  | act (a : World.Act)
  | addFd (fd : Int) (events : Mask) (handler : ι)
  | modifyFd (fd : Int) (events : Mask)
  | removeFd (fd : Int)
  | dispatch (r : EpollEvent)

def services : List Service := [.callbackQueue, .timerQueue, .signalMonitor]

theorem mem_services (k : Service) : k ∈ services := by
  cases k <;> decide

namespace EngineState

variable {ι : Type} (s : EngineState ι)

/-- `P` holds of the descriptor and the Event of every service made. -/
def each (P : Int → EventId → Prop) : Prop :=
  ∀ k ∈ services, ∀ p ∈ s.service k, P p.1 p.2

instance decidableEach (P : Int → EventId → Prop) [∀ fd e, Decidable (P fd e)] :
    Decidable (s.each P) :=
  inferInstanceAs (Decidable (∀ k ∈ services, ∀ p ∈ s.service k, P p.1 p.2))

theorem of_each {s : EngineState ι} {P : Int → EventId → Prop} (h : s.each P) {k : Service}
    {fd : Int} {e : EventId} (hk : s.service k = some (fd, e)) : P fd e :=
  h k (mem_services k) (fd, e) hk

end EngineState

/-- A descriptor the system may answer: one that is not open. -/
def World.mayOpen {κ : Type} (w : World κ) (fd : Int) : Prop := fd ≠ -1 ∧ fd ∉ w.kernel.files

instance World.decidableMayOpen {κ : Type} (w : World κ) (fd : Int) : Decidable (w.mayOpen fd) :=
  inferInstanceAs (Decidable (_ ∧ _))

/-- A call by others: on Events that exist, and what it opens was not open. -/
def EngineState.allowed {ι : Type} (s : EngineState ι) (a : World.Act) : Prop :=
  a.onExisting s.world ∧ ∀ fd ∈ a.opens, s.world.mayOpen fd

instance EngineState.decidableAllowed {ι : Type} (s : EngineState ι) (a : World.Act) :
    Decidable (s.allowed a) :=
  inferInstanceAs (Decidable (_ ∧ ∀ fd ∈ a.opens, s.world.mayOpen fd))

/-- `fd` is the descriptor of no service. -/
def EngineState.foreign {ι : Type} (s : EngineState ι) (fd : Int) : Prop :=
  s.each fun fd' _ => fd' ≠ fd

instance EngineState.decidableForeign {ι : Type} (s : EngineState ι) (fd : Int) :
    Decidable (s.foreign fd) :=
  inferInstanceAs (Decidable (s.each _))

/-- An engine in use. The output is the callbacks that are run. -/
def engine (ι : Type) : Machine (EngineState ι) (EngineStep ι) (List (EngineCallback ι)) where
  step s
    | .get k fd =>
      if s.service k = none → fd = -1 ∨ s.world.mayOpen fd then some (s.getService k fd, [])
      else none
    | .act a => if s.allowed a then some ({ s with world := s.world.act a }, []) else none
    | .addFd fd events handler =>
      some ({ s with world := Engine.addFd s.world fd events (.handler handler) }, [])
    | .modifyFd fd events => some ({ s with world := Engine.modifyFd s.world fd events }, [])
    | .removeFd fd => some ({ s with world := Engine.removeFd s.world fd }, [])
    | .dispatch r =>
      let (w, target) := s.world.dispatch r
      some ({ s with world := w },
        target.toList.flatMap fun e => (w.object e).handle r.events)

/-- **The services are left to the engine**: no other call is for the descriptor or the Event of
    one. Nothing in `addFd`, `modifyFd` and `removeFd` keeps a plugin from passing one. -/
def LeavesServices {ι : Type} (s : EngineState ι) (l : EngineStep ι) (_ : EngineState ι)
    (_ : List (EngineCallback ι)) : Prop :=
  match l with
  | .act a => s.each fun fd e => a.leaves s.world fd e
  | .addFd fd _ _ | .modifyFd fd _ | .removeFd fd => s.foreign fd
  | .get _ _ | .dispatch _ => True

instance decidableLeavesServices {ι : Type} (s s' : EngineState ι) (l : EngineStep ι)
    (o : List (EngineCallback ι)) : Decidable (LeavesServices s l s' o) := by
  cases l <;> unfold LeavesServices <;> infer_instance

/-- **A service is heard**: the kernel watches its descriptor for input, and a report of input runs
    its callback and nothing else. -/
def EngineState.Heard {ι : Type} (s : EngineState ι) (k : Service) : Prop :=
  ∃ fd e, s.service k = some (fd, e) ∧ s.world.Watches fd e (EngineState.callback k)

/-! ## 5. One step -/

/-- What a loop keeps beside its registry: only open descriptors are watched, and none is -1. -/
structure World.Opened {κ : Type} (w : World κ) : Prop where
  interest : ∀ fd, fd ∈ w.kernel.interest → fd ∈ w.kernel.files
  noError : (-1 : Int) ∉ w.kernel.files

namespace World.Opened

variable {κ : Type} {w w' : World κ} {fd : Int}

theorem initial {files : Finmap fun _ : Int => FileKind} {maxWatches : Nat}
    (h : (-1 : Int) ∉ files) : (World.initial files maxWatches : World κ).Opened where
  interest _ hin := absurd hin Finmap.notMem_empty
  noError := h

/-- Nothing was opened or closed, and what is watched was watched or is open. -/
theorem keep (h : w.Opened) (hfiles : w'.kernel.files = w.kernel.files)
    (hin : ∀ fd ∈ w'.kernel.interest, fd ∈ w.kernel.interest ∨ fd ∈ w.kernel.files) :
    w'.Opened where
  interest fd hfd := by
    rw [hfiles]
    exact (hin fd hfd).elim (h.interest fd) id
  noError := by
    rw [hfiles]
    exact h.noError

theorem own (h : w.Opened) (hown : Own w w' fd) : w'.Opened := by
  refine h.keep hown.files fun fd' hin => ?_
  by_cases hfd : fd' = fd
  · subst hfd
    exact hown.watched hin
  · exact Or.inl ((hown.onlyAt.untouched hfd).watched.mp hin)

theorem deleteEventFd (h : w.Opened) (fd : Int) : (w.deleteEventFd fd).Opened := by
  refine h.keep (w.deleteEventFd_files fd) fun fd' hin => Or.inl ?_
  unfold World.deleteEventFd at hin
  split at hin
  · have hdel : fd' ∈ (w.kernel.epollCtl .del fd 0).1.interest := hin
    rw [w.kernel.del_interest, Finmap.mem_erase] at hdel
    exact hdel.2
  · exact hin

theorem act (h : w.Opened) {a : World.Act} (ha : ∀ fd ∈ a.opens, fd ≠ -1) : (w.act a).Opened := by
  have changed : ∀ e (f : Event κ → Event κ), ((w.setObject e f).update e).Opened := fun e f =>
    h.keep (World.modifyEventFd_files _ _) fun fd hin =>
      Or.inl ((LiveState.mem_modifyEventFd_interest (w.setObject e f) _ fd).mp hin)
  cases a with
  | openFile fd kind =>
    refine ⟨fun fd' hin => Finmap.mem_insert.mpr (Or.inr (h.interest fd' hin)), fun hmem => ?_⟩
    rcases Finmap.mem_insert.mp hmem with heq | hold
    · exact ha fd rfl heq.symm
    · exact h.noError hold
  | closeFile fd =>
    refine ⟨fun fd' hin => ?_, fun hmem => h.noError (Finmap.mem_erase.mp hmem).2⟩
    obtain ⟨hne, hold⟩ := Finmap.mem_erase.mp hin
    exact Finmap.mem_erase.mpr ⟨hne, h.interest fd' hold⟩
  | newEvent fd => exact ⟨h.interest, h.noError⟩
  | addEvent e =>
    refine h.keep (Kernel.epollCtl_files _ _ _ _) fun fd hin => ?_
    have hadd : fd ∈ (w.kernel.epollCtl .add (w.object e).eventFd
        (w.object e).events).1.interest := hin
    rw [w.kernel.add_interest] at hadd
    split at hadd
    · rename_i haccepts
      rcases Finmap.mem_insert.mp hadd with heq | hold
      · rw [heq]
        exact Or.inr (Finmap.mem_of_lookup_eq_some haccepts.1)
      · exact Or.inl hold
    · exact Or.inl hadd
  | deleteEvent e =>
    refine h.keep (Kernel.epollCtl_files _ _ _ _) fun fd hin => Or.inl ?_
    have hdel : fd ∈ (w.kernel.epollCtl .del (w.object e).eventFd
        (w.object e).events).1.interest := hin
    rw [w.kernel.del_interest, Finmap.mem_erase] at hdel
    exact hdel.2
  | deleteEventFd fd => exact h.deleteEventFd fd
  | removeFromLoop e => exact h.deleteEventFd _
  | modifyEventFd fd =>
    exact h.keep (World.modifyEventFd_files _ _) fun fd' hin =>
      Or.inl ((LiveState.mem_modifyEventFd_interest w fd fd').mp hin)
  | enableReading e b => exact changed e _
  | enableWriting e b => exact changed e _
  | enableErrorEvent e b => exact changed e _
  | disableAll e => exact changed e _

theorem dispatch (h : w.Opened) (r : EpollEvent) : (w.dispatch r).1.Opened := by
  have hnull : ({ w with eventPool := insertNew r.fd none w.eventPool } : World κ).Opened :=
    ⟨h.interest, h.noError⟩
  simp only [World.dispatch]
  split
  · exact hnull
  · exact hnull.deleteEventFd r.fd

theorem opened (h : w.Opened) (fd : Int) : (w.opened fd).Opened := by
  unfold World.opened
  split
  · exact h
  · rename_i hne
    exact h.act fun fd' hfd => by
      cases hfd
      exact hne

end World.Opened

/-- Calls that leave a descriptor do not close it. -/
theorem mem_files_act {κ : Type} {w : World κ} {fd : Int} {e : EventId} {a : World.Act}
    (ha : a.leaves w fd e) (h : fd ∈ w.kernel.files) : fd ∈ (w.act a).kernel.files := by
  have changed : ∀ e' (f : Event κ → Event κ),
      ((w.setObject e' f).update e').kernel.files = w.kernel.files :=
    fun e' f => World.modifyEventFd_files _ _
  cases a with
  | openFile fd' kind => exact Finmap.mem_insert.mpr (Or.inr h)
  | closeFile fd' => exact Finmap.mem_erase.mpr ⟨Ne.symm ha.2.1, h⟩
  | newEvent fd' => exact h
  | addEvent e' => exact (Kernel.epollCtl_files w.kernel .add _ _).symm ▸ h
  | deleteEvent e' => exact (Kernel.epollCtl_files w.kernel .del _ _).symm ▸ h
  | deleteEventFd fd' => exact (w.deleteEventFd_files fd').symm ▸ h
  | removeFromLoop e' => exact (w.deleteEventFd_files _).symm ▸ h
  | modifyEventFd fd' => exact (w.modifyEventFd_files fd').symm ▸ h
  | enableReading e' b => exact (changed e' _).symm ▸ h
  | enableWriting e' b => exact (changed e' _).symm ▸ h
  | enableErrorEvent e' b => exact (changed e' _).symm ▸ h
  | disableAll e' => exact (changed e' _).symm ▸ h

theorem dispatch_files {κ : Type} (w : World κ) (r : EpollEvent) :
    (w.dispatch r).1.kernel.files = w.kernel.files := by
  simp only [World.dispatch]
  split
  · rfl
  · exact World.deleteEventFd_files _ _

/-- A service with the descriptor `fd` and the Event `e` is served on. -/
structure World.Serves {κ : Type} (w w' : World κ) (fd : Int) (e : EventId) : Prop where
  untouched : w.Untouched w' fd
  watches : ∀ callback, w.Watches fd e callback → w'.Watches fd e callback
  mem_files : fd ∈ w.kernel.files → fd ∈ w'.kernel.files

namespace World.Serves

variable {κ : Type} {w w' w'' : World κ} {fd : Int} {e : EventId}

theorem trans (h : w.Serves w' fd e) (h' : w'.Serves w'' fd e) : w.Serves w'' fd e :=
  ⟨h.untouched.trans h'.untouched, fun cb hw => h'.watches cb (h.watches cb hw),
    fun hf => h'.mem_files (h.mem_files hf)⟩

theorem own {fd' : Int} (hk : w.Keyed) (h : Own w w' fd') (hne : fd ≠ fd') : w.Serves w' fd e :=
  ⟨h.onlyAt.untouched hne, fun _ hw => h.onlyAt.watches hne hk hw, fun hf => h.files.symm ▸ hf⟩

theorem opened (w : World κ) (fd' : Int) : w.Serves (w.opened fd') fd e := by
  unfold World.opened
  split
  · exact ⟨⟨rfl, Iff.rfl⟩, fun _ => id, id⟩
  · exact ⟨⟨rfl, Iff.rfl⟩, fun _ hw => ⟨hw.registered, hw.object, hw.interest⟩,
      fun hf => Finmap.mem_insert.mpr (Or.inr hf)⟩

end World.Serves

namespace EngineState

variable {ι : Type} {s s' : EngineState ι} {l : EngineStep ι} {o : List (EngineCallback ι)}

structure Sound (s : EngineState ι) : Prop where
  keyed : s.world.Keyed
  opened : s.world.Opened
  services : ∀ k fd e, s.service k = some (fd, e) → fd ≠ -1 →
    fd ∈ s.world.eventPool ∧ fd ∈ s.world.kernel.files

theorem new_sound {w : World (EngineCallback ι)} (hk : w.Keyed) (ho : w.Opened) :
    (new w).Sound :=
  ⟨hk, ho, fun _ _ _ h => by cases h⟩

/-- What one step does for the services: those that were there are served on. -/
structure Advance (s s' : EngineState ι) : Prop where
  keyed : s'.world.Keyed
  opened : s'.world.Opened
  kept : ∀ k fd e, s.service k = some (fd, e) → s'.service k = some (fd, e)
  serves : ∀ k fd e, s.service k = some (fd, e) → fd ≠ -1 → s.world.Serves s'.world fd e
  made : ∀ k fd e, s.service k = none → s'.service k = some (fd, e) → fd ≠ -1 →
    fd ∈ s'.world.eventPool ∧ fd ∈ s'.world.kernel.files

theorem Sound.advance (h : s.Sound) (ha : s.Advance s') : s'.Sound where
  keyed := ha.keyed
  opened := ha.opened
  services k fd e hk hne := by
    cases hs : s.service k with
    | none => exact ha.made k fd e hs hk hne
    | some p =>
      obtain ⟨fd', e'⟩ := p
      have heq := (ha.kept k fd' e' hs).symm.trans hk
      cases heq
      obtain ⟨hpool, hfiles⟩ := h.services k fd e hs hne
      have hserves := ha.serves k fd e hs hne
      refine ⟨?_, hserves.mem_files hfiles⟩
      rw [Finmap.mem_iff, hserves.untouched.entry]
      exact Finmap.mem_iff.mp hpool

/-- A step that makes no service. -/
theorem Advance.sameServices {w : World (EngineCallback ι)} (hk : w.Keyed) (ho : w.Opened)
    (hserves : ∀ k fd e, s.service k = some (fd, e) → fd ≠ -1 → s.world.Serves w fd e) :
    s.Advance { s with world := w } :=
  ⟨hk, ho, fun _ _ _ => id, hserves, fun k fd e hnone hsome => by
    rw [show s.service k = some (fd, e) from hsome] at hnone
    cases hnone⟩

/-- Calls for a descriptor that is no service's. -/
theorem Sound.advance_own (h : s.Sound) {w : World (EngineCallback ι)} {fd : Int}
    (hown : Own s.world w fd) (hf : s.foreign fd) : s.Advance { s with world := w } :=
  .sameServices hown.keyed (h.opened.own hown) fun _ _ _ hk _ =>
    .own h.keyed hown (of_each hf hk)

theorem opened_keyed {κ : Type} {w : World κ} (hk : w.Keyed) (fd : Int) :
    (w.opened fd).Keyed := by
  unfold World.opened
  split
  · exact hk
  · exact ⟨hk.entry⟩

theorem construct_own {w : World (EngineCallback ι)} (hk : w.Keyed) (k : Service) (fd : Int) :
    Own w (construct k w fd).2 fd := by
  cases k with
  | callbackQueue => exact addReaderLate_own hk fd _
  | timerQueue => exact addReader_own hk fd _
  | signalMonitor => exact addReader_own hk fd _

/-- A getter that makes its service. -/
theorem getService_of_none {k : Service} (hk : s.service k = none) (fd : Int) :
    s.getService k fd =
      ⟨(construct k (s.world.opened fd) fd).2,
        Function.update s.service k (some (fd, (construct k (s.world.opened fd) fd).1))⟩ := by
  unfold getService
  rw [hk]

theorem getService_of_some {k : Service} {p : Int × EventId} (hk : s.service k = some p)
    (fd : Int) : s.getService k fd = s := by
  unfold getService
  rw [hk]

/-- The entry of a new service: there, unless the number had one already. -/
theorem construct_lookup (k : Service) (w : World (EngineCallback ι)) (fd : Int) :
    (construct k w fd).2.eventPool.lookup fd =
      if fd ∈ w.eventPool then w.eventPool.lookup fd else some (some w.next) := by
  have hadded : (construct k w fd).2.eventPool = insertNew fd (some w.next) w.eventPool := by
    have hadd : ((w.newEvent fd).2.addEvent w.next).eventPool =
        insertNew fd (some w.next) w.eventPool := by
      show insertNew ((w.newEvent fd).2.object w.next).eventFd _ _ = _
      rw [w.newEvent_self]
      rfl
    cases k with
    | callbackQueue | timerQueue | signalMonitor =>
      refine Eq.trans ?_ hadd
      simp only [construct, EventFD.construct, TimerQueue.construct, SignalMonitor.construct,
        World.addReader, World.addReaderLate, World.enableReading, World.enableFlag,
        World.update_eventPool, World.setObject_eventPool, World.setReadCallback,
        World.newEvent_fst]
  rw [hadded]
  split
  · rename_i hm
    rw [insertNew_of_mem hm]
  · rename_i hm
    rw [insertNew_of_notMem hm, Finmap.lookup_insert]

theorem construct_fst (k : Service) (w : World (EngineCallback ι)) (fd : Int) :
    (construct k w fd).1 = w.next := by
  cases k <;> rfl

theorem construct_added {w : World (EngineCallback ι)} {fd : Int} (k : Service)
    (hpool : fd ∉ w.eventPool) (hfd : fd ∉ w.kernel.interest) :
    w.ReaderAdded fd (callback k) (construct k w fd).1 (construct k w fd).2 := by
  cases k with
  | callbackQueue => exact w.addReaderLate_added fd _ hpool hfd
  | timerQueue => exact w.addReader_added fd _ hpool hfd
  | signalMonitor => exact w.addReader_added fd _ hpool hfd

/-- What the system answers is the descriptor of no service. -/
theorem Sound.ne_answer (h : s.Sound) {fd fd' : Int} (hfd : fd = -1 ∨ s.world.mayOpen fd)
    {k : Service} {e : EventId} (hk : s.service k = some (fd', e)) (hne : fd' ≠ -1) :
    fd' ≠ fd := by
  intro heq
  rcases hfd with herr | hopen
  · exact hne (heq.trans herr)
  · exact hopen.2 (heq ▸ (h.services k fd' e hk hne).2)

/-- **A getter makes its service beside the others.** -/
theorem Sound.advance_get (h : s.Sound) {k : Service} (hk : s.service k = none) {fd : Int}
    (hfd : fd = -1 ∨ s.world.mayOpen fd) : s.Advance (s.getService k fd) := by
  have hkeyed := opened_keyed h.keyed fd
  have hown := construct_own hkeyed k fd
  have hother : ∀ k' p, s.service k' = some p → k' ≠ k := by
    intro k' p hk' heq
    rw [heq, hk] at hk'
    cases hk'
  rw [getService_of_none hk]
  refine ⟨hown.keyed, (h.opened.opened fd).own hown, ?_, ?_, ?_⟩
  · intro k' fd' e hk'
    show Function.update s.service k _ k' = _
    rw [Function.update_of_ne (hother k' _ hk'), hk']
  · intro k' fd' e hk' hne
    exact (World.Serves.opened s.world fd).trans (.own hkeyed hown (h.ne_answer hfd hk' hne))
  · intro k' fd' e hnone hmade hne
    replace hmade : Function.update s.service k
        (some (fd, (construct k (s.world.opened fd) fd).1)) k' = some (fd', e) := hmade
    by_cases hkk : k' = k
    · rw [hkk, Function.update_self] at hmade
      cases hmade
      refine ⟨?_, ?_⟩
      · show fd ∈ (construct k (s.world.opened fd) fd).2.eventPool
        rw [Finmap.mem_iff, construct_lookup]
        split
        · rename_i hm
          exact Finmap.mem_iff.mp hm
        · exact ⟨_, rfl⟩
      · show fd ∈ (construct k (s.world.opened fd) fd).2.kernel.files
        rw [hown.files, World.opened, if_neg hne]
        exact Finmap.mem_insert.mpr (Or.inl rfl)
    · rw [Function.update_of_ne hkk, hnone] at hmade
      cases hmade

/-- **One step**: what is there is served on. -/
theorem Sound.step (h : s.Sound) (hs : (engine ι).step s l = some (s', o))
    (hok : LeavesServices s l s' o) : s.Advance s' := by
  have here : s.Advance s :=
    .sameServices h.keyed h.opened fun _ _ _ _ _ =>
      ⟨⟨rfl, Iff.rfl⟩, fun _ => id, id⟩
  cases l with
  | get k fd =>
    simp only [engine] at hs
    split at hs
    · rename_i hfd
      cases hs
      cases hk : s.service k with
      | none => exact h.advance_get hk (hfd hk)
      | some p =>
        rw [getService_of_some hk]
        exact here
    · cases hs
  | act a =>
    simp only [engine] at hs
    split at hs
    · rename_i ha
      cases hs
      exact .sameServices (h.keyed.act ha.1) (h.opened.act fun fd hfd => (ha.2 fd hfd).1)
        fun k fd e hk _ =>
          have hleaves := of_each (P := fun fd e => a.leaves s.world fd e) hok hk
          ⟨untouched_act hleaves, fun _ hw => hw.act h.keyed hleaves.2.1, mem_files_act hleaves⟩
    · cases hs
  | addFd fd events handler =>
    cases hs
    exact h.advance_own (addFd_own h.keyed fd events _) hok
  | modifyFd fd events =>
    cases hs
    exact h.advance_own (modifyFd_own h.keyed fd events) hok
  | removeFd fd =>
    cases hs
    exact .sameServices (h.keyed.act (a := .deleteEventFd fd) trivial)
      (h.opened.deleteEventFd fd) fun k fd' e hk _ =>
        have hne := of_each (P := fun fd' _ => fd' ≠ fd) hok hk
        ⟨(Engine.removeFd_onlyAt s.world fd).untouched hne,
          fun _ hw => hw.deleteEventFd (Ne.symm hne),
          fun hin => (s.world.deleteEventFd_files fd).symm ▸ hin⟩
  | dispatch r =>
    cases hs
    exact .sameServices (h.keyed.dispatch r) (h.opened.dispatch r) fun k fd e hk hne =>
      ⟨untouched_dispatch h.keyed (h.services k fd e hk hne).1 r,
        fun _ hw => hw.dispatch h.keyed r, fun hin => (dispatch_files s.world r).symm ▸ hin⟩

/-! ## 6. Every run -/

theorem Sound.run (h : s.Sound) {ls : List (EngineStep ι)}
    {os : List (List (EngineCallback ι))} (hok : (engine ι).Along LeavesServices s ls)
    (hr : (engine ι).run s ls = some (s', os)) : s'.Sound :=
  Machine.run_induct_along (P := fun _ _ t => t.Sound) h
    (fun _ _ _ _ _ _ _ hI hs hok => hI.advance (hI.step hs hok)) hok hr

/-- A service that was made stays, and what others do leaves it alone. -/
theorem Sound.run_serves (h : s.Sound) {k : Service} {fd : Int} {e : EventId}
    (hk : s.service k = some (fd, e)) {ls : List (EngineStep ι)}
    {os : List (List (EngineCallback ι))} (hok : (engine ι).Along LeavesServices s ls)
    (hr : (engine ι).run s ls = some (s', os)) :
    s'.service k = some (fd, e) ∧ (fd ≠ -1 → s.world.Serves s'.world fd e) := by
  have hinv : s'.Sound ∧ s'.service k = some (fd, e) ∧
      (fd ≠ -1 → s.world.Serves s'.world fd e) :=
    Machine.run_induct_along
      (P := fun _ _ t => t.Sound ∧ t.service k = some (fd, e) ∧
        (fd ≠ -1 → s.world.Serves t.world fd e))
      ⟨h, hk, fun _ => ⟨⟨rfl, Iff.rfl⟩, fun _ => id, id⟩⟩
      (fun _ _ t l t' o _ hI hs hok => by
        obtain ⟨hsound, hmade, hserves⟩ := hI
        have ha := hsound.step hs hok
        exact ⟨hsound.advance ha, ha.kept k fd e hmade,
          fun hne => (hserves hne).trans (ha.serves k fd e hmade hne)⟩) hok hr
  exact hinv.2

/-- **When a new service is heard**, and that it is not heard otherwise can be seen in the registry
    or in the kernel. -/
theorem Sound.made (h : s.Sound) {k : Service} (hk : s.service k = none) {fd : Int}
    (hfd : fd = -1 ∨ s.world.mayOpen fd) :
    (s.getService k fd).service k = some (fd, s.world.next) ∧
      (((s.world.opened fd).kernel.accepts fd ∧ fd ∉ s.world.eventPool) →
        (s.getService k fd).world.Watches fd s.world.next (callback k)) ∧
      (¬ ((s.world.opened fd).kernel.accepts fd ∧ fd ∉ s.world.eventPool) →
        (s.getService k fd).world.eventPool.lookup fd ≠ some (some s.world.next) ∨
          fd ∉ (s.getService k fd).world.kernel.interest) := by
  have hnext : (s.world.opened fd).next = s.world.next := by
    unfold World.opened
    split <;> rfl
  have hpool : (s.world.opened fd).eventPool = s.world.eventPool := by
    unfold World.opened
    split <;> rfl
  have hinterest : (s.world.opened fd).kernel.interest = s.world.kernel.interest := by
    unfold World.opened
    split <;> rfl
  have hnotin : fd ∉ (s.world.opened fd).kernel.interest := by
    rw [hinterest]
    intro hin
    have hopen := h.opened.interest fd hin
    rcases hfd with herr | hmay
    · exact h.opened.noError (herr ▸ hopen)
    · exact hmay.2 hopen
  rw [getService_of_none hk]
  refine ⟨?_, ?_, ?_⟩
  · show Function.update s.service k _ k = _
    rw [Function.update_self, construct_fst, hnext]
  · intro ⟨haccepts, hnew⟩
    have hwatches := (construct_added k (hpool.symm ▸ hnew) hnotin).watches haccepts
    rwa [construct_fst, hnext] at hwatches
  · intro hnot
    by_cases hm : fd ∈ s.world.eventPool
    · refine Or.inl ?_
      show (construct k (s.world.opened fd) fd).2.eventPool.lookup fd ≠ _
      rw [construct_lookup, hpool, if_pos hm]
      intro hold
      obtain ⟨e, he, hlt, -⟩ := h.keyed.entry fd _ hold
      cases he
      exact Nat.lt_irrefl _ hlt
    · refine Or.inr ?_
      show fd ∉ (construct k (s.world.opened fd) fd).2.kernel.interest
      rw [(construct_added k (hpool.symm ▸ hm) hnotin).interest,
        if_neg fun haccepts => hnot ⟨haccepts, hm⟩]
      exact hnotin

end EngineState

/-- When the kernel accepts a descriptor that was just opened: it was, and a watch is left. -/
theorem accepts_opened_iff {κ : Type} {w : World κ} (h : w.Opened) {fd : Int}
    (hfd : fd = -1 ∨ w.mayOpen fd) :
    (w.opened fd).kernel.accepts fd ↔
      fd ≠ -1 ∧ w.kernel.interest.keys.card < w.kernel.maxWatches := by
  unfold World.opened
  split
  · rename_i herr
    refine ⟨fun haccepts => ?_, fun hne => absurd herr hne.1⟩
    exact absurd (herr ▸ Finmap.mem_of_lookup_eq_some haccepts.1) h.noError
  · rename_i hne
    have hmay := hfd.resolve_left hne
    constructor
    · intro haccepts
      exact ⟨hne, haccepts.2.2⟩
    · intro hcard
      exact ⟨Finmap.lookup_insert _, fun hin => hmay.2 (h.interest fd hin), hcard.2⟩

/-- **When an engine hears a service**, whatever is asked of the engine and done on its loop before
    and after, as long as it is not for the descriptor or the Event of a service: the service stays
    the one that was made, and it is heard exactly if its descriptor could be opened, the kernel
    had a watch left, and the registry no entry left under that number. Nothing that happens later
    makes up for it. -/
theorem heard_iff_accepted {ι : Type} {files : Finmap fun _ : Int => FileKind} {maxWatches : Nat}
    (hfiles : (-1 : Int) ∉ files) {before after : List (EngineStep ι)}
    {s s' t : EngineState ι} {os os' : List (List (EngineCallback ι))}
    {o : List (EngineCallback ι)} {k : Service} {fd : Int}
    (hok : (engine ι).Along LeavesServices (.new (World.initial files maxWatches)) before)
    (hok' : (engine ι).Along LeavesServices s' after)
    (hbefore : (engine ι).run (.new (World.initial files maxWatches)) before = some (s, os))
    (hk : s.service k = none) (hget : (engine ι).step s (.get k fd) = some (s', o))
    (hafter : (engine ι).run s' after = some (t, os')) :
    t.service k = some (fd, s.world.next) ∧
      (t.Heard k ↔ fd ≠ -1 ∧ s.world.kernel.interest.keys.card < s.world.kernel.maxWatches ∧
        fd ∉ s.world.eventPool) ∧
      (t.Heard k → (engine ι).step t (.dispatch ⟨fd, EPOLLIN⟩) =
        some (t, [EngineState.callback k])) := by
  have hs : s.Sound :=
    (EngineState.new_sound (.initial files maxWatches) (.initial hfiles)).run hok hbefore
  have hs' := hs.advance (hs.step hget trivial)
  have hfd : fd = -1 ∨ s.world.mayOpen fd := by
    simp only [engine] at hget
    split at hget
    · rename_i hfd
      exact hfd hk
    · cases hget
  obtain rfl : s' = s.getService k fd := by
    simp only [engine] at hget
    split at hget
    · cases hget
      rfl
    · cases hget
  obtain ⟨hmade, hheard, hdeaf⟩ := hs.made hk hfd
  obtain ⟨hstays, hserves⟩ := hs'.run_serves hmade hok' hafter
  have ht := hs'.run hok' hafter
  -- a service that is heard is the one that was made
  have hwatches : t.Heard k ↔ t.world.Watches fd s.world.next (EngineState.callback k) := by
    constructor
    · intro ⟨fd', e, hk', hw⟩
      rw [hstays] at hk'
      cases hk'
      exact hw
    · intro hw
      exact ⟨fd, s.world.next, hstays, hw⟩
  refine ⟨hstays, ?_, ?_⟩
  · rw [hwatches, ← and_assoc, ← accepts_opened_iff hs.opened hfd]
    constructor
    · intro hw
      have hne : fd ≠ -1 := fun herr =>
        ht.opened.noError (herr ▸ ht.opened.interest fd (Finmap.mem_of_lookup_eq_some hw.interest))
      by_contra hnot
      rcases hdeaf hnot with hentry | hin
      · exact hentry ((hserves hne).untouched.entry ▸ hw.registered)
      · exact hin ((hserves hne).untouched.watched.mp (Finmap.mem_of_lookup_eq_some hw.interest))
    · intro hgood
      have hne := ((accepts_opened_iff hs.opened hfd).mp hgood.1).1
      exact (hserves hne).watches _ (hheard hgood)
  · intro hh
    obtain ⟨hdispatch, hhandle⟩ := (hwatches.mp hh).report
    simp only [engine, hdispatch, Option.toList_some, List.flatMap_singleton]
    rw [hhandle]

/-- The application monitors descriptor 7 and closes it, but does not remove it. -/
def leftEntry : List (EngineStep Nat) :=
  [.get .callbackQueue 5, .act (.openFile 7 .pollable), .addFd 7 EPOLLIN 1,
    .act (.closeFile 7)]

/-- A signal monitor that gets the same number is never heard. -/
theorem heard_iff_accepted_left_entry : ∃ s s' t os o os',
    (engine Nat).run (.new (World.initial ∅ 8)) leftEntry = some (s, os) ∧
      (engine Nat).step s (.get .signalMonitor 7) = some (s', o) ∧
      (engine Nat).run s' [.dispatch ⟨7, EPOLLIN⟩, .removeFd 9] = some (t, os') ∧
      t.service .signalMonitor = some (7, s.world.next) ∧ ¬ t.Heard .signalMonitor := by
  have hok : (engine Nat).Along LeavesServices (.new (World.initial ∅ 8)) (leftEntry ++
      [.get .signalMonitor 7, .dispatch ⟨7, EPOLLIN⟩, .removeFd 9]) := by
    decide +kernel
  have hsome : ((engine Nat).run (.new (World.initial ∅ 8)) (leftEntry ++
      [.get .signalMonitor 7, .dispatch ⟨7, EPOLLIN⟩, .removeFd 9])).isSome := by
    decide +kernel
  obtain ⟨⟨t, all⟩, hrun⟩ := Option.isSome_iff_exists.mp hsome
  obtain ⟨s, os, _, hbefore, hrest, -⟩ := Machine.run_append_iff.mp hrun
  obtain ⟨s', o, os', hget, hafter, -⟩ := Machine.run_cons_iff.mp hrest
  obtain ⟨hokBefore, hokRest⟩ := Machine.along_append hok hbefore
  have hseen : ((engine Nat).run (.new (World.initial ∅ 8)) leftEntry).map
      (fun p => (p.1.service .signalMonitor, decide (7 ∈ p.1.world.eventPool))) =
        some (none, true) := by
    decide +kernel
  rw [hbefore] at hseen
  obtain ⟨hnone, hentry⟩ := Prod.mk.inj (Option.some.inj hseen)
  obtain ⟨hstays, hheard, -⟩ :=
    heard_iff_accepted Finmap.notMem_empty hokBefore (Machine.along_cons hokRest hget).2 hbefore
      hnone hget hafter
  exact ⟨s, s', t, os, o, os', hbefore, hget, hafter, hstays,
    fun hh => (hheard.mp hh).2.2 (of_decide_eq_true hentry)⟩

/-- A plugin that passes the descriptor of the callback queue to `removeFd` makes it deaf. -/
example : ((engine Nat).run (.new (World.initial ∅ 8)) [.get .callbackQueue 5, .removeFd 5]).map
    (fun p => (p.1.service .callbackQueue, p.1.world.kernel.interest.lookup 5)) =
    some (some (5, 0), none) := by
  decide +kernel

end PluginsEngine
