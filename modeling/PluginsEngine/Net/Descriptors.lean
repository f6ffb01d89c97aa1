/-
  File:      PluginsEngine/Net/Descriptors.lean
  Subject:   THE DESCRIPTORS OF A SERVER'S CONNECTIONS (net/tcp/tcpConnect.cpp, socket.cpp,
             tcpServer.cpp).

  A connection takes its descriptor from accept(2), registers it with a loop of the pool, and gives
  it back in its destructor. The kernel hands out any descriptor that is not open, so the numbers
  come back, on the same loop or on another one. The loops have other Events as well, those of the
  acceptor and of the services, whose descriptors stay open.

  * `OwnFlags` -- what a method of a connection does to its loop;
  * `TcpServer.destruct` -- the destructors of a connection and of its socket;
  * `descriptors` -- accepts, methods, reports and destructions, in any order;
  * `ConnectionsWatched` -- every live connection is watched on its loop under its own Event, and
    there is nothing else but what was there before the first accept;
  * `HandedByNumber` -- and a record is handed to the connection that has its number on that loop
    when it is dispatched, to nobody if there is none;
  * `watched_iff_room` -- this holds at every point of a run exactly when the kernel has a watch
    left at each of its accepts.
-/
import PluginsEngine.Event.Coherence
import PluginsEngine.Net.SharedLoops

namespace PluginsEngine

open Library

variable {κ : Type}

/-! ## 1. What a method does to its loop -/

/-- The mask of one registered Event may change, in the object and in the kernel, and nothing
    else. -/
structure OwnFlags (e : EventId) (w w' : World κ) : Prop where
  eventPool : w'.eventPool = w.eventPool
  next : w'.next = w.next
  files : w'.kernel.files = w.kernel.files
  others : ∀ e', e' ≠ e → w'.object e' = w.object e'
  eventFd : (w'.object e).eventFd = (w.object e).eventFd
  coherent : Coherent w → Coherent w'

namespace OwnFlags

variable {e : EventId} {w w' w'' : World κ}

theorem refl (w : World κ) : OwnFlags e w w := ⟨rfl, rfl, rfl, fun _ _ => rfl, rfl, id⟩

theorem trans (h : OwnFlags e w w') (h' : OwnFlags e w' w'') : OwnFlags e w w'' where
  eventPool := h'.eventPool.trans h.eventPool
  next := h'.next.trans h.next
  files := h'.files.trans h.files
  others e' he := (h'.others e' he).trans (h.others e' he)
  eventFd := h'.eventFd.trans h.eventFd
  coherent hw := h'.coherent (h.coherent hw)

/-- The Event is changed, but for its descriptor, and the loop is told. -/
theorem update (w : World κ) (e : EventId) {f : Event κ → Event κ}
    (hf : (f (w.object e)).eventFd = (w.object e).eventFd) :
    OwnFlags e w ((w.setObject e f).update e) where
  eventPool := World.update_eventPool _ _
  next := World.update_next _ _
  files := World.modifyEventFd_files _ _
  others e' he := by rw [World.update_object, World.setObject_of_ne _ _ he]
  eventFd := by rw [World.update_object, World.setObject_self, hf]
  coherent hw := hw.update e hf

theorem enableFlag (w : World κ) (e : EventId) (flag : Mask) (b : Bool) :
    OwnFlags e w (w.enableFlag flag e b) :=
  update w e rfl

end OwnFlags

namespace Connection

variable (c : Connection)

/-- A method changes the flags of its own Event. -/
def Flags (c c' : Connection) : Prop := OwnFlags c.connect.event c.loop c'.loop

variable {c} in
theorem Flags.of_loop_eq {c' : Connection} (h : c'.loop = c.loop) : Flags c c' := by
  rw [Flags, h]
  exact .refl _

theorem closeEvent_loop : c.closeEvent.1.loop = c.loop := by
  unfold closeEvent
  split <;> rfl

theorem readEvent_flags (r : ReadvAnswer) : Flags c (c.readEvent r).1 := by
  refine .of_loop_eq ?_
  unfold readEvent
  dsimp only
  split
  · rfl
  · split
    · exact closeEvent_loop _
    · split
      · rfl
      · exact closeEvent_loop _

theorem writeEvent_flags (a : WriteAnswer) : Flags c (c.writeEvent a).1 := by
  unfold writeEvent
  split
  · exact .of_loop_eq rfl
  · dsimp only
    split
    · split
      · exact .enableFlag _ _ _ _
      · exact .of_loop_eq rfl
    · split
      · exact .of_loop_eq rfl
      · exact .of_loop_eq (closeEvent_loop c)

theorem runCallback_flags (cb : TcpCallback) (io : IoAnswer) : Flags c (c.runCallback cb io).1 := by
  cases cb with
  | readEvent => exact readEvent_flags c io.readv
  | writeEvent => exact writeEvent_flags c io.write
  | errorEvent | closeEvent => exact .of_loop_eq (closeEvent_loop c)

theorem finishWrite_flags (f : WriteFrame) : Flags c (c.finishWrite f) := by
  unfold finishWrite
  split
  · dsimp only
    split
    · exact .enableFlag _ _ _ _
    · exact .of_loop_eq rfl
  · exact .of_loop_eq rfl

theorem connectedHandle_flags : Flags c c.connectedHandle := by
  have hread := OwnFlags.enableFlag c.loop c.connect.event Event.readEventFlag true
  exact hread.trans (.enableFlag _ _ Event.errorEventFlag true)

theorem shutdownWrite_flags : Flags c c.shutdownWrite := by
  refine .of_loop_eq ?_
  unfold shutdownWrite
  split <;> rfl

end Connection

/-! ## 2. Descriptors that come and go -/

namespace TcpServer

variable (s : TcpServer) (id : ConnectId)

/-- A descriptor is one of the process, whichever loop looks at it. -/
def onLoops (f : World TcpCallback → World TcpCallback) : TcpServer :=
  { s with loops := fun i => f (s.loops i) }

def openFile (fd : Int) : TcpServer := s.onLoops fun w => w.act (.openFile fd .pollable)

def closeFile (fd : Int) : TcpServer := s.onLoops fun w => w.act (.closeFile fd)

/-- `~TcpConnect`, and `~Socket` of its member, which closes the descriptor. -/
def destruct : TcpServer :=
  let c := s.connection id
  let loop := c.loop.disableAll c.connect.event
  let loop := loop.removeFromLoop c.connect.event
  (s.setConnection id { c with loop := loop }).closeFile (s.object id).socketFd

end TcpServer

/-- A server, and which of its connection objects are not destroyed yet. -/
structure DescriptorState where
  server : TcpServer
  alive : ConnectId → Bool

inductive DescriptorStep where
  /-- accept(2) answers with a descriptor that is not open, and the connection is set up. -/
  | accept (sockfd : Int) (addr : SocketAddr)
  /-- A callback of the Event of a connection runs. -/
  | callback (id : ConnectId) (cb : TcpCallback) (io : IoAnswer)
  | write (id : ConnectId) (data : List UInt8) (a : WriteAnswer)
  | shutdownWrite (id : ConnectId)
  /-- The last reference to a connection goes. -/
  | destroy (id : ConnectId)
  /-- Loop `i` dispatches a record of epoll_wait. -/
  | report (i : Nat) (r : EpollEvent)

/-- The connections of a server from accept to destruction. The pool keeps those alive that it has
    an entry of, the application any others. The output is the Event that gets a record. -/
def descriptors : Machine DescriptorState DescriptorStep (Option EventId) where
  step s
    | .accept sockfd addr =>
      if sockfd ∉ (s.server.loops 0).kernel.files then
        let (id, server) := (s.server.openFile sockfd).newConnected sockfd addr
        some (⟨server, Function.update s.alive id true⟩, none)
      else none
    | .callback id cb io =>
      if s.alive id ∧ (s.server.connection id).callbackFits cb io then
        some ({ s with server := (s.server.runCallback id cb io).1 }, none)
      else none
    | .write id data a =>
      if s.alive id then some ({ s with server := s.server.write id data a }, none) else none
    | .shutdownWrite id =>
      if s.alive id then some ({ s with server := s.server.shutdownWrite id }, none) else none
    | .destroy id =>
      if s.alive id ∧ ¬ s.server.owns id then
        some (⟨s.server.destruct id, Function.update s.alive id false⟩, none)
      else none
    | .report i r =>
      let (loop, event) := (s.server.loops i).dispatch r
      some ({ s with
        server := { s.server with loops := Function.update s.server.loops i loop } }, event)

/-- No connection yet. -/
def DescriptorState.initial (poolSize : Nat) (loops : Nat → World TcpCallback) :
    DescriptorState :=
  ⟨.initial poolSize loops, fun _ => false⟩

/-- The loops before the first accept: coherent, with the same descriptors open for each, those
    of their own Events among them. -/
structure LoopsReady (loops : Nat → World TcpCallback) : Prop where
  coherent : ∀ i, Coherent (loops i)
  files : ∀ i, (loops i).kernel.files = (loops 0).kernel.files
  registered : ∀ i fd, fd ∈ (loops i).eventPool → fd ∈ (loops 0).kernel.files

/-- **Every live connection is watched, and nothing is left of the others.** `loops` are the loops
    before the first accept. -/
structure ConnectionsWatched (loops : Nat → World TcpCallback) (s : DescriptorState) : Prop where
  live : ∀ id, s.alive id = true →
    (s.server.connection id).loop.eventPool.lookup (s.server.object id).socketFd =
        some (some (s.server.eventOf id)) ∧
      (s.server.connection id).loop.kernel.interest.lookup (s.server.object id).socketFd =
        some (s.server.connection id).event.events
  single : ∀ id id', s.alive id = true → s.alive id' = true →
    (s.server.object id).socketFd = (s.server.object id').socketFd → id = id'
  opened : ∀ fd, fd ∈ (s.server.loops 0).kernel.files ↔
    fd ∈ (loops 0).kernel.files ∨ ∃ id, s.alive id = true ∧ (s.server.object id).socketFd = fd
  entries : ∀ i fd, fd ∉ (loops 0).kernel.files →
    (fd ∈ (s.server.loops i).eventPool ∨ fd ∈ (s.server.loops i).kernel.interest) →
    ∃ id, s.alive id = true ∧ (s.server.object id).loop = i ∧ (s.server.object id).socketFd = fd
  asBefore : ∀ i fd, fd ∈ (loops 0).kernel.files →
    (s.server.loops i).eventPool.lookup fd = (loops i).eventPool.lookup fd ∧
      (s.server.loops i).kernel.interest.lookup fd = (loops i).kernel.interest.lookup fd

/-! ## 3. The invariant -/

/-- **What accepts, methods and destructions keep**, with what is needed of the Event objects. -/
structure DescriptorsKept (loops : Nat → World TcpCallback) (s : DescriptorState) : Prop where
  coherent : ∀ i, Coherent (s.server.loops i)
  files : ∀ i, (s.server.loops i).kernel.files = (s.server.loops 0).kernel.files
  opened : ∀ fd, fd ∈ (s.server.loops 0).kernel.files ↔
    fd ∈ (loops 0).kernel.files ∨ ∃ id, s.alive id = true ∧ (s.server.object id).socketFd = fd
  fresh : ∀ id, s.alive id = true → (s.server.object id).socketFd ∉ (loops 0).kernel.files
  single : ∀ id id', s.alive id = true → s.alive id' = true →
    (s.server.object id).socketFd = (s.server.object id').socketFd → id = id'
  constructed : ∀ id, s.alive id = true → id < s.server.next
  event : ∀ id, s.alive id = true →
    (loops (s.server.object id).loop).next ≤ s.server.eventOf id
  watched : ∀ id, s.alive id = true →
    (s.server.loops (s.server.object id).loop).eventPool.lookup (s.server.object id).socketFd =
      some (some (s.server.eventOf id))
  entries : ∀ i fd, fd ∉ (loops 0).kernel.files → fd ∈ (s.server.loops i).eventPool →
    ∃ id, s.alive id = true ∧ (s.server.object id).loop = i ∧ (s.server.object id).socketFd = fd
  others : ∀ i fd, fd ∈ (loops 0).kernel.files →
    (s.server.loops i).eventPool.lookup fd = (loops i).eventPool.lookup fd
  objects : ∀ i e, e < (loops i).next → (s.server.loops i).object e = (loops i).object e
  next : ∀ i, (loops i).next ≤ (s.server.loops i).next

/-- The mask the kernel has for a registered Event is its own. -/
theorem Coherent.interest_of_lookup {w : World κ} (h : Coherent w) {fd : Int} {e : EventId}
    (he : w.eventPool.lookup fd = some (some e)) :
    w.kernel.interest.lookup fd = some (w.object e).events := by
  obtain ⟨e', heq, -, -, hmask⟩ := h.entry fd _ he
  cases heq
  exact hmask

theorem Coherent.interest_eq_none {w : World κ} (h : Coherent w) {fd : Int}
    (he : w.eventPool.lookup fd = none) : w.kernel.interest.lookup fd = none :=
  Finmap.lookup_eq_none.mpr fun hin => Finmap.lookup_eq_none.mp he ((h.keys fd).mpr hin)

namespace DescriptorsKept

variable {loops : Nat → World TcpCallback} {s s' : DescriptorState} {id : ConnectId}

theorem initial (hready : LoopsReady loops) (poolSize : Nat) :
    DescriptorsKept loops (.initial poolSize loops) where
  coherent := hready.coherent
  files := hready.files
  opened fd := by
    refine ⟨.inl, fun h => h.elim id ?_⟩
    rintro ⟨id, halive, -⟩
    cases halive
  fresh _ h := by cases h
  single _ _ h := by cases h
  constructed _ h := by cases h
  event _ h := by cases h
  watched _ h := by cases h
  entries i fd hno hin := absurd (hready.registered i fd hin) hno
  others _ _ _ := rfl
  objects _ _ _ := rfl
  next _ := Nat.le_refl _

theorem connectionsWatched (h : DescriptorsKept loops s) (hready : LoopsReady loops) :
    ConnectionsWatched loops s where
  live id halive :=
    ⟨h.watched id halive, (h.coherent _).interest_of_lookup (h.watched id halive)⟩
  single := h.single
  opened := h.opened
  entries i fd hno hin :=
    h.entries i fd hno (hin.elim id ((h.coherent i).keys fd).mpr)
  asBefore i fd hfd := by
    have hpool := h.others i fd hfd
    refine ⟨hpool, ?_⟩
    cases hentry : (loops i).eventPool.lookup fd with
    | none =>
      rw [(hready.coherent i).interest_eq_none hentry,
        (h.coherent i).interest_eq_none (hpool.trans hentry)]
    | some v =>
      obtain ⟨e, rfl, hlt, -, hmask⟩ := (hready.coherent i).entry fd v hentry
      rw [hmask, (h.coherent i).interest_of_lookup (hpool.trans hentry), h.objects i e hlt]

/-- **What a method of a connection leaves of the server**: every object is known by what it was
    known by, and every loop sees no more than a change of the flags of the connection's Event. -/
structure Method (id : ConnectId) (s s' : TcpServer) : Prop where
  socketFd : ∀ x, (s'.object x).socketFd = (s.object x).socketFd
  loop : ∀ x, (s'.object x).loop = (s.object x).loop
  eventOf : ∀ x, s'.eventOf x = s.eventOf x
  next : s'.next = s.next
  flags : ∀ i, OwnFlags (s.eventOf id) (s.loops i) (s'.loops i)
  others : ∀ i, i ≠ (s.object id).loop → s'.loops i = s.loops i

/-- The connection is written back. -/
theorem method_setConnection (s : TcpServer) (id : ConnectId) {c : Connection}
    (hflags : (s.connection id).Flags c) (hevent : c.connect.event = s.eventOf id) :
    Method id s (s.setConnection id c) where
  socketFd x := by
    rcases eq_or_ne x id with rfl | hne
    · rw [TcpServer.setConnection_object]
    · rw [TcpServer.setConnection_object_of_ne _ _ _ hne]
  loop := s.setConnection_loop id c
  eventOf x := by
    rcases eq_or_ne x id with rfl | hne
    · rw [TcpServer.eventOf, TcpServer.setConnection_object]
      exact hevent
    · rw [TcpServer.eventOf, TcpServer.setConnection_object_of_ne _ _ _ hne]
      rfl
  next := rfl
  flags i := by
    show OwnFlags (s.eventOf id) (s.loops i) (Function.update s.loops (s.object id).loop c.loop i)
    rcases eq_or_ne i (s.object id).loop with rfl | hi
    · rw [Function.update_self]
      exact hflags
    · rw [Function.update_of_ne hi]
      exact .refl _
  others i hi := Function.update_of_ne hi _ _

/-- **A method of a live connection** that changes the flags of its Event only. -/
theorem method (h : DescriptorsKept loops s) (hid : s.alive id = true)
    (hmethod : Method id s.server s'.server) (halive : s'.alive = s.alive) :
    DescriptorsKept loops s' where
  coherent i := (hmethod.flags i).coherent (h.coherent i)
  files i := by rw [(hmethod.flags i).files, (hmethod.flags 0).files, h.files i]
  opened fd := by
    rw [(hmethod.flags 0).files, h.opened fd, halive]
    simp only [hmethod.socketFd]
  fresh x hx := by
    rw [halive] at hx
    rw [hmethod.socketFd]
    exact h.fresh x hx
  single x y hx hy := by
    rw [halive] at hx hy
    rw [hmethod.socketFd, hmethod.socketFd]
    exact h.single x y hx hy
  constructed x hx := by
    rw [halive] at hx
    rw [hmethod.next]
    exact h.constructed x hx
  event x hx := by
    rw [halive] at hx
    rw [hmethod.loop, hmethod.eventOf]
    exact h.event x hx
  watched x hx := by
    rw [halive] at hx
    rw [hmethod.loop, hmethod.socketFd, hmethod.eventOf, (hmethod.flags _).eventPool]
    exact h.watched x hx
  entries i fd hno hin := by
    rw [(hmethod.flags i).eventPool] at hin
    obtain ⟨x, hx, hi, hxfd⟩ := h.entries i fd hno hin
    exact ⟨x, by rw [halive, hx], by rw [hmethod.loop, hi], by rw [hmethod.socketFd, hxfd]⟩
  others i fd hin := by
    rw [(hmethod.flags i).eventPool]
    exact h.others i fd hin
  objects i e he := by
    rcases eq_or_ne i (s.server.object id).loop with rfl | hi
    · have hne : e ≠ s.server.eventOf id :=
        Nat.ne_of_lt (Nat.lt_of_lt_of_le he (h.event id hid))
      rw [(hmethod.flags _).others e hne]
      exact h.objects _ e he
    · rw [hmethod.others i hi]
      exact h.objects i e he
  next i := by
    rw [(hmethod.flags i).next]
    exact h.next i

/-- A callback of its Event; the pool may lose the entry of the connection. -/
theorem method_runCallback (s : TcpServer) (id : ConnectId) (cb : TcpCallback) (io : IoAnswer) :
    Method id s (s.runCallback id cb io).1 := by
  have hset := method_setConnection s id ((s.connection id).runCallback_flags cb io)
    ((s.connection id).runCallback_law cb io).event
  unfold TcpServer.runCallback
  dsimp only
  split
  · exact ⟨hset.socketFd, hset.loop, hset.eventOf, hset.next, hset.flags, hset.others⟩
  · exact hset

theorem callback (h : DescriptorsKept loops s) (hid : s.alive id = true) (cb : TcpCallback)
    (io : IoAnswer) :
    DescriptorsKept loops { s with server := (s.server.runCallback id cb io).1 } :=
  h.method hid (method_runCallback s.server id cb io) rfl

theorem write (h : DescriptorsKept loops s) (hid : s.alive id = true) (data : List UInt8)
    (a : WriteAnswer) : DescriptorsKept loops { s with server := s.server.write id data a } := by
  unfold TcpServer.write
  dsimp only
  split
  · exact h
  · exact h.method hid (method_setConnection _ id (Connection.finishWrite_flags _ _)
      (OwnEvent.finishWrite _ _).event) rfl

theorem shutdownWrite (h : DescriptorsKept loops s) (hid : s.alive id = true) :
    DescriptorsKept loops { s with server := s.server.shutdownWrite id } :=
  h.method hid (method_setConnection _ id (Connection.shutdownWrite_flags _)
    (OwnEvent.shutdownWrite _).event) rfl

/-- A record changes nothing of a coherent loop. -/
theorem dispatch_eq {w : World κ} (hw : Coherent w) (r : EpollEvent) : (w.dispatch r).1 = w := by
  obtain ⟨hpool, hkernel⟩ := hw.dispatch r
  have hobject := w.dispatch_object r
  have hnext := w.dispatch_next r
  cases hd : (w.dispatch r).1 with
  | mk object next eventPool kernel =>
    rw [hd] at hpool hkernel hobject hnext
    dsimp only at hpool hkernel hobject hnext
    rw [hobject, hnext, hpool, hkernel]

theorem report (h : DescriptorsKept loops s) (i : Nat) (r : EpollEvent) :
    DescriptorsKept loops { s with server := { s.server with
      loops := Function.update s.server.loops i ((s.server.loops i).dispatch r).1 } } := by
  rw [dispatch_eq (h.coherent i) r, Function.update_eq_self]
  exact h

/-! ### Destruction -/

/-- What the destructors leave of the connection's loop, and of any other one. -/
theorem destruct_loop (s : TcpServer) (id : ConnectId) (i : Nat) :
    (s.destruct id).loops i =
      (if i = (s.object id).loop then
        ((s.loops i).disableAll (s.eventOf id)).removeFromLoop (s.eventOf id)
      else s.loops i).act (.closeFile (s.object id).socketFd) := by
  simp only [TcpServer.destruct, TcpServer.closeFile, TcpServer.onLoops, TcpServer.setConnection]
  rcases eq_or_ne i (s.object id).loop with rfl | hi
  · rw [Function.update_self, if_pos rfl]
    rfl
  · rw [Function.update_of_ne hi, if_neg hi]

theorem destruct_object (s : TcpServer) (id : ConnectId) : (s.destruct id).object = s.object :=
  Function.update_eq_self id s.object

/-- **What the destructors do to one loop**: the descriptor is gone from its three tables, and no
    Event but that of the connection has changed. -/
structure Released (fd : Int) (e : EventId) (w w' : World κ) : Prop where
  eventPool : ∀ fd', w'.eventPool.lookup fd' = if fd' = fd then none else w.eventPool.lookup fd'
  next : w'.next = w.next
  files : w'.kernel.files = w.kernel.files.erase fd
  others : ∀ e', e' ≠ e → w'.object e' = w.object e'
  coherent : Coherent w'

/-- On the loop of the connection. -/
theorem released_own {w : World κ} (hw : Coherent w) {fd : Int} {e : EventId}
    (he : w.eventPool.lookup fd = some (some e)) :
    Released fd e w (((w.disableAll e).removeFromLoop e).act (.closeFile fd)) := by
  have hfd : (w.object e).eventFd = fd := by
    obtain ⟨e', heq, -, hfd, -⟩ := hw.entry fd _ he
    cases heq
    exact hfd
  have hoff : OwnFlags e w (w.disableAll e) := .update w e rfl
  have hkey : ((w.disableAll e).object e).eventFd = fd := hoff.eventFd.trans hfd
  have hpool : ((w.disableAll e).removeFromLoop e).eventPool = w.eventPool.erase fd := by
    rw [World.removeFromLoop, World.deleteEventFd_eventPool, hkey, hoff.eventPool]
  have hremoved : Coherent ((w.disableAll e).removeFromLoop e) :=
    (hoff.coherent hw).deleteEventFd _
  have hnot : fd ∉ ((w.disableAll e).removeFromLoop e).kernel.interest := by
    rw [← hremoved.keys, hpool]
    exact Finmap.notMem_erase_self
  refine ⟨fun fd' => ?_, ?_, ?_, fun e' hne => ?_, ?_⟩
  · show ((w.disableAll e).removeFromLoop e).eventPool.lookup fd' = _
    rw [hpool]
    rcases eq_or_ne fd' fd with rfl | hne
    · rw [if_pos rfl, Finmap.lookup_erase]
    · rw [if_neg hne, Finmap.lookup_erase_ne hne]
  · exact (World.deleteEventFd_next _ _).trans hoff.next
  · show ((w.disableAll e).removeFromLoop e).kernel.files.erase fd = _
    rw [World.removeFromLoop, World.deleteEventFd_files, hoff.files]
  · show ((w.disableAll e).removeFromLoop e).object e' = _
    rw [World.removeFromLoop, World.deleteEventFd_object]
    exact hoff.others e' hne
  · exact hremoved.same (fun _ _ => rfl) (Nat.le_refl _) rfl (erase_of_notMem hnot)

/-- On a loop the descriptor is not registered with. -/
theorem released_other {w : World κ} (hw : Coherent w) {fd : Int} (hfd : fd ∉ w.eventPool)
    (e : EventId) : Released fd e w (w.act (.closeFile fd)) where
  eventPool fd' := by
    rcases eq_or_ne fd' fd with rfl | hne
    · rw [if_pos rfl]
      exact Finmap.lookup_eq_none.mpr hfd
    · rw [if_neg hne]
      rfl
  next := rfl
  files := rfl
  others _ _ := rfl
  coherent := hw.same (fun _ _ => rfl) (Nat.le_refl _) rfl
    (erase_of_notMem fun hin => hfd ((hw.keys fd).mpr hin))

/-- Who is live after a destruction. -/
theorem alive_destroyed (alive : ConnectId → Bool) (id x : ConnectId) :
    Function.update alive id false x = true ↔ x ≠ id ∧ alive x = true := by
  rcases eq_or_ne x id with rfl | hne
  · simp
  · simp [hne]

/-- No other live connection has the descriptor. -/
theorem socketFd_ne (h : DescriptorsKept loops s) (hid : s.alive id = true) {x : ConnectId}
    (hne : x ≠ id) (hx : s.alive x = true) :
    (s.server.object x).socketFd ≠ (s.server.object id).socketFd :=
  fun heq => hne (h.single x id hx hid heq)

/-- What destruction does to each loop. -/
theorem destruct_released (h : DescriptorsKept loops s) (hid : s.alive id = true) (i : Nat) :
    Released (s.server.object id).socketFd
      (if i = (s.server.object id).loop then s.server.eventOf id else (s.server.loops i).next)
      (s.server.loops i) ((s.server.destruct id).loops i) := by
  rw [destruct_loop]
  split
  case isTrue hi =>
    subst hi
    exact released_own (h.coherent _) (h.watched id hid)
  case isFalse hi =>
    -- the descriptor is this connection's alone
    refine released_other (h.coherent i) (fun hin => ?_) _
    obtain ⟨x, hx, hloop, hfd⟩ := h.entries i _ (h.fresh id hid) hin
    rw [h.single x id hx hid hfd] at hloop
    exact hi hloop.symm

theorem destroy_opened (h : DescriptorsKept loops s) (hid : s.alive id = true) (fd : Int) :
    fd ∈ ((s.server.destruct id).loops 0).kernel.files ↔ fd ∈ (loops 0).kernel.files ∨
      ∃ x, Function.update s.alive id false x = true ∧
        ((s.server.destruct id).object x).socketFd = fd := by
  rw [(h.destruct_released hid 0).files, Finmap.mem_erase, h.opened fd]
  simp only [destruct_object, alive_destroyed]
  constructor
  · rintro ⟨hne, hbefore | ⟨x, hx, rfl⟩⟩
    · exact .inl hbefore
    · exact .inr ⟨x, ⟨fun heq => hne (by rw [heq]), hx⟩, rfl⟩
  · rintro (hbefore | ⟨x, ⟨hne, hx⟩, rfl⟩)
    · exact ⟨fun heq => h.fresh id hid (heq ▸ hbefore), .inl hbefore⟩
    · exact ⟨h.socketFd_ne hid hne hx, .inr ⟨x, hx, rfl⟩⟩

/-- Every entry that is left is one of a connection that is left. -/
theorem destroy_entries (h : DescriptorsKept loops s) (hid : s.alive id = true) (i : Nat)
    {fd : Int} (hno : fd ∉ (loops 0).kernel.files)
    (hin : fd ∈ ((s.server.destruct id).loops i).eventPool) :
    ∃ x, Function.update s.alive id false x = true ∧
      ((s.server.destruct id).object x).loop = i ∧
      ((s.server.destruct id).object x).socketFd = fd := by
  have hlookup := (h.destruct_released hid i).eventPool fd
  by_cases heq : fd = (s.server.object id).socketFd
  · rw [if_pos heq] at hlookup
    exact absurd hin (Finmap.lookup_eq_none.mp hlookup)
  · rw [if_neg heq] at hlookup
    have hold : fd ∈ (s.server.loops i).eventPool := by
      obtain ⟨v, hv⟩ := Finmap.mem_iff.mp hin
      exact Finmap.mem_of_lookup_eq_some (hlookup.symm.trans hv)
    obtain ⟨x, hx, hloop, hxfd⟩ := h.entries i fd hno hold
    have hne : x ≠ id := fun hxid => heq (by rw [← hxfd, hxid])
    refine ⟨x, (alive_destroyed _ _ _).mpr ⟨hne, hx⟩, ?_, ?_⟩
    · rw [destruct_object, hloop]
    · rw [destruct_object, hxfd]

/-- The Events from before the first accept are none of the connection's. -/
theorem destroy_objects (h : DescriptorsKept loops s) (hid : s.alive id = true) (i : Nat)
    {e : EventId} (he : e < (loops i).next) :
    ((s.server.destruct id).loops i).object e = (loops i).object e := by
  rw [(h.destruct_released hid i).others e ?_]
  · exact h.objects i e he
  · split
    case isTrue hi =>
      subst hi
      exact Nat.ne_of_lt (Nat.lt_of_lt_of_le he (h.event id hid))
    case isFalse hi => exact Nat.ne_of_lt (Nat.lt_of_lt_of_le he (h.next i))

/-- **Destruction**: what is registered for the connection goes with it. -/
theorem destroy (h : DescriptorsKept loops s) (hid : s.alive id = true) :
    DescriptorsKept loops ⟨s.server.destruct id, Function.update s.alive id false⟩ where
  coherent i := (h.destruct_released hid i).coherent
  files i := by
    rw [(h.destruct_released hid i).files, (h.destruct_released hid 0).files, h.files i]
  opened := h.destroy_opened hid
  fresh x hx := by
    rw [destruct_object]
    exact h.fresh x ((alive_destroyed _ _ _).mp hx).2
  single x y hx hy := by
    rw [destruct_object]
    exact h.single x y ((alive_destroyed _ _ _).mp hx).2 ((alive_destroyed _ _ _).mp hy).2
  constructed x hx := h.constructed x ((alive_destroyed _ _ _).mp hx).2
  event x hx := by
    rw [TcpServer.eventOf, destruct_object]
    exact h.event x ((alive_destroyed _ _ _).mp hx).2
  watched x hx := by
    obtain ⟨hne, hx⟩ := (alive_destroyed _ _ _).mp hx
    rw [TcpServer.eventOf, destruct_object, (h.destruct_released hid _).eventPool,
      if_neg (h.socketFd_ne hid hne hx)]
    exact h.watched x hx
  entries i fd hno hin := h.destroy_entries hid i hno hin
  others i fd hin := by
    have hne : fd ≠ (s.server.object id).socketFd := by
      intro heq
      rw [heq] at hin
      exact h.fresh id hid hin
    rw [(h.destruct_released hid i).eventPool, if_neg hne]
    exact h.others i fd hin
  objects i e he := h.destroy_objects hid i he
  next i := by
    rw [(h.destruct_released hid i).next]
    exact h.next i

/-! ### Accepts -/

/-- **What an accept does to one loop**: the descriptor is open, registered on that loop under a
    new Event if `own` says so, and nothing else has changed. -/
structure Taken (fd : Int) (own : Bool) (w w' : World κ) : Prop where
  eventPool : ∀ fd', w'.eventPool.lookup fd' =
    if fd' = fd ∧ own = true then some (some w.next) else w.eventPool.lookup fd'
  next : w.next ≤ w'.next
  files : w'.kernel.files = w.kernel.files.insert fd .pollable
  others : ∀ e, e < w.next → w'.object e = w.object e
  coherent : Coherent w'

theorem taken_other {w : World κ} (hw : Coherent w) (fd : Int) :
    Taken fd false w (w.act (.openFile fd .pollable)) where
  eventPool fd' := by
    rw [if_neg (fun hown => by cases hown.2)]
    rfl
  next := Nat.le_refl _
  files := rfl
  others _ _ := rfl
  coherent := hw.same (fun _ _ => rfl) (Nat.le_refl _) rfl rfl

/-- A change of a registered Event that keeps its descriptor and its mask. -/
theorem coherent_setObject {w : World κ} (hw : Coherent w) (e : EventId)
    {f : Event κ → Event κ} (hfd : (f (w.object e)).eventFd = (w.object e).eventFd)
    (hmask : (f (w.object e)).events = (w.object e).events) : Coherent (w.setObject e f) where
  keys := hw.keys
  entry fd v hv := by
    obtain ⟨e', rfl, hlt, hkey, hinterest⟩ := hw.entry fd v hv
    refine ⟨e', rfl, hlt, ?_⟩
    rcases eq_or_ne e' e with rfl | hne
    · rw [World.setObject_self, hfd, hmask]
      exact ⟨hkey, hinterest⟩
    · rw [World.setObject_of_ne w e hne]
      exact ⟨hkey, hinterest⟩

/-- The constructor of a connection, on a loop the kernel has a watch left for. -/
theorem taken_own {w : World TcpCallback} (hw : Coherent w) {fd : Int} (hfd : fd ∉ w.eventPool)
    (hroom : w.kernel.interest.keys.card < w.kernel.maxWatches) :
    Taken fd true w (Connection.new (w.act (.openFile fd .pollable)) fd []).loop := by
  have hopened := taken_other hw fd
  have hobject : ((w.act (.openFile fd .pollable)).newEvent fd).2.object w.next = Event.new fd :=
    World.newEvent_self _ fd
  have hnew : Coherent ((w.act (.openFile fd .pollable)).newEvent fd).2 :=
    hopened.coherent.same (fun e he => World.newEvent_of_lt _ he fd) (Nat.le_succ _) rfl rfl
  have haccepts : ((w.act (.openFile fd .pollable)).newEvent fd).2.kernel.accepts
      ((((w.act (.openFile fd .pollable)).newEvent fd).2.object w.next).eventFd) := by
    rw [hobject]
    exact ⟨Finmap.lookup_insert _, fun hin => hfd ((hw.keys fd).mpr hin), hroom⟩
  have hadded := hnew.addEvent (Nat.lt_succ_self _) haccepts
  obtain ⟨-, hnext, hothers⟩ := Connection.new_loop (w.act (.openFile fd .pollable)) fd []
  refine ⟨fun fd' => ?_, by rw [hnext]; exact Nat.le_succ _, ?_, fun e he => hothers e he, ?_⟩
  · show (insertNew ((((w.act (.openFile fd .pollable)).newEvent fd).2.object w.next).eventFd)
      (some w.next) w.eventPool).lookup fd' = _
    rw [hobject]
    show (insertNew fd (some w.next) w.eventPool).lookup fd' = _
    rw [insertNew_of_notMem hfd]
    rcases eq_or_ne fd' fd with rfl | hne
    · rw [if_pos ⟨rfl, rfl⟩, Finmap.lookup_insert]
    · rw [if_neg (fun hown => hne hown.1), Finmap.lookup_insert_of_ne _ hne]
  · exact Kernel.epollCtl_files _ _ _ _
  · have hread := coherent_setObject hadded w.next
      (f := fun event => { event with readCallback := some .readEvent }) rfl rfl
    have hwrite := coherent_setObject hread w.next
      (f := fun event => { event with writeCallback := some .writeEvent }) rfl rfl
    have herror := coherent_setObject hwrite w.next
      (f := fun event => { event with errorCallback := some .errorEvent }) rfl rfl
    exact coherent_setObject herror w.next
      (f := fun event => { event with closeCallback := some .closeEvent }) rfl rfl

theorem getOneLoopFromPool_fst (s : TcpServer) :
    s.getOneLoopFromPool.1 = if s.poolSize = 0 then 0
      else (if s.threadIndex + 1 ≥ s.poolSize then 0 else s.threadIndex + 1) + 1 := by
  unfold TcpServer.getOneLoopFromPool
  split <;> rfl

/-- The loop is chosen before the descriptor plays a part. -/
theorem getOneLoop_openFile (s : TcpServer) (fd : Int) :
    (s.openFile fd).getOneLoopFromPool.1 = s.getOneLoopFromPool.1 := by
  rw [getOneLoopFromPool_fst, getOneLoopFromPool_fst]
  rfl

/-- The constructor, on the loop that `getOneLoopFromPool` gives. -/
theorem construct_eq (s : TcpServer) (fd : Int) (addr : SocketAddr) :
    (s.construct fd addr).2.loops = Function.update s.loops s.getOneLoopFromPool.1
        (Connection.new (s.loops s.getOneLoopFromPool.1) fd []).loop ∧
      (s.construct fd addr).2.object = Function.update s.object s.next
        ⟨s.getOneLoopFromPool.1, fd, addr, addr.toString,
          (Connection.new (s.loops s.getOneLoopFromPool.1) fd []).connect⟩ ∧
      (s.construct fd addr).2.next = s.next + 1 := by
  obtain ⟨i, hi⟩ := s.getOneLoopFromPool_snd
  unfold TcpServer.construct
  dsimp only
  rw [hi]
  exact ⟨rfl, rfl, rfl⟩

/-- A descriptor that is not open is registered nowhere. -/
theorem closed (h : DescriptorsKept loops s) {fd : Int}
    (hfd : fd ∉ (s.server.loops 0).kernel.files) (i : Nat) : fd ∉ (s.server.loops i).eventPool := by
  intro hin
  by_cases hbefore : fd ∈ (loops 0).kernel.files
  · exact hfd ((h.opened fd).mpr (.inl hbefore))
  · obtain ⟨x, hx, -, hxfd⟩ := h.entries i fd hbefore hin
    exact hfd ((h.opened fd).mpr (.inr ⟨x, hx, hxfd⟩))

/-- **What the construction of a connection does to the server**: the new object has the descriptor
    and an Event on `loop`, the others are as they were, and every loop knows of the descriptor. -/
structure Constructed (fd : Int) (loop : Nat) (s s' : TcpServer) : Prop where
  socketFd : (s'.object s.next).socketFd = fd
  onLoop : (s'.object s.next).loop = loop
  eventOf : s'.eventOf s.next = (s.loops loop).next
  others : ∀ x, x ≠ s.next → s'.object x = s.object x
  next : s'.next = s.next + 1
  taken : ∀ i, Taken fd (decide (i = loop)) (s.loops i) (s'.loops i)

/-- The constructor, if the kernel has a watch left for the loop whose turn it is. -/
theorem construct_constructed (h : DescriptorsKept loops s) {fd : Int}
    (hfd : fd ∉ (s.server.loops 0).kernel.files) (addr : SocketAddr)
    (hroom : (s.server.loops s.server.getOneLoopFromPool.1).kernel.interest.keys.card <
      (s.server.loops s.server.getOneLoopFromPool.1).kernel.maxWatches) :
    Constructed fd s.server.getOneLoopFromPool.1 s.server
      ((s.server.openFile fd).construct fd addr).2 := by
  obtain ⟨hloops, hobject, hnext⟩ := construct_eq (s.server.openFile fd) fd addr
  rw [getOneLoop_openFile] at hloops hobject
  generalize s.server.getOneLoopFromPool.1 = loop at hloops hobject hroom ⊢
  have hnew : ((s.server.openFile fd).construct fd addr).2.object s.server.next =
      ⟨loop, fd, addr, addr.toString,
        (Connection.new ((s.server.openFile fd).loops loop) fd []).connect⟩ := by
    rw [hobject]
    exact Function.update_self _ _ _
  refine ⟨by rw [hnew], by rw [hnew], ?_, fun x hx => ?_, hnext, fun i => ?_⟩
  · rw [TcpServer.eventOf, hnew]
    rfl
  · rw [hobject]
    exact Function.update_of_ne hx _ _
  · rw [hloops]
    rcases eq_or_ne i loop with rfl | hi
    · rw [Function.update_self, decide_eq_true rfl]
      exact taken_own (h.coherent i) (h.closed hfd i) hroom
    · rw [Function.update_of_ne hi, decide_eq_false hi]
      exact taken_other (h.coherent i) fd

section

variable {server : TcpServer} {fd : Int} {loop : Nat}

/-- An older connection keeps its object. -/
theorem Constructed.old (hc : Constructed fd loop s.server server) (h : DescriptorsKept loops s)
    {x : ConnectId} (hx : s.alive x = true) : server.object x = s.server.object x :=
  hc.others x (Nat.ne_of_lt (h.constructed x hx))

/-- Who is live after the construction: the new connection, and the older ones. -/
theorem alive_constructed (alive : ConnectId → Bool) (id x : ConnectId) :
    Function.update alive id true x = true ↔ x = id ∨ alive x = true := by
  rcases eq_or_ne x id with rfl | hne
  · simp
  · simp [hne]

/-- No older connection has the descriptor. -/
theorem socketFd_ne_new (h : DescriptorsKept loops s) (hfd : fd ∉ (s.server.loops 0).kernel.files)
    {x : ConnectId} (hx : s.alive x = true) : (s.server.object x).socketFd ≠ fd :=
  fun heq => hfd ((h.opened fd).mpr (.inr ⟨x, hx, heq⟩))

/-- It is none from before the first accept. -/
theorem before_ne_new (h : DescriptorsKept loops s) (hfd : fd ∉ (s.server.loops 0).kernel.files)
    {fd' : Int} (hin : fd' ∈ (loops 0).kernel.files) : fd' ≠ fd :=
  fun heq => hfd (heq ▸ (h.opened fd').mpr (.inl hin))

theorem Constructed.opened (hc : Constructed fd loop s.server server)
    (h : DescriptorsKept loops s) (fd' : Int) :
    fd' ∈ (server.loops 0).kernel.files ↔ fd' ∈ (loops 0).kernel.files ∨
      ∃ x, Function.update s.alive s.server.next true x = true ∧
        (server.object x).socketFd = fd' := by
  rw [(hc.taken 0).files, Finmap.mem_insert, h.opened fd']
  constructor
  · rintro (rfl | hin | ⟨x, hx, rfl⟩)
    · exact .inr ⟨_, (alive_constructed _ _ _).mpr (.inl rfl), hc.socketFd⟩
    · exact .inl hin
    · exact .inr ⟨x, (alive_constructed _ _ x).mpr (.inr hx), by rw [hc.old h hx]⟩
  · rintro (hin | ⟨x, hx, hxfd⟩)
    · exact .inr (.inl hin)
    · rcases (alive_constructed _ _ x).mp hx with rfl | hx
      · rw [hc.socketFd] at hxfd
        exact .inl hxfd.symm
      · rw [hc.old h hx] at hxfd
        exact .inr (.inr ⟨x, hx, hxfd⟩)

/-- The new connection shares its descriptor with nobody. -/
theorem Constructed.single (hc : Constructed fd loop s.server server)
    (h : DescriptorsKept loops s) (hfd : fd ∉ (s.server.loops 0).kernel.files) {x y : ConnectId}
    (hx : Function.update s.alive s.server.next true x = true)
    (hy : Function.update s.alive s.server.next true y = true)
    (heq : (server.object x).socketFd = (server.object y).socketFd) : x = y := by
  rcases (alive_constructed _ _ x).mp hx with rfl | hx
  · rcases (alive_constructed _ _ y).mp hy with rfl | hy
    · rfl
    · rw [hc.socketFd, hc.old h hy] at heq
      exact absurd heq.symm (h.socketFd_ne_new hfd hy)
  · rcases (alive_constructed _ _ y).mp hy with rfl | hy
    · rw [hc.socketFd, hc.old h hx] at heq
      exact absurd heq (h.socketFd_ne_new hfd hx)
    · rw [hc.old h hx, hc.old h hy] at heq
      exact h.single x y hx hy heq

theorem Constructed.watched (hc : Constructed fd loop s.server server)
    (h : DescriptorsKept loops s) (hfd : fd ∉ (s.server.loops 0).kernel.files) {x : ConnectId}
    (hx : Function.update s.alive s.server.next true x = true) :
    (server.loops (server.object x).loop).eventPool.lookup (server.object x).socketFd =
      some (some (server.eventOf x)) := by
  rcases (alive_constructed _ _ x).mp hx with rfl | hx
  · rw [hc.eventOf, hc.onLoop, hc.socketFd, (hc.taken loop).eventPool,
      if_pos ⟨rfl, decide_eq_true rfl⟩]
  · rw [TcpServer.eventOf, hc.old h hx, (hc.taken _).eventPool,
      if_neg (fun hown => h.socketFd_ne_new hfd hx hown.1)]
    exact h.watched x hx

/-- The one new entry is that of the new connection. -/
theorem Constructed.entries (hc : Constructed fd loop s.server server)
    (h : DescriptorsKept loops s) (i : Nat) {fd' : Int} (hno : fd' ∉ (loops 0).kernel.files)
    (hin : fd' ∈ (server.loops i).eventPool) :
    ∃ x, Function.update s.alive s.server.next true x = true ∧ (server.object x).loop = i ∧
      (server.object x).socketFd = fd' := by
  have hlookup := (hc.taken i).eventPool fd'
  by_cases hown : fd' = fd ∧ decide (i = loop) = true
  · obtain ⟨rfl, hi⟩ := hown
    exact ⟨_, (alive_constructed _ _ _).mpr (.inl rfl), by rw [hc.onLoop, of_decide_eq_true hi],
      hc.socketFd⟩
  · rw [if_neg hown] at hlookup
    obtain ⟨v, hv⟩ := Finmap.mem_iff.mp hin
    obtain ⟨x, hx, hloop, hxfd⟩ :=
      h.entries i fd' hno (Finmap.mem_of_lookup_eq_some (hlookup.symm.trans hv))
    exact ⟨x, (alive_constructed _ _ x).mpr (.inr hx), by rw [hc.old h hx, hloop],
      by rw [hc.old h hx, hxfd]⟩

/-- **Construction**: the new connection is live, and registered with its loop. -/
theorem construct (h : DescriptorsKept loops s) (hfd : fd ∉ (s.server.loops 0).kernel.files)
    (hc : Constructed fd loop s.server server) :
    DescriptorsKept loops ⟨server, Function.update s.alive s.server.next true⟩ where
  coherent i := (hc.taken i).coherent
  files i := by rw [(hc.taken i).files, (hc.taken 0).files, h.files i]
  opened := hc.opened h
  fresh x hx := by
    rcases (alive_constructed _ _ x).mp hx with rfl | hx
    · rw [hc.socketFd]
      exact fun hin => h.before_ne_new hfd hin rfl
    · rw [hc.old h hx]
      exact h.fresh x hx
  single x y hx hy := hc.single h hfd hx hy
  constructed x hx := by
    rw [hc.next]
    rcases (alive_constructed _ _ x).mp hx with rfl | hx
    · exact Nat.lt_succ_self _
    · exact Nat.lt_succ_of_lt (h.constructed x hx)
  event x hx := by
    rcases (alive_constructed _ _ x).mp hx with rfl | hx
    · rw [hc.eventOf, hc.onLoop]
      exact h.next loop
    · rw [TcpServer.eventOf, hc.old h hx]
      exact h.event x hx
  watched x hx := hc.watched h hfd hx
  entries i fd' hno hin := hc.entries h i hno hin
  others i fd' hin := by
    rw [(hc.taken i).eventPool, if_neg (fun hown => h.before_ne_new hfd hin hown.1)]
    exact h.others i fd' hin
  objects i e he := by
    rw [(hc.taken i).others e (Nat.lt_of_lt_of_le he (h.next i))]
    exact h.objects i e he
  next i := Nat.le_trans (h.next i) (hc.taken i).next

end

/-- `newConnected` in one line. -/
theorem newConnected_eq (s : TcpServer) (fd : Int) (addr : SocketAddr) :
    s.newConnected fd addr = (s.next,
      (((((s.construct fd addr).2).addConnect s.next addr.toString).setCallback s.next
        .messageCallback).setCallback s.next .closeCallback).connectedHandle s.next) := by
  have hid := (s.construct_law fd addr).id_eq
  unfold TcpServer.newConnected
  cases hc : s.construct fd addr with
  | mk tcpConnect s₁ =>
    rw [hc] at hid
    dsimp only at hid
    subst hid
    rfl

/-- **`newConnected`**: behind the construction there are the callbacks of the server and
    `connectedHandle`, all of them methods of the new connection. -/
theorem newConnected (h : DescriptorsKept loops s) {fd : Int}
    (hfd : fd ∉ (s.server.loops 0).kernel.files) (addr : SocketAddr)
    (hroom : (s.server.loops s.server.getOneLoopFromPool.1).kernel.interest.keys.card <
      (s.server.loops s.server.getOneLoopFromPool.1).kernel.maxWatches) :
    DescriptorsKept loops ⟨((s.server.openFile fd).newConnected fd addr).2,
      Function.update s.alive ((s.server.openFile fd).newConnected fd addr).1 true⟩ := by
  have hnew : Function.update s.alive s.server.next true s.server.next = true :=
    Function.update_self _ _ _
  have hconstructed := h.construct hfd (h.construct_constructed hfd addr hroom)
  -- a callback of the user is set
  have hset : ∀ {server : TcpServer} (cb : UserCallback),
      DescriptorsKept loops ⟨server, Function.update s.alive s.server.next true⟩ →
        DescriptorsKept loops
          ⟨server.setCallback s.server.next cb, Function.update s.alive s.server.next true⟩ := by
    intro server cb hserver
    let c := server.connection s.server.next
    exact hserver.method hnew (method_setConnection server s.server.next
      (c := { c with connect := { c.connect with callbacks := cb :: c.connect.callbacks } })
      (.of_loop_eq rfl) rfl) rfl
  have hadded : DescriptorsKept loops
      ⟨(((s.server.openFile fd).construct fd addr).2).addConnect s.server.next addr.toString,
        Function.update s.alive s.server.next true⟩ := by
    obtain ⟨c, f, o, r, g, n, e, w, t, u, b, x⟩ := hconstructed
    exact ⟨c, f, o, r, g, n, e, w, t, u, b, x⟩
  have hcallbacks := hset .closeCallback (hset .messageCallback hadded)
  rw [newConnected_eq]
  exact hcallbacks.method hnew (method_setConnection _ _ (Connection.connectedHandle_flags _)
    (OwnEvent.connectedHandle _).event) rfl

end DescriptorsKept

/-! ## 4. Runs -/

/-- At an accept, the kernel has a watch left for the loop whose turn it is. -/
def RoomLeft (s : DescriptorState) (l : DescriptorStep) : Prop :=
  match l with
  | .accept _ _ =>
    (s.server.loops s.server.getOneLoopFromPool.1).kernel.interest.keys.card <
      (s.server.loops s.server.getOneLoopFromPool.1).kernel.maxWatches
  | _ => True

instance decidableRoomLeft (s : DescriptorState) (l : DescriptorStep) :
    Decidable (RoomLeft s l) := by
  cases l <;> unfold RoomLeft <;> infer_instance

section

variable {loops : Nat → World TcpCallback} {s s' : DescriptorState} {l : DescriptorStep}
  {o : Option EventId}

/-- **Every step keeps the invariant**, an accept if a watch is left. -/
theorem descriptorsKept_step (h : DescriptorsKept loops s)
    (hs : descriptors.step s l = some (s', o)) (hroom : RoomLeft s l) :
    DescriptorsKept loops s' := by
  cases l with
  | accept sockfd addr =>
    simp only [descriptors] at hs
    split at hs
    case isFalse => cases hs
    rename_i hclosed
    cases hs
    exact h.newConnected hclosed addr hroom
  | callback id cb io =>
    simp only [descriptors] at hs
    split at hs
    case isFalse => cases hs
    rename_i hok
    cases hs
    exact h.callback hok.1 cb io
  | write id data a =>
    simp only [descriptors] at hs
    split at hs
    case isFalse => cases hs
    rename_i halive
    cases hs
    exact h.write halive data a
  | shutdownWrite id =>
    simp only [descriptors] at hs
    split at hs
    case isFalse => cases hs
    rename_i halive
    cases hs
    exact h.shutdownWrite halive
  | destroy id =>
    simp only [descriptors] at hs
    split at hs
    case isFalse => cases hs
    rename_i hok
    cases hs
    exact h.destroy hok.1
  | report i r =>
    cases hs
    exact h.report i r

/-- A change of a mask adds no descriptor to the interest list. -/
theorem mem_interest_enableFlag {w : World κ} {fd : Int} (flag : Mask) (e : EventId) (b : Bool) :
    fd ∈ (w.enableFlag flag e b).kernel.interest ↔ fd ∈ w.kernel.interest := by
  simp only [World.enableFlag, World.update, World.modifyEventFd]
  split
  · simp only [Epoll.modifyEvent, Kernel.mod_interest]
    split
    case isTrue hin =>
      rw [Finmap.mem_insert]
      exact ⟨fun h => h.elim (fun heq => heq ▸ hin) id, .inr⟩
    case isFalse => exact Iff.rfl
  · exact Iff.rfl

theorem mem_interest_connectedHandle {c : Connection} {fd : Int} :
    fd ∈ c.connectedHandle.loop.kernel.interest ↔ fd ∈ c.loop.kernel.interest :=
  (mem_interest_enableFlag Event.errorEventFlag _ true).trans
    (mem_interest_enableFlag Event.readEventFlag _ true)

theorem connection_setCallback (server : TcpServer) (id : ConnectId) (cb : UserCallback) :
    ((server.setCallback id cb).connection id).loop = (server.connection id).loop := by
  rw [TcpServer.setCallback, TcpServer.setConnection_connection]

/-- Behind the construction `newConnected` changes masks only. -/
theorem newConnected_interest (server : TcpServer) (fd x : Int) (addr : SocketAddr) :
    x ∈ ((server.newConnected fd addr).2.connection server.next).loop.kernel.interest ↔
      x ∈ (Connection.new (server.loops server.getOneLoopFromPool.1) fd
        []).loop.kernel.interest := by
  obtain ⟨hloops, hobject, -⟩ := DescriptorsKept.construct_eq server fd addr
  have hconstructed : ((server.construct fd addr).2.connection server.next).loop =
      (Connection.new (server.loops server.getOneLoopFromPool.1) fd []).loop := by
    unfold TcpServer.connection
    rw [hobject, hloops]
    dsimp only
    rw [Function.update_self]
    exact Function.update_self _ _ _
  rw [DescriptorsKept.newConnected_eq, TcpServer.connectedHandle,
    TcpServer.setConnection_connection, mem_interest_connectedHandle, connection_setCallback,
    connection_setCallback, ← hconstructed]
  rfl

theorem newConnected_socketFd (server : TcpServer) (fd : Int) (addr : SocketAddr) :
    ((server.newConnected fd addr).2.object server.next).socketFd = fd := by
  obtain ⟨-, hobject, -⟩ := DescriptorsKept.construct_eq server fd addr
  rw [DescriptorsKept.newConnected_eq, TcpServer.connectedHandle, TcpServer.setConnection_object,
    TcpServer.setCallback, TcpServer.setConnection_object, TcpServer.setCallback,
    TcpServer.setConnection_object]
  show ((server.construct fd addr).2.object server.next).socketFd = fd
  rw [hobject, Function.update_self]

/-- The constructor, where the kernel has no watch left. -/
theorem new_rejected {w : World TcpCallback} {fd : Int} (hfd : fd ∉ w.kernel.interest)
    (hroom : ¬ w.kernel.interest.keys.card < w.kernel.maxWatches) :
    fd ∉ (Connection.new (w.act (.openFile fd .pollable)) fd []).loop.kernel.interest := by
  show fd ∉ ((w.kernel.openFile fd .pollable).epollCtl .add _ _).1.interest
  rw [Kernel.add_interest, if_neg fun haccepts => hroom haccepts.2.2]
  exact hfd

/-- **A connection that finds no watch left is not watched**: the registry has its Event and the
    kernel has nothing, which no later call mends. -/
theorem not_watched_of_no_room (h : DescriptorsKept loops s)
    (hs : descriptors.step s l = some (s', o)) (hroom : ¬ RoomLeft s l) :
    ¬ ConnectionsWatched loops s' := by
  cases l with
  | accept sockfd addr =>
    simp only [descriptors] at hs
    split at hs
    case isFalse => cases hs
    rename_i hclosed
    cases hs
    intro hwatched
    have hid := ((s.server.openFile sockfd).newConnected_law sockfd addr).id_eq
    have halive : Function.update s.alive ((s.server.openFile sockfd).newConnected sockfd addr).1
        true (s.server.openFile sockfd).next = true := by
      rw [hid]
      exact Function.update_self _ _ _
    have hmem := Finmap.mem_of_lookup_eq_some (hwatched.live _ halive).2
    dsimp only at hmem
    rw [newConnected_socketFd, newConnected_interest, DescriptorsKept.getOneLoop_openFile] at hmem
    exact new_rejected (fun hold => h.closed hclosed _ (((h.coherent _).keys _).mpr hold)) hroom
      hmem
  | _ => exact absurd trivial hroom

end

/-- A record is handed to the Event of the connection that has its number on that loop when it is
    dispatched, be it about another one that was closed since; to nobody when there is none. The
    descriptors from before the first accept aside. -/
def HandedByNumber (loops : Nat → World TcpCallback) (s : DescriptorState) (l : DescriptorStep)
    (o : Option EventId) : Prop :=
  ∀ i r, l = .report i r → r.fd ∉ (loops 0).kernel.files →
    ∀ e, o = some e ↔ ∃ id, s.alive id = true ∧ (s.server.object id).loop = i ∧
      (s.server.object id).socketFd = r.fd ∧ s.server.eventOf id = e

theorem DescriptorsKept.handedByNumber {loops : Nat → World TcpCallback} {s s' : DescriptorState}
    {l : DescriptorStep} {o : Option EventId} (h : DescriptorsKept loops s)
    (hs : descriptors.step s l = some (s', o)) : HandedByNumber loops s l o := by
  rintro i r rfl hno e
  have ho : some ((s.server.loops i).dispatch r).2 = some o := congrArg (Option.map Prod.snd) hs
  rw [← Option.some.inj ho, World.dispatch_snd]
  constructor
  · intro hjoin
    have hentry : (s.server.loops i).eventPool.lookup r.fd = some (some e) :=
      Option.join_eq_some_iff.mp hjoin
    obtain ⟨id, halive, rfl, hfd⟩ :=
      h.entries i r.fd hno (Finmap.mem_of_lookup_eq_some hentry)
    have hwatched := h.watched id halive
    rw [hfd, hentry] at hwatched
    cases hwatched
    exact ⟨id, halive, rfl, hfd, rfl⟩
  · rintro ⟨id, halive, rfl, hfd, rfl⟩
    rw [← hfd, h.watched id halive]
    rfl

/-- **The descriptors of the connections.** From loops that are ready, in every run of accepts,
    methods, reports and destructions, whichever descriptors the kernel hands out again: at every
    point every live connection is watched on its loop under its own Event with its own mask, no
    two have one descriptor, and what is open or registered besides is what was before the first
    accept; and every record is handed to the live connection that has its number by then, to none
    where there is none. This is so exactly when the kernel has a watch left at each accept. -/
theorem watched_iff_room {loops : Nat → World TcpCallback} (hready : LoopsReady loops)
    (poolSize : Nat) (ls : List DescriptorStep) :
    descriptors.Along (fun s l s' o => ConnectionsWatched loops s' ∧ HandedByNumber loops s l o)
        (.initial poolSize loops) ls ↔
      descriptors.Along (fun s l _ _ => RoomLeft s l) (.initial poolSize loops) ls := by
  refine Machine.along_iff (I := DescriptorsKept loops) ?_ (.initial hready poolSize)
  intro s l s' o hI hs
  refine ⟨⟨fun hwatched => ?_, fun hroom => ?_⟩, descriptorsKept_step hI hs⟩
  · by_contra hroom
    exact not_watched_of_no_room hI hs hroom hwatched.1
  · exact ⟨(descriptorsKept_step hI hs hroom).connectionsWatched hready, hI.handedByNumber hs⟩

/-- Two connections, of which one is closed and destroyed. Its descriptor comes back, on another
    loop, which gets the record of it. -/
def descriptorComesBack : List DescriptorStep :=
  [.accept 5 ⟨0x0100007f, 1⟩, .accept 6 ⟨0x0100007f, 2⟩,
    .callback 0 .errorEvent ⟨⟨-1, [], 0⟩, ⟨-1, 0⟩⟩, .destroy 0, .accept 5 ⟨0x0100007f, 3⟩,
    .report 1 ⟨5, EPOLLIN⟩]

theorem watched_iff_room_descriptorComesBack : ∃ s os,
    descriptors.run (.initial 3 fun _ => World.initial ∅ 4) descriptorComesBack = some (s, os) ∧
      descriptors.Along (fun s l s' o => ConnectionsWatched (fun _ => World.initial ∅ 4) s' ∧
        HandedByNumber (fun _ => World.initial ∅ 4) s l o)
        (.initial 3 fun _ => World.initial ∅ 4) descriptorComesBack ∧
      os = [none, none, none, none, none, some 0] := by
  have hos : (descriptors.run (.initial 3 fun _ => World.initial ∅ 4) descriptorComesBack).map
      (fun p => p.2) = some [none, none, none, none, none, some 0] := by decide +kernel
  have hroom : descriptors.Along (fun s l _ _ => RoomLeft s l)
      (.initial 3 fun _ => World.initial ∅ 4) descriptorComesBack := by decide +kernel
  have hready : LoopsReady fun _ => (World.initial ∅ 4 : World TcpCallback) :=
    ⟨fun _ => coherent_initial ∅ 4, fun _ => rfl, fun _ _ hin => absurd hin Finmap.notMem_empty⟩
  obtain ⟨⟨s, os⟩, hrun, heq⟩ := Option.map_eq_some_iff.mp hos
  exact ⟨s, os, hrun, (watched_iff_room hready 3 descriptorComesBack).mpr hroom, heq⟩

end PluginsEngine
