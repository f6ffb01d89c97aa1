/-
  File:      PluginsEngine/Net/SharedLoops.lean
  Subject:   CONNECTIONS THAT SHARE A LOOP DO NOT DISTURB EACH OTHER.

  The connections of a server are spread over the loops of its pool, so a loop has the Events of
  many. A method of a connection changes its own Event only (`OwnEvent`); what is proved of one
  connection on its loop therefore holds of each connection of a server.

  * `OwnEvent` -- for every method;
  * `Separate` -- every connection is steady, and no two on one loop have one Event;
  * `Separate.setConnection`, `Separate.construct` -- kept by methods and by the constructor;
  * `write_step` -- a `write` of a server's connection is one of its session.
-/
import PluginsEngine.Net.TcpServer

namespace PluginsEngine

open Library

/-! ## 1. A method changes its own Event only -/

structure OwnEvent (c c' : Connection) : Prop where
  event : c'.connect.event = c.connect.event
  others : ∀ e, e ≠ c.connect.event → c'.loop.object e = c.loop.object e
  next : c'.loop.next = c.loop.next
  /-- What a report runs stays the same. -/
  handle : c'.event.handle = c.event.handle

namespace OwnEvent

variable (c : Connection)

/-- A method that leaves the loop alone. -/
theorem of_loop_eq {c c' : Connection} (he : c'.connect.event = c.connect.event)
    (hl : c'.loop = c.loop) : OwnEvent c c' where
  event := he
  others e _ := by rw [hl]
  next := by rw [hl]
  handle := by rw [Connection.event, he, hl]; rfl

/-- A flag of the Event is set or cleared, and the loop is told. -/
theorem enableFlag (flag : Mask) (b : Bool) :
    OwnEvent c { c with loop := c.loop.enableFlag flag c.connect.event b } where
  event := rfl
  others e he := by
    show ((c.loop.setObject c.connect.event _).update c.connect.event).object e = _
    rw [World.update_object, World.setObject_of_ne _ _ he]
  next := by
    show ((c.loop.setObject c.connect.event _).update c.connect.event).next = _
    rw [World.update_next, World.setObject_next]
  handle := by
    show ((((c.loop.setObject c.connect.event _).update c.connect.event).object
      c.connect.event).handle) = _
    rw [World.update_object, World.setObject_self]
    rfl

theorem trans {c c' c'' : Connection} (h : OwnEvent c c') (h' : OwnEvent c' c'') :
    OwnEvent c c'' where
  event := h'.event.trans h.event
  others e he := (h'.others e (by rw [h.event]; exact he)).trans (h.others e he)
  next := h'.next.trans h.next
  handle := h'.handle.trans h.handle

theorem closeEvent : OwnEvent c c.closeEvent.1 := by
  unfold Connection.closeEvent
  split
  · exact of_loop_eq rfl rfl
  · exact of_loop_eq rfl rfl

theorem readEvent (r : ReadvAnswer) : OwnEvent c (c.readEvent r).1 := by
  have hread : ∀ b, OwnEvent c { c with connect := { c.connect with readBuf := b } } :=
    fun b => of_loop_eq rfl rfl
  unfold Connection.readEvent
  dsimp only
  split
  · exact hread _
  · split
    · exact (hread _).trans (closeEvent _)
    · split
      · exact hread _
      · exact (hread _).trans (closeEvent _)

theorem writeEvent (a : WriteAnswer) : OwnEvent c (c.writeEvent a).1 := by
  have hdrained : ∀ b, OwnEvent c { c with connect := { c.connect with writeBuf := b } } :=
    fun b => of_loop_eq rfl rfl
  unfold Connection.writeEvent
  split
  · exact of_loop_eq rfl rfl
  · dsimp only
    split
    · split
      · exact (hdrained _).trans (enableFlag _ _ _)
      · exact hdrained _
    · split
      · exact of_loop_eq rfl rfl
      · exact closeEvent c

theorem runCallback (cb : TcpCallback) (io : IoAnswer) : OwnEvent c (c.runCallback cb io).1 := by
  cases cb with
  | readEvent => exact readEvent c io.readv
  | writeEvent => exact writeEvent c io.write
  | errorEvent | closeEvent => exact closeEvent c

theorem finishWrite (f : Connection.WriteFrame) : OwnEvent c (c.finishWrite f) := by
  have hqueued : ∀ b, OwnEvent c { c with connect := { c.connect with writeBuf := b } } :=
    fun b => of_loop_eq rfl rfl
  unfold Connection.finishWrite
  split
  · dsimp only
    split
    · exact (hqueued _).trans (enableFlag _ _ _)
    · exact hqueued _
  · exact of_loop_eq rfl rfl

theorem connectedHandle : OwnEvent c c.connectedHandle := by
  have hstate : OwnEvent c { c with connect := { c.connect with state := .Connected } } :=
    of_loop_eq rfl rfl
  exact (hstate.trans (enableFlag _ Event.readEventFlag true)).trans
    (enableFlag _ Event.errorEventFlag true)

theorem shutdownWrite : OwnEvent c c.shutdownWrite := by
  unfold Connection.shutdownWrite
  split
  · exact of_loop_eq rfl rfl
  · exact of_loop_eq rfl rfl

end OwnEvent

/-- A callback of the Event leaves a steady connection steady. -/
theorem Connection.runCallback_steady {c : Connection} (h : c.Steady) {cb : TcpCallback}
    {io : IoAnswer} (hfit : c.callbackFits cb io) : (c.runCallback cb io).1.Steady := by
  cases cb with
  | readEvent => exact (readEvent_steady h io.readv).1
  | writeEvent => exact (writeEvent_law h hfit).1
  | errorEvent | closeEvent => exact (closeEvent_steady h).1

/-- The constructor takes the next Event of the loop and changes none that exists. -/
theorem Connection.new_loop (loop : World TcpCallback) (fd : Int)
    (callbacks : List UserCallback) :
    (new loop fd callbacks).connect.event = loop.next ∧
      (new loop fd callbacks).loop.next = loop.next + 1 ∧
      ∀ e, e < loop.next → (new loop fd callbacks).loop.object e = loop.object e := by
  refine ⟨rfl, rfl, fun e he => ?_⟩
  have hne : e ≠ loop.next := Nat.ne_of_lt he
  simp only [new, World.setReadCallback, World.setWriteCallback, World.setErrorCallback,
    World.setCloseCallback, World.newEvent_fst, World.setObject_of_ne _ _ hne,
    World.addEvent_object, World.newEvent_of_lt loop he]

/-! ## 2. All connections of a server -/

namespace TcpServer

/-- The Event of connection `id`, on its loop. -/
def eventOf (s : TcpServer) (id : ConnectId) : EventId := (s.object id).connect.event

structure Separate (s : TcpServer) : Prop where
  steady : ∀ id, id < s.next → (s.connection id).Steady
  constructed : ∀ id, id < s.next → s.eventOf id < (s.loops (s.object id).loop).next
  distinct : ∀ id id', id < s.next → id' < s.next → id ≠ id' →
    (s.object id).loop = (s.object id').loop → s.eventOf id ≠ s.eventOf id'

theorem separate_initial (poolSize : Nat) (loops : Nat → World TcpCallback) :
    (initial poolSize loops).Separate where
  steady id hlt := absurd hlt (Nat.not_lt_zero id)
  constructed id hlt := absurd hlt (Nat.not_lt_zero id)
  distinct id _ hlt := absurd hlt (Nat.not_lt_zero id)

namespace Separate

variable {s : TcpServer} {id : ConnectId}

/-- What a connection needs of a change elsewhere: its own object and its own Event are as they
    were. -/
theorem steady_of_eq {s' : TcpServer} (h : (s.connection id).Steady)
    (ho : s'.object id = s.object id)
    (he : (s'.loops (s.object id).loop).object (s.eventOf id) =
      (s.loops (s.object id).loop).object (s.eventOf id)) : (s'.connection id).Steady := by
  have hconnect : (s'.connection id).connect = (s.connection id).connect := by
    unfold connection
    rw [ho]
  have hevent : (s'.connection id).event = (s.connection id).event := by
    unfold Connection.event
    rw [hconnect]
    unfold connection
    rw [ho]
    exact he
  refine h.keep (by rw [hconnect]) ?_ (by rw [hevent])
  unfold Connection.isWriting
  rw [hevent]

/-- **A method of one connection** that changes its own Event only, and leaves it steady. -/
theorem setConnection (h : s.Separate) (hid : id < s.next) {c : Connection}
    (hown : OwnEvent (s.connection id) c) (hc : c.Steady) : (s.setConnection id c).Separate := by
  have hevent : ∀ id', (s.setConnection id c).eventOf id' = s.eventOf id' := by
    intro id'
    unfold eventOf
    by_cases hne : id' = id
    · subst hne
      rw [setConnection_object]
      exact hown.event
    · rw [setConnection_object_of_ne s id c hne]
  refine ⟨fun id' hlt => ?_, fun id' hlt => ?_, fun id' id'' hlt hlt' hne hloop => ?_⟩
  · by_cases hne : id' = id
    · subst hne
      rw [setConnection_connection]
      exact hc
    · refine steady_of_eq (h.steady id' hlt) (setConnection_object_of_ne s id c hne) ?_
      show (Function.update s.loops (s.object id).loop c.loop _).object _ = _
      by_cases hloop : (s.object id').loop = (s.object id).loop
      · rw [hloop, Function.update_self]
        exact hown.others _ (h.distinct id' id hlt hid hne hloop)
      · rw [Function.update_of_ne hloop]
  · rw [hevent, setConnection_loop]
    show _ < (Function.update s.loops (s.object id).loop c.loop _).next
    by_cases hloop : (s.object id').loop = (s.object id).loop
    · rw [hloop, Function.update_self, hown.next]
      have hold := h.constructed id' hlt
      rw [hloop] at hold
      exact hold
    · rw [Function.update_of_ne hloop]
      exact h.constructed id' hlt
  · rw [hevent, hevent]
    rw [setConnection_loop, setConnection_loop] at hloop
    exact h.distinct id' id'' hlt hlt' hne hloop

/-- A change that no connection and no loop is part of. -/
theorem of_eq (h : s.Separate) {s' : TcpServer} (hn : s'.next = s.next)
    (ho : s'.object = s.object) (hl : s'.loops = s.loops) : s'.Separate := by
  have hconnection : ∀ id, s'.connection id = s.connection id := by
    intro id
    unfold connection
    rw [ho, hl]
  refine ⟨fun id hlt => ?_, fun id hlt => ?_, fun id id' hlt hlt' hne hloop => ?_⟩
  · rw [hn] at hlt
    rw [hconnection]
    exact h.steady id hlt
  · rw [hn] at hlt
    unfold eventOf
    rw [ho, hl]
    exact h.constructed id hlt
  · rw [hn] at hlt hlt'
    unfold eventOf
    rw [ho] at hloop ⊢
    exact h.distinct id id' hlt hlt' hne hloop

/-- **One more connection**, on a new Event of its loop, while the loops keep what they have. -/
theorem extend (h : s.Separate) {s' : TcpServer} (hnext : s'.next = s.next + 1)
    (hold : ∀ id, id < s.next → s'.object id = s.object id)
    (hkept : ∀ j e, e < (s.loops j).next →
      (s'.loops j).object e = (s.loops j).object e ∧ e < (s'.loops j).next)
    (hsteady : (s'.connection s.next).Steady)
    (hevent : s'.eventOf s.next = (s.loops (s'.object s.next).loop).next)
    (hconstructed : s'.eventOf s.next < (s'.loops (s'.object s.next).loop).next) :
    s'.Separate := by
  have hevents : ∀ id, id < s.next → s'.eventOf id = s.eventOf id := by
    intro id hlt
    unfold eventOf
    rw [hold id hlt]
  -- the new Event is none of the old ones
  have hne : ∀ id, id < s.next → (s'.object id).loop = (s'.object s.next).loop →
      s'.eventOf id < s'.eventOf s.next := by
    intro id hlt hloop
    rw [hevents id hlt, hevent, ← hloop, hold id hlt]
    exact h.constructed id hlt
  refine ⟨fun id hlt => ?_, fun id hlt => ?_, fun id id' hlt hlt' hdiff hloop => ?_⟩
  · rw [hnext] at hlt
    rcases Nat.lt_succ_iff_lt_or_eq.mp hlt with hlt | rfl
    · exact steady_of_eq (h.steady id hlt) (hold id hlt) (hkept _ _ (h.constructed id hlt)).1
    · exact hsteady
  · rw [hnext] at hlt
    rcases Nat.lt_succ_iff_lt_or_eq.mp hlt with hlt | rfl
    · rw [hevents id hlt, hold id hlt]
      exact (hkept _ _ (h.constructed id hlt)).2
    · exact hconstructed
  · rw [hnext] at hlt hlt'
    rcases Nat.lt_succ_iff_lt_or_eq.mp hlt with hlt | rfl
    · rcases Nat.lt_succ_iff_lt_or_eq.mp hlt' with hlt' | rfl
      · rw [hevents id hlt, hevents id' hlt']
        rw [hold id hlt, hold id' hlt'] at hloop
        exact h.distinct id id' hlt hlt' hdiff hloop
      · exact Nat.ne_of_lt (hne id hlt hloop)
    · rcases Nat.lt_succ_iff_lt_or_eq.mp hlt' with hlt' | rfl
      · exact (Nat.ne_of_lt (hne id' hlt' hloop.symm)).symm
      · exact absurd rfl hdiff

/-- **The constructor** keeps them separate: its Event is a new one of its loop. -/
theorem construct (h : s.Separate) (sockfd : Int) (addr : SocketAddr) :
    (s.construct sockfd addr).2.Separate := by
  have hlaw := s.construct_law sockfd addr
  obtain ⟨i, hi⟩ := s.getOneLoopFromPool_snd
  let loop := s.getOneLoopFromPool.1
  let c := Connection.new (s.loops loop) sockfd []
  obtain ⟨hnew, hnext, hold⟩ := Connection.new_loop (s.loops loop) sockfd []
  have hloops : (s.construct sockfd addr).2.loops = Function.update s.loops loop c.loop := by
    unfold TcpServer.construct
    dsimp only
    rw [hi]
  have hobject : (s.construct sockfd addr).2.object s.next =
      ⟨loop, sockfd, addr, addr.toString, c.connect⟩ := by
    unfold TcpServer.construct
    dsimp only
    rw [hi]
    exact Function.update_self _ _ _
  have hevent : (s.construct sockfd addr).2.eventOf s.next = (s.loops loop).next := by
    unfold eventOf
    rw [hobject]
    exact hnew
  refine h.extend hlaw.next hlaw.old (fun j e he => ?_) ?_ ?_ ?_
  · rw [hloops]
    by_cases hj : j = loop
    · rw [hj, Function.update_self]
      rw [hj] at he
      exact ⟨hold e he, by rw [hnext]; exact Nat.lt_succ_of_lt he⟩
    · rw [Function.update_of_ne hj]
      exact ⟨rfl, he⟩
  · have hconnection : (s.construct sockfd addr).2.connection s.next = c := by
      unfold connection
      rw [hobject, hloops]
      dsimp only
      rw [Function.update_self]
    rw [hconnection]
    exact Connection.steady_new _ _ _
  · rw [hevent, hobject]
  · rw [hevent, hobject, hloops]
    dsimp only
    rw [Function.update_self, hnext]
    exact Nat.lt_succ_self _

theorem addConnect (h : s.Separate) (name : Name) : (s.addConnect id name).Separate :=
  h.of_eq rfl rfl rfl

theorem setCallback (h : s.Separate) (hid : id < s.next) (cb : UserCallback) :
    (s.setCallback id cb).Separate :=
  h.setConnection hid (.of_loop_eq rfl rfl) ((h.steady id hid).keep rfl rfl rfl)

theorem connectedHandle (h : s.Separate) (hid : id < s.next) :
    (s.connectedHandle id).Separate :=
  h.setConnection hid (.connectedHandle _) (Connection.connectedHandle_steady (h.steady id hid)).1

theorem shutdownWrite (h : s.Separate) (hid : id < s.next) : (s.shutdownWrite id).Separate :=
  h.setConnection hid (.shutdownWrite _) (Connection.shutdownWrite_steady (h.steady id hid)).1

theorem runCallback (h : s.Separate) (hid : id < s.next) {cb : TcpCallback} {io : IoAnswer}
    (hfit : (s.connection id).callbackFits cb io) : (s.runCallback id cb io).1.Separate := by
  have hset := h.setConnection hid (.runCallback _ cb io)
    (Connection.runCallback_steady (h.steady id hid) hfit)
  unfold TcpServer.runCallback
  dsimp only
  split
  · exact hset.of_eq rfl rfl rfl
  · exact hset

theorem write (h : s.Separate) (hid : id < s.next) {data : List UInt8} {a : WriteAnswer}
    (hlen : data.length < 2 ^ 32) (hfit : a.fits data.length)
    (hroom : (s.connection id).writeFits ((s.connection id).beginWrite data a).1) :
    (s.write id data a).Separate := by
  unfold TcpServer.write
  dsimp only
  split
  · exact h
  · have hbegin := Connection.beginWrite_law (h.steady id hid) hlen hfit
    exact h.setConnection hid (.finishWrite _ _)
      (Connection.finishWrite_law (h.steady id hid) hroom hbegin.length).1

end Separate

variable {s : TcpServer} {id : ConnectId} {data : List UInt8} {a : WriteAnswer}

/-- A `write` of a connection without a completion callback is a step of its session. -/
theorem write_step (hnone : .writeCompleteCallback ∉ (s.connection id).connect.callbacks)
    (hstate : (s.connection id).connect.state ≠ .Disconnected) (hlen : data.length < 2 ^ 32)
    (hfit : a.fits data.length)
    (hroom : (s.connection id).writeFits ((s.connection id).beginWrite data a).1) :
    ((s.connection id).beginWrite data a).2.ran = [] ∧
      PluginsEngine.connection.step ⟨s.connection id, []⟩ (.write data a) =
        some (⟨(s.write id data a).connection id, []⟩,
          ((s.connection id).beginWrite data a).2) := by
  have hran : ((s.connection id).beginWrite data a).2.ran = [] := by
    refine List.eq_nil_iff_forall_not_mem.mpr fun cb hcb => hnone ?_
    exact ((s.connection id).mem_invoke_iff.mp
      ((s.connection id).mem_beginWrite_ran hcb)).2
  have hself : (s.write id data a).connection id =
      (s.connection id).finishWrite ((s.connection id).beginWrite data a).1 := by
    unfold TcpServer.write
    dsimp only
    rw [if_neg hstate, setConnection_connection]
  refine ⟨hran, ?_⟩
  rw [hself]
  cases hb : (s.connection id).beginWrite data a with
  | mk f shown =>
    rw [hb] at hran hroom
    dsimp only at hran hroom
    have hguard : (s.connection id).connect.state ≠ .Disconnected ∧ data.length < 2 ^ 32 ∧
        a.fits data.length ∧ (s.connection id).writeFits f := ⟨hstate, hlen, hfit, hroom⟩
    simp only [PluginsEngine.connection, hb, if_pos hguard, hran]

end TcpServer

end PluginsEngine
