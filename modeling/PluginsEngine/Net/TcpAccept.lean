/-
  File:      PluginsEngine/Net/TcpAccept.lean
  Subject:   FROM THE LISTENING SOCKET TO THE CONNECTION OBJECTS (net/tcp/tcpAccept.cpp, socket.cpp,
             tcpServer.cpp).

  The kernel completes connections and queues them at the listening socket. The acceptor takes one
  for each call of its read callback and hands it to the server, which makes an object of it on the
  loop whose turn it is; the worker loops run meanwhile. accept(2) may fail at any time.

  * `acceptHandle` -- what becomes of a connection that was taken;
  * `TcpAccept.new`, `TcpAccept.listen` -- the acceptor on its loop;
  * `acceptingServer` -- the kernel's queue, the acceptor and the threads of the server;
  * `AsAccepted`, `asAccepted_step` -- the objects are the connections handed over, in order;
  * `arrivals_are_served` -- over every run: nothing that arrives is lost, taken twice or out of
    order, and the `k`-th connection handed over is object `k`, on the loop whose turn it was;
  * `listen_queue_drains` -- a round of the main loop for each queued connection serves them all,
    where accept(2) succeeds in each.
-/
import PluginsEngine.Event.Watched
import PluginsEngine.Net.ServerProtocol

namespace PluginsEngine

open Library

/-! ## 1. The acceptor -/

/-- What `acceptHandle` does with the descriptor that accept(2) returned. -/
inductive AcceptFate where
  /-- `callBack(fd, connectAddr)`. -/
  | handed (fd : Int) (addr : SocketAddr)
  /-- `::close(fd)`: nobody has set a callback. -/
  | closed (fd : Int)
  /-- Nothing: an error, and also descriptor 0, which stays open. -/
  | ignored
  deriving DecidableEq, Repr

/-- `TcpAccept::acceptHandle`. `Socket::accept` sets the address where the descriptor is above 0. -/
def acceptHandle (callBack : Bool) (fd : Int) (addr : SocketAddr) : AcceptFate :=
  if fd > 0 then if callBack then .handed fd addr else .closed fd
  else .ignored

namespace TcpAccept

variable {κ : Type}

/-- `TcpAccept(loop, addr)` with the socket `socketFd`. The socket does not listen yet. -/
def new (w : World κ) (socketFd : Int) (acceptHandle : κ) : EventId × World κ :=
  let (event, w) := w.newEvent socketFd
  let w := w.addEvent event
  (event, w.setReadCallback event acceptHandle)

def listen (w : World κ) (event : EventId) : World κ := w.enableReading event true

/-- **An acceptor that listens is watched**, where the kernel accepts its socket. -/
theorem listen_watches {w : World κ} (hk : w.Keyed) {fd : Int} (cb : κ)
    (hpool : fd ∉ w.eventPool) (ha : w.kernel.accepts fd) :
    (listen (new w fd cb).2 (new w fd cb).1).Keyed ∧
      (listen (new w fd cb).2 (new w fd cb).1).Watches fd w.next cb := by
  have hnew : (w.newEvent fd).2.Keyed := hk.act (a := .newEvent fd) trivial
  have hadd : ((w.newEvent fd).2.addEvent w.next).Keyed :=
    hnew.act (a := .addEvent w.next) (Nat.lt_succ_self w.next)
  have hset : (((w.newEvent fd).2.addEvent w.next).setReadCallback w.next cb).Keyed :=
    hadd.setObject w.next rfl
  exact ⟨hset.act (a := .enableReading w.next true) (Nat.lt_succ_self w.next),
    (w.addReader_added fd cb hpool ha.2.1).watches ha⟩

end TcpAccept

/-! ## 2. The server with its acceptor -/

/-- A server that listens. -/
structure AcceptingServer where
  /-- The main loop, as far as the acceptor uses it. -/
  mainLoop : World Unit
  /-- The connections the kernel has completed and nobody has taken, oldest first. -/
  listenQueue : List SocketAddr
  /-- The calls of `acceptHandle` that are left of the report in hand. -/
  pending : Nat
  threads : ProtocolState

inductive AcceptingStep where
  /-- The kernel completes a connection. -/
  | arrive (addr : SocketAddr)
  /-- Another component uses the main loop. -/
  | mainLoop (a : World.Act)
  /-- The main loop dispatches a report of the listening socket. -/
  | report (events : Mask)
  /-- `acceptHandle`; accept(2) answers `fd`. -/
  | acceptHandle (fd : Int)
  /-- A step of `newConnected` or of a worker. -/
  | threads (l : ProtocolStep)

/-- The first statement of `newConnected` is taken by `acceptHandle` only. -/
def ProtocolStep.isAccept : ProtocolStep → Bool
  | .accept _ _ => true
  | _ => false

/-- The main thread is in the middle of something. -/
def AcceptingServer.busy (s : AcceptingServer) : Prop :=
  s.pending ≠ 0 ∨ s.threads.acceptor ≠ none ∨ s.threads.handling 0 ≠ []

instance AcceptingServer.decidableBusy (s : AcceptingServer) : Decidable s.busy :=
  inferInstanceAs (Decidable (_ ∨ _ ∨ _))

/-- Whether a step of the threads is one of the main loop's dispatches. -/
def ProtocolState.reportsMain (s : ProtocolState) : ProtocolStep → Prop
  | .report id _ => (s.server.object id).loop = 0
  | _ => False

instance ProtocolState.decidableReportsMain (s : ProtocolState) :
    (l : ProtocolStep) → Decidable (s.reportsMain l)
  | .report id _ => inferInstanceAs (Decidable ((s.server.object id).loop = 0))
  | .accept _ _ | .acceptor | .callback _ _ | .write _ _ _ | .shutdownWrite _ =>
    inferInstanceAs (Decidable False)

/-- The server. The output is what accept(2) took from the queue. -/
def acceptingServer (socketFd : Int) (event : EventId) :
    Machine AcceptingServer AcceptingStep (List (Int × SocketAddr)) where
  step s
    | .arrive addr => some ({ s with listenQueue := s.listenQueue ++ [addr] }, [])
    | .mainLoop a =>
      if a.onExisting s.mainLoop ∧ a.spares s.mainLoop socketFd event then
        some ({ s with mainLoop := s.mainLoop.act a }, [])
      else none
    | .report events =>
      if s.busy then none
      else
        let (w, target) := s.mainLoop.dispatch ⟨socketFd, events⟩
        let callbacks := target.toList.flatMap fun e => (w.object e).handle events
        some ({ s with mainLoop := w, pending := callbacks.length }, [])
    | .acceptHandle fd =>
      if s.pending = 0 ∨ s.threads.acceptor ≠ none then none
      else
        let s := { s with pending := s.pending - 1 }
        -- an error takes nothing from the queue
        if fd < 0 then some (s, [])
        else
          match s.listenQueue with
          | [] => none
          | addr :: queue =>
            let s := { s with listenQueue := queue }
            match acceptHandle true fd addr with
            | .handed fd addr =>
              match serverThreads.step s.threads (.accept fd addr) with
              | none => none
              | some (threads, _) => some ({ s with threads := threads }, [(fd, addr)])
            | .closed _ | .ignored => some (s, [(fd, addr)])
    | .threads l =>
      if l.isAccept ∨ (s.pending ≠ 0 ∧ s.threads.reportsMain l) then none
      else
        match serverThreads.step s.threads l with
        | none => none
        | some (threads, _) => some ({ s with threads := threads }, [])

/-- A server that was started with `poolSize` workers: its acceptor is on the main loop `w`. -/
def AcceptingServer.start (w : World Unit) (socketFd : Int) (poolSize : Nat)
    (loops : Nat → World TcpCallback) : AcceptingServer where
  mainLoop :=
    let (event, w) := TcpAccept.new w socketFd ()
    TcpAccept.listen w event
  listenQueue := []
  pending := 0
  threads := ⟨.initial poolSize loops, none, fun _ => []⟩

/-- The connections that arrive. -/
def AcceptingStep.arrived : AcceptingStep → List SocketAddr
  | .arrive addr => [addr]
  | _ => []

/-- Of what accept(2) took, the connections that `acceptHandle` hands to the server. -/
def handedOver (taken : List (Int × SocketAddr)) : List (Int × SocketAddr) :=
  taken.filter fun p => decide (p.1 > 0)

/-! ## 3. What the threads leave of the objects -/

/-- What the constructor of `TcpConnect` fixes for good. -/
structure Placed where
  loop : Nat
  socketFd : Int
  socketAddr : SocketAddr
  name : Name
  deriving DecidableEq

def ServerConnect.placed (c : ServerConnect) : Placed :=
  ⟨c.loop, c.socketFd, c.socketAddr, c.name⟩

/-- From `s` to `s'` nothing was constructed. -/
structure TcpServer.SamePlaces (s s' : TcpServer) : Prop where
  poolSize : s'.poolSize = s.poolSize
  threadIndex : s'.threadIndex = s.threadIndex
  next : s'.next = s.next
  placed : ∀ id, (s'.object id).placed = (s.object id).placed

namespace TcpServer

variable (s : TcpServer) (id : ConnectId)

theorem setConnection_samePlaces (c : Connection) : s.SamePlaces (s.setConnection id c) where
  poolSize := rfl
  threadIndex := rfl
  next := rfl
  placed id' := by
    by_cases h : id' = id
    · subst h
      rw [setConnection_object]
      rfl
    · rw [setConnection_object_of_ne s id c h]

theorem runCallback_samePlaces (cb : TcpCallback) (io : IoAnswer) :
    s.SamePlaces (s.runCallback id cb io).1 := by
  have h := s.setConnection_samePlaces id ((s.connection id).runCallback cb io).1
  unfold runCallback
  dsimp only
  split
  · exact ⟨h.poolSize, h.threadIndex, h.next, h.placed⟩
  · exact h

theorem write_samePlaces (data : List UInt8) (a : WriteAnswer) :
    s.SamePlaces (s.write id data a) := by
  unfold write
  dsimp only
  split
  · exact ⟨rfl, rfl, rfl, fun _ => rfl⟩
  · exact s.setConnection_samePlaces id _

theorem acceptorStep_samePlaces (pc : AcceptorPc) : s.SamePlaces (s.acceptorStep id pc).1 := by
  cases pc with
  | addConnect => exact ⟨rfl, rfl, rfl, fun _ => rfl⟩
  | setMessageCallback => exact s.setConnection_samePlaces id _
  | setCloseCallback => exact s.setConnection_samePlaces id _
  | connectedHandle => exact s.setConnection_samePlaces id _
  | connectCallback => exact ⟨rfl, rfl, rfl, fun _ => rfl⟩

end TcpServer

/-- Every step of the threads but the constructor. -/
theorem serverThreads_samePlaces {s s' : ProtocolState} {l : ProtocolStep}
    {o : List (ConnectId × VirtualCallback)} (hl : l.isAccept = false)
    (hs : serverThreads.step s l = some (s', o)) : s.server.SamePlaces s'.server := by
  cases ProtocolState.moves_of_step hs with
  | accept sockfd addr => cases hl
  | acceptor id pc => exact s.server.acceptorStep_samePlaces id pc
  | report id events => exact ⟨rfl, rfl, rfl, fun _ => rfl⟩
  | callback i io id cb => exact s.server.runCallback_samePlaces id cb io
  | write id data a => exact s.server.write_samePlaces id data a
  | shutdownWrite id => exact s.server.setConnection_samePlaces id _

/-! ## 4. The objects are the connections handed over -/

/-- Whose turn the `k`-th connection is: the main loop's where there is no worker. -/
def turn (poolSize k : Nat) : Nat := if poolSize = 0 then 0 else (k + 1) % poolSize + 1

/-- The object that the `k`-th connection becomes. -/
def placedAs (poolSize k : Nat) (p : Int × SocketAddr) : Placed :=
  ⟨turn poolSize k, p.1, p.2, p.2.toString⟩

def TcpServer.places (s : TcpServer) : List Placed :=
  (List.range s.next).map fun id => (s.object id).placed

/-- The objects are the connections handed over, in order. -/
structure AsAccepted (poolSize : Nat) (handed : List (Int × SocketAddr)) (s : TcpServer) :
    Prop where
  size : s.poolSize = poolSize
  threadIndex : poolSize ≠ 0 → s.threadIndex = handed.length % poolSize
  next : s.next = handed.length
  places : s.places = handed.mapIdx (placedAs poolSize)

namespace AsAccepted

variable {poolSize : Nat} {handed : List (Int × SocketAddr)} {s s' : TcpServer}

theorem initial (poolSize : Nat) (loops : Nat → World TcpCallback) :
    AsAccepted poolSize [] (.initial poolSize loops) :=
  ⟨rfl, fun _ => (Nat.zero_mod poolSize).symm, rfl, rfl⟩

theorem samePlaces (h : AsAccepted poolSize handed s) (hsame : s.SamePlaces s') :
    AsAccepted poolSize handed s' where
  size := hsame.poolSize.trans h.size
  threadIndex hp := hsame.threadIndex.trans (h.threadIndex hp)
  next := hsame.next.trans h.next
  places := by
    rw [← h.places]
    unfold TcpServer.places
    rw [hsame.next]
    exact List.map_congr_left fun id _ => hsame.placed id

/-- The loop that the pool gives, and where its index goes. -/
theorem getOneLoop (h : AsAccepted poolSize handed s) :
    s.getOneLoopFromPool.1 = turn poolSize handed.length ∧
      (poolSize ≠ 0 → s.getOneLoopFromPool.2.threadIndex = (handed.length + 1) % poolSize) := by
  unfold TcpServer.getOneLoopFromPool turn
  rw [h.size]
  split
  · rename_i hzero
    exact ⟨rfl, fun hne => absurd hzero hne⟩
  · rename_i hne
    have hlt : s.threadIndex < poolSize := by
      rw [h.threadIndex hne]
      exact Nat.mod_lt _ (Nat.pos_of_ne_zero hne)
    have hnext : (handed.length + 1) % poolSize =
        if s.threadIndex + 1 ≥ poolSize then 0 else s.threadIndex + 1 := by
      rw [Nat.add_mod_eq_add_mod_right 1 (Nat.mod_mod handed.length poolSize).symm,
        ← h.threadIndex hne]
      split
      · rename_i hge
        rw [show s.threadIndex + 1 = poolSize by omega, Nat.mod_self]
      · rename_i hge
        exact Nat.mod_eq_of_lt (by omega)
    rw [hnext]
    exact ⟨rfl, fun _ => rfl⟩

/-- **The constructor** places the new object behind the others. -/
theorem construct (h : AsAccepted poolSize handed s) (fd : Int) (addr : SocketAddr) :
    AsAccepted poolSize (handed ++ [(fd, addr)]) (s.construct fd addr).2 := by
  have hlaw := s.construct_law fd addr
  obtain ⟨hloop, hindex⟩ := h.getOneLoop
  have hlen : (handed ++ [(fd, addr)]).length = handed.length + 1 := by
    rw [List.length_append, List.length_singleton]
  have hself : ((s.construct fd addr).2.object s.next).placed =
      placedAs poolSize handed.length (fd, addr) := by
    obtain ⟨i, hi⟩ := s.getOneLoopFromPool_snd
    unfold TcpServer.construct ServerConnect.placed placedAs
    dsimp only
    rw [hi]
    dsimp only
    rw [Function.update_self, ← hloop]
  refine ⟨?_, fun hne => ?_, ?_, ?_⟩
  · obtain ⟨i, hi⟩ := s.getOneLoopFromPool_snd
    unfold TcpServer.construct
    dsimp only
    rw [hi]
    exact h.size
  · rw [hlen, ← hindex hne]
    rfl
  · rw [hlaw.next, h.next, hlen]
  · have hold : (List.range s.next).map
        (fun id => ((s.construct fd addr).2.object id).placed) = s.places :=
      List.map_congr_left fun id hid => by rw [hlaw.old id (List.mem_range.mp hid)]
    unfold TcpServer.places
    rw [hlaw.next, List.range_succ, List.map_append, hold, h.places, List.map_singleton, hself,
      List.mapIdx_concat]

end AsAccepted

/-! ## 5. One step, and every run -/

/-- What holds after the steps `ls` that took `taken`. -/
structure ArrivalsServed (poolSize : Nat) (ls : List AcceptingStep)
    (taken : List (Int × SocketAddr)) (s : AcceptingServer) : Prop where
  /-- What arrived was taken, or is in the queue. -/
  queue : taken.map Prod.snd ++ s.listenQueue = ls.flatMap AcceptingStep.arrived
  /-- What was handed over are the objects. -/
  objects : AsAccepted poolSize (handedOver taken) s.threads.server

section

variable {poolSize : Nat} {socketFd : Int} {event : EventId} {s s' : AcceptingServer}
  {l : AcceptingStep} {o : List (Int × SocketAddr)}

theorem handedOver_append (taken more : List (Int × SocketAddr)) :
    handedOver (taken ++ more) = handedOver taken ++ handedOver more :=
  List.filter_append ..

/-- What `acceptHandle` does: it takes nothing; or it takes the oldest connection, and where its
    descriptor is above 0 the server makes an object of it. -/
theorem acceptHandle_cases {fd : Int}
    (hs : (acceptingServer socketFd event).step s (.acceptHandle fd) = some (s', o)) :
    (o = [] ∧ s'.listenQueue = s.listenQueue ∧ s'.threads = s.threads) ∨
      ∃ addr, o = [(fd, addr)] ∧ s.listenQueue = addr :: s'.listenQueue ∧
        ((fd > 0 ∧ s'.threads.server = (s.threads.server.construct fd addr).2) ∨
          (¬ fd > 0 ∧ s'.threads = s.threads)) := by
  simp only [acceptingServer] at hs
  split at hs
  · cases hs
  · split at hs
    · cases hs
      exact Or.inl ⟨rfl, rfl, rfl⟩
    · split at hs
      · cases hs
      · rename_i addr queue hqueue
        refine Or.inr ⟨addr, ?_⟩
        unfold acceptHandle at hs
        by_cases hpos : fd > 0
        · simp only [if_pos hpos, if_true] at hs
          split at hs
          · cases hs
          · rename_i threads called hthreads
            cases hs
            refine ⟨rfl, hqueue, Or.inl ⟨hpos, ?_⟩⟩
            cases ProtocolState.moves_of_step hthreads with
            | accept => rfl
        · simp only [if_neg hpos] at hs
          cases hs
          exact ⟨rfl, hqueue, Or.inr ⟨hpos, rfl⟩⟩

section

variable {ls : List AcceptingStep} {taken : List (Int × SocketAddr)}

/-- A step in which nothing arrives and nothing is taken. -/
theorem ArrivalsServed.quiet (h : ArrivalsServed poolSize ls taken s) (hl : l.arrived = [])
    (hq : s'.listenQueue = s.listenQueue)
    (hsame : s.threads.server.SamePlaces s'.threads.server) :
    ArrivalsServed poolSize (ls ++ [l]) (taken ++ []) s' := by
  rw [List.append_nil]
  refine ⟨?_, h.objects.samePlaces hsame⟩
  rw [hq, h.queue, List.flatMap_append, List.flatMap_singleton, hl, List.append_nil]

theorem handedOver_singleton (fd : Int) (addr : SocketAddr) :
    handedOver [(fd, addr)] = if fd > 0 then [(fd, addr)] else [] := by
  unfold handedOver
  rw [List.filter_singleton, Bool.cond_decide]

/-- `acceptHandle` takes a connection, of which an object is made if its descriptor is above 0. -/
theorem ArrivalsServed.acceptHandle {fd : Int} (h : ArrivalsServed poolSize ls taken s)
    (hs : (acceptingServer socketFd event).step s (.acceptHandle fd) = some (s', o)) :
    ArrivalsServed poolSize (ls ++ [.acceptHandle fd]) (taken ++ o) s' := by
  rcases acceptHandle_cases hs with ⟨rfl, hq, hthreads⟩ | ⟨addr, rfl, hq, hfate⟩
  · exact h.quiet rfl hq (hthreads ▸ ⟨rfl, rfl, rfl, fun _ => rfl⟩)
  · refine ⟨?_, ?_⟩
    · rw [List.flatMap_append, List.flatMap_singleton, ← h.queue, hq, List.map_append,
        List.append_assoc]
      exact (List.append_nil _).symm
    · rw [handedOver_append, handedOver_singleton]
      rcases hfate with ⟨hpos, hserver⟩ | ⟨hpos, hthreads⟩
      · rw [if_pos hpos, hserver]
        exact h.objects.construct fd addr
      · rw [if_neg hpos, List.append_nil, hthreads]
        exact h.objects

/-- **One step.** -/
theorem ArrivalsServed.step (h : ArrivalsServed poolSize ls taken s)
    (hs : (acceptingServer socketFd event).step s l = some (s', o)) :
    ArrivalsServed poolSize (ls ++ [l]) (taken ++ o) s' := by
  have same : s.threads.server.SamePlaces s.threads.server := ⟨rfl, rfl, rfl, fun _ => rfl⟩
  cases l with
  | arrive addr =>
    cases hs
    refine ⟨?_, ?_⟩
    · rw [List.append_nil, ← List.append_assoc, h.queue, List.flatMap_append]
      rfl
    · rw [List.append_nil]
      exact h.objects
  | mainLoop a =>
    simp only [acceptingServer] at hs
    split at hs
    · cases hs
      exact h.quiet rfl rfl same
    · cases hs
  | report events =>
    simp only [acceptingServer] at hs
    split at hs
    · cases hs
    · cases hs
      exact h.quiet rfl rfl same
  | acceptHandle fd => exact h.acceptHandle hs
  | threads l =>
    simp only [acceptingServer] at hs
    split at hs
    · cases hs
    · rename_i hl
      split at hs
      · cases hs
      · rename_i threads called hthreads
        cases hs
        exact h.quiet rfl rfl (serverThreads_samePlaces
          ((Bool.not_eq_true _).mp fun hacc => hl (Or.inl hacc)) hthreads)

end

/-- **Every run.** -/
theorem arrivalsServed_run {w : World Unit} {loops : Nat → World TcpCallback}
    {ls : List AcceptingStep} {t : AcceptingServer} {os : List (List (Int × SocketAddr))}
    (h : (acceptingServer socketFd event).run (.start w socketFd poolSize loops) ls =
      some (t, os)) : ArrivalsServed poolSize ls os.flatten t := by
  have hstart : ArrivalsServed poolSize [] [] (.start w socketFd poolSize loops) :=
    ⟨rfl, AsAccepted.initial poolSize loops⟩
  exact Machine.run_induct
    (P := fun ls os s => ArrivalsServed poolSize ls (List.flatten os) s) hstart
    (fun ls os s l s' o hP hs => by
      rw [List.flatten_append, List.flatten_singleton]
      exact hP.step hs) h

/-- **From the wire to the objects**, in every interleaving of the kernel, the main loop and the
    workers: the connections that arrived are those that accept(2) took, followed by those in the
    queue; and those handed over, in the order in which they were taken, are the server's objects,
    each with its descriptor, its address and its name, on the loop whose turn it was. -/
theorem arrivals_are_served (w : World Unit) (loops : Nat → World TcpCallback)
    {ls : List AcceptingStep} {t : AcceptingServer} {os : List (List (Int × SocketAddr))}
    (h : (acceptingServer socketFd event).run (.start w socketFd poolSize loops) ls =
      some (t, os)) :
    os.flatten.map Prod.snd ++ t.listenQueue = ls.flatMap AcceptingStep.arrived ∧
      t.threads.server.places = (handedOver os.flatten).mapIdx (placedAs poolSize) :=
  ⟨(arrivalsServed_run h).queue, (arrivalsServed_run h).objects.places⟩

end

abbrev exampleMainLoop : World Unit :=
  .initial ((∅ : Finmap fun _ : Int => FileKind).insert 3 .pollable) 8

abbrev exampleServer : AcceptingServer := .start exampleMainLoop 3 2 fun _ => .initial ∅ 8

/-- Three connections arrive. The first gets descriptor 0; then accept(2) fails; the second gets
    descriptor 6, and while its object is made the third one waits. -/
def threeArrivals : List AcceptingStep :=
  [.arrive ⟨1, 80⟩, .arrive ⟨2, 80⟩, .report EPOLLIN, .acceptHandle 0, .report EPOLLIN,
    .acceptHandle (-1), .report EPOLLIN, .acceptHandle 6, .threads .acceptor, .arrive ⟨3, 80⟩]

/-- The first of them is lost to the server; the second is its object 0, on loop 2. -/
theorem arrivals_are_served_three : ∃ t os,
    (acceptingServer 3 0).run exampleServer threeArrivals = some (t, os) ∧
      os.flatten = [(0, ⟨1, 80⟩), (6, ⟨2, 80⟩)] ∧ t.listenQueue = [⟨3, 80⟩] ∧
      t.threads.server.places = [placedAs 2 0 (6, ⟨2, 80⟩)] := by
  have hsome : ((acceptingServer 3 0).run exampleServer threeArrivals).isSome := by
    decide +kernel
  obtain ⟨⟨t, os⟩, hrun⟩ := Option.isSome_iff_exists.mp hsome
  have htaken : ((acceptingServer 3 0).run exampleServer threeArrivals).map
      (fun p => p.2.flatten) = some [(0, ⟨1, 80⟩), (6, ⟨2, 80⟩)] := by
    decide +kernel
  rw [hrun] at htaken
  replace htaken : os.flatten = [(0, ⟨1, 80⟩), (6, ⟨2, 80⟩)] := Option.some.inj htaken
  obtain ⟨hqueue, hplaces⟩ := arrivals_are_served _ _ hrun
  rw [htaken] at hqueue hplaces
  exact ⟨t, os, hrun, htaken, List.append_cancel_left hqueue, hplaces⟩

/-! ## 6. The queue is drained -/

/-- What the main thread does for one connection: a report of input, `acceptHandle`, and the
    statements of `newConnected`. -/
def acceptRound (fd : Int) : List AcceptingStep :=
  .report EPOLLIN :: .acceptHandle fd :: List.replicate 5 (.threads .acceptor)

section

variable {socketFd : Int} {event : EventId} {s s' : AcceptingServer}

/-- The acceptor is on the main loop. -/
structure Listens (socketFd : Int) (event : EventId) (s : AcceptingServer) : Prop where
  keyed : s.mainLoop.Keyed
  watches : s.mainLoop.Watches socketFd event ()

theorem Listens.start {w : World Unit} (hk : w.Keyed) (hpool : socketFd ∉ w.eventPool)
    (ha : w.kernel.accepts socketFd) (poolSize : Nat) (loops : Nat → World TcpCallback) :
    Listens socketFd w.next (.start w socketFd poolSize loops) :=
  have h := TcpAccept.listen_watches hk () hpool ha
  ⟨h.1, h.2⟩

/-- Nobody takes the acceptor off the main loop. -/
theorem Listens.step {l : AcceptingStep} {o : List (Int × SocketAddr)}
    (h : Listens socketFd event s)
    (hs : (acceptingServer socketFd event).step s l = some (s', o)) :
    Listens socketFd event s' := by
  cases l with
  | arrive addr =>
    cases hs
    exact ⟨h.keyed, h.watches⟩
  | mainLoop a =>
    simp only [acceptingServer] at hs
    split at hs
    · rename_i ha
      cases hs
      exact ⟨h.keyed.act ha.1, h.watches.act h.keyed ha.2⟩
    · cases hs
  | report events =>
    simp only [acceptingServer] at hs
    split at hs
    · cases hs
    · cases hs
      exact ⟨h.keyed.dispatch _, h.watches.dispatch h.keyed _⟩
  | acceptHandle fd =>
    simp only [acceptingServer] at hs
    split at hs
    · cases hs
    · split at hs
      · cases hs
        exact ⟨h.keyed, h.watches⟩
      · split at hs
        · cases hs
        · split at hs
          · split at hs
            · cases hs
            · cases hs
              exact ⟨h.keyed, h.watches⟩
          · cases hs
            exact ⟨h.keyed, h.watches⟩
          · cases hs
            exact ⟨h.keyed, h.watches⟩
  | threads l =>
    simp only [acceptingServer] at hs
    split at hs
    · cases hs
    · split at hs
      · cases hs
      · cases hs
        exact ⟨h.keyed, h.watches⟩

/-- The statements of `newConnected` come to their end. -/
theorem acceptor_finishes {p : ProtocolState} {id : ConnectId}
    (h : p.acceptor = some (id, .addConnect)) :
    ∃ p' os, serverThreads.run p (List.replicate 5 .acceptor) = some (p', os) ∧
      p'.acceptor = none ∧ p'.handling = p.handling := by
  simp only [List.replicate, Machine.run, serverThreads, h, TcpServer.acceptorStep]
  exact ⟨_, _, rfl, rfl, rfl⟩

variable (socketFd event) in
/-- They are steps of the server with its acceptor. -/
theorem acceptor_lifts {n : Nat} {p p' : ProtocolState}
    {os : List (List (ConnectId × VirtualCallback))}
    (h : serverThreads.run p (List.replicate n .acceptor) = some (p', os)) :
    (acceptingServer socketFd event).run { s with threads := p }
        (List.replicate n (.threads .acceptor)) =
      some ({ s with threads := p' }, List.replicate n []) := by
  induction n generalizing p os with
  | zero =>
    cases h
    rfl
  | succ n ih =>
    obtain ⟨m, o, os', hs, hr, -⟩ := Machine.run_cons_iff.mp h
    refine Machine.run_cons_iff.mpr ⟨{ s with threads := m }, [], _, ?_, ih hr, rfl⟩
    have hfree : ¬ (ProtocolStep.acceptor.isAccept = true ∨
        (s.pending ≠ 0 ∧ p.reportsMain .acceptor)) := by
      intro hor
      rcases hor with hacc | hmain
      · cases hacc
      · exact hmain.2
    simp only [acceptingServer, if_neg hfree, hs]

/-- **A round serves the oldest connection.** -/
theorem acceptRound_serves (h : Listens socketFd event s) (hidle : ¬ s.busy) {fd : Int}
    (hfd : fd > 0) {addr : SocketAddr} {queue : List SocketAddr}
    (hqueue : s.listenQueue = addr :: queue) :
    ∃ s' os, (acceptingServer socketFd event).run s (acceptRound fd) = some (s', os) ∧
      os.flatten = [(fd, addr)] ∧ s'.listenQueue = queue ∧ ¬ s'.busy := by
  obtain ⟨hpending, hrest⟩ := not_or.mp hidle
  obtain ⟨hacceptor, hhandling⟩ := not_or.mp hrest
  rw [not_not] at hpending hacceptor hhandling
  obtain ⟨hdispatch, hhandle⟩ := h.watches.report
  -- the report leaves one call of `acceptHandle`
  have hreport : (acceptingServer socketFd event).step s (.report EPOLLIN) =
      some ({ s with pending := 1 }, []) := by
    simp only [acceptingServer, if_neg hidle, hdispatch, Option.toList_some,
      List.flatMap_singleton]
    rw [hhandle]
    rfl
  -- which starts `newConnected`
  cases hc : s.threads.server.construct fd addr with
  | mk id server =>
    let threads : ProtocolState :=
      { s.threads with server := server, acceptor := some (id, .addConnect) }
    have hconstruct : serverThreads.step s.threads (.accept fd addr) = some (threads, []) := by
      simp only [serverThreads, hacceptor, hhandling, and_self, if_true, hc]
      rfl
    have htake : (acceptingServer socketFd event).step { s with pending := 1 }
        (.acceptHandle fd) =
        some ({ s with listenQueue := queue, pending := 0, threads := threads },
          [(fd, addr)]) := by
      have hgo : ¬ ((1 : Nat) = 0 ∨ s.threads.acceptor ≠ none) := by
        rw [hacceptor]
        exact fun hor => hor.elim (fun hzero => absurd hzero Nat.one_ne_zero) fun hne => hne rfl
      have hfate : acceptHandle true fd addr = .handed fd addr := by
        rw [acceptHandle, if_pos hfd, if_pos rfl]
      simp only [acceptingServer, if_neg hgo, if_neg (Int.not_lt.mpr (Int.le_of_lt hfd)), hqueue,
        hfate, hconstruct]
    obtain ⟨threads', os, hrun, hdone, hsame⟩ := acceptor_finishes (p := threads) rfl
    have hlift := acceptor_lifts socketFd event (s := { s with listenQueue := queue, pending := 0 })
      hrun
    refine ⟨_, _, Machine.run_cons_iff.mpr ⟨_, _, _, hreport,
      Machine.run_cons_iff.mpr ⟨_, _, _, htake, hlift, rfl⟩, rfl⟩, rfl, rfl, ?_⟩
    intro hbusy
    rcases hbusy with hp | hacc | hhand
    · exact hp rfl
    · exact hacc hdone
    · refine hhand ?_
      show threads'.handling 0 = []
      rw [hsame]
      exact hhandling

/-- **A round for each queued connection** takes them all, oldest first. -/
theorem acceptRounds_drain {fds : List Int} {t : AcceptingServer} (h : Listens socketFd event t)
    (hidle : ¬ t.busy) (hfds : ∀ fd ∈ fds, fd > 0) (hlen : fds.length = t.listenQueue.length) :
    ∃ t' os', (acceptingServer socketFd event).run t (fds.flatMap acceptRound) =
        some (t', os') ∧
      os'.flatten = fds.zip t.listenQueue ∧ t'.listenQueue = [] ∧ ¬ t'.busy := by
  induction fds generalizing t with
  | nil =>
    have hnil : t.listenQueue = [] := List.length_eq_zero_iff.mp hlen.symm
    exact ⟨t, [], rfl, rfl, hnil, hidle⟩
  | cons fd fds ih =>
    obtain ⟨addr, queue, hqueue⟩ := List.exists_cons_of_length_eq_add_one hlen.symm
    obtain ⟨m, os₁, hround, htaken, hrest, hfree⟩ :=
      acceptRound_serves h hidle (hfds fd List.mem_cons_self) hqueue
    have hm : Listens socketFd event m :=
      Machine.run_invariant (fun _ _ _ _ hI hs => hI.step hs) h hround
    have hlen' : fds.length = m.listenQueue.length := by
      rw [hrest]
      rw [hqueue, List.length_cons, List.length_cons] at hlen
      exact Nat.succ.inj hlen
    obtain ⟨t', os₂, hrun, hzip, hnil, hidle'⟩ :=
      ih hm hfree (fun fd' hin => hfds fd' (List.mem_cons_of_mem _ hin)) hlen'
    refine ⟨t', os₁ ++ os₂, Machine.run_append_iff.mpr ⟨m, os₁, os₂, hround, hrun, rfl⟩, ?_, hnil,
      hidle'⟩
    rw [List.flatten_append, htaken, hzip, hrest, hqueue]
    rfl

/-- **The queue is drained.** The kernel accepts the listening socket, nothing is left under its
    number in the registry, and the others spare it. In every reachable state in which the main
    thread is free, a round for each queued connection, in which accept(2) succeeds, takes them
    all, oldest first, makes an object of each behind those that were there, and leaves the main
    thread free. -/
theorem listen_queue_drains {w : World Unit} {poolSize : Nat} {loops : Nat → World TcpCallback}
    (hk : w.Keyed) (hpool : socketFd ∉ w.eventPool) (ha : w.kernel.accepts socketFd)
    {ls : List AcceptingStep} {t : AcceptingServer} {os : List (List (Int × SocketAddr))}
    (h : (acceptingServer socketFd w.next).run (.start w socketFd poolSize loops) ls =
      some (t, os)) (hidle : ¬ t.busy) {fds : List Int} (hfds : ∀ fd ∈ fds, fd > 0)
    (hlen : fds.length = t.listenQueue.length) :
    ∃ t' os', (acceptingServer socketFd w.next).run t (fds.flatMap acceptRound) =
        some (t', os') ∧
      os'.flatten = fds.zip t.listenQueue ∧ t'.listenQueue = [] ∧ ¬ t'.busy ∧
      t'.threads.server.places =
        (handedOver os.flatten ++ fds.zip t.listenQueue).mapIdx (placedAs poolSize) := by
  have ht : Listens socketFd w.next t :=
    Machine.run_invariant (fun _ _ _ _ hI hs => hI.step hs)
      (.start hk hpool ha poolSize loops) h
  obtain ⟨t', os', hrun, hzip, hnil, hfree⟩ := acceptRounds_drain ht hidle hfds hlen
  refine ⟨t', os', hrun, hzip, hnil, hfree, ?_⟩
  have hboth := arrivalsServed_run (Machine.run_append_iff.mpr ⟨t, os, os', h, hrun, rfl⟩)
  have hall : handedOver (fds.zip t.listenQueue) = fds.zip t.listenQueue :=
    List.filter_eq_self.mpr fun p hp => decide_eq_true (hfds p.1 (List.of_mem_zip hp).1)
  rw [hboth.objects.places, List.flatten_append, hzip, handedOver_append, hall]

end

/-- Two connections wait: they become the first two objects. -/
theorem listen_queue_drains_two : ∃ t os t' os',
    (acceptingServer 3 0).run exampleServer [.arrive ⟨1, 80⟩, .arrive ⟨2, 80⟩] = some (t, os) ∧
      (acceptingServer 3 0).run t ([6, 7].flatMap acceptRound) = some (t', os') ∧
      os'.flatten = [(6, ⟨1, 80⟩), (7, ⟨2, 80⟩)] ∧ t'.listenQueue = [] ∧
      t'.threads.server.places = [placedAs 2 0 (6, ⟨1, 80⟩), placedAs 2 1 (7, ⟨2, 80⟩)] := by
  have harrived : (acceptingServer 3 0).run exampleServer [.arrive ⟨1, 80⟩, .arrive ⟨2, 80⟩] =
      some ({ exampleServer with listenQueue := [⟨1, 80⟩, ⟨2, 80⟩] }, [[], []]) := rfl
  obtain ⟨t', os', hrun, hzip, hnil, -, hplaces⟩ :=
    listen_queue_drains (World.Keyed.initial _ _) (by decide) (by decide) harrived (by decide)
      (show ∀ fd ∈ [6, 7], fd > (0 : Int) by decide) rfl
  exact ⟨_, _, t', os', harrived, hrun, hzip, hnil, hplaces⟩

end PluginsEngine
