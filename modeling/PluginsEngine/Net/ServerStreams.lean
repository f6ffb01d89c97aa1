/-
  File:      PluginsEngine/Net/ServerStreams.lean
  Subject:   THE STREAMS OF ALL CONNECTIONS OF A SERVER, in every interleaving of its threads.

  A server has many connections on few loops. Its acceptor and its workers run; on the threads of
  the loops, handlers and posted functions call `write`, and the application takes lines out of the
  buffers its message callbacks are given. For each connection it is kept what `write` accepted,
  what its socket was handed, what was read from its socket and which lines were taken. The runs
  are those in which no index of a buffer passes 2^32.

  * `serving` -- the threads of the server, with the steps of the application;
  * `effect` -- what a step adds to the streams of a connection;
  * `InOrder`, `inOrder_step` -- every connection is steady on its loop, and its buffers are well
    formed; `MovesStreams` -- one step, seen from one connection;
  * `streams_are_separate` -- over every run: no byte of one connection gets into the streams of
    another, none is lost, repeated or out of order, in either direction.
-/
import PluginsEngine.Net.Link
import PluginsEngine.Net.ServerProtocol

namespace PluginsEngine

open Library Buffer

/-! ## 1. A server in use -/

inductive ServingStep where
  | threads (l : ProtocolStep)
  /-- The application takes a line from the buffer of connection `id`. -/
  | takeLine (id : ConnectId)

namespace TcpServer

variable (s : TcpServer) (id : ConnectId)

/-- Connection `id` with another `readBuf`. -/
def setReadBuf (b : Buffer) : TcpServer :=
  let c := s.connection id
  s.setConnection id { c with connect := { c.connect with readBuf := b } }

abbrev readBuf : Buffer := (s.object id).connect.readBuf

/-- The backlog of connection `id`. -/
abbrev unsent : List UInt8 := (s.object id).connect.writeBuf.contents

end TcpServer

/-- The output is the line that is taken. -/
def serving : Machine ProtocolState ServingStep (Option (List UInt8)) where
  step s
    | .threads l =>
      match serverThreads.step s l with
      | none => none
      | some (s', _) => some (s', none)
    | .takeLine id =>
      if id < s.server.next then
        let taken := (s.server.readBuf id).takeLine
        some ({ s with server := s.server.setReadBuf id taken.1 }, taken.2)
      else none

/-- What a step of the threads does here. -/
theorem moves_of_serving {s s' : ProtocolState} {l : ProtocolStep} {o : Option (List UInt8)}
    (hs : serving.step s (.threads l) = some (s', o)) :
    (∃ called, s.Moves l s' called) ∧ o = none := by
  simp only [serving] at hs
  split at hs
  · cases hs
  rename_i t called hthreads
  cases hs
  exact ⟨⟨called, ProtocolState.moves_of_step hthreads⟩, rfl⟩

/-- The streams of a connection so far. -/
structure Streams where
  accepted : List UInt8
  handed : List UInt8
  received : List UInt8
  lines : List (List UInt8)
  deriving DecidableEq

namespace Streams

def empty : Streams := ⟨[], [], [], []⟩

def append (g h : Streams) : Streams :=
  ⟨g.accepted ++ h.accepted, g.handed ++ h.handed, g.received ++ h.received, g.lines ++ h.lines⟩

end Streams

/-- What a callback of the Event adds to the streams. -/
def Connection.callbackEffect (c : Connection) (cb : TcpCallback) (io : IoAnswer) : Streams :=
  match cb with
  | .readEvent => { Streams.empty with received := io.readv.received }
  | .writeEvent => { Streams.empty with handed := (c.writeEvent io.write).2.handed }
  | .errorEvent | .closeEvent => .empty

/-- What a `write` adds: nothing where it returns at once. -/
def Connection.writeEffect (c : Connection) (data : List UInt8) (a : WriteAnswer) : Streams :=
  if c.connect.state = .Disconnected then .empty
  else
    { Streams.empty with
      accepted := (ConnectionStep.write data a).accepted (c.beginWrite data a).2
      handed := (c.beginWrite data a).2.handed }

/-- **What a step adds to the streams of connection `id`.** -/
def effect (s : ProtocolState) (l : ServingStep) (line : Option (List UInt8)) (id : ConnectId) :
    Streams :=
  match l with
  | .threads (.write id' data a) =>
    if id' = id then (s.server.connection id').writeEffect data a else .empty
  | .threads (.callback i io) =>
    match s.handling i with
    | [] => .empty
    | (id', cb) :: _ =>
      if id' = id then (s.server.connection id').callbackEffect cb io else .empty
  | .threads _ => .empty
  | .takeLine id' => if id' = id then { Streams.empty with lines := line.toList } else .empty

/-- The server with the streams of all its connections. -/
def servingStreams : Machine (ProtocolState × (ConnectId → Streams)) ServingStep
    (Option (List UInt8)) :=
  serving.withHistory fun s l line g id => (g id).append (effect s l line id)

/-! ## 2. One step, seen from one connection -/

/-- Every connection is steady on its loop, its `readBuf` is well formed, and the threads work on
    connections that exist. -/
structure InOrder (s : ProtocolState) : Prop where
  separate : s.server.Separate
  readBuf : ∀ id, id < s.server.next → (s.server.readBuf id).Wf
  accepting : ∀ id pc, s.acceptor = some (id, pc) → id < s.server.next
  due : ∀ i, ∀ p ∈ s.handling i, p.1 < s.server.next

/-- What a step that adds `g` to the streams of connection `id` does to its buffers. -/
structure MovesStreams (s s' : TcpServer) (id : ConnectId) (g : Streams) : Prop where
  outgoing : g.handed ++ s'.unsent id = s.unsent id ++ g.accepted
  wf : (s'.readBuf id).Wf
  incoming : split kCRLF ((s.readBuf id).contents ++ g.received) =
    (g.lines ++ (split kCRLF (s'.readBuf id).contents).1,
      (split kCRLF (s'.readBuf id).contents).2)

namespace MovesStreams

variable {s s' : TcpServer} {id : ConnectId}

/-- A step that leaves the buffers alone. -/
theorem same (hwf : (s.readBuf id).Wf)
    (hw : (s'.object id).connect.writeBuf = (s.object id).connect.writeBuf)
    (hr : s'.readBuf id = s.readBuf id) : MovesStreams s s' id .empty where
  outgoing := by
    unfold TcpServer.unsent
    rw [hw]
    exact (List.append_nil _).symm
  wf := by
    rw [hr]
    exact hwf
  incoming := by
    rw [hr]
    show split kCRLF ((s.readBuf id).contents ++ []) = _
    rw [List.append_nil]
    rfl

end MovesStreams

/-- **A method of one connection** that leaves `b` as its `readBuf`: what it does to its own
    streams, and nothing to others. -/
theorem moves_setConnection {server : TcpServer}
    (hwf : ∀ id, id < server.next → (server.readBuf id).Wf) {id : ConnectId} {c : Connection}
    {b : Buffer} {g : Streams} (hb : c.connect.readBuf = b) (hwfb : b.Wf)
    (hout : g.handed ++ c.unsent = server.unsent id ++ g.accepted)
    (hin : split kCRLF ((server.readBuf id).contents ++ g.received) =
      (g.lines ++ (split kCRLF b.contents).1, (split kCRLF b.contents).2)) (id' : ConnectId)
    (hid : id' < server.next) :
    MovesStreams server (server.setConnection id c) id' (if id = id' then g else .empty) := by
  by_cases heq : id = id'
  · subst heq
    rw [if_pos rfl]
    have hobject := server.setConnection_object id c
    have hread : (server.setConnection id c).readBuf id = b := by
      unfold TcpServer.readBuf
      rw [hobject]
      exact hb
    refine ⟨?_, by rw [hread]; exact hwfb, by rw [hread]; exact hin⟩
    unfold TcpServer.unsent
    rw [hobject]
    exact hout
  · rw [if_neg heq]
    have hobject := server.setConnection_object_of_ne id c (Ne.symm heq)
    refine .same (hwf id' hid) (by rw [hobject]) ?_
    unfold TcpServer.readBuf
    rw [hobject]

/-- A method that leaves the `readBuf` alone: no byte is read, and no line is taken. -/
theorem moves_write {server : TcpServer}
    (hwf : ∀ id, id < server.next → (server.readBuf id).Wf) {id : ConnectId}
    (hid : id < server.next) {c : Connection} {g : Streams}
    (hr : c.connect.readBuf = server.readBuf id) (hreceived : g.received = [])
    (hlines : g.lines = []) (hout : g.handed ++ c.unsent = server.unsent id ++ g.accepted)
    (id' : ConnectId) (hid' : id' < server.next) :
    MovesStreams server (server.setConnection id c) id' (if id = id' then g else .empty) := by
  refine moves_setConnection hwf hr (hwf id hid) hout ?_ id' hid'
  rw [hreceived, hlines, List.append_nil]
  rfl

/-- A method that leaves both buffers alone. -/
theorem moves_quiet {server : TcpServer}
    (hwf : ∀ id, id < server.next → (server.readBuf id).Wf) {id : ConnectId}
    (hid : id < server.next) {c : Connection} (hw : c.unsent = server.unsent id)
    (hr : c.connect.readBuf = server.readBuf id) (id' : ConnectId) (hid' : id' < server.next) :
    MovesStreams server (server.setConnection id c) id' .empty := by
  have hmoves := moves_write (g := .empty) hwf hid hr rfl rfl
    (hw.trans (List.append_nil _).symm) id' hid'
  rwa [ite_self] at hmoves

/-- A callback of the Event. -/
theorem moves_runCallback {server : TcpServer} (h : server.Separate)
    (hwf : ∀ id, id < server.next → (server.readBuf id).Wf) {id : ConnectId}
    (hid : id < server.next) {cb : TcpCallback} {io : IoAnswer}
    (hfit : (server.connection id).callbackFits cb io) (id' : ConnectId)
    (hid' : id' < server.next) :
    MovesStreams server (server.runCallback id cb io).1 id'
      (if id = id' then (server.connection id).callbackEffect cb io else .empty) := by
  have hsteady := h.steady id hid
  -- the close callback takes the connection out of the pool, and leaves it as it is
  have hset : MovesStreams server
      (server.setConnection id ((server.connection id).runCallback cb io).1) id'
      (if id = id' then (server.connection id).callbackEffect cb io else .empty) := by
    cases cb with
    | readEvent =>
      obtain ⟨hbuf, hcontents⟩ :=
        Buffer.readFromIO_contents (hwf id hid) (r := io.readv) hfit.1 hfit.2
      refine moves_setConnection (b := ( Buffer.readFromIO (server.readBuf id) io.readv).1) hwf
        ((server.connection id).readEvent_readBuf io.readv) hbuf ?_ ?_ id' hid'
      · exact (Connection.readEvent_steady hsteady io.readv).2.trans (List.append_nil _).symm
      · rw [hcontents]
        rfl
    | writeEvent =>
      obtain ⟨-, hunsent, hhanded⟩ := Connection.writeEvent_law hsteady hfit
      refine moves_write hwf hid ((server.connection id).writeEvent_readBuf io.write) rfl rfl ?_
        id' hid'
      show ((server.connection id).writeEvent io.write).2.handed ++
        ((server.connection id).writeEvent io.write).1.unsent = _
      rw [hhanded, hunsent]
      exact (List.append_nil _).symm
    | errorEvent | closeEvent =>
      exact moves_write (g := .empty) hwf hid (server.connection id).closeEvent_readBuf rfl rfl
        ((Connection.closeEvent_steady hsteady).2.trans (List.append_nil _).symm) id' hid'
  unfold TcpServer.runCallback
  dsimp only
  split
  · exact ⟨hset.outgoing, hset.wf, hset.incoming⟩
  · exact hset

/-- A `write`: what the socket takes at once and what is queued are the data, behind the
    backlog. -/
theorem moves_serverWrite {server : TcpServer} (h : server.Separate)
    (hwf : ∀ id, id < server.next → (server.readBuf id).Wf) {id : ConnectId}
    (hid : id < server.next) {data : List UInt8} {a : WriteAnswer}
    (hlen : data.length < 2 ^ 32) (hfit : a.fits data.length)
    (hroom : (server.connection id).writeFits ((server.connection id).beginWrite data a).1)
    (id' : ConnectId) (hid' : id' < server.next) :
    MovesStreams server (server.write id data a) id'
      (if id = id' then (server.connection id).writeEffect data a else .empty) := by
  unfold TcpServer.write Connection.writeEffect
  dsimp only
  split
  · rw [ite_self]
    exact .same (hwf id' hid') rfl rfl
  · have hbegin := Connection.beginWrite_law (h.steady id hid) hlen hfit
    have hfinish := Connection.finishWrite_law (h.steady id hid) hroom hbegin.length
    refine moves_write hwf hid ((server.connection id).finishWrite_readBuf _) rfl rfl ?_ id' hid'
    rw [hfinish.2, ← List.append_assoc]
    exact hbegin.stream

/-- A statement of `newConnected`. -/
theorem moves_acceptorStep {server : TcpServer} (h : server.Separate)
    (hwf : ∀ id, id < server.next → (server.readBuf id).Wf) {id : ConnectId}
    (hid : id < server.next) (pc : AcceptorPc) (id' : ConnectId) (hid' : id' < server.next) :
    MovesStreams server (server.acceptorStep id pc).1 id' .empty := by
  cases pc with
  | addConnect | connectCallback => exact .same (hwf id' hid') rfl rfl
  | setMessageCallback | setCloseCallback => exact moves_quiet hwf hid rfl rfl id' hid'
  | connectedHandle =>
    exact moves_quiet hwf hid (Connection.connectedHandle_steady (h.steady id hid)).2 rfl id' hid'

/-- The application takes a line. -/
theorem moves_takeLine {server : TcpServer}
    (hwf : ∀ id, id < server.next → (server.readBuf id).Wf) {id : ConnectId}
    (hid : id < server.next) (id' : ConnectId) (hid' : id' < server.next) :
    MovesStreams server (server.setReadBuf id (server.readBuf id).takeLine.1) id'
      (if id = id' then { Streams.empty with lines := (server.readBuf id).takeLine.2.toList }
        else .empty) := by
  obtain ⟨hbuf, hsplit⟩ := framing_step (hwf id hid) (framing_takeLine (server.readBuf id))
  exact moves_setConnection hwf rfl hbuf (List.append_nil _).symm hsplit id' hid'

/-- A new connection has nothing in its buffers. -/
theorem construct_buffers (server : TcpServer) (sockfd : Int) (addr : SocketAddr) :
    (server.construct sockfd addr).2.unsent server.next = [] ∧
      (server.construct sockfd addr).2.readBuf server.next = .new Buffer.InitSize := by
  obtain ⟨i, hi⟩ := server.getOneLoopFromPool_snd
  have hobject : (server.construct sockfd addr).2.object server.next =
      ⟨server.getOneLoopFromPool.1, sockfd, addr, addr.toString,
        (Connection.new (server.loops server.getOneLoopFromPool.1) sockfd []).connect⟩ := by
    unfold TcpServer.construct
    dsimp only
    rw [hi]
    exact Function.update_self _ _ _
  unfold TcpServer.unsent TcpServer.readBuf
  rw [hobject]
  exact ⟨Buffer.new_contents _, rfl⟩

/-! ## 3. One step of a server in use -/

/-- What a step that adds `g id` to the streams of connection `id` does, for all connections. -/
structure StepMoves (s s' : ProtocolState) (g : ConnectId → Streams) : Prop where
  inOrder : InOrder s'
  next : s.server.next ≤ s'.server.next
  moves : ∀ id, id < s.server.next → MovesStreams s.server s'.server id (g id)
  fresh : ∀ id, s.server.next ≤ id → g id = .empty
  constructed : ∀ id, s.server.next ≤ id → id < s'.server.next →
    s'.server.unsent id = [] ∧ s'.server.readBuf id = .new Buffer.InitSize

/-- A step that constructs no connection: what it does to each of those there are is left to
    show. -/
theorem StepMoves.of_next {s s' : ProtocolState} {g : ConnectId → Streams}
    (hsep : s'.server.Separate)
    (hn : s'.server.next = s.server.next)
    (hmoves : ∀ id, id < s.server.next → MovesStreams s.server s'.server id (g id))
    (hfresh : ∀ id, s.server.next ≤ id → g id = .empty)
    (hacc : ∀ id pc, s'.acceptor = some (id, pc) → id < s.server.next)
    (hdue : ∀ i, ∀ p ∈ s'.handling i, p.1 < s.server.next) : StepMoves s s' g where
  inOrder :=
    { separate := hsep
      readBuf := fun id hlt => (hmoves id (hn ▸ hlt)).wf
      accepting := fun id pc he => by
        rw [hn]
        exact hacc id pc he
      due := fun i p hp => by
        rw [hn]
        exact hdue i p hp }
  next := Nat.le_of_eq hn.symm
  moves := hmoves
  fresh := hfresh
  constructed id hge hlt := by
    rw [hn] at hlt
    exact absurd hlt (Nat.not_lt.mpr hge)

namespace InOrder

variable {s s' : ProtocolState} {o : Option (List UInt8)}

theorem initial (poolSize : Nat) (loops : Nat → World TcpCallback) :
    InOrder ⟨.initial poolSize loops, none, fun _ => []⟩ where
  separate := TcpServer.separate_initial poolSize loops
  readBuf id hlt := absurd hlt (Nat.not_lt_zero id)
  accepting _ _ := nofun
  due _ _ hp := absurd hp List.not_mem_nil

/-- Such a step of one connection adds to the streams of that one only. -/
theorem ite_fresh {id : ConnectId} (hid : id < s.server.next) (g : Streams) (id' : ConnectId)
    (hge : s.server.next ≤ id') : (if id = id' then g else Streams.empty) = .empty := by
  refine if_neg fun heq => ?_
  rw [heq] at hid
  exact absurd hid (Nat.not_lt.mpr hge)

theorem accept (h : InOrder s) {sockfd : Int} {addr : SocketAddr}
    (hs : serving.step s (.threads (.accept sockfd addr)) = some (s', o)) :
    StepMoves s s' fun _ => .empty := by
  obtain ⟨⟨called, hmoves⟩, -⟩ := moves_of_serving hs
  cases hmoves with
  | accept _ _ hidle hmain =>
    have hlaw := s.server.construct_law sockfd addr
    obtain ⟨hunsent, hread⟩ := construct_buffers s.server sockfd addr
    have hnew : ∀ id, s.server.next ≤ id → id < (s.server.construct sockfd addr).2.next →
        id = s.server.next := fun id hge hlt => by
      rw [hlaw.next] at hlt
      exact Nat.le_antisymm (Nat.le_of_lt_succ hlt) hge
    have hold : ∀ id, id < s.server.next →
        MovesStreams s.server (s.server.construct sockfd addr).2 id .empty := by
      intro id hlt
      have hobject : (s.server.construct sockfd addr).2.object id = s.server.object id :=
        hlaw.old id hlt
      refine .same (h.readBuf id hlt) (by rw [hobject]) ?_
      unfold TcpServer.readBuf
      rw [hobject]
    refine ⟨⟨h.separate.construct sockfd addr, fun id hlt => ?_, fun id pc he => ?_,
      fun i p hp => ?_⟩, by rw [hlaw.next]; exact Nat.le_succ _, hold, fun _ _ => rfl,
      fun id hge hlt => ?_⟩
    · rcases Nat.lt_or_ge id s.server.next with hlt' | hge
      · exact (hold id hlt').wf
      · rw [hnew id hge hlt]
        show ((s.server.construct sockfd addr).2.readBuf s.server.next).Wf
        rw [hread]
        exact Buffer.new_wf _
    · cases he
      rw [hlaw.id_eq, hlaw.next]
      exact Nat.lt_succ_self _
    · rw [hlaw.next]
      exact Nat.lt_succ_of_lt (h.due i p hp)
    · rw [hnew id hge hlt]
      exact ⟨hunsent, hread⟩

theorem acceptor (h : InOrder s)
    (hs : serving.step s (.threads .acceptor) = some (s', o)) :
    StepMoves s s' fun _ => .empty := by
  obtain ⟨⟨called, hmoves⟩, -⟩ := moves_of_serving hs
  cases hmoves with
  | acceptor id pc hacc =>
    have hid := h.accepting id pc hacc
    obtain ⟨hsep, hn, -, -, hself⟩ := Follows.acceptorStep_law h.separate hid pc
    refine .of_next hsep hn (moves_acceptorStep h.separate h.readBuf hid pc) (fun _ _ => rfl)
      (fun id' pc' he => ?_) h.due
    rwa [hself id' pc' he]

theorem report (h : InOrder s) {id : ConnectId} {events : Mask}
    (hs : serving.step s (.threads (.report id events)) = some (s', o)) :
    StepMoves s s' fun _ => .empty := by
  obtain ⟨⟨called, hmoves⟩, -⟩ := moves_of_serving hs
  cases hmoves with
  | report _ _ hid hdone hmain =>
    refine .of_next h.separate rfl (fun id' hid' => .same (h.readBuf id' hid') rfl rfl)
      (fun _ _ => rfl) h.accepting fun i p hp => ?_
    dsimp only at hp
    by_cases hi : i = (s.server.object id).loop
    · subst hi
      rw [Function.update_self] at hp
      obtain ⟨_, -, rfl⟩ := List.mem_map.mp hp
      exact hid
    · rw [Function.update_of_ne hi] at hp
      exact h.due i p hp

theorem callback (h : InOrder s) {i : Nat} {io : IoAnswer}
    (hs : serving.step s (.threads (.callback i io)) = some (s', o)) :
    StepMoves s s' (effect s (.threads (.callback i io)) o) := by
  obtain ⟨⟨called, hmoves⟩, rfl⟩ := moves_of_serving hs
  cases hmoves with
  | callback _ _ id cb rest hi hfit =>
    have hid : id < s.server.next := h.due i (id, cb) (by rw [hi]; exact List.mem_cons_self)
    have heffect : effect s (.threads (.callback i io)) none = fun id' =>
        if id = id' then (s.server.connection id).callbackEffect cb io else .empty := by
      funext id'
      simp only [effect, hi]
    rw [heffect]
    refine .of_next (h.separate.runCallback hid hfit) (s.server.runCallback_pool id cb io).next
      (moves_runCallback h.separate h.readBuf hid hfit) (ite_fresh hid _) h.accepting
      fun j p hp => ?_
    dsimp only at hp
    by_cases hj : j = i
    · subst hj
      rw [Function.update_self] at hp
      exact h.due j p (by rw [hi]; exact List.mem_cons_of_mem _ hp)
    · rw [Function.update_of_ne hj] at hp
      exact h.due j p hp

theorem write (h : InOrder s) {id : ConnectId} {data : List UInt8} {a : WriteAnswer}
    (hs : serving.step s (.threads (.write id data a)) = some (s', o)) :
    StepMoves s s' (effect s (.threads (.write id data a)) o) := by
  obtain ⟨⟨called, hmoves⟩, rfl⟩ := moves_of_serving hs
  cases hmoves with
  | write _ _ _ hid hlen hfit hroom =>
    exact .of_next (h.separate.write hid hlen hfit hroom)
      (s.server.write_sameOwners id data a).next
      (moves_serverWrite h.separate h.readBuf hid hlen hfit hroom) (ite_fresh hid _) h.accepting
      h.due

theorem shutdownWrite (h : InOrder s) {id : ConnectId}
    (hs : serving.step s (.threads (.shutdownWrite id)) = some (s', o)) :
    StepMoves s s' fun _ => .empty := by
  obtain ⟨⟨called, hmoves⟩, -⟩ := moves_of_serving hs
  cases hmoves with
  | shutdownWrite _ hid =>
    exact .of_next (h.separate.shutdownWrite hid) rfl
      (moves_quiet h.readBuf hid (Connection.shutdownWrite_steady (h.separate.steady id hid)).2
        (s.server.connection id).shutdownWrite_readBuf) (fun _ _ => rfl) h.accepting h.due

theorem takeLine (h : InOrder s) {id : ConnectId}
    (hs : serving.step s (.takeLine id) = some (s', o)) :
    StepMoves s s' (effect s (.takeLine id) o) := by
  simp only [serving] at hs
  split at hs
  case isFalse => cases hs
  rename_i hid
  cases hs
  exact .of_next (h.separate.setConnection hid (.of_loop_eq rfl rfl)
      ((h.separate.steady id hid).keep rfl rfl rfl)) rfl
    (moves_takeLine h.readBuf hid) (ite_fresh hid _) h.accepting h.due

/-- **One step**: what it adds to the streams of each connection it moves through the buffers of
    that connection, and no other. -/
theorem step (h : InOrder s) {l : ServingStep} (hs : serving.step s l = some (s', o)) :
    StepMoves s s' (effect s l o) := by
  cases l with
  | threads l =>
    cases l with
    | accept sockfd addr => exact h.accept hs
    | acceptor => exact h.acceptor hs
    | report id events => exact h.report hs
    | callback i io => exact h.callback hs
    | write id data a => exact h.write hs
    | shutdownWrite id => exact h.shutdownWrite hs
  | takeLine id => exact h.takeLine hs

end InOrder

/-! ## 4. The streams of all connections -/

/-- **The streams agree with the buffers**, for every connection. -/
structure Accounted (s : ProtocolState × (ConnectId → Streams)) : Prop where
  inOrder : InOrder s.1
  outgoing : ∀ id, id < s.1.server.next →
    (s.2 id).handed ++ s.1.server.unsent id = (s.2 id).accepted
  incoming : ∀ id, id < s.1.server.next →
    split kCRLF (s.2 id).received =
      ((s.2 id).lines ++ (split kCRLF (s.1.server.readBuf id).contents).1,
        (split kCRLF (s.1.server.readBuf id).contents).2)
  fresh : ∀ id, s.1.server.next ≤ id → s.2 id = .empty

namespace Accounted

variable {s s' : ProtocolState × (ConnectId → Streams)}

theorem initial (poolSize : Nat) (loops : Nat → World TcpCallback) :
    Accounted (⟨.initial poolSize loops, none, fun _ => []⟩, fun _ => .empty) where
  inOrder := .initial poolSize loops
  outgoing id hlt := absurd hlt (Nat.not_lt_zero id)
  incoming id hlt := absurd hlt (Nat.not_lt_zero id)
  fresh _ _ := rfl

theorem step (h : Accounted s) {l : ServingStep} {o : Option (List UInt8)}
    (hs : servingStreams.step s l = some (s', o)) : Accounted s' := by
  obtain ⟨hstep, hlog⟩ := Machine.withHistory_step_iff.mp hs
  have hmoves := h.inOrder.step hstep
  have hstreams : ∀ id, s'.2 id = (s.2 id).append (effect s.1 l o id) := by
    intro id
    rw [hlog]
  refine ⟨hmoves.inOrder, fun id hlt => ?_, fun id hlt => ?_, fun id hge => ?_⟩
  · rcases Nat.lt_or_ge id s.1.server.next with hlt' | hge
    · rw [hstreams]
      show ((s.2 id).handed ++ _) ++ s'.1.server.unsent id = (s.2 id).accepted ++ _
      rw [List.append_assoc, (hmoves.moves id hlt').outgoing, ← List.append_assoc,
        h.outgoing id hlt']
    · rw [hstreams, h.fresh id hge, hmoves.fresh id hge, (hmoves.constructed id hge hlt).1]
      rfl
  · rcases Nat.lt_or_ge id s.1.server.next with hlt' | hge
    · -- the tail so far ends the unread bytes: both sides go on from it
      have hcontents := split_append (d := kCRLF) (s.1.server.readBuf id).contents
        (effect s.1 l o id).received
      rw [(hmoves.moves id hlt').incoming] at hcontents
      obtain ⟨hlines, htail⟩ := Prod.mk.inj hcontents
      rw [hstreams]
      show split kCRLF ((s.2 id).received ++ _) = ((s.2 id).lines ++ _ ++ _, _)
      rw [split_append, h.incoming id hlt']
      dsimp only
      rw [← htail, List.append_assoc, ← hlines, List.append_assoc]
    · rw [hstreams, h.fresh id hge, hmoves.fresh id hge, (hmoves.constructed id hge hlt).2,
        Buffer.new_contents]
      rfl
  · have hge' := Nat.le_trans hmoves.next hge
    rw [hstreams, h.fresh id hge', hmoves.fresh id hge']
    rfl

end Accounted

/-- **The streams of the connections of a server are separate.** For every pool size, any number
    of connections and every interleaving of the acceptor and the workers, with the writes and the
    application on the threads of the loops: of each connection, what its socket was handed and
    what it has queued are the data that `write` accepted for it, and the lines taken from it and
    those in its unread bytes are the lines of what was read from its socket. -/
theorem streams_are_separate {poolSize : Nat} {loops : Nat → World TcpCallback}
    {ls : List ServingStep} {s : ProtocolState} {g : ConnectId → Streams}
    {os : List (Option (List UInt8))}
    (h : servingStreams.run (⟨.initial poolSize loops, none, fun _ => []⟩, fun _ => .empty) ls =
      some ((s, g), os)) (id : ConnectId) (hid : id < s.server.next) :
    (g id).handed ++ s.server.unsent id = (g id).accepted ∧
      split kCRLF (g id).received =
        ((g id).lines ++ (split kCRLF (s.server.readBuf id).contents).1,
          (split kCRLF (s.server.readBuf id).contents).2) := by
  have hend : Accounted (s, g) :=
    Machine.run_invariant (fun _ _ _ _ hI hs => hI.step hs) (.initial poolSize loops) h
  exact ⟨hend.outgoing id hid, hend.incoming id hid⟩

/-- Two connections on the one worker of a server. The first is read from, its line is taken, and a
    byte is written to it; the socket of the second takes one byte of two, and it reads one. -/
def twoOnOneLoop : List ServingStep :=
  let accept (sockfd : Int) (port : Nat) : List ProtocolStep :=
    [.accept sockfd ⟨0x0700000a, .ofNat port⟩, .acceptor, .acceptor, .acceptor, .acceptor,
      .acceptor]
  let before : List ProtocolStep :=
    [.report 0 EPOLLIN, .callback 1 ⟨⟨4, [65, 13, 10, 66], 0⟩, ⟨0, 0⟩⟩]
  let after : List ProtocolStep :=
    [.write 1 [1, 2] ⟨1, 0⟩, .report 1 EPOLLIN, .callback 1 ⟨⟨1, [7], 0⟩, ⟨0, 0⟩⟩,
      .write 0 [9] ⟨1, 0⟩]
  (accept 5 0x8813 ++ accept 6 0x8814 ++ before).map .threads ++ [.takeLine 0] ++
    after.map .threads

/-- `twoOnOneLoop`: two sets of streams, and what is left in the buffers. -/
theorem streams_are_separate_twoOnOneLoop : ∃ s g os,
    servingStreams.run
        (⟨.initial 1 fun _ => .initial ∅ 8, none, fun _ => []⟩, fun _ => .empty)
        twoOnOneLoop = some ((s, g), os) ∧ s.server.next = 2 ∧
      g 0 = ⟨[9], [9], [65, 13, 10, 66], [[65]]⟩ ∧ g 1 = ⟨[1, 2], [1], [7], []⟩ ∧
      ∀ id, id < 2 →
        (g id).handed ++ s.server.unsent id = (g id).accepted ∧
        split kCRLF (g id).received =
          ((g id).lines ++ (split kCRLF (s.server.readBuf id).contents).1,
            (split kCRLF (s.server.readBuf id).contents).2) := by
  let start : ProtocolState × (ConnectId → Streams) :=
    (⟨.initial 1 fun _ => .initial ∅ 8, none, fun _ => []⟩, fun _ => .empty)
  have hsome : (servingStreams.run start twoOnOneLoop).isSome := by decide +kernel
  obtain ⟨⟨⟨s, g⟩, os⟩, hrun⟩ := Option.isSome_iff_exists.mp hsome
  have hseen : (servingStreams.run start twoOnOneLoop).map
      (fun p => (p.1.1.server.next, p.1.2 0, p.1.2 1)) =
      some (2, ⟨[9], [9], [65, 13, 10, 66], [[65]]⟩, ⟨[1, 2], [1], [7], []⟩) := by
    decide +kernel
  rw [hrun] at hseen
  obtain ⟨hnext, hstreams⟩ := Prod.mk.inj (Option.some.inj hseen)
  obtain ⟨h0, h1⟩ := Prod.mk.inj hstreams
  have hlt : ∀ id, id < 2 → id < s.server.next := fun id hid => Nat.lt_of_lt_of_eq hid hnext.symm
  exact ⟨s, g, os, hrun, hnext, h0, h1, fun id hid => streams_are_separate hrun id (hlt id hid)⟩

end PluginsEngine
