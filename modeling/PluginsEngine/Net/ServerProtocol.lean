/-
  File:      PluginsEngine/Net/ServerProtocol.lean
  Subject:   THE VIRTUAL CALLBACKS OF A SERVER, in every interleaving of its threads.

  The acceptor runs `newConnected` statement by statement on the main loop. From the constructor on
  the connection is in the epoll set of its worker loop, which dispatches reports of it in its own
  thread meanwhile; only where the pool has no thread is the worker the main loop itself, and
  cannot. A report runs the callbacks of `Event::handle` one by one.

  * `ProtocolState.Moves` -- everything a step of the threads can do;
  * `newConnected_run` -- the acceptor's steps without anything in between are `newConnected`;
  * `InProtocol` -- the words the virtual callbacks of one connection may form;
  * `Follows` -- where a connection stands in its word;
  * `keepsProtocol_iff_inTime` -- all words are in order and every completed write is announced,
    exactly when messages and closes come after `connectCallback`, no message comes after the
    close, and no write is completed: the server never sets a completion callback;
  * `message_before_connectCallback` -- a worker that is faster than the acceptor.
-/
import PluginsEngine.Net.SharedLoops

namespace PluginsEngine

open Library

/-! ## 1. The threads of a server -/

/-- The pure virtual functions of `TcpServer`. -/
inductive VirtualCallback where
  | connectCallback
  | messageCallback
  | writeCompleteCallback
  | connectCloseCallback
  deriving DecidableEq, Repr

/-- What a callback of a connection calls: the message callback is bound to `messageCallback`, the
    close callback to `connectCloseEvent`. -/
def UserCallback.virtual : UserCallback → VirtualCallback
  | .messageCallback => .messageCallback
  | .closeCallback => .connectCloseCallback
  | .writeCompleteCallback => .writeCompleteCallback

/-- The statements of `newConnected` behind the constructor. -/
inductive AcceptorPc where
  | addConnect
  | setMessageCallback
  | setCloseCallback
  | connectedHandle
  | connectCallback
  deriving DecidableEq, Repr

structure ProtocolState where
  server : TcpServer
  /-- The connection `newConnected` works on, and its next statement. -/
  acceptor : Option (ConnectId × AcceptorPc)
  handling : Nat → List (ConnectId × TcpCallback)

inductive ProtocolStep where
  /-- `newConnected` begins: the constructor of `TcpConnect`. -/
  | accept (sockfd : Int) (addr : SocketAddr)
  /-- The next statement of `newConnected`. -/
  | acceptor
  | report (id : ConnectId) (events : Mask)
  | callback (i : Nat) (io : IoAnswer)
  /-- `TcpConnect::write`, which takes no lock, on the thread of the connection's loop: by a
      handler, or by a function that `writeInLoop` gave. Nothing of the loop comes between. -/
  | write (id : ConnectId) (data : List UInt8) (a : WriteAnswer)
  /-- `TcpConnect::shutdownWrite`, on the same thread. -/
  | shutdownWrite (id : ConnectId)

/-- A statement of `newConnected`: the server after it, the next one, and what it calls. -/
def TcpServer.acceptorStep (s : TcpServer) (id : ConnectId) :
    AcceptorPc → TcpServer × Option (ConnectId × AcceptorPc) × List (ConnectId × VirtualCallback)
  | .addConnect => (s.addConnect id (s.object id).name, some (id, .setMessageCallback), [])
  | .setMessageCallback =>
    (s.setCallback id .messageCallback, some (id, .setCloseCallback), [])
  | .setCloseCallback => (s.setCallback id .closeCallback, some (id, .connectedHandle), [])
  | .connectedHandle => (s.connectedHandle id, some (id, .connectCallback), [])
  | .connectCallback => (s, none, [(id, .connectCallback)])

/-- The threads of a server. The output is the virtual callbacks invoked. -/
def serverThreads : Machine ProtocolState ProtocolStep (List (ConnectId × VirtualCallback)) where
  step s
    | .accept sockfd addr =>
      if s.acceptor = none ∧ s.handling 0 = [] then
        let (id, server) := s.server.construct sockfd addr
        some ({ s with server := server, acceptor := some (id, .addConnect) }, [])
      else none
    | .acceptor =>
      match s.acceptor with
      | none => none
      | some (id, pc) =>
        let (server, acceptor, called) := s.server.acceptorStep id pc
        some ({ s with server := server, acceptor := acceptor }, called)
    | .report id events =>
      let i := (s.server.object id).loop
      if id < s.server.next ∧ s.handling i = [] ∧ (i = 0 → s.acceptor = none) then
        let callbacks := ((s.server.connection id).event.handle events).map fun cb => (id, cb)
        some ({ s with handling := Function.update s.handling i callbacks }, [])
      else none
    | .callback i io =>
      match s.handling i with
      | [] => none
      | (id, cb) :: rest =>
        if (s.server.connection id).callbackFits cb io then
          let (server, ran) := s.server.runCallback id cb io
          some ({ s with server := server, handling := Function.update s.handling i rest },
            (ran.map UserCallback.virtual).map (Prod.mk id))
        else none
    | .write id data a =>
      let c := s.server.connection id
      if id < s.server.next ∧ data.length < 2 ^ 32 ∧ a.fits data.length ∧
          c.writeFits (c.beginWrite data a).1 then
        let called := if c.connect.state = .Disconnected then [] else (c.beginWrite data a).2.ran
        some ({ s with server := s.server.write id data a },
          (called.map UserCallback.virtual).map (Prod.mk id))
      else none
    | .shutdownWrite id =>
      if id < s.server.next then
        some ({ s with server := s.server.shutdownWrite id }, [])
      else none

/-- **Everything a step of the threads can do**, with its guard. -/
inductive ProtocolState.Moves (s : ProtocolState) :
    ProtocolStep → ProtocolState → List (ConnectId × VirtualCallback) → Prop where
  | accept (sockfd : Int) (addr : SocketAddr) (hidle : s.acceptor = none)
      (hmain : s.handling 0 = []) :
      Moves s (.accept sockfd addr) { s with
        server := (s.server.construct sockfd addr).2
        acceptor := some ((s.server.construct sockfd addr).1, .addConnect) } []
  | acceptor (id : ConnectId) (pc : AcceptorPc) (hacc : s.acceptor = some (id, pc)) :
      Moves s .acceptor { s with
        server := (s.server.acceptorStep id pc).1
        acceptor := (s.server.acceptorStep id pc).2.1 } (s.server.acceptorStep id pc).2.2
  | report (id : ConnectId) (events : Mask) (hid : id < s.server.next)
      (hdone : s.handling (s.server.object id).loop = [])
      (hmain : (s.server.object id).loop = 0 → s.acceptor = none) :
      Moves s (.report id events) { s with
        handling := Function.update s.handling (s.server.object id).loop
          (((s.server.connection id).event.handle events).map fun cb => (id, cb)) } []
  | callback (i : Nat) (io : IoAnswer) (id : ConnectId) (cb : TcpCallback)
      (rest : List (ConnectId × TcpCallback)) (hi : s.handling i = (id, cb) :: rest)
      (hfit : (s.server.connection id).callbackFits cb io) :
      Moves s (.callback i io) { s with
        server := (s.server.runCallback id cb io).1
        handling := Function.update s.handling i rest }
        (((s.server.runCallback id cb io).2.map UserCallback.virtual).map (Prod.mk id))
  | write (id : ConnectId) (data : List UInt8) (a : WriteAnswer) (hid : id < s.server.next)
      (hlen : data.length < 2 ^ 32) (hfit : a.fits data.length)
      (hroom : (s.server.connection id).writeFits
        ((s.server.connection id).beginWrite data a).1) :
      Moves s (.write id data a) { s with server := s.server.write id data a }
        (((if (s.server.connection id).connect.state = .Disconnected then []
          else ((s.server.connection id).beginWrite data a).2.ran).map
            UserCallback.virtual).map (Prod.mk id))
  | shutdownWrite (id : ConnectId) (hid : id < s.server.next) :
      Moves s (.shutdownWrite id) { s with server := s.server.shutdownWrite id } []

theorem ProtocolState.moves_of_step {s s' : ProtocolState} {l : ProtocolStep}
    {o : List (ConnectId × VirtualCallback)} (hs : serverThreads.step s l = some (s', o)) :
    s.Moves l s' o := by
  cases l with
  | accept sockfd addr =>
    simp only [serverThreads] at hs
    split at hs
    case isFalse => cases hs
    rename_i hok
    cases hs
    exact .accept sockfd addr hok.1 hok.2
  | acceptor =>
    simp only [serverThreads] at hs
    split at hs
    · cases hs
    rename_i id pc hacc
    cases hs
    exact .acceptor id pc hacc
  | report id events =>
    simp only [serverThreads] at hs
    split at hs
    case isFalse => cases hs
    rename_i hok
    cases hs
    exact .report id events hok.1 hok.2.1 hok.2.2
  | callback i io =>
    simp only [serverThreads] at hs
    split at hs
    · cases hs
    rename_i id cb rest hi
    split at hs
    case isFalse => cases hs
    rename_i hfit
    cases hs
    exact .callback i io id cb rest hi hfit
  | write id data a =>
    simp only [serverThreads] at hs
    split at hs
    case isFalse => cases hs
    rename_i hok
    obtain ⟨hid, hlen, hfit, hroom⟩ := hok
    cases hs
    exact .write id data a hid hlen hfit hroom
  | shutdownWrite id =>
    simp only [serverThreads] at hs
    split at hs
    case isFalse => cases hs
    rename_i hid
    cases hs
    exact .shutdownWrite id hid

/-- **`newConnected` is the acceptor's steps**, where nothing comes in between. -/
theorem newConnected_run (s : ProtocolState) (hidle : s.acceptor = none)
    (hmain : s.handling 0 = []) (sockfd : Int) (addr : SocketAddr) :
    serverThreads.run s [.accept sockfd addr, .acceptor, .acceptor, .acceptor, .acceptor] =
      some ({ s with
          server := (s.server.newConnected sockfd addr).2
          acceptor := some ((s.server.newConnected sockfd addr).1, .connectCallback) },
        [[], [], [], [], []]) := by
  have hlaw := s.server.construct_law sockfd addr
  cases hc : s.server.construct sockfd addr with
  | mk id server =>
    rw [hc] at hlaw
    have hname : (server.object id).name = addr.toString := by
      have hid : id = s.server.next := hlaw.id_eq
      rw [hid]
      exact hlaw.name
    simp only [Machine.run, serverThreads, hidle, hmain, and_self, if_true, hc,
      TcpServer.acceptorStep, TcpServer.newConnected, hname]

/-! ## 2. The protocol of one connection -/

/-- `connectCallback`, then messages and completions, then at most one close; or nothing so far. -/
def InProtocol (t : List VirtualCallback) : Prop :=
  t = [] ∨ ∃ mid close, t = .connectCallback :: (mid ++ close) ∧
    (∀ v ∈ mid, v = .messageCallback ∨ v = .writeCompleteCallback) ∧
    (close = [] ∨ close = [.connectCloseCallback])

/-- A word without its close: the connection is open. -/
def OpenWord (t : List VirtualCallback) : Prop :=
  ∃ mid, t = .connectCallback :: mid ∧
    ∀ v ∈ mid, v = .messageCallback ∨ v = .writeCompleteCallback

/-- A word with its close. -/
def ClosedWord (t : List VirtualCallback) : Prop :=
  ∃ u, OpenWord u ∧ t = u ++ [.connectCloseCallback]

namespace OpenWord

variable {t : List VirtualCallback}

theorem inProtocol (h : OpenWord t) : InProtocol t := by
  obtain ⟨mid, rfl, hmid⟩ := h
  exact Or.inr ⟨mid, [], by rw [List.append_nil], hmid, Or.inl rfl⟩

theorem message (h : OpenWord t) : OpenWord (t ++ [.messageCallback]) := by
  obtain ⟨mid, rfl, hmid⟩ := h
  refine ⟨mid ++ [.messageCallback], rfl, fun v hv => ?_⟩
  rcases List.mem_append.mp hv with hold | hnew
  · exact hmid v hold
  · exact Or.inl (List.mem_singleton.mp hnew)

end OpenWord

namespace ClosedWord

variable {t : List VirtualCallback}

theorem inProtocol (h : ClosedWord t) : InProtocol t := by
  obtain ⟨u, ⟨mid, rfl, hmid⟩, rfl⟩ := h
  exact Or.inr ⟨mid, [.connectCloseCallback], rfl, hmid, Or.inr rfl⟩

/-- **Nothing follows the close.** -/
theorem not_message (h : ClosedWord t) : ¬ InProtocol (t ++ [.messageCallback]) := by
  obtain ⟨u, ⟨mid, rfl, -⟩, rfl⟩ := h
  intro hends
  rcases hends with hnil | ⟨mid', close, heq, hmid', hclose⟩
  · cases hnil
  · rw [List.cons_append, List.cons_append] at heq
    have htail := List.tail_eq_of_cons_eq heq
    rcases hclose with rfl | rfl
    · -- the close is among the messages
      have hin : VirtualCallback.connectCloseCallback ∈ mid' := by
        rw [List.append_nil] at htail
        rw [← htail]
        exact List.mem_append_left _ (List.mem_append_right _ List.mem_cons_self)
      rcases hmid' _ hin with hv | hv
      · cases hv
      · cases hv
    · have hlast := congrArg List.getLast? htail
      rw [List.getLast?_concat, List.getLast?_concat] at hlast
      cases hlast

end ClosedWord

/-- Nothing comes before `connectCallback`. -/
theorem not_inProtocol_singleton {v : VirtualCallback} (hv : v ≠ .connectCallback) :
    ¬ InProtocol [v] := by
  intro hends
  rcases hends with hnil | ⟨mid, close, heq, -⟩
  · cases hnil
  · exact hv (List.head_eq_of_cons_eq heq)

/-! ## 3. Where each connection stands -/

/-- The virtual callbacks invoked so far, of all connections. -/
abbrev CallLog := List (ConnectId × VirtualCallback)

/-- Those of connection `id`. -/
def calls (id : ConnectId) (log : CallLog) : List VirtualCallback :=
  (log.filter fun p => decide (p.1 = id)).map Prod.snd

theorem calls_append (id : ConnectId) (log log' : CallLog) :
    calls id (log ++ log') = calls id log ++ calls id log' := by
  rw [calls, List.filter_append, List.map_append]
  rfl

theorem calls_self (id : ConnectId) (called : List VirtualCallback) :
    calls id (called.map (Prod.mk id)) = called := by
  induction called with
  | nil => rfl
  | cons v called ih =>
    rw [List.map_cons]
    refine Eq.trans (congrArg (List.map Prod.snd) (List.filter_cons_of_pos ?_)) ?_
    · exact decide_eq_true rfl
    · exact congrArg (List.cons v) ih

theorem calls_of_ne {id id' : ConnectId} (h : id' ≠ id) (called : List VirtualCallback) :
    calls id' (called.map (Prod.mk id)) = [] := by
  induction called with
  | nil => rfl
  | cons v called ih =>
    rw [List.map_cons]
    refine Eq.trans (congrArg (List.map Prod.snd) (List.filter_cons_of_neg ?_)) ih
    rw [decide_eq_true_eq]
    exact fun heq => h heq.symm

/-- The threads of a server, with what they have invoked. -/
def protocol : Machine (ProtocolState × CallLog) ProtocolStep CallLog :=
  serverThreads.withHistory fun _ _ called log => log ++ called

/-- The next statement of `newConnected` for connection `id`, if it is the one in work. -/
def ProtocolState.at (s : ProtocolState) (id : ConnectId) : Option AcceptorPc :=
  match s.acceptor with
  | none => none
  | some (id', pc) => if id' = id then some pc else none

/-- The callbacks that are set before a statement of `newConnected`. -/
def AcceptorPc.callbacks : AcceptorPc → List UserCallback
  | .addConnect | .setMessageCallback => []
  | .setCloseCallback => [.messageCallback]
  | .connectedHandle | .connectCallback => [.closeCallback, .messageCallback]

/-- **Where a connection stands**, by the statement of `newConnected` that is due, or none any
    more: which callbacks it has, what its state says, and how far its word is. -/
def Standing : Option AcceptorPc → TcpConnect → List VirtualCallback → Prop
  | some pc, c, t => c.callbacks = pc.callbacks ∧
      (c.state = .Disconnected ↔ pc ≠ .connectCallback) ∧ t = []
  | none, c, t => c.callbacks = [.closeCallback, .messageCallback] ∧
      ((OpenWord t ∧ c.state ≠ .Disconnected) ∨ (ClosedWord t ∧ c.state = .Disconnected))

namespace Standing

variable {pc : Option AcceptorPc} {c c' : TcpConnect} {t : List VirtualCallback}

theorem inProtocol (h : Standing pc c t) : InProtocol t := by
  cases pc with
  | some pc => exact Or.inl h.2.2
  | none =>
    rcases h.2 with ⟨ho, -⟩ | ⟨hc, -⟩
    · exact ho.inProtocol
    · exact hc.inProtocol

/-- The server never sets a completion callback. -/
theorem no_completion (h : Standing pc c t) : .writeCompleteCallback ∉ c.callbacks := by
  cases pc with
  | some pc =>
    rw [h.1]
    cases pc <;> decide
  | none =>
    rw [h.1]
    decide

/-- A connection that is not disconnected has its close callback. -/
theorem closeCallback_mem (h : Standing pc c t) (hs : c.state ≠ .Disconnected) :
    .closeCallback ∈ c.callbacks := by
  cases pc with
  | some pc =>
    have hpc : pc = .connectCallback :=
      Classical.byContradiction fun hne => hs (h.2.1.mpr hne)
    rw [h.1, hpc]
    exact List.mem_cons_self
  | none =>
    rw [h.1]
    exact List.mem_cons_self

/-- Changes that keep the callbacks, and whether the state is `Disconnected`. -/
theorem keep (h : Standing pc c t) (hcb : c'.callbacks = c.callbacks)
    (hs : c'.state = .Disconnected ↔ c.state = .Disconnected) : Standing pc c' t := by
  cases pc with
  | some pc => exact ⟨hcb.trans h.1, hs.trans h.2.1, h.2.2⟩
  | none =>
    refine ⟨hcb.trans h.1, ?_⟩
    rcases h.2 with ⟨ho, hd⟩ | ⟨hc, hd⟩
    · exact Or.inl ⟨ho, fun hd' => hd (hs.mp hd')⟩
    · exact Or.inr ⟨hc, hs.mpr hd⟩

end Standing

/-- **The callback protocol.** The virtual callbacks of every connection form a word of the
    protocol; and a `write` that leaves no unsent byte, on a connection that is not disconnected,
    invokes `writeCompleteCallback`, unless the socket made it give its data up. -/
structure KeepsProtocol (s : ProtocolState × CallLog) (l : ProtocolStep)
    (s' : ProtocolState × CallLog) (o : CallLog) : Prop where
  ordered : ∀ id, InProtocol (calls id s'.2)
  announced : ∀ id data a, l = .write id data a →
    (s.1.server.connection id).connect.state ≠ .Disconnected → ¬ a.fault →
      (s'.1.server.connection id).unsent = [] → (id, .writeCompleteCallback) ∈ o

/-- When the steps come in time: a callback that has bytes for a message callback that is set runs
    after `connectCallback`, on a connection that is not disconnected; one that closes the
    connection runs after `connectCallback`; and a `write` on a connection that is not disconnected
    leaves something unsent, or is given up. -/
structure InTime (s : ProtocolState × CallLog) (l : ProtocolStep)
    (_ : ProtocolState × CallLog) (_ : CallLog) : Prop where
  message : ∀ i io, l = .callback i io → ∀ id cb rest, s.1.handling i = (id, cb) :: rest →
    Connection.receives cb io →
      .messageCallback ∈ (s.1.server.connection id).connect.callbacks →
        s.1.at id = none ∧ (s.1.server.connection id).connect.state ≠ .Disconnected
  close : ∀ i io, l = .callback i io → ∀ id cb rest, s.1.handling i = (id, cb) :: rest →
    (s.1.server.connection id).closes cb io → s.1.at id = none
  write : ∀ id data a, l = .write id data a →
    (s.1.server.connection id).connect.state ≠ .Disconnected →
      a.fault ∨ (s.1.server.connection id).unsent ≠ [] ∨ a.leaves data

/-- **Server and words in step.** -/
structure Follows (s : ProtocolState × CallLog) : Prop where
  separate : s.1.server.Separate
  stands : ∀ id, id < s.1.server.next →
    Standing (s.1.at id) (s.1.server.object id).connect (calls id s.2)
  fresh : ∀ id, s.1.server.next ≤ id → calls id s.2 = []
  accepting : ∀ id pc, s.1.acceptor = some (id, pc) → id < s.1.server.next
  due : ∀ i, ∀ p ∈ s.1.handling i, p.1 < s.1.server.next

namespace ProtocolState

/-- A server at its start, on whose loops nothing is registered yet. -/
def initial (poolSize : Nat) (loops : Nat → World TcpCallback) : ProtocolState × CallLog :=
  (⟨.initial poolSize loops, none, fun _ => []⟩, [])

theorem follows_initial (poolSize : Nat) (loops : Nat → World TcpCallback) :
    Follows (initial poolSize loops) where
  separate := TcpServer.separate_initial poolSize loops
  stands id hlt := absurd hlt (Nat.not_lt_zero id)
  fresh _ _ := rfl
  accepting _ _ := nofun
  due _ _ hp := absurd hp List.not_mem_nil

theorem at_self {s : ProtocolState} {id : ConnectId} {pc : AcceptorPc}
    (h : s.acceptor = some (id, pc)) : s.at id = some pc := by
  unfold ProtocolState.at
  rw [h]
  exact if_pos rfl

theorem at_of_ne {s : ProtocolState} {id id' : ConnectId} (hne : id' ≠ id)
    (h : ∀ x pc, s.acceptor = some (x, pc) → x = id) : s.at id' = none := by
  unfold ProtocolState.at
  split
  · rfl
  · rename_i x pc hacc
    rw [if_neg fun heq => hne (heq.symm.trans (h x pc hacc))]

end ProtocolState

namespace Follows

variable {s s' : ProtocolState × CallLog} {l : ProtocolStep} {o : CallLog}

theorem ordered (h : Follows s) (id : ConnectId) : InProtocol (calls id s.2) := by
  rcases Nat.lt_or_ge id s.1.server.next with hlt | hge
  · exact (h.stands id hlt).inProtocol
  · exact Or.inl (h.fresh id hge)

/-- **A step that works on one connection**: only that one's standing is left to show. -/
theorem one (h : Follows s) {id : ConnectId} (hid : id < s.1.server.next)
    (hsep : s'.1.server.Separate) (hn : s'.1.server.next = s.1.server.next)
    (ho : ∀ id', id' ≠ id → s'.1.server.object id' = s.1.server.object id')
    (hat : ∀ id', id' ≠ id → s'.1.at id' = s.1.at id') {called : CallLog}
    (hlog : s'.2 = s.2 ++ called) (hcalled : ∀ id', id' ≠ id → calls id' called = [])
    (hself : Standing (s'.1.at id) (s'.1.server.object id).connect
      (calls id s.2 ++ calls id called))
    (hacc : ∀ id' pc, s'.1.acceptor = some (id', pc) → id' < s.1.server.next)
    (hdue : ∀ i, ∀ p ∈ s'.1.handling i, p ∈ s.1.handling i) : Follows s' where
  separate := hsep
  stands id' hlt := by
    rw [hlog, calls_append]
    by_cases hne : id' = id
    · subst hne
      exact hself
    · rw [hn] at hlt
      rw [hat id' hne, ho id' hne, hcalled id' hne, List.append_nil]
      exact h.stands id' hlt
  fresh id' hge := by
    rw [hn] at hge
    have hne : id' ≠ id := fun heq => by
      rw [heq] at hge
      exact absurd hid (Nat.not_lt.mpr hge)
    rw [hlog, calls_append, hcalled id' hne, List.append_nil]
    exact h.fresh id' hge
  accepting id' pc he := by
    rw [hn]
    exact hacc id' pc he
  due i p hp := by
    rw [hn]
    exact h.due i p (hdue i p hp)

/-- A statement of `newConnected` keeps the connections apart, and works on its own one. -/
theorem acceptorStep_law {server : TcpServer} (h : server.Separate) {id : ConnectId}
    (hid : id < server.next) (pc : AcceptorPc) :
    (server.acceptorStep id pc).1.Separate ∧
      (server.acceptorStep id pc).1.next = server.next ∧
      (∀ id', id' ≠ id → (server.acceptorStep id pc).1.object id' = server.object id') ∧
      (∀ id', id' ≠ id → calls id' (server.acceptorStep id pc).2.2 = []) ∧
      (∀ id' pc', (server.acceptorStep id pc).2.1 = some (id', pc') → id' = id) := by
  have hset : ∀ c id', id' ≠ id → (server.setConnection id c).object id' = server.object id' :=
    fun _ _ hne => TcpServer.setConnection_object_of_ne _ _ _ hne
  cases pc with
  | addConnect =>
    refine ⟨h.addConnect _, rfl, fun _ _ => rfl, fun _ _ => rfl, fun _ _ he => ?_⟩
    cases he
    rfl
  | setMessageCallback =>
    refine ⟨h.setCallback hid _, rfl, hset _, fun _ _ => rfl, fun _ _ he => ?_⟩
    cases he
    rfl
  | setCloseCallback =>
    refine ⟨h.setCallback hid _, rfl, hset _, fun _ _ => rfl, fun _ _ he => ?_⟩
    cases he
    rfl
  | connectedHandle =>
    refine ⟨h.connectedHandle hid, rfl, hset _, fun _ _ => rfl, fun _ _ he => ?_⟩
    cases he
    rfl
  | connectCallback =>
    refine ⟨h, rfl, fun _ _ => rfl, fun _ hne => calls_of_ne hne [.connectCallback],
      fun _ _ he => ?_⟩
    cases he

/-- A statement of `newConnected`. -/
theorem acceptor (h : Follows s) (hs : protocol.step s .acceptor = some (s', o)) :
    Follows s' := by
  obtain ⟨hstep, hlog⟩ := Machine.withHistory_step_iff.mp hs
  generalize hs' : s'.1 = t at hstep
  cases ProtocolState.moves_of_step hstep with
  | acceptor id pc hacc =>
    have hid := h.accepting id pc hacc
    have hothers : ∀ id', id' ≠ id → s.1.at id' = none := fun id' hne =>
      ProtocolState.at_of_ne hne fun x pc' he => by
        rw [hacc] at he
        cases he
        rfl
    have hold := h.stands id hid
    rw [ProtocolState.at_self hacc] at hold
    obtain ⟨hcb, hst, hnil⟩ := hold
    have hserver : s'.1.server = (s.1.server.acceptorStep id pc).1 := by rw [hs']
    have hnext : s'.1.acceptor = (s.1.server.acceptorStep id pc).2.1 := by rw [hs']
    have hhandling : s'.1.handling = s.1.handling := by rw [hs']
    obtain ⟨hsep, hn, hobject, hcalled, hself⟩ := acceptorStep_law h.separate hid pc
    rw [← hserver] at hsep hn hobject
    rw [← hnext] at hself
    have hdue : ∀ i, ∀ p ∈ s'.1.handling i, p ∈ s.1.handling i := by
      intro i p hp
      rwa [hhandling] at hp
    have hlt : ∀ id' pc', s'.1.acceptor = some (id', pc') → id' < s.1.server.next := by
      intro id' pc' he
      rwa [hself id' pc' he]
    have hat' : ∀ id', id' ≠ id → s'.1.at id' = s.1.at id' := by
      intro id' hne
      rw [hothers id' hne]
      exact ProtocolState.at_of_ne hne hself
    refine h.one hid hsep hn hobject hat' hlog hcalled ?_ hlt hdue
    -- what is left is where the connection stands after the statement
    rw [hserver, hnil]
    cases pc with
    | addConnect =>
      rw [ProtocolState.at_self hnext]
      exact ⟨hcb, hst.trans (by decide), rfl⟩
    | setMessageCallback =>
      rw [ProtocolState.at_self hnext]
      simp only [TcpServer.acceptorStep, TcpServer.setCallback, TcpServer.setConnection_object]
      exact ⟨congrArg (List.cons _) hcb, hst.trans (by decide), rfl⟩
    | setCloseCallback =>
      rw [ProtocolState.at_self hnext]
      simp only [TcpServer.acceptorStep, TcpServer.setCallback, TcpServer.setConnection_object]
      exact ⟨congrArg (List.cons _) hcb, hst.trans (by decide), rfl⟩
    | connectedHandle =>
      rw [ProtocolState.at_self hnext]
      simp only [TcpServer.acceptorStep, TcpServer.connectedHandle, TcpServer.setConnection_object]
      refine ⟨hcb, ?_, rfl⟩
      show ConnectState.Connected = .Disconnected ↔ _
      decide
    | connectCallback =>
      have hnone : s'.1.at id = none := by
        unfold ProtocolState.at
        rw [hnext]
        rfl
      rw [hnone]
      show Standing none _ (calls id ([VirtualCallback.connectCallback].map (Prod.mk id)))
      rw [calls_self]
      exact ⟨hcb, Or.inl ⟨⟨[], rfl, fun v hv => absurd hv List.not_mem_nil⟩,
        fun hd => hst.mp hd rfl⟩⟩

/-- The constructor: a new connection, at the first statement. -/
theorem accept (h : Follows s) {sockfd : Int} {addr : SocketAddr}
    (hs : protocol.step s (.accept sockfd addr) = some (s', o)) : Follows s' ∧ o = [] := by
  obtain ⟨hstep, hlog⟩ := Machine.withHistory_step_iff.mp hs
  generalize hs' : s'.1 = t at hstep
  cases ProtocolState.moves_of_step hstep with
  | accept _ _ hidle hmain =>
    have hlaw := s.1.server.construct_law sockfd addr
    have hsep := h.separate.construct sockfd addr
    have hserver : s'.1.server = (s.1.server.construct sockfd addr).2 := by rw [hs']
    have hacc : s'.1.acceptor = some (s.1.server.next, .addConnect) := by rw [hs', hlaw.id_eq]
    have hhandling : s'.1.handling = s.1.handling := by rw [hs']
    have hsame : s'.2 = s.2 := by rw [hlog, List.append_nil]
    have hnext : s'.1.server.next = s.1.server.next + 1 := by rw [hserver]; exact hlaw.next
    refine ⟨⟨by rw [hserver]; exact hsep, fun id hlt => ?_, fun id hge => ?_, fun id pc he => ?_,
      fun i p hp => ?_⟩, rfl⟩
    · rw [hnext] at hlt
      rw [hsame]
      rcases Nat.lt_succ_iff_lt_or_eq.mp hlt with hlt | rfl
      · have hold := h.stands id hlt
        have hnone : s.1.at id = none := by
          unfold ProtocolState.at
          rw [hidle]
        have hnone' : s'.1.at id = none := ProtocolState.at_of_ne (Nat.ne_of_lt hlt)
          fun x pc he => by
            rw [hacc] at he
            cases he
            rfl
        rw [hnone] at hold
        rw [hnone', hserver, hlaw.old id hlt]
        exact hold
      · rw [ProtocolState.at_self hacc, hserver]
        exact ⟨hlaw.callbacks, ⟨fun _ => by decide, fun _ => hlaw.state⟩,
          h.fresh _ (Nat.le_refl _)⟩
    · rw [hnext] at hge
      rw [hsame]
      exact h.fresh id (Nat.le_of_succ_le hge)
    · rw [hacc] at he
      cases he
      rw [hnext]
      exact Nat.lt_succ_self _
    · rw [hhandling] at hp
      rw [hnext]
      exact Nat.lt_succ_of_lt (h.due i p hp)

theorem report (h : Follows s) {id : ConnectId} {events : Mask}
    (hs : protocol.step s (.report id events) = some (s', o)) : Follows s' ∧ o = [] := by
  obtain ⟨hstep, hlog⟩ := Machine.withHistory_step_iff.mp hs
  generalize hs' : s'.1 = t at hstep
  cases ProtocolState.moves_of_step hstep with
  | report _ _ hid hdone hmain =>
    have hserver : s'.1.server = s.1.server := by rw [hs']
    have hacc : s'.1.acceptor = s.1.acceptor := by rw [hs']
    have hhandling := congrArg ProtocolState.handling hs'
    have hsame : s'.2 = s.2 := by rw [hlog, List.append_nil]
    have hat : ∀ id', s'.1.at id' = s.1.at id' := by
      intro id'
      unfold ProtocolState.at
      rw [hacc]
    refine ⟨⟨by rw [hserver]; exact h.separate, ?_, ?_, ?_, fun i p hp => ?_⟩, rfl⟩
    · rw [hserver, hsame]
      intro id' hlt
      rw [hat]
      exact h.stands id' hlt
    · rw [hserver, hsame]
      exact h.fresh
    · rw [hserver, hacc]
      exact h.accepting
    · rw [hhandling] at hp
      dsimp only at hp
      rw [hserver]
      by_cases hi : i = (s.1.server.object id).loop
      · subst hi
        rw [Function.update_self] at hp
        obtain ⟨_, -, rfl⟩ := List.mem_map.mp hp
        exact hid
      · rw [Function.update_of_ne hi] at hp
        exact h.due i p hp

/-- What the user calls: the state stays as it is, as far as `Disconnected` goes. -/
theorem quiet (h : Follows s) {id : ConnectId} (hid : id < s.1.server.next)
    (hsep : s'.1.server.Separate) (hsame : s.1.server.SameOwners s'.1.server)
    (hothers : ∀ id', id' ≠ id → s'.1.server.object id' = s.1.server.object id')
    (hstate : (s'.1.server.object id).connect.state = .Disconnected ↔
      (s.1.server.object id).connect.state = .Disconnected)
    (hacc : s'.1.acceptor = s.1.acceptor) (hhandling : s'.1.handling = s.1.handling)
    (hlog : s'.2 = s.2) : Follows s' := by
  have hat : ∀ id', s'.1.at id' = s.1.at id' := by
    intro id'
    unfold ProtocolState.at
    rw [hacc]
  refine h.one hid hsep hsame.next hothers (fun id' _ => hat id')
    (hlog.trans (List.append_nil _).symm) (fun _ _ => rfl) ?_ ?_ ?_
  · rw [hat, show calls id [] = [] from rfl, List.append_nil]
    exact (h.stands id hid).keep (hsame.callbacks id) hstate
  · rw [hacc]
    exact h.accepting
  · intro i p hp
    rwa [hhandling] at hp

theorem shutdownWrite (h : Follows s) {id : ConnectId}
    (hs : protocol.step s (.shutdownWrite id) = some (s', o)) : Follows s' ∧ o = [] := by
  obtain ⟨hstep, hlog⟩ := Machine.withHistory_step_iff.mp hs
  generalize hs' : s'.1 = t at hstep
  cases ProtocolState.moves_of_step hstep with
  | shutdownWrite _ hid =>
    have hserver : s'.1.server = s.1.server.shutdownWrite id := by rw [hs']
    refine ⟨h.quiet hid ?_ ?_ (fun id' hne => ?_) ?_ (by rw [hs']) (by rw [hs']) ?_, rfl⟩
    · rw [hserver]
      exact h.separate.shutdownWrite hid
    · rw [hserver]
      exact s.1.server.shutdownWrite_sameOwners id
    · rw [hserver]
      exact TcpServer.setConnection_object_of_ne _ _ _ hne
    · rw [hserver, TcpServer.shutdownWrite, TcpServer.setConnection_object]
      show (s.1.server.connection id).shutdownWrite.connect.state = _ ↔ _
      unfold Connection.shutdownWrite
      split
      · rename_i hconn
        have hconn' : (s.1.server.object id).connect.state = .Connected := hconn
        rw [hconn']
        exact ⟨nofun, nofun⟩
      · exact Iff.rfl
    · rw [hlog, List.append_nil]

/-- **A `write` announces nothing**, and what it leaves queued. -/
theorem write (h : Follows s) {id : ConnectId} {data : List UInt8} {a : WriteAnswer}
    (hs : protocol.step s (.write id data a) = some (s', o)) :
    Follows s' ∧ o = [] ∧ ((s.1.server.connection id).connect.state ≠ .Disconnected →
      ((s'.1.server.connection id).unsent ≠ [] ↔
        (s.1.server.connection id).unsent ≠ [] ∨ a.leaves data)) := by
  obtain ⟨hstep, hlog⟩ := Machine.withHistory_step_iff.mp hs
  generalize hs' : s'.1 = t at hstep
  generalize ho : o = called at hstep
  cases ProtocolState.moves_of_step hstep with
  | write _ _ _ hid hlen hfit hroom =>
    have hnone := (h.stands id hid).no_completion
    have hserver : s'.1.server = s.1.server.write id data a := by rw [hs']
    have hquiet : o = [] := by
      rw [ho]
      split
      · rfl
      · rename_i hstate
        rw [(TcpServer.write_step hnone hstate hlen hfit hroom).1]
        rfl
    refine ⟨h.quiet hid ?_ ?_ (fun id' hne => ?_) ?_ (by rw [hs']) (by rw [hs']) ?_,
      ho.symm.trans hquiet, fun hstate => ?_⟩
    · rw [hserver]
      exact h.separate.write hid hlen hfit hroom
    · rw [hserver]
      exact s.1.server.write_sameOwners id data a
    · rw [hserver, TcpServer.write]
      split
      · rfl
      · exact TcpServer.setConnection_object_of_ne _ _ _ hne
    · rw [hserver, TcpServer.write]
      split
      · exact Iff.rfl
      · rw [TcpServer.setConnection_object]
        show ((s.1.server.connection id).finishWrite _).connect.state = _ ↔ _
        rw [Connection.finishWrite_state]
        exact Iff.rfl
    · rw [hlog, hquiet, List.append_nil]
    · have hsteady : ConnectionState.Steady ⟨s.1.server.connection id, []⟩ :=
        ⟨h.separate.steady id hid, fun _ hf => absurd hf List.not_mem_nil⟩
      exact ConnectionState.write_unsent_iff hsteady
        (TcpServer.write_step hnone hstate hlen hfit hroom).2

/-- The step of a callback, taken apart. -/
theorem callback_of_step {i : Nat} {io : IoAnswer}
    (hs : protocol.step s (.callback i io) = some (s', o)) :
    ∃ id cb rest, s.1.handling i = (id, cb) :: rest ∧
      (s.1.server.connection id).callbackFits cb io ∧
      s'.1.server = (s.1.server.runCallback id cb io).1 ∧ s'.1.acceptor = s.1.acceptor ∧
      s'.1.handling = Function.update s.1.handling i rest ∧
      o = ((s.1.server.runCallback id cb io).2.map UserCallback.virtual).map (Prod.mk id) ∧
      s'.2 = s.2 ++ o := by
  obtain ⟨hstep, hlog⟩ := Machine.withHistory_step_iff.mp hs
  generalize s'.1 = t at hstep
  cases ProtocolState.moves_of_step hstep with
  | callback _ _ id cb rest hi hfit => exact ⟨id, cb, rest, hi, hfit, rfl, rfl, rfl, rfl, hlog⟩

/-- **A callback in time.** What it invokes continues the word of its connection. -/
theorem callback (h : Follows s) {i : Nat} {io : IoAnswer}
    (hs : protocol.step s (.callback i io) = some (s', o))
    (hok : InTime s (.callback i io) s' o) : Follows s' := by
  obtain ⟨id, cb, rest, hi, hfit, hserver, hacc, hhandling, ho, hlog⟩ := callback_of_step hs
  have hid : id < s.1.server.next := h.due i (id, cb) (by rw [hi]; exact List.mem_cons_self)
  have hran := s.1.server.runCallback_pool id cb io
  have hself := s.1.server.runCallback_self id cb io
  rw [← hserver] at hran hself
  have hat : ∀ id', s'.1.at id' = s.1.at id' := by
    intro id'
    unfold ProtocolState.at
    rw [hacc]
  have hold := h.stands id hid
  refine h.one hid (by rw [hserver]; exact h.separate.runCallback hid hfit) hran.next hran.others
    (fun id' _ => hat id') hlog (fun id' hne => by rw [ho]; exact calls_of_ne hne _) ?_ ?_ ?_
  · rw [hat, ho, calls_self]
    have hcb : (s'.1.server.object id).connect.callbacks =
        (s.1.server.object id).connect.callbacks := hself.callbacks
    have hst : (s'.1.server.object id).connect.state = _ := hself.state
    rcases hself.ran_cases hold.no_completion with hnil | ⟨hmsg, hreceives⟩ | ⟨hclose, hcloses⟩
    · -- nothing ran: it did not close either, since a close runs its callback
      have hopen : ¬ (s.1.server.connection id).closes cb io := fun hcloses => by
        have hin := hself.closeRan.mpr ⟨hcloses, hold.closeCallback_mem hcloses.1⟩
        rw [hnil] at hin
        exact absurd hin List.not_mem_nil
      rw [if_neg hopen] at hst
      rw [hnil, List.map_nil, List.append_nil]
      exact hold.keep hcb (by rw [hst]; exact Iff.rfl)
    · have hin : UserCallback.messageCallback ∈ (s.1.server.connection id).connect.callbacks :=
        (hself.messageRan.mp (by rw [hmsg]; exact List.mem_cons_self)).2
      obtain ⟨hdone, hne⟩ := hok.message i io rfl id cb rest hi hreceives hin
      rw [if_neg (Connection.not_closes_of_receives hreceives)] at hst
      rw [hdone] at hold ⊢
      rw [hmsg]
      refine ⟨hcb.trans hold.1, Or.inl ?_⟩
      rcases hold.2 with ⟨hword, -⟩ | ⟨-, hd⟩
      · exact ⟨hword.message, by rw [hst]; exact hne⟩
      · exact absurd hd hne
    · have hdone := hok.close i io rfl id cb rest hi hcloses
      rw [if_pos hcloses] at hst
      rw [hdone] at hold ⊢
      rw [hclose]
      refine ⟨hcb.trans hold.1, Or.inr ⟨?_, hst⟩⟩
      rcases hold.2 with ⟨hword, -⟩ | ⟨-, hd⟩
      · exact ⟨_, hword, rfl⟩
      · exact absurd hd hcloses.1
  · rw [hacc]
    exact h.accepting
  · intro j p hp
    rw [hhandling] at hp
    by_cases hj : j = i
    · subst hj
      rw [Function.update_self] at hp
      rw [hi]
      exact List.mem_cons_of_mem _ hp
    · rwa [Function.update_of_ne hj] at hp

theorem step (h : Follows s) (hs : protocol.step s l = some (s', o))
    (hok : InTime s l s' o) : Follows s' := by
  cases l with
  | accept sockfd addr => exact (h.accept hs).1
  | acceptor => exact h.acceptor hs
  | report id events => exact (h.report hs).1
  | callback i io => exact h.callback hs hok
  | write id data a => exact (h.write hs).1
  | shutdownWrite id => exact (h.shutdownWrite hs).1

/-! ## 4. When the protocol is kept -/

theorem keepsProtocol (h : Follows s) (hs : protocol.step s l = some (s', o))
    (hok : InTime s l s' o) : KeepsProtocol s l s' o where
  ordered := (h.step hs hok).ordered
  announced id data a hl hstate hfault hempty := by
    subst hl
    rcases hok.write id data a rfl hstate with hf | hqueued
    · exact absurd hf hfault
    · exact absurd hempty (((h.write hs).2.2 hstate).mpr hqueued)

/-- **What comes too early or too late breaks the word** of its connection. -/
theorem inTime (h : Follows s) (hs : protocol.step s l = some (s', o))
    (hlaw : KeepsProtocol s l s' o) : InTime s l s' o where
  message i io hl id cb rest hi hreceives hset := by
    subst hl
    obtain ⟨id', cb', rest', hi', -, -, -, -, ho, hlog⟩ := callback_of_step hs
    rw [hi] at hi'
    cases hi'
    have hid : id < s.1.server.next := h.due i (id, cb) (by rw [hi]; exact List.mem_cons_self)
    have hself := s.1.server.runCallback_self id cb io
    have hold := h.stands id hid
    have hran : (s.1.server.runCallback id cb io).2 = [.messageCallback] := by
      have hin := hself.messageRan.mpr ⟨hreceives, hset⟩
      rcases hself.ran_cases hold.no_completion with hnil | ⟨hmsg, -⟩ | ⟨-, hcloses⟩
      · rw [hnil] at hin
        exact absurd hin List.not_mem_nil
      · exact hmsg
      · exact absurd hcloses (Connection.not_closes_of_receives hreceives)
    have hword := hlaw.ordered id
    rw [hlog, calls_append, ho, calls_self, hran] at hword
    cases hat : s.1.at id with
    | some pc =>
      rw [hat] at hold
      rw [hold.2.2] at hword
      exact absurd hword (not_inProtocol_singleton (by decide))
    | none =>
      rw [hat] at hold
      refine ⟨rfl, fun hd => ?_⟩
      rcases hold.2 with ⟨-, hne⟩ | ⟨hclosed, -⟩
      · exact hne hd
      · exact hclosed.not_message hword
  close i io hl id cb rest hi hcloses := by
    subst hl
    obtain ⟨id', cb', rest', hi', -, -, -, -, ho, hlog⟩ := callback_of_step hs
    rw [hi] at hi'
    cases hi'
    have hid : id < s.1.server.next := h.due i (id, cb) (by rw [hi]; exact List.mem_cons_self)
    have hself := s.1.server.runCallback_self id cb io
    have hold := h.stands id hid
    have hran : (s.1.server.runCallback id cb io).2 = [.closeCallback] := by
      have hin := hself.closeRan.mpr ⟨hcloses, hold.closeCallback_mem hcloses.1⟩
      rcases hself.ran_cases hold.no_completion with hnil | ⟨-, hreceives⟩ | ⟨hclose, -⟩
      · rw [hnil] at hin
        exact absurd hin List.not_mem_nil
      · exact absurd hcloses (Connection.not_closes_of_receives hreceives)
      · exact hclose
    have hword := hlaw.ordered id
    rw [hlog, calls_append, ho, calls_self, hran] at hword
    cases hat : s.1.at id with
    | none => rfl
    | some pc =>
      rw [hat] at hold
      rw [hold.2.2] at hword
      exact absurd hword (not_inProtocol_singleton (by decide))
  write id data a hl hstate := by
    subst hl
    obtain ⟨-, hnone, hunsent⟩ := h.write hs
    refine Classical.byContradiction fun hno => ?_
    have hfault : ¬ a.fault := fun hf => hno (Or.inl hf)
    have hempty : (s'.1.server.connection id).unsent = [] :=
      Classical.byContradiction fun hne => hno (Or.inr ((hunsent hstate).mp hne))
    have hin := hlaw.announced id data a rfl hstate hfault hempty
    rw [hnone] at hin
    exact absurd hin List.not_mem_nil

end Follows

/-- **The callback protocol of a server, exactly.** For every pool size, any number of connections
    and every interleaving of the acceptor with the worker loops: the virtual callbacks of every
    connection are in order and every completed write is announced, if and only if every step
    comes in time. -/
theorem keepsProtocol_iff_inTime (poolSize : Nat) (loops : Nat → World TcpCallback)
    (ls : List ProtocolStep) :
    protocol.Along KeepsProtocol (ProtocolState.initial poolSize loops) ls ↔
      protocol.Along InTime (ProtocolState.initial poolSize loops) ls :=
  Machine.along_iff (I := Follows)
    (fun _ _ _ _ h hs => ⟨⟨h.inTime hs, h.keepsProtocol hs⟩, h.step hs⟩)
    (ProtocolState.follows_initial poolSize loops)

/-- A server with one worker. The acceptor has enabled reading, and the worker gets a report of
    input before the acceptor calls `connectCallback`. -/
def fastWorker : List ProtocolStep :=
  [.accept 5 ⟨0x0700000a, 0x8813⟩, .acceptor, .acceptor, .acceptor, .acceptor,
    .report 0 EPOLLIN]

/-- **A message before `connectCallback`**: the read of `fastWorker` has a byte. -/
theorem message_before_connectCallback :
    (protocol.run (ProtocolState.initial 1 fun _ => .initial ∅ 8)
        (fastWorker ++ [.callback 1 ⟨⟨1, [7], 0⟩, ⟨0, 0⟩⟩])).map (fun p => calls 0 p.1.2) =
        some [.messageCallback] ∧
      ¬ protocol.Along KeepsProtocol (ProtocolState.initial 1 fun _ => .initial ∅ 8)
        (fastWorker ++ [.callback 1 ⟨⟨1, [7], 0⟩, ⟨0, 0⟩⟩]) := by
  have hend : (protocol.run (ProtocolState.initial 1 fun _ => .initial ∅ 8)
      (fastWorker ++ [.callback 1 ⟨⟨1, [7], 0⟩, ⟨0, 0⟩⟩])).map (fun p => calls 0 p.1.2) =
      some [.messageCallback] := by
    decide +kernel
  refine ⟨hend, fun h => ?_⟩
  obtain ⟨⟨t, os⟩, hrun, hcalls⟩ := Option.map_eq_some_iff.mp hend
  obtain ⟨_, _, _, -, -, hlaw⟩ := Machine.along_last h hrun
  have hword := hlaw.ordered 0
  rw [hcalls] at hword
  exact not_inProtocol_singleton (by decide) hword

end PluginsEngine
