/-
  File:      PluginsEngine/Net/TcpServer.lean
  Subject:   THE SERVER AND ITS CONNECTIONS (net/tcp/tcpServer.cpp, tcpConnect.cpp, socketAddr.cpp,
             thread/eventThreadPool.cpp).

  A server has its main loop and the loops of its thread pool; `loops 0` is the main loop, and
  `loops (i + 1)` is `eventLoopPoll[i]`. Connection objects are named by numbers; those below
  `next` have been constructed. What of a `TcpConnect` the methods work on is in TcpConnect.lean;
  here the rest of it is added: its loop, its socket, its address and its name.

  * `SocketAddr.toString` -- the name of a connection, made of the peer's address;
  * `getOneLoopFromPool` -- round robin;
  * `construct`, `addConnect`, `setMessageCallback`, `setCloseCallback`, `connectedHandle` -- what
    `newConnected` does, one after the other;
  * `runCallback` -- a callback of the Event of a connection, and `connectCloseEvent` behind it
    when it closes;
  * `Connection.closes`, `runCallback_law` -- when it does, and what else it does.
-/
import PluginsEngine.Net.Session

namespace PluginsEngine

open Library

/-! ## 1. Addresses -/

/-- An IPv4 address (`sockaddr_in`): `s_addr` and `sin_port` as they stand in memory, of which the
    first byte is the lowest. -/
structure SocketAddr where
  s_addr : UInt32
  sin_port : UInt16
  deriving DecidableEq, Repr

/-- A `std::string`, as its characters. -/
abbrev Name := List Char

namespace SocketAddr

/-- `addrArray[i]`. -/
def addrArray (addr : SocketAddr) (i : Nat) : Nat := addr.s_addr.toNat >>> (8 * i) &&& 0xff

/-- `SocketOperation::ipToString`: the four bytes and the port in host order. -/
def ipToString (addr : SocketAddr) : Name :=
  let port := addr.sin_port.toNat
  (List.range 4).flatMap (fun i =>
    Nat.toDigits 10 (addr.addrArray i) ++ if i ≠ 3 then ['.'] else []) ++
    [':'] ++ Nat.toDigits 10 ((port <<< 8 &&& 0x00ffff) ||| port >>> 8)

def toString (addr : SocketAddr) : Name := addr.ipToString

end SocketAddr

/-! ## 2. The callbacks of a connection's Event -/

/-- What the system calls of one callback answer: `readv`, and `write`. -/
structure IoAnswer where
  readv : ReadvAnswer
  write : WriteAnswer
  deriving DecidableEq, Repr

namespace Connection

variable (c : Connection)

/-- The call of a method that the constructor bound. -/
def runCallback (cb : TcpCallback) (io : IoAnswer) : Connection × List UserCallback :=
  match cb with
  | .readEvent => c.readEvent io.readv
  | .writeEvent => ((c.writeEvent io.write).1, (c.writeEvent io.write).2.ran)
  | .errorEvent => c.errorEvent
  | .closeEvent => c.closeEvent

/-- The answers the method can get, for a connection whose buffers do not overflow. -/
def callbackFits (cb : TcpCallback) (io : IoAnswer) : Prop :=
  match cb with
  | .readEvent =>
    io.readv.fits c.connect.readBuf.iovec ∧ c.connect.readBuf.readGrowthFits io.readv
  | .writeEvent => c.isWriting = false → io.write.fits c.backlog.length
  | .errorEvent => True
  | .closeEvent => True

instance decidableCallbackFits : (cb : TcpCallback) → (io : IoAnswer) →
    Decidable (c.callbackFits cb io)
  | .readEvent, _ => inferInstanceAs (Decidable (_ ∧ _))
  | .writeEvent, _ => inferInstanceAs (Decidable (_ → _))
  | .errorEvent, _ => inferInstanceAs (Decidable True)
  | .closeEvent, _ => inferInstanceAs (Decidable True)

/-- **When a callback closes the connection**: it is not disconnected yet, and the read comes to
    the end of the stream or fails, or the write fails, or an error is reported. -/
def closes (cb : TcpCallback) (io : IoAnswer) : Prop :=
  c.connect.state ≠ .Disconnected ∧
    match cb with
    | .readEvent =>
      toInt32 io.readv.ret = 0 ∨ (toInt32 io.readv.ret < 0 ∧ io.readv.errno ≠ EWOULDBLOCK)
    | .writeEvent => c.isWriting = false ∧ io.write.ret ≤ 0 ∧ io.write.errno ≠ EWOULDBLOCK
    | .errorEvent => True
    | .closeEvent => True

instance decidableCloses : (cb : TcpCallback) → (io : IoAnswer) → Decidable (c.closes cb io)
  | .readEvent, _ => inferInstanceAs (Decidable (_ ∧ _))
  | .writeEvent, _ => inferInstanceAs (Decidable (_ ∧ _))
  | .errorEvent, _ => inferInstanceAs (Decidable (_ ∧ True))
  | .closeEvent, _ => inferInstanceAs (Decidable (_ ∧ True))

/-- **When a callback hands received bytes to the user.** -/
def receives (cb : TcpCallback) (io : IoAnswer) : Prop :=
  cb = .readEvent ∧ 0 < toInt32 io.readv.ret

instance decidableReceives (cb : TcpCallback) (io : IoAnswer) : Decidable (receives cb io) :=
  inferInstanceAs (Decidable (_ ∧ _))

/-- What a callback of the Event does: `closes` and `receives` say whether it closes and whether it
    has a message, and the rest stays as it is. -/
structure CallbackLaw (cb : TcpCallback) (io : IoAnswer) (c' : Connection)
    (ran : List UserCallback) : Prop where
  event : c'.connect.event = c.connect.event
  callbacks : c'.connect.callbacks = c.connect.callbacks
  state : c'.connect.state = if c.closes cb io then .Disconnected else c.connect.state
  closeRan : .closeCallback ∈ ran ↔ c.closes cb io ∧ .closeCallback ∈ c.connect.callbacks
  messageRan : .messageCallback ∈ ran ↔ receives cb io ∧ .messageCallback ∈ c.connect.callbacks
  bound : ∀ x ∈ ran, x ∈ c.connect.callbacks
  one : ran.length ≤ 1

theorem mem_invoke_iff {cb cb' : UserCallback} :
    cb' ∈ c.invoke cb ↔ cb' = cb ∧ cb ∈ c.connect.callbacks := by
  unfold invoke
  split
  · rename_i h
    exact ⟨fun hin => ⟨List.mem_singleton.mp hin, h⟩, fun hin => List.mem_singleton.mpr hin.1⟩
  · rename_i h
    exact ⟨fun hin => absurd hin List.not_mem_nil, fun hin => absurd hin.2 h⟩

/-- Where neither happens. -/
theorem CallbackLaw.silent {cb : TcpCallback} {io : IoAnswer} {c' : Connection}
    (he : c'.connect.event = c.connect.event) (hcb : c'.connect.callbacks = c.connect.callbacks)
    (hst : c'.connect.state = c.connect.state) (hclose : ¬ c.closes cb io)
    (hmsg : ¬ receives cb io) : c.CallbackLaw cb io c' [] where
  event := he
  callbacks := hcb
  state := by rw [if_neg hclose, hst]
  closeRan := ⟨fun hin => absurd hin List.not_mem_nil, fun h => absurd h.1 hclose⟩
  messageRan := ⟨fun hin => absurd hin List.not_mem_nil, fun h => absurd h.1 hmsg⟩
  bound _ hin := absurd hin List.not_mem_nil
  one := Nat.zero_le 1

/-- The members of `invoke` are set. -/
theorem bound_invoke (cb x : UserCallback) (h : x ∈ c.invoke cb) : x ∈ c.connect.callbacks := by
  obtain ⟨rfl, hset⟩ := c.mem_invoke_iff.mp h
  exact hset

/-- Where `closeEvent` is called, after changes that leave state and callbacks alone. -/
theorem CallbackLaw.close {cb : TcpCallback} {io : IoAnswer} {c' : Connection}
    (he : c'.connect.event = c.connect.event) (hcb : c'.connect.callbacks = c.connect.callbacks)
    (hst : c'.connect.state = c.connect.state)
    (hclose : c.closes cb io ↔ c.connect.state ≠ .Disconnected) (hmsg : ¬ receives cb io) :
    c.CallbackLaw cb io c'.closeEvent.1 c'.closeEvent.2 := by
  unfold closeEvent
  rw [hst]
  by_cases hd : c.connect.state = .Disconnected
  · rw [if_pos hd]
    exact CallbackLaw.silent c he hcb hst (fun h => hclose.mp h hd) hmsg
  · rw [if_neg hd]
    have hyes : c.closes cb io := hclose.mpr hd
    refine ⟨he, hcb, (if_pos hyes).symm, ?_, ?_, ?_, c'.length_invoke_le _⟩
    · rw [c'.mem_invoke_iff, hcb]
      exact ⟨fun h => ⟨hyes, h.2⟩, fun h => ⟨rfl, h.2⟩⟩
    · rw [c'.mem_invoke_iff]
      exact ⟨fun h => absurd h.1 nofun, fun h => absurd h.1 hmsg⟩
    · rw [← hcb]
      exact c'.bound_invoke _

theorem readFromIO_count (b : Buffer) (r : ReadvAnswer) :
    (b.readFromIO r).2.1 = toInt32 r.ret := by
  unfold Buffer.readFromIO
  dsimp only
  split
  · rfl
  · split <;> rfl

theorem readEvent_law (io : IoAnswer) :
    c.CallbackLaw .readEvent io (c.readEvent io.readv).1 (c.readEvent io.readv).2 := by
  unfold readEvent
  dsimp only
  rw [readFromIO_count]
  split
  · rename_i hpos
    have hclose : ¬ c.closes .readEvent io := fun h => by
      have := h.2
      dsimp only at this
      omega
    refine ⟨rfl, rfl, (if_neg hclose).symm, ?_, ?_, bound_invoke _ _, length_invoke_le _ _⟩
    · rw [mem_invoke_iff]
      exact ⟨fun h => absurd h.1 nofun, fun h => absurd h.1 hclose⟩
    · rw [mem_invoke_iff]
      exact ⟨fun h => ⟨⟨rfl, hpos⟩, h.2⟩, fun h => ⟨rfl, h.2⟩⟩
  · rename_i hpos
    have hmsg : ¬ receives .readEvent io := fun h => hpos h.2
    split
    · rename_i hzero
      exact CallbackLaw.close c rfl rfl rfl ⟨And.left, fun h => ⟨h, Or.inl hzero⟩⟩ hmsg
    · rename_i hzero
      split
      · rename_i herr
        refine CallbackLaw.silent c rfl rfl rfl (fun h => ?_) hmsg
        rcases h.2 with hz | hf
        · exact hzero hz
        · exact hf.2 herr
      · rename_i herr
        have hneg : toInt32 io.readv.ret < 0 := by omega
        exact CallbackLaw.close c rfl rfl rfl ⟨And.left, fun h => ⟨h, Or.inr ⟨hneg, herr⟩⟩⟩ hmsg

theorem writeEvent_callbackLaw (io : IoAnswer) :
    c.CallbackLaw .writeEvent io (c.writeEvent io.write).1 (c.writeEvent io.write).2.ran := by
  have hmsg : ¬ receives .writeEvent io := fun h => absurd h.1 nofun
  unfold writeEvent
  by_cases hw : c.isWriting = true
  · rw [if_pos hw]
    exact CallbackLaw.silent c rfl rfl rfl
      (fun h => absurd (hw.symm.trans h.2.1) nofun) hmsg
  rw [if_neg hw]
  have hoff : c.isWriting = false := (Bool.not_eq_true _).mp hw
  dsimp only
  split
  · rename_i hpos
    have hclose : ¬ c.closes .writeEvent io := fun h => absurd h.2.2.1 (Int.not_le.mpr hpos)
    split
    · refine ⟨rfl, rfl, (if_neg hclose).symm, ?_, ?_, bound_invoke _ _, length_invoke_le _ _⟩
      · rw [mem_invoke_iff]
        exact ⟨fun h => absurd h.1 nofun, fun h => absurd h.1 hclose⟩
      · rw [mem_invoke_iff]
        exact ⟨fun h => absurd h.1 nofun, fun h => absurd h.1 hmsg⟩
    · exact CallbackLaw.silent c rfl rfl rfl hclose hmsg
  · rename_i hpos
    split
    · rename_i herr
      exact CallbackLaw.silent c rfl rfl rfl (fun h => h.2.2.2 herr) hmsg
    · rename_i herr
      exact CallbackLaw.close c rfl rfl rfl
        ⟨And.left, fun h => ⟨h, hoff, Int.not_lt.mp hpos, herr⟩⟩ hmsg

/-- A read that has bytes does not close. -/
theorem not_closes_of_receives {c : Connection} {cb : TcpCallback} {io : IoAnswer}
    (h : receives cb io) : ¬ c.closes cb io := by
  obtain ⟨rfl, hpos⟩ := h
  intro hok
  obtain ⟨-, hzero | hneg⟩ := hok
  · omega
  · exact absurd hpos (Int.not_lt.mpr (Int.le_of_lt hneg.1))

/-- **What a callback runs**, where no completion callback is set: nothing, or one of the other
    two. -/
theorem CallbackLaw.ran_cases {c c' : Connection} {cb : TcpCallback} {io : IoAnswer}
    {ran : List UserCallback} (h : c.CallbackLaw cb io c' ran)
    (hnone : .writeCompleteCallback ∉ c.connect.callbacks) :
    ran = [] ∨ (ran = [.messageCallback] ∧ receives cb io) ∨
      (ran = [.closeCallback] ∧ c.closes cb io) := by
  cases ran with
  | nil => exact Or.inl rfl
  | cons x rest =>
    have hrest : rest = [] := List.length_eq_zero_iff.mp (Nat.le_zero.mp
      (Nat.le_of_succ_le_succ h.one))
    subst hrest
    cases x with
    | messageCallback => exact Or.inr (Or.inl ⟨rfl, (h.messageRan.mp List.mem_cons_self).1⟩)
    | closeCallback => exact Or.inr (Or.inr ⟨rfl, (h.closeRan.mp List.mem_cons_self).1⟩)
    | writeCompleteCallback => exact absurd (h.bound _ List.mem_cons_self) hnone

/-- **What a callback of the Event does.** -/
theorem runCallback_law (cb : TcpCallback) (io : IoAnswer) :
    c.CallbackLaw cb io (c.runCallback cb io).1 (c.runCallback cb io).2 := by
  cases cb with
  | readEvent => exact c.readEvent_law io
  | writeEvent => exact c.writeEvent_callbackLaw io
  | errorEvent | closeEvent =>
    exact CallbackLaw.close c rfl rfl rfl ⟨And.left, fun h => ⟨h, trivial⟩⟩
      (fun h => absurd h.1 nofun)

end Connection

/-! ## 3. The server -/

abbrev ConnectId := Nat

/-- A `TcpConnect` object. -/
structure ServerConnect where
  loop : Nat
  socketFd : Int
  socketAddr : SocketAddr
  name : Name
  connect : TcpConnect

structure TcpServer where
  /-- `eventLoopPoll.size()`. -/
  poolSize : Nat
  threadIndex : Nat
  loops : Nat → World TcpCallback
  connectPool : Finmap fun _ : Name => ConnectId
  object : ConnectId → ServerConnect
  next : ConnectId

namespace TcpServer

variable (s : TcpServer) (id : ConnectId)

/-- A connection with the loop it is on. -/
def connection : Connection := ⟨s.loops (s.object id).loop, (s.object id).connect⟩

/-- What a method leaves of a connection and its loop. -/
def setConnection (c : Connection) : TcpServer :=
  { s with
    loops := Function.update s.loops (s.object id).loop c.loop
    object := Function.update s.object id { s.object id with connect := c.connect } }

/-- `EventThreadPool::getOneLoopFromPool`. -/
def getOneLoopFromPool : Nat × TcpServer :=
  if s.poolSize = 0 then (0, s)
  else
    let threadIndex := if s.threadIndex + 1 ≥ s.poolSize then 0 else s.threadIndex + 1
    (threadIndex + 1, { s with threadIndex := threadIndex })

/-- The constructor of `TcpConnect`, on a loop of the pool. No callback of the user is set. -/
def construct (sockfd : Int) (addr : SocketAddr) : ConnectId × TcpServer :=
  let (loop, s) := s.getOneLoopFromPool
  let c := Connection.new (s.loops loop) sockfd []
  (s.next, { s with
    loops := Function.update s.loops loop c.loop
    object := Function.update s.object s.next ⟨loop, sockfd, addr, addr.toString, c.connect⟩
    next := s.next + 1 })

/-- `addConnect(name, connect)`: `insert` keeps an entry that is there. -/
def addConnect (name : Name) : TcpServer :=
  { s with connectPool := insertNew name id s.connectPool }

/-- `setMessageCallback`, `setCloseCallback` and `setWriteCompleteCallback` of a connection. -/
def setCallback (cb : UserCallback) : TcpServer :=
  let c := s.connection id
  s.setConnection id { c with connect := { c.connect with callbacks := cb :: c.connect.callbacks } }

def connectedHandle : TcpServer := s.setConnection id (s.connection id).connectedHandle

/-- **`newConnected`**, up to the call of the virtual `connectCallback`. -/
def newConnected (sockfd : Int) (addr : SocketAddr) : ConnectId × TcpServer :=
  let (tcpConnect, s) := s.construct sockfd addr
  let s := s.addConnect tcpConnect addr.toString
  let s := s.setCallback tcpConnect .messageCallback
  let s := s.setCallback tcpConnect .closeCallback
  (tcpConnect, s.connectedHandle tcpConnect)

def removeConnect (name : Name) : TcpServer :=
  { s with connectPool := s.connectPool.erase name }

/-- `connectCloseEvent`, behind the call of the virtual `connectCloseCallback`. -/
def connectCloseEvent : TcpServer := s.removeConnect (s.object id).name

/-- A callback of the Event of connection `id`. Its close callback is `connectCloseEvent`. -/
def runCallback (cb : TcpCallback) (io : IoAnswer) : TcpServer × List UserCallback :=
  let (c, ran) := (s.connection id).runCallback cb io
  let s := s.setConnection id c
  if .closeCallback ∈ ran then (s.connectCloseEvent id, ran) else (s, ran)

/-- `write` of a connection. A completion callback that it runs finds the connection as it is
    after the call: nothing is left to queue then. -/
def write (data : List UInt8) (a : WriteAnswer) : TcpServer :=
  let c := s.connection id
  if c.connect.state = .Disconnected then s
  else s.setConnection id (c.finishWrite (c.beginWrite data a).1)

def shutdownWrite : TcpServer := s.setConnection id (s.connection id).shutdownWrite

/-- The pool holds a reference to connection `id`. -/
def owns : Prop := s.connectPool.lookup (s.object id).name = some id

instance decidableOwns : Decidable (s.owns id) :=
  inferInstanceAs (Decidable (_ = _))

/-- A server at its start: no connection. -/
def initial (poolSize : Nat) (loops : Nat → World TcpCallback) : TcpServer :=
  ⟨poolSize, 0, loops, ∅, fun _ =>
    ⟨0, -1, ⟨0, 0⟩, [], ⟨0, .new Buffer.InitSize, .new Buffer.InitSize, [], .Disconnected⟩⟩, 0⟩

/-! ## 4. What each of them changes -/

@[simp] theorem setConnection_connectPool (c : Connection) :
    (s.setConnection id c).connectPool = s.connectPool := rfl
@[simp] theorem setConnection_next (c : Connection) : (s.setConnection id c).next = s.next := rfl

theorem setConnection_object (c : Connection) :
    (s.setConnection id c).object id = { s.object id with connect := c.connect } :=
  Function.update_self _ _ _

theorem setConnection_object_of_ne (c : Connection) {id' : ConnectId} (h : id' ≠ id) :
    (s.setConnection id c).object id' = s.object id' :=
  Function.update_of_ne h _ _

/-- The name of a connection and its loop are never changed. -/
@[simp] theorem setConnection_name (c : Connection) (id' : ConnectId) :
    ((s.setConnection id c).object id').name = (s.object id').name := by
  by_cases h : id' = id
  · subst h
    rw [setConnection_object]
  · rw [setConnection_object_of_ne s id c h]

@[simp] theorem setConnection_loop (c : Connection) (id' : ConnectId) :
    ((s.setConnection id c).object id').loop = (s.object id').loop := by
  by_cases h : id' = id
  · subst h
    rw [setConnection_object]
  · rw [setConnection_object_of_ne s id c h]

@[simp] theorem setConnection_connection (c : Connection) :
    (s.setConnection id c).connection id = c := by
  unfold connection
  rw [setConnection_object]
  dsimp only [setConnection]
  rw [Function.update_self]

theorem getOneLoopFromPool_snd :
    ∃ i, s.getOneLoopFromPool.2 = { s with threadIndex := i } := by
  unfold getOneLoopFromPool
  split
  · exact ⟨s.threadIndex, rfl⟩
  · exact ⟨_, rfl⟩

/-- What the constructor leaves: a new object with the name of its address, and nothing else of
    the server changed but its loops. -/
structure Constructed (addr : SocketAddr) (id : ConnectId) (s' : TcpServer) : Prop where
  id_eq : id = s.next
  next : s'.next = s.next + 1
  pool : s'.connectPool = s.connectPool
  old : ∀ id', id' < s.next → s'.object id' = s.object id'
  name : (s'.object s.next).name = addr.toString
  state : (s'.object s.next).connect.state = .Disconnected
  callbacks : (s'.object s.next).connect.callbacks = []

theorem construct_law (sockfd : Int) (addr : SocketAddr) :
    s.Constructed addr (s.construct sockfd addr).1 (s.construct sockfd addr).2 := by
  obtain ⟨i, hi⟩ := s.getOneLoopFromPool_snd
  unfold construct
  dsimp only
  rw [hi]
  refine ⟨rfl, rfl, rfl, fun id' hlt => ?_, ?_, ?_, ?_⟩
  · exact Function.update_of_ne (Nat.ne_of_lt hlt) _ _
  · dsimp only
    rw [Function.update_self]
  · dsimp only
    rw [Function.update_self]
    rfl
  · dsimp only
    rw [Function.update_self]
    rfl

/-- **What `newConnected` leaves**: a new connection, `Connected`, with both callbacks, and the
    pool with its entry, unless its name has one already. -/
structure Accepted (addr : SocketAddr) (id : ConnectId) (s' : TcpServer) : Prop where
  id_eq : id = s.next
  next : s'.next = s.next + 1
  pool : s'.connectPool = insertNew addr.toString s.next s.connectPool
  old : ∀ id', id' < s.next → s'.object id' = s.object id'
  name : (s'.object s.next).name = addr.toString
  state : (s'.object s.next).connect.state = .Connected
  callbacks : (s'.object s.next).connect.callbacks = [.closeCallback, .messageCallback]

theorem newConnected_law (sockfd : Int) (addr : SocketAddr) :
    s.Accepted addr (s.newConnected sockfd addr).1 (s.newConnected sockfd addr).2 := by
  have h := s.construct_law sockfd addr
  unfold newConnected
  cases hc : s.construct sockfd addr with
  | mk tcpConnect s₁ =>
    rw [hc] at h
    obtain ⟨hid, hnext, hpool, hold, hname, -, hcallbacks⟩ := h
    dsimp only at hid hnext hpool hold hname hcallbacks
    subst hid
    refine ⟨rfl, hnext, ?_, fun id' hlt => ?_, ?_, ?_, ?_⟩
    · show insertNew addr.toString s.next s₁.connectPool = _
      rw [hpool]
    · simp only [connectedHandle, setCallback,
        setConnection_object_of_ne _ _ _ (Nat.ne_of_lt hlt)]
      exact hold id' hlt
    · simp only [connectedHandle, setCallback, setConnection_name]
      exact hname
    · simp only [connectedHandle, setConnection_object]
      rfl
    · simp only [connectedHandle, setCallback, setConnection_object,
        setConnection_connection, Connection.connectedHandle]
      show _ :: _ :: (s₁.object s.next).connect.callbacks = _
      rw [hcallbacks]

/-- **What a callback leaves of the server**: its own connection as the callback leaves it, and
    the pool, but for the entry of its name when `closeCallback` ran. -/
structure CallbackRan (id : ConnectId) (s' : TcpServer) (ran : List UserCallback) : Prop where
  next : s'.next = s.next
  pool : s'.connectPool =
    if .closeCallback ∈ ran then s.connectPool.erase (s.object id).name else s.connectPool
  names : ∀ id', (s'.object id').name = (s.object id').name
  loop : ∀ id', (s'.object id').loop = (s.object id').loop
  others : ∀ id', id' ≠ id → s'.object id' = s.object id'

theorem runCallback_pool (cb : TcpCallback) (io : IoAnswer) :
    s.CallbackRan id (s.runCallback id cb io).1 (s.runCallback id cb io).2 := by
  unfold runCallback
  dsimp only
  split
  · rename_i hran
    refine ⟨rfl, ?_, fun id' => setConnection_name _ _ _ _, fun id' => setConnection_loop _ _ _ _,
      fun id' h => setConnection_object_of_ne _ _ _ h⟩
    rw [if_pos hran]
    show s.connectPool.erase (((s.setConnection id _).object id).name) = _
    rw [setConnection_name]
  · rename_i hran
    exact ⟨rfl, (if_neg hran).symm, fun id' => setConnection_name _ _ _ _,
      fun id' => setConnection_loop _ _ _ _, fun id' h => setConnection_object_of_ne _ _ _ h⟩

/-- A connection keeps its entry of the pool when another one is accepted. -/
theorem Accepted.owns {s s' : TcpServer} {addr : SocketAddr} {id id' : ConnectId}
    (h : s.Accepted addr id s') (hlt : id' < s.next) (ho : s.owns id') : s'.owns id' := by
  have ho' : s.connectPool.lookup (s.object id').name = some id' := ho
  rw [TcpServer.owns, h.old id' hlt, h.pool]
  exact lookup_insertNew_of_some ho'

/-- A connection keeps its entry of the pool when another one closes. -/
theorem CallbackRan.owns {s s' : TcpServer} {id id' : ConnectId} {ran : List UserCallback}
    (h : s.CallbackRan id s' ran) (hid : s.owns id) (hne : id' ≠ id) (ho : s.owns id') :
    s'.owns id' := by
  have ho' : s.connectPool.lookup (s.object id').name = some id' := ho
  rw [TcpServer.owns, h.names, h.pool]
  split
  · rw [Finmap.lookup_erase_ne]
    · exact ho'
    · intro heq
      rw [heq, show s.connectPool.lookup (s.object id).name = some id from hid] at ho'
      exact hne (Option.some.inj ho').symm
  · exact ho'

theorem setConnection_callbacks {c : Connection}
    (h : c.connect.callbacks = (s.object id).connect.callbacks) (id' : ConnectId) :
    ((s.setConnection id c).object id').connect.callbacks =
      (s.object id').connect.callbacks := by
  by_cases hne : id' = id
  · subst hne
    rw [setConnection_object]
    exact h
  · rw [setConnection_object_of_ne s id c hne]

/-- What it leaves of its own connection. -/
theorem runCallback_self (cb : TcpCallback) (io : IoAnswer) :
    (s.connection id).CallbackLaw cb io ((s.runCallback id cb io).1.connection id)
      (s.runCallback id cb io).2 := by
  have h := (s.connection id).runCallback_law cb io
  unfold runCallback
  dsimp only
  split
  · show (s.connection id).CallbackLaw cb io ((s.setConnection id _).connection id) _
    rw [setConnection_connection]
    exact h
  · rw [setConnection_connection]
    exact h

/-- What leaves names, loops, callbacks and the pool as they are. -/
structure SameOwners (s' : TcpServer) : Prop where
  next : s'.next = s.next
  pool : s'.connectPool = s.connectPool
  names : ∀ id', (s'.object id').name = (s.object id').name
  loop : ∀ id', (s'.object id').loop = (s.object id').loop
  callbacks : ∀ id', (s'.object id').connect.callbacks = (s.object id').connect.callbacks

theorem setConnection_sameOwners {c : Connection}
    (h : c.connect.callbacks = (s.object id).connect.callbacks) :
    s.SameOwners (s.setConnection id c) where
  next := rfl
  pool := rfl
  names := s.setConnection_name id c
  loop := s.setConnection_loop id c
  callbacks := s.setConnection_callbacks id h

theorem write_sameOwners (data : List UInt8) (a : WriteAnswer) :
    s.SameOwners (s.write id data a) := by
  unfold write
  dsimp only
  split
  · exact ⟨rfl, rfl, fun _ => rfl, fun _ => rfl, fun _ => rfl⟩
  · refine s.setConnection_sameOwners id ?_
    unfold Connection.finishWrite
    split
    · dsimp only
      split <;> rfl
    · rfl

theorem shutdownWrite_sameOwners : s.SameOwners (s.shutdownWrite id) := by
  refine s.setConnection_sameOwners id ?_
  unfold Connection.shutdownWrite
  split <;> rfl

end TcpServer

end PluginsEngine
