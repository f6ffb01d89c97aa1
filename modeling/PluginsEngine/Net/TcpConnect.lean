/-
  File:      PluginsEngine/Net/TcpConnect.lean
  Subject:   A TCP CONNECTION ON ITS EVENT LOOP (net/tcp/tcpConnect.hpp, tcpConnect.cpp).

  A `Connection` is a `TcpConnect` together with the loop its Event is registered on. Every method
  gives the connection after it and what it did outside (`Shown`): the call of
  `SocketOperation::write` it made, with the answer, and the user's callbacks it invoked. A user
  callback runs arbitrary code, so `write` is cut where it invokes one: `beginWrite` up to it,
  `finishWrite` from its return on.

  * `connection` -- the machine of these methods, with a stack of the callbacks that are running.
-/
import PluginsEngine.Event.EventCtrl
import PluginsEngine.Library.Runs
import PluginsEngine.Net.Buffer

namespace PluginsEngine

open Library

/-! ## 1. The object -/

inductive ConnectState where
  | Disconnected
  | Connecting
  | Connected
  | Disconnecting
  deriving DecidableEq, Repr

/-- The methods the constructor binds as callbacks of the Event. -/
inductive TcpCallback where
  | readEvent
  | writeEvent
  | errorEvent
  | closeEvent
  deriving DecidableEq, Repr

/-- The callbacks of the user, each of which may be unset. -/
inductive UserCallback where
  | messageCallback
  | closeCallback
  | writeCompleteCallback
  deriving DecidableEq, Repr

structure TcpConnect where
  event : EventId
  readBuf : Buffer
  writeBuf : Buffer
  callbacks : List UserCallback
  state : ConnectState

/-- A connection and the loop it is on. -/
structure Connection where
  loop : World TcpCallback
  connect : TcpConnect

/-- What a method does outside: the call of `SocketOperation::write` (the bytes offered, and the
    answer), and the callbacks of the user, in order. -/
structure Shown where
  call : Option (List UInt8 × WriteAnswer)
  ran : List UserCallback
  deriving DecidableEq, Repr

namespace Connection

/-- `TcpConnect(loop, addr, fd)`; `callbacks` are those the user sets on it. -/
def new (loop : World TcpCallback) (fd : Int) (callbacks : List UserCallback) : Connection :=
  let (event, loop) := loop.newEvent fd
  let loop := loop.addEvent event
  let loop := loop.setReadCallback event .readEvent
  let loop := loop.setWriteCallback event .writeEvent
  let loop := loop.setErrorCallback event .errorEvent
  let loop := loop.setCloseCallback event .closeEvent
  ⟨loop, ⟨event, .new Buffer.InitSize, .new Buffer.InitSize, callbacks, .Disconnected⟩⟩

variable (s : Connection)

def event : Event TcpCallback := s.loop.object s.connect.event

/-- `event->isWriting()`. -/
def isWriting : Bool := s.event.isWriting

/-- `event->enableWriting(isEnable)`. -/
def enableWriting (isEnable : Bool) : Connection :=
  { s with loop := s.loop.enableWriting s.connect.event isEnable }

/-- A callback of the user, where it is set. -/
def invoke (callback : UserCallback) : List UserCallback :=
  if callback ∈ s.connect.callbacks then [callback] else []

/-! ## 2. The methods -/

def closeEvent : Connection × List UserCallback :=
  if s.connect.state = .Disconnected then (s, [])
  else ({ s with connect := { s.connect with state := .Disconnected } }, s.invoke .closeCallback)

def errorEvent : Connection × List UserCallback := s.closeEvent

/-- `readEvent`, where `readv` answers `r`. The error it looks at is the global `errno`. -/
def readEvent (r : ReadvAnswer) : Connection × List UserCallback :=
  let (readBuf, n, _) := Buffer.readFromIO s.connect.readBuf r
  let s := { s with connect := { s.connect with readBuf := readBuf } }
  if n > 0 then (s, s.invoke .messageCallback)
  else if n = 0 then s.closeEvent
  else if r.errno = EWOULDBLOCK then (s, [])
  else s.closeEvent

/-- The bytes at `writeBuf.readIndexPtr()`, `writeBuf.readableBytes()` many. -/
def backlog : List UInt8 :=
  let b := s.connect.writeBuf
  window b.buffer b.readIndex.toNat (b.readIndex.toNat + b.readableBytes.toNat)

/-- `writeEvent`, where the socket answers `a` if it is called. -/
def writeEvent (a : WriteAnswer) : Connection × Shown :=
  if s.isWriting then
    -- "connect failed"
    (s, ⟨none, []⟩)
  else
    let call := some (s.backlog, a)
    if a.ret > 0 then
      let writeBuf := s.connect.writeBuf.clearReadIndex (UInt32.ofNat a.ret.toNat)
      let s := { s with connect := { s.connect with writeBuf := writeBuf } }
      if writeBuf.isEmpty then
        (s.enableWriting false, ⟨call, s.invoke .writeCompleteCallback⟩)
      else (s, ⟨call, []⟩)
    else if a.errno = EWOULDBLOCK then (s, ⟨call, []⟩)
    else (s.closeEvent.1, ⟨call, s.closeEvent.2⟩)

/-- The local variables of a running `write`. -/
structure WriteFrame where
  data : List UInt8
  n : Int
  remaining : Nat
  faultError : Bool
  deriving DecidableEq, Repr

/-- `write(data, length)` up to the return of the completion callback, should it invoke it; the
    socket answers `a` if it is called. The connection is not changed so far. -/
def beginWrite (data : List UInt8) (a : WriteAnswer) : WriteFrame × Shown :=
  let length := UInt32.ofNat data.length
  if s.isWriting = false ∧ s.connect.writeBuf.isEmpty then
    let call := some (data, a)
    let n := toInt32 a.ret
    if n ≥ 0 then
      let remaining := (length - UInt32.ofNat n.toNat).toNat
      (⟨data, n, remaining, false⟩,
        ⟨call, if remaining = 0 then s.invoke .writeCompleteCallback else []⟩)
    else
      let faultError := a.errno ≠ EWOULDBLOCK ∧
        (a.errno = EPIPE ∨ a.errno = ECONNRESET ∨ a.errno = ENOTCONN ∨ a.errno = EINVAL)
      (⟨data, 0, length.toNat, faultError⟩, ⟨call, []⟩)
  else (⟨data, 0, length.toNat, false⟩, ⟨none, []⟩)

/-- The rest of `write`. -/
def finishWrite (f : WriteFrame) : Connection :=
  if f.faultError = false ∧ f.remaining > 0 then
    let writeBuf := s.connect.writeBuf.append ((f.data.drop f.n.toNat).take f.remaining)
    let s := { s with connect := { s.connect with writeBuf := writeBuf } }
    if s.isWriting = false then s.enableWriting true else s
  else s

def connectedHandle : Connection :=
  let s := { s with connect := { s.connect with state := .Connected } }
  let loop := s.loop.enableReading s.connect.event true
  { s with loop := loop.enableErrorEvent s.connect.event true }

def shutdownWrite : Connection :=
  if s.connect.state = .Connected then
    { s with connect := { s.connect with state := .Disconnecting } }
  else s

end Connection

/-! ## 3. Runs -/

/-- What remains to be done when a callback of the user returns. -/
inductive Rest where
  | nothing
  | finishWrite (f : Connection.WriteFrame)
  deriving DecidableEq, Repr

/-- A connection and the callbacks of the user that are running on it, the innermost first. -/
structure ConnectionState where
  self : Connection
  running : List Rest

/-- The calls, and the reports `Event::handle` is given. -/
inductive ConnectionStep where
  | write (data : List UInt8) (a : WriteAnswer)
  | writable (a : WriteAnswer)
  | readable (r : ReadvAnswer)
  | error
  | connectedHandle
  | shutdownWrite
  | callbackReturns

/-- Room in `writeBuf` for what `finishWrite` appends: its indices stay below 2^32. -/
def Connection.writeFits (s : Connection) (f : Connection.WriteFrame) : Prop :=
  f.faultError = false → s.connect.writeBuf.growthFits f.remaining

instance Connection.decidableWriteFits (s : Connection) (f : Connection.WriteFrame) :
    Decidable (s.writeFits f) :=
  inferInstanceAs (Decidable (_ → _))

/-- A connection in use: `write` is called while it is not `Disconnected`, on up to 2^32 - 1
    bytes; system calls answer as they document; the indices of the buffers do not overflow. A
    report invokes what `Event::handle` does for it. -/
def connection : Machine ConnectionState ConnectionStep Shown where
  step s
    | .write data a =>
      let (f, shown) := s.self.beginWrite data a
      if s.self.connect.state ≠ .Disconnected ∧ data.length < 2 ^ 32 ∧ a.fits data.length ∧
          s.self.writeFits f then
        match shown.ran with
        | [] => some (⟨s.self.finishWrite f, s.running⟩, shown)
        | _ :: _ => some (⟨s.self, .finishWrite f :: s.running⟩, shown)
      else none
    | .writable a =>
      if s.self.event.handle EPOLLOUT = [.writeEvent] ∧
          (s.self.isWriting = false → a.fits s.self.backlog.length) then
        let (self, shown) := s.self.writeEvent a
        some (⟨self, shown.ran.map (fun _ => .nothing) ++ s.running⟩, shown)
      else none
    | .readable r =>
      if .readEvent ∈ s.self.event.handle EPOLLIN ∧ r.fits s.self.connect.readBuf.iovec ∧
          s.self.connect.readBuf.readGrowthFits r then
        let (self, ran) := s.self.readEvent r
        some (⟨self, ran.map (fun _ => .nothing) ++ s.running⟩, ⟨none, ran⟩)
      else none
    | .error =>
      if .errorEvent ∈ s.self.event.handle EPOLLERR then
        let (self, ran) := s.self.errorEvent
        some (⟨self, ran.map (fun _ => .nothing) ++ s.running⟩, ⟨none, ran⟩)
      else none
    | .connectedHandle => some (⟨s.self.connectedHandle, s.running⟩, ⟨none, []⟩)
    | .shutdownWrite => some (⟨s.self.shutdownWrite, s.running⟩, ⟨none, []⟩)
    | .callbackReturns =>
      match s.running with
      | [] => none
      | .nothing :: running => some (⟨s.self, running⟩, ⟨none, []⟩)
      | .finishWrite f :: running =>
        if s.self.writeFits f then some (⟨s.self.finishWrite f, running⟩, ⟨none, []⟩) else none

end PluginsEngine
