/-
  File:      PluginsEngine/Net/OutgoingStream.lean
  Subject:   THE OUTGOING STREAM OF A CONNECTION, over whole runs.

  What the socket was handed, followed by the backlog in `writeBuf`, is what `write` accepted; and
  the connection waits for writability exactly while there is a backlog.

  * `Connection.Steady` -- the backlog and the EPOLLOUT flag go together;
  * `beginWrite_law`, `finishWrite_law` -- the two halves of `write`;
  * `outgoing_stream` -- the law in every state of every run, inside callbacks too;
  * `drains_iff_no_delivery` -- nothing ever leaves the backlog: `writeEvent` returns at once
    exactly when the flag is set, so no delivery of writability hands on a byte.
-/
import PluginsEngine.Library.Fifo
import PluginsEngine.Net.TcpConnect

namespace PluginsEngine

open Library

/-! ## 1. Steady connections -/

namespace Connection

variable {c : Connection}

/-- The unread bytes of `writeBuf`. -/
abbrev unsent (c : Connection) : List UInt8 := c.connect.writeBuf.contents

/-- **Backlog and interest go together**, and writability is reported to `writeEvent`. -/
structure Steady (c : Connection) : Prop where
  wf : c.connect.writeBuf.Wf
  writing : c.isWriting = true ↔ c.unsent ≠ []
  bound : c.event.writeCallback = some .writeEvent

/-- What `writeEvent` offers to the socket is the backlog. -/
theorem Steady.backlog_eq (h : c.Steady) : c.backlog = c.unsent := by
  have hr := h.wf.read_le
  have hlen := h.wf.length_contents
  have hread := h.wf.readable_toNat
  simp only [backlog]
  rw [hread, hlen, Nat.add_sub_cancel' hr]
  rfl

theorem Steady.unsent_eq_nil (h : c.Steady) (hw : c.isWriting = false) : c.unsent = [] := by
  by_cases hc : c.unsent = []
  · exact hc
  · rw [h.writing.mpr hc] at hw
    cases hw

/-- A report of writability runs `writeEvent`. -/
theorem Steady.handle_writable (h : c.Steady) : c.event.handle EPOLLOUT = [.writeEvent] := by
  have herr : ¬ Mask.has EPOLLOUT EPOLLERR := by decide
  have hhup : ¬ (Mask.has EPOLLOUT EPOLLHUP ∧ ¬ Mask.has EPOLLOUT EPOLLIN) := by decide
  have hin : ¬ Mask.has EPOLLOUT (EPOLLIN ||| EPOLLPRI ||| EPOLLRDHUP) := by decide
  have hout : Mask.has EPOLLOUT EPOLLOUT := by decide
  rw [Event.handle, if_neg herr, if_neg hhup, if_neg hin, if_pos hout, h.bound]
  rfl

/-- A change that leaves `writeBuf`, the flag and the callback alone. -/
theorem Steady.keep (h : c.Steady) {c' : Connection} (hb : c'.connect.writeBuf = c.connect.writeBuf)
    (hw : c'.isWriting = c.isWriting) (hcb : c'.event.writeCallback = c.event.writeCallback) :
    c'.Steady where
  wf := by rw [hb]; exact h.wf
  writing := by rw [hw, unsent, hb]; exact h.writing
  bound := by rw [hcb, h.bound]

/-- A new connection: nothing to send, nothing waited for. -/
theorem steady_new (loop : World TcpCallback) (fd : Int) (callbacks : List UserCallback) :
    (new loop fd callbacks).Steady where
  wf := Buffer.new_wf _
  writing := by
    have hmask : (new loop fd callbacks).event.events = 0 := by
      simp only [event, new, World.setReadCallback, World.setWriteCallback,
        World.setErrorCallback, World.setCloseCallback, World.newEvent_fst,
        World.setObject_self, World.addEvent_object, World.newEvent_self]
      rfl
    have hwriting : (new loop fd callbacks).isWriting = false := by
      unfold isWriting Event.isWriting
      rw [hmask]
      decide
    rw [hwriting]
    exact ⟨nofun, fun hne => absurd (Buffer.new_contents _) hne⟩
  bound := by
    simp only [event, new, World.setReadCallback, World.setWriteCallback,
      World.setErrorCallback, World.setCloseCallback, World.newEvent_fst, World.setObject_self]

/-! ## 2. What each method does to the stream -/

theorem enableWriting_event (c : Connection) (b : Bool) :
    (c.enableWriting b).event = c.event.withFlag Event.writeEventFlag b := by
  simp only [event, enableWriting, World.enableWriting, World.enableFlag, World.update_object,
    World.setObject_self]

/-- The rest of a `write`: what is appended. -/
def WriteFrame.rest (f : WriteFrame) : List UInt8 :=
  if f.faultError then [] else (f.data.drop f.n.toNat).take f.remaining

/-- `finishWrite` queues the rest and waits for writability if there is one. -/
theorem finishWrite_law (h : c.Steady) {f : WriteFrame} (hfit : c.writeFits f)
    (hlen : ((f.data.drop f.n.toNat).take f.remaining).length = f.remaining) :
    (c.finishWrite f).Steady ∧ (c.finishWrite f).unsent = c.unsent ++ f.rest := by
  unfold finishWrite WriteFrame.rest
  by_cases hcond : f.faultError = false ∧ f.remaining > 0
  · obtain ⟨hfault, hpos⟩ := hcond
    obtain ⟨hwf, hcont⟩ := Buffer.append_contents h.wf
      ((f.data.drop f.n.toNat).take f.remaining) (by rw [hlen]; exact hfit hfault)
    have hne : (f.data.drop f.n.toNat).take f.remaining ≠ [] := by
      intro hnil
      rw [hnil] at hlen
      exact absurd hlen (Nat.ne_of_lt hpos)
    have hback : (c.connect.writeBuf.append
        ((f.data.drop f.n.toNat).take f.remaining)).contents ≠ [] := by
      rw [hcont]
      exact fun e => hne (List.append_eq_nil_iff.mp e).2
    simp only [hfault, hpos, and_self, if_true, Bool.false_eq_true, if_false]
    split
    · -- the flag was off: it is switched on
      refine ⟨⟨hwf, ?_, ?_⟩, hcont⟩
      · have hon : ∀ c' : Connection, (c'.enableWriting true).isWriting = true := by
          intro c'
          rw [isWriting, enableWriting_event, Event.isWriting_withFlag]
        rw [hon]
        exact ⟨fun _ => hback, fun _ => rfl⟩
      · rw [enableWriting_event]
        exact h.bound
    · rename_i hw
      exact ⟨⟨hwf, ⟨fun _ => hback, fun _ => (Bool.not_eq_false _).mp hw⟩, h.bound⟩, hcont⟩
  · rw [if_neg hcond]
    refine ⟨h, ?_⟩
    split
    · exact (List.append_nil _).symm
    · rename_i hfault
      have hzero : f.remaining = 0 := by
        have hff := (Bool.not_eq_true _).mp hfault
        by_contra hne
        exact hcond ⟨hff, Nat.pos_of_ne_zero hne⟩
      rw [hzero, List.take_zero, List.append_nil]

end Connection

/-- The bytes the socket took in a step. -/
def Shown.handed (o : Shown) : List UInt8 :=
  match o.call with
  | some (offered, a) => a.taken offered
  | none => []

/-- The data a step's `write` accepted: all of it, unless the socket refused it with a fault
    error. -/
def ConnectionStep.accepted : ConnectionStep → Shown → List UInt8
  | .write data _, ⟨some (_, a), _⟩ => if a.fault then [] else data
  | .write data _, ⟨none, _⟩ => data
  | _, _ => []

namespace Connection

variable {c : Connection}

/-- `write` calls the socket directly: nothing is waited for and nothing is queued. -/
def direct (c : Connection) : Prop := c.isWriting = false ∧ c.connect.writeBuf.isEmpty

section

variable {data : List UInt8} {a : WriteAnswer}

theorem length_toNat (hlen : data.length < 2 ^ 32) :
    (UInt32.ofNat data.length).toNat = data.length := by
  rw [UInt32.toNat_ofNat']
  exact Nat.mod_eq_of_lt hlen

/-- Behind a backlog, all of the data is left to queue. -/
theorem beginWrite_behind (hd : ¬ c.direct) (hlen : data.length < 2 ^ 32) :
    c.beginWrite data a = (⟨data, 0, data.length, false⟩, ⟨none, []⟩) := by
  unfold beginWrite
  dsimp only
  rw [length_toNat hlen]
  exact if_neg hd

/-- After an error too, or nothing, when it is one of the four fault errors. -/
theorem beginWrite_error (hd : c.direct) (hlen : data.length < 2 ^ 32) (herr : a.ret = -1) :
    c.beginWrite data a = (⟨data, 0, data.length, decide a.fault⟩, ⟨some (data, a), []⟩) := by
  have hn : ¬ toInt32 a.ret ≥ 0 := by
    rw [herr]
    decide
  -- none of the four is EWOULDBLOCK
  have hfault : (a.errno ≠ EWOULDBLOCK ∧ (a.errno = EPIPE ∨ a.errno = ECONNRESET ∨
      a.errno = ENOTCONN ∨ a.errno = EINVAL)) ↔ a.fault := by
    refine ⟨fun hf => ⟨by omega, hf.2⟩, fun hf => ⟨?_, hf.2⟩⟩
    rcases hf.2 with e | e | e | e <;> rw [e] <;> decide
  have hd' : c.isWriting = false ∧ c.connect.writeBuf.isEmpty := hd
  unfold beginWrite
  dsimp only
  rw [if_pos hd', if_neg hn, length_toNat hlen, decide_eq_decide.mpr hfault]

/-- When the socket took the first `ret` bytes, the others. -/
theorem beginWrite_taken (hd : c.direct) (hlen : data.length < 2 ^ 32) (h₀ : 0 ≤ a.ret)
    (hle : a.ret ≤ data.length) (hmax : a.ret ≤ maxRwCount) :
    c.beginWrite data a = (⟨data, a.ret, data.length - a.ret.toNat, false⟩,
      ⟨some (data, a), if data.length - a.ret.toNat = 0 then c.invoke .writeCompleteCallback
        else []⟩) := by
  have hret : toInt32 a.ret = a.ret := by
    have hcap : (maxRwCount : Int) < 2 ^ 31 := by decide
    exact toInt32_eq (by omega) (by omega)
  have hremaining : (UInt32.ofNat data.length - UInt32.ofNat a.ret.toNat).toNat =
      data.length - a.ret.toNat := by
    have hcount : (UInt32.ofNat a.ret.toNat).toNat = a.ret.toNat := by
      rw [UInt32.toNat_ofNat']
      exact Nat.mod_eq_of_lt (by omega)
    rw [UInt32.toNat_sub, length_toNat hlen, hcount]
    omega
  have hd' : c.isWriting = false ∧ c.connect.writeBuf.isEmpty := hd
  unfold beginWrite
  dsimp only
  rw [if_pos hd', hret, hremaining]
  exact if_pos h₀

/-- What `beginWrite` leaves to do. -/
structure BeginLaw (c : Connection) (data : List UInt8) (a : WriteAnswer) (f : WriteFrame)
    (shown : Shown) : Prop where
  length : ((f.data.drop f.n.toNat).take f.remaining).length = f.remaining
  stream : shown.handed ++ c.unsent ++ f.rest =
    c.unsent ++ (ConnectionStep.write data a).accepted shown
  callback : shown.ran ≠ [] → f.remaining = 0

/-- **The first half of `write`**: what the socket took and what is left to queue are the data, in
    this order; nothing is handed over while there is a backlog; and a completion callback runs
    only when nothing is left. -/
theorem beginWrite_law (h : c.Steady) (hlen : data.length < 2 ^ 32)
    (hfit : a.fits data.length) :
    BeginLaw c data a (c.beginWrite data a).1 (c.beginWrite data a).2 := by
  by_cases hd : c.direct
  · have hnil : c.unsent = [] := h.unsent_eq_nil hd.1
    rcases hfit with herr | ⟨hnonneg, hle, hmax⟩
    · rw [beginWrite_error hd hlen herr]
      refine ⟨?_, ?_, fun hran => absurd rfl hran⟩
      · rw [Int.toNat_zero, List.drop_zero, List.take_length]
      · show a.taken data ++ c.unsent ++ (if decide a.fault then [] else
            (data.drop (0 : Int).toNat).take data.length) =
          c.unsent ++ if a.fault then [] else data
        rw [WriteAnswer.taken_eq_nil (by omega), hnil, Int.toNat_zero, List.drop_zero,
          List.take_length]
        simp only [decide_eq_true_eq, List.nil_append]
    · have hrest : (data.drop a.ret.toNat).take (data.length - a.ret.toNat) =
          data.drop a.ret.toNat := by
        rw [← List.length_drop]
        exact List.take_length
      have hfault : ¬ a.fault := fun hf => absurd hf.1 (by omega)
      rw [beginWrite_taken hd hlen hnonneg hle hmax]
      refine ⟨?_, ?_, fun hran => ?_⟩
      · rw [hrest, List.length_drop]
      · show a.taken data ++ c.unsent ++ (data.drop a.ret.toNat).take _ =
          c.unsent ++ if a.fault then [] else data
        rw [hrest, hnil, if_neg hfault, List.append_nil, List.nil_append, WriteAnswer.taken,
          List.take_append_drop]
      · by_contra hne
        exact hran (if_neg hne)
  · rw [beginWrite_behind hd hlen]
    refine ⟨?_, ?_, fun hran => absurd rfl hran⟩
    · rw [Int.toNat_zero, List.drop_zero, List.take_length]
    · show [] ++ c.unsent ++ (data.drop (0 : Int).toNat).take data.length = c.unsent ++ data
      rw [Int.toNat_zero, List.drop_zero, List.take_length, List.nil_append]

end

/-- `closeEvent` changes the state only. -/
theorem closeEvent_steady (h : c.Steady) :
    c.closeEvent.1.Steady ∧ c.closeEvent.1.unsent = c.unsent := by
  unfold closeEvent
  split
  · exact ⟨h, rfl⟩
  · exact ⟨h.keep rfl rfl rfl, rfl⟩

/-- **`writeEvent` moves nothing**: while there is a backlog the flag is set, and it returns at
    once; where there is none it offers the socket no byte. -/
theorem writeEvent_law (h : c.Steady) {a : WriteAnswer}
    (hfit : c.isWriting = false → a.fits c.backlog.length) :
    (c.writeEvent a).1.Steady ∧ (c.writeEvent a).1.unsent = c.unsent ∧
      (c.writeEvent a).2.handed = [] := by
  unfold writeEvent
  by_cases hw : c.isWriting = true
  · rw [if_pos hw]
    exact ⟨h, rfl, rfl⟩
  · have hoff : c.isWriting = false := (Bool.not_eq_true _).mp hw
    have hnil : c.backlog = [] := h.backlog_eq.trans (h.unsent_eq_nil hoff)
    have hret : ¬ a.ret > 0 := by
      have hf := hfit hoff
      rw [hnil] at hf
      rcases hf with herr | ⟨_, hle, _⟩
      · omega
      · exact Int.not_lt.mpr hle
    have hhanded : ∀ ran, (⟨some (c.backlog, a), ran⟩ : Shown).handed = [] := by
      intro ran
      exact WriteAnswer.taken_eq_nil (Int.not_lt.mp hret)
    simp only [hoff, Bool.false_eq_true, if_false, if_neg hret]
    split
    · exact ⟨h, rfl, hhanded _⟩
    · obtain ⟨hs, hu⟩ := closeEvent_steady h
      exact ⟨hs, hu, hhanded _⟩

theorem readEvent_steady (h : c.Steady) (r : ReadvAnswer) :
    (c.readEvent r).1.Steady ∧ (c.readEvent r).1.unsent = c.unsent := by
  have hread : ({ c with connect := { c.connect with
      readBuf := ( Buffer.readFromIO c.connect.readBuf r).1 } } : Connection).Steady :=
    h.keep rfl rfl rfl
  unfold readEvent
  dsimp only
  split
  · exact ⟨hread, rfl⟩
  · split
    · exact closeEvent_steady hread
    · split
      · exact ⟨hread, rfl⟩
      · exact closeEvent_steady hread

theorem connectedHandle_steady (h : c.Steady) :
    c.connectedHandle.Steady ∧ c.connectedHandle.unsent = c.unsent := by
  have hevent : c.connectedHandle.event = (c.event.withFlag Event.readEventFlag true).withFlag
      Event.errorEventFlag true := by
    simp only [connectedHandle, event, World.enableReading, World.enableErrorEvent,
      World.enableFlag, World.update_object, World.setObject_self]
  refine ⟨h.keep rfl ?_ ?_, rfl⟩
  · rw [isWriting, hevent, Event.isWriting_withFlag_of_disjoint (by decide),
      Event.isWriting_withFlag_of_disjoint (by decide)]
    rfl
  · rw [hevent]
    rfl

theorem shutdownWrite_steady (h : c.Steady) :
    c.shutdownWrite.Steady ∧ c.shutdownWrite.unsent = c.unsent := by
  unfold shutdownWrite
  split
  · exact ⟨h.keep rfl rfl rfl, rfl⟩
  · exact ⟨h, rfl⟩

/-- A `write` that has nothing left to queue ends. -/
theorem finishWrite_done {f : WriteFrame} (hf : f.remaining = 0) : c.finishWrite f = c :=
  if_neg fun h => absurd h.2 (by omega)

end Connection

/-! ## 3. Runs -/

open Connection

/-- The connection is steady, and no running callback interrupts a `write` that still has bytes to
    queue. -/
structure ConnectionState.Steady (s : ConnectionState) : Prop where
  self : s.self.Steady
  running : ∀ f, .finishWrite f ∈ s.running → f.remaining = 0

namespace ConnectionState

variable {s : ConnectionState}

/-- A step that leaves the stream alone, and starts callbacks with nothing behind them. -/
theorem Steady.quiet (h : s.Steady) {c : Connection} (hc : c.Steady ∧ c.unsent = s.self.unsent)
    (ran : List UserCallback) {o : Shown} {l : ConnectionStep} (ho : o.handed = [])
    (hl : l.accepted o = []) :
    Steady ⟨c, ran.map (fun _ => .nothing) ++ s.running⟩ ∧
      o.handed ++ c.unsent = s.self.unsent ++ l.accepted o := by
  refine ⟨⟨hc.1, fun f hf => ?_⟩, ?_⟩
  · rcases List.mem_append.mp hf with hnew | hold
    · obtain ⟨_, -, hne⟩ := List.mem_map.mp hnew
      cases hne
    · exact h.running f hold
  · rw [ho, hl, hc.2, List.nil_append, List.append_nil]

/-- `write` passes the stream on. Where the completion callback runs inside it, it has nothing left
    to queue. -/
theorem Steady.write (h : s.Steady) {data : List UInt8} {a : WriteAnswer} {s' : ConnectionState}
    {o : Shown} (hs : connection.step s (.write data a) = some (s', o)) :
    s'.Steady ∧ o.handed ++ s'.self.unsent = s.self.unsent ++
      ConnectionStep.accepted (.write data a) o := by
  simp only [connection] at hs
  split at hs
  case isFalse => cases hs
  rename_i hok
  obtain ⟨-, hlen, hfit, hroom⟩ := hok
  have hlaw := beginWrite_law h.self hlen hfit
  split at hs
  · cases hs
    obtain ⟨hsteady, hunsent⟩ := finishWrite_law h.self hroom hlaw.length
    refine ⟨⟨hsteady, h.running⟩, ?_⟩
    rw [hunsent, ← List.append_assoc]
    exact hlaw.stream
  · rename_i hran
    cases hs
    have hdone : (s.self.beginWrite data a).1.remaining = 0 :=
      hlaw.callback (by rw [hran]; exact List.cons_ne_nil _ _)
    have hstream := hlaw.stream
    have hrest : (s.self.beginWrite data a).1.rest = [] := by
      unfold WriteFrame.rest
      rw [hdone, List.take_zero, ite_self]
    rw [hrest, List.append_nil] at hstream
    refine ⟨⟨h.self, fun f hf => ?_⟩, hstream⟩
    rcases List.mem_cons.mp hf with hnew | hold
    · cases hnew
      exact hdone
    · exact h.running f hold

/-- A callback that returns leaves the connection as it is, be it one that interrupted a `write`. -/
theorem Steady.callbackReturns (h : s.Steady) {s' : ConnectionState} {o : Shown}
    (hs : connection.step s .callbackReturns = some (s', o)) :
    s'.Steady ∧ o.handed ++ s'.self.unsent = s.self.unsent ++
      ConnectionStep.accepted .callbackReturns o := by
  simp only [connection] at hs
  split at hs
  · cases hs
  · rename_i running hrun
    cases hs
    refine ⟨⟨h.self, fun f hf => h.running f ?_⟩, (List.append_nil _).symm⟩
    rw [hrun]
    exact List.mem_cons_of_mem _ hf
  · rename_i f running hrun
    split at hs
    case isFalse => cases hs
    cases hs
    rw [finishWrite_done (h.running f (by rw [hrun]; exact List.mem_cons_self))]
    refine ⟨⟨h.self, fun f hf => h.running f ?_⟩, (List.append_nil _).symm⟩
    rw [hrun]
    exact List.mem_cons_of_mem _ hf

/-- **One step passes the stream on**: what it hands to the socket, followed by the backlog it
    leaves, is the backlog before it followed by what it accepts. -/
theorem Steady.step (h : s.Steady) {l : ConnectionStep} {s' : ConnectionState} {o : Shown}
    (hs : connection.step s l = some (s', o)) :
    s'.Steady ∧ o.handed ++ s'.self.unsent = s.self.unsent ++ l.accepted o := by
  cases l with
  | write data a => exact h.write hs
  | writable a =>
    simp only [connection] at hs
    split at hs
    case isFalse => cases hs
    rename_i hok
    cases hs
    obtain ⟨hsteady, hunsent, hhanded⟩ := writeEvent_law h.self hok.2
    exact h.quiet (l := .writable a) ⟨hsteady, hunsent⟩ _ hhanded rfl
  | readable r =>
    simp only [connection] at hs
    split at hs
    case isFalse => cases hs
    cases hs
    exact h.quiet (l := .readable r) (readEvent_steady h.self r) _ rfl rfl
  | error =>
    simp only [connection] at hs
    split at hs
    case isFalse => cases hs
    cases hs
    exact h.quiet (l := .error) (closeEvent_steady h.self) _ rfl rfl
  | connectedHandle =>
    cases hs
    exact h.quiet (l := .connectedHandle) (connectedHandle_steady h.self) [] rfl rfl
  | shutdownWrite =>
    cases hs
    exact h.quiet (l := .shutdownWrite) (shutdownWrite_steady h.self) [] rfl rfl
  | callbackReturns => exact h.callbackReturns hs

/-- A connection just constructed. -/
def initial (loop : World TcpCallback) (fd : Int) (callbacks : List UserCallback) :
    ConnectionState :=
  ⟨.new loop fd callbacks, []⟩

theorem steady_initial (loop : World TcpCallback) (fd : Int) (callbacks : List UserCallback) :
    (initial loop fd callbacks).Steady :=
  ⟨steady_new loop fd callbacks, fun _ hf => absurd hf List.not_mem_nil⟩

end ConnectionState

/-- **Outgoing stream integrity.** In every state of every run of a connection, also while user
    callbacks are running: the bytes handed to the socket, followed by the unread bytes of
    `writeBuf`, are the data of the writes, in call order, except of those refused with a fault
    error; and EPOLLOUT is waited for exactly while `writeBuf` is not empty. -/
theorem outgoing_stream {loop : World TcpCallback} {fd : Int} {callbacks : List UserCallback}
    {ls : List ConnectionStep} {s : ConnectionState} {os : List Shown}
    (h : connection.run (.initial loop fd callbacks) ls = some (s, os)) :
    os.flatMap Shown.handed ++ s.self.unsent =
        (List.zipWith ConnectionStep.accepted ls os).flatten ∧
      (s.self.isWriting = true ↔ s.self.unsent ≠ []) := by
  have hsteady : s.Steady := Machine.run_invariant (I := ConnectionState.Steady)
    (fun _ _ _ _ h hs => (h.step hs).1) (ConnectionState.steady_initial loop fd callbacks) h
  have hstream := run_conserve (I := ConnectionState.Steady) (q := fun s => s.self.unsent)
    (fun _ _ _ _ h hs => h.step hs) (ConnectionState.steady_initial loop fd callbacks) h
  have hempty : (ConnectionState.initial loop fd callbacks).self.unsent = [] :=
    Buffer.new_contents _
  refine ⟨?_, hsteady.self.writing⟩
  rw [hstream, hempty, List.nil_append]

/-- A write that the socket takes whole; from its completion callback a write of which it takes
    one byte; behind the backlog a third one; and a report of writability. -/
def nestedWrites : List ConnectionStep :=
  [.connectedHandle, .write [1, 2] ⟨2, 0⟩, .write [3, 4, 5] ⟨1, 0⟩, .callbackReturns,
    .write [6] ⟨-1, EPIPE⟩, .writable ⟨3, 0⟩]

/-- The connection of the examples: descriptor 4, with a completion callback. -/
abbrev exampleConnection : ConnectionState := .initial (.initial ∅ 8) 4 [.writeCompleteCallback]

theorem outgoing_stream_nestedWrites : ∃ s os,
    connection.run exampleConnection nestedWrites = some (s, os) ∧ s.self.unsent = [4, 5, 6] ∧
      os.flatMap Shown.handed ++ s.self.unsent =
        (List.zipWith ConnectionStep.accepted nestedWrites os).flatten ∧
      (s.self.isWriting = true ↔ s.self.unsent ≠ []) := by
  have hsome : (connection.run exampleConnection nestedWrites).isSome := by decide +kernel
  obtain ⟨⟨s, os⟩, hrun⟩ := Option.isSome_iff_exists.mp hsome
  have hunsent : (connection.run exampleConnection nestedWrites).map
      (fun p => p.1.self.unsent) = some [4, 5, 6] := by decide +kernel
  rw [hrun] at hunsent
  exact ⟨s, os, hrun, Option.some.inj hunsent, outgoing_stream hrun⟩

end PluginsEngine
