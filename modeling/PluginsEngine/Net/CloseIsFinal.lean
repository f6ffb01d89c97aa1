/-
  File:      PluginsEngine/Net/CloseIsFinal.lean
  Subject:   WHAT A CONNECTION DOES AFTER ITS CLOSE CALLBACK.

  `closeEvent` sets the state and runs `closeCallback`; the Event stays in the loop until the
  destructor runs, which is not before the application gives its reference up. `closingSession`
  is the session of a connection whose owner calls `connectedHandle` once, with the reports that
  its loop gives to `Event::handle`: a report runs its callbacks one by one, and what the user
  calls may come in between.

  * `performRead` -- `readEvent` with the call of `readv` it makes;
  * `Mask.reads` -- the reports that run `readEvent`;
  * `Tracks` -- a connection that was closed is disconnected, and stays so;
  * `closedForGood_iff_reports_in_time` -- the close callback runs at most once and is the last
    callback, and no read follows it, exactly when neither a report after it nor the rest of the
    one that closes runs `readEvent`;
  * `late_input_runs_messageCallback` -- after an end of stream, one more report of input.
-/
import PluginsEngine.Net.SharedLoops

namespace PluginsEngine

open Library

/-! ## 1. Reports, callback by callback -/

/-- What a step does outside: the call of `readv` it makes (the lengths offered, and the answer),
    and the callbacks of the user it invokes. -/
structure Performed where
  readv : Option (List Nat × ReadvAnswer)
  ran : List UserCallback
  deriving DecidableEq, Repr

namespace Connection

variable (s : Connection)

/-- `readEvent`, with its call of `readv`: `readFromIO` comes first, in every state. -/
def performRead (r : ReadvAnswer) : Connection × Performed :=
  let call := some (s.connect.readBuf.iovec, r)
  let (readBuf, n, _) := Buffer.readFromIO s.connect.readBuf r
  let s := { s with connect := { s.connect with readBuf := readBuf } }
  if n > 0 then (s, ⟨call, s.invoke .messageCallback⟩)
  else if n = 0 then (s.closeEvent.1, ⟨call, s.closeEvent.2⟩)
  else if r.errno = EWOULDBLOCK then (s, ⟨call, []⟩)
  else (s.closeEvent.1, ⟨call, s.closeEvent.2⟩)

/-- A callback of the Event, with the read it makes. -/
def perform (cb : TcpCallback) (io : IoAnswer) : Connection × Performed :=
  match cb with
  | .readEvent => s.performRead io.readv
  | .writeEvent => ((s.writeEvent io.write).1, ⟨none, (s.writeEvent io.write).2.ran⟩)
  | .errorEvent => (s.errorEvent.1, ⟨none, s.errorEvent.2⟩)
  | .closeEvent => (s.closeEvent.1, ⟨none, s.closeEvent.2⟩)

/-- Apart from that it is `readEvent`. -/
theorem performRead_eq (r : ReadvAnswer) :
    (s.performRead r).1 = (s.readEvent r).1 ∧ (s.performRead r).2.ran = (s.readEvent r).2 ∧
      (s.performRead r).2.readv = some (s.connect.readBuf.iovec, r) := by
  unfold performRead readEvent
  dsimp only
  split
  · exact ⟨rfl, rfl, rfl⟩
  · split
    · exact ⟨rfl, rfl, rfl⟩
    · split <;> exact ⟨rfl, rfl, rfl⟩

theorem perform_fst (cb : TcpCallback) (io : IoAnswer) :
    (s.perform cb io).1 = (s.runCallback cb io).1 := by
  cases cb with
  | readEvent => exact (s.performRead_eq io.readv).1
  | writeEvent | errorEvent | closeEvent => rfl

theorem perform_ran (cb : TcpCallback) (io : IoAnswer) :
    (s.perform cb io).2.ran = (s.runCallback cb io).2 := by
  cases cb with
  | readEvent => exact (s.performRead_eq io.readv).2.1
  | writeEvent | errorEvent | closeEvent => rfl

/-- **`readEvent` reads, in every state**, and nothing else does. -/
theorem perform_readv (cb : TcpCallback) (io : IoAnswer) :
    (s.perform cb io).2.readv = none ↔ cb ≠ .readEvent := by
  cases cb with
  | readEvent =>
    show (s.performRead io.readv).2.readv = none ↔ _
    rw [(s.performRead_eq io.readv).2.2]
    exact ⟨(fun h => by cases h), fun h => absurd rfl h⟩
  | writeEvent | errorEvent | closeEvent => exact ⟨fun _ => by decide, fun _ => rfl⟩

end Connection

/-- A connection, and the callbacks that `Event::handle` has still to run for it. -/
structure ReportingState where
  conn : ConnectionState
  due : List TcpCallback

inductive ReportingStep where
  /-- The user calls a method, or a callback of the user returns. -/
  | call (l : ConnectionStep)
  /-- The loop calls `handle(events)` of the Event. -/
  | report (events : Mask)
  /-- `handle` runs its next callback. -/
  | callback (io : IoAnswer)

def ConnectionStep.isCall : ConnectionStep → Bool
  | .write _ _ | .connectedHandle | .shutdownWrite | .callbackReturns => true
  | .writable _ | .readable _ | .error => false

/-- The session of a connection on its loop. -/
def reporting : Machine ReportingState ReportingStep Performed where
  step s
    | .call l =>
      if l.isCall then
        match session.step s.conn l with
        | none => none
        | some (conn, shown) => some ({ s with conn := conn }, ⟨none, shown.ran⟩)
      else none
    | .report events =>
      if s.due = [] then
        some ({ s with due := s.conn.self.event.handle events }, ⟨none, []⟩)
      else none
    | .callback io =>
      match s.due with
      | [] => none
      | cb :: due =>
        if s.conn.self.callbackFits cb io then
          let (self, performed) := s.conn.self.perform cb io
          some (⟨⟨self, performed.ran.map (fun _ => .nothing) ++ s.conn.running⟩, due⟩,
            performed)
        else none

/-- **Everything a step can do**, with its guard. -/
inductive ReportingState.Moves (s : ReportingState) :
    ReportingStep → ReportingState → Performed → Prop where
  | call (l : ConnectionStep) (conn' : ConnectionState) (shown : Shown)
      (hcall : l.isCall = true) (hs : session.step s.conn l = some (conn', shown)) :
      Moves s (.call l) { s with conn := conn' } ⟨none, shown.ran⟩
  | report (events : Mask) (hdone : s.due = []) :
      Moves s (.report events) { s with due := s.conn.self.event.handle events } ⟨none, []⟩
  | callback (io : IoAnswer) (cb : TcpCallback) (due : List TcpCallback)
      (hdue : s.due = cb :: due) (hfit : s.conn.self.callbackFits cb io) :
      Moves s (.callback io)
        ⟨⟨(s.conn.self.perform cb io).1,
          (s.conn.self.perform cb io).2.ran.map (fun _ => .nothing) ++ s.conn.running⟩, due⟩
        (s.conn.self.perform cb io).2

theorem ReportingState.moves_of_step {s s' : ReportingState} {l : ReportingStep} {o : Performed}
    (hs : reporting.step s l = some (s', o)) : s.Moves l s' o := by
  cases l with
  | call l =>
    simp only [reporting] at hs
    split at hs
    case isFalse => cases hs
    rename_i hcall
    split at hs
    case h_1 => cases hs
    rename_i conn' shown hstep
    cases hs
    exact .call l conn' shown hcall hstep
  | report events =>
    simp only [reporting] at hs
    split at hs
    case isFalse => cases hs
    rename_i hdone
    cases hs
    exact .report events hdone
  | callback io =>
    simp only [reporting] at hs
    split at hs
    · cases hs
    rename_i cb due hdue
    split at hs
    case isFalse => cases hs
    rename_i hfit
    cases hs
    exact .callback io cb due hdue hfit

/-! ## 2. What has happened so far -/

/-- `connected`: `connectedHandle` was called; `closed`: `closeCallback` was invoked. -/
structure CloseHistory where
  connected : Bool
  closed : Bool
  deriving DecidableEq, Repr

namespace CloseHistory

def record (_ : ReportingState) (l : ReportingStep) (o : Performed) (g : CloseHistory) :
    CloseHistory :=
  { connected := match l with
      | .call .connectedHandle => true
      | _ => g.connected
    closed := g.closed || decide (.closeCallback ∈ o.ran) }

/-- `connectedHandle` is called once. -/
def connectsOnce (s : ReportingState × CloseHistory) : ReportingStep → Prop
  | .call .connectedHandle => s.2.connected = false
  | _ => True

instance decidableConnectsOnce (s : ReportingState × CloseHistory) :
    (l : ReportingStep) → Decidable (connectsOnce s l)
  | .call .connectedHandle => inferInstanceAs (Decidable (s.2.connected = false))
  | .call (.write _ _) | .call (.writable _) | .call (.readable _) | .call .error
  | .call .shutdownWrite | .call .callbackReturns | .report _ | .callback _ =>
    inferInstanceAs (Decidable True)

/-- A connection just constructed. -/
def initial (loop : World TcpCallback) (fd : Int) (callbacks : List UserCallback) :
    ReportingState × CloseHistory :=
  (⟨.initial loop fd callbacks, []⟩, ⟨false, false⟩)

end CloseHistory

open CloseHistory

def closingSession : Machine (ReportingState × CloseHistory) ReportingStep Performed :=
  (reporting.withHistory CloseHistory.record).restrict connectsOnce

/-- The reports that run `readEvent`. -/
def Mask.reads (events : Mask) : Prop :=
  ¬ events.has EPOLLERR ∧ ((events.has EPOLLHUP ∧ ¬ events.has EPOLLIN) ∨
    events.has (EPOLLIN ||| EPOLLPRI ||| EPOLLRDHUP))

namespace CloseHistory

/-- **Close is final.** A step invokes the close callback at most once, and not at all when it was
    invoked before; after it, neither of the other callbacks is invoked and nothing is read. -/
structure ClosedForGood (s : ReportingState × CloseHistory) (_ : ReportingStep)
    (_ : ReportingState × CloseHistory) (o : Performed) : Prop where
  atMostOnce : o.ran.count .closeCallback ≤ 1
  notAgain : s.2.closed = true → .closeCallback ∉ o.ran
  noCallback : s.2.closed = true → .messageCallback ∉ o.ran ∧ .writeCompleteCallback ∉ o.ran
  noRead : s.2.closed = true → o.readv = none

/-- After the close callback `handle` does not get to a `readEvent`. -/
def NoReadDue (s : ReportingState × CloseHistory) (l : ReportingStep)
    (_ : ReportingState × CloseHistory) (_ : Performed) : Prop :=
  s.2.closed = true → ∀ io, l = .callback io → s.1.due.head? ≠ some .readEvent

/-- No report that runs `readEvent` is given to `handle` after the close callback; and none that
    closes the connection, with its close callback set, has a `readEvent` left to run. -/
structure ReportsInTime (s : ReportingState × CloseHistory) (l : ReportingStep)
    (_ : ReportingState × CloseHistory) (_ : Performed) : Prop where
  after : ∀ events, l = .report events → s.2.closed = true → ¬ events.reads
  during : ∀ io cb due, l = .callback io → s.1.due = cb :: due →
    s.1.conn.self.closes cb io → .closeCallback ∈ s.1.conn.self.connect.callbacks →
    .readEvent ∉ due

/-! ## 3. A closed connection is disconnected -/

structure Tracks (s : ReportingState × CloseHistory) : Prop where
  steady : s.1.conn.Steady
  reads : ∀ events, .readEvent ∈ s.1.conn.self.event.handle events ↔ events.reads
  connected : s.1.conn.self.connect.state ≠ .Disconnected → s.2.connected = true
  closed : s.2.closed = true →
    s.2.connected = true ∧ s.1.conn.self.connect.state = .Disconnected

theorem tracks_initial (loop : World TcpCallback) (fd : Int) (callbacks : List UserCallback) :
    Tracks (initial loop fd callbacks) where
  steady := ConnectionState.steady_initial loop fd callbacks
  reads events := by
    have hevent : (Connection.new loop fd callbacks).event =
        ⟨fd, 0, some .readEvent, some .writeEvent, some .errorEvent, some .closeEvent⟩ := by
      simp only [Connection.event, Connection.new, World.setReadCallback,
        World.setWriteCallback, World.setErrorCallback, World.setCloseCallback,
        World.newEvent_fst, World.setObject_self, World.addEvent_object, World.newEvent_self]
      rfl
    show .readEvent ∈ (Connection.new loop fd callbacks).event.handle events ↔ _
    rw [hevent]
    by_cases herr : events.has EPOLLERR
    · rw [Event.handle_of_error herr]
      exact ⟨(fun h => by cases List.mem_singleton.mp h), fun h => absurd herr h.1⟩
    · rw [Event.mem_handle_iff herr]
      constructor
      · rintro (⟨-, hin⟩ | ⟨hwrite, -⟩)
        · exact ⟨herr, hin⟩
        · cases hwrite
      · exact fun h => .inl ⟨rfl, h.2⟩
  connected hne := absurd rfl hne
  closed hclosed := by cases hclosed

/-- A call of a method closes nothing. -/
theorem closeCallback_not_mem_call {s s' : ConnectionState} {l : ConnectionStep} {o : Shown}
    (hcall : l.isCall = true) (hs : session.step s l = some (s', o)) :
    .closeCallback ∉ o.ran := by
  rcases session_cases hs with ⟨data, a, -, -, -, rfl⟩ | hc
  · exact List.not_mem_nil
  cases l with
  | write data a =>
    obtain ⟨-, -, -, rfl⟩ := ConnectionState.write_shown hc
    exact fun hin => by cases s.self.mem_invoke (s.self.mem_beginWrite_ran hin)
  | connectedHandle | shutdownWrite =>
    cases hc
    exact List.not_mem_nil
  | callbackReturns =>
    simp only [connection] at hc
    split at hc
    · cases hc
    · cases hc
      exact List.not_mem_nil
    · split at hc
      case isFalse => cases hc
      cases hc
      exact List.not_mem_nil
  | writable a | readable r | error => cases hcall

/-- A call changes the flags of the Event, and not its callbacks. -/
theorem ownEvent_call {s s' : ConnectionState} {l : ConnectionStep} {o : Shown}
    (hcall : l.isCall = true) (hs : session.step s l = some (s', o)) :
    OwnEvent s.self s'.self := by
  rcases session_cases hs with ⟨data, a, -, -, rfl, -⟩ | hc
  · exact .of_loop_eq rfl rfl
  cases l with
  | write data a =>
    simp only [connection] at hc
    split at hc
    case isFalse => cases hc
    split at hc
    · cases hc
      exact .finishWrite s.self _
    · cases hc
      exact .of_loop_eq rfl rfl
  | connectedHandle =>
    cases hc
    exact .connectedHandle s.self
  | shutdownWrite =>
    cases hc
    exact .shutdownWrite s.self
  | callbackReturns =>
    simp only [connection] at hc
    split at hc
    · cases hc
    · cases hc
      exact .of_loop_eq rfl rfl
    · split at hc
      case isFalse => cases hc
      cases hc
      exact .finishWrite s.self _
  | writable a | readable r | error => cases hcall

variable {s s' : ReportingState × CloseHistory} {l : ReportingStep} {o : Performed}

/-- What a step of the session is, and what it adds to the history. -/
theorem moves_of_step (hs : closingSession.step s l = some (s', o)) :
    connectsOnce s l ∧ s.1.Moves l s'.1 o ∧ s'.2 = record s.1 l o s.2 := by
  obtain ⟨honce, hstep⟩ := Machine.restrict_step_iff.mp hs
  obtain ⟨hstep, hhist⟩ := Machine.withHistory_step_iff.mp hstep
  exact ⟨honce, ReportingState.moves_of_step hstep, hhist⟩

theorem record_closed {s : ReportingState} {l : ReportingStep} {o : Performed}
    {g : CloseHistory} :
    (record s l o g).closed = true ↔ g.closed = true ∨ .closeCallback ∈ o.ran := by
  simp only [record, Bool.or_eq_true, decide_eq_true_eq]

theorem record_connected {s : ReportingState} {l : ReportingStep} {o : Performed}
    {g : CloseHistory} (hl : l ≠ .call .connectedHandle) :
    (record s l o g).connected = g.connected := by
  unfold record
  dsimp only
  split
  · exact absurd rfl hl
  · rfl

namespace Tracks

/-- The one call of `connectedHandle`: nothing was closed before it, and it closes nothing. -/
theorem connectedHandle (h : Tracks s)
    (hs : closingSession.step s (.call .connectedHandle) = some (s', o)) : Tracks s' := by
  obtain ⟨honce, hmoves, hhist⟩ := moves_of_step hs
  have hopen : s.2.closed ≠ true := fun hclosed => by
    have hconn := (h.closed hclosed).1
    rw [show s.2.connected = false from honce] at hconn
    cases hconn
  generalize hs' : s'.1 = t at hmoves
  cases hmoves with
  | call _ conn' shown hcall hstep =>
    refine ⟨?_, ?_, fun _ => by rw [hhist]; rfl, fun hclosed => absurd ?_ hopen⟩
    · rw [hs']
      exact h.steady.session_step hstep
    · rw [hs', (ownEvent_call hcall hstep).handle]
      exact h.reads
    · rw [hhist, record_closed] at hclosed
      exact hclosed.resolve_right (closeCallback_not_mem_call hcall hstep)

/-- Any other step: the state goes to `Disconnected` with the close callback, and stays there. -/
theorem other (h : Tracks s) (hs : closingSession.step s l = some (s', o))
    (hl : l ≠ .call .connectedHandle) (hsteady : s'.1.conn.Steady)
    (hown : OwnEvent s.1.conn.self s'.1.conn.self)
    (hstays : s.1.conn.self.connect.state = .Disconnected →
      s'.1.conn.self.connect.state = .Disconnected)
    (hcloses : .closeCallback ∈ o.ran → s.1.conn.self.connect.state ≠ .Disconnected ∧
      s'.1.conn.self.connect.state = .Disconnected) : Tracks s' := by
  obtain ⟨-, -, hhist⟩ := moves_of_step hs
  have hconnected : s'.2.connected = s.2.connected := by
    rw [hhist]
    exact record_connected hl
  refine ⟨hsteady, ?_, fun hne => ?_, fun hclosed => ?_⟩
  · rw [hown.handle]
    exact h.reads
  · rw [hconnected]
    exact h.connected fun hd => hne (hstays hd)
  · rw [hconnected]
    rw [hhist, record_closed] at hclosed
    rcases hclosed with hbefore | hnow
    · exact ⟨(h.closed hbefore).1, hstays (h.closed hbefore).2⟩
    · exact ⟨h.connected (hcloses hnow).1, (hcloses hnow).2⟩

theorem step (h : Tracks s) (hs : closingSession.step s l = some (s', o)) : Tracks s' := by
  obtain ⟨-, hmoves, -⟩ := moves_of_step hs
  obtain ⟨t, g⟩ := s'
  dsimp only at hmoves
  cases hmoves with
  | call k conn' shown hcall hstep =>
    by_cases hk : k = .connectedHandle
    · subst hk
      exact h.connectedHandle hs
    · have hmethod := ConnectionState.session_method hstep hk
      exact h.other hs (fun heq => hk (ReportingStep.call.inj heq)) (h.steady.session_step hstep)
        (ownEvent_call hcall hstep) hmethod.stays hmethod.closes
  | report events hdone =>
    exact h.other hs (fun heq => by cases heq) h.steady (.of_loop_eq rfl rfl) id
      fun hin => absurd hin List.not_mem_nil
  | callback io cb due hdue hfit =>
    have hlaw := s.1.conn.self.runCallback_law cb io
    have hran := s.1.conn.self.perform_ran cb io
    have hself := s.1.conn.self.perform_fst cb io
    refine h.other hs (fun heq => by cases heq) ⟨?_, fun f hf => ?_⟩ ?_ (fun hd => ?_) fun hin => ?_
    · show (s.1.conn.self.perform cb io).1.Steady
      rw [hself]
      exact Connection.runCallback_steady h.steady.self hfit
    · rcases List.mem_append.mp hf with hnew | hold
      · obtain ⟨_, -, hne⟩ := List.mem_map.mp hnew
        cases hne
      · exact h.steady.running f hold
    · show OwnEvent s.1.conn.self (s.1.conn.self.perform cb io).1
      rw [hself]
      exact .runCallback _ cb io
    · show (s.1.conn.self.perform cb io).1.connect.state = _
      rw [hself, hlaw.state, if_neg fun hcloses => hcloses.1 hd]
      exact hd
    · show _ ∧ (s.1.conn.self.perform cb io).1.connect.state = _
      rw [hran] at hin
      have hcloses := (hlaw.closeRan.mp hin).1
      rw [hself, hlaw.state, if_pos hcloses]
      exact ⟨hcloses.1, rfl⟩

/-! ## 4. When the close is final -/

/-- Behind the close a callback that is not `readEvent` runs nothing. -/
theorem perform_quiet (h : Tracks s) (hclosed : s.2.closed = true) {cb : TcpCallback}
    {io : IoAnswer} (hfit : s.1.conn.self.callbackFits cb io) (hcb : cb ≠ .readEvent) :
    (s.1.conn.self.perform cb io).2.ran = [] := by
  have hdisc := (h.closed hclosed).2
  cases cb with
  | readEvent => exact absurd rfl hcb
  | writeEvent => exact Connection.writeEvent_of_disconnected h.steady.self hdisc hfit
  | errorEvent | closeEvent =>
    exact congrArg Prod.snd (s.1.conn.self.closeEvent_of_disconnected hdisc)

theorem closedForGood (h : Tracks s) (hs : closingSession.step s l = some (s', o))
    (hok : NoReadDue s l s' o) : ClosedForGood s l s' o := by
  have hquiet : o.ran.length ≤ 1 ∧ (s.2.closed = true → o.ran = [] ∧ o.readv = none) := by
    obtain ⟨-, hmoves, -⟩ := moves_of_step hs
    generalize s'.1 = t at hmoves
    cases hmoves with
    | call k conn' shown hcall hstep =>
      constructor
      · by_cases hk : k = .connectedHandle
        · subst hk
          cases hstep
          exact Nat.zero_le 1
        · exact (ConnectionState.session_method hstep hk).one
      · intro hclosed
        refine ⟨ConnectionState.quiet_of_disconnected h.steady (h.closed hclosed).2 hstep
          fun r heq => ?_, rfl⟩
        rw [heq] at hcall
        cases hcall
    | report events hdone => exact ⟨Nat.zero_le 1, fun _ => ⟨rfl, rfl⟩⟩
    | callback io cb due hdue hfit =>
      constructor
      · rw [s.1.conn.self.perform_ran cb io]
        exact (s.1.conn.self.runCallback_law cb io).one
      · intro hclosed
        have hcb : cb ≠ .readEvent := fun heq => hok hclosed io rfl (by rw [hdue, heq]; rfl)
        exact ⟨h.perform_quiet hclosed hfit hcb,
          (s.1.conn.self.perform_readv cb io).mpr hcb⟩
  have hnone : ∀ cb, s.2.closed = true → cb ∉ o.ran := by
    intro cb hclosed hin
    rw [(hquiet.2 hclosed).1] at hin
    exact absurd hin List.not_mem_nil
  exact ⟨Nat.le_trans List.count_le_length hquiet.1, hnone _,
    fun hclosed => ⟨hnone _ hclosed, hnone _ hclosed⟩, fun hclosed => (hquiet.2 hclosed).2⟩

end Tracks

/-- **A `readEvent` behind the close reads.** -/
theorem noReadDue (hs : closingSession.step s l = some (s', o)) (hlaw : ClosedForGood s l s' o) :
    NoReadDue s l s' o := by
  rintro hclosed io rfl hhead
  have hnone := hlaw.noRead hclosed
  obtain ⟨-, hmoves, -⟩ := moves_of_step hs
  generalize s'.1 = t at hmoves
  cases hmoves with
  | callback _ cb due hdue hfit =>
    rw [hdue] at hhead
    exact (s.1.conn.self.perform_readv cb io).mp hnone (Option.some.inj hhead)

/-! ## 5. The reports -/

/-- The close callback was invoked, and `handle` has a `readEvent` left to run. -/
def Late (s : ReportingState × CloseHistory) : Prop :=
  s.2.closed = true ∧ .readEvent ∈ s.1.due

/-- What a step does to the callbacks that are due, and to what is known of the close. -/
theorem late_cases (h : Tracks s) (hs : closingSession.step s l = some (s', o)) :
    (Late s → NoReadDue s l s' o → Late s') ∧ (ReportsInTime s l s' o ∨ Late s') ∧
      (¬ Late s → ReportsInTime s l s' o → ¬ Late s') := by
  obtain ⟨-, hmoves, hhist⟩ := moves_of_step hs
  have hclosed' : s'.2.closed = true ↔ s.2.closed = true ∨ .closeCallback ∈ o.ran := by
    rw [hhist, record_closed]
  generalize hs' : s'.1 = t at hmoves
  cases hmoves with
  | call k conn' shown hcall hstep =>
    have hnot := closeCallback_not_mem_call hcall hstep
    have hiff : Late s' ↔ Late s := by
      unfold Late
      rw [hclosed', hs']
      exact and_congr_left fun _ => or_iff_left hnot
    exact ⟨fun hlate _ => hiff.mpr hlate, .inl ⟨(fun _ heq => by cases heq), fun _ _ _ heq => by
      cases heq⟩, fun hno _ hlate => hno (hiff.mp hlate)⟩
  | report events hdone =>
    have hsame : s'.2.closed = true ↔ s.2.closed = true := by
      rw [hclosed']
      exact or_iff_left List.not_mem_nil
    have hlate' : Late s' ↔ s.2.closed = true ∧ events.reads := by
      unfold Late
      rw [hsame, hs', ← h.reads events]
    refine ⟨fun hlate _ => ?_, ?_, fun _ hok hlate => ?_⟩
    · rw [Late, hdone] at hlate
      exact absurd hlate.2 List.not_mem_nil
    · rw [hlate']
      by_cases hbad : s.2.closed = true ∧ events.reads
      · exact .inr hbad
      · refine .inl ⟨?_, fun _ _ _ heq => by cases heq⟩
        rintro _ ⟨rfl⟩ hclosed hreads
        exact hbad ⟨hclosed, hreads⟩
    · obtain ⟨hclosed, hreads⟩ := hlate'.mp hlate
      exact hok.after events rfl hclosed hreads
  | callback io cb due hdue hfit =>
    have hcloses := (s.1.conn.self.runCallback_law cb io).closeRan
    rw [← s.1.conn.self.perform_ran cb io] at hcloses
    have hlate' : Late s' ↔ s'.2.closed = true ∧ .readEvent ∈ due := by
      unfold Late
      rw [hs']
    refine ⟨fun hlate hno => ?_, ?_, fun hno hok hlate => ?_⟩
    · rw [hlate', hclosed']
      have hin : .readEvent ∈ cb :: due := hdue ▸ hlate.2
      refine ⟨.inl hlate.1, (List.mem_cons.mp hin).resolve_left fun heq => ?_⟩
      exact hno hlate.1 io rfl (by rw [hdue, heq]; rfl)
    · by_cases hlate : Late s'
      · exact .inr hlate
      · refine .inl ⟨(fun _ heq => by cases heq), ?_⟩
        rintro _ cb' due' ⟨rfl⟩ hdue' hcl hset hin
        cases hdue.symm.trans hdue'
        exact hlate (hlate'.mpr ⟨hclosed'.mpr (.inr (hcloses.mpr ⟨hcl, hset⟩)), hin⟩)
    · obtain ⟨hclosed, hin⟩ := hlate'.mp hlate
      rcases hclosed'.mp hclosed with hbefore | hnow
      · exact hno ⟨hbefore, by rw [hdue]; exact List.mem_cons_of_mem _ hin⟩
      · obtain ⟨hcl, hset⟩ := hcloses.mp hnow
        exact hok.during io cb due rfl hdue hcl hset hin

/-- Where neither is late, `handle` gets to no `readEvent`. -/
theorem noReadDue_of_not_late (hno : ¬ Late s) : NoReadDue s l s' o := by
  rintro hclosed io rfl hhead
  exact hno ⟨hclosed, List.mem_of_head? hhead⟩

end CloseHistory

open CloseHistory

/-- **Close is final exactly where the reports come in time.** For every run of a connection, with
    any reports and any answers of the system calls: the close callback is invoked at most once,
    and no callback and no read follows it, if and only if `handle` gets to no `readEvent` after
    it. It gets to none where no report that runs `readEvent` is given to it after the close
    callback, and none that closes has a `readEvent` left; and in a run whose last report has run
    all its callbacks, only there. -/
theorem closedForGood_iff_reports_in_time (loop : World TcpCallback) (fd : Int)
    (callbacks : List UserCallback) (ls : List ReportingStep) :
    (closingSession.Along ClosedForGood (CloseHistory.initial loop fd callbacks) ls ↔
        closingSession.Along NoReadDue (CloseHistory.initial loop fd callbacks) ls) ∧
      (closingSession.Along ReportsInTime (CloseHistory.initial loop fd callbacks) ls →
        closingSession.Along ClosedForGood (CloseHistory.initial loop fd callbacks) ls) ∧
      ∀ t os, closingSession.run (CloseHistory.initial loop fd callbacks) ls = some (t, os) →
        t.1.due = [] →
        (closingSession.Along ClosedForGood (CloseHistory.initial loop fd callbacks) ls ↔
          closingSession.Along ReportsInTime (CloseHistory.initial loop fd callbacks) ls) := by
  have htracks := tracks_initial loop fd callbacks
  have henough : closingSession.Along ReportsInTime (CloseHistory.initial loop fd callbacks) ls →
      closingSession.Along ClosedForGood (CloseHistory.initial loop fd callbacks) ls :=
    Machine.along_mono (I := fun s => Tracks s ∧ ¬ Late s)
      (fun s l s' o h hs hok => ⟨⟨h.1.step hs, (late_cases h.1 hs).2.2 h.2 hok⟩,
        h.1.closedForGood hs (noReadDue_of_not_late h.2)⟩)
      ⟨htracks, fun hlate => by cases hlate.1⟩
  refine ⟨Machine.along_iff (I := Tracks) (fun _ _ _ _ h hs => ⟨⟨noReadDue hs,
    h.closedForGood hs⟩, fun _ => h.step hs⟩) htracks, henough, fun t os hrun hdue => ?_⟩
  refine ⟨fun hlaw => ?_, henough⟩
  refine Machine.along_of_not_spoilt (I := Tracks) (S := Late) (fun s l s' o h hs hlaw => ?_)
    htracks hlaw hrun fun hlate => ?_
  · exact ⟨h.step hs, fun hlate => (late_cases h hs).1 hlate (noReadDue hs hlaw),
      (late_cases h hs).2.1⟩
  · rw [Late, hdue] at hlate
    exact absurd hlate.2 List.not_mem_nil

/-- The peer ends the stream; the application keeps the connection; input is reported again. -/
def endOfStream : List ReportingStep :=
  [.call .connectedHandle, .report EPOLLIN, .callback ⟨⟨0, [], 0⟩, ⟨0, 0⟩⟩,
    .call .callbackReturns, .report EPOLLIN]

/-- The last report of this run has run all its callbacks, one of them too late. -/
theorem closedForGood_iff_reports_in_time_endOfStream : ∃ t os,
    closingSession.run (CloseHistory.initial (.initial ∅ 8) 4 [.messageCallback, .closeCallback])
        (endOfStream ++ [.callback ⟨⟨1, [7], 0⟩, ⟨0, 0⟩⟩]) = some (t, os) ∧ t.1.due = [] ∧
      (closingSession.Along ClosedForGood
          (CloseHistory.initial (.initial ∅ 8) 4 [.messageCallback, .closeCallback])
          (endOfStream ++ [.callback ⟨⟨1, [7], 0⟩, ⟨0, 0⟩⟩]) ↔
        closingSession.Along ReportsInTime
          (CloseHistory.initial (.initial ∅ 8) 4 [.messageCallback, .closeCallback])
          (endOfStream ++ [.callback ⟨⟨1, [7], 0⟩, ⟨0, 0⟩⟩])) := by
  have hdue : (closingSession.run
      (CloseHistory.initial (.initial ∅ 8) 4 [.messageCallback, .closeCallback])
      (endOfStream ++ [.callback ⟨⟨1, [7], 0⟩, ⟨0, 0⟩⟩])).map (fun p => p.1.1.due) =
      some [] := by decide +kernel
  obtain ⟨⟨t, os⟩, hrun, hdone⟩ := Option.map_eq_some_iff.mp hdue
  exact ⟨t, os, hrun, hdone,
    (closedForGood_iff_reports_in_time _ _ _ _).2.2 t os hrun hdone⟩

/-- **Late input runs the message callback**: it does so after the close callback, in a run that
    ends with one more read. -/
theorem late_input_runs_messageCallback :
    (closingSession.run (CloseHistory.initial (.initial ∅ 8) 4 [.messageCallback, .closeCallback])
        (endOfStream ++ [.callback ⟨⟨1, [7], 0⟩, ⟨0, 0⟩⟩])).map (fun p => p.2.map Performed.ran) =
        some [[], [], [.closeCallback], [], [], [.messageCallback]] ∧
      ¬ closingSession.Along ClosedForGood
        (CloseHistory.initial (.initial ∅ 8) 4 [.messageCallback, .closeCallback])
        (endOfStream ++ [.callback ⟨⟨1, [7], 0⟩, ⟨0, 0⟩⟩]) := by
  let start := CloseHistory.initial (.initial ∅ 8) 4 [.messageCallback, .closeCallback]
  refine ⟨by decide +kernel, fun h => ?_⟩
  have hsome : (closingSession.run start
      (endOfStream ++ [.callback ⟨⟨1, [7], 0⟩, ⟨0, 0⟩⟩])).map (fun p => p.2.map Performed.ran) =
      some [[], [], [.closeCallback], [], [], [.messageCallback]] := by decide +kernel
  obtain ⟨⟨t, os⟩, hrun, -⟩ := Option.map_eq_some_iff.mp hsome
  obtain ⟨s, os', o, hbefore, hlast, hlaw⟩ := Machine.along_last h hrun
  have hstate : (closingSession.run start endOfStream).map (fun p =>
      (p.1.2.closed, p.1.1.due)) = some (true, [.readEvent]) := by
    decide +kernel
  rw [hbefore] at hstate
  obtain ⟨hclosed, hdue⟩ := Prod.mk.inj (Option.some.inj hstate)
  have hdue' : s.1.due = [.readEvent] := hdue
  exact noReadDue hlast hlaw hclosed _ rfl (by rw [hdue']; rfl)

/-- A single report is enough: a hang-up with `EPOLLRDHUP` runs `readEvent` twice, and the second
    one reads behind the close callback of the first. -/
example : (closingSession.run
    (CloseHistory.initial (.initial ∅ 8) 4 [.messageCallback, .closeCallback])
    [.call .connectedHandle, .report (EPOLLHUP ||| EPOLLRDHUP), .callback ⟨⟨0, [], 0⟩, ⟨0, 0⟩⟩,
      .call .callbackReturns, .callback ⟨⟨0, [], 0⟩, ⟨0, 0⟩⟩]).map
      (fun p => p.2.map fun o => (o.readv.isSome, o.ran)) =
    some [(false, []), (false, []), (true, [.closeCallback]), (false, []), (true, [])] := by
  decide +kernel

end PluginsEngine
