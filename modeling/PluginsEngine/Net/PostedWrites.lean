/-
  File:      PluginsEngine/Net/PostedWrites.lean
  Subject:   WRITES FROM OTHER THREADS (net/tcp/tcpConnect.cpp: writeInLoop; tcpServer.cpp:
             write(TcpConnect&, ..)).

  A thread that is not the one of a connection's loop writes to it through `writeInLoop`, which
  gives the loop a function that calls `write`. On the loop's own thread the function runs at
  once, past those that wait in the list; the handlers, on that thread, call `write` itself as
  well. The function holds the caller's pointer, and writes what it finds there when it runs. Here
  the loops of `loopRuns`, whose functions are such writes, and the threads of a server run
  together.

  * `posting` -- the two machines as one, on the same threads;
  * `PostingServer.Moves` -- everything a step can do;
  * `posting_moves` -- what a step is to either of them;
  * `Connection.Keeps` -- when a `write` that begins loses nothing;
  * `posted_writes_arrive` -- the socket and the backlog have what was written, in the order in
    which the writes begin, and the posted writes begin in the order in which they were posted.
-/
import PluginsEngine.Event.LoopRun
import PluginsEngine.Net.ServerStreams

namespace PluginsEngine

open Library

/-! ## 1. Loops and server together -/

/-- The function `writeInLoop` makes. It holds the bare pointers of the connection and of the
    caller's data, and the length: `data` are the bytes there when it is made. -/
structure PostedWrite where
  connect : ConnectId
  data : List UInt8
  deriving DecidableEq, Repr

/-- Nothing else is given to `runInLoop`; and the callback that a write may run may write. -/
def postedWrites : LoopProgram Nat PostedWrite := ⟨fun _ _ => true, fun _ _ _ => true⟩

/-- The loops, and the threads of a server with the streams of its connections. -/
structure PostingServer where
  loops : RunState Nat PostedWrite
  threads : ProtocolState × (ConnectId → Streams)

inductive PostingStep where
  /-- A step of the loops. Should it begin a write, it finds `found` at the caller's pointer, and
      the socket answers `a`. -/
  | loops (l : RunLabel Nat PostedWrite) (a : WriteAnswer) (found : List UInt8)
  | serving (l : ServingStep)

/-- A write that begins: what was given, and what is found at its pointer. -/
structure BegunWrite where
  call : PostedWrite
  found : List UInt8
  answer : WriteAnswer

/-- What `write` is called with, and what the socket answers. -/
def BegunWrite.write (w : BegunWrite) : PostedWrite × WriteAnswer :=
  (⟨w.call.connect, w.found⟩, w.answer)

/-- A handler's own `write`: nothing comes between. -/
def BegunWrite.atOnce (p : PostedWrite × WriteAnswer) : BegunWrite := ⟨p.1, p.1.data, p.2⟩

/-- What the loops show, and the write that begins, wherever it comes from. -/
structure WriteShown where
  loops : Option (LoopsShown Nat PostedWrite)
  begun : Option BegunWrite

/-- The function that a step of the loops begins: the next one of the list, or one that is given to
    `runInLoop` on the loop's own thread. -/
def begins : RunLabel Nat PostedWrite → Option (LoopsShown Nat PostedWrite) → Option PostedWrite
  | _, some (.started _ f) => some f
  | .step (.runInLoop (.loop i) j f), _ => if i = j then some f else none
  | _, _ => none

def ServingStep.write : ServingStep → Option (PostedWrite × WriteAnswer)
  | .threads (.write id data a) => some (⟨id, data⟩, a)
  | _ => none

namespace PostingServer

variable (s : PostingServer)

abbrev server : TcpServer := s.threads.1.server

/-- `writeInLoop` takes the loop of the connection; and the handlers of a wait come to their end
    before the functions. -/
def admits : RunLabel Nat PostedWrite → Prop
  | .step (.runInLoop _ j f) => f.connect < s.server.next ∧ (s.server.object f.connect).loop = j
  | .step (.runAllFunctionInLoop i) =>
    s.threads.1.handling i = [] ∧ (i = 0 → s.threads.1.acceptor = none)
  | _ => True

instance decidableAdmits : (l : RunLabel Nat PostedWrite) → Decidable (s.admits l)
  | .step l => by cases l <;> unfold admits <;> infer_instance
  | .run _ | .wait _ | .leave _ | .stop _ => inferInstanceAs (Decidable True)

/-- Loop `i` dispatches records, and is in no function. -/
def inWait (i : Nat) : Prop := s.loops.pc i = .inWait ∧ s.loops.loops.atRest i = true

instance decidableInWait (i : Nat) : Decidable (s.inWait i) :=
  inferInstanceAs (Decidable (_ ∧ _))

/-- `newConnected` and the callbacks run where their loop dispatches. -/
def mayServe : ServingStep → Prop
  | .threads (.accept _ _) | .threads .acceptor => s.inWait 0
  | .threads (.report id _) => s.inWait (s.server.object id).loop
  | .threads (.callback i _) => s.inWait i
  | .threads (.write _ _ _) | .threads (.shutdownWrite _) | .takeLine _ => True

instance decidableMayServe : (l : ServingStep) → Decidable (s.mayServe l)
  | .threads l => by cases l <;> unfold mayServe <;> infer_instance
  | .takeLine _ => inferInstanceAs (Decidable True)

end PostingServer

/-- A server whose application writes from any thread. -/
def posting : Machine PostingServer PostingStep WriteShown where
  step s
    | .loops l a found =>
      if s.admits l then
        match (loopRuns postedWrites).step s.loops l with
        | none => none
        | some (loops, shown) =>
          match begins l shown with
          | none => some ({ s with loops := loops }, ⟨shown, none⟩)
          | some f =>
            if found.length = f.data.length then
              match servingStreams.step s.threads (.threads (.write f.connect found a)) with
              | none => none
              | some (threads, _) => some (⟨loops, threads⟩, ⟨shown, some ⟨f, found, a⟩⟩)
            else none
      else none
    | .serving l =>
      if s.mayServe l then
        match servingStreams.step s.threads l with
        | none => none
        | some (threads, _) =>
          some ({ s with threads := threads }, ⟨none, l.write.map .atOnce⟩)
      else none

/-- The functions of loop `i` that are not begun yet. -/
def LoopsState.queued (s : LoopsState Nat PostedWrite) (i : Nat) : List PostedWrite :=
  (s.callbacks i).drop ((s.draining i).getD 0)

/-- The machine with all it has shown. -/
def postingLog : Machine (PostingServer × List WriteShown) PostingStep WriteShown :=
  posting.withHistory fun _ _ o log => log ++ [o]

/-! ## 2. What a step is to either machine -/

/-- **Everything a step can do**, with its guard. -/
inductive PostingServer.Moves (s : PostingServer) :
    PostingStep → PostingServer → WriteShown → Prop where
  | quiet (l : RunLabel Nat PostedWrite) (a : WriteAnswer) (found : List UInt8)
      (loops : RunState Nat PostedWrite) (shown : Option (LoopsShown Nat PostedWrite))
      (hadmits : s.admits l)
      (hloops : (loopRuns postedWrites).step s.loops l = some (loops, shown))
      (hbegins : begins l shown = none) :
      Moves s (.loops l a found) { s with loops := loops } ⟨shown, none⟩
  | begins (l : RunLabel Nat PostedWrite) (a : WriteAnswer) (found : List UInt8)
      (loops : RunState Nat PostedWrite) (shown : Option (LoopsShown Nat PostedWrite))
      (f : PostedWrite) (threads : ProtocolState × (ConnectId → Streams))
      (line : Option (List UInt8)) (hadmits : s.admits l)
      (hloops : (loopRuns postedWrites).step s.loops l = some (loops, shown))
      (hbegins : begins l shown = some f) (hlength : found.length = f.data.length)
      (hthreads : servingStreams.step s.threads (.threads (.write f.connect found a)) =
        some (threads, line)) :
      Moves s (.loops l a found) ⟨loops, threads⟩ ⟨shown, some ⟨f, found, a⟩⟩
  | serving (l : ServingStep) (threads : ProtocolState × (ConnectId → Streams))
      (line : Option (List UInt8)) (hmay : s.mayServe l)
      (hthreads : servingStreams.step s.threads l = some (threads, line)) :
      Moves s (.serving l) { s with threads := threads } ⟨none, l.write.map .atOnce⟩

section

variable {s s' : PostingServer} {l : PostingStep} {o : WriteShown}

theorem PostingServer.moves_of_step (hs : posting.step s l = some (s', o)) : s.Moves l s' o := by
  cases l with
  | loops l a found =>
    simp only [posting] at hs
    split at hs
    case isFalse => cases hs
    rename_i hadmits
    split at hs
    case h_1 => cases hs
    rename_i loops shown hloops
    split at hs
    · rename_i hnone
      cases hs
      exact .quiet l a found loops shown hadmits hloops hnone
    · rename_i f hbegins
      split at hs
      case isFalse => cases hs
      rename_i hlength
      split at hs
      case h_1 => cases hs
      rename_i threads line hthreads
      cases hs
      exact .begins l a found loops shown f threads line hadmits hloops hbegins hlength hthreads
  | serving l =>
    simp only [posting] at hs
    split at hs
    case isFalse => cases hs
    rename_i hmay
    split at hs
    case h_1 => cases hs
    rename_i threads line hthreads
    cases hs
    exact .serving l threads line hmay hthreads

/-- **A step is one of the loops, or none, and one of the server, or none**: it is one of the
    server exactly as far as a write begins or the server goes on by itself. -/
structure PostingMoves (s s' : PostingServer) (o : WriteShown) : Prop where
  loops : (∃ l, (loopRuns postedWrites).step s.loops l = some (s'.loops, o.loops)) ∨
    (s'.loops = s.loops ∧ o.loops = none)
  threads : (∃ k line, servingStreams.step s.threads k = some (s'.threads, line) ∧
      o.begun.map BegunWrite.write = k.write) ∨ (s'.threads = s.threads ∧ o.begun = none)
  started : ∀ i f, o.loops = some (.started i f) → ∃ w, o.begun = some w ∧ w.call = f
  length : ∀ w, o.begun = some w → w.found.length = w.call.data.length

theorem posting_moves (hs : posting.step s l = some (s', o)) : PostingMoves s s' o := by
  cases PostingServer.moves_of_step hs with
  | quiet l a found loops shown hadmits hloops hnone =>
    refine ⟨.inl ⟨l, hloops⟩, .inr ⟨rfl, rfl⟩, fun i f heq => ?_, fun w hw => by cases hw⟩
    dsimp only at heq
    rw [heq] at hnone
    cases hnone
  | begins l a found loops shown f threads line hadmits hloops hbegins hlength hthreads =>
    refine ⟨.inl ⟨l, hloops⟩, .inl ⟨_, line, hthreads, rfl⟩,
      fun i f' heq => ⟨_, rfl, ?_⟩, fun w hw => ?_⟩
    · dsimp only at heq
      rw [heq] at hbegins
      cases hbegins
      rfl
    · cases hw
      exact hlength
  | serving l threads line hmay hthreads =>
    refine ⟨.inr ⟨rfl, rfl⟩, .inl ⟨l, line, hthreads, ?_⟩, (fun i f heq => by cases heq),
      fun w hw => ?_⟩
    · exact (Option.map_map _ _ _).trans Option.map_id'
    · obtain ⟨p, -, rfl⟩ := Option.map_eq_some_iff.mp hw
      rfl

end

/-! ## 3. Writes that lose nothing -/

/-- **A `write` that begins loses nothing**: it has nothing to write, or it finds the connection
    not disconnected and the socket, if it is called, does not give it up. -/
def Connection.Keeps (c : Connection) (data : List UInt8) (a : WriteAnswer) : Prop :=
  data = [] ∨ (c.connect.state ≠ .Disconnected ∧ ¬ (c.direct ∧ a.fault))

instance Connection.decidableDirect (c : Connection) : Decidable c.direct :=
  inferInstanceAs (Decidable (_ ∧ _))

instance Connection.decidableKeeps (c : Connection) (data : List UInt8) (a : WriteAnswer) :
    Decidable (c.Keeps data a) :=
  inferInstanceAs (Decidable (_ ∨ _))

theorem Connection.accepted_beginWrite (c : Connection) (data : List UInt8) (a : WriteAnswer) :
    (ConnectionStep.write data a).accepted (c.beginWrite data a).2 =
      if c.direct ∧ a.fault then [] else data := by
  unfold beginWrite
  dsimp only
  by_cases hd : c.direct
  · have hcond : c.isWriting = false ∧ c.connect.writeBuf.isEmpty := hd
    rw [if_pos hcond]
    have hfault : (c.direct ∧ a.fault) = a.fault := propext ⟨And.right, fun h => ⟨hd, h⟩⟩
    simp only [hfault]
    split <;> rfl
  · have hcond : ¬ (c.isWriting = false ∧ c.connect.writeBuf.isEmpty) := hd
    rw [if_neg hcond, if_neg fun h => hd h.1]
    rfl

/-- What such a `write` puts into the stream of its connection is its data; any other puts nothing
    there. -/
theorem Connection.writeEffect_accepted (c : Connection) (data : List UInt8) (a : WriteAnswer) :
    (c.writeEffect data a).accepted = data ↔ c.Keeps data a := by
  have hempty : ([] : List UInt8) = data ↔ data = [] := eq_comm
  unfold writeEffect Keeps
  by_cases hstate : c.connect.state = .Disconnected
  · rw [if_pos hstate]
    exact hempty.trans ⟨.inl, fun h => h.elim id fun h => absurd hstate h.1⟩
  · rw [if_neg hstate]
    dsimp only
    rw [accepted_beginWrite]
    split
    · rename_i hlost
      exact hempty.trans ⟨.inl, fun h => h.elim id fun h => absurd hlost h.2⟩
    · rename_i hkept
      exact ⟨fun _ => .inr ⟨hstate, hkept⟩, fun _ => rfl⟩

/-- And any other accepts nothing. -/
theorem Connection.writeEffect_lost (c : Connection) {data : List UInt8} {a : WriteAnswer}
    (h : ¬ c.Keeps data a) : (c.writeEffect data a).accepted = [] := by
  unfold Keeps at h
  obtain ⟨-, hlost⟩ := not_or.mp h
  unfold writeEffect
  by_cases hstate : c.connect.state = .Disconnected
  · rw [if_pos hstate]
    rfl
  · rw [if_neg hstate]
    dsimp only
    rw [accepted_beginWrite, if_pos (not_not.mp fun hnot => hlost ⟨hstate, hnot⟩)]

/-- What a write that begins, if one does, adds to what is accepted for connection `id`. -/
def TcpServer.acceptedFor (s : TcpServer) (id : ConnectId) :
    Option (PostedWrite × WriteAnswer) → List UInt8
  | some (f, a) => if f.connect = id then ((s.connection id).writeEffect f.data a).accepted else []
  | none => []

theorem effect_accepted (s : ProtocolState) (k : ServingStep) (line : Option (List UInt8))
    (id : ConnectId) : (effect s k line id).accepted = s.server.acceptedFor id k.write := by
  cases k with
  | threads l =>
    cases l with
    | write id' data a =>
      show (if id' = id then _ else Streams.empty).accepted = if id' = id then _ else []
      split
      · rename_i heq
        rw [heq]
      · rfl
    | callback i io =>
      simp only [effect]
      split
      · rfl
      · rename_i cb _ _
        split
        · cases cb <;> rfl
        · rfl
    | accept sockfd addr => rfl
    | acceptor => rfl
    | report id' events => rfl
    | shutdownWrite id' => rfl
  | takeLine id' =>
    show (if id' = id then _ else Streams.empty).accepted = []
    split <;> rfl

/-! ## 4. The writes of a connection -/

/-- The data of the writes to connection `id`. -/
def dataFor (id : ConnectId) (fs : List PostedWrite) : List (List UInt8) :=
  fs.filterMap fun f => if f.connect = id then some f.data else none

theorem dataFor_append (id : ConnectId) (fs fs' : List PostedWrite) :
    dataFor id (fs ++ fs') = dataFor id fs ++ dataFor id fs' :=
  List.filterMap_append

/-- What the loops have shown. -/
abbrev loopsLog (log : List WriteShown) : List (Option (LoopsShown Nat PostedWrite)) :=
  log.map WriteShown.loops

/-- The writes that have begun, in order. -/
def writesBegun (log : List WriteShown) : List PostedWrite :=
  log.filterMap fun o => o.begun.map BegunWrite.call

/-- **The writes to a connection arrive.** What its socket was handed and what is queued behind it
    is the data that was given to the writes that have begun, in that order. Those that were posted
    to its loop have begun in the order of the posts, but for the last of them, which are in the
    loop's list; and where no others have begun, socket, backlog and list have what was posted, in
    order. -/
structure WritesKept (s : PostingServer × List WriteShown) (id : ConnectId) : Prop where
  stream : (s.1.threads.2 id).handed ++ s.1.server.unsent id =
    (dataFor id (writesBegun s.2)).flatten
  order : dataFor id (startedOn (s.1.server.object id).loop (loopsLog s.2)) ++
      dataFor id (s.1.loops.loops.queued (s.1.server.object id).loop) =
    dataFor id (postedOn (s.1.server.object id).loop (loopsLog s.2))
  begun : (dataFor id (startedOn (s.1.server.object id).loop (loopsLog s.2))).Sublist
    (dataFor id (writesBegun s.2))
  whole : dataFor id (writesBegun s.2) =
      dataFor id (startedOn (s.1.server.object id).loop (loopsLog s.2)) →
    (s.1.threads.2 id).handed ++ s.1.server.unsent id ++
        (dataFor id (s.1.loops.loops.queued (s.1.server.object id).loop)).flatten =
      (dataFor id (postedOn (s.1.server.object id).loop (loopsLog s.2))).flatten

/-- Each write that a step begins finds the data that was given, and loses nothing. -/
def LosesNothing (s : PostingServer × List WriteShown) (_ : PostingStep)
    (_ : PostingServer × List WriteShown) (o : WriteShown) : Prop :=
  ∀ w, o.begun = some w → w.found = w.call.data ∧
    (s.1.server.connection w.call.connect).Keeps w.found w.answer

instance decidableLosesNothing (s s' : PostingServer × List WriteShown) (l : PostingStep)
    (o : WriteShown) : Decidable (LosesNothing s l s' o) :=
  match hbegun : o.begun with
  | none => isTrue fun w heq => by
      rw [hbegun] at heq
      cases heq
  | some w =>
    decidable_of_iff (w.found = w.call.data ∧
        (s.1.server.connection w.call.connect).Keeps w.found w.answer)
      ⟨fun h w' heq => by
        rw [hbegun] at heq
        cases heq
        exact h, fun h => h w hbegun⟩

/-- **What every step keeps**, whatever the writes lose. -/
structure PostingSound (s : PostingServer × List WriteShown) : Prop where
  account : RunAccount postedWrites (loopsLog s.2) s.1.loops
  accounted : Accounted s.1.threads
  started : ∀ i, (startedOn i (loopsLog s.2)).Sublist (writesBegun s.2)

/-- And while they lose nothing, `write` has accepted their data. -/
structure PostingKept (s : PostingServer × List WriteShown) : Prop extends PostingSound s where
  accepted : ∀ id, (s.1.threads.2 id).accepted = (dataFor id (writesBegun s.2)).flatten

section

variable {s s' : PostingServer × List WriteShown} {l : PostingStep} {o : WriteShown}

theorem startedOn_eq_some {o : Option (LoopsShown Nat PostedWrite)} {i : Nat} {f : PostedWrite}
    (h : o.bind (·.startedOn i) = some f) : o = some (.started i f) := by
  obtain ⟨shown, rfl, hshown⟩ := Option.bind_eq_some_iff.mp h
  cases shown with
  | posted j g => cases hshown
  | started j g =>
    simp only [LoopsShown.startedOn] at hshown
    split at hshown
    · rename_i heq
      cases hshown
      rw [heq]
    · cases hshown

theorem runAccount_pause {os : List (Option (LoopsShown Nat PostedWrite))}
    {r : RunState Nat PostedWrite} (h : RunAccount postedWrites os r) :
    RunAccount postedWrites (os ++ [none]) r where
  hold := h.hold
  account i := (h.account i).step (.elsewhere (.run 0) none rfl rfl rfl)

theorem writesBegun_step (hs : postingLog.step s l = some (s', o)) :
    writesBegun s'.2 = writesBegun s.2 ++ (o.begun.map BegunWrite.call).toList := by
  obtain ⟨-, hlog⟩ := Machine.withHistory_step_iff.mp hs
  rw [hlog, writesBegun, List.filterMap_append]
  cases hb : o.begun <;> simp [writesBegun, hb]

theorem postingSound_step (h : PostingSound s) (hs : postingLog.step s l = some (s', o)) :
    PostingSound s' := by
  obtain ⟨hstep, hlog⟩ := Machine.withHistory_step_iff.mp hs
  have hmoves := posting_moves hstep
  have hloops : loopsLog s'.2 = loopsLog s.2 ++ [o.loops] := by
    rw [hlog]
    exact List.map_append
  refine ⟨?_, ?_, fun i => ?_⟩
  · rw [hloops]
    rcases hmoves.loops with ⟨k, hk⟩ | ⟨hsame, hnone⟩
    · exact runAccount_step h.account hk
    · rw [hsame, hnone]
      exact runAccount_pause h.account
  · rcases hmoves.threads with ⟨k, line, hk, -⟩ | ⟨hsame, -⟩
    · exact h.accounted.step hk
    · rw [hsame]
      exact h.accounted
  · rw [hloops, writesBegun_step hs, startedOn_append, startedOn_singleton]
    refine (h.started i).append ?_
    cases hf : o.loops.bind (·.startedOn i) with
    | none => exact List.nil_sublist _
    | some f =>
      -- what a loop begins is the write that begins
      obtain ⟨w, hbegun, rfl⟩ := hmoves.started i f (startedOn_eq_some hf)
      rw [hbegun]
      exact List.Sublist.refl _

/-- What the write that a step begins puts into the streams. -/
theorem accepted_step (hs : postingLog.step s l = some (s', o)) (id : ConnectId) :
    (s'.1.threads.2 id).accepted =
      (s.1.threads.2 id).accepted ++
        s.1.server.acceptedFor id (o.begun.map BegunWrite.write) := by
  obtain ⟨hstep, -⟩ := Machine.withHistory_step_iff.mp hs
  rcases (posting_moves hstep).threads with ⟨k, line, hk, hbegun⟩ | ⟨hsame, hbegun⟩
  · obtain ⟨-, hstreams⟩ := Machine.withHistory_step_iff.mp hk
    rw [hstreams, hbegun, ← effect_accepted s.1.threads.1 k line id]
    rfl
  · rw [hsame, hbegun]
    exact (List.append_nil _).symm

theorem dataFor_singleton (id : ConnectId) (f : PostedWrite) :
    (dataFor id [f]).flatten = if f.connect = id then f.data else [] := by
  by_cases heq : f.connect = id <;> simp [dataFor, heq]

/-- **A write that finds its data and loses nothing adds them**, and any other does not. The length
    is the one that was given: where there was nothing to write, nothing else is found. -/
theorem acceptedFor_eq (server : TcpServer) (id : ConnectId) {w : BegunWrite}
    (hlength : w.found.length = w.call.data.length) :
    server.acceptedFor id (some w.write) = (dataFor id [w.call]).flatten ↔
      (w.call.connect = id → w.found = w.call.data ∧
        (server.connection w.call.connect).Keeps w.found w.answer) := by
  rw [dataFor_singleton, TcpServer.acceptedFor, BegunWrite.write]
  by_cases heq : w.call.connect = id
  · rw [if_pos heq, if_pos heq, heq]
    constructor
    · intro hsame _
      by_cases hkeeps : (server.connection id).Keeps w.found w.answer
      · rw [((server.connection id).writeEffect_accepted _ _).mpr hkeeps] at hsame
        exact ⟨hsame, hkeeps⟩
      · -- a write that loses something accepts nothing: it was given nothing
        rw [(server.connection id).writeEffect_lost hkeeps] at hsame
        rw [← hsame] at hlength
        have hnil := List.eq_nil_of_length_eq_zero hlength
        exact absurd (.inl hnil) hkeeps
    · intro hok
      obtain ⟨hfound, hkeeps⟩ := hok rfl
      rw [((server.connection id).writeEffect_accepted _ _).mpr hkeeps, hfound]
  · rw [if_neg heq, if_neg heq]
    exact ⟨fun _ h => absurd h heq, fun _ => rfl⟩

/-- A write begins on a connection that has been constructed. -/
theorem connect_lt_of_begun {w : BegunWrite} (hs : postingLog.step s l = some (s', o))
    (hbegun : o.begun = some w) : w.call.connect < s'.1.server.next := by
  obtain ⟨hstep, -⟩ := Machine.withHistory_step_iff.mp hs
  rcases (posting_moves hstep).threads with ⟨k, line, hk, hwrite⟩ | ⟨-, hnone⟩
  · obtain ⟨hserving, -⟩ := Machine.withHistory_step_iff.mp hk
    rw [hbegun] at hwrite
    cases k with
    | takeLine id => cases hwrite
    | threads k =>
      cases k with
      | write id data a' =>
        obtain ⟨hcall, -⟩ := Prod.mk.inj (Option.some.inj hwrite)
        rw [show w.call.connect = id from congrArg PostedWrite.connect hcall]
        show id < s'.1.threads.1.server.next
        generalize s'.1.threads.1 = threads at hserving
        obtain ⟨⟨called, hmoves⟩, -⟩ := moves_of_serving hserving
        cases hmoves with
        | write _ _ _ hid =>
          exact hid.trans_eq (s.1.server.write_sameOwners id data a').next.symm
      | _ => cases hwrite
  · rw [hbegun] at hnone
    cases hnone

theorem postingKept_step (h : PostingKept s) (hs : postingLog.step s l = some (s', o))
    (hok : LosesNothing s l s' o) : PostingKept s' := by
  refine ⟨postingSound_step h.toPostingSound hs, fun id => ?_⟩
  rw [accepted_step hs id, writesBegun_step hs, dataFor_append, List.flatten_append, h.accepted id]
  refine congrArg (_ ++ ·) ?_
  cases hbegun : o.begun with
  | none => rfl
  | some w =>
    obtain ⟨hstep, -⟩ := Machine.withHistory_step_iff.mp hs
    exact (acceptedFor_eq _ id ((posting_moves hstep).length w hbegun)).mpr fun _ => hok w hbegun

theorem PostingKept.writesKept (h : PostingKept s) {id : ConnectId}
    (hid : id < s.1.server.next) : WritesKept s id := by
  have hstream : (s.1.threads.2 id).handed ++ s.1.server.unsent id =
      (dataFor id (writesBegun s.2)).flatten :=
    (h.accounted.outgoing id hid).trans (h.accepted id)
  have horder : dataFor id (startedOn (s.1.server.object id).loop (loopsLog s.2)) ++
        dataFor id (s.1.loops.loops.queued (s.1.server.object id).loop) =
      dataFor id (postedOn (s.1.server.object id).loop (loopsLog s.2)) := by
    rw [← dataFor_append]
    exact congrArg (dataFor id) (h.account.account _).order
  refine ⟨hstream, horder, (h.started _).filterMap _, fun hall => ?_⟩
  rw [hstream, hall, ← List.flatten_append, horder]

/-- **A step that loses data leaves the stream short of it.** -/
theorem losesNothing_of_writesKept (h : PostingKept s) (hs : postingLog.step s l = some (s', o))
    (hkept : ∀ id, id < s'.1.server.next → WritesKept s' id) : LosesNothing s l s' o := by
  intro w hbegun
  obtain ⟨hstep, -⟩ := Machine.withHistory_step_iff.mp hs
  have hid := connect_lt_of_begun hs hbegun
  have hstream := (hkept w.call.connect hid).stream
  rw [(postingSound_step h.toPostingSound hs).accounted.outgoing w.call.connect hid,
    accepted_step hs w.call.connect, writesBegun_step hs, dataFor_append, List.flatten_append,
    h.accepted w.call.connect, hbegun] at hstream
  exact (acceptedFor_eq _ w.call.connect ((posting_moves hstep).length w hbegun)).mp
    (List.append_cancel_left hstream) rfl

end

/-- Loops and a server, just constructed. -/
def PostingServer.initial (poolSize : Nat) (loops : Nat → World TcpCallback) : PostingServer :=
  ⟨.initial Nat PostedWrite, ⟨.initial poolSize loops, none, fun _ => []⟩, fun _ => .empty⟩

theorem postingKept_initial (poolSize : Nat) (loops : Nat → World TcpCallback) :
    PostingKept (.initial poolSize loops, []) where
  account := runAccount_initial postedWrites
  accounted := .initial poolSize loops
  started _ := List.Sublist.refl _
  accepted _ := rfl

/-- **What is written from any thread arrives, in order.** In every interleaving of any threads
    that post writes, handlers that write themselves on their loop's thread, the loops in their
    turns and the server at its work, every connection has its writes at every point, exactly when
    each write that begins finds at the caller's pointer what was posted, and its connection not
    disconnected and a socket that does not give it up, or has nothing to write. -/
theorem posted_writes_arrive (poolSize : Nat) (loops : Nat → World TcpCallback)
    (ls : List PostingStep) :
    postingLog.Along (fun _ _ s' _ => ∀ id, id < s'.1.server.next → WritesKept s' id)
        (.initial poolSize loops, []) ls ↔
      postingLog.Along LosesNothing (.initial poolSize loops, []) ls := by
  refine Machine.along_iff (I := PostingKept) (fun s l s' o h hs => ?_)
    (postingKept_initial poolSize loops)
  exact ⟨⟨losesNothing_of_writesKept h hs, fun hok id hid =>
    (postingKept_step h hs hok).writesKept hid⟩, postingKept_step h hs⟩

/-- A connection on the one worker of a server, which waits. Two threads post writes to it. -/
def twoThreadsPost : List PostingStep :=
  let step (l : LoopsStep Nat PostedWrite) : PostingStep := .loops (.step l) ⟨0, 0⟩ []
  let post (n : Nat) (f : PostedWrite) : List PostingStep :=
    [step (.runInLoop (.other n) 1 f), step (.lock (.other n)), step (.pushBack (.other n))]
  [.loops (.run 0) ⟨0, 0⟩ [], .loops (.wait 0) ⟨0, 0⟩ []] ++
    ([.accept 5 ⟨0x0700000a, 0x8813⟩, .acceptor, .acceptor, .acceptor, .acceptor,
      .acceptor] : List ProtocolStep).map (fun l => .serving (.threads l)) ++
    [.loops (.run 1) ⟨0, 0⟩ [], .loops (.wait 1) ⟨0, 0⟩ []] ++ post 0 ⟨0, [1, 2]⟩ ++ post 1 ⟨0, [3]⟩

/-- A handler writes before the worker gets to them; the socket takes its byte, and one more. -/
def workerWrites : List PostingStep :=
  let step (l : LoopsStep Nat PostedWrite) (found : List UInt8) : PostingStep :=
    .loops (.step l) ⟨1, 0⟩ found
  [.serving (.threads (.report 0 EPOLLIN)),
    .serving (.threads (.callback 1 ⟨⟨1, [7], 0⟩, ⟨0, 0⟩⟩)),
    step (.runInLoop (.loop 1) 1 ⟨0, [9]⟩) [9], step (.returns (.loop 1)) [],
    step (.runAllFunctionInLoop 1) [], step (.next 1) [1, 2], step (.returns (.loop 1)) [],
    step (.next 1) [3], step (.returns (.loop 1)) []]

theorem posted_writes_arrive_workerWrites : ∃ s os,
    postingLog.run (.initial 1 fun _ => .initial ∅ 8, [])
        (twoThreadsPost ++ workerWrites ++ [.loops (.step (.clear 1)) ⟨0, 0⟩ []]) = some (s, os) ∧
      WritesKept s 0 ∧ (s.1.threads.2 0).handed = [9, 1] ∧ s.1.server.unsent 0 = [2, 3] ∧
      dataFor 0 (postedOn 1 (loopsLog s.2)) = [[1, 2], [3]] := by
  have hend : (postingLog.run (.initial 1 fun _ => .initial ∅ 8, [])
      (twoThreadsPost ++ workerWrites ++ [.loops (.step (.clear 1)) ⟨0, 0⟩ []])).map (fun p =>
        ((p.1.1.threads.2 0).handed, p.1.1.server.unsent 0,
          dataFor 0 (postedOn 1 (loopsLog p.1.2)), p.1.1.server.next)) =
      some ([9, 1], [2, 3], [[1, 2], [3]], 1) := by decide +kernel
  have hnone : postingLog.Along LosesNothing (.initial 1 fun _ => .initial ∅ 8, [])
      (twoThreadsPost ++ workerWrites ++ [.loops (.step (.clear 1)) ⟨0, 0⟩ []]) := by decide +kernel
  obtain ⟨⟨s, os⟩, hrun, hseen⟩ := Option.map_eq_some_iff.mp hend
  obtain ⟨hhanded, hseen⟩ := Prod.mk.inj hseen
  obtain ⟨hunsent, hseen⟩ := Prod.mk.inj hseen
  obtain ⟨hposted, hnext⟩ := Prod.mk.inj hseen
  obtain ⟨_, _, _, -, -, hkept⟩ :=
    Machine.along_last ((posted_writes_arrive 1 _ _).mpr hnone) hrun
  exact ⟨s, os, hrun, hkept 0 (hnext ▸ Nat.zero_lt_one), hhanded, hunsent, hposted⟩

/-- The first thread uses its buffer again before the worker gets to it: the socket is handed the
    new bytes. -/
example : (postingLog.run (.initial 1 fun _ => .initial ∅ 8, [])
    (twoThreadsPost ++ [.loops (.step (.runAllFunctionInLoop 1)) ⟨0, 0⟩ [],
      .loops (.step (.next 1)) ⟨2, 0⟩ [8, 8]])).map (fun p =>
        ((p.1.1.threads.2 0).handed, dataFor 0 (writesBegun p.1.2))) =
    some ([8, 8], [[1, 2]]) := by decide +kernel

end PluginsEngine
