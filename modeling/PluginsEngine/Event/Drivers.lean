/-
  File:      PluginsEngine/Event/Drivers.lean
  Subject:   TWO WAYS TO DRIVE A LOOP (event/eventLoop.cpp: run and handleEvent; the latter is
             what Engine::waitAndHandleEvents calls).

  Here the callbacks are run, not only named: `effect` says what executing a function does to the
  loop's Events, to its `running` flag and to the rest of the program. One call of a driver is
  given the records its wait returned and the functions other threads have queued by the time the
  records are dispatched.

  * `EventLoop.handle`, `EventLoop.waitAndRunHandler` -- dispatch with its callbacks run, each
    callback slot read when its turn comes; `handle_ran` relates it to `Event.handle`;
  * `EventLoop.iteration` -- one turn of `run`: the records, then the queue;
    `EventLoop.handleEvent` -- the records alone;
  * `sameWork_iff_nothing_queued` -- the two do the same work exactly when nothing is queued;
  * `handleEvents_callbacks` -- a loop driven by `handleEvent` never runs what is queued;
  * `queued_function_stays` -- one function queued, no record.
-/
import PluginsEngine.Event.EventCtrl

namespace PluginsEngine

variable {κ α : Type}

/-- What the functions of a program see and change: the loop's Events, its flag, and everything
    else. -/
structure LoopCore (κ α : Type) where
  world : World κ
  running : Bool
  rest : α

/-- An event loop: what its functions see, the queue and the thread it was made on. -/
structure EventLoop (κ α : Type) where
  core : LoopCore κ α
  callbacks : List κ
  threadId : Nat

namespace EventLoop

section

variable (effect : κ → LoopCore κ α → LoopCore κ α)

/-! ## 1. Dispatch -/

/-- A callback slot: nothing happens when it is empty. -/
def invoke (callback : Option κ) (c : LoopCore κ α) : LoopCore κ α × List κ :=
  match callback with
  | none => (c, [])
  | some f => (effect f c, [f])

/-- `Event::handle` of the object `e`, and the functions it ran. -/
def handle (e : EventId) (events : Mask) (c : LoopCore κ α) : LoopCore κ α × List κ :=
  if events.has EPOLLERR then invoke effect (c.world.object e).errorCallback c
  else
    let hup := if events.has EPOLLHUP ∧ ¬ events.has EPOLLIN then
      invoke effect (c.world.object e).readCallback c else (c, [])
    let read := if events.has (EPOLLIN ||| EPOLLPRI ||| EPOLLRDHUP) then
      invoke effect (hup.1.world.object e).readCallback hup.1 else (hup.1, [])
    let write := if events.has EPOLLOUT then
      invoke effect (read.1.world.object e).writeCallback read.1 else (read.1, [])
    (write.1, hup.2 ++ read.2 ++ write.2)

/-- `EventCtrl::waitAndRunHandler` over the records of one wait. -/
def waitAndRunHandler : List EpollEvent → LoopCore κ α → LoopCore κ α × List κ
  | [], c => (c, [])
  | r :: rest, c =>
    match c.world.dispatch r with
    | (w, none) => waitAndRunHandler rest { c with world := w }
    | (w, some e) =>
      let handled := handle effect e r.events { c with world := w }
      let others := waitAndRunHandler rest handled.1
      (others.1, handled.2 ++ others.2)

/-! ## 2. The queue and the drivers -/

/-- `runInLoop` on the thread `thread`, and what it ran at once. -/
def runInLoop (thread : Nat) (callback : κ) (l : EventLoop κ α) : EventLoop κ α × List κ :=
  if thread = l.threadId then ({ l with core := effect callback l.core }, [callback])
  else ({ l with callbacks := l.callbacks ++ [callback] }, [])

/-- `runAllFunctionInLoop`: the mutex keeps the others from the queue meanwhile. -/
def runAllFunctionInLoop (l : EventLoop κ α) : EventLoop κ α × List κ :=
  ({ l with core := l.callbacks.foldl (fun c f => effect f c) l.core, callbacks := [] },
    l.callbacks)

/-- `handleEvent`: the wait, during which other threads queue `posted`, and the dispatch. -/
def handleEvent (records : List EpollEvent) (posted : List κ) (l : EventLoop κ α) :
    EventLoop κ α × List κ :=
  let handled := waitAndRunHandler effect records l.core
  ({ l with core := handled.1, callbacks := l.callbacks ++ posted }, handled.2)

/-- The body of the loop of `run`. -/
def iteration (records : List EpollEvent) (posted : List κ) (l : EventLoop κ α) :
    EventLoop κ α × List κ :=
  let handled := waitAndRunHandler effect records l.core
  let drained := runAllFunctionInLoop effect
    { l with core := handled.1, callbacks := l.callbacks ++ posted }
  (drained.1, handled.2 ++ drained.2)

/-- Calls of `handleEvent`, one after the other. -/
def handleEvents : List (List EpollEvent × List κ) → EventLoop κ α → EventLoop κ α × List κ
  | [], l => (l, [])
  | (records, posted) :: rest, l =>
    let first := handleEvent effect records posted l
    let others := handleEvents rest first.1
    (others.1, first.2 ++ others.2)

/-! ## 3. The law -/

/-- **The same work**: both drivers end in the same state and execute the same functions; and
    either of them executes the functions queued before the call, once and in queue order, when
    the handlers have run. -/
structure SameWork (records : List EpollEvent) (posted : List κ) (l : EventLoop κ α) : Prop where
  state : (handleEvent effect records posted l).1 = (iteration effect records posted l).1
  executed : (handleEvent effect records posted l).2 = (iteration effect records posted l).2
  queuedByHandleEvent : ∃ later, (handleEvent effect records posted l).2 =
    (waitAndRunHandler effect records l.core).2 ++ l.callbacks ++ later
  queuedByRun : ∃ later, (iteration effect records posted l).2 =
    (waitAndRunHandler effect records l.core).2 ++ l.callbacks ++ later

variable {effect}

/-- With an empty queue `runAllFunctionInLoop` does nothing. -/
theorem runAllFunctionInLoop_of_empty {l : EventLoop κ α} (h : l.callbacks = []) :
    runAllFunctionInLoop effect l = (l, []) := by
  obtain ⟨core, callbacks, threadId⟩ := l
  dsimp only at h
  subst h
  rfl

/-- **A loop driven from outside never runs its queue**: after any calls of `handleEvent` it holds
    everything it held, and everything queued since, in order. -/
theorem handleEvents_callbacks (calls : List (List EpollEvent × List κ)) (l : EventLoop κ α) :
    (handleEvents effect calls l).1.callbacks =
      l.callbacks ++ (calls.map Prod.snd).flatten := by
  induction calls generalizing l with
  | nil => exact (List.append_nil _).symm
  | cons call rest ih =>
    obtain ⟨records, posted⟩ := call
    show (handleEvents effect rest (handleEvent effect records posted l).1).1.callbacks = _
    rw [ih, List.map_cons, List.flatten_cons, ← List.append_assoc]
    rfl

/-- Where the callbacks leave the object itself alone, `handle` runs what `Event.handle` lists. -/
theorem handle_ran {e : EventId} (events : Mask) {c : LoopCore κ α}
    (hkeeps : ∀ f c', (effect f c').world.object e = c'.world.object e) :
    (handle effect e events c).2 = (c.world.object e).handle events := by
  have hinvoke : ∀ (callback : Option κ) (c' : LoopCore κ α),
      (invoke effect callback c').2 = callback.toList ∧
        (invoke effect callback c').1.world.object e = c'.world.object e := by
    intro callback c'
    cases callback with
    | none => exact ⟨rfl, rfl⟩
    | some f => exact ⟨rfl, hkeeps f c'⟩
  have hslot : ∀ (p : Prop) [Decidable p] (callback : Option κ) (c' : LoopCore κ α),
      (if p then invoke effect callback c' else (c', [])).2 =
          (if p then callback.toList else []) ∧
        (if p then invoke effect callback c' else (c', [])).1.world.object e =
          c'.world.object e := by
    intro p _ callback c'
    split
    · exact hinvoke callback c'
    · exact ⟨rfl, rfl⟩
  unfold handle Event.handle
  split
  · exact (hinvoke _ _).1
  · simp only [(hslot _ _ _).1, (hslot _ _ _).2]

end

/-- **Both drivers do the same work exactly when nothing is queued.** For every program, every
    state of the loop, every batch of records and all functions other threads queue meanwhile: a
    call of `handleEvent` and a turn of `run` lead to the same state, execute the same functions
    and serve the queue, if and only if nothing was queued before the call or during it. -/
theorem sameWork_iff_nothing_queued (effect : κ → LoopCore κ α → LoopCore κ α)
    (records : List EpollEvent) (posted : List κ) (l : EventLoop κ α) :
    SameWork effect records posted l ↔ l.callbacks = [] ∧ posted = [] := by
  constructor
  · intro h
    -- `run` leaves an empty queue, `handleEvent` leaves it as it was
    have hqueue : l.callbacks ++ posted = [] := congrArg EventLoop.callbacks h.state
    exact List.append_eq_nil_iff.mp hqueue
  · intro h
    obtain ⟨hc, hp⟩ := h
    have hempty : l.callbacks ++ posted = [] := List.append_eq_nil_iff.mpr ⟨hc, hp⟩
    have hsame : iteration effect records posted l = handleEvent effect records posted l := by
      unfold iteration
      dsimp only
      rw [runAllFunctionInLoop_of_empty hempty, List.append_nil]
      rfl
    have hserved : (handleEvent effect records posted l).2 =
        (waitAndRunHandler effect records l.core).2 ++ l.callbacks ++ [] := by
      rw [hc, List.append_nil, List.append_nil]
      rfl
    exact ⟨congrArg Prod.fst hsame.symm, congrArg Prod.snd hsame.symm, ⟨[], hserved⟩,
      ⟨[], (congrArg Prod.snd hsame).trans hserved⟩⟩

/-- A loop made on thread 0 with the function 7 queued by thread 1. Executing a function counts
    it. -/
def queuedLoop : EventLoop Nat Nat :=
  (runInLoop (fun _ c => { c with rest := c.rest + 1 }) 1 7
    ⟨⟨World.initial ∅ 8, true, 0⟩, [], 0⟩).1

/-- **A queued function stays queued**: with no record to dispatch, a turn of `run` executes
    function 7, and `handleEvent` does not. -/
theorem queued_function_stays :
    (iteration (fun _ c => { c with rest := c.rest + 1 }) [] [] queuedLoop).2 = [7] ∧
      (handleEvent (fun _ c => { c with rest := c.rest + 1 }) [] [] queuedLoop).2 = [] ∧
      ¬ SameWork (fun _ c => { c with rest := c.rest + 1 }) [] [] queuedLoop :=
  ⟨rfl, rfl, fun h => absurd h.executed (by decide)⟩

end EventLoop

end PluginsEngine
