/-
  File:      PluginsEngine/Adapter/IOContextAdapter.lean
  Subject:   THE ADAPTER TO boost::asio (adapter/IOContextAdapter.cpp).

  A `StreamDesc` is one registered descriptor. boost::asio stands for three things: the waits that
  are outstanding on a stream descriptor, how often `handleCollectEvents` is queued, and the order
  in which its handlers run, one after the other. A handler that belongs to a descriptor which was
  deleted finds its weak pointer expired and returns, so it is not kept.

  * `add`, `modify`, `del`, `waitAsync`, `handleAndWait` -- the members of the adapter;
  * `collect` and `Adapter.rearm` -- `handleCollectEvents` up to the call of the event handler and
    behind it: the event handler may call the adapter in between;
  * `adapter` -- the machine;
  * `waitAsync_waited`, `waitAsync_outstanding` -- what `waitAsync` starts.
-/
import PluginsEngine.Event.Event
import PluginsEngine.Library.FiniteMap
import PluginsEngine.Library.Runs

namespace PluginsEngine

open Library

namespace ComAPIEventLoop

def EVENT_IN : Mask := EPOLLIN
def EVENT_OUT : Mask := EPOLLOUT

end ComAPIEventLoop

namespace IOContextAdapter

open ComAPIEventLoop

variable {κ : Type}

/-! ## 1. One descriptor -/

def ERROR_EVENT : Mask := (1 : Mask) <<< (24 : Mask)

/-- What `async_wait` can wait for: `wait_read`, `wait_write` and `wait_error`. -/
inductive Wait where
  | read
  | write
  | error
  deriving DecidableEq, Repr

/-- The event that is bound to the completion of a wait. -/
def Wait.event : Wait → Mask
  | .read => EVENT_IN
  | .write => EVENT_OUT
  | .error => ERROR_EVENT

/-- A descriptor: `outstanding` counts its waits that have not completed, `posted` its queued
    calls of `handleCollectEvents`. -/
structure StreamDesc (κ : Type) where
  outstanding : Wait → Nat
  events : Mask
  eventHandler : κ
  eventHandlerPosted : Bool
  waitedEvents : Mask
  collectedEvents : Mask
  posted : Nat

namespace StreamDesc

/-- The constructor does not initialise `eventHandlerPosted`: it is whatever the memory held. -/
def new (events : Mask) (handler : κ) (memory : Bool) : StreamDesc κ where
  outstanding := fun _ => 0
  events := events
  eventHandler := handler
  eventHandlerPosted := memory
  waitedEvents := 0
  collectedEvents := 0
  posted := 0

/-- `async_wait`, and the event noted as waited for. -/
def asyncWait (d : StreamDesc κ) (w : Wait) : StreamDesc κ :=
  { d with
    outstanding := Function.update d.outstanding w (d.outstanding w + 1)
    waitedEvents := d.waitedEvents ||| w.event }

/-- One of the three conditional waits of `waitAsync`. -/
def arm (d : StreamDesc κ) (w : Wait) (wanted : Bool) : StreamDesc κ :=
  if wanted ∧ ¬ d.waitedEvents.has w.event then d.asyncWait w else d

def waitAsync (d : StreamDesc κ) : StreamDesc κ :=
  let d := d.arm .read (d.events.has EVENT_IN)
  let d := d.arm .write (d.events.has EVENT_OUT)
  d.arm .error true

/-- `handleAndWait` of a descriptor that is still there; `err` tells whether the wait failed. -/
def handleAndWait (d : StreamDesc κ) (err : Bool) (events : Mask) : StreamDesc κ :=
  if err then d
  else
    let d := { d with
      events := d.events &&& ~~~events
      collectedEvents := d.collectedEvents ||| events }
    if ¬ d.eventHandlerPosted then { d with eventHandlerPosted := true, posted := d.posted + 1 }
    else d

/-- A wait completes: it is not outstanding any more, and `handleAndWait` runs. -/
def complete (d : StreamDesc κ) (w : Wait) : StreamDesc κ :=
  { d with outstanding := Function.update d.outstanding w (d.outstanding w - 1) }.handleAndWait
    false w.event

/-- `handleCollectEvents` up to the call of the event handler, and the events that are passed to
    it. `polled` is what poll reports if it is asked: `revents`, or nothing when it does not
    return 1. -/
def collect (d : StreamDesc κ) (polled : Option Mask) : StreamDesc κ × Mask :=
  let collectedEvents := d.collectedEvents &&& ~~~ERROR_EVENT
  let hasErrorEvents := d.collectedEvents.has ERROR_EVENT
  ({ d with eventHandlerPosted := false, collectedEvents := 0, posted := d.posted - 1 },
    if hasErrorEvents then collectedEvents ||| polled.getD 0 else collectedEvents)

end StreamDesc

/-! ## 2. The adapter -/

/-- Whether an event handler is running: that of the descriptor `fd`, or that of a descriptor it
    deleted itself, which `is_open` then answers for. -/
inductive Delivery where
  | none
  | of (fd : Int)
  | ofDeleted
  deriving DecidableEq, Repr

structure Adapter (κ : Type) where
  map : Int → Option (StreamDesc κ)
  running : Delivery

/-- What a step shows: the text of the exception it throws, or the call of an event handler. -/
inductive Shown (κ : Type) where
  | returned
  | threw (what : String)
  | delivers (handler : κ) (events : Mask)
  deriving DecidableEq, Repr

namespace Adapter

def set (a : Adapter κ) (fd : Int) (d : Option (StreamDesc κ)) : Adapter κ :=
  { a with map := Function.update a.map fd d }

/-- `add` throws when the insertion took place; the entry stays. -/
def add (a : Adapter κ) (fd : Int) (events : Mask) (handler : κ) (memory : Bool) :
    Adapter κ × Shown κ :=
  match a.map fd with
  | none => (a.set fd (some (.new events handler memory)), .threw "add events failed")
  | some d => (a.set fd (some d.waitAsync), .returned)

def modify (a : Adapter κ) (fd : Int) (evnets : Mask) : Adapter κ × Shown κ :=
  match a.map fd with
  | none => (a, .threw "no this fd")
  | some d => (a.set fd (some { d with events := evnets }.waitAsync), .returned)

/-- `release` cancels the outstanding waits, and the entry goes. -/
def del (a : Adapter κ) (fd : Int) : Adapter κ × Shown κ :=
  match a.map fd with
  | none => (a, .threw "no this fd")
  | some _ =>
    ({ a.set fd none with running := if a.running = .of fd then .ofDeleted else a.running },
      .returned)

/-- The end of `handleCollectEvents`, when the event handler has returned. -/
def rearm (a : Adapter κ) : Adapter κ :=
  match a.running with
  | .of fd =>
    match a.map fd with
    | some d => { a.set fd (some d.waitAsync) with running := .none }
    | none => { a with running := .none }
  | _ => { a with running := .none }

end Adapter

inductive AdapterLabel (κ : Type) where
  | add (fd : Int) (events : Mask) (handler : κ) (memory : Bool)
  | modify (fd : Int) (evnets : Mask)
  | del (fd : Int)
  | complete (fd : Int) (w : Wait)
  | collect (fd : Int) (polled : Option Mask)
  | rearm

open Adapter in
/-- **The adapter.** `add` is of a descriptor that is not registered. A completion needs an
    outstanding wait, a collection a queued call; neither runs beside an event handler. -/
def adapter (κ : Type) : Machine (Adapter κ) (AdapterLabel κ) (Shown κ) where
  step a
    | .add fd events handler memory =>
      if (a.map fd).isNone then some (a.add fd events handler memory) else none
    | .modify fd evnets => some (a.modify fd evnets)
    | .del fd => some (a.del fd)
    | .complete fd w =>
      match a.map fd with
      | none => none
      | some d =>
        if a.running = .none ∧ 0 < d.outstanding w then
          some (a.set fd (some (d.complete w)), .returned)
        else none
    | .collect fd polled =>
      match a.map fd with
      | none => none
      | some d =>
        if a.running = .none ∧ 0 < d.posted then
          some ({ a.set fd (some (d.collect polled).1) with running := .of fd },
            .delivers d.eventHandler (d.collect polled).2)
        else none
    | .rearm => if a.running = .none then none else some (a.rearm, .returned)

/-- An adapter at its start. -/
def start (κ : Type) : Adapter κ := ⟨fun _ => none, .none⟩

/-! ## 3. What the members do to a descriptor -/

/-- The events of the three waits do not meet. -/
theorem event_disjoint {w w' : Wait} (h : w ≠ w') : w.event &&& w'.event = 0 := by
  revert h
  cases w <;> cases w' <;> decide

theorem has_or_event (m : Mask) (w w' : Wait) :
    Mask.has (m ||| w.event) w'.event = (m.has w'.event || decide (w = w')) := by
  by_cases h : w = w'
  · subst h
    have hne : w.event ≠ 0 := by cases w <;> decide
    simp only [Mask.has, Event.or_and_self_right, decide_true, Bool.or_true]
    exact bne_iff_ne.mpr hne
  · simp only [Mask.has, (Event.and_of_disjoint m (event_disjoint h)).1, decide_eq_false h,
      Bool.or_false]

@[simp] theorem Adapter.set_self (a : Adapter κ) (fd : Int) (d : Option (StreamDesc κ)) :
    (a.set fd d).map fd = d := Function.update_self _ _ _
theorem Adapter.set_of_ne (a : Adapter κ) {fd fd' : Int} (h : fd' ≠ fd)
    (d : Option (StreamDesc κ)) : (a.set fd d).map fd' = a.map fd' := Function.update_of_ne h _ _

theorem has_zero (flag : Mask) : Mask.has 0 flag = false := by
  simp only [Mask.has, UInt32.zero_and, bne_self_eq_false]

namespace StreamDesc

variable (d : StreamDesc κ) (w w' : Wait) (wanted : Bool)

@[simp] theorem arm_events : (d.arm w wanted).events = d.events := by
  unfold arm
  split <;> rfl

@[simp] theorem arm_collectedEvents :
    (d.arm w wanted).collectedEvents = d.collectedEvents := by
  unfold arm
  split <;> rfl

@[simp] theorem arm_eventHandlerPosted :
    (d.arm w wanted).eventHandlerPosted = d.eventHandlerPosted := by
  unfold arm
  split <;> rfl

@[simp] theorem arm_posted : (d.arm w wanted).posted = d.posted := by
  unfold arm
  split <;> rfl

theorem arm_waited :
    (d.arm w wanted).waitedEvents.has w'.event =
      (d.waitedEvents.has w'.event || (wanted && decide (w = w'))) := by
  unfold arm
  split
  · rename_i h
    rw [h.1, Bool.true_and]
    exact has_or_event _ _ _
  · rename_i h
    by_cases hw : w = w'
    · subst hw
      -- nothing was started: unwanted, or waited for already
      cases hwanted : wanted
      · simp
      · have : d.waitedEvents.has w.event = true := by
          by_contra hn
          exact h ⟨hwanted, hn⟩
        rw [this, Bool.true_or]
    · rw [decide_eq_false hw, Bool.and_false, Bool.or_false]

theorem arm_outstanding :
    (d.arm w wanted).outstanding w' =
      d.outstanding w' + if w = w' ∧ wanted ∧ ¬ d.waitedEvents.has w'.event then 1 else 0 := by
  unfold arm
  by_cases hw : w = w'
  · subst hw
    by_cases h : wanted ∧ ¬ d.waitedEvents.has w.event
    · rw [if_pos h, if_pos ⟨rfl, h⟩]
      exact Function.update_self _ _ _
    · rw [if_neg h, if_neg fun hc => h hc.2]
      rfl
  · rw [if_neg (c := w = w' ∧ _) fun hc => hw hc.1, Nat.add_zero]
    split
    · exact Function.update_of_ne (Ne.symm hw) _ _
    · rfl

@[simp] theorem waitAsync_collectedEvents :
    d.waitAsync.collectedEvents = d.collectedEvents := by
  simp only [waitAsync, arm_collectedEvents]

@[simp] theorem waitAsync_eventHandlerPosted :
    d.waitAsync.eventHandlerPosted = d.eventHandlerPosted := by
  simp only [waitAsync, arm_eventHandlerPosted]

@[simp] theorem waitAsync_posted : d.waitAsync.posted = d.posted := by
  simp only [waitAsync, arm_posted]

/-- What a call of `waitAsync` wants to wait for. -/
def wants (d : StreamDesc κ) : Wait → Bool
  | .error => true
  | w => d.events.has w.event

/-- **What is waited for after `waitAsync`**: what was, and everything wanted. -/
theorem waitAsync_waited :
    d.waitAsync.waitedEvents.has w.event = (d.waitedEvents.has w.event || d.wants w) := by
  simp only [waitAsync, arm_waited, arm_events]
  cases w <;> simp [wants, Wait.event]

/-- **The waits `waitAsync` starts**: one for each thing wanted that is not waited for yet. -/
theorem waitAsync_outstanding :
    d.waitAsync.outstanding w =
      d.outstanding w + if d.wants w ∧ ¬ d.waitedEvents.has w.event then 1 else 0 := by
  simp only [waitAsync, arm_outstanding, arm_waited, arm_events]
  cases w <;> simp [wants, Wait.event]

/-! ### Completions -/

/-- **What a completion does**: the wait is not outstanding any more, its event is no longer asked
    for and is collected, but the note of it stays; a call is queued unless the flag was set. -/
theorem complete_eq :
    d.complete w = { d with
      outstanding := Function.update d.outstanding w (d.outstanding w - 1)
      events := d.events &&& ~~~w.event
      collectedEvents := d.collectedEvents ||| w.event
      eventHandlerPosted := true
      posted := if d.eventHandlerPosted then d.posted else d.posted + 1 } := by
  unfold complete handleAndWait
  rw [if_neg Bool.false_ne_true]
  dsimp only
  cases d.eventHandlerPosted <;> rfl

end StreamDesc

end IOContextAdapter

end PluginsEngine
