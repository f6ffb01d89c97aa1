/-
  File:      PluginsEngine/Event/Event.lean
  Subject:   EVENTS: the interest mask and the callbacks of one descriptor (event/event.hpp,
             event.cpp).

  An `Event` belongs to one descriptor and carries the flags it wants reported and up to four
  callbacks. Which callback it is stays open: `κ` is whatever names a callback. The part of
  `enableReading` and its siblings that tells the loop is in EventCtrl.lean (`World.update`); here
  stand the mask arithmetic and `Event::handle`, the order in which a report runs the callbacks.
-/
import Mathlib.Init

namespace PluginsEngine

/-- A set of epoll flags. -/
abbrev Mask := UInt32

def EPOLLIN : Mask := 0x001
def EPOLLPRI : Mask := 0x002
def EPOLLOUT : Mask := 0x004
def EPOLLERR : Mask := 0x008
def EPOLLHUP : Mask := 0x010
def EPOLLRDHUP : Mask := 0x2000

/-- The test `m & flag`. -/
def Mask.has (m flag : Mask) : Bool := m &&& flag != 0

structure Event (κ : Type) where
  eventFd : Int
  events : Mask
  readCallback : Option κ
  writeCallback : Option κ
  errorCallback : Option κ
  closeCallback : Option κ
  deriving DecidableEq, Repr

namespace Event

variable {κ : Type}

def noneEventFlag : Mask := 0
def readEventFlag : Mask := EPOLLIN ||| EPOLLPRI
def writeEventFlag : Mask := EPOLLOUT
def errorEventFlag : Mask := EPOLLERR

def new (fd : Int) : Event κ := ⟨fd, 0, none, none, none, none⟩

def isWriting (e : Event κ) : Bool := Mask.has e.events writeEventFlag

/-- The mask part of `enableReading`, `enableWriting` and `enableErrorEvent`: `flag` is set or
    cleared. -/
def withFlag (flag : Mask) (isEnable : Bool) (e : Event κ) : Event κ :=
  { e with events := if isEnable then e.events ||| flag else e.events &&& ~~~flag }

/-- **`Event::handle`**: the callbacks a report of `events` invokes, in order. An error report
    runs the error callback alone, even where none is set; a hang-up without input and an input
    report both run the read callback, so a report may run it twice. -/
def handle (e : Event κ) (events : Mask) : List κ :=
  if Mask.has events EPOLLERR then
    e.errorCallback.toList
  else
    (if Mask.has events EPOLLHUP ∧ ¬ Mask.has events EPOLLIN then e.readCallback.toList else []) ++
    (if Mask.has events (EPOLLIN ||| EPOLLPRI ||| EPOLLRDHUP) then e.readCallback.toList else []) ++
    (if Mask.has events EPOLLOUT then e.writeCallback.toList else [])

@[simp] theorem withFlag_eventFd (flag : Mask) (b : Bool) (e : Event κ) :
    (e.withFlag flag b).eventFd = e.eventFd := rfl

theorem or_and_self_right (a b : Mask) : (a ||| b) &&& b = b := by
  rw [← UInt32.toBitVec_inj, UInt32.toBitVec_and, UInt32.toBitVec_or]
  ext i hi
  rw [BitVec.getElem_and, BitVec.getElem_or]
  cases b.toBitVec[i] <;> simp

theorem has_or_of_has {m a b : Mask} (h : m.has a) : m.has (a ||| b) := by
  unfold Mask.has at *
  rw [bne_iff_ne] at *
  intro h0
  apply h
  have hab : (a ||| b) &&& a = a := by
    rw [UInt32.or_comm]
    exact or_and_self_right b a
  calc m &&& a = m &&& ((a ||| b) &&& a) := by rw [hab]
    _ = (m &&& (a ||| b)) &&& a := (UInt32.and_assoc _ _ _).symm
    _ = 0 := by rw [h0, UInt32.zero_and]

theorem handle_of_error {e : Event κ} {events : Mask} (h : events.has EPOLLERR) :
    e.handle events = e.errorCallback.toList :=
  if_pos h

/-- What a report without an error runs. -/
theorem mem_handle_iff {e : Event κ} {events : Mask} {cb : κ} (h : ¬ events.has EPOLLERR) :
    cb ∈ e.handle events ↔
      (e.readCallback = some cb ∧ ((events.has EPOLLHUP ∧ ¬ events.has EPOLLIN) ∨
          events.has (EPOLLIN ||| EPOLLPRI ||| EPOLLRDHUP))) ∨
        (e.writeCallback = some cb ∧ events.has EPOLLOUT) := by
  have hite : ∀ (p : Prop) [Decidable p] (c : Option κ),
      cb ∈ (if p then c.toList else []) ↔ c = some cb ∧ p := by
    intro p _ c
    split
    · rename_i hp
      rw [Option.mem_toList]
      exact ⟨fun hc => ⟨hc, hp⟩, fun hc => hc.1⟩
    · rename_i hp
      exact ⟨fun hc => absurd hc List.not_mem_nil, fun hc => absurd hc.2 hp⟩
  unfold handle
  rw [if_neg h, List.mem_append, List.mem_append, hite, hite, hite, and_or_left]

/-- `enableWriting` decides what `isWriting` answers. -/
theorem isWriting_withFlag (b : Bool) (e : Event κ) :
    (e.withFlag writeEventFlag b).isWriting = b := by
  cases b with
  | false =>
    have h : (e.events &&& ~~~writeEventFlag) &&& writeEventFlag = 0 := by
      rw [UInt32.and_assoc, show ~~~writeEventFlag &&& writeEventFlag = 0 from by decide,
        UInt32.and_zero]
    show ((e.events &&& ~~~writeEventFlag) &&& writeEventFlag != 0) = false
    rw [h]
    rfl
  | true =>
    show ((e.events ||| writeEventFlag) &&& writeEventFlag != 0) = true
    rw [or_and_self_right]
    decide

/-- Setting or clearing flags leaves the others as they are. -/
theorem and_of_disjoint {flag w : Mask} (m : Mask) (h : flag &&& w = 0) :
    (m ||| flag) &&& w = m &&& w ∧ (m &&& ~~~flag) &&& w = m &&& w := by
  have hbit : ∀ i (hi : i < 32), (flag.toBitVec[i] && w.toBitVec[i]) = false := by
    intro i hi
    have hv := congrArg UInt32.toBitVec h
    rw [UInt32.toBitVec_and] at hv
    rw [← BitVec.getElem_and, hv, UInt32.toBitVec_ofNat, BitVec.getElem_zero]
  refine ⟨?_, ?_⟩
  all_goals
    rw [← UInt32.toBitVec_inj]
    ext i hi
    have hb := hbit i hi
    simp only [UInt32.toBitVec_and, UInt32.toBitVec_or, UInt32.toBitVec_not, BitVec.getElem_and,
      BitVec.getElem_or, BitVec.getElem_not]
    cases hf : flag.toBitVec[i] <;> cases hw : w.toBitVec[i] <;> simp_all

theorem isWriting_withFlag_of_disjoint {flag : Mask} (h : flag &&& writeEventFlag = 0) (b : Bool)
    (e : Event κ) : (e.withFlag flag b).isWriting = e.isWriting := by
  obtain ⟨hset, hclear⟩ := and_of_disjoint e.events h
  unfold isWriting Mask.has withFlag
  cases b with
  | false => exact congrArg (· != 0) hclear
  | true => exact congrArg (· != 0) hset

end Event

end PluginsEngine
