/-
  File:      PluginsEngine/SignalMonitor/SignalMonitor.lean
  Subject:   SIGNALS TAKEN OVER BY THE LOOP (signalMonitor/signalMonitor.hpp, signalMonitor.cpp).

  `add` blocks a signal in the thread of the loop and lets the signalfd have it; `del` takes both
  back. Three sets move: the signals with a handler, those of the signalfd, and those the thread
  blocks. No call looks at what the thread blocked before: pthread_sigmask(2) is never asked for
  the old mask.

  * `Wf` -- the handlers are those of the signalfd, and the thread blocks them and, of what it
    blocked at the start, everything but the signals deleted since;
  * `Wf.handled` -- a signal the signalfd has is one with a handler;
  * `keepsMask_along` -- the law of whole runs, with what is left when everything is deleted;
  * `own_block_is_lost` -- a signal the thread had blocked itself is unblocked by `del`.
-/
import Mathlib.Data.Finmap
import PluginsEngine.Library.Runs

namespace PluginsEngine

open Library

/-! ## 1. The calls -/

/-- A signal number that the signal sets take, of a signal that can be blocked: not one of the two
    the C library keeps for itself, nor SIGKILL or SIGSTOP. -/
def Blockable (signal : Int) : Prop :=
  1 ≤ signal ∧ signal ≤ 64 ∧ signal ≠ 9 ∧ signal ≠ 19 ∧ signal ≠ 32 ∧ signal ≠ 33

abbrev Signal := { signal : Int // Blockable signal }

/-- `mask` is the member; `signalfd` is what the kernel has been told last, and `blocked` the
    signal mask of the loop's thread. -/
structure SignalMonitor (κ : Type) where
  map : Finmap fun _ : Signal => κ
  mask : Finset Signal
  signalfd : Finset Signal
  blocked : Finset Signal

inductive SignalCall (κ : Type) where
  | add (signal : Signal) (sh : κ)
  | del (signal : Signal)

namespace SignalMonitor

variable {κ : Type}

/-- `createSignalFd`: the set is empty, whatever the thread blocks. -/
def create (blocked : Finset Signal) : SignalMonitor κ := ⟨∅, ∅, ∅, blocked⟩

def block (s : SignalMonitor κ) (signal : Signal) : SignalMonitor κ :=
  { s with blocked := insert signal s.blocked }

def unblock (s : SignalMonitor κ) (signal : Signal) : SignalMonitor κ :=
  { s with blocked := s.blocked.erase signal }

/-- `signalfd(signalFd, &mask, 0)`. -/
def tellSignalfd (s : SignalMonitor κ) : SignalMonitor κ := { s with signalfd := s.mask }

/-- `add` and `addImpl`. -/
def add (s : SignalMonitor κ) (signal : Signal) (sh : κ) : SignalMonitor κ :=
  if signal ∈ s.map then s
  else
    let s := s.block signal
    let s := { s with mask := insert signal s.mask }.tellSignalfd
    { s with map := s.map.insert signal sh }

def del (s : SignalMonitor κ) (signal : Signal) : SignalMonitor κ :=
  if signal ∈ s.map then
    let s := { s with map := s.map.erase signal }
    let s := { s with mask := s.mask.erase signal }.tellSignalfd
    s.unblock signal
  else s

/-- `handleSignal`, when `signo` was read: the handler it calls. -/
def handleSignal (s : SignalMonitor κ) (signo : Signal) : Option κ := s.map.lookup signo

end SignalMonitor

/-! ## 2. The monitor as a machine -/

open SignalMonitor

variable {κ : Type}

def signalMonitor (κ : Type) : Machine (SignalMonitor κ) (SignalCall κ) Unit where
  step s
    | .add signal sh => some (s.add signal sh, ())
    | .del signal => some (s.del signal, ())

/-- The signals some `del` has removed, after a call. -/
def deletedAfter (s : SignalMonitor κ) (c : SignalCall κ) (_ : Unit) (deleted : Finset Signal) :
    Finset Signal :=
  match c with
  | .add _ _ => deleted
  | .del signal => if signal ∈ s.map then insert signal deleted else deleted

/-- A monitor, and the signals that were deleted so far. -/
abbrev SignalState (κ : Type) := SignalMonitor κ × Finset Signal

def signals (κ : Type) : Machine (SignalState κ) (SignalCall κ) Unit :=
  (signalMonitor κ).withHistory deletedAfter

/-- A monitor at its start, on a thread that blocks `blocked`. -/
def SignalState.start (blocked : Finset Signal) : SignalState κ := (create blocked, ∅)

/-- **The masks as one would have them**: the handlers are those of the signalfd, and the thread
    blocks them besides what it blocked at the start. -/
structure RestoresMask (blocked₀ : Finset Signal) (s' : SignalMonitor κ) : Prop where
  signalfd : s'.map.keys = s'.signalfd
  blocked : s'.blocked = blocked₀ ∪ s'.map.keys

/-- **The masks as they are**: of what the thread blocked at the start, the signals deleted since
    are missing, unless they have a handler again. -/
structure KeepsMask (blocked₀ : Finset Signal) (_ : SignalState κ) (_ : SignalCall κ)
    (s' : SignalState κ) (_ : Unit) : Prop where
  signalfd : s'.1.map.keys = s'.1.signalfd
  blocked : s'.1.blocked = (blocked₀ \ s'.2) ∪ s'.1.map.keys
  empty : s'.1.map.keys = ∅ → s'.1.blocked = blocked₀ \ s'.2

/-! ## 3. One call -/

/-- Both masks of the monitor agree with its handlers, and the thread blocks what it should. -/
structure SignalMonitor.Wf (blocked₀ : Finset Signal) (s : SignalState κ) : Prop where
  mask : s.1.mask = s.1.map.keys
  signalfd : s.1.signalfd = s.1.map.keys
  blocked : s.1.blocked = (blocked₀ \ s.2) ∪ s.1.map.keys

namespace SignalMonitor

theorem keys_insert (m : Finmap fun _ : Signal => κ) (signal : Signal) (sh : κ) :
    (m.insert signal sh).keys = insert signal m.keys := by
  ext x
  rw [Finmap.mem_keys, Finmap.mem_insert, Finset.mem_insert, Finmap.mem_keys]

theorem keys_erase (m : Finmap fun _ : Signal => κ) (signal : Signal) :
    (m.erase signal).keys = m.keys.erase signal := by
  ext x
  rw [Finmap.mem_keys, Finmap.mem_erase, Finset.mem_erase, Finmap.mem_keys]

namespace Wf

variable {blocked₀ : Finset Signal} {s : SignalState κ}

theorem add (h : Wf blocked₀ s) (signal : Signal) (sh : κ) :
    Wf blocked₀ (s.1.add signal sh, s.2) := by
  unfold SignalMonitor.add
  split
  · exact h
  · refine ⟨?_, ?_, ?_⟩
    · show insert signal s.1.mask = (s.1.map.insert signal sh).keys
      rw [keys_insert, h.mask]
    · show insert signal s.1.mask = (s.1.map.insert signal sh).keys
      rw [keys_insert, h.mask]
    · show insert signal s.1.blocked = _ ∪ (s.1.map.insert signal sh).keys
      rw [keys_insert, h.blocked, Finset.union_insert]

theorem del (h : Wf blocked₀ s) (signal : Signal) :
    Wf blocked₀ (s.1.del signal, deletedAfter s.1 (.del signal) () s.2) := by
  unfold SignalMonitor.del deletedAfter
  by_cases hm : signal ∈ s.1.map
  · simp only [if_pos hm]
    refine ⟨?_, ?_, ?_⟩
    · show s.1.mask.erase signal = (s.1.map.erase signal).keys
      rw [keys_erase, h.mask]
    · show s.1.mask.erase signal = (s.1.map.erase signal).keys
      rw [keys_erase, h.mask]
    · -- the signal leaves both sides of the union
      show s.1.blocked.erase signal = blocked₀ \ insert signal s.2 ∪ (s.1.map.erase signal).keys
      rw [keys_erase, h.blocked, Finset.erase_union_distrib, Finset.sdiff_insert]
  · simp only [if_neg hm]
    exact h

theorem step (h : Wf blocked₀ s) {c : SignalCall κ} {s' : SignalState κ} {o : Unit}
    (hs : (signals κ).step s c = some (s', o)) : Wf blocked₀ s' := by
  obtain ⟨s₁, deleted⟩ := s'
  obtain ⟨hstep, hdeleted⟩ := Machine.withHistory_step_iff.mp hs
  dsimp only at hstep hdeleted
  subst hdeleted
  cases c with
  | add signal sh =>
    obtain ⟨rfl, -⟩ := Prod.mk.inj (Option.some.inj hstep)
    exact h.add signal sh
  | del signal =>
    obtain ⟨rfl, -⟩ := Prod.mk.inj (Option.some.inj hstep)
    exact h.del signal

theorem keepsMask (h : Wf blocked₀ s) {s₀ : SignalState κ} {c : SignalCall κ} {o : Unit} :
    KeepsMask blocked₀ s₀ c s o where
  signalfd := h.signalfd.symm
  blocked := h.blocked
  empty hempty := by rw [h.blocked, hempty, Finset.union_empty]

/-- A signal that is read from the signalfd has a handler. -/
theorem handled (h : Wf blocked₀ s) {signo : Signal} (hs : signo ∈ s.1.signalfd) :
    ∃ sh, s.1.handleSignal signo = some sh := by
  rw [h.signalfd, Finmap.mem_keys] at hs
  exact Finmap.mem_iff.mp hs

end Wf

theorem wf_start (blocked₀ : Finset Signal) :
    Wf blocked₀ (SignalState.start blocked₀ (κ := κ)) where
  mask := rfl
  signalfd := rfl
  blocked := by
    show blocked₀ = (blocked₀ \ ∅) ∪ ∅
    rw [Finset.sdiff_empty, Finset.union_empty]

end SignalMonitor

/-! ## 4. Runs -/

/-- **The masks over whole runs**: for every signal mask of the thread and every sequence of calls,
    after each call the signals with a handler are those of the signalfd, and the thread blocks
    these and, of its first mask, all that was never deleted; so with every handler deleted it
    blocks its first mask less the deleted signals. -/
theorem keepsMask_along (blocked₀ : Finset Signal) (calls : List (SignalCall κ)) :
    (signals κ).Along (KeepsMask blocked₀) (.start blocked₀) calls :=
  Machine.along_of_invariant (I := Wf blocked₀)
    (fun _ _ _ _ h hs => ⟨h.step hs, (h.step hs).keepsMask⟩) (wf_start blocked₀)

/-- SIGTERM. -/
def sigterm : Signal := ⟨15, by unfold Blockable; decide⟩

/-- **A block of the thread's own is lost**: the thread blocks SIGTERM; it is added and deleted;
    no handler is left, and the thread does not block it any more. -/
theorem own_block_is_lost :
    ∃ s : SignalMonitor Unit, (signalMonitor Unit).run (create {sigterm})
        [.add sigterm (), .del sigterm] = some (s, [(), ()]) ∧
      s.map.keys = ∅ ∧ s.blocked = ∅ ∧ ¬ RestoresMask {sigterm} s := by
  refine ⟨_, rfl, by decide, by decide, fun h => ?_⟩
  exact absurd h.blocked (by decide)

end PluginsEngine
