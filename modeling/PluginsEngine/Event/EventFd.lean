/-
  File:      PluginsEngine/Event/EventFd.lean
  Subject:   THE CROSS-THREAD CALLBACK QUEUE (event/eventfd.hpp, eventfd.cpp).

  Any number of threads `post`; each post is two atomic steps, the locked push and the write of 1
  to the eventfd. The loop thread's `handleEvents` is the read of the eventfd, the locked swap-out
  of the whole list, and the execution of the extracted callbacks one by one. The loop thread
  posts too: from a callback that is running, or from another handler.

  * `eventFd` -- the machine of these steps; its output is the callback that is started;
  * `Awake` -- a callback in the shared list is never without a wake-up that is to come;
  * `callbacks_step` -- extracted and shared callbacks together are one FIFO queue: the swap is
    invisible in it;
  * `no_wakeup_and_no_callback_lost` -- both, in every state of every interleaving.
-/
import PluginsEngine.Library.Runs
import Mathlib.Algebra.Ring.Nat

namespace PluginsEngine

open Library

/-! ## 1. The threads and their steps -/

/-- Where the loop thread stands in `handleEvents`. -/
inductive HandlePc (κ : Type) where
  /-- Outside of it. -/
  | idle
  /-- Between `::read` and `atomicPopAll`. -/
  | afterRead
  /-- In the loop of `executeCallbacks`, with the callbacks still extracted; whether one of them
      is running. -/
  | executing (extracted : List κ) (running : Bool)
  deriving DecidableEq, Repr

/-- A callback queue and its threads: `some t` is the posting thread `t`, `none` the loop thread.
    `posting` tells who is between its push and its write. -/
structure EventFD (τ κ : Type) where
  callbacks : List κ
  counter : Nat
  posting : Option τ → Bool
  handle : HandlePc κ

inductive EventFdStep (τ κ : Type) where
  | post (thread : Option τ) (callback : Option κ)
  | write (thread : Option τ)
  | read
  | atomicPopAll
  | popAndExecuteFirstCallback
  | callbackReturns
  | leave
  deriving DecidableEq, Repr

namespace EventFD

variable {τ κ : Type}

/-- The largest value of an eventfd counter, 2^64 - 2 (eventfd(2)). -/
def counterMax : Nat := 2 ^ 64 - 2

/-- `write` of 1 to the eventfd: it fails with EAGAIN (EFD_NONBLOCK) where the counter would
    exceed its maximum. -/
def writeOne (counter : Nat) : Nat := if counter < counterMax then counter + 1 else counter

/-- A thread may start a post: it is in none, and the loop thread is not inside `handleEvents`
    but for a running callback. -/
def mayPost (s : EventFD τ κ) (thread : Option τ) : Bool :=
  !s.posting thread &&
    match thread, s.handle with
    | some _, _ => true
    | none, .idle => true
    | none, .executing _ running => running
    | none, .afterRead => false

/-- The callbacks that are extracted and not started. -/
def extracted (s : EventFD τ κ) : List κ :=
  match s.handle with
  | .executing extracted _ => extracted
  | _ => []

/-- The constructor: an eventfd with counter 0 and no callback. -/
def initial : EventFD τ κ := ⟨[], 0, fun _ => false, .idle⟩

end EventFD

open EventFD

variable {τ κ : Type} [DecidableEq τ]

/-- A callback queue and its threads as a machine. -/
def eventFd (τ κ : Type) [DecidableEq τ] :
    Machine (EventFD τ κ) (EventFdStep τ κ) (List κ) where
  step s
    | .post thread callback =>
      if s.mayPost thread then
        match callback with
        -- "callback is empty": neither pushed nor written
        | none => some (s, [])
        | some callback =>
          some ({ s with
            callbacks := s.callbacks ++ [callback]
            posting := Function.update s.posting thread true }, [])
      else none
    | .write thread =>
      if s.posting thread then
        some ({ s with
          counter := writeOne s.counter
          posting := Function.update s.posting thread false }, [])
      else none
    | .read =>
      -- a counter of 0 makes the read fail with EAGAIN, which `handleEvents` does not look at
      match s.handle, s.posting none with
      | .idle, false => some ({ s with counter := 0, handle := .afterRead }, [])
      | _, _ => none
    | .atomicPopAll =>
      match s.handle with
      | .afterRead => some ({ s with callbacks := [], handle := .executing s.callbacks false }, [])
      | _ => none
    | .popAndExecuteFirstCallback =>
      match s.handle with
      | .executing (callback :: rest) false =>
        some ({ s with handle := .executing rest true }, [callback])
      | _ => none
    | .callbackReturns =>
      match s.handle, s.posting none with
      | .executing rest true, false => some ({ s with handle := .executing rest false }, [])
      | _, _ => none
    | .leave =>
      match s.handle with
      | .executing [] false => some ({ s with handle := .idle }, [])
      | _ => none

/-! ## 2. Wake-ups -/

/-- **A callback in the shared list will be noticed**: the eventfd is readable, or a poster is
    about to make it so, or the loop thread is about to take the list. -/
def Awake (s : EventFD τ κ) : Prop :=
  s.callbacks ≠ [] → 0 < s.counter ∨ (∃ t, s.posting t = true) ∨ s.handle = .afterRead

theorem writeOne_pos (counter : Nat) : 0 < writeOne counter := by
  unfold writeOne
  split
  · exact Nat.succ_pos _
  · rename_i h
    have : 0 < counterMax := by decide
    omega

omit [DecidableEq τ] in
/-- The loop thread goes on elsewhere than from its read to its swap. -/
theorem Awake.goOn {s : EventFD τ κ} (h : Awake s) (hpc : s.handle ≠ .afterRead)
    (pc : HandlePc κ) : Awake { s with handle := pc } := by
  intro hne
  rcases h hne with hcounter | hposting | hread
  · exact Or.inl hcounter
  · exact Or.inr (Or.inl hposting)
  · exact absurd hread hpc

theorem awake_step (s : EventFD τ κ) (l : EventFdStep τ κ) (s' : EventFD τ κ) (o : List κ)
    (h : Awake s) (hs : (eventFd τ κ).step s l = some (s', o)) : Awake s' := by
  cases l with
  | post thread callback =>
    simp only [eventFd] at hs
    split at hs
    · cases callback with
      | none =>
        cases hs
        exact h
      | some callback =>
        cases hs
        exact fun _ => Or.inr (Or.inl ⟨thread, Function.update_self _ _ _⟩)
    · cases hs
  | write thread =>
    simp only [eventFd] at hs
    split at hs
    · cases hs
      exact fun _ => Or.inl (writeOne_pos _)
    · cases hs
  | read =>
    simp only [eventFd] at hs
    split at hs
    · cases hs
      exact fun _ => Or.inr (Or.inr rfl)
    · cases hs
  | atomicPopAll =>
    simp only [eventFd] at hs
    split at hs
    · cases hs
      exact fun hne => absurd rfl hne
    · cases hs
  | popAndExecuteFirstCallback =>
    simp only [eventFd] at hs
    split at hs
    · rename_i hpc
      cases hs
      exact h.goOn (by rw [hpc]; exact nofun) _
    · cases hs
  | callbackReturns =>
    simp only [eventFd] at hs
    split at hs
    · rename_i hpc _
      cases hs
      exact h.goOn (by rw [hpc]; exact nofun) _
    · cases hs
  | leave =>
    simp only [eventFd] at hs
    split at hs
    · rename_i hpc
      cases hs
      exact h.goOn (by rw [hpc]; exact nofun) _
    · cases hs

/-! ## 3. One FIFO queue -/

/-- The callback a step posts, if it is not empty. -/
def posted : EventFdStep τ κ → List κ
  | .post _ callback => callback.toList
  | _ => []

/-- **Extracted and shared callbacks are one FIFO queue**: a post enters at its end, the start of a
    callback takes its front, and the swap of the two lists does nothing to it. -/
theorem callbacks_step (s : EventFD τ κ) (l : EventFdStep τ κ) (s' : EventFD τ κ) (o : List κ)
    (hs : (eventFd τ κ).step s l = some (s', o)) :
    o ++ (s'.extracted ++ s'.callbacks) = s.extracted ++ s.callbacks ++ posted l := by
  cases l with
  | post thread callback =>
    simp only [eventFd] at hs
    split at hs
    · cases callback with
      | none =>
        cases hs
        exact (List.append_nil _).symm
      | some callback =>
        cases hs
        show s.extracted ++ (s.callbacks ++ [callback]) = s.extracted ++ s.callbacks ++ [callback]
        rw [List.append_assoc]
    · cases hs
  | write thread =>
    simp only [eventFd] at hs
    split at hs
    · cases hs
      exact (List.append_nil _).symm
    · cases hs
  | read =>
    simp only [eventFd] at hs
    split at hs
    · rename_i hpc _
      cases hs
      simp only [extracted, hpc, posted, List.append_nil, List.nil_append]
    · cases hs
  | atomicPopAll =>
    simp only [eventFd] at hs
    split at hs
    · rename_i hpc
      cases hs
      simp only [extracted, hpc, posted, List.append_nil, List.nil_append]
    · cases hs
  | popAndExecuteFirstCallback =>
    simp only [eventFd] at hs
    split at hs
    · rename_i callback rest hpc
      cases hs
      simp only [extracted, hpc, posted, List.append_nil]
      rfl
    · cases hs
  | callbackReturns =>
    simp only [eventFd] at hs
    split at hs
    · rename_i hpc _
      cases hs
      simp only [extracted, hpc, posted, List.append_nil, List.nil_append]
    · cases hs
  | leave =>
    simp only [eventFd] at hs
    split at hs
    · rename_i hpc
      cases hs
      simp only [extracted, hpc, posted, List.append_nil, List.nil_append]
    · cases hs

/-! ## 4. Runs -/

/-- **No wake-up and no callback is lost.** In every state that any interleaving of the posting
    threads with the loop thread reaches: a non-empty shared list has a wake-up to come; and the
    callbacks started, followed by the extracted and the shared ones, are the posted non-empty
    callbacks in the order of their pushes. -/
theorem no_wakeup_and_no_callback_lost {ls : List (EventFdStep τ κ)} {s : EventFD τ κ}
    {executed : List (List κ)} (h : (eventFd τ κ).run initial ls = some (s, executed)) :
    (s.callbacks ≠ [] →
        0 < s.counter ∨ (∃ t, s.posting t = true) ∨ s.handle = .afterRead) ∧
      executed.flatten ++ s.extracted ++ s.callbacks = ls.flatMap posted := by
  refine ⟨Machine.run_invariant (I := Awake) awake_step (fun hne => absurd rfl hne) h, ?_⟩
  rw [List.append_assoc]
  exact Machine.run_induct
    (P := fun ls os s => os.flatten ++ (s.extracted ++ s.callbacks) = ls.flatMap posted) rfl
    (fun ls os s l s' o hq hs => by
      rw [List.flatten_append, List.flatMap_append, List.append_assoc, List.flatten_singleton,
        callbacks_step s l s' o hs, ← List.append_assoc, hq, List.flatMap_singleton]) h

/-- Two threads post; the loop thread is woken between the push and the write of the second, takes
    both callbacks, and posts a third from the first. -/
def interleaving : List (EventFdStep Bool Nat) :=
  [.post (some true) (some 1), .write (some true), .post (some false) (some 2), .read,
    .atomicPopAll, .popAndExecuteFirstCallback, .post none (some 3), .write (some false)]

theorem no_wakeup_and_no_callback_lost_interleaving :
    ∃ (s : EventFD Bool Nat) (executed : List (List Nat)),
      (eventFd Bool Nat).run initial interleaving = some (s, executed) ∧ s.callbacks = [3] ∧
      (s.callbacks ≠ [] →
        0 < s.counter ∨ (∃ t, s.posting t = true) ∨ s.handle = .afterRead) ∧
      executed.flatten ++ s.extracted ++ s.callbacks = interleaving.flatMap posted :=
  ⟨_, _, rfl, rfl, no_wakeup_and_no_callback_lost rfl⟩

end PluginsEngine
