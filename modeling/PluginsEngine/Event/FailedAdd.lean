/-
  File:      PluginsEngine/Event/FailedAdd.lean
  Subject:   AN ADDITION THE KERNEL REJECTS (event/eventCtrl.cpp, EventCtrl::addEvent).

  `addEvent` puts the Event into the registry before the kernel is asked, and drops the answer of
  `Epoll::addEvent`. Whether a rejected addition leaves the registry as it was is therefore
  settled by the registry alone, whatever the reason of the rejection.

  * `addEvent_of_rejected` -- what a rejected addition changes: the registry, at most;
  * `failsCleanly_iff_known` -- along a run every rejected addition leaves the loop as it was,
    and with it all that comes later, exactly when each of them finds an entry under its
    descriptor;
  * `addEvent_after_leak` -- the entry left behind keeps every later Event of the descriptor out;
  * `leaked_entry_gets_the_records` -- a regular file is added on descriptor 5; the socket that is
    given number 5 next never sees a record.
-/
import PluginsEngine.Event.EventLoop

namespace PluginsEngine

open Library

variable {κ : Type}

namespace World

/-- The size `waitAndRunHandler` passes to epoll_wait: `eventPool.size()` as an `int`. -/
def waitSize (w : World κ) : Int := Int.bmod w.eventPool.keys.card (2 ^ 32)

/-- The kernel rejects the EPOLL_CTL_ADD of `addEvent(e)`. -/
def rejects (w : World κ) (e : EventId) : Prop := ¬ w.kernel.accepts (w.object e).eventFd

instance decidableRejects (w : World κ) (e : EventId) : Decidable (w.rejects e) :=
  inferInstanceAs (Decidable (¬ _))

variable {w : World κ} {e : EventId}

/-- **A rejected addition** changes nothing but the registry. -/
theorem addEvent_of_rejected (h : w.rejects e) :
    w.addEvent e =
      { w with eventPool := insertNew (w.object e).eventFd (some e) w.eventPool } := by
  have hk : (Epoll.addEvent w.kernel (w.object e)).1 = w.kernel := by
    simp only [Epoll.addEvent, Kernel.epollCtl]
    rw [if_neg h]
  simp only [addEvent, hk]

/-- A rejected addition changes nothing at all when the descriptor has an entry. -/
theorem addEvent_of_known (h : w.rejects e) (hk : (w.object e).eventFd ∈ w.eventPool) :
    w.addEvent e = w := by
  rw [addEvent_of_rejected h, insertNew_of_mem hk]

theorem eventPool_addEvent_iff :
    (w.addEvent e).eventPool = w.eventPool ↔ (w.object e).eventFd ∈ w.eventPool := by
  constructor
  · intro h
    rw [← h]
    exact mem_insertNew.mpr (Or.inl rfl)
  · exact insertNew_of_mem

/-- **The leak**: the entry of an addition stays under its descriptor when another Event of the
    same descriptor is added. -/
theorem addEvent_after_leak {e' : EventId} (hm : (w.object e).eventFd ∉ w.eventPool)
    (hfd : (w.object e').eventFd = (w.object e).eventFd) :
    ((w.addEvent e).addEvent e').eventPool.lookup (w.object e').eventFd = some (some e) := by
  have hpool : (w.addEvent e).eventPool = w.eventPool.insert (w.object e).eventFd (some e) :=
    insertNew_of_notMem hm
  have hfirst : (w.addEvent e).eventPool.lookup (w.object e').eventFd = some (some e) := by
    rw [hpool, hfd]
    exact Finmap.lookup_insert _
  exact lookup_insertNew_of_some hfirst

end World

section

variable (allowed : World κ → World.Act → Prop) [∀ w a, Decidable (allowed w a)]

/-- `s'` is as `s` for everything that follows: the registry, the size passed to epoll_wait, and
    what any later run of the loop does. -/
structure LeftAsItWas (s s' : LoopState κ) : Prop where
  eventPool : s'.world.eventPool = s.world.eventPool
  waitSize : s'.world.waitSize = s.world.waitSize
  later : ∀ ls, (eventLoop allowed).run s' ls = (eventLoop allowed).run s ls

/-- **A failed registration leaves the loop as it was.** -/
def FailsCleanly (s : LoopState κ) (l : LoopLabel) (s' : LoopState κ) (_ : Option EventId) :
    Prop :=
  ∀ e, l = .act (.addEvent e) → s.world.rejects e → LeftAsItWas allowed s s'

/-- Every rejected addition is one of a descriptor that is in the registry already. -/
def RejectedIsKnown (s : LoopState κ) (l : LoopLabel) (_ : LoopState κ) (_ : Option EventId) :
    Prop :=
  ∀ e, l = .act (.addEvent e) → s.world.rejects e →
    (s.world.object e).eventFd ∈ s.world.eventPool

variable {allowed}

theorem failsCleanly_step {s s' : LoopState κ} {l : LoopLabel} {o : Option EventId}
    (hs : (eventLoop allowed).step s l = some (s', o)) :
    FailsCleanly allowed s l s' o ↔ RejectedIsKnown s l s' o := by
  refine forall_congr' fun e => forall_congr' fun hl => forall_congr' fun hrej => ?_
  subst hl
  simp only [eventLoop, World.act] at hs
  split at hs
  · obtain ⟨hs', -⟩ := Prod.mk.inj (Option.some.inj hs)
    constructor
    · intro h
      have hpool := h.eventPool
      rw [← hs'] at hpool
      exact World.eventPool_addEvent_iff.mp hpool
    · intro hk
      have heq : s' = s := by rw [← hs', World.addEvent_of_known hrej hk]
      rw [heq]
      exact ⟨rfl, rfl, fun _ => rfl⟩
  · cases hs

end

/-- **A failed registration leaves the loop as it was exactly where the descriptor is known.** For
    every loop, in every state, and every run from there, whichever calls its callers make: every
    addition the kernel rejects leaves the registry, the size of the next wait and all later
    behaviour as they were, if and only if each of them finds an entry under its descriptor. -/
theorem failsCleanly_iff_known (allowed : World κ → World.Act → Prop)
    [∀ w a, Decidable (allowed w a)] (s : LoopState κ) (ls : List LoopLabel) :
    (eventLoop allowed).Along (FailsCleanly allowed) s ls ↔
      (eventLoop allowed).Along RejectedIsKnown s ls :=
  Machine.along_iff (I := fun _ => True)
    (fun _ _ _ _ _ hs => ⟨failsCleanly_step hs, fun _ => trivial⟩) trivial

/-- A regular file is opened on descriptor 5 and its Event 0 added, which the kernel rejects
    (EPERM). The file is closed, a socket gets number 5, its Event 1 is added, and input is
    reported. -/
def leakedEntryRun : List LoopLabel :=
  [.act (.openFile 5 .unpollable), .act (.newEvent 5), .act (.addEvent 0), .act (.closeFile 5),
   .act (.openFile 5 .pollable), .act (.newEvent 5), .act (.addEvent 1),
   .wait [⟨5, EPOLLIN⟩], .dispatch]

/-- **A leaked entry gets the records**: in `leakedEntryRun` the rejected addition leaves an entry
    in the registry, and the record of the socket goes to the Event of the file. -/
theorem leaked_entry_gets_the_records :
    ((eventLoop fun (w : World Unit) a => a.onExisting w).run ⟨World.initial ∅ 8, []⟩
        leakedEntryRun).map (fun p => p.2.getLast?) = some (some (some 0)) ∧
      ¬ (eventLoop fun (w : World Unit) a => a.onExisting w).Along
        (FailsCleanly fun w a => a.onExisting w) ⟨World.initial ∅ 8, []⟩ leakedEntryRun := by
  refine ⟨by decide, fun h => ?_⟩
  iterate 2 replace h := (h _ _ rfl).2
  exact absurd ((h _ _ rfl).1 0 rfl (by decide)).eventPool (by decide)

end PluginsEngine
