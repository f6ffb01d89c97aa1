/-
  File:      PluginsEngine/Event/WaitSize.lean
  Subject:   THE SIZE OF A WAIT (EventCtrl::waitAndRunHandler: activeEvents.resize and maxevents).

  Before each wait `activeEvents` is made as long as the registry, and that length, as an `int`, is
  the `maxevents` of epoll_wait(2), which fails with EINVAL where it is not positive. A loop without
  an Event has an empty registry: its wait fails at once, and `run` goes round without blocking.

  * `FdsTracked` -- the invariant: every descriptor of the interest list has an entry of the
    registry, and every key of the registry is an `int`;
  * `FdsTracked.card_le_waitSize` -- a registry of less than 2^31 entries makes a wait wide enough;
  * `waitFits_iff` -- over every run, the waits fit exactly where the registry is not empty and has
    less than 2^31 entries;
  * `empty_loop_waits_for_nothing` -- the first wait of a worker.
-/
import Mathlib.Data.Int.Interval
import PluginsEngine.Event.FailedAdd
import PluginsEngine.Event.Registration

namespace PluginsEngine

open Library

variable {κ : Type}

/-! ## 1. Descriptors -/

/-- A value of the type `int`. -/
def IsInt (fd : Int) : Prop := -2 ^ 31 ≤ fd ∧ fd < 2 ^ 31

instance decidableIsInt (fd : Int) : Decidable (IsInt fd) := inferInstanceAs (Decidable (_ ∧ _))

/-- The call is on an Event that exists, and the descriptor of a new Event is an `int`. -/
def World.Act.isCall (w : World κ) : World.Act → Prop
  | .newEvent fd => IsInt fd
  | a => a.onExisting w

instance World.Act.decidableIsCall (w : World κ) : (a : World.Act) → Decidable (a.isCall w)
  | .newEvent fd => decidableIsInt fd
  | .addEvent e | .deleteEvent e | .enableReading e _ | .enableWriting e _ | .enableErrorEvent e _
  | .disableAll e | .removeFromLoop e => inferInstanceAs (Decidable (e < w.next))
  | .openFile _ _ | .closeFile _ | .deleteEventFd _ | .modifyEventFd _ =>
    inferInstanceAs (Decidable True)

/-! ## 2. The invariant -/

/-- **What the kernel watches is in the registry**, and all of it are descriptors. -/
structure FdsTracked (w : World κ) : Prop where
  tracked : ∀ fd, fd ∈ w.kernel.interest → fd ∈ w.eventPool
  keys : ∀ fd, fd ∈ w.eventPool → IsInt fd
  objects : ∀ e, IsInt (w.object e).eventFd

namespace FdsTracked

variable {w : World κ}

theorem initial (files : Finmap fun _ : Int => FileKind) (maxWatches : Nat) :
    FdsTracked (World.initial files maxWatches : World κ) where
  tracked fd h := absurd h (Finmap.notMem_empty)
  keys fd h := absurd h (Finmap.notMem_empty)
  objects e := by
    show IsInt (-1)
    decide

/-- A change of one object that keeps its descriptor. -/
theorem setObject (h : FdsTracked w) (e : EventId) {f : Event κ → Event κ}
    (hf : (f (w.object e)).eventFd = (w.object e).eventFd) : FdsTracked (w.setObject e f) where
  tracked := h.tracked
  keys := h.keys
  objects e' := by
    by_cases he : e' = e
    · subst he
      rw [World.setObject_self, hf]
      exact h.objects e'
    · rw [World.setObject_of_ne _ _ he]
      exact h.objects e'

theorem modifyEventFd (h : FdsTracked w) (fd : Int) : FdsTracked (w.modifyEventFd fd) where
  tracked fd' hin := by
    rw [World.modifyEventFd_eventPool]
    exact h.tracked fd' ((LiveState.mem_modifyEventFd_interest w fd fd').mp hin)
  keys fd' hin := h.keys fd' (World.modifyEventFd_eventPool w fd ▸ hin)
  objects e := by
    rw [World.modifyEventFd_object]
    exact h.objects e

/-- `deleteEvent(fd)` adds nothing to the interest list. -/
theorem mem_interest_of_deleteEventFd {fd fd' : Int}
    (hin : fd' ∈ (w.deleteEventFd fd).kernel.interest) : fd' ∈ w.kernel.interest := by
  unfold World.deleteEventFd at hin
  split at hin
  · have herased : fd' ∈ w.kernel.interest.erase fd := w.kernel.del_interest fd 0 ▸ hin
    exact (Finmap.mem_erase.mp herased).2
  · exact hin

/-- A descriptor that had no entry when it was deleted is not watched afterwards either. -/
theorem notMem_interest_deleteEventFd (h : FdsTracked w) (fd : Int) :
    fd ∉ (w.deleteEventFd fd).kernel.interest := by
  unfold World.deleteEventFd
  split
  · have herased : (w.kernel.epollCtl .del fd 0).1.interest = w.kernel.interest.erase fd :=
      w.kernel.del_interest fd 0
    intro hin
    exact (Finmap.mem_erase.mp (herased ▸ hin)).1 rfl
  · rename_i hm
    exact fun hin => hm (h.tracked fd hin)

theorem deleteEventFd (h : FdsTracked w) (fd : Int) : FdsTracked (w.deleteEventFd fd) where
  tracked fd' hin := by
    rw [World.deleteEventFd_eventPool]
    refine Finmap.mem_erase.mpr ⟨fun heq => ?_, h.tracked fd' (mem_interest_of_deleteEventFd hin)⟩
    rw [heq] at hin
    exact h.notMem_interest_deleteEventFd fd hin
  keys fd' hin := by
    rw [World.deleteEventFd_eventPool] at hin
    exact h.keys fd' (Finmap.mem_erase.mp hin).2
  objects e := by
    rw [World.deleteEventFd_object]
    exact h.objects e

theorem deleteEvent (h : FdsTracked w) (e : EventId) : FdsTracked (w.deleteEvent e) where
  tracked fd hin := by
    have herased : fd ∈ w.kernel.interest.erase (w.object e).eventFd :=
      w.kernel.del_interest _ _ ▸ hin
    obtain ⟨hne, hin'⟩ := Finmap.mem_erase.mp herased
    exact Finmap.mem_erase.mpr ⟨hne, h.tracked fd hin'⟩
  keys fd hin := h.keys fd (Finmap.mem_erase.mp hin).2
  objects := h.objects

theorem addEvent (h : FdsTracked w) (e : EventId) : FdsTracked (w.addEvent e) where
  tracked fd hin := by
    have hadd : fd ∈ (w.kernel.epollCtl .add (w.object e).eventFd (w.object e).events).1.interest :=
      hin
    rw [w.kernel.add_interest] at hadd
    refine mem_insertNew.mpr ?_
    split at hadd
    · exact (Finmap.mem_insert.mp hadd).imp_right (h.tracked fd)
    · exact Or.inr (h.tracked fd hadd)
  keys fd hin := by
    rcases mem_insertNew.mp hin with rfl | hin'
    · exact h.objects e
    · exact h.keys fd hin'
  objects := h.objects

/-- Every call of a handler keeps the invariant. -/
theorem act (h : FdsTracked w) {a : World.Act} (ha : a.isCall w) : FdsTracked (w.act a) := by
  cases a with
  | openFile fd kind => exact ⟨h.tracked, h.keys, h.objects⟩
  | closeFile fd =>
    exact ⟨fun fd' hin => h.tracked fd' (Finmap.mem_erase.mp hin).2, h.keys, h.objects⟩
  | newEvent fd =>
    refine ⟨h.tracked, h.keys, fun e => ?_⟩
    show IsInt (Function.update w.object w.next (Event.new fd) e).eventFd
    by_cases he : e = w.next
    · rw [he, Function.update_self]
      exact ha
    · rw [Function.update_of_ne he]
      exact h.objects e
  | addEvent e => exact h.addEvent e
  | deleteEvent e => exact h.deleteEvent e
  | deleteEventFd fd => exact h.deleteEventFd fd
  | modifyEventFd fd => exact h.modifyEventFd fd
  | enableReading e isEnable => exact (h.setObject e rfl).modifyEventFd _
  | enableWriting e isEnable => exact (h.setObject e rfl).modifyEventFd _
  | enableErrorEvent e isEnable => exact (h.setObject e rfl).modifyEventFd _
  | disableAll e => exact (h.setObject e rfl).modifyEventFd _
  | removeFromLoop e => exact h.deleteEventFd _

/-- The dispatch of a record, whatever it names: the null placeholder leaves no key behind. -/
theorem dispatch (h : FdsTracked w) (r : EpollEvent) : FdsTracked (w.dispatch r).1 := by
  by_cases hm : r.fd ∈ w.eventPool
  · have hstays : ({ w with eventPool := insertNew r.fd none w.eventPool } : World κ) = w := by
      rw [insertNew_of_mem hm]
    unfold World.dispatch
    rw [hstays]
    dsimp only
    split
    · exact h
    · exact h.deleteEventFd r.fd
  · have hnone := Finmap.lookup_eq_none.mpr hm
    have hpool : (w.dispatch r).1.eventPool = w.eventPool :=
      World.dispatch_eventPool w r fun hnull => by
        rw [hnone] at hnull
        cases hnull
    have hinterest : ∀ fd, fd ∈ (w.dispatch r).1.kernel.interest → fd ∈ w.kernel.interest := by
      intro fd hin
      unfold World.dispatch at hin
      dsimp only at hin
      split at hin
      · exact hin
      · exact mem_interest_of_deleteEventFd
          (w := { w with eventPool := insertNew r.fd none w.eventPool }) hin
    refine ⟨fun fd hin => ?_, fun fd hin => ?_, fun e => ?_⟩
    · rw [hpool]
      exact h.tracked fd (hinterest fd hin)
    · exact h.keys fd (hpool ▸ hin)
    · rw [World.dispatch_object]
      exact h.objects e

/-! ### What it gives of the size -/

/-- There are no more keys than values of `int`. -/
theorem card_keys_le (h : FdsTracked w) : w.eventPool.keys.card ≤ 2 ^ 32 := by
  have hsub : w.eventPool.keys ⊆ Finset.Ico (-2 ^ 31 : Int) (2 ^ 31) := by
    intro fd hin
    exact Finset.mem_Ico.mpr (h.keys fd (Finmap.mem_keys.mp hin))
  have hcard := Finset.card_le_card hsub
  rw [Int.card_Ico] at hcard
  exact hcard

theorem card_interest_le (h : FdsTracked w) :
    w.kernel.interest.keys.card ≤ w.eventPool.keys.card :=
  Finset.card_le_card fun fd hin => Finmap.mem_keys.mpr (h.tracked fd (Finmap.mem_keys.mp hin))

/-- **Wide enough**: a registry whose size is an `int` makes room for every watched descriptor. -/
theorem card_le_waitSize (h : FdsTracked w) (hsize : w.eventPool.keys.card < 2 ^ 31) :
    w.waitSize = w.eventPool.keys.card ∧ (w.kernel.interest.keys.card : Int) ≤ w.waitSize := by
  have hle := h.card_interest_le
  have heq : w.waitSize = w.eventPool.keys.card := Int.bmod_eq_of_le (by omega) (by omega)
  exact ⟨heq, by omega⟩

/-- A registry of 2^31 entries and more makes no positive size. -/
theorem waitSize_nonpos (h : FdsTracked w) (hsize : 2 ^ 31 ≤ w.eventPool.keys.card) :
    w.waitSize ≤ 0 := by
  have hle := h.card_keys_le
  unfold World.waitSize
  rw [Int.bmod_def]
  split <;> omega

end FdsTracked

/-! ## 3. Every wait of every run -/

/-- The `maxevents` of this wait is positive and makes room for every watched descriptor. -/
def WaitFits (s : LoopState κ) (l : LoopLabel) (_ : LoopState κ) (_ : Option EventId) : Prop :=
  ∀ records, l = .wait records →
    1 ≤ s.world.waitSize ∧ (s.world.kernel.interest.keys.card : Int) ≤ s.world.waitSize

/-- This wait is one of a loop with an entry in its registry, and fewer than 2^31. -/
def WaitsForSome (s : LoopState κ) (l : LoopLabel) (_ : LoopState κ) (_ : Option EventId) : Prop :=
  ∀ records, l = .wait records →
    1 ≤ s.world.eventPool.keys.card ∧ s.world.eventPool.keys.card < 2 ^ 31

theorem FdsTracked.waitFits {w : World κ} (h : FdsTracked w) :
    (1 ≤ w.waitSize ∧ (w.kernel.interest.keys.card : Int) ≤ w.waitSize) ↔
      1 ≤ w.eventPool.keys.card ∧ w.eventPool.keys.card < 2 ^ 31 := by
  rcases Nat.lt_or_ge w.eventPool.keys.card (2 ^ 31) with hlt | hge
  · obtain ⟨heq, hle⟩ := h.card_le_waitSize hlt
    rw [heq] at hle ⊢
    omega
  · have hnonpos := h.waitSize_nonpos hge
    omega

theorem waitFits_step {s s' : LoopState κ} {l : LoopLabel} {o : Option EventId}
    (h : FdsTracked s.world) : WaitFits s l s' o ↔ WaitsForSome s l s' o := by
  constructor
  · intro hfits records hl
    exact h.waitFits.mp (hfits records hl)
  · intro hsome records hl
    exact h.waitFits.mpr (hsome records hl)

theorem fdsTracked_step {s s' : LoopState κ} {l : LoopLabel} {o : Option EventId}
    (h : FdsTracked s.world)
    (hs : (eventLoop fun (w : World κ) a => a.isCall w).step s l = some (s', o)) :
    FdsTracked s'.world := by
  cases l with
  | act a =>
    simp only [eventLoop] at hs
    split at hs
    · rename_i ha
      obtain ⟨rfl, -⟩ := Prod.mk.inj (Option.some.inj hs)
      exact h.act ha
    · cases hs
  | wait records =>
    cases hs
    exact h
  | dispatch =>
    simp only [eventLoop] at hs
    split at hs
    · cases hs
    · rename_i r rest _
      obtain ⟨rfl, -⟩ := Prod.mk.inj (Option.some.inj hs)
      exact h.dispatch r

/-- **Every wait fits exactly where something is registered.** For every run of a loop from its
    start, whatever its handlers call, whatever the waits report: each wait passes a positive size
    that makes room for every watched descriptor, if and only if at each wait the registry is not
    empty and its size is below 2^31. -/
theorem waitFits_iff (files : Finmap fun _ : Int => FileKind) (maxWatches : Nat)
    (ls : List LoopLabel) :
    (eventLoop fun (w : World κ) a => a.isCall w).Along WaitFits
        ⟨World.initial files maxWatches, []⟩ ls ↔
      (eventLoop fun (w : World κ) a => a.isCall w).Along WaitsForSome
        ⟨World.initial files maxWatches, []⟩ ls :=
  Machine.along_iff (I := fun s => FdsTracked s.world)
    (fun _ _ _ _ hI hs => ⟨waitFits_step hI, fun _ => fdsTracked_step hI hs⟩)
    (FdsTracked.initial files maxWatches)

/-- **The first wait of a worker**: nothing is registered, and its size is 0. -/
theorem empty_loop_waits_for_nothing :
    ¬ ∀ ls : List LoopLabel, (eventLoop fun (w : World Unit) a => a.isCall w).Along WaitFits
        ⟨World.initial ∅ 8, []⟩ ls := by
  intro h
  have hfits : WaitFits ⟨(World.initial ∅ 8 : World Unit), []⟩ (.wait [])
      ⟨World.initial ∅ 8, []⟩ none := ((h [.wait []]) _ _ rfl).1
  have hsome := (FdsTracked.initial ∅ 8).waitFits.mp (hfits [] rfl)
  exact absurd hsome.1 (by decide)

end PluginsEngine
