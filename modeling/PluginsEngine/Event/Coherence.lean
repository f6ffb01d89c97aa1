/-
  File:      PluginsEngine/Event/Coherence.lean
  Subject:   REGISTRY AND EPOLL SET STAY COHERENT, over whole runs of an event loop.

  `EventCtrl` keeps two stores, the map `eventPool` and the kernel's interest list, and updates
  them by separate calls. `Coherent` says that they agree: the same descriptors, every entry of
  the map an Event of that descriptor, every mask of the kernel the Event's own.

  The runs are those of `eventLoop` whose callers add only open, unregistered descriptors and
  close only unregistered ones.

  * one lemma per kind of change (`Coherent.insert`, `Coherent.erase`, `Coherent.update`, ...);
  * `Coherent.dispatch` -- the loop body itself changes neither store;
  * `coherent_iff_accepted` -- a run is coherent at every point exactly when the kernel accepts
    every EPOLL_CTL_ADD of it: `addEvent` enters the map before it asks and drops the answer, so
    one rejected descriptor (a regular file, the watch limit) leaves the stores apart
    (`unpollable_descriptor_breaks_coherence`).
-/
import PluginsEngine.Event.EventLoop

namespace PluginsEngine

open Library

variable {κ : Type}

/-! ## 1. What the callers keep to -/

/-- The callers act on Events that exist, add an Event only when its descriptor
    is open and not registered, and close no registered descriptor. -/
def World.Act.allowed (w : World κ) : World.Act → Prop
  | .openFile fd _ => fd ∉ w.kernel.files
  | .closeFile fd => fd ∉ w.eventPool
  | .addEvent e =>
    e < w.next ∧ (w.object e).eventFd ∈ w.kernel.files ∧ (w.object e).eventFd ∉ w.eventPool
  | .deleteEvent e | .enableReading e _ | .enableWriting e _ | .enableErrorEvent e _
  | .disableAll e | .removeFromLoop e => e < w.next
  | .newEvent _ | .deleteEventFd _ | .modifyEventFd _ => True

instance World.Act.decidableAllowed (w : World κ) : (a : World.Act) → Decidable (a.allowed w)
  | .openFile fd _ => inferInstanceAs (Decidable (fd ∉ w.kernel.files))
  | .closeFile fd => inferInstanceAs (Decidable (fd ∉ w.eventPool))
  | .addEvent _ => inferInstanceAs (Decidable (_ ∧ _ ∧ _))
  | .deleteEvent e | .enableReading e _ | .enableWriting e _ | .enableErrorEvent e _
  | .disableAll e | .removeFromLoop e => inferInstanceAs (Decidable (e < w.next))
  | .newEvent _ | .deleteEventFd _ | .modifyEventFd _ => inferInstanceAs (Decidable True)

/-- The event loop of such callers. -/
def carefulLoop (κ : Type) : Machine (LoopState κ) LoopLabel (Option EventId) :=
  eventLoop World.Act.allowed

/-! ## 2. Coherent loops -/

/-- **Registry and interest list agree.** -/
structure Coherent (w : World κ) : Prop where
  keys : ∀ fd, fd ∈ w.eventPool ↔ fd ∈ w.kernel.interest
  entry : ∀ fd v, w.eventPool.lookup fd = some v → ∃ e, v = some e ∧ e < w.next ∧
    (w.object e).eventFd = fd ∧ w.kernel.interest.lookup fd = some (w.object e).events

/-- Coherent, but for the mask of `fd`. -/
structure CoherentBut (fd : Int) (w : World κ) : Prop where
  keys : ∀ fd', fd' ∈ w.eventPool ↔ fd' ∈ w.kernel.interest
  entry : ∀ fd' v, w.eventPool.lookup fd' = some v → ∃ e, v = some e ∧ e < w.next ∧
    (w.object e).eventFd = fd' ∧
      (fd' ≠ fd → w.kernel.interest.lookup fd' = some (w.object e).events)

theorem coherent_initial (files : Finmap fun _ : Int => FileKind) (maxWatches : Nat) :
    Coherent (World.initial files maxWatches : World κ) where
  keys _ := Iff.rfl
  entry fd v h := by
    rw [World.initial, Finmap.lookup_empty] at h
    cases h

namespace Coherent

variable {w : World κ}

theorem lookup_ne_null (h : Coherent w) (fd : Int) : w.eventPool.lookup fd ≠ some none := by
  intro e
  obtain ⟨_, he, _⟩ := h.entry fd _ e
  cases he

theorem but (h : Coherent w) (fd : Int) : CoherentBut fd w where
  keys := h.keys
  entry fd' v hv := by
    obtain ⟨e, he, hlt, hfd, hm⟩ := h.entry fd' v hv
    exact ⟨e, he, hlt, hfd, fun _ => hm⟩

/-! ### One lemma per kind of change -/

/-- A descriptor enters both stores. -/
theorem insert (h : Coherent w) {w' : World κ} {e : EventId} (hlt : e < w.next)
    (ho : w'.object = w.object) (hn : w'.next = w.next)
    (hp : w'.eventPool = w.eventPool.insert (w.object e).eventFd (some e))
    (hi : w'.kernel.interest =
      w.kernel.interest.insert (w.object e).eventFd (w.object e).events) : Coherent w' where
  keys fd := by rw [hp, hi, Finmap.mem_insert, Finmap.mem_insert, h.keys]
  entry fd v hv := by
    rw [hp] at hv
    rw [ho, hn, hi]
    by_cases hfd : fd = (w.object e).eventFd
    · subst hfd
      rw [Finmap.lookup_insert] at hv
      cases hv
      exact ⟨e, rfl, hlt, rfl, Finmap.lookup_insert _⟩
    · rw [Finmap.lookup_insert_of_ne _ hfd] at hv
      obtain ⟨e', he, hlt', hfd', hm⟩ := h.entry fd v hv
      exact ⟨e', he, hlt', hfd', (Finmap.lookup_insert_of_ne _ hfd).trans hm⟩

/-- A descriptor leaves both stores. -/
theorem erase (h : Coherent w) {w' : World κ} {fd : Int} (ho : w'.object = w.object)
    (hn : w'.next = w.next) (hp : w'.eventPool = w.eventPool.erase fd)
    (hi : w'.kernel.interest = w.kernel.interest.erase fd) : Coherent w' where
  keys fd' := by rw [hp, hi, Finmap.mem_erase, Finmap.mem_erase, h.keys]
  entry fd' v hv := by
    rw [hp] at hv
    rw [ho, hn, hi]
    by_cases hfd : fd' = fd
    · subst hfd
      rw [Finmap.lookup_erase] at hv
      cases hv
    · rw [Finmap.lookup_erase_ne hfd] at hv
      obtain ⟨e, he, hlt, hfd', hm⟩ := h.entry fd' v hv
      exact ⟨e, he, hlt, hfd', (Finmap.lookup_erase_ne hfd).trans hm⟩

/-- Neither store changes, and no registered object does. -/
theorem same (h : Coherent w) {w' : World κ} (ho : ∀ e, e < w.next → w'.object e = w.object e)
    (hn : w.next ≤ w'.next) (hp : w'.eventPool = w.eventPool)
    (hi : w'.kernel.interest = w.kernel.interest) : Coherent w' where
  keys fd := by rw [hp, hi, h.keys]
  entry fd v hv := by
    rw [hp] at hv
    obtain ⟨e, he, hlt, hfd, hm⟩ := h.entry fd v hv
    exact ⟨e, he, Nat.lt_of_lt_of_le hlt hn, by rw [ho e hlt, hfd], by rw [hi, hm, ho e hlt]⟩

theorem addEvent (h : Coherent w) {e : EventId} (hlt : e < w.next)
    (hacc : w.kernel.accepts (w.object e).eventFd) : Coherent (w.addEvent e) := by
  have hnot : (w.object e).eventFd ∉ w.eventPool := fun hm => hacc.2.1 ((h.keys _).mp hm)
  refine h.insert hlt rfl rfl (insertNew_of_notMem hnot) ?_
  exact (w.kernel.add_interest _ _).trans (if_pos hacc)

theorem deleteEvent (h : Coherent w) (e : EventId) : Coherent (w.deleteEvent e) :=
  h.erase rfl rfl rfl (w.kernel.del_interest _ _)

theorem deleteEventFd (h : Coherent w) (fd : Int) : Coherent (w.deleteEventFd fd) := by
  refine h.erase (World.deleteEventFd_object w fd) (World.deleteEventFd_next w fd)
    (World.deleteEventFd_eventPool w fd) ?_
  unfold World.deleteEventFd
  by_cases hm : fd ∈ w.eventPool
  · rw [if_pos hm]
    exact w.kernel.del_interest _ _
  · rw [if_neg hm]
    exact (erase_of_notMem fun hi => hm ((h.keys fd).mpr hi)).symm

/-- A change of one object that keeps its descriptor can only disturb the mask of that
    descriptor: no entry of another descriptor is that object. -/
theorem setObject (h : Coherent w) (e : EventId) {f : Event κ → Event κ}
    (hf : (f (w.object e)).eventFd = (w.object e).eventFd) :
    CoherentBut (w.object e).eventFd (w.setObject e f) where
  keys := h.keys
  entry fd' v hv := by
    obtain ⟨e', he, hlt, hfd, hm⟩ := h.entry fd' v hv
    by_cases hee : e' = e
    · subst hee
      exact ⟨e', he, hlt, by rw [World.setObject_self, hf, hfd], fun hne => absurd hfd.symm hne⟩
    · exact ⟨e', he, hlt, by rw [World.setObject_of_ne w e hee, hfd],
        fun _ => by rw [World.setObject_of_ne w e hee]; exact hm⟩

end Coherent

/-- **`modifyEvent(fd)` mends the mask of `fd`**: the kernel gets the mask of the object in the
    registry. -/
theorem CoherentBut.modifyEventFd {w : World κ} {fd : Int} (h : CoherentBut fd w) :
    Coherent (w.modifyEventFd fd) := by
  by_cases hm : fd ∈ w.eventPool
  · obtain ⟨v, hv⟩ := Finmap.mem_iff.mp hm
    obtain ⟨e, rfl, hlt, hfd, -⟩ := h.entry fd v hv
    have hi : (w.modifyEventFd fd).kernel.interest =
        w.kernel.interest.insert fd (w.object e).events := by
      unfold World.modifyEventFd
      rw [hv]
      refine (w.kernel.mod_interest _ _).trans ?_
      rw [hfd, if_pos ((h.keys fd).mp hm)]
    refine ⟨fun fd' => ?_, fun fd' v' hv' => ?_⟩
    · rw [World.modifyEventFd_eventPool, hi, Finmap.mem_insert, h.keys]
      refine ⟨Or.inr, fun h' => h'.elim (fun e => ?_) id⟩
      rw [e]
      exact (h.keys fd).mp hm
    · rw [World.modifyEventFd_eventPool] at hv'
      rw [World.modifyEventFd_object, World.modifyEventFd_next, hi]
      obtain ⟨e', he', hlt', hfd', hmask⟩ := h.entry fd' v' hv'
      refine ⟨e', he', hlt', hfd', ?_⟩
      by_cases hne : fd' = fd
      · subst hne
        rw [hv] at hv'
        cases hv'
        cases he'
        exact Finmap.lookup_insert _
      · exact (Finmap.lookup_insert_of_ne _ hne).trans (hmask hne)
  · -- nothing is registered for `fd`, so no mask of it can be wrong
    have e : w.modifyEventFd fd = w := by
      unfold World.modifyEventFd
      rw [Finmap.lookup_eq_none.mpr hm]
    rw [e]
    refine ⟨h.keys, fun fd' v hv => ?_⟩
    obtain ⟨e', he', hlt, hfd, hmask⟩ := h.entry fd' v hv
    refine ⟨e', he', hlt, hfd, hmask fun hne => hm ?_⟩
    rw [← hne]
    exact Finmap.mem_of_lookup_eq_some hv

namespace Coherent

variable {w : World κ}

/-- A changed object whose loop is told: `enableReading`, `enableWriting`, `enableErrorEvent`,
    `disableAll`, on a registered object or on another one. -/
theorem update (h : Coherent w) (e : EventId) {f : Event κ → Event κ}
    (hf : (f (w.object e)).eventFd = (w.object e).eventFd) :
    Coherent ((w.setObject e f).update e) := by
  unfold World.update
  rw [World.setObject_self, hf]
  exact (h.setObject e hf).modifyEventFd

/-- **The loop body changes neither store**: a record of a registered descriptor is handed on,
    and for any other one the null placeholder is removed again and EPOLL_CTL_DEL finds nothing. -/
theorem dispatch (h : Coherent w) (r : EpollEvent) :
    (w.dispatch r).1.eventPool = w.eventPool ∧ (w.dispatch r).1.kernel = w.kernel := by
  refine ⟨World.dispatch_eventPool w r (h.lookup_ne_null r.fd), ?_⟩
  unfold World.dispatch
  by_cases hm : r.fd ∈ w.eventPool
  · obtain ⟨v, hv⟩ := Finmap.mem_iff.mp hm
    obtain ⟨e, rfl, -⟩ := h.entry r.fd v hv
    simp only [insertNew_of_mem hm, hv]
  · have hnot : r.fd ∉ w.kernel.interest := fun hi => hm ((h.keys r.fd).mpr hi)
    simp only [insertNew_of_notMem hm, Finmap.lookup_insert]
    unfold World.deleteEventFd
    rw [if_pos (Finmap.mem_insert.mpr (Or.inl rfl))]
    show (w.kernel.epollCtl .del r.fd 0).1 = w.kernel
    simp only [Kernel.epollCtl, if_neg hnot]

/-! ## 3. One step -/

/-- The kernel accepts what the step adds: besides being open and not registered, the descriptor
    refers to a file that supports epoll, and a watch is left. -/
def Accepted (s : LoopState κ) : LoopLabel → Prop
  | .act (.addEvent e) =>
    s.world.kernel.files.lookup (s.world.object e).eventFd = some .pollable ∧
      s.world.kernel.interest.keys.card < s.world.kernel.maxWatches
  | _ => True

/-- **Every allowed step keeps the loop coherent**, an addition if the kernel accepts it. -/
theorem step (s : LoopState κ) (l : LoopLabel) (s' : LoopState κ) (o : Option EventId)
    (h : Coherent s.world) (hs : (carefulLoop κ).step s l = some (s', o)) (hok : Accepted s l) :
    Coherent s'.world := by
  cases l with
  | wait records =>
    cases hs
    exact h
  | dispatch =>
    simp only [carefulLoop, eventLoop] at hs
    split at hs
    · cases hs
    · rename_i r rest hr
      cases hs
      obtain ⟨hp, hk⟩ := h.dispatch r
      exact h.same (fun e _ => by rw [World.dispatch_object])
        (Nat.le_of_eq (World.dispatch_next s.world r).symm) hp (by rw [hk])
  | act a =>
    simp only [carefulLoop, eventLoop] at hs
    split at hs
    case isFalse => cases hs
    rename_i ha
    cases hs
    cases a with
    | openFile fd kind => exact h.same (fun _ _ => rfl) (Nat.le_refl _) rfl rfl
    | closeFile fd =>
      have hnot : fd ∉ s.world.kernel.interest := fun hi => ha ((h.keys fd).mpr hi)
      exact h.same (fun _ _ => rfl) (Nat.le_refl _) rfl (erase_of_notMem hnot)
    | newEvent fd =>
      exact h.same (fun e he => World.newEvent_of_lt s.world he fd) (Nat.le_succ _) rfl rfl
    | addEvent e =>
      exact h.addEvent ha.1 ⟨hok.1, fun hi => ha.2.2 ((h.keys _).mpr hi), hok.2⟩
    | deleteEvent e => exact h.deleteEvent e
    | deleteEventFd fd => exact h.deleteEventFd fd
    | modifyEventFd fd => exact (h.but fd).modifyEventFd
    | enableReading e b => exact h.update e rfl
    | enableWriting e b => exact h.update e rfl
    | enableErrorEvent e b => exact h.update e rfl
    | disableAll e => exact h.update e rfl
    | removeFromLoop e => exact h.deleteEventFd _

/-- **A rejected addition breaks coherence at once**: the map has the descriptor, the kernel has
    not. -/
theorem not_accepted (s : LoopState κ) (l : LoopLabel) (s' : LoopState κ) (o : Option EventId)
    (h : Coherent s.world) (hs : (carefulLoop κ).step s l = some (s', o)) (hok : ¬ Accepted s l) :
    ¬ Coherent s'.world := by
  cases l with
  | wait records => exact absurd trivial hok
  | dispatch => exact absurd trivial hok
  | act a =>
    cases a with
    | addEvent e =>
      simp only [carefulLoop, eventLoop] at hs
      split at hs
      case isFalse => cases hs
      rename_i ha
      cases hs
      intro hc
      have hrej : ¬ s.world.kernel.accepts (s.world.object e).eventFd := fun hacc =>
        hok ⟨hacc.1, hacc.2.2⟩
      have hin : (s.world.object e).eventFd ∈ (s.world.addEvent e).eventPool :=
        mem_insertNew.mpr (Or.inl rfl)
      have hout : (s.world.object e).eventFd ∉ (s.world.addEvent e).kernel.interest := by
        show _ ∉ (s.world.kernel.epollCtl .add _ _).1.interest
        rw [s.world.kernel.add_interest, if_neg hrej]
        exact fun hi => ha.2.2 ((h.keys _).mpr hi)
      exact hout ((hc.keys _).mp hin)
    | _ => exact absurd trivial hok

end Coherent

/-! ## 4. Runs -/

/-- What is to hold of every step of a run: the loop is coherent after it, and if it was the
    dispatch loop's own step, no registration went. -/
def KeepsCoherence (s : LoopState κ) (l : LoopLabel) (s' : LoopState κ) (_ : Option EventId) :
    Prop :=
  Coherent s'.world ∧
    (l = .dispatch → s'.world.eventPool = s.world.eventPool ∧ s'.world.kernel = s.world.kernel)

/-- **Registry and epoll set stay coherent exactly when the kernel accepts every addition.** For
    every run from a loop's start: after each of its steps the map and the interest list agree and
    the dispatch loop has unregistered nothing, if and only if every descriptor added in the run
    is one the kernel accepts. -/
theorem coherent_iff_accepted (files : Finmap fun _ : Int => FileKind) (maxWatches : Nat)
    (ls : List LoopLabel) :
    (carefulLoop κ).Along KeepsCoherence ⟨World.initial files maxWatches, []⟩ ls ↔
      (carefulLoop κ).Along (fun s l _ _ => Coherent.Accepted s l)
        ⟨World.initial files maxWatches, []⟩ ls := by
  refine Machine.along_iff (I := fun s : LoopState κ => Coherent s.world) ?_
    (coherent_initial files maxWatches)
  intro s l s' o hI hs
  refine ⟨⟨fun hk => ?_, fun hok => ⟨hI.step s l s' o hs hok, fun hl => ?_⟩⟩,
    fun hok => hI.step s l s' o hs hok⟩
  · exact Classical.byContradiction fun hno => hI.not_accepted s l s' o hs hno hk.1
  · subst hl
    simp only [carefulLoop, eventLoop] at hs
    split at hs
    · cases hs
    · cases hs
      exact hI.dispatch _

/-- A regular file's descriptor 3 is open and not registered; the loop adds an Event for it. -/
def regularFileRun : List LoopLabel :=
  [.act (.openFile 3 .unpollable), .act (.newEvent 3), .act (.addEvent 0)]

/-- **Coherence fails where the kernel rejects**: `regularFileRun` is an allowed run, the map has
    descriptor 3 after it, and the epoll set has not. -/
theorem unpollable_descriptor_breaks_coherence :
    ((carefulLoop Unit).run ⟨World.initial ∅ 8, []⟩ regularFileRun).isSome = true ∧
      ¬ (carefulLoop Unit).Along KeepsCoherence ⟨World.initial ∅ 8, []⟩ regularFileRun := by
  refine ⟨by decide, fun h => ?_⟩
  obtain ⟨-, h₁⟩ := h _ _ rfl
  obtain ⟨-, h₂⟩ := h₁ _ _ rfl
  obtain ⟨⟨hc, -⟩, -⟩ := h₂ _ _ rfl
  exact absurd (hc.keys 3) (by decide)

end PluginsEngine
