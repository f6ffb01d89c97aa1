/-
  File:      PluginsEngine/Thread/EventThread.lean
  Subject:   HOW THE POOL GETS THE LOOPS OF ITS WORKERS (thread/eventThread.cpp,
             EventThreadPool::init, Thread::start and beginRun).

  `init` starts one worker after the other and takes the loop of each from `getEventLoopInThread`,
  which waits on a condition variable until the worker has published it. All workers run on their
  own. A condition variable may wake its waiter without a notification; `spuriousWake` is that.

  * `poolStart` -- workers, caller, and their mutexes, in any interleaving;
  * `Moves` -- everything a step can do;
  * `EntriesPublished` -- the law: every entry of the pool is the loop its worker published;
  * `Tables` -- the pointers of the workers and the entries of the pool, whatever happens;
  * `Handshake` -- the invariant: a caller that tested the pointer, or was notified, is sure of it;
  * `entriesPublished_iff` -- over every run, the law holds exactly where no pointer is read after
    a spurious wake-up before the worker has published;
  * `spurious_wake_gives_null` -- one worker, one spurious wake-up.
-/
import Mathlib.Logic.Function.Basic
import PluginsEngine.Library.Runs

namespace PluginsEngine

open Library

variable {Loop : Type}

/-! ## 1. Workers and caller -/

/-- Where a worker is: in `beginRun`, behind the construction of its loop, behind the lock, behind
    `this->loop = &loop`, behind `notify_one`, and in `loop.run()`. -/
inductive WorkerPhase (Loop : Type) where
  | beginRun
  | created (loop : Loop)
  | locked (loop : Loop)
  | published (loop : Loop)
  | notified (loop : Loop)
  | running (loop : Loop)
  deriving DecidableEq

/-- The loop a worker has published. -/
def WorkerPhase.loop : WorkerPhase Loop → Option Loop
  | .beginRun | .created _ | .locked _ => none
  | .published loop | .notified loop | .running loop => some loop

/-- An `EventLoopThread`: `started` of its base, and its own pointer. -/
structure Worker (Loop : Type) where
  started : Bool
  phase : WorkerPhase Loop
  loop : Option Loop
  deriving DecidableEq

/-- Who holds the mutex of an `EventLoopThread`. -/
inductive Holder where
  | worker
  | caller
  deriving DecidableEq

/-- Where the caller is: before a new thread, and at each step of `getEventLoopInThread`. Behind
    the wait it is kept whether the wake-up was spurious. -/
inductive CallerPhase where
  | start
  | lock
  | test
  | waiting
  | reacquire (spurious : Bool)
  | unlock (spurious : Bool)
  | read (spurious : Bool)
  deriving DecidableEq

/-- `init` in progress: `i` is its counter, and the current worker. -/
structure PoolStart (Loop : Type) where
  threadNum : Nat
  i : Nat
  caller : CallerPhase
  worker : Nat → Worker Loop
  mutex : Nat → Option Holder
  eventLoopPoll : List (Option Loop)

namespace PoolStart

/-- Before the first round of the loop of `init`. -/
def initial (threadNum : Nat) : PoolStart Loop :=
  ⟨threadNum, 0, .start, fun _ => ⟨false, .beginRun, none⟩, fun _ => none, []⟩

variable (s : PoolStart Loop)

def setWorker (j : Nat) (w : Worker Loop) : PoolStart Loop :=
  { s with worker := Function.update s.worker j w }

def setMutex (j : Nat) (h : Option Holder) : PoolStart Loop :=
  { s with mutex := Function.update s.mutex j h }

/-- The caller's next step, and the pointer that `getEventLoopInThread` returns in it. -/
def callerStep : Option (PoolStart Loop × Option (Option Loop)) :=
  match s.caller with
  | .start =>
    if s.i < s.threadNum then
      some ({ s.setWorker s.i { s.worker s.i with started := true } with caller := .lock }, none)
    else none
  | .lock =>
    if s.mutex s.i = none then
      some ({ s.setMutex s.i (some .caller) with caller := .test }, none)
    else none
  | .test =>
    if (s.worker s.i).loop.isNone then
      some ({ s.setMutex s.i none with caller := .waiting }, none)
    else some ({ s with caller := .unlock false }, none)
  | .waiting => none
  | .reacquire spurious =>
    if s.mutex s.i = none then
      some ({ s.setMutex s.i (some .caller) with caller := .unlock spurious }, none)
    else none
  | .unlock spurious => some ({ s.setMutex s.i none with caller := .read spurious }, none)
  | .read _ =>
    some ({ s with
      caller := .start
      i := s.i + 1
      eventLoopPoll := s.eventLoopPoll ++ [(s.worker s.i).loop] }, some (s.worker s.i).loop)

/-- `notify_one` of worker `j`: it wakes the caller if that waits for this worker, else nobody. -/
def notifyOne (j : Nat) : PoolStart Loop :=
  if s.i = j ∧ s.caller = .waiting then { s with caller := .reacquire false } else s

/-- The next step of worker `j`; `loop` is where it constructs its loop. -/
def workerStep (j : Nat) (loop : Loop) : Option (PoolStart Loop) :=
  let w := s.worker j
  match w.phase with
  | .beginRun => if w.started then some (s.setWorker j { w with phase := .created loop }) else none
  | .created l =>
    if s.mutex j = none then
      some ((s.setMutex j (some .worker)).setWorker j { w with phase := .locked l })
    else none
  | .locked l => some (s.setWorker j { w with phase := .published l, loop := some l })
  | .published l => some ((s.notifyOne j).setWorker j { w with phase := .notified l })
  | .notified l => some ((s.setMutex j none).setWorker j { w with phase := .running l })
  | .running _ => none

end PoolStart

inductive PoolStartLabel (Loop : Type) where
  | caller
  | spuriousWake
  | worker (j : Nat) (loop : Loop)

/-- **`init` with its workers.** -/
def poolStart (Loop : Type) :
    Machine (PoolStart Loop) (PoolStartLabel Loop) (Option (Option Loop)) where
  step s
    | .caller => s.callerStep
    | .spuriousWake =>
      if s.caller = .waiting then some ({ s with caller := .reacquire true }, none) else none
    | .worker j loop => (s.workerStep j loop).map fun s' => (s', none)

/-! ## 2. What a step does -/

namespace PoolStart

/-- The state after a pointer is read. -/
def afterRead (s : PoolStart Loop) : PoolStart Loop :=
  { s with
    caller := .start
    i := s.i + 1
    eventLoopPoll := s.eventLoopPoll ++ [(s.worker s.i).loop] }

/-- **Everything a step can do**, with its guard: first the caller's steps, then a worker's. -/
inductive Moves (s : PoolStart Loop) :
    PoolStartLabel Loop → PoolStart Loop → Option (Option Loop) → Prop where
  | start (hc : s.caller = .start) (hlt : s.i < s.threadNum) :
      Moves s .caller
        { s.setWorker s.i { s.worker s.i with started := true } with caller := .lock } none
  | lock (hc : s.caller = .lock) (hfree : s.mutex s.i = none) :
      Moves s .caller { s.setMutex s.i (some .caller) with caller := .test } none
  | waits (hc : s.caller = .test) (hnull : (s.worker s.i).loop = none) :
      Moves s .caller { s.setMutex s.i none with caller := .waiting } none
  | finds (hc : s.caller = .test) (hthere : (s.worker s.i).loop ≠ none) :
      Moves s .caller { s with caller := .unlock false } none
  | spuriousWake (hc : s.caller = .waiting) :
      Moves s .spuriousWake { s with caller := .reacquire true } none
  | reacquire (spurious : Bool) (hc : s.caller = .reacquire spurious)
      (hfree : s.mutex s.i = none) :
      Moves s .caller { s.setMutex s.i (some .caller) with caller := .unlock spurious } none
  | unlock (spurious : Bool) (hc : s.caller = .unlock spurious) :
      Moves s .caller { s.setMutex s.i none with caller := .read spurious } none
  | read (spurious : Bool) (hc : s.caller = .read spurious) :
      Moves s .caller s.afterRead (some (s.worker s.i).loop)
  | begins (j : Nat) (loop : Loop) (hphase : (s.worker j).phase = .beginRun)
      (hstarted : (s.worker j).started = true) :
      Moves s (.worker j loop) (s.setWorker j { s.worker j with phase := .created loop }) none
  | locks (j : Nat) (loop l : Loop) (hphase : (s.worker j).phase = .created l)
      (hfree : s.mutex j = none) :
      Moves s (.worker j loop)
        ((s.setMutex j (some .worker)).setWorker j { s.worker j with phase := .locked l }) none
  | publishes (j : Nat) (loop l : Loop) (hphase : (s.worker j).phase = .locked l) :
      Moves s (.worker j loop)
        (s.setWorker j { s.worker j with phase := .published l, loop := some l }) none
  | notifies (j : Nat) (loop l : Loop) (hphase : (s.worker j).phase = .published l)
      (hi : s.i = j) (hc : s.caller = .waiting) :
      Moves s (.worker j loop)
        ({ s with caller := .reacquire false }.setWorker j
          { s.worker j with phase := .notified l }) none
  | notifiesNobody (j : Nat) (loop l : Loop) (hphase : (s.worker j).phase = .published l)
      (hno : s.i = j → s.caller ≠ .waiting) :
      Moves s (.worker j loop) (s.setWorker j { s.worker j with phase := .notified l }) none
  | unlocks (j : Nat) (loop l : Loop) (hphase : (s.worker j).phase = .notified l) :
      Moves s (.worker j loop)
        ((s.setMutex j none).setWorker j { s.worker j with phase := .running l }) none

variable {s s' : PoolStart Loop} {l : PoolStartLabel Loop} {o : Option (Option Loop)}

theorem moves_of_callerStep (hs : s.callerStep = some (s', o)) : s.Moves .caller s' o := by
  unfold PoolStart.callerStep at hs
  cases hc : s.caller with
  | start =>
    simp only [hc] at hs
    split at hs
    · rename_i hlt
      cases hs
      exact .start hc hlt
    · cases hs
  | lock =>
    simp only [hc] at hs
    split at hs
    · rename_i hfree
      cases hs
      exact .lock hc hfree
    · cases hs
  | test =>
    simp only [hc] at hs
    split at hs
    · rename_i hnull
      cases hs
      exact .waits hc (Option.isNone_iff_eq_none.mp hnull)
    · rename_i hthere
      cases hs
      exact .finds hc fun hnone => hthere (Option.isNone_iff_eq_none.mpr hnone)
  | waiting =>
    simp only [hc] at hs
    cases hs
  | reacquire spurious =>
    simp only [hc] at hs
    split at hs
    · rename_i hfree
      cases hs
      exact .reacquire spurious hc hfree
    · cases hs
  | unlock spurious =>
    simp only [hc] at hs
    cases hs
    exact .unlock spurious hc
  | read spurious =>
    simp only [hc] at hs
    cases hs
    exact .read spurious hc

theorem moves_of_workerStep {j : Nat} {loop : Loop} (hs : s.workerStep j loop = some s') :
    s.Moves (.worker j loop) s' none := by
  unfold PoolStart.workerStep at hs
  cases hphase : (s.worker j).phase with
  | beginRun =>
    simp only [hphase] at hs
    split at hs
    · rename_i hstarted
      cases hs
      exact .begins j loop hphase hstarted
    · cases hs
  | created l =>
    simp only [hphase] at hs
    split at hs
    · rename_i hfree
      cases hs
      exact .locks j loop l hphase hfree
    · cases hs
  | locked l =>
    simp only [hphase] at hs
    cases hs
    exact .publishes j loop l hphase
  | published l =>
    simp only [hphase, notifyOne] at hs
    split at hs
    · rename_i hwait
      cases hs
      exact .notifies j loop l hphase hwait.1 hwait.2
    · rename_i hno
      cases hs
      exact .notifiesNobody j loop l hphase fun hi hc => hno ⟨hi, hc⟩
  | notified l =>
    simp only [hphase] at hs
    cases hs
    exact .unlocks j loop l hphase
  | running l =>
    simp only [hphase] at hs
    cases hs

theorem moves_of_step (hs : (poolStart Loop).step s l = some (s', o)) : s.Moves l s' o := by
  cases l with
  | caller => exact moves_of_callerStep hs
  | spuriousWake =>
    simp only [poolStart] at hs
    split at hs
    · rename_i hc
      cases hs
      exact .spuriousWake hc
    · cases hs
  | worker j loop =>
    obtain ⟨t, ht, heq⟩ := Option.map_eq_some_iff.mp hs
    cases heq
    exact moves_of_workerStep ht

/-! ## 3. The law and the condition -/

/-- **Every entry of the pool is the loop its worker published**, and so not null. -/
def EntriesPublished (s : PoolStart Loop) : Prop :=
  ∀ j entry, s.eventLoopPoll[j]? = some entry →
    ∃ loop, entry = some loop ∧ (s.worker j).phase.loop = some loop

/-- The law of a step: the pointer it returns is the one its worker published, and so is every
    entry of the pool after it. -/
def ReturnsPublished (s : PoolStart Loop) (_ : PoolStartLabel Loop) (s' : PoolStart Loop)
    (o : Option (Option Loop)) : Prop :=
  (∀ pointer, o = some pointer →
    ∃ loop, pointer = some loop ∧ (s.worker s.i).phase.loop = some loop) ∧ s'.EntriesPublished

/-- The condition: a pointer that is read after a spurious wake-up is read when the worker has
    published it. -/
def SpuriousReadsLate (s : PoolStart Loop) (l : PoolStartLabel Loop) (_ : PoolStart Loop)
    (_ : Option (Option Loop)) : Prop :=
  l = .caller → s.caller = .read true → (s.worker s.i).phase.loop ≠ none

/-- The caller tested the pointer and it was not null, or was notified. -/
def Sure (s : PoolStart Loop) : Prop :=
  s.caller = .reacquire false ∨ s.caller = .unlock false ∨ s.caller = .read false

/-- What holds in every state: a worker's own pointer is what it has published, and there is an
    entry for each round that is over. -/
structure Tables (s : PoolStart Loop) : Prop where
  loops : ∀ j, (s.worker j).loop = (s.worker j).phase.loop
  count : s.eventLoopPoll.length = s.i

/-- **The invariant.** -/
structure Handshake (s : PoolStart Loop) : Prop extends Tables s where
  entries : s.EntriesPublished
  sure : s.Sure → (s.worker s.i).phase.loop ≠ none

/-! ## 4. One step -/

/-- The pointers after worker `j` has changed to `w`. -/
theorem Tables.worker (h : s.Tables) {j : Nat} {w : Worker Loop} (hw : w.loop = w.phase.loop)
    (j' : Nat) :
    (Function.update s.worker j w j').loop = (Function.update s.worker j w j').phase.loop := by
  by_cases hj : j' = j
  · rw [hj, Function.update_self]
    exact hw
  · rw [Function.update_of_ne hj]
    exact h.loops j'

/-- And after it has come to a phase in which it has published as much as before. -/
theorem Tables.phase (h : s.Tables) {j : Nat} {p p' : WorkerPhase Loop}
    (hphase : (s.worker j).phase = p) (hp : p.loop = p'.loop) (j' : Nat) :
    (Function.update s.worker j { s.worker j with phase := p' } j').loop =
      (Function.update s.worker j { s.worker j with phase := p' } j').phase.loop := by
  refine h.worker ?_ j'
  show (s.worker j).loop = p'.loop
  rw [h.loops, hphase, hp]

theorem tables_initial (threadNum : Nat) : (initial threadNum : PoolStart Loop).Tables :=
  ⟨fun _ => rfl, rfl⟩

theorem Tables.step (h : s.Tables) (hm : s.Moves l s' o) : s'.Tables := by
  cases hm with
  | lock | waits | finds | spuriousWake | reacquire | unlock => exact ⟨h.loops, h.count⟩
  | start hc hlt => exact ⟨h.worker (h.loops s.i), h.count⟩
  | read spurious hc =>
    refine ⟨h.loops, ?_⟩
    show (s.eventLoopPoll ++ [(s.worker s.i).loop]).length = s.i + 1
    rw [List.length_append, h.count]
    rfl
  | begins j loop hphase hstarted => exact ⟨h.phase hphase rfl, h.count⟩
  | locks j loop l hphase hfree => exact ⟨h.phase hphase rfl, h.count⟩
  | publishes j loop l hphase => exact ⟨h.worker rfl, h.count⟩
  | notifies j loop l hphase hi hc => exact ⟨h.phase hphase rfl, h.count⟩
  | notifiesNobody j loop l hphase hno => exact ⟨h.phase hphase rfl, h.count⟩
  | unlocks j loop l hphase => exact ⟨h.phase hphase rfl, h.count⟩

/-- Behind the test, or behind a notification. -/
def sureAt : CallerPhase → Bool
  | .start | .lock | .test | .waiting => false
  | .reacquire spurious | .unlock spurious | .read spurious => !spurious

theorem sure_iff {s : PoolStart Loop} : s.Sure ↔ sureAt s.caller = true := by
  unfold Sure
  cases s.caller with
  | start | lock | test | waiting => simp [sureAt]
  | reacquire spurious | unlock spurious | read spurious => simp [sureAt]

/-- Nowhere else. -/
theorem not_sure {s : PoolStart Loop} (h : sureAt s.caller = false) : ¬ s.Sure := by
  rw [sure_iff, h]
  exact Bool.false_ne_true

theorem handshake_initial (threadNum : Nat) : (initial threadNum : PoolStart Loop).Handshake where
  toTables := tables_initial threadNum
  entries j entry h := by
    rw [initial, List.getElem?_nil] at h
    cases h
  sure h := absurd h (not_sure rfl)

/-- A step that returns no pointer: what was published stays published, and a caller that is sure
    afterwards was sure before, or the pointer is there. -/
theorem Handshake.keeps (h : s.Handshake) (ht : s'.Tables) (hi : s'.i = s.i)
    (hpoll : s'.eventLoopPoll = s.eventLoopPoll)
    (hkept : ∀ j loop, (s.worker j).phase.loop = some loop → (s'.worker j).phase.loop = some loop)
    (hsure : s'.Sure → s.Sure ∨ (s'.worker s.i).phase.loop ≠ none) : s'.Handshake where
  toTables := ht
  entries j entry hentry := by
    rw [hpoll] at hentry
    obtain ⟨loop, hloop, hpub⟩ := h.entries j entry hentry
    exact ⟨loop, hloop, hkept j loop hpub⟩
  sure hs := by
    rw [hi]
    rcases hsure hs with hbefore | hthere
    · obtain ⟨loop, hloop⟩ := Option.ne_none_iff_exists'.mp (h.sure hbefore)
      rw [hkept _ _ hloop]
      exact Option.some_ne_none loop
    · exact hthere

/-- Worker `j` changes to `w`, without taking back what it published. -/
theorem published_update {j : Nat} {p : WorkerPhase Loop} (hphase : (s.worker j).phase = p)
    {w : Worker Loop} (hw : ∀ loop, p.loop = some loop → w.phase.loop = some loop) (j' : Nat)
    (loop : Loop) (hloop : (s.worker j').phase.loop = some loop) :
    (Function.update s.worker j w j').phase.loop = some loop := by
  by_cases hj : j' = j
  · rw [hj, hphase] at hloop
    rw [hj, Function.update_self]
    exact hw loop hloop
  · rw [Function.update_of_ne hj]
    exact hloop

/-- **A step that reads no pointer** keeps the invariant: the caller becomes sure where it tests a
    pointer that is there, and where a worker notifies it, behind the publication. -/
theorem Handshake.step (h : s.Handshake) (hm : s.Moves l s' o)
    (hread : ∀ spurious, l = .caller → s.caller ≠ .read spurious) : s'.Handshake ∧ o = none := by
  have ht := h.toTables.step hm
  cases hm with
  | start hc hlt =>
    exact ⟨h.keeps ht rfl rfl (published_update rfl fun _ hl => hl)
      fun hs => absurd hs (not_sure rfl), rfl⟩
  | lock | waits | spuriousWake =>
    exact ⟨h.keeps ht rfl rfl (fun _ _ hl => hl) fun hs => absurd hs (not_sure rfl), rfl⟩
  | finds hc hthere =>
    refine ⟨h.keeps ht rfl rfl (fun _ _ hl => hl) fun _ => Or.inr ?_, rfl⟩
    rw [← h.loops]
    exact hthere
  | reacquire spurious hc | unlock spurious hc =>
    refine ⟨h.keeps ht rfl rfl (fun _ _ hl => hl) fun hs => Or.inl ?_, rfl⟩
    -- the wake-up was as spurious before
    rw [sure_iff, hc]
    exact sure_iff.mp hs
  | read spurious hc => exact absurd hc (hread spurious rfl)
  | begins j loop hphase hstarted =>
    exact ⟨h.keeps ht rfl rfl (published_update hphase nofun) Or.inl, rfl⟩
  | locks j loop l hphase hfree =>
    exact ⟨h.keeps ht rfl rfl (published_update hphase nofun) Or.inl, rfl⟩
  | publishes j loop l hphase =>
    exact ⟨h.keeps ht rfl rfl (published_update hphase nofun) Or.inl, rfl⟩
  | notifies j loop l hphase hi hc =>
    refine ⟨h.keeps ht rfl rfl (published_update hphase fun _ hl => hl) fun _ => Or.inr ?_, rfl⟩
    show (Function.update s.worker j _ s.i).phase.loop ≠ none
    rw [hi, Function.update_self]
    exact Option.some_ne_none l
  | notifiesNobody j loop l hphase hno =>
    exact ⟨h.keeps ht rfl rfl (published_update hphase fun _ hl => hl) Or.inl, rfl⟩
  | unlocks j loop l hphase =>
    exact ⟨h.keeps ht rfl rfl (published_update hphase fun _ hl => hl) Or.inl, rfl⟩

/-- **A pointer that is read when it is published** is returned, and the invariant is kept. -/
theorem Handshake.read (h : s.Handshake) {spurious : Bool} (hc : s.caller = .read spurious)
    {loop : Loop} (hpub : (s.worker s.i).phase.loop = some loop) :
    s.afterRead.Handshake ∧ (s.worker s.i).loop = some loop := by
  have hloop : (s.worker s.i).loop = some loop := by rw [h.loops, hpub]
  refine ⟨⟨h.toTables.step (.read spurious hc), fun j entry hentry => ?_, fun hsure => ?_⟩, hloop⟩
  · have hentry' : (s.eventLoopPoll ++ [(s.worker s.i).loop])[j]? = some entry := hentry
    rcases Nat.lt_or_ge j s.eventLoopPoll.length with hlt | hge
    · rw [List.getElem?_append_left hlt] at hentry'
      exact h.entries j entry hentry'
    · rw [List.getElem?_append_right hge] at hentry'
      -- the new entry is that of the current worker
      have hj : j = s.i := by
        obtain ⟨hin, -⟩ := List.getElem?_eq_some_iff.mp hentry'
        rw [List.length_singleton] at hin
        have hcount := h.count
        omega
      subst hj
      rw [h.count, Nat.sub_self, hloop] at hentry'
      cases hentry'
      exact ⟨loop, rfl, hpub⟩
  · exact absurd hsure (not_sure rfl)

/-- A step that reads no pointer obeys the law, and the condition asks nothing of it. -/
theorem Handshake.quiet (h : s'.Handshake) (ho : o = none)
    (hno : ∀ sp, l = .caller → s.caller ≠ .read sp) :
    (s.ReturnsPublished l s' o ↔ s.SpuriousReadsLate l s' o) ∧
      (s.SpuriousReadsLate l s' o → s'.Handshake) := by
  refine ⟨⟨fun _ hl hc => absurd hc (hno true hl), fun _ => ⟨fun pointer hp => ?_, ?_⟩⟩,
    fun _ => h⟩
  · rw [ho] at hp
    cases hp
  · exact h.entries

/-- A step that reads a pointer obeys the law exactly if the worker has published it, and a caller
    that is sure reads no other. -/
theorem Handshake.readStep (h : s.Handshake) {sp : Bool} (hc : s.caller = .read sp) :
    (s.ReturnsPublished .caller s.afterRead (some (s.worker s.i).loop) ↔
        s.SpuriousReadsLate .caller s.afterRead (some (s.worker s.i).loop)) ∧
      (s.SpuriousReadsLate .caller s.afterRead (some (s.worker s.i).loop) →
        s.afterRead.Handshake) := by
  cases hpub : (s.worker s.i).phase.loop with
  | some loop =>
    obtain ⟨hkept, hloop⟩ := h.read hc hpub
    refine ⟨⟨fun _ _ _ hnone => ?_, fun _ => ⟨fun pointer hp => ?_, hkept.entries⟩⟩,
      fun _ => hkept⟩
    · rw [hpub] at hnone
      cases hnone
    · cases hp
      exact ⟨loop, hloop, hpub⟩
  | none =>
    -- only a caller that is not sure reads a null pointer
    have hsp : sp = true := by
      cases sp with
      | true => rfl
      | false => exact absurd hpub (h.sure (sure_iff.mpr (by rw [hc]; rfl)))
    rw [hsp] at hc
    have hlate : ¬ s.SpuriousReadsLate .caller s.afterRead (some (s.worker s.i).loop) :=
      fun hcond => hcond rfl hc hpub
    refine ⟨⟨fun hlaw => ?_, fun hcond => absurd hcond hlate⟩, fun hcond => absurd hcond hlate⟩
    obtain ⟨loop, -, hsome⟩ := hlaw.1 _ rfl
    rw [hpub] at hsome
    cases hsome

theorem returnsPublished_step (h : s.Handshake)
    (hs : (poolStart Loop).step s l = some (s', o)) :
    (s.ReturnsPublished l s' o ↔ s.SpuriousReadsLate l s' o) ∧
      (s.SpuriousReadsLate l s' o → s'.Handshake) := by
  have hm := moves_of_step hs
  by_cases hread : ∃ sp, l = .caller ∧ s.caller = .read sp
  · obtain ⟨sp, rfl, hc⟩ := hread
    cases hm with
    | read _ _ => exact h.readStep hc
    | start hc' | lock hc' | waits hc' | finds hc' | reacquire _ hc' | unlock _ hc' =>
      cases hc.symm.trans hc'
  · have hno : ∀ sp, l = .caller → s.caller ≠ .read sp := fun sp hl hc => hread ⟨sp, hl, hc⟩
    obtain ⟨hkept, ho⟩ := h.step hm hno
    exact hkept.quiet ho hno

/-! ## 5. Every run -/

/-- **The pool holds no null loop exactly where every spurious wake-up is late.** For any number of
    workers and every interleaving: each pointer that `getEventLoopInThread` returns, and each entry
    of the pool, is the loop that its worker published, if and only if no pointer is read after a
    spurious wake-up before the worker has published it. -/
theorem entriesPublished_iff (threadNum : Nat) (ls : List (PoolStartLabel Loop)) :
    (poolStart Loop).Along ReturnsPublished (initial threadNum) ls ↔
      (poolStart Loop).Along SpuriousReadsLate (initial threadNum) ls :=
  Machine.along_iff (I := Handshake) (fun _ _ _ _ hI hs => returnsPublished_step hI hs)
    (handshake_initial threadNum)

/-- One worker, which has not run yet when the caller's wait returns spuriously. -/
def spuriousRun : List (PoolStartLabel Nat) :=
  [.caller, .caller, .caller, .spuriousWake, .caller, .caller, .caller]

/-- **A spurious wake-up puts a null pointer into the pool.** -/
theorem spurious_wake_gives_null :
    ((poolStart Nat).run (initial 1) spuriousRun).map (fun p => p.1.eventLoopPoll) =
        some [none] ∧
      ¬ ∀ (threadNum : Nat) (ls : List (PoolStartLabel Nat)),
        (poolStart Nat).Along ReturnsPublished (initial threadNum) ls := by
  refine ⟨by decide, fun h => ?_⟩
  have hrun := h 1 spuriousRun
  iterate 6 replace hrun := (hrun _ _ rfl).2
  obtain ⟨loop, hnull, -⟩ := (hrun _ _ rfl).1.1 _ rfl
  cases hnull

end PoolStart

end PluginsEngine
