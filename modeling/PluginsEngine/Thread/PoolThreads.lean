/-
  File:      PluginsEngine/Thread/PoolThreads.lean
  Subject:   `EventThreadPool::init` WITH THE THREADS IT STARTS.

  `poolStart` takes a call of `start` for one step, after which the worker is in its own code. Here
  each worker is a `Thread`: it is constructed, waits in `beginRun`, and `start` is called on it,
  while the workers before it are at work.

  * `poolThreads` -- `init`, its workers and their threads, in any interleaving;
  * `Joined`, `Joined.step` -- how far a thread is, and how far its worker;
  * `poolThreads_simulates` -- what is seen of the pool is a run of `poolStart`;
  * `left`, `left_step` -- the steps that are left to do;
  * `Joined.finished` -- where nobody can go on, `init` has returned and every thread is in `run`;
  * `init_starts_the_threads` -- the three together, over every run.
-/
import PluginsEngine.Thread.InitReturns
import PluginsEngine.Thread.Thread

namespace PluginsEngine

open Library

variable {Loop : Type}

/-! ## 1. The pool and its threads -/

structure PoolThreads (Loop : Type) where
  pool : PoolStart Loop
  /-- The thread of each worker, once it is constructed. -/
  thread : Nat → Option ThreadState

inductive PoolThreadsLabel (Loop : Type) where
  /-- `new EventLoopThread()` -/
  | construct
  | thread (j : Nat) (l : ThreadLabel)
  /-- A step of `init` behind `start`, of `getEventLoopInThread`, or of `EventLoopThread::run`. -/
  | pool (l : PoolStartLabel Loop)

/-- The worker has not come to `run`. -/
def WorkerPhase.isBeginRun : WorkerPhase Loop → Bool
  | .beginRun => true
  | .created _ | .locked _ | .published _ | .notified _ | .running _ => false

/-- It is in `loop.run()`, the end of its `run`. -/
def WorkerPhase.isRunning : WorkerPhase Loop → Bool
  | .running _ => true
  | .beginRun | .created _ | .locked _ | .published _ | .notified _ => false

namespace PoolThreads

def initial (threadNum : Nat) : PoolThreads Loop := ⟨.initial threadNum, fun _ => none⟩

variable (s : PoolThreads Loop)

def setThread (j : Nat) (th : ThreadState) : PoolThreads Loop :=
  { s with thread := Function.update s.thread j (some th) }

theorem setThread_self (j : Nat) (th : ThreadState) : (s.setThread j th).thread j = some th :=
  Function.update_self j _ _

theorem setThread_of_ne {j j' : Nat} (h : j' ≠ j) (th : ThreadState) :
    (s.setThread j th).thread j' = s.thread j' := Function.update_of_ne h _ _

/-- `init` calls `start` once, on the thread it has constructed last; and `run` returns behind
    `loop.run()`. -/
def admitsThread (j : Nat) (th : ThreadState) : ThreadLabel → Bool
  | .start => j = s.pool.i && s.pool.caller = .start && th.calls.isEmpty
  | .runReturns => (s.pool.worker j).phase.isRunning
  | .thread | .spuriousWake | .call _ => true

/-- `start` is none of them; and the worker begins when its thread is in `run`. -/
def admitsPool : PoolStartLabel Loop → Bool
  | .caller => s.pool.caller != .start
  | .spuriousWake => true
  | .worker j _ =>
    !(s.pool.worker j).phase.isBeginRun || (s.thread j).map ThreadState.pc = some .inRun

/-- When `start` returns, `init` goes on. -/
def onShown : Option ThreadShown → Option (PoolThreads Loop)
  | some (.startReturns _) => s.pool.callerStep.map fun p => { s with pool := p.1 }
  | some .run | none => some s

end PoolThreads

/-- **`init` with its workers and their threads.** -/
def poolThreads (Loop : Type) :
    Machine (PoolThreads Loop) (PoolThreadsLabel Loop) (Option (Option Loop)) where
  step s
    | .construct =>
      if s.pool.caller = .start ∧ s.pool.i < s.pool.threadNum ∧ s.thread s.pool.i = none then
        some (s.setThread s.pool.i .initial, none)
      else none
    | .thread j l =>
      match s.thread j with
      | none => none
      | some th =>
        if s.admitsThread j th l then
          match threadStart.step th l with
          | none => none
          | some (th', o) => ((s.setThread j th').onShown o).map fun s' => (s', none)
        else none
    | .pool l =>
      if s.admitsPool l then
        ((poolStart Loop).step s.pool l).map fun p => ({ s with pool := p.1 }, p.2)
      else none

/-! ## 2. One step -/

namespace PoolThreads

variable {s s' : PoolThreads Loop}

/-- **What a step does**: a thread is constructed; a thread or its `start` goes on; `start` returns
    to `init`; or the pool goes on. -/
inductive Move (s : PoolThreads Loop) :
    PoolThreadsLabel Loop → PoolThreads Loop → Option (Option Loop) → Prop where
  | construct (hcaller : s.pool.caller = .start) (hlt : s.pool.i < s.pool.threadNum)
      (hnone : s.thread s.pool.i = none) :
      Move s .construct (s.setThread s.pool.i .initial) none
  | thread {j : Nat} {th th' : ThreadState} {l : ThreadLabel} {o : Option ThreadShown}
      (hj : s.thread j = some th) (hadmits : s.admitsThread j th l = true)
      (hstep : threadStart.step th l = some (th', o)) (ho : ∀ i, o ≠ some (.startReturns i)) :
      Move s (.thread j l) (s.setThread j th') none
  | returns {j i : Nat} {th th' : ThreadState} {l : ThreadLabel} {pool : PoolStart Loop}
      {o : Option (Option Loop)} (hj : s.thread j = some th)
      (hstep : threadStart.step th l = some (th', some (.startReturns i)))
      (hpool : s.pool.callerStep = some (pool, o)) :
      Move s (.thread j l) { s.setThread j th' with pool := pool } none
  | pool {l : PoolStartLabel Loop} {pool : PoolStart Loop} {o : Option (Option Loop)}
      (hadmits : s.admitsPool l = true) (hstep : (poolStart Loop).step s.pool l = some (pool, o)) :
      Move s (.pool l) { s with pool := pool } o

theorem move_of_step {l : PoolThreadsLabel Loop} {o : Option (Option Loop)}
    (hs : (poolThreads Loop).step s l = some (s', o)) : s.Move l s' o := by
  cases l with
  | construct =>
    simp only [poolThreads] at hs
    split at hs
    · rename_i hwhere
      cases hs
      exact .construct hwhere.1 hwhere.2.1 hwhere.2.2
    · cases hs
  | pool l =>
    simp only [poolThreads] at hs
    split at hs
    · rename_i hadmits
      obtain ⟨⟨pool, o'⟩, hstep, heq⟩ := Option.map_eq_some_iff.mp hs
      cases heq
      exact .pool hadmits hstep
    · cases hs
  | thread j l =>
    simp only [poolThreads] at hs
    split at hs
    · cases hs
    · rename_i th hj
      split at hs
      · rename_i hadmits
        split at hs
        · cases hs
        · rename_i th' o' hstep
          obtain ⟨t, ht, heq⟩ := Option.map_eq_some_iff.mp hs
          cases heq
          cases o' with
          | none =>
            cases ht
            exact .thread hj hadmits hstep nofun
          | some shown =>
            cases shown with
            | run =>
              cases ht
              exact .thread hj hadmits hstep nofun
            | startReturns i =>
              obtain ⟨⟨pool, o''⟩, hpool, heq⟩ := Option.map_eq_some_iff.mp ht
              cases heq
              exact .returns hj hstep hpool
      · cases hs

end PoolThreads

namespace PoolStart

variable {s s' : PoolStart Loop}

/-- A step of a worker: it leaves its phase, and nothing happens to the others. -/
theorem worker_of_workerStep {j : Nat} {loop : Loop} {o : Option (Option Loop)}
    (hm : s.Moves (.worker j loop) s' o) :
    s'.i = s.i ∧ (s.worker j).phase.isRunning = false ∧
      ∃ w, s'.worker = Function.update s.worker j w ∧ w.started = (s.worker j).started := by
  cases hm with
  | begins _ _ hphase | locks _ _ _ hphase | publishes _ _ _ hphase | notifies _ _ _ hphase
  | notifiesNobody _ _ _ hphase | unlocks _ _ _ hphase =>
    exact ⟨rfl, by rw [hphase]; rfl, _, rfl, rfl⟩

/-- A call of `start`, as one step. -/
theorem worker_of_start {o : Option (Option Loop)} (hm : s.Moves .caller s' o)
    (hc : s.caller = .start) :
    s'.worker = Function.update s.worker s.i { s.worker s.i with started := true } ∧
      s'.i = s.i ∧ o = none := by
  cases hm with
  | start => exact ⟨rfl, rfl, rfl⟩
  | lock hc' | waits hc' | finds hc' | reacquire _ hc' | unlock _ hc' | read _ hc' =>
    cases hc.symm.trans hc'

/-- A step of the caller behind `start`. -/
theorem worker_of_callerStep {o : Option (Option Loop)} (hm : s.Moves .caller s' o)
    (hne : s.caller ≠ .start) : s'.worker = s.worker := by
  cases hm with
  | start hc => exact absurd hc hne
  | lock | waits | finds | reacquire | unlock | read => rfl

theorem threadNum_step {l : PoolStartLabel Loop} {o : Option (Option Loop)}
    (hs : (poolStart Loop).step s l = some (s', o)) : s'.threadNum = s.threadNum := by
  cases moves_of_step hs <;> rfl

end PoolStart

/-! ## 3. A thread and its worker -/

/-- How far the thread of worker `j` is. -/
structure Keeps (pool : PoolStart Loop) (j : Nat) (th : ThreadState) : Prop where
  sound : th.Sound
  inRange : j < pool.threadNum
  started : (pool.worker j).started = true → th.calls = [.returned]
  notStarted : (pool.worker j).started = false →
    th.calls = [] ∨ j = pool.i ∧ ∃ c, th.calls = [c] ∧ c ≠ .returned
  begun : (pool.worker j).phase.isBeginRun = false → th.pc.begun = true
  ended : th.pc = .returned → (pool.worker j).phase.isRunning = true

/-- The pool goes on, and the worker with it at most when its thread is in `run`. -/
theorem Keeps.pool {pool pool' : PoolStart Loop} {j : Nat} {th : ThreadState}
    (h : Keeps pool j th) (hn : pool'.threadNum = pool.threadNum)
    (hi : pool'.i = pool.i ∨ (pool.worker pool.i).started = true)
    (hstarted : (pool'.worker j).started = (pool.worker j).started)
    (hphase : (pool'.worker j).phase = (pool.worker j).phase ∨
      th.pc.begun = true ∧ (pool.worker j).phase.isRunning = false) : Keeps pool' j th where
  sound := h.sound
  inRange := hn ▸ h.inRange
  started hs := h.started (hstarted ▸ hs)
  notStarted hs := by
    rw [hstarted] at hs
    refine (h.notStarted hs).imp_right fun hlast => ⟨?_, hlast.2⟩
    rcases hi with hi | hi
    · exact hlast.1.trans hi.symm
    · rw [← hlast.1, hs] at hi
      cases hi
  begun hb := by
    rcases hphase with hp | ⟨hp, -⟩
    · exact h.begun (hp ▸ hb)
    · exact hp
  ended hr := by
    rcases hphase with hp | ⟨-, hp⟩
    · rw [hp]
      exact h.ended hr
    · rw [h.ended hr] at hp
      cases hp

/-- The thread goes on, or a call of `start` does that does not return. -/
theorem Keeps.thread {pool : PoolStart Loop} {j : Nat} {th th' : ThreadState} {l : ThreadLabel}
    {o : Option ThreadShown} (h : Keeps pool j th) (hstep : threadStart.step th l = some (th', o))
    (ho : ∀ i, o ≠ some (.startReturns i))
    (hstart : l = .start → j = pool.i ∧ (pool.worker j).started = false ∧ th.calls = [])
    (hruns : l = .runReturns → (pool.worker j).phase.isRunning = true) : Keeps pool j th' where
  sound := h.sound.step hstep
  inRange := h.inRange
  started hs := by
    rcases ThreadState.calls_step hstep with ⟨hcalls, -⟩ | ⟨rfl, -⟩ | ⟨i, c₀, c, -, hi, hc₀, -⟩
    · exact hcalls.trans (h.started hs)
    · rw [(hstart rfl).2.1] at hs
      cases hs
    · -- the only call has returned
      rw [h.started hs] at hi
      exact absurd (List.mem_singleton.mp (List.mem_of_getElem? hi)) hc₀
  notStarted hs := by
    rcases ThreadState.calls_step hstep with ⟨hcalls, -⟩ | ⟨rfl, hcalls, -⟩ |
      ⟨i, c₀, c, -, hi, -, hcalls, ⟨-, hc⟩ | ⟨hx, -⟩⟩
    · rw [hcalls]
      exact h.notStarted hs
    · refine Or.inr ⟨(hstart rfl).1, .lock, ?_, nofun⟩
      rw [hcalls, (hstart rfl).2.2]
      rfl
    · rcases h.notStarted hs with hnil | ⟨hj, c₁, hone, -⟩
      · rw [hnil] at hi
        cases hi
      · rw [hone] at hi hcalls
        have hzero : i = 0 := Nat.lt_one_iff.mp (List.getElem?_eq_some_iff.mp hi).1
        rw [hzero] at hcalls
        exact Or.inr ⟨hj, c, hcalls, hc⟩
    · exact absurd hx (ho i)
  begun hb := by
    have hbefore := h.begun hb
    have hafter := ThreadState.begun_step hstep
    rw [hbefore] at hafter
    cases hp : th'.pc.begun with
    | true => rfl
    | false =>
      rw [hp] at hafter
      exact absurd hafter (Nat.ne_of_lt (Nat.lt_of_lt_of_le Nat.zero_lt_one (Nat.le_add_right 1 _)))
  ended hp := (ThreadState.returned_step hstep hp).elim h.ended hruns

/-- `start` returns to `init`. -/
theorem Keeps.returns {pool : PoolStart Loop} {j i : Nat} {th th' : ThreadState} {l : ThreadLabel}
    (h : Keeps pool j th)
    (hstep : threadStart.step th l = some (th', some (.startReturns i))) :
    j = pool.i ∧ (pool.worker j).started = false ∧ th'.calls = [.returned] := by
  rcases ThreadState.calls_step hstep with ⟨-, hx⟩ | ⟨-, -, hx⟩ |
    ⟨k, c₀, c, -, hk, hc₀, hcalls, ⟨hx, -⟩ | ⟨-, -, rfl⟩⟩
  · exact absurd rfl (hx i)
  · cases hx
  · cases hx
  · cases hstarted : (pool.worker j).started with
    | true =>
      rw [h.started hstarted] at hk
      exact absurd (List.mem_singleton.mp (List.mem_of_getElem? hk)) hc₀
    | false =>
      rcases h.notStarted hstarted with hnil | ⟨hj, c₁, hone, -⟩
      · rw [hnil] at hk
        cases hk
      · rw [hone] at hk hcalls
        have hzero : k = 0 := Nat.lt_one_iff.mp (List.getElem?_eq_some_iff.mp hk).1
        rw [hzero] at hcalls
        exact ⟨hj, rfl, hcalls⟩

/-- Then its worker is started, and has not begun yet. -/
theorem Keeps.handedOver {pool pool' : PoolStart Loop} {j i : Nat} {th th' : ThreadState}
    {l : ThreadLabel} (h : Keeps pool j th)
    (hstep : threadStart.step th l = some (th', some (.startReturns i)))
    (hn : pool'.threadNum = pool.threadNum) (hfresh : (pool.worker j).phase = .beginRun)
    (hworker : pool'.worker j = { pool.worker j with started := true }) : Keeps pool' j th' where
  sound := h.sound.step hstep
  inRange := hn ▸ h.inRange
  started _ := (h.returns hstep).2.2
  notStarted hs := by
    rw [hworker] at hs
    cases hs
  begun hb := by
    rw [hworker] at hb
    rw [show (pool.worker j).phase = .beginRun from hfresh] at hb
    cases hb
  ended hp := by
    rcases ThreadState.returned_step hstep hp with hr | rfl
    · have hrunning := h.ended hr
      rw [hfresh] at hrunning
      cases hrunning
    · simp only [threadStart] at hstep
      split at hstep <;> cases hstep

/-! ## 4. The pool is a run of `poolStart` -/

/-- **The invariant.** -/
structure Joined (s : PoolThreads Loop) : Prop where
  holds : s.pool.Holds
  constructed : ∀ j, s.thread j = none → (s.pool.worker j).started = false
  threads : ∀ j th, s.thread j = some th → Keeps s.pool j th

namespace Joined

open PoolThreads

variable {s s' : PoolThreads Loop}

theorem initial (threadNum : Nat) : Joined (.initial threadNum : PoolThreads Loop) where
  holds := PoolStart.holds_initial threadNum
  constructed _ _ := rfl
  threads _ _ hj := by cases hj

/-- The worker that `init` is to start. -/
theorem next_not_started (h : Joined s) (hc : s.pool.caller = .start) :
    (s.pool.worker s.pool.i).started = false := by
  refine (Bool.not_eq_true _).mp fun hs => ?_
  rcases (h.holds.started s.pool.i).mp hs with hlt | ⟨-, hne⟩
  · exact Nat.lt_irrefl _ hlt
  · exact hne hc

/-- A worker that is not started and whose thread is being started is that one. -/
theorem caller_of_not_started (h : Joined s) {j : Nat} (hj : j = s.pool.i)
    (hs : (s.pool.worker j).started = false) : s.pool.caller = .start := by
  by_contra hne
  rw [(h.holds.started j).mpr (Or.inr ⟨hj, hne⟩)] at hs
  cases hs

theorem setThread (h : Joined s) {j : Nat} {th : ThreadState} (hk : Keeps s.pool j th) :
    Joined (s.setThread j th) where
  holds := h.holds
  constructed j' hj' := by
    by_cases hjj : j' = j
    · rw [hjj, setThread_self] at hj'
      cases hj'
    · rw [setThread_of_ne s hjj] at hj'
      exact h.constructed j' hj'
  threads j' th' hj' := by
    by_cases hjj : j' = j
    · rw [hjj, setThread_self] at hj'
      cases hj'
      exact hjj ▸ hk
    · rw [setThread_of_ne s hjj] at hj'
      exact h.threads j' th' hj'

/-- `start` has returned to `init`, and the worker is started. -/
theorem returns (h : Joined s) {j i : Nat} {th th' : ThreadState} {l : ThreadLabel}
    {pool : PoolStart Loop} {o : Option (Option Loop)} (hj : s.thread j = some th)
    (hstep : threadStart.step th l = some (th', some (.startReturns i)))
    (hpool : s.pool.callerStep = some (pool, o)) :
    Joined { s.setThread j th' with pool := pool } ∧ o = none := by
  have hk := h.threads j th hj
  obtain ⟨hi, hnot, hcalls⟩ := hk.returns hstep
  have hc : s.pool.caller = .start := h.caller_of_not_started hi hnot
  have hmoves := PoolStart.moves_of_callerStep hpool
  have hholds : pool.Holds := h.holds.moves hmoves
  have hn : pool.threadNum = s.pool.threadNum := PoolStart.threadNum_step (l := .caller) hpool
  -- what `init` does there is to take the worker as started
  obtain ⟨hworker, hsame, rfl⟩ := PoolStart.worker_of_start hmoves hc
  have hself : pool.worker j = { s.pool.worker j with started := true } := by
    rw [hworker, hi, Function.update_self]
  have hother : ∀ {j'}, j' ≠ j → pool.worker j' = s.pool.worker j' := fun hjj => by
    rw [hworker, Function.update_of_ne (hi ▸ hjj)]
  refine ⟨⟨hholds, fun j' hj' => ?_, fun j' th'' hj' => ?_⟩, rfl⟩
  · replace hj' : (s.setThread j th').thread j' = none := hj'
    by_cases hjj : j' = j
    · rw [hjj, setThread_self] at hj'
      cases hj'
    · rw [setThread_of_ne s hjj] at hj'
      exact (congrArg Worker.started (hother hjj)).trans (h.constructed j' hj')
  · replace hj' : (s.setThread j th').thread j' = some th'' := hj'
    by_cases hjj : j' = j
    · rw [hjj, setThread_self] at hj'
      cases hj'
      exact hjj ▸ hk.handedOver hstep hn (h.holds.fresh j hnot) hself
    · rw [setThread_of_ne s hjj] at hj'
      exact (h.threads j' th'' hj').pool hn (Or.inl hsame) (congrArg Worker.started (hother hjj))
        (Or.inl (congrArg Worker.phase (hother hjj)))

/-- The pool has gone on. -/
theorem pool (h : Joined s) {l : PoolStartLabel Loop} {pool : PoolStart Loop}
    {o : Option (Option Loop)} (hadmits : s.admitsPool l = true)
    (hstep : (poolStart Loop).step s.pool l = some (pool, o)) :
    Joined { s with pool := pool } := by
  have hmoves := PoolStart.moves_of_step hstep
  have hholds : pool.Holds := h.holds.moves hmoves
  have hn := PoolStart.threadNum_step hstep
  -- it is enough to see what happens to one worker
  suffices hsame : (pool.i = s.pool.i ∨ (s.pool.worker s.pool.i).started = true) ∧
      ∀ j, (pool.worker j).started = (s.pool.worker j).started ∧
        ((pool.worker j).phase = (s.pool.worker j).phase ∨
          (∀ th, s.thread j = some th → th.pc.begun = true) ∧
            (s.pool.worker j).phase.isRunning = false) by
    obtain ⟨hi, hworker⟩ := hsame
    exact ⟨hholds, fun j hj => (hworker j).1.trans (h.constructed j hj), fun j th hj =>
      (h.threads j th hj).pool hn hi (hworker j).1
        ((hworker j).2.imp_right fun hx => ⟨hx.1 th hj, hx.2⟩)⟩
  cases l with
  | caller =>
    have hne : s.pool.caller ≠ .start := by
      simpa only [admitsPool, bne_iff_ne] using hadmits
    have hworker := PoolStart.worker_of_callerStep hmoves hne
    exact ⟨Or.inr ((h.holds.started _).mpr (Or.inr ⟨rfl, hne⟩)), fun j =>
      ⟨by rw [hworker], Or.inl (by rw [hworker])⟩⟩
  | spuriousWake =>
    cases hmoves
    exact ⟨Or.inl rfl, fun _ => ⟨rfl, Or.inl rfl⟩⟩
  | worker j loop =>
    obtain ⟨hi, hrunning, w, hworker, hstarted⟩ := PoolStart.worker_of_workerStep hmoves
    refine ⟨Or.inl hi, fun j' => ?_⟩
    rw [hworker]
    by_cases hjj : j' = j
    · subst hjj
      rw [Function.update_self]
      refine ⟨hstarted, Or.inr ⟨fun th hj => ?_, hrunning⟩⟩
      cases hb : (s.pool.worker j').phase.isBeginRun with
      | false => exact (h.threads j' th hj).begun hb
      | true =>
        simp only [admitsPool, hb, hj, Bool.not_true, Bool.false_or, Option.map_some,
          decide_eq_true_eq, Option.some.injEq] at hadmits
        rw [hadmits]
        rfl
    · rw [Function.update_of_ne hjj]
      exact ⟨rfl, Or.inl rfl⟩

/-- **Every step keeps the invariant**, and is a step of `poolStart` or leaves the pool alone. -/
theorem step (h : Joined s) {l : PoolThreadsLabel Loop} {o : Option (Option Loop)}
    (hs : (poolThreads Loop).step s l = some (s', o)) :
    Joined s' ∧ ((∃ k, (poolStart Loop).step s.pool k = some (s'.pool, o)) ∨
      (s'.pool = s.pool ∧ o = none)) := by
  cases move_of_step hs with
  | construct hcaller hlt hnone =>
    refine ⟨h.setThread ?_, Or.inr ⟨rfl, rfl⟩⟩
    have hnot := h.next_not_started hcaller
    refine ⟨ThreadState.sound_initial, hlt, fun hx => ?_, fun _ => Or.inl rfl, fun hb => ?_, nofun⟩
    · rw [hnot] at hx
      cases hx
    · rw [h.holds.fresh _ hnot] at hb
      cases hb
  | thread hj hadmits hstep ho =>
    rename_i j th th' l o'
    refine ⟨h.setThread ((h.threads j th hj).thread hstep ho ?_ ?_), Or.inr ⟨rfl, rfl⟩⟩
    · rintro rfl
      simp only [admitsThread, Bool.and_eq_true, decide_eq_true_eq, List.isEmpty_iff] at hadmits
      exact ⟨hadmits.1.1, hadmits.1.1 ▸ h.next_not_started hadmits.1.2, hadmits.2⟩
    · rintro rfl
      exact hadmits
  | returns hj hstep hpool =>
    obtain ⟨hjoined, rfl⟩ := h.returns hj hstep hpool
    exact ⟨hjoined, Or.inl ⟨.caller, hpool⟩⟩
  | pool hadmits hstep => exact ⟨h.pool hadmits hstep, Or.inl ⟨_, hstep⟩⟩

end Joined

/-- **What is seen of the pool is `poolStart`**: the call of `start` there is one step. -/
def poolThreads_simulates (Loop : Type) : Simulation (poolThreads Loop) (poolStart Loop) where
  inv := Joined
  abs := PoolThreads.pool
  step h hs := h.step hs

/-! ## 5. What is left to do -/

/-- The steps that are counted: all but the end of a `run` and a wait in `beginRun` that comes back
    by itself. -/
def PoolThreadsLabel.cost : PoolThreadsLabel Loop → Nat
  | .thread _ .spuriousWake | .thread _ .runReturns => 0
  | .construct | .pool _ | .thread _ _ => 1

/-- What such a wait adds to them. -/
def PoolThreadsLabel.credit : PoolThreadsLabel Loop → Nat
  | .thread _ .spuriousWake => 2
  | .construct | .pool _ | .thread _ _ => 0

/-- The steps of a thread that are left, from its construction on. -/
def threadLeft : Option ThreadState → Nat
  | none => 10
  | some th => th.left + if th.calls = [] then 7 else 0

namespace PoolThreads

variable {s s' : PoolThreads Loop}

/-- At most so many steps are left. -/
def left (s : PoolThreads Loop) : Nat :=
  ((Finset.range s.pool.threadNum).sum fun j => threadLeft (s.thread j)) + s.pool.remaining

theorem left_initial (threadNum : Nat) :
    (initial threadNum : PoolThreads Loop).left = 22 * threadNum := by
  show ((Finset.range threadNum).sum fun _ => 10) + (PoolStart.initial threadNum).remaining = _
  rw [Finset.sum_const_nat fun _ _ => rfl, Finset.card_range, PoolStart.remaining_initial]
  omega

/-- A sum in which one term has become smaller, or has become larger by so much. -/
theorem sum_setThread {j n : Nat} (hj : j < n) (th : ThreadState) {a b : Nat}
    (hle : threadLeft (some th) + a ≤ threadLeft (s.thread j) + b) :
    ((Finset.range n).sum fun j' => threadLeft ((s.setThread j th).thread j')) + a ≤
      ((Finset.range n).sum fun j' => threadLeft (s.thread j')) + b := by
  have hmem : j ∈ Finset.range n := Finset.mem_range.mpr hj
  rw [← Finset.add_sum_erase _ _ hmem, ← Finset.add_sum_erase _ _ hmem, setThread_self]
  have hrest : ((Finset.range n).erase j).sum (fun j' => threadLeft ((s.setThread j th).thread j'))
      = ((Finset.range n).erase j).sum fun j' => threadLeft (s.thread j') :=
    Finset.sum_congr rfl fun j' hj' => by
      rw [setThread_of_ne s (Finset.ne_of_mem_erase hj')]
  rw [hrest]
  omega

/-- A step of a thread. -/
theorem threadLeft_step (Loop : Type) (j : Nat) {th th' : ThreadState} {l : ThreadLabel}
    {o : Option ThreadShown} (hs : threadStart.step th l = some (th', o))
    (hstart : l = .start → th.calls = []) :
    threadLeft (some th') + (PoolThreadsLabel.thread j l : PoolThreadsLabel Loop).cost ≤
      threadLeft (some th) + (PoolThreadsLabel.thread j l : PoolThreadsLabel Loop).credit := by
  have hleft := ThreadState.left_step hs
  show th'.left + (if th'.calls = [] then 7 else 0) + _ ≤
    th.left + (if th.calls = [] then 7 else 0) + _
  have hempty : l ≠ .start → (th'.calls = [] ↔ th.calls = []) := by
    intro hne
    rcases ThreadState.calls_step hs with ⟨hcalls, -⟩ | ⟨hx, -⟩ | ⟨i, c₀, c, -, hi, -, hcalls, -⟩
    · rw [hcalls]
    · exact absurd hx hne
    · rw [hcalls, List.set_eq_nil_iff]
  cases l with
  | start =>
    have hcalls : th'.calls ≠ [] := by
      rcases ThreadState.calls_step hs with ⟨hcalls, -⟩ | ⟨-, hcalls, -⟩ | ⟨i, c₀, c, hx, -⟩
      · cases hs
        exact List.append_ne_nil_of_right_ne_nil _ nofun
      · rw [hcalls]
        exact List.append_ne_nil_of_right_ne_nil _ nofun
      · cases hx
    rw [if_neg hcalls, if_pos (hstart rfl)]
    simp only [ThreadLabel.cost, ThreadLabel.credit] at hleft
    simp only [PoolThreadsLabel.cost, PoolThreadsLabel.credit]
    omega
  | thread | spuriousWake | runReturns | call i =>
    rw [if_congr (hempty fun hx => by cases hx) rfl rfl]
    simp only [ThreadLabel.cost, ThreadLabel.credit] at hleft
    simp only [PoolThreadsLabel.cost, PoolThreadsLabel.credit]
    omega

/-- **Every step does some of what is left.** -/
theorem left_step (h : Joined s) {l : PoolThreadsLabel Loop} {o : Option (Option Loop)}
    (hs : (poolThreads Loop).step s l = some (s', o)) :
    s'.left + l.cost ≤ s.left + l.credit := by
  cases move_of_step hs with
  | construct hcaller hlt hnone =>
    have hsum := sum_setThread (s := s) hlt .initial (a := 1) (b := 0) (by
      rw [hnone]
      exact Nat.le_refl 10)
    show ((Finset.range s.pool.threadNum).sum _) + s.pool.remaining + 1 ≤
      ((Finset.range s.pool.threadNum).sum _) + s.pool.remaining + 0
    omega
  | thread hj hadmits hstep ho =>
    rename_i j th th' l o'
    have hone := threadLeft_step Loop j hstep fun hl => by
      subst hl
      simp only [admitsThread, Bool.and_eq_true, List.isEmpty_iff] at hadmits
      exact hadmits.2
    have hsum := sum_setThread (s := s) (h.threads j th hj).inRange th' (hj ▸ hone)
    show ((Finset.range s.pool.threadNum).sum _) + s.pool.remaining + _ ≤
      ((Finset.range s.pool.threadNum).sum _) + s.pool.remaining + _
    omega
  | returns hj hstep hpool =>
    rename_i j i th th' l pool o'
    have hk := h.threads j th hj
    have hone := threadLeft_step Loop j hstep fun hl => by
      subst hl
      cases hstep
    have hsum := sum_setThread (s := s) hk.inRange th' (hj ▸ hone)
    have hless : pool.remaining < s.pool.remaining :=
      PoolStart.remaining_step (l := .caller) h.holds hpool
    have hn : pool.threadNum = s.pool.threadNum := PoolStart.threadNum_step (l := .caller) hpool
    show ((Finset.range pool.threadNum).sum fun j' => threadLeft ((s.setThread j th').thread j')) +
      pool.remaining + _ ≤ s.left + _
    rw [hn]
    unfold left
    omega
  | pool hadmits hstep =>
    have hless := PoolStart.remaining_step h.holds hstep
    have hn := PoolStart.threadNum_step hstep
    simp only [left, hn, PoolThreadsLabel.cost, PoolThreadsLabel.credit]
    omega

end PoolThreads

/-! ## 6. `init` starts its threads -/

/-- The steps for which nobody else is needed: no wait comes back by itself, and no loop ends. -/
def PoolThreadsLabel.own : PoolThreadsLabel Loop → Bool
  | .pool .spuriousWake | .thread _ .spuriousWake | .thread _ .runReturns => false
  | .construct | .pool _ | .thread _ _ => true

/-- Nobody can go on by himself. -/
def PoolThreads.Halted (s : PoolThreads Loop) : Prop :=
  ∀ l, l.own = true → (poolThreads Loop).step s l = none

namespace Joined

open PoolThreads

variable {s : PoolThreads Loop}

/-- Then none of the threads can. -/
theorem thread_halted (h : Joined s) (hhalted : s.Halted) {j : Nat} {th : ThreadState}
    (hj : s.thread j = some th) : th.Halted := by
  intro l hl
  have hadmits : s.admitsThread j th l = true := by
    cases l with
    | thread | call i => rfl
    | spuriousWake | runReturns | start => cases hl
  have hnone : (poolThreads Loop).step s (.thread j l) = none := by
    refine hhalted _ ?_
    cases l with
    | thread | call i => rfl
    | spuriousWake | runReturns | start => cases hl
  cases hstep : threadStart.step th l with
  | none => rfl
  | some p =>
    obtain ⟨th', o⟩ := p
    simp only [poolThreads, hj, hadmits, if_true, hstep, Option.map_eq_none_iff] at hnone
    cases o with
    | none => cases hnone
    | some shown =>
      cases shown with
      | run => cases hnone
      | startReturns i =>
        -- `init` goes on where `start` returns
        have hk := h.threads j th hj
        obtain ⟨hi, hnot, -⟩ := hk.returns hstep
        have hlt : s.pool.i < s.pool.threadNum := hi ▸ hk.inRange
        replace hnone : s.pool.callerStep.map _ = none := hnone
        simp only [PoolStart.callerStep, h.caller_of_not_started hi hnot, hlt, if_true,
          Option.map_some] at hnone
        cases hnone

/-- A thread whose `start` has returned is in `run`, or behind it. -/
theorem begun_of_started (h : Joined s) (hhalted : s.Halted) {j : Nat}
    (hs : (s.pool.worker j).started = true) :
    ∃ th, s.thread j = some th ∧ th.calls = [.returned] ∧ (th.pc = .inRun ∨ th.pc = .returned) := by
  cases hj : s.thread j with
  | none =>
    rw [h.constructed j hj] at hs
    cases hs
  | some th =>
    have hk := h.threads j th hj
    have hcalls := hk.started hs
    rcases (hk.sound.settled (h.thread_halted hhalted hj)).thread with ⟨-, hnil⟩ | ⟨hpc, -⟩
    · rw [hcalls] at hnil
      cases hnil
    · exact ⟨th, rfl, hcalls, hpc⟩

/-- **Where nobody can go on, the pool cannot either**, although `start` is no longer one step. -/
theorem pool_halted (h : Joined s) (hhalted : s.Halted) : s.pool.Halted := by
  intro l hl
  cases l with
  | spuriousWake => exact absurd rfl hl
  | caller =>
    by_cases hc : s.pool.caller = .start
    · show s.pool.callerStep = none
      simp only [PoolStart.callerStep, hc]
      refine if_neg fun hlt => ?_
      have hnot := h.next_not_started hc
      cases hj : s.thread s.pool.i with
      | none =>
        have hnone := hhalted .construct rfl
        simp only [poolThreads, hc, hlt, hj, and_self, if_true] at hnone
        cases hnone
      | some th =>
        have hk := h.threads _ th hj
        have hsettled := hk.sound.settled (h.thread_halted hhalted hj)
        rcases hk.notStarted hnot with hnil | ⟨-, c, hone, hc'⟩
        · -- `start` is still to be called
          have hnone := hhalted (.thread s.pool.i .start) rfl
          simp only [poolThreads, hj, admitsThread, hc, hnil] at hnone
          cases hnone
        · rcases hsettled.thread with ⟨-, hnil⟩ | ⟨-, hmem⟩
          · rw [hone] at hnil
            cases hnil
          · rw [hone] at hmem
            exact absurd (List.mem_singleton.mp hmem).symm hc'
    · have hnone := hhalted (.pool .caller) rfl
      have hadmits : s.admitsPool .caller = true := bne_iff_ne.mpr hc
      simp only [poolThreads, hadmits, if_true, Option.map_eq_none_iff] at hnone
      exact hnone
  | worker j loop =>
    cases hadmits : s.admitsPool (.worker j loop) with
    | true =>
      have hnone := hhalted (.pool (.worker j loop)) rfl
      simp only [poolThreads, hadmits, if_true, Option.map_eq_none_iff] at hnone
      exact hnone
    | false =>
      simp only [admitsPool, Bool.or_eq_false_iff, Bool.not_eq_false', decide_eq_false_iff_not]
        at hadmits
      obtain ⟨hbegin, hpc⟩ := hadmits
      have hphase : (s.pool.worker j).phase = .beginRun := by
        cases hp : (s.pool.worker j).phase with
        | beginRun => rfl
        | created l | locked l | published l | notified l | running l =>
          rw [hp] at hbegin
          cases hbegin
      have hnot : (s.pool.worker j).started = false := by
        refine (Bool.not_eq_true _).mp fun hs => ?_
        obtain ⟨th, hj, -, hrun | hended⟩ := h.begun_of_started hhalted hs
        · exact hpc (by rw [hj, Option.map_some, hrun])
        · have hrunning := (h.threads j th hj).ended hended
          rw [hphase] at hrunning
          cases hrunning
      show (s.pool.workerStep j loop).map _ = none
      simp only [PoolStart.workerStep, hphase, hnot, Bool.false_eq_true, if_false, Option.map_none]

end Joined

/-- **`init` starts its threads**, with threads and workers in any order and with whatever wake-ups
    are spurious. What is seen of the pool is a run of `poolStart`. There are at most twenty-two
    steps for each worker, and two more for each wait of a `beginRun` that comes back by itself. And
    where nobody can go on, `init` has returned, each worker is in its loop, and each thread in its
    `run`, or behind it. -/
theorem init_starts_the_threads [Nonempty Loop] {threadNum : Nat}
    {ls : List (PoolThreadsLabel Loop)} {t : PoolThreads Loop} {os : List (Option (Option Loop))}
    (h : (poolThreads Loop).run (.initial threadNum) ls = some (t, os)) :
    (∃ ks os', (poolStart Loop).run (.initial threadNum) ks = some (t.pool, os') ∧
      os'.reduceOption = os.reduceOption) ∧
    (ls.map PoolThreadsLabel.cost).sum ≤
      22 * threadNum + (ls.map PoolThreadsLabel.credit).sum ∧
    (t.Halted → t.pool.Finished ∧ ∀ j, j < t.pool.threadNum → ∃ th, t.thread j = some th ∧
      th.calls = [.returned] ∧ (th.pc = .inRun ∨ th.pc = .returned)) := by
  obtain ⟨hinv, hsimulated⟩ := (poolThreads_simulates Loop).run (Joined.initial threadNum) h
  have hjoined : Joined t := hinv
  have hcost := Machine.run_cost_le (m := PoolThreads.left)
    (fun _ _ _ _ hI hs => ⟨(Joined.step hI hs).1, PoolThreads.left_step hI hs⟩)
    (Joined.initial threadNum) h
  rw [PoolThreads.left_initial] at hcost
  refine ⟨hsimulated, Nat.le_trans (Nat.le_add_left _ _) hcost, fun hhalted => ?_⟩
  have hfinished : t.pool.Finished := hjoined.holds.finished (hjoined.pool_halted hhalted)
  refine ⟨hfinished, fun j hj => hjoined.begun_of_started hhalted ?_⟩
  exact (hjoined.holds.started j).mpr (Or.inl (hfinished.i ▸ hj))

/-- The only thread waits in `beginRun`, and once by itself no more; then the caller waits for its
    worker. -/
def oneThreadRun : List (PoolThreadsLabel Nat) :=
  [.construct, .thread 0 .thread, .thread 0 .thread, .thread 0 .spuriousWake, .thread 0 .thread,
    .thread 0 .thread, .thread 0 .start, .thread 0 (.call 0), .thread 0 (.call 0),
    .thread 0 (.call 0), .thread 0 (.call 0), .pool .caller, .pool .caller, .thread 0 .thread,
    .thread 0 .thread, .pool (.worker 0 7), .pool (.worker 0 7), .pool (.worker 0 7),
    .pool (.worker 0 7), .pool (.worker 0 7), .pool .caller, .pool .caller, .pool .caller]

theorem init_starts_the_threads_oneThread : ∃ t os,
    (poolThreads Nat).run (.initial 1) oneThreadRun = some (t, os) ∧
      t.pool.eventLoopPoll = [some 7] ∧
      (∃ ks os', (poolStart Nat).run (.initial 1) ks = some (t.pool, os') ∧
        os'.reduceOption = os.reduceOption) ∧
      (oneThreadRun.map PoolThreadsLabel.cost).sum ≤
        22 * 1 + (oneThreadRun.map PoolThreadsLabel.credit).sum ∧
      (t.Halted → t.pool.Finished ∧ ∀ j, j < t.pool.threadNum → ∃ th, t.thread j = some th ∧
        th.calls = [.returned] ∧ (th.pc = .inRun ∨ th.pc = .returned)) := by
  have hseen : ((poolThreads Nat).run (.initial 1) oneThreadRun).map
      (fun p => p.1.pool.eventLoopPoll) = some [some 7] := by decide +kernel
  obtain ⟨⟨t, os⟩, hrun, hpoll⟩ := Option.map_eq_some_iff.mp hseen
  exact ⟨t, os, hrun, hpoll, init_starts_the_threads hrun⟩

end PluginsEngine
