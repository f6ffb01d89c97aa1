/-
  File:      PluginsEngine/Timer/Conservation.lean
  Subject:   NO TIMER IS LOST, NONE FIRES TWICE OR EARLY, over whole runs of a timer queue.

  A run shows which timers were added and whose callbacks were invoked (`added`, `fired`). The
  ledger balances at every point: a once timer that was added is in `onceTimers` or has fired, the
  one whose callback is running both; a recurring one is in `recurringTimers`.

  * `Ledger`, `Ledger.step` -- the balance, kept by every step;
  * `Timely` -- callbacks run when they are due, and the loop over the once timers leaves none
    that was;
  * `timers_conserved` -- both, for every run.
-/
import Mathlib.Data.List.Nodup
import PluginsEngine.Timer.TimerQueue

namespace PluginsEngine

open Library TimerState

/-! ## 1. The ledger -/

/-- The timers of `kind` a run has added. -/
def added (kind : TimerKind) (os : List TimerShown) : List TimerId :=
  os.filterMap fun o => o.added.bind fun a => if a.1 = kind then some a.2 else none

/-- The timers of `kind` whose callbacks a run has invoked, one entry for each invocation. -/
def fired (kind : TimerKind) (os : List TimerShown) : List TimerId :=
  os.filterMap fun o => o.fired.bind fun f => if f.1 = kind then some f.2.1 else none

/-- The once timer whose callback is running. -/
def TimerState.runningOnce (s : TimerState) : List TimerId :=
  match s.pc with
  | .firing .once it => ((s.queue.onceTimers.deref it).map Node.value).toList
  | _ => []

/-- **The balance** of a queue and of what its run has shown. -/
structure Ledger (os : List TimerShown) (s : TimerState) : Prop where
  wf : s.Wf
  once : ∀ timer, s.queue.onceTimers.values.count timer + (fired .once os).count timer =
    (added .once os).count timer + s.runningOnce.count timer
  recurring : ∀ timer, s.queue.recurringTimers.values.count timer =
    (added .recurring os).count timer
  added_lt : ∀ kind, ∀ timer ∈ added kind os, timer < s.queue.next
  added_once : ∀ kind, (added kind os).Nodup

namespace Ledger

theorem added_append (kind : TimerKind) (os : List TimerShown) (o : TimerShown) :
    added kind (os ++ [o]) = added kind os ++ added kind [o] :=
  List.filterMap_append

theorem fired_append (kind : TimerKind) (os : List TimerShown) (o : TimerShown) :
    fired kind (os ++ [o]) = fired kind os ++ fired kind [o] :=
  List.filterMap_append

theorem initial : Ledger [] TimerState.initial where
  wf := wf_initial
  once _ := rfl
  recurring _ := rfl
  added_lt _ _ h := absurd h List.not_mem_nil
  added_once _ := List.nodup_nil

variable {os : List TimerShown} {s s' : TimerState} {o : TimerShown}

/-- A step that adds no timer. -/
theorem noAddition (h : Ledger os s) (hwf : s'.Wf) (hnext : s'.queue.next = s.queue.next)
    (ho : o.added = none)
    (honce : ∀ timer, s'.queue.onceTimers.values.count timer + (fired .once [o]).count timer +
        s.runningOnce.count timer =
      s.queue.onceTimers.values.count timer + s'.runningOnce.count timer)
    (hrec : ∀ timer, s'.queue.recurringTimers.values.count timer =
      s.queue.recurringTimers.values.count timer) : Ledger (os ++ [o]) s' := by
  have hadded : ∀ kind, added kind (os ++ [o]) = added kind os := by
    intro kind
    rw [added_append]
    simp only [added, List.filterMap_cons, ho, Option.bind_none, List.filterMap_nil,
      List.append_nil]
  refine ⟨hwf, fun timer => ?_, fun timer => ?_, fun kind timer ht => ?_, fun kind => ?_⟩
  · have h₁ := h.once timer
    have h₂ := honce timer
    rw [hadded, fired_append, List.count_append]
    omega
  · rw [hrec, hadded, h.recurring]
  · rw [hadded] at ht
    rw [hnext]
    exact h.added_lt kind timer ht
  · rw [hadded]
    exact h.added_once kind

/-- The timer whose callback runs is the one of the first node. -/
theorem runningOnce_eq {n : Node Nat TimerId} {ns : List (Node Nat TimerId)}
    (hpc : s.pc = .firing .once n.id) (hnodes : s.queue.onceTimers.nodes = n :: ns) :
    s.runningOnce = [n.value] := by
  unfold TimerState.runningOnce
  rw [hpc]
  show ((s.queue.onceTimers.deref n.id).map Node.value).toList = _
  rw [Multimap.deref_begin hnodes]
  rfl

theorem runningOnce_nil (h : ∀ it, s.pc ≠ .firing .once it) : s.runningOnce = [] := by
  unfold TimerState.runningOnce
  split
  · rename_i it hpc
    exact absurd hpc (h it)
  · rfl

/-- An addition does not disturb the running callback. -/
theorem runningOnce_withTimer (h : s.Wf) {kind : TimerKind} {interval : UInt32} {t : Nat}
    (hle : s.clock ≤ t) (hv : ValidReading t) (timerFd : Option Arming) (t' : Nat) :
    runningOnce ⟨{ s.queue.withTimer kind interval t with timerFd := timerFd }, s.pc, t'⟩ =
      s.runningOnce := by
  by_cases hpc : ∃ it, s.pc = .firing .once it
  · obtain ⟨it, hpc⟩ := hpc
    obtain ⟨n, ns, hnodes, rfl, hdue⟩ := h.firing hpc
    have hclock : s.clock / 1000000 ≤ t / 1000000 := Nat.div_le_div_right hle
    obtain ⟨ns', hfirst⟩ := withTimer_first kind interval hv hnodes (Nat.le_trans hdue hclock)
    have hnew := runningOnce_eq
      (s := ⟨{ s.queue.withTimer kind interval t with timerFd := timerFd }, s.pc, t'⟩) hpc hfirst
    exact hnew.trans (runningOnce_eq hpc hnodes).symm
  · have hno : ∀ it, s.pc ≠ .firing .once it := fun it e => hpc ⟨it, e⟩
    have hnew := runningOnce_nil
      (s := ⟨{ s.queue.withTimer kind interval t with timerFd := timerFd }, s.pc, t'⟩) hno
    exact hnew.trans (runningOnce_nil hno).symm

/-- What an addition does to the timers in the multimaps. -/
theorem values_withTimer (q : TimerQueue) (kind kind' : TimerKind) (interval : UInt32) (t : Nat) :
    ((q.withTimer kind interval t).timers kind').values.Perm
      ((if kind = kind' then [q.next] else []) ++ (q.timers kind').values) := by
  rw [q.withTimer_timers]
  by_cases hkind : kind = kind'
  · subst hkind
    rw [Function.update_self, if_pos rfl]
    exact (Multimap.nodes_insert_perm _ _).map Node.value
  · rw [Function.update_of_ne (Ne.symm hkind), if_neg hkind]
    exact List.Perm.refl _

/-- **An addition enters one timer on both sides.** -/
theorem addition (h : Ledger os s) {kind : TimerKind} {interval : UInt32} {t t' : Nat}
    {timerFd : Option Arming} (hle : s.clock ≤ t) (hv : ValidReading t) (arming : Option Arming)
    (hwf : Wf ⟨{ s.queue.withTimer kind interval t with timerFd := timerFd }, s.pc, t'⟩) :
    Ledger (os ++ [⟨some (kind, s.queue.next), none, arming⟩])
      ⟨{ s.queue.withTimer kind interval t with timerFd := timerFd }, s.pc, t'⟩ := by
  have hadded : ∀ kind', added kind' (os ++ [⟨some (kind, s.queue.next), none, arming⟩]) =
      added kind' os ++ if kind = kind' then [s.queue.next] else [] := by
    intro kind'
    rw [added_append]
    by_cases hkind : kind = kind'
    · simp only [added, List.filterMap_cons, Option.bind_some, if_pos hkind, List.filterMap_nil]
    · simp only [added, List.filterMap_cons, Option.bind_some, if_neg hkind, List.filterMap_nil]
  have hfired : fired .once (os ++ [⟨some (kind, s.queue.next), none, arming⟩]) =
      fired .once os := by
    rw [fired_append]
    exact List.append_nil _
  have hcount := fun kind' timer =>
    (values_withTimer s.queue kind kind' interval t).count_eq timer
  refine ⟨hwf, fun timer => ?_, fun timer => ?_, fun kind' timer ht => ?_, fun kind' => ?_⟩
  · have hbalance : (s.queue.timers .once).values.count timer + _ = _ := h.once timer
    have hvalues := hcount .once timer
    rw [List.count_append] at hvalues
    rw [hadded, hfired, runningOnce_withTimer h.wf hle hv timerFd t', List.count_append]
    show ((s.queue.withTimer kind interval t).timers .once).values.count timer + _ = _
    omega
  · have hbalance : (s.queue.timers .recurring).values.count timer = _ := h.recurring timer
    have hvalues := hcount .recurring timer
    rw [List.count_append] at hvalues
    rw [hadded, List.count_append]
    show ((s.queue.withTimer kind interval t).timers .recurring).values.count timer = _
    omega
  · rw [hadded] at ht
    rcases List.mem_append.mp ht with ht | ht
    · exact Nat.lt_succ_of_lt (h.added_lt kind' timer ht)
    · split at ht
      · rw [List.mem_singleton.mp ht]
        exact Nat.lt_succ_self _
      · cases ht
  · rw [hadded]
    split
    · refine List.nodup_append.mpr ⟨h.added_once kind', List.nodup_singleton _, ?_⟩
      rintro timer ht _ hnew rfl
      rw [List.mem_singleton.mp hnew] at ht
      exact Nat.lt_irrefl _ (h.added_lt kind' _ ht)
    · rw [List.append_nil]
      exact h.added_once kind'

/-- A step that shows nothing and does not touch the timers of the queue. -/
theorem passesOn (h : Ledger os s) (hwf : s'.Wf) (hnext : s'.queue.next = s.queue.next)
    (htimers : s'.queue.timers = s.queue.timers) (hold : s.runningOnce = [])
    (hnew : s'.runningOnce = []) (arming : Option Arming) :
    Ledger (os ++ [⟨none, none, arming⟩]) s' :=
  h.noAddition hwf hnext rfl
    (fun _ => by rw [TimerQueue.onceTimers, htimers, hold, hnew]; rfl)
    (fun _ => by rw [TimerQueue.recurringTimers, htimers])

theorem runningOnce_leave (s : TimerState) (kind : TimerKind) (t : Nat) :
    runningOnce { s with pc := s.leave kind, clock := t } = [] := by
  cases kind with
  | once => rfl
  | recurring => rfl

/-- **Every step keeps the balance.** -/
theorem step (h : Ledger os s) {l : TimerStep} (hs : timerQueue.step s l = some (s', o)) :
    Ledger (os ++ [o]) s' := by
  have hwf := h.wf.step hs
  have hloop : ∀ {kind it}, s.pc = .loop kind it → s.runningOnce = [] := fun hpc =>
    runningOnce_nil fun _ => hpc.trans_ne nofun
  cases h.wf.move hs with
  | add kind interval t t' hadd hle htt hv hno =>
    exact h.addition hle (Nat.lt_of_le_of_lt htt hv) none hwf
  | addArming kind interval t t' hadd hle htt hv hyes =>
    exact h.addition hle (Nat.lt_of_le_of_lt htt hv) _ hwf
  | start hpc =>
    exact h.passesOn hwf rfl rfl (runningOnce_nil fun _ => hpc.trans_ne nofun) rfl none
  | loopEnd kind hpc hnodes =>
    exact h.passesOn hwf rfl rfl (hloop hpc) (runningOnce_leave s kind _) none
  | wait kind n ns t hpc hnodes hr hlater =>
    exact h.passesOn hwf rfl rfl (hloop hpc) (runningOnce_leave s kind t) none
  | resetNone t hpc hr hnodes =>
    exact h.passesOn hwf rfl rfl (runningOnce_nil fun _ => hpc.trans_ne nofun) rfl none
  | reset n t hpc hr hn hmin =>
    exact h.passesOn hwf rfl rfl (runningOnce_nil fun _ => hpc.trans_ne nofun) rfl _
  | fire kind n ns t hpc hnodes hr hdue =>
    refine h.noAddition hwf rfl rfl (fun timer => ?_) fun _ => rfl
    rw [hloop hpc]
    cases kind with
    | once =>
      rw [runningOnce_eq (s := { s with pc := .firing .once n.id, clock := t }) rfl hnodes]
      rfl
    | recurring => rfl
  | onceReturns n ns t m hpc hnodes hr hm =>
    refine h.noAddition hwf rfl rfl (fun timer => ?_) fun _ => rfl
    have hvalues : s.queue.onceTimers.values = n.value :: ns.map Node.value := by
      rw [Multimap.values, hnodes, List.map_cons]
    rw [runningOnce_eq hpc hnodes, hvalues]
    show m.values.count timer + 0 + _ = _ + 0
    rw [Multimap.values, hm]
    simp only [List.count_cons, List.count_nil]
    omega
  | recurringReturns n ns t m id hpc hnodes hr hdue hm =>
    refine h.noAddition hwf rfl rfl (fun timer => ?_) fun timer => ?_
    · rw [runningOnce_nil fun _ => hpc.trans_ne nofun]
      rfl
    · have hvalues : s.queue.recurringTimers.values = n.value :: ns.map Node.value := by
        rw [Multimap.values, hnodes, List.map_cons]
      rw [hvalues]
      exact (hm.map Node.value).count_eq timer

/-- The ledger of a run balances. -/
theorem of_run {ls : List TimerStep} (h : timerQueue.run TimerState.initial ls = some (s, os)) :
    Ledger os s :=
  Machine.run_induct (P := fun _ os s => Ledger os s) initial
    (fun _ _ _ _ _ _ h hs => h.step hs) h

end Ledger

/-! ## 2. In time -/

/-- **In time**: a callback runs at a reading that its deadline does not exceed, and when the loop
    over the once timers is left, none in it is due at the latest reading. -/
structure Timely (s : TimerState) (s' : TimerState) (o : TimerShown) : Prop where
  due : ∀ kind timer t, o.fired = some (kind, timer, t) →
    s.queue.deadline timer ≤ Timer.getNowTimeMSecond t
  left : ∀ it it', s.pc = .loop .once it → s'.pc = .loop .recurring it' →
    ∀ n ∈ s'.queue.onceTimers.nodes,
      Timer.getNowTimeMSecond s'.clock < s'.queue.deadline n.value

/-- A step that invokes no callback and does not leave the loop over the once timers. -/
theorem Timely.of_quiet {s s' : TimerState} {o : TimerShown} (ho : o.fired = none)
    (hpc : ∀ it it', s.pc = .loop .once it → s'.pc ≠ .loop .recurring it') : Timely s s' o where
  due _ _ _ hf := by rw [ho] at hf; cases hf
  left it it' h h' := absurd h' (hpc it it' h)

/-- **Every step is in time.** -/
theorem Timely.of_step {s s' : TimerState} {l : TimerStep} {o : TimerShown} (h : s.Wf)
    (hs : timerQueue.step s l = some (s', o)) : Timely s s' o := by
  cases h.move hs with
  | add kind interval t t' hadd hle htt hv hno =>
    exact .of_quiet rfl fun it it' hpc => hpc.trans_ne nofun
  | addArming kind interval t t' hadd hle htt hv hyes =>
    exact .of_quiet rfl fun it it' hpc => hpc.trans_ne nofun
  | start hpc => exact .of_quiet rfl fun it it' _ => nofun
  | onceReturns n ns t m hpc hnodes hr hm => exact .of_quiet rfl fun it it' _ => nofun
  | recurringReturns n ns t m id hpc hnodes hr hdue hm =>
    exact .of_quiet rfl fun it it' hpc' => absurd hpc' (hpc.trans_ne nofun)
  | resetNone t hpc hr hnodes => exact .of_quiet rfl fun it it' _ => nofun
  | reset n t hpc hr hn hmin => exact .of_quiet rfl fun it it' _ => nofun
  | fire kind n ns t hpc hnodes hr hdue =>
    refine ⟨fun kind' timer t' hf => ?_, fun it it' _ => nofun⟩
    cases hf
    have hn : n ∈ s.queue.nodes := mem_nodes (Multimap.first_mem hnodes)
    rw [Timer.getNowTimeMSecond_eq hr.2, ← (h.node n hn).2]
    exact hdue
  | loopEnd kind hpc hnodes =>
    refine ⟨(fun _ _ _ hf => by cases hf), fun it it' hpc' _ n hn => ?_⟩
    rw [hpc] at hpc'
    cases hpc'
    rw [show s.queue.onceTimers.nodes = [] from hnodes] at hn
    cases hn
  | wait kind n ns t hpc hnodes hr hlater =>
    refine ⟨(fun _ _ _ hf => by cases hf), fun it it' hpc' _ x hx => ?_⟩
    rw [hpc] at hpc'
    cases hpc'
    -- the node the loop stopped at has the smallest key
    have hkey : x.key = s.queue.deadline x.value := (h.node x (List.mem_append_left _ hx)).2
    have hmin : n.key ≤ x.key := Multimap.key_le hnodes x hx
    show Timer.getNowTimeMSecond t < s.queue.deadline x.value
    rw [Timer.getNowTimeMSecond_eq hr.2, ← hkey]
    exact Nat.lt_of_lt_of_le hlater hmin

/-! ## 3. Whole runs -/

namespace Ledger

variable {os : List TimerShown} {s : TimerState}

/-- No timer stands in a multimap twice. -/
theorem count_values_le (h : Ledger os s) (kind : TimerKind) (timer : TimerId) :
    (s.queue.timers kind).values.count timer ≤ 1 := by
  obtain ⟨other, hperm, -⟩ := s.queue.nodes_perm kind
  have hdistinct := (hperm.map Node.value).nodup_iff.mp h.wf.distinct
  rw [List.map_append] at hdistinct
  exact List.nodup_iff_count_le_one.mp (List.nodup_append.mp hdistinct).1 timer

/-- The timer whose callback runs is still in `onceTimers`. -/
theorem runningOnce_cases (h : Ledger os s) (timer : TimerId) :
    s.runningOnce.count timer = 0 ∨
      s.runningOnce = [timer] ∧ 0 < s.queue.onceTimers.values.count timer := by
  by_cases hpc : ∃ it, s.pc = .firing .once it
  · obtain ⟨it, hpc⟩ := hpc
    obtain ⟨n, ns, hnodes, rfl, -⟩ := h.wf.firing hpc
    rw [runningOnce_eq hpc hnodes]
    by_cases hn : n.value = timer
    · subst hn
      refine Or.inr ⟨rfl, List.count_pos_iff.mpr ?_⟩
      exact List.mem_map_of_mem (Multimap.first_mem hnodes)
    · exact Or.inl (List.count_eq_zero.mpr fun hm => hn (List.mem_singleton.mp hm).symm)
  · exact Or.inl (by rw [runningOnce_nil fun it e => hpc ⟨it, e⟩]; rfl)

/-- **A once timer that was added** waits, has fired, or is firing. -/
theorem once_cases (h : Ledger os s) {timer : TimerId} (ht : timer ∈ added .once os) :
    (s.queue.onceTimers.values.count timer = 1 ∧ (fired .once os).count timer = 0) ∨
      (s.queue.onceTimers.values.count timer = 0 ∧ (fired .once os).count timer = 1) ∨
      (s.runningOnce = [timer] ∧ s.queue.onceTimers.values.count timer = 1 ∧
        (fired .once os).count timer = 1) := by
  have hadded := List.count_eq_one_of_mem (h.added_once .once) ht
  have hbalance := h.once timer
  have hle : s.queue.onceTimers.values.count timer ≤ 1 := h.count_values_le .once timer
  rcases h.runningOnce_cases timer with hrun | ⟨hrun, hpos⟩
  · omega
  · have hcount : s.runningOnce.count timer = 1 := by
      rw [hrun]
      exact List.count_singleton_self
    exact Or.inr (Or.inr ⟨hrun, by omega, by omega⟩)

end Ledger

/-- **Conservation of timers.** At every point of every run: the keys of both multimaps are the
    deadlines of their timers; a once timer that was added is in `onceTimers` exactly once and has
    not fired, or is no longer there and has fired exactly once, or its callback is the one that is
    running; a recurring timer that was added is in `recurringTimers` exactly once; and every step
    was in time. -/
theorem timers_conserved {ls : List TimerStep} {s : TimerState} {os : List TimerShown}
    (h : timerQueue.run TimerState.initial ls = some (s, os)) :
    (∀ n ∈ s.queue.nodes, n.key = s.queue.deadline n.value) ∧
      (∀ timer ∈ added .once os,
        (s.queue.onceTimers.values.count timer = 1 ∧ (fired .once os).count timer = 0) ∨
          (s.queue.onceTimers.values.count timer = 0 ∧ (fired .once os).count timer = 1) ∨
          (s.runningOnce = [timer] ∧ s.queue.onceTimers.values.count timer = 1 ∧
            (fired .once os).count timer = 1)) ∧
      (∀ timer ∈ added .recurring os, s.queue.recurringTimers.values.count timer = 1) ∧
      timerQueue.Along (fun s _ s' o => Timely s s' o) TimerState.initial ls := by
  have hledger := Ledger.of_run h
  refine ⟨fun n hn => (hledger.wf.node n hn).2, fun timer ht => hledger.once_cases ht,
    fun timer ht => ?_, ?_⟩
  · exact (hledger.recurring timer).trans
      (List.count_eq_one_of_mem (hledger.added_once .recurring) ht)
  · exact Machine.along_of_invariant (fun _ _ _ _ hwf hs => ⟨hwf.step hs, .of_step hwf hs⟩)
      wf_initial

/-- A once timer of 10 ms and a recurring one of 20 ms; at 30 ms a pass runs both callbacks, the
    first of which adds a once timer of 5 ms. -/
def passWithAddition : List TimerStep :=
  [.addOnceTimer 10 0 0, .addRecurringTimer 20 0 0, .timerHandle, .check 30000000,
    .addOnceTimer 5 30000000 30000000, .callbackReturns 30000000, .check 30000000,
    .check 30000000, .callbackReturns 31000000, .check 31000000, .resetTimer 31000000]

theorem timers_conserved_passWithAddition : ∃ s os,
    timerQueue.run TimerState.initial passWithAddition = some (s, os) ∧
      fired .once os = [0] ∧ fired .recurring os = [1] ∧
      (∀ n ∈ s.queue.nodes, n.key = s.queue.deadline n.value) ∧
      s.queue.onceTimers.values.count 2 = 1 ∧ s.queue.recurringTimers.values.count 1 = 1 ∧
      timerQueue.Along (fun s _ s' o => Timely s s' o) TimerState.initial passWithAddition := by
  have hsome : (timerQueue.run TimerState.initial passWithAddition).isSome := by decide +kernel
  obtain ⟨⟨s, os⟩, hrun⟩ := Option.isSome_iff_exists.mp hsome
  have hshown : (timerQueue.run TimerState.initial passWithAddition).map
      (fun p => ((fired .once p.2, fired .recurring p.2),
        (decide (2 ∈ added .once p.2), decide (1 ∈ added .recurring p.2), p.1.runningOnce))) =
      some (([0], [1]), (true, true, [])) := by decide +kernel
  rw [hrun] at hshown
  obtain ⟨⟨honce, hrec⟩, hadd, hadd', hidle⟩ := by
    simpa only [Option.map_some, Option.some.injEq, Prod.mk.injEq, decide_eq_true_eq] using hshown
  obtain ⟨hkeys, hwaits, hstays, htimely⟩ := timers_conserved hrun
  refine ⟨s, os, hrun, honce, hrec, hkeys, ?_, hstays 1 hadd', htimely⟩
  rcases hwaits 2 hadd with ⟨h, -⟩ | ⟨-, h⟩ | ⟨h, -⟩
  · exact h
  · rw [honce] at h
    exact absurd h (by decide)
  · rw [hidle] at h
    cases h

end PluginsEngine
