/-
  File:      PluginsEngine/Timer/Cover.lean
  Subject:   THE TIMERFD COVERS THE EARLIEST TIMER, in runs whose armings are in time.

  * `le_of_arms`, `exists_le_of_not_arms` -- an addition arms for a timer that is due first, and
    one that does not arm finds a timer that is due no later;
  * `Covered`, `Wf.timerFd_cases` -- the cover, and what a step can do to it;
  * `timerfd_covers_earliest` -- when no pass is running, the timerfd expires from the earliest
    deadline on, within 15 ms; while one is running it may expire before that, but not before the
    earliest deadline of the pass's start.
-/
import PluginsEngine.Timer.Arming

namespace PluginsEngine

open Library

namespace TimerState

variable {s s' : TimerState} {l : TimerStep} {o : TimerShown}

/-! ## 1. When an addition arms -/

/-- No key of `ns` is before the earliest of `ms`. -/
def NotBefore (ms ns : List (Node Nat TimerId)) : Prop := ∀ n ∈ ns, ∃ m ∈ ms, m.key ≤ n.key

theorem NotBefore.of_subset {ms ns : List (Node Nat TimerId)} (h : ∀ n ∈ ns, n ∈ ms) :
    NotBefore ms ns :=
  fun n hn => ⟨n, h n hn, Nat.le_refl _⟩

theorem NotBefore.refl (ms : List (Node Nat TimerId)) : NotBefore ms ms :=
  .of_subset fun _ hn => hn

theorem NotBefore.trans {ms ns ks : List (Node Nat TimerId)} (h : NotBefore ms ns)
    (h' : NotBefore ns ks) : NotBefore ms ks := by
  intro k hk
  obtain ⟨n, hn, hnk⟩ := h' k hk
  obtain ⟨m, hm, hmn⟩ := h n hn
  exact ⟨m, hm, Nat.le_trans hmn hnk⟩

/-- `needResetTimer` says that the timer is due first in this multimap, -/
theorem needResetTimer_true {q : TimerQueue} {m : Multimap Nat TimerId} {timer : TimerId}
    (h : q.needResetTimer m timer = true) : ∀ n ∈ m.nodes, q.deadline timer ≤ n.key := by
  unfold TimerQueue.needResetTimer at h
  cases hm : m.nodes with
  | nil => exact fun n hn => absurd hn List.not_mem_nil
  | cons it ns =>
    rw [hm] at h
    simp only [List.head?_cons] at h
    split at h
    · cases h
    · rename_i hge
      intro n hn
      rw [← hm] at hn
      exact Nat.le_trans (Nat.not_lt.mp hge) (Multimap.key_le hm n hn)

/-- or that an earlier one is in it, or two of its deadline. -/
theorem needResetTimer_false {q : TimerQueue} {m : Multimap Nat TimerId} {timer : TimerId}
    (h : q.needResetTimer m timer = false) :
    (∃ n ∈ m.nodes, n.key < q.deadline timer) ∨ 1 < m.count (q.deadline timer) := by
  unfold TimerQueue.needResetTimer at h
  cases hm : m.nodes with
  | nil =>
    rw [hm] at h
    cases h
  | cons it ns =>
    rw [hm] at h
    simp only [List.head?_cons] at h
    split at h
    · rename_i hlt
      exact Or.inl ⟨it, .head _, hlt⟩
    · split at h
      · rename_i hcount
        exact Or.inr hcount
      · cases h

/-- An addition that arms is of a timer that is due first. -/
theorem le_of_arms {q : TimerQueue} {timer : TimerId} (h : q.arms timer = true) :
    ∀ n ∈ q.nodes, q.deadline timer ≤ n.key := by
  obtain ⟨honce, hrec⟩ := Bool.and_eq_true_iff.mp h
  intro n hn
  rcases List.mem_append.mp hn with hn | hn
  · exact needResetTimer_true honce n hn
  · exact needResetTimer_true hrec n hn

/-- **An addition that does not arm** finds a timer that is not due later. -/
theorem exists_le_of_not_arms {q : TimerQueue} {kind : TimerKind} {interval : UInt32} {t : Nat}
    (h : (q.withTimer kind interval t).arms q.next = false) :
    ∃ n ∈ q.nodes, n.key ≤ (q.withTimer kind interval t).deadline q.next := by
  obtain ⟨kind', hno⟩ : ∃ kind', (q.withTimer kind interval t).needResetTimer
      ((q.withTimer kind interval t).timers kind') q.next = false := by
    rcases Bool.and_eq_false_iff.mp h with hno | hno
    · exact ⟨.once, hno⟩
    · exact ⟨.recurring, hno⟩
  have hperm := q.withTimer_nodes kind interval t
  rcases needResetTimer_false hno with ⟨n, hn, hlt⟩ | hcount
  · rcases List.mem_cons.mp (hperm.mem_iff.mp (mem_nodes hn)) with rfl | hold
    · exact absurd hlt (Nat.lt_irrefl _)
    · exact ⟨n, hold, Nat.le_of_lt hlt⟩
  · -- of two nodes of that key, one is not the new one
    obtain ⟨other, hnodes, -⟩ := (q.withTimer kind interval t).nodes_perm kind'
    have htwo := (hnodes.symm.trans hperm).countP_eq
      fun n => n.key = (q.withTimer kind interval t).deadline q.next
    rw [List.countP_append, List.countP_cons] at htwo
    have hpos : 0 < q.nodes.countP
        fun n => n.key = (q.withTimer kind interval t).deadline q.next := by
      unfold Multimap.count at hcount
      split at htwo <;> omega
    obtain ⟨n, hn, hkey⟩ := List.countP_pos_iff.mp hpos
    exact ⟨n, hn, Nat.le_of_eq (of_decide_eq_true hkey)⟩

/-! ## 2. The cover -/

/-- **The timerfd covers the timers** from the earliest of `first` on: if there are any, it is
    armed, expires not before that, and at most 15 ms after the earliest deadline. -/
def Covered (s : TimerState) (first : List (Node Nat TimerId)) : Prop :=
  s.queue.nodes ≠ [] → ∃ a, s.queue.timerFd = some a ∧ (∃ m ∈ first, m.key ≤ a.expiry) ∧
    ∀ n ∈ s.queue.nodes, a.expiry ≤ n.key + 15

/-- The timerfd stays as it is, and no timer becomes due before those there were. -/
theorem Covered.stays {first : List (Node Nat TimerId)} (h : s.Covered first)
    (htimerFd : s'.queue.timerFd = s.queue.timerFd)
    (hnodes : NotBefore s.queue.nodes s'.queue.nodes) : s'.Covered first := by
  intro hne
  obtain ⟨n, hn⟩ := List.exists_mem_of_ne_nil _ hne
  obtain ⟨m, hm, -⟩ := hnodes n hn
  obtain ⟨a, ha, hfirst, hall⟩ := h (List.ne_nil_of_mem hm)
  refine ⟨a, htimerFd.trans ha, hfirst, fun n hn => ?_⟩
  obtain ⟨m, hm, hle⟩ := hnodes n hn
  exact Nat.le_trans (hall m hm) (Nat.add_le_add_right hle 15)

/-- The earliest of `first` may be replaced by an earlier one. -/
theorem Covered.earlier {first first' : List (Node Nat TimerId)} (h : s.Covered first)
    (hfirst : NotBefore first' first) : s.Covered first' := by
  intro hne
  obtain ⟨a, ha, ⟨m, hm, hle⟩, hall⟩ := h hne
  obtain ⟨m', hm', hle'⟩ := hfirst m hm
  exact ⟨a, ha, ⟨m', hm', Nat.le_trans hle' hle⟩, hall⟩

/-- The timerfd was just armed, in time, for the node `n` that is due first. -/
theorem Covered.of_armed (h : s.Wf) {n : Node Nat TimerId} (hn : n ∈ s.queue.nodes)
    (hmin : ∀ x ∈ s.queue.nodes, n.key ≤ x.key)
    (hin : (s.queue.arming n.value s.clock).InTime s.queue)
    (htimerFd : s.queue.timerFd = some (s.queue.arming n.value s.clock))
    {first : List (Node Nat TimerId)} (hfirst : NotBefore first s.queue.nodes) :
    s.Covered first := by
  obtain ⟨hlt, hkey⟩ := h.node n hn
  obtain ⟨hge, hle⟩ := h.expiry_bounds hlt hin
  rw [← hkey] at hge hle
  obtain ⟨m, hm, hmn⟩ := hfirst n hn
  refine fun _ => ⟨_, htimerFd, ⟨m, hm, Nat.le_trans hmn hge⟩, fun x hx => ?_⟩
  exact Nat.le_trans hle (Nat.add_le_add_right (hmin x hx) 15)

/-- The timers a callback adds are not due before the one whose callback it is. -/
theorem Wf.withTimer_notBefore (h : s.Wf) {t : Nat} (hadd : s.mayAdd = true) (hle : s.clock ≤ t)
    (hv : ValidReading t) (hpc : s.pc ≠ .idle) (kind : TimerKind) (interval : UInt32) :
    NotBefore s.queue.nodes (s.queue.withTimer kind interval t).nodes := by
  rcases mayAdd_cases hadd with hidle | ⟨kind', it, hfiring⟩
  · exact absurd hidle hpc
  · obtain ⟨n, ns, hnodes, -, hdue⟩ := h.firing hfiring
    have hclock : s.clock / 1000000 ≤ t / 1000000 := Nat.div_le_div_right hle
    intro x hx
    rcases List.mem_cons.mp ((s.queue.withTimer_nodes kind interval t).mem_iff.mp hx) with rfl | hx
    · refine ⟨n, mem_nodes (Multimap.first_mem hnodes), ?_⟩
      show n.key ≤ (s.queue.withTimer kind interval t).deadline s.queue.next
      rw [deadline_withTimer hv]
      omega
    · exact ⟨x, hx, Nat.le_refl _⟩

/-- The timerfd was not armed by this step, which let no timer become due before those there
    were; or it was just armed for a timer that is due first. -/
theorem Wf.timerFd_cases (h : s.Wf) (hs : timerQueue.step s l = some (s', o)) :
    (o.armed = none ∧ s'.queue.timerFd = s.queue.timerFd ∧
        NotBefore s.queue.nodes s'.queue.nodes) ∨
      ∃ n ∈ s'.queue.nodes, (∀ x ∈ s'.queue.nodes, n.key ≤ x.key) ∧
        o.armed = some (s'.queue.arming n.value s'.clock) ∧ s'.queue.timerFd = o.armed ∧
        (s.pc ≠ .idle → NotBefore s.queue.nodes s'.queue.nodes) := by
  have hrefl := NotBefore.refl s.queue.nodes
  cases h.move hs with
  | add kind interval t t' hadd hle htt hv hno =>
    refine Or.inl ⟨rfl, rfl, fun n hn => ?_⟩
    rcases List.mem_cons.mp ((s.queue.withTimer_nodes kind interval t).mem_iff.mp hn) with rfl | hn
    · exact exists_le_of_not_arms hno
    · exact hrefl n hn
  | addArming kind interval t t' hadd hle htt hv hyes =>
    refine Or.inr ⟨s.queue.newNode kind interval t, ?_, le_of_arms hyes, rfl, rfl, fun hpc => ?_⟩
    · exact (s.queue.withTimer_nodes kind interval t).mem_iff.mpr List.mem_cons_self
    · exact h.withTimer_notBefore hadd hle (Nat.lt_of_le_of_lt htt hv) hpc kind interval
  | start hpc => exact Or.inl ⟨rfl, rfl, hrefl⟩
  | loopEnd kind hpc hnodes => exact Or.inl ⟨rfl, rfl, hrefl⟩
  | wait kind n ns t hpc hnodes hr hlater => exact Or.inl ⟨rfl, rfl, hrefl⟩
  | fire kind n ns t hpc hnodes hr hdue => exact Or.inl ⟨rfl, rfl, hrefl⟩
  | onceReturns n ns t m hpc hnodes hr hm =>
    have hperm : m.nodes.Perm ([] ++ ns) := List.Perm.of_eq hm
    obtain ⟨rest, hq, hq'⟩ := nodes_after hnodes hperm s.queue.timer
    exact Or.inl ⟨rfl, rfl, .of_subset fun x hx =>
      hq.mem_iff.mpr (List.mem_cons_of_mem _ (hq'.mem_iff.mp hx))⟩
  | recurringReturns n ns t m id hpc hnodes hr hdue hm =>
    have hperm : m.nodes.Perm
        ([⟨id, ((s.queue.timer n.value).update t).getTimeOutMSecond, n.value⟩] ++ ns) := hm
    obtain ⟨rest, hq, hq'⟩ := nodes_after hnodes hperm
      (Function.update s.queue.timer n.value ((s.queue.timer n.value).update t))
    refine Or.inl ⟨rfl, rfl, fun x hx => ?_⟩
    rcases List.mem_cons.mp (hq'.mem_iff.mp hx) with rfl | hx
    · exact ⟨n, hq.mem_iff.mpr List.mem_cons_self, (updated_deadline hr hdue).2⟩
    · exact hrefl x (hq.mem_iff.mpr (List.mem_cons_of_mem _ hx))
  | resetNone t hpc hr hnodes => exact Or.inl ⟨rfl, rfl, hrefl⟩
  | reset n t hpc hr hn hmin => exact Or.inr ⟨n, hn, hmin, rfl, rfl, fun _ => hrefl⟩

/-- A step after which no pass is running. -/
theorem Wf.idle_cases (h : s.Wf) (hs : timerQueue.step s l = some (s', o)) (hpc' : s'.pc = .idle) :
    s'.queue.nodes = [] ∨ o.armed ≠ none ∨
      (s.pc = .idle ∧ NotBefore s'.queue.nodes s.queue.nodes) := by
  cases h.move hs with
  | add kind interval t t' hadd hle htt hv hno =>
    refine Or.inr (Or.inr ⟨hpc', .of_subset fun n hn => ?_⟩)
    exact (s.queue.withTimer_nodes kind interval t).mem_iff.mpr (List.mem_cons_of_mem _ hn)
  | addArming kind interval t t' hadd hle htt hv hyes =>
    exact Or.inr (Or.inl (Option.some_ne_none _))
  | start hpc => cases hpc'
  | loopEnd kind hpc hnodes => cases kind <;> cases hpc'
  | wait kind n ns t hpc hnodes hr hlater => cases kind <;> cases hpc'
  | fire kind n ns t hpc hnodes hr hdue => cases hpc'
  | onceReturns n ns t m hpc hnodes hr hm => cases hpc'
  | recurringReturns n ns t m id hpc hnodes hr hdue hm => cases hpc'
  | resetNone t hpc hr hnodes => exact Or.inl hnodes
  | reset n t hpc hr hn hmin => exact Or.inr (Or.inl (Option.some_ne_none _))

/-- A step after which a pass is running starts it, or goes on with it. -/
theorem Wf.pass_cases (h : s.Wf) (hs : timerQueue.step s l = some (s', o))
    (hpc' : s'.pc ≠ .idle) :
    (l = .timerHandle ∧ s.pc = .idle ∧ s'.queue = s.queue) ∨
      (s.pc ≠ .idle ∧ ∀ t, l ≠ .resetTimer t) := by
  cases h.move hs with
  | add kind interval t t' hadd hle htt hv hno =>
    exact Or.inr ⟨hpc', fun _ e => by cases kind <;> cases e⟩
  | addArming kind interval t t' hadd hle htt hv hyes =>
    exact Or.inr ⟨hpc', fun _ e => by cases kind <;> cases e⟩
  | start hpc => exact Or.inl ⟨rfl, hpc, rfl⟩
  | loopEnd kind hpc hnodes => exact Or.inr ⟨hpc.trans_ne nofun, nofun⟩
  | wait kind n ns t hpc hnodes hr hlater => exact Or.inr ⟨hpc.trans_ne nofun, nofun⟩
  | fire kind n ns t hpc hnodes hr hdue => exact Or.inr ⟨hpc.trans_ne nofun, nofun⟩
  | onceReturns n ns t m hpc hnodes hr hm => exact Or.inr ⟨hpc.trans_ne nofun, nofun⟩
  | recurringReturns n ns t m id hpc hnodes hr hdue hm =>
    exact Or.inr ⟨hpc.trans_ne nofun, nofun⟩
  | resetNone t hpc hr hnodes => exact absurd rfl hpc'
  | reset n t hpc hr hn hmin => exact absurd rfl hpc'

/-! ## 3. Whole runs -/

/-- The pass that is running after the labels `ls` was started in `start`. -/
def PassStart (ls : List TimerStep) (start : TimerState) : Prop :=
  ∃ ls₁ ls₂ os₁, ls = ls₁ ++ .timerHandle :: ls₂ ∧ (∀ t, .resetTimer t ∉ ls₂) ∧
    timerQueue.run initial ls₁ = some (start, os₁)

theorem PassStart.goOn {ls : List TimerStep} {start : TimerState} (h : PassStart ls start)
    (hl : ∀ t, l ≠ .resetTimer t) : PassStart (ls ++ [l]) start := by
  obtain ⟨ls₁, ls₂, os₁, rfl, hno, hrun⟩ := h
  refine ⟨ls₁, ls₂ ++ [l], os₁, by rw [List.append_assoc, List.cons_append], fun t ht => ?_, hrun⟩
  rcases List.mem_append.mp ht with ht | ht
  · exact hno t ht
  · exact hl t (List.mem_singleton.mp ht).symm

/-- **The invariant of the cover.** -/
structure Cover (ls : List TimerStep) (s : TimerState) : Prop where
  wf : s.Wf
  idle : s.pc = .idle → s.Covered s.queue.nodes
  pass : s.pc ≠ .idle → ∃ start, PassStart ls start ∧
    NotBefore start.queue.nodes s.queue.nodes ∧ s.Covered start.queue.nodes

theorem Cover.initial : Cover [] TimerState.initial where
  wf := wf_initial
  idle _ hne := absurd rfl hne
  pass hpc := absurd rfl hpc

/-- **A step whose arming is in time keeps it.** -/
theorem Cover.step {ls : List TimerStep} {os : List TimerShown} (h : Cover ls s)
    (hrun : timerQueue.run TimerState.initial ls = some (s, os))
    (hs : timerQueue.step s l = some (s', o)) (hok : ∀ a ∈ o.armed, a.InTime s'.queue) :
    Cover (ls ++ [l]) s' := by
  have hwf := h.wf.step hs
  have hrefl := NotBefore.refl s'.queue.nodes
  refine ⟨hwf, fun hpc' => ?_, fun hpc' => ?_⟩
  · rcases h.wf.timerFd_cases hs with ⟨hnone, htimerFd, hlater⟩ | ⟨n, hn, hmin, harm, htimerFd, -⟩
    · rcases h.wf.idle_cases hs hpc' with hnil | harm | ⟨hpc, hback⟩
      · exact fun hne => absurd hnil hne
      · exact absurd hnone harm
      · exact ((h.idle hpc).stays htimerFd hlater).earlier hback
    · exact .of_armed hwf hn hmin (hok _ harm) (htimerFd.trans harm) hrefl
  · rcases h.wf.pass_cases hs hpc' with ⟨rfl, hpc, hq⟩ | ⟨hpc, hl⟩
    · refine ⟨s, ⟨ls, [], os, rfl, fun _ => List.not_mem_nil, hrun⟩, ?_, ?_⟩
      · rw [← hq]
        exact hrefl
      · exact (h.idle hpc).stays (by rw [hq]) (by rw [← hq]; exact hrefl)
    · obtain ⟨start, hstart, hbefore, hcovered⟩ := h.pass hpc
      refine ⟨start, hstart.goOn hl, ?_⟩
      rcases h.wf.timerFd_cases hs with ⟨-, htimerFd, hlater⟩ |
        ⟨n, hn, hmin, harm, htimerFd, hlater⟩
      · exact ⟨hbefore.trans hlater, hcovered.stays htimerFd hlater⟩
      · exact ⟨hbefore.trans (hlater hpc), .of_armed hwf hn hmin (hok _ harm)
          (htimerFd.trans harm) (hbefore.trans (hlater hpc))⟩

/-- **The timerfd covers the earliest timer**, in every run whose armings are in time. When no
    pass is running, it expires from the earliest deadline on, at most 15 ms after it. While a pass
    is running, it expires at most 15 ms after the earliest deadline, and not before the earliest
    deadline there was when the pass began. -/
theorem timerfd_covers_earliest {ls : List TimerStep} {os : List TimerShown}
    (hok : timerQueue.Along (fun _ _ s' o => ∀ a ∈ o.armed, a.InTime s'.queue) initial ls)
    (h : timerQueue.run initial ls = some (s, os)) :
    (s.pc = .idle → s.Covered s.queue.nodes) ∧
      (s.pc ≠ .idle → ∃ start, PassStart ls start ∧ s.Covered start.queue.nodes) := by
  have hcover : Cover ls s := Machine.run_induct_along (P := fun ls _ s => Cover ls s)
    Cover.initial (fun _ _ _ _ _ _ hrun h hs hok => h.step hrun hs hok) hok h
  refine ⟨hcover.idle, fun hpc => ?_⟩
  obtain ⟨start, hstart, -, hcovered⟩ := hcover.pass hpc
  exact ⟨start, hstart, hcovered⟩

/-- Once timers of 100 and 110 ms. A pass at 120 ms runs both callbacks; the second adds a once
    timer of a second. -/
def additionInPass : List TimerStep :=
  [.addOnceTimer 100 0 0, .addOnceTimer 110 0 0, .timerHandle, .check 120000000,
    .callbackReturns 120000000, .check 120000000, .addOnceTimer 1000 120000000 120000000]

/-- The rest of that pass. -/
def restOfPass : List TimerStep :=
  [.callbackReturns 120000000, .check 120000000, .loopEnd, .resetTimer 121000000]

theorem timerfd_covers_earliest_additionInPass :
    (∃ s os start, timerQueue.run initial additionInPass = some (s, os) ∧
      PassStart additionInPass start ∧ s.Covered start.queue.nodes) ∧
    ∃ s os, timerQueue.run initial (additionInPass ++ restOfPass) = some (s, os) ∧
      s.Covered s.queue.nodes := by
  have hrun : (timerQueue.run initial additionInPass).isSome := by decide +kernel
  have hrun' : (timerQueue.run initial (additionInPass ++ restOfPass)).isSome := by decide +kernel
  obtain ⟨⟨s, os⟩, hs⟩ := Option.isSome_iff_exists.mp hrun
  obtain ⟨⟨s', os'⟩, hs'⟩ := Option.isSome_iff_exists.mp hrun'
  have hpc : (timerQueue.run initial additionInPass).map (fun p => p.1.pc) =
      some (.firing .once 1) := by decide +kernel
  have hpc' : (timerQueue.run initial (additionInPass ++ restOfPass)).map (fun p => p.1.pc) =
      some .idle := by decide +kernel
  rw [hs] at hpc
  rw [hs'] at hpc'
  obtain ⟨start, hstart, hcovered⟩ := (timerfd_covers_earliest (by decide +kernel) hs).2
    ((Option.some.inj hpc).trans_ne nofun)
  exact ⟨⟨s, os, start, hs, hstart, hcovered⟩, s', os', hs',
    (timerfd_covers_earliest (by decide +kernel) hs').1 (Option.some.inj hpc')⟩

/-- **Not from the earliest deadline on, while a pass is running**: after that addition the timerfd
    expires at 100 ms, where it was armed for, and the earliest timer left is due at 110 ms. -/
theorem addition_in_pass_is_not_covered :
    timerQueue.Along (fun _ _ s' o => ∀ a ∈ o.armed, a.InTime s'.queue) initial additionInPass ∧
    ∃ s os, timerQueue.run initial additionInPass = some (s, os) ∧
      ¬ s.Covered s.queue.nodes := by
  have hrun : (timerQueue.run initial additionInPass).isSome := by decide +kernel
  obtain ⟨⟨s, os⟩, hs⟩ := Option.isSome_iff_exists.mp hrun
  have hexpiry : (timerQueue.run initial additionInPass).map (fun p =>
      (p.1.queue.timerFd.map Arming.expiry, p.1.queue.nodes.map Node.key)) =
      some (some 100, [110, 1120]) := by decide +kernel
  rw [hs] at hexpiry
  obtain ⟨htimerFd, hkeys⟩ := Prod.mk.inj (Option.some.inj hexpiry)
  refine ⟨by decide +kernel, s, os, hs, fun hcovered => ?_⟩
  obtain ⟨a, ha, ⟨m, hm, hle⟩, -⟩ := hcovered fun hnil => by rw [hnil] at hkeys; cases hkeys
  rw [ha] at htimerFd
  have hexp : a.expiry = 100 := Option.some.inj htimerFd
  have hmem : m.key ∈ [110, 1120] := hkeys ▸ List.mem_map_of_mem hm
  rw [hexp] at hle
  rcases List.mem_cons.mp hmem with h | h
  · omega
  · rw [List.mem_singleton.mp h] at hle
    omega

end TimerState

end PluginsEngine
