/-
  File:      PluginsEngine/Timer/DueTimers.lean
  Subject:   A PASS FIRES THE TIMERS THAT ARE DUE, and no others.

  The readings of a pass lie between its first one and its last one. When every recurring interval
  is longer than the time between these two, no timer that has come back is due again, and the
  pass is the two scans.

  * `TimerQueue.Contents` -- the keys are the deadlines, and no timer has two nodes;
  * `scan_nodes`, `scan_due`, `scan_rest` -- a scan takes the front of its list, finds what it
    takes due, and leaves nothing that was due at its first reading;
  * `FiresDue` -- what a pass does to the timers;
  * `timerHandle_fires_the_due` -- every pass shorter than the recurring intervals does it.
-/
import PluginsEngine.Timer.Pass

namespace PluginsEngine

open Library TimerState

/-! ## 1. What a scan finds -/

section

variable {c : Stream' Nat} {t₀ : Nat}

/-- A scan takes the nodes at the front, in their order. -/
theorem scan_nodes (ns : List (Node Nat TimerId)) (c : Stream' Nat) :
    (scan ns c).map Firing.node = ns.take (scan ns c).length := by
  induction ns generalizing c with
  | nil => rfl
  | cons n ns ih =>
    by_cases hdue : n.key ≤ Timer.getNowTimeMSecond c.head
    · rw [scan_cons_of_due hdue, List.map_cons, List.length_cons, List.take_succ_cons, ih]
    · rw [scan_cons_of_later hdue]
      rfl

theorem scan_mem {ns : List (Node Nat TimerId)} {f : Firing} (h : f ∈ scan ns c) :
    f.node ∈ ns := by
  have hmem := List.mem_map_of_mem (f := Firing.node) h
  rw [scan_nodes] at hmem
  exact List.mem_of_mem_take hmem

/-- What a scan takes is due at the reading before its callback, and its callback returns at a
    reading of the pass. -/
theorem scan_due {ns : List (Node Nat TimerId)} (hc : Ticks t₀ c) {f : Firing}
    (h : f ∈ scan ns c) :
    f.node.key ≤ Timer.getNowTimeMSecond f.found ∧ ∃ i, f.back = c.get i := by
  induction ns generalizing c t₀ with
  | nil => exact absurd h List.not_mem_nil
  | cons n ns ih =>
    by_cases hdue : n.key ≤ Timer.getNowTimeMSecond c.head
    · rw [scan_cons_of_due hdue] at h
      rcases List.mem_cons.mp h with rfl | h
      · exact ⟨hdue, 1, rfl⟩
      · obtain ⟨hkey, i, hback⟩ := ih hc.tail.tail h
        exact ⟨hkey, i + 2, hback⟩
    · rw [scan_cons_of_later hdue] at h
      exact absurd h List.not_mem_nil

/-- What a scan leaves was not due at its first reading. -/
theorem scan_rest {ns : List (Node Nat TimerId)} (hc : Ticks t₀ c)
    (hsorted : ns.Pairwise fun a b => a.key ≤ b.key) {n : Node Nat TimerId}
    (h : n ∈ ns.drop (scan ns c).length) : Timer.getNowTimeMSecond c.head < n.key := by
  induction ns generalizing c t₀ with
  | nil => exact absurd h List.not_mem_nil
  | cons m ns ih =>
    obtain ⟨hm, hns⟩ := List.pairwise_cons.mp hsorted
    by_cases hdue : m.key ≤ Timer.getNowTimeMSecond c.head
    · rw [scan_cons_of_due hdue, List.length_cons, List.drop_succ_cons] at h
      have hle : Timer.getNowTimeMSecond c.head ≤ Timer.getNowTimeMSecond c.tail.tail.head :=
        hc.ms_le (Nat.zero_le 2)
      exact Nat.lt_of_le_of_lt hle (ih hc.tail.tail hns h)
    · rw [scan_cons_of_later hdue] at h
      exact lt_of_first hm (Nat.not_le.mp hdue) n h

theorem renewed_key {interval : TimerId → UInt32} {id : Nat} {fs : List Firing}
    {a : Node Nat TimerId} (h : a ∈ renewed interval id fs) :
    ∃ f ∈ fs, a.key = Timer.getNowTimeMSecond f.back + (interval f.node.value).toNat := by
  induction fs generalizing id with
  | nil => exact absurd h List.not_mem_nil
  | cons f fs ih =>
    rcases List.mem_cons.mp h with rfl | h
    · exact ⟨f, List.mem_cons_self, rfl⟩
    · obtain ⟨g, hg, hkey⟩ := ih h
      exact ⟨g, List.mem_cons_of_mem _ hg, hkey⟩

end

/-! ## 2. What a pass does -/

/-- The keys are the timers' deadlines, and no timer has two nodes. -/
structure TimerQueue.Contents (q : TimerQueue) : Prop where
  key : ∀ n ∈ q.nodes, n.key = q.deadline n.value
  distinct : (q.nodes.map Node.value).Nodup

/-- A queue in use has such contents, at every point of every run. -/
theorem TimerState.Wf.contents {s : TimerState} (h : s.Wf) : s.queue.Contents :=
  ⟨fun n hn => (h.node n hn).2, h.distinct⟩

/-- **What a pass does** that reads `c₀` first and fires the once timers `onces` and the recurring
    ones `recurrings`. -/
structure FiresDue (q : TimerQueue) (c₀ : Nat) (onces recurrings : List Firing)
    (q' : TimerQueue) (os : List TimerShown) : Prop where
  /-- The once timers fire first. -/
  shown : firings os = onces.map (Firing.shown .once) ++ recurrings.map (Firing.shown .recurring)
  /-- Each kind fires from the front of its multimap. -/
  onces_front : onces.map Firing.node = q.onceTimers.nodes.take onces.length
  recurrings_front : recurrings.map Firing.node = q.recurringTimers.nodes.take recurrings.length
  /-- Deadlines do not decrease along it. -/
  onces_sorted : onces.Pairwise fun f g => q.deadline f.node.value ≤ q.deadline g.node.value
  recurrings_sorted :
    recurrings.Pairwise fun f g => q.deadline f.node.value ≤ q.deadline g.node.value
  /-- What fires is due at the reading before its callback. -/
  due : ∀ f ∈ firings os, q.deadline f.2.1 ≤ Timer.getNowTimeMSecond f.2.2
  /-- What is due at the first reading fires. -/
  all_due : ∀ n ∈ q.nodes, q.deadline n.value ≤ Timer.getNowTimeMSecond c₀ →
    n.value ∈ firedTimers os
  /-- No timer fires twice. -/
  nodup : (firedTimers os).Nodup
  /-- Once timers that have fired are gone, the others stay as they are. -/
  erased : q'.onceTimers.nodes = q.onceTimers.nodes.drop onces.length
  /-- Recurring timers that have fired stand under the reading behind their callback plus their
      interval, the others stay as they are. -/
  rekeyed : q'.recurringTimers.nodes = insertAll (q.recurringTimers.nodes.drop recurrings.length)
    (renewed q.interval q.recurringTimers.next recurrings)
  /-- Only those are updated. -/
  timers : q'.timer = updateAll q.timer recurrings

section

variable {s : TimerState} {c : Stream' Nat}

/-- The timers of a scan, by their deadlines. -/
theorem TimerQueue.Contents.scan_sorted {q : TimerQueue} (h : q.Contents) {kind : TimerKind}
    (c : Stream' Nat) :
    (scan (q.timers kind).nodes c).Pairwise
      fun f g => q.deadline f.node.value ≤ q.deadline g.node.value := by
  have hfront : ((scan (q.timers kind).nodes c).map Firing.node).Pairwise
      fun a b => a.key ≤ b.key := by
    rw [scan_nodes]
    exact (q.timers kind).sorted.sublist (List.take_sublist _ _)
  refine (List.pairwise_map.mp hfront).imp_of_mem fun {f g} hf hg hle => ?_
  rw [← h.key _ (mem_nodes (scan_mem hf)), ← h.key _ (mem_nodes (scan_mem hg))]
  exact hle

/-- The timers a pass fires that shows the two scans. -/
theorem firedTimers_eq {q : TimerQueue} {os : List TimerShown}
    (h : firings os = (q.onceScan c).map (Firing.shown .once) ++
      (q.recurringScan c).map (Firing.shown .recurring)) :
    firedTimers os =
      (q.onceTimers.nodes.take (q.onceScan c).length).map Node.value ++
        (q.recurringTimers.nodes.take (q.recurringScan c).length).map Node.value := by
  rw [firedTimers, h, List.map_append, List.map_map, List.map_map, TimerQueue.onceScan,
    TimerQueue.recurringScan, ← scan_nodes, ← scan_nodes, List.map_map, List.map_map]
  rfl

/-- The timers of a queue whose two scans are fired are fired once. -/
theorem TimerQueue.Contents.fired_nodup {q : TimerQueue} (h : q.Contents) {os : List TimerShown}
    (hos : firings os = (q.onceScan c).map (Firing.shown .once) ++
      (q.recurringScan c).map (Firing.shown .recurring)) : (firedTimers os).Nodup := by
  have hdistinct := h.distinct
  rw [TimerQueue.nodes, List.map_append] at hdistinct
  rw [firedTimers_eq hos]
  exact hdistinct.sublist (((List.take_sublist _ _).map _).append ((List.take_sublist _ _).map _))

/-- Passes shorter than the recurring intervals renew no timer that is due again. -/
theorem noneDueAgain_of_short (hc : Ticks s.clock c)
    (hshort : ∀ n ∈ s.queue.recurringTimers.nodes,
      Timer.getNowTimeMSecond (c.get (s.queue.passLength c - 1)) <
        Timer.getNowTimeMSecond c.head + (s.queue.interval n.value).toNat) :
    s.queue.NoneDueAgain c := by
  intro a ha
  obtain ⟨f, hf, hkey⟩ := renewed_key ha
  obtain ⟨-, i, hback⟩ := scan_due (hc.drop _) hf
  rw [Stream'.get_drop] at hback
  have hbefore : Timer.getNowTimeMSecond c.head ≤ Timer.getNowTimeMSecond f.back := by
    rw [hback]
    exact hc.ms_le (Nat.zero_le _)
  have hlast : Timer.getNowTimeMSecond (s.queue.lastCheck c) ≤
      Timer.getNowTimeMSecond (c.get (s.queue.passLength c - 1)) :=
    hc.ms_le (by rw [TimerQueue.passLength]; omega)
  have hlt := hshort f.node (scan_mem hf)
  omega

/-- **A pass fires the timers that are due, and no others**, for all contents of the two maps and
    every clock whose last reading in the pass is less than any recurring interval behind the
    first. -/
theorem timerHandle_fires_the_due (hq : s.queue.Contents) (hc : Ticks s.clock c)
    (hshort : ∀ n ∈ s.queue.recurringTimers.nodes,
      Timer.getNowTimeMSecond (c.get (s.queue.passLength c - 1)) <
        Timer.getNowTimeMSecond c.head + (s.queue.interval n.value).toNat) :
    ∃ s' os, timerPass.run s.enter (c.take (s.queue.passLength c)) = some (s', os) ∧
      s'.pc = .idle ∧
      FiresDue s.queue c.head (s.queue.onceScan c) (s.queue.recurringScan c) s'.queue os := by
  obtain ⟨s', os, hrun, hpc', hshown, honce, hrec, htimer⟩ :=
    pass_returns hc (noneDueAgain_of_short hc hshort)
  have hc' := hc.drop (2 * (s.queue.onceScan c).length + 1)
  refine ⟨s', os, hrun, hpc', hshown, scan_nodes _ _, scan_nodes _ _, hq.scan_sorted c,
    hq.scan_sorted _, ?_, ?_, hq.fired_nodup hshown, honce, hrec, htimer⟩
  · intro f hf
    rw [hshown] at hf
    rcases List.mem_append.mp hf with hf | hf
    · obtain ⟨g, hg, rfl⟩ := List.mem_map.mp hf
      rw [Firing.shown, ← hq.key _ (mem_nodes (scan_mem hg))]
      exact (scan_due hc hg).1
    · obtain ⟨g, hg, rfl⟩ := List.mem_map.mp hf
      rw [Firing.shown, ← hq.key _ (mem_nodes (scan_mem hg))]
      exact (scan_due hc' hg).1
  · intro n hn hdue
    rw [← hq.key n hn] at hdue
    rw [firedTimers_eq hshown]
    rcases List.mem_append.mp hn with hin | hin
    · refine List.mem_append_left _ (List.mem_map_of_mem ?_)
      rw [← List.take_append_drop (s.queue.onceScan c).length s.queue.onceTimers.nodes] at hin
      rcases List.mem_append.mp hin with hin | hin
      · exact hin
      · exact absurd hdue (Nat.not_le.mpr (scan_rest hc s.queue.onceTimers.sorted hin))
    · refine List.mem_append_right _ (List.mem_map_of_mem ?_)
      rw [← List.take_append_drop (s.queue.recurringScan c).length
        s.queue.recurringTimers.nodes] at hin
      rcases List.mem_append.mp hin with hin | hin
      · exact hin
      · have hlater := scan_rest hc' s.queue.recurringTimers.sorted hin
        have hle : Timer.getNowTimeMSecond c.head ≤ Timer.getNowTimeMSecond
            (c.drop (2 * (s.queue.onceScan c).length + 1)).head := by
          rw [Stream'.head_drop]
          exact hc.ms_le (Nat.zero_le _)
        exact absurd hdue (Nat.not_le.mpr (Nat.lt_of_le_of_lt hle hlater))

end

/-- A once timer of 5 ms, and recurring ones of 20 ms and of 40 ms. -/
def threeTimers : TimerState :=
  ⟨((TimerQueue.initial.addOnceTimer 5 0 0).1.addRecurringTimer 20 0 0).1.addRecurringTimer
    40 0 0 |>.1, .idle, 0⟩

theorem timerHandle_fires_the_due_threeTimers : ∃ s' os,
    timerPass.run threeTimers.enter ((Stream'.const 25000000).take 7) = some (s', os) ∧
      s'.pc = .idle ∧
      FiresDue threeTimers.queue 25000000 (threeTimers.queue.onceScan (Stream'.const 25000000))
        (threeTimers.queue.recurringScan (Stream'.const 25000000)) s'.queue os :=
  timerHandle_fires_the_due (s := threeTimers) (c := Stream'.const 25000000)
    ⟨by decide, by decide⟩ ((Ticks.const (by decide)).of_le (by decide)) (by decide)

end PluginsEngine
