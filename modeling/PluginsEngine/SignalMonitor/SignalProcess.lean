/-
  File:      PluginsEngine/SignalMonitor/SignalProcess.lean
  Subject:   WHERE A SIGNAL GOES (signalMonitor/signalMonitor.cpp, in a process with other threads).

  A signal sent to a process waits until a thread that does not block it takes it, by its
  disposition, or until the signalfd is read. The standard signals wait once only; the real-time
  ones are queued, as long as the limit leaves room. SIGCONT throws away the stop signals that
  wait, and a stop signal throws away SIGCONT. The signalfd reports as long as one of its signals
  waits, and each read takes one. `handleSignal` reads once for each report and does not look at
  what `read` returns.

  * `signalDelivery` -- the monitor, the masks of the threads and the signals that wait;
  * `emptyReports` -- the reports behind which nothing is left to read;
  * `signals_conserved` -- over every run: every signal sent is accounted for, and no more
    handlers have run than signals were sent.
-/
import Mathlib.Data.Fintype.Basic
import PluginsEngine.SignalMonitor.SignalMonitor

namespace PluginsEngine

open Library

/-! ## 1. The process -/

/-- The monitor with its loop's thread, the other threads `τ`, and the signals of the process that
    wait, in the order in which they were sent. -/
structure SignalProcess (τ κ : Type) where
  monitor : SignalMonitor κ
  others : τ → Finset Signal
  waiting : List Signal
  /-- A report of the signalfd is in hand: `handleSignal` is to be called. -/
  reported : Bool

inductive SignalStep (τ κ : Type) where
  /-- `kill` or `sigqueue`, from anywhere; `room` says whether the limit on the signals that are
      queued leaves room for a real-time one. -/
  | send (signal : Signal) (room : Bool)
  /-- A thread that does not block the signal takes it. -/
  | take (signal : Signal)
  /-- What waits of some signals is thrown away: one whose disposition is set to be ignored, or
      SIGCONT when SIGSTOP is sent. -/
  | discard (signals : Finset Signal)
  /-- A call of `add` or `del`, also from a handler. -/
  | call (c : SignalCall κ)
  /-- Another thread changes its mask. -/
  | setMask (thread : τ) (mask : Finset Signal)
  /-- The loop's wait reports the signalfd. -/
  | report
  /-- `handleSignal`; `signo` is what `si.ssi_signo` holds behind the `read`, if it is the number
      of a signal. -/
  | handleSignal (signo : Option Signal)

/-- What becomes of a signal, and of a call of `handleSignal`. -/
inductive SignalFate (κ : Type) where
  /-- It is read, and its handler runs, if it has one. -/
  | read (signal : Signal) (ran : Option κ)
  /-- A thread that does not block it takes its disposition. -/
  | disposed (signal : Signal)
  /-- A standard signal, while one of its kind waits. -/
  | merged (signal : Signal)
  /-- The kernel throws it away while it waits. -/
  | discarded (signal : Signal)
  /-- A real-time signal, beyond the limit. -/
  | refused (signal : Signal)
  /-- `read` failed: a handler runs by what was in `si` before. -/
  | unread (ran : Option κ)
  deriving DecidableEq

variable {τ κ : Type} [Fintype τ] [DecidableEq τ]

/-- The standard signals, of which one waits at most. -/
def Standard (signal : Signal) : Prop := signal.val < 32

instance decidableStandard (signal : Signal) : Decidable (Standard signal) :=
  inferInstanceAs (Decidable (_ < _))

def sigcont : Signal := ⟨18, by unfold Blockable; decide⟩

/-- SIGTSTP, SIGTTIN and SIGTTOU. -/
def stopSignals : Finset Signal :=
  {⟨20, by unfold Blockable; decide⟩, ⟨21, by unfold Blockable; decide⟩,
    ⟨22, by unfold Blockable; decide⟩}

/-- The signals that do not wait any more once this one is sent, blocked or not. -/
def discardedBy (signal : Signal) : Finset Signal :=
  if signal = sigcont then stopSignals else if signal ∈ stopSignals then {sigcont} else ∅

namespace SignalProcess

variable (s : SignalProcess τ κ)

/-- Every thread blocks the signal. -/
def blocks (signal : Signal) : Prop :=
  signal ∈ s.monitor.blocked ∧ ∀ thread, signal ∈ s.others thread

instance decidableBlocks (signal : Signal) : Decidable (s.blocks signal) :=
  inferInstanceAs (Decidable (_ ∧ _))

/-- The signals that are not kept leave, all to one fate. -/
def keepOnly (keep : Signal → Bool) (fate : Signal → SignalFate κ) :
    SignalProcess τ κ × List (SignalFate κ) :=
  ({ s with waiting := s.waiting.filter keep }, (s.waiting.filter fun x => !keep x).map fate)

def discard (signals : Finset Signal) : SignalProcess τ κ × List (SignalFate κ) :=
  s.keepOnly (fun x => decide (x ∉ signals)) .discarded

/-- Before `pthread_sigmask` returns, the loop's thread has taken what it does not block. -/
def settle : SignalProcess τ κ × List (SignalFate κ) :=
  s.keepOnly (fun x => decide (x ∈ s.monitor.blocked)) .disposed

def queue (signal : Signal) (room : Bool) : SignalProcess τ κ × List (SignalFate κ) :=
  if Standard signal ∧ signal ∈ s.waiting then (s, [.merged signal])
  else if ¬ Standard signal ∧ room = false then (s, [.refused signal])
  else ({ s with waiting := s.waiting ++ [signal] }, [])

def send (signal : Signal) (room : Bool) : SignalProcess τ κ × List (SignalFate κ) :=
  let (s', discarded) := s.discard (discardedBy signal)
  let (s'', fate) := s'.queue signal room
  (s'', discarded ++ fate)

omit [Fintype τ] [DecidableEq τ] in
theorem send_fst (signal : Signal) (room : Bool) : (s.send signal room).1 =
    ((s.discard (discardedBy signal)).1.queue signal room).1 := rfl

omit [Fintype τ] [DecidableEq τ] in
theorem send_snd (signal : Signal) (room : Bool) : (s.send signal room).2 =
    (s.discard (discardedBy signal)).2 ++
      ((s.discard (discardedBy signal)).1.queue signal room).2 := rfl

/-- The signals a read of the signalfd can take. -/
def readable : List Signal := s.waiting.filter fun x => decide (x ∈ s.monitor.signalfd)

end SignalProcess

/-- The process. Which thread takes a signal and when, and the order in which the kernel gives the
    waiting signals out, is left open. -/
def signalDelivery (τ κ : Type) [Fintype τ] [DecidableEq τ] :
    Machine (SignalProcess τ κ) (SignalStep τ κ) (List (SignalFate κ)) where
  step s
    | .send signal room => some (s.send signal room)
    | .take signal =>
      if signal ∈ s.waiting ∧ ¬ s.blocks signal then
        some ({ s with waiting := s.waiting.erase signal }, [.disposed signal])
      else none
    | .discard signals => some (s.discard signals)
    | .call (.add signal sh) => some ({ s with monitor := s.monitor.add signal sh }, [])
    | .call (.del signal) => some { s with monitor := s.monitor.del signal }.settle
    | .setMask thread mask => some ({ s with others := Function.update s.others thread mask }, [])
    | .report =>
      if s.reported ∨ s.readable = [] then none else some ({ s with reported := true }, [])
    | .handleSignal signo =>
      if s.reported then
        if s.readable = [] then
          some ({ s with reported := false }, [.unread (signo.bind s.monitor.handleSignal)])
        else
          match signo with
          | none => none
          | some signal =>
            if signal ∈ s.readable then
              some ({ s with waiting := s.waiting.erase signal, reported := false },
                [.read signal (s.monitor.handleSignal signal)])
            else none
      else none

/-- A monitor that was just constructed, on a thread that blocks `blocked`. -/
def SignalProcess.start (blocked : Finset Signal) (others : τ → Finset Signal) :
    SignalProcess τ κ :=
  ⟨.create blocked, others, [], false⟩

/-- What a call of `handleSignal` does: it finds nothing to read, or it reads a signal. -/
theorem handleSignal_cases {s s' : SignalProcess τ κ} {signo : Option Signal}
    {o : List (SignalFate κ)}
    (hs : (signalDelivery τ κ).step s (.handleSignal signo) = some (s', o)) :
    s.reported = true ∧
      ((s.readable = [] ∧ s' = { s with reported := false } ∧
          o = [.unread (signo.bind s.monitor.handleSignal)]) ∨
        ∃ signal ∈ s.readable,
          s' = { s with waiting := s.waiting.erase signal, reported := false } ∧
          o = [.read signal (s.monitor.handleSignal signal)]) := by
  simp only [signalDelivery] at hs
  split at hs
  · rename_i hreported
    refine ⟨hreported, ?_⟩
    split at hs
    · rename_i hnil
      cases hs
      exact .inl ⟨hnil, rfl, rfl⟩
    · split at hs
      · cases hs
      · split at hs
        · rename_i signal hmem
          cases hs
          exact .inr ⟨signal, hmem, rfl, rfl⟩
        · cases hs
  · cases hs

/-! ## 2. No signal is lost or made up -/

def SignalStep.sent : SignalStep τ κ → List Signal
  | .send signal _ => [signal]
  | .take _ | .discard _ | .call _ | .setMask _ _ | .report | .handleSignal _ => []

/-- The signal whose fate it is. -/
def SignalFate.signal : SignalFate κ → Option Signal
  | .read signal _ | .disposed signal | .merged signal | .discarded signal | .refused signal =>
    some signal
  | .unread _ => none

/-- The handler it runs. -/
def SignalFate.ran : SignalFate κ → Option κ
  | .read _ ran | .unread ran => ran
  | .disposed _ | .merged _ | .discarded _ | .refused _ => none

/-- The signals among the fates, and those that wait. -/
def accounted (fates : List (SignalFate κ)) (s : SignalProcess τ κ) : List Signal :=
  fates.filterMap SignalFate.signal ++ s.waiting

section

variable {s s' s₁ : SignalProcess τ κ} {l : SignalStep τ κ} {o : List (SignalFate κ)}

omit [Fintype τ] [DecidableEq τ] in
theorem keepOnly_accounted (keep : Signal → Bool) {fate : Signal → SignalFate κ}
    (hfate : ∀ x, (fate x).signal = some x) :
    (accounted (s.keepOnly keep fate).2 (s.keepOnly keep fate).1).Perm s.waiting := by
  have hleft : ((s.waiting.filter fun x => !keep x).map fate).filterMap SignalFate.signal =
      s.waiting.filter fun x => !keep x := by
    rw [List.filterMap_map, show SignalFate.signal ∘ fate = some from funext hfate]
    exact List.filterMap_some
  show (_ ++ s.waiting.filter keep).Perm s.waiting
  show (((s.waiting.filter fun x => !keep x).map fate).filterMap SignalFate.signal ++ _).Perm _
  rw [hleft]
  exact List.perm_append_comm.trans (List.filter_append_perm _ _)

omit [Fintype τ] [DecidableEq τ] in
theorem queue_accounted (signal : Signal) (room : Bool) :
    (accounted (s.queue signal room).2 (s.queue signal room).1).Perm (s.waiting ++ [signal]) := by
  unfold SignalProcess.queue
  split
  · show ([signal] ++ s.waiting).Perm _
    exact List.perm_append_comm
  · split
    · show ([signal] ++ s.waiting).Perm _
      exact List.perm_append_comm
    · exact List.Perm.refl _

omit [Fintype τ] [DecidableEq τ] in
theorem send_accounted (signal : Signal) (room : Bool) :
    (accounted (s.send signal room).2 (s.send signal room).1).Perm (s.waiting ++ [signal]) := by
  have hdiscard : (accounted (s.discard (discardedBy signal)).2
      (s.discard (discardedBy signal)).1).Perm s.waiting := keepOnly_accounted _ fun _ => rfl
  have hqueue := queue_accounted (s := (s.discard (discardedBy signal)).1) signal room
  unfold accounted at *
  rw [s.send_snd, s.send_fst, List.filterMap_append, List.append_assoc]
  refine (hqueue.append_left _).trans ?_
  rw [← List.append_assoc]
  exact hdiscard.append_right _

/-- **One step**: what was sent, and what waited before, is accounted for. -/
theorem accounted_step (hs : (signalDelivery τ κ).step s l = some (s', o)) :
    (accounted o s').Perm (s.waiting ++ l.sent) := by
  cases l with
  | send signal room =>
    cases hs
    exact send_accounted signal room
  | take signal =>
    rw [SignalStep.sent, List.append_nil]
    simp only [signalDelivery] at hs
    split at hs
    · rename_i hmem
      cases hs
      exact (List.perm_cons_erase hmem.1).symm
    · cases hs
  | discard signals =>
    rw [SignalStep.sent, List.append_nil]
    cases hs
    exact keepOnly_accounted _ fun _ => rfl
  | call c =>
    rw [SignalStep.sent, List.append_nil]
    cases c with
    | add signal sh =>
      cases hs
      exact List.Perm.refl _
    | del signal =>
      cases hs
      exact keepOnly_accounted _ fun _ => rfl
  | setMask thread mask =>
    rw [SignalStep.sent, List.append_nil]
    cases hs
    exact List.Perm.refl _
  | report =>
    rw [SignalStep.sent, List.append_nil]
    simp only [signalDelivery] at hs
    split at hs
    · cases hs
    · cases hs
      exact List.Perm.refl _
  | handleSignal signo =>
    rw [SignalStep.sent, List.append_nil]
    obtain ⟨-, ⟨-, rfl, rfl⟩ | ⟨signal, hmem, rfl, rfl⟩⟩ := handleSignal_cases hs
    · exact List.Perm.refl _
    · exact (List.perm_cons_erase (List.mem_filter.mp hmem).1).symm

/-! ## 3. Reads that find nothing

A read that fails is one behind a report whose signals have all left. Each time that happens a
    signal was disposed of or thrown away, so the handlers that run without a signal are no more
    than the signals that ran none. -/

def SignalFate.isUnread : SignalFate κ → Bool
  | .unread _ => true
  | .read _ _ | .disposed _ | .merged _ | .discarded _ | .refused _ => false

/-- The signal does not come as far as a thread. -/
def SignalFate.byKernel : SignalFate κ → Bool
  | .merged _ | .discarded _ | .refused _ => true
  | .read _ _ | .disposed _ | .unread _ => false

def SignalFate.isLost : SignalFate κ → Bool
  | .disposed _ | .discarded _ => true
  | .read _ _ | .merged _ | .refused _ | .unread _ => false

/-- One, if a report is in hand and there is nothing left to read. -/
def emptyReports (s : SignalProcess τ κ) : Nat :=
  if s.reported = true ∧ s.readable = [] then 1 else 0

omit [Fintype τ] [DecidableEq τ] in
theorem emptyReports_le_one (s : SignalProcess τ κ) : emptyReports s ≤ 1 := by
  unfold emptyReports
  split
  · exact Nat.le_refl 1
  · exact Nat.zero_le 1

omit [Fintype τ] [DecidableEq τ] in
/-- A report does not become empty where all that can be read stays so. -/
theorem emptyReports_mono (hreported : s'.reported = s.reported)
    (hstay : ∀ x ∈ s.readable, x ∈ s'.readable) : emptyReports s' ≤ emptyReports s := by
  unfold emptyReports
  rw [hreported]
  by_cases hnil : s.readable = []
  · rw [hnil]
    split
    · rename_i h
      rw [if_pos ⟨h.1, rfl⟩]
    · exact Nat.zero_le _
  · obtain ⟨x, hx⟩ := List.exists_mem_of_ne_nil _ hnil
    rw [if_neg fun h => List.ne_nil_of_mem (hstay x hx) h.2]
    exact Nat.zero_le _

omit [Fintype τ] [DecidableEq τ] in
/-- Where signals leave to be disposed of or thrown away, an empty report is paid for. `s` is the
    process before, and `s₁` the one in which they leave. -/
theorem emptyReports_keepOnly (keep : Signal → Bool) (fate : Signal → SignalFate κ)
    (hfate : ∀ x, (fate x).isLost = true) (hreported : s₁.reported = s.reported)
    (hwaiting : s₁.waiting = s.waiting)
    (hstay : ∀ x ∈ s.readable, keep x = true → x ∈ s₁.monitor.signalfd) :
    emptyReports (s₁.keepOnly keep fate).1 ≤
      (s₁.keepOnly keep fate).2.countP SignalFate.isLost + emptyReports s := by
  by_cases hall : ∀ x ∈ s.readable, keep x = true
  · have hmono : emptyReports (s₁.keepOnly keep fate).1 ≤ emptyReports s := by
      refine emptyReports_mono hreported fun x hx => ?_
      refine List.mem_filter.mpr ⟨List.mem_filter.mpr ⟨?_, hall x hx⟩,
        decide_eq_true (hstay x hx (hall x hx))⟩
      rw [hwaiting]
      exact (List.mem_filter.mp hx).1
    omega
  · obtain ⟨x, hx, hleaves⟩ : ∃ x ∈ s.readable, keep x = false := by
      simpa using hall
    have hlost : fate x ∈ (s₁.keepOnly keep fate).2 := by
      refine List.mem_map_of_mem (List.mem_filter.mpr ⟨?_, ?_⟩)
      · rw [hwaiting]
        exact (List.mem_filter.mp hx).1
      · rw [hleaves]
        rfl
    have hpos : 0 < (s₁.keepOnly keep fate).2.countP SignalFate.isLost :=
      List.countP_pos_iff.mpr ⟨_, hlost, hfate x⟩
    have hone := emptyReports_le_one (s₁.keepOnly keep fate).1
    omega

omit [Fintype τ] [DecidableEq τ] in
theorem settle_unread : s.settle.2.countP SignalFate.isUnread = 0 := by
  refine List.countP_eq_zero.mpr fun f hf => ?_
  obtain ⟨x, -, rfl⟩ := List.mem_map.mp hf
  exact Bool.false_ne_true

omit [Fintype τ] [DecidableEq τ] in
/-- Queueing a signal takes nothing from the signalfd. -/
theorem queue_stays (signal : Signal) (room : Bool) :
    (s.queue signal room).1.reported = s.reported ∧
      (s.queue signal room).1.monitor = s.monitor ∧
      (∀ x ∈ s.waiting, x ∈ (s.queue signal room).1.waiting) ∧
      ∀ f ∈ (s.queue signal room).2, f.byKernel = true := by
  unfold SignalProcess.queue
  split
  · exact ⟨rfl, rfl, fun x hx => hx, fun f hf => List.mem_singleton.mp hf ▸ rfl⟩
  · split
    · exact ⟨rfl, rfl, fun x hx => hx, fun f hf => List.mem_singleton.mp hf ▸ rfl⟩
    · exact ⟨rfl, rfl, fun x hx => List.mem_append_left _ hx,
        fun f hf => absurd hf List.not_mem_nil⟩

omit [Fintype τ] [DecidableEq τ] in
theorem discard_byKernel (signals : Finset Signal) :
    ∀ f ∈ (s.discard signals).2, f.byKernel = true := by
  intro f hf
  obtain ⟨x, -, rfl⟩ := List.mem_map.mp hf
  rfl

omit [Fintype τ] [DecidableEq τ] in
theorem send_byKernel (signal : Signal) (room : Bool) :
    ∀ f ∈ (s.send signal room).2, f.byKernel = true := by
  intro f hf
  rw [s.send_snd] at hf
  rcases List.mem_append.mp hf with hdiscarded | hqueued
  · exact discard_byKernel _ f hdiscarded
  · exact (queue_stays signal room).2.2.2 f hqueued

omit [Fintype τ] [DecidableEq τ] in
theorem countP_isUnread_byKernel {fates : List (SignalFate κ)}
    (h : ∀ f ∈ fates, f.byKernel = true) : fates.countP SignalFate.isUnread = 0 := by
  refine List.countP_eq_zero.mpr fun f hf => ?_
  have hkernel := h f hf
  cases f with
  | unread ran => cases hkernel
  | read signal ran | disposed signal | merged signal | discarded signal | refused signal =>
    exact Bool.false_ne_true

omit [Fintype τ] [DecidableEq τ] in
theorem send_monitor (signal : Signal) (room : Bool) :
    (s.send signal room).1.monitor = s.monitor :=
  (queue_stays (s := (s.discard (discardedBy signal)).1) signal room).2.1

omit [Fintype τ] [DecidableEq τ] in
/-- With more signals there is no less to read. -/
theorem readable_mono (hwaiting : ∀ x ∈ s.waiting, x ∈ s'.waiting)
    (hfd : s.monitor.signalfd ⊆ s'.monitor.signalfd) : ∀ x ∈ s.readable, x ∈ s'.readable := by
  intro x hx
  obtain ⟨hin, hsig⟩ := List.mem_filter.mp hx
  exact List.mem_filter.mpr ⟨hwaiting x hin, decide_eq_true (hfd (of_decide_eq_true hsig))⟩

omit [Fintype τ] [DecidableEq τ] in
theorem unread_discard (signals : Finset Signal) :
    (s.discard signals).2.countP SignalFate.isUnread + emptyReports (s.discard signals).1 ≤
      (s.discard signals).2.countP SignalFate.isLost + emptyReports s := by
  rw [countP_isUnread_byKernel (discard_byKernel signals), Nat.zero_add]
  exact emptyReports_keepOnly _ _ (fun _ => rfl) rfl rfl
    fun x hx _ => of_decide_eq_true (List.mem_filter.mp hx).2

omit [Fintype τ] [DecidableEq τ] in
theorem unread_send (signal : Signal) (room : Bool) :
    (s.send signal room).2.countP SignalFate.isUnread + emptyReports (s.send signal room).1 ≤
      (s.send signal room).2.countP SignalFate.isLost + emptyReports s := by
  have hdiscard := unread_discard (s := s) (discardedBy signal)
  obtain ⟨hreported, hmonitor, hwaiting, -⟩ :=
    queue_stays (s := (s.discard (discardedBy signal)).1) signal room
  have hqueue := emptyReports_mono hreported (readable_mono hwaiting (hmonitor ▸ subset_rfl))
  rw [countP_isUnread_byKernel (send_byKernel signal room), s.send_fst, s.send_snd,
    List.countP_append]
  omega

omit [Fintype τ] [DecidableEq τ] in
/-- What `del` leaves blocked it leaves to the signalfd. -/
theorem del_signalfd {blocked₀ deleted : Finset Signal}
    (hwf : SignalMonitor.Wf blocked₀ (s.monitor, deleted)) {signal x : Signal}
    (hx : x ∈ s.monitor.signalfd) (hblocked : x ∈ (s.monitor.del signal).blocked) :
    x ∈ (s.monitor.del signal).signalfd := by
  unfold SignalMonitor.del at hblocked ⊢
  split at hblocked
  · rename_i hmap
    rw [if_pos hmap]
    have hmask : x ∈ s.monitor.mask := by
      rw [show s.monitor.mask = s.monitor.map.keys from hwf.mask,
        ← show s.monitor.signalfd = s.monitor.map.keys from hwf.signalfd]
      exact hx
    exact Finset.mem_erase.mpr ⟨(Finset.mem_erase.mp hblocked).1, hmask⟩
  · rename_i hmap
    rw [if_neg hmap]
    exact hx

omit [Fintype τ] [DecidableEq τ] in
/-- `add` takes nothing from the signalfd. -/
theorem add_signalfd {blocked₀ deleted : Finset Signal}
    (hwf : SignalMonitor.Wf blocked₀ (s.monitor, deleted)) (signal : Signal) (sh : κ) :
    s.monitor.signalfd ⊆ (s.monitor.add signal sh).signalfd := by
  unfold SignalMonitor.add
  split
  · exact Finset.Subset.refl _
  · have hmask : s.monitor.signalfd = s.monitor.mask := hwf.signalfd.trans hwf.mask.symm
    rw [hmask]
    exact Finset.subset_insert _ _

omit [Fintype τ] [DecidableEq τ] in
theorem unread_del {blocked₀ deleted : Finset Signal}
    (hwf : SignalMonitor.Wf blocked₀ (s.monitor, deleted)) {signal : Signal}
    (hs : SignalProcess.settle { s with monitor := s.monitor.del signal } = (s', o)) :
    o.countP SignalFate.isUnread + emptyReports s' ≤
      o.countP SignalFate.isLost + emptyReports s := by
  have hunread := settle_unread (s := { s with monitor := s.monitor.del signal })
  have hempty : emptyReports (SignalProcess.settle { s with monitor := s.monitor.del signal }).1 ≤
      (SignalProcess.settle { s with monitor := s.monitor.del signal }).2.countP
        SignalFate.isLost + emptyReports s :=
    emptyReports_keepOnly _ _ (fun _ => rfl) rfl rfl fun x hx hkeep =>
      del_signalfd hwf (of_decide_eq_true (List.mem_filter.mp hx).2) (of_decide_eq_true hkeep)
  rw [hs] at hunread hempty
  rw [hunread, Nat.zero_add]
  exact hempty

/-- **One step**: a read that fails has used up an empty report, and a report becomes empty by a
    signal that is lost only. -/
theorem unread_step {blocked₀ deleted : Finset Signal}
    (hwf : SignalMonitor.Wf blocked₀ (s.monitor, deleted))
    (hs : (signalDelivery τ κ).step s l = some (s', o)) :
    o.countP SignalFate.isUnread + emptyReports s' ≤
      o.countP SignalFate.isLost + emptyReports s := by
  cases l with
  | send signal room =>
    cases hs
    exact unread_send signal room
  | take signal =>
    simp only [signalDelivery] at hs
    split at hs
    · cases hs
      have hone := emptyReports_le_one { s with waiting := s.waiting.erase signal }
      show 0 + _ ≤ 1 + _
      omega
    · cases hs
  | discard signals =>
    cases hs
    exact unread_discard signals
  | call c =>
    cases c with
    | add signal sh =>
      cases hs
      rw [List.countP_nil, List.countP_nil, Nat.zero_add, Nat.zero_add]
      exact emptyReports_mono rfl
        (readable_mono (fun _ hx => hx) (add_signalfd hwf signal sh))
    | del signal =>
      exact unread_del hwf (Option.some.inj hs)
  | setMask thread mask =>
    cases hs
    rw [List.countP_nil, List.countP_nil, Nat.zero_add, Nat.zero_add]
    exact emptyReports_mono rfl fun _ hx => hx
  | report =>
    simp only [signalDelivery] at hs
    split at hs
    · cases hs
    · rename_i hgo
      cases hs
      have hfull : emptyReports { s with reported := true } = 0 :=
        if_neg fun h => (not_or.mp hgo).2 h.2
      rw [List.countP_nil, List.countP_nil, hfull]
      exact Nat.zero_le _
  | handleSignal signo =>
    obtain ⟨hreported, ⟨hnil, rfl, rfl⟩ | ⟨signal, -, rfl, rfl⟩⟩ := handleSignal_cases hs
    · rw [show emptyReports s = 1 from if_pos ⟨hreported, hnil⟩]
      exact Nat.le_refl 1
    · exact Nat.zero_le _

omit [Fintype τ] in
theorem monitor_step {blocked₀ : Finset Signal} [Fintype τ]
    (hwf : ∃ deleted, SignalMonitor.Wf blocked₀ (s.monitor, deleted))
    (hs : (signalDelivery τ κ).step s l = some (s', o)) :
    ∃ deleted, SignalMonitor.Wf blocked₀ (s'.monitor, deleted) := by
  obtain ⟨deleted, hwf⟩ := hwf
  cases l with
  | send signal room =>
    have hs' : s.send signal room = (s', o) := Option.some.inj hs
    have hmonitor := send_monitor (s := s) signal room
    rw [hs'] at hmonitor
    exact ⟨deleted, hmonitor ▸ hwf⟩
  | take signal =>
    simp only [signalDelivery] at hs
    split at hs
    · cases hs
      exact ⟨deleted, hwf⟩
    · cases hs
  | discard signals =>
    cases hs
    exact ⟨deleted, hwf⟩
  | call c =>
    cases c with
    | add signal sh =>
      cases hs
      exact ⟨deleted, hwf.add signal sh⟩
    | del signal =>
      cases hs
      exact ⟨_, hwf.del signal⟩
  | setMask thread mask =>
    cases hs
    exact ⟨deleted, hwf⟩
  | report =>
    simp only [signalDelivery] at hs
    split at hs
    · cases hs
    · cases hs
      exact ⟨deleted, hwf⟩
  | handleSignal signo =>
    obtain ⟨-, ⟨-, rfl, -⟩ | ⟨signal, -, rfl, -⟩⟩ := handleSignal_cases hs
    · exact ⟨deleted, hwf⟩
    · exact ⟨deleted, hwf⟩

omit [Fintype τ] [DecidableEq τ] in
/-- A handler runs for a signal that is accounted for and not lost, or without one. -/
theorem ran_le (fates : List (SignalFate κ)) :
    (fates.filterMap SignalFate.ran).length + fates.countP SignalFate.isLost ≤
      (fates.filterMap SignalFate.signal).length + fates.countP SignalFate.isUnread := by
  induction fates with
  | nil => exact Nat.le_refl 0
  | cons f fates ih =>
    rw [List.filterMap_cons, List.filterMap_cons, List.countP_cons, List.countP_cons]
    cases f with
    | read signal ran =>
      cases ran <;> simp [SignalFate.ran, SignalFate.signal, SignalFate.isLost,
        SignalFate.isUnread]
      · omega
      · omega
    | unread ran =>
      cases ran <;> simp [SignalFate.ran, SignalFate.signal, SignalFate.isLost,
        SignalFate.isUnread]
      · omega
      · omega
    | disposed signal | merged signal | discarded signal | refused signal =>
      simp [SignalFate.ran, SignalFate.signal, SignalFate.isLost, SignalFate.isUnread]
      omega

omit [Fintype τ] [DecidableEq τ] in
theorem emptyReports_start (blocked : Finset Signal) (others : τ → Finset Signal) :
    emptyReports (.start blocked others : SignalProcess τ κ) = 0 :=
  if_neg fun h => Bool.false_ne_true h.1

section

variable {blocked : Finset Signal} {others : τ → Finset Signal} {ls : List (SignalStep τ κ)}
  {t : SignalProcess τ κ} {os : List (List (SignalFate κ))}

theorem accounted_of_run
    (h : (signalDelivery τ κ).run (.start blocked others) ls = some (t, os)) :
    (accounted os.flatten t).Perm (ls.flatMap SignalStep.sent) :=
  Machine.run_induct
    (P := fun ls os s => (accounted (List.flatten os) s).Perm (ls.flatMap SignalStep.sent))
    (List.Perm.refl _)
    (fun ls os s l s' o hP hs => by
      have hstep := accounted_step hs
      unfold accounted at hP hstep ⊢
      rw [List.flatten_append, List.flatten_singleton, List.filterMap_append, List.append_assoc,
        List.flatMap_append, List.flatMap_singleton]
      -- the fates before, then what the step accounts for, then what was sent before it
      calc (List.flatten os).filterMap SignalFate.signal ++
              (o.filterMap SignalFate.signal ++ s'.waiting)
          _ |>.Perm ((List.flatten os).filterMap SignalFate.signal ++ (s.waiting ++ l.sent)) :=
            hstep.append_left _
          _ |>.Perm (ls.flatMap SignalStep.sent ++ l.sent) := by
            rw [← List.append_assoc]
            exact hP.append_right _) h

theorem unread_of_run
    (h : (signalDelivery τ κ).run (.start blocked others) ls = some (t, os)) :
    os.flatten.countP SignalFate.isUnread + emptyReports t ≤
      os.flatten.countP SignalFate.isLost := by
  have hrun := Machine.run_induct
    (P := fun _ os s => (∃ deleted, SignalMonitor.Wf blocked (s.monitor, deleted)) ∧
      (List.flatten os).countP SignalFate.isUnread + emptyReports s ≤
        (List.flatten os).countP SignalFate.isLost)
    ⟨⟨∅, SignalMonitor.wf_start blocked⟩, by rw [emptyReports_start]; exact Nat.le_refl 0⟩
    (fun ls os s l s' o hP hs => by
      obtain ⟨⟨deleted, hwf⟩, hle⟩ := hP
      have hstep := unread_step hwf hs
      refine ⟨monitor_step ⟨deleted, hwf⟩ hs, ?_⟩
      rw [List.flatten_append, List.flatten_singleton, List.countP_append, List.countP_append]
      omega) h
  exact hrun.2

/-- **Signals are conserved**, whatever the threads do with their masks: those sent are, up to
    order, those that were read, disposed of, merged, thrown away or refused, and those that wait;
    and no more handlers have run than signals were sent. -/
theorem signals_conserved
    (h : (signalDelivery τ κ).run (.start blocked others) ls = some (t, os)) :
    (accounted os.flatten t).Perm (ls.flatMap SignalStep.sent) ∧
      (os.flatten.filterMap SignalFate.ran).length ≤ (ls.flatMap SignalStep.sent).length := by
  have hperm := accounted_of_run h
  refine ⟨hperm, ?_⟩
  have hunread := unread_of_run h
  have hran := ran_le os.flatten
  have hlength := hperm.length_eq
  unfold accounted at hlength
  rw [List.length_append] at hlength
  omega

end

end

/-! ## 4. A process with one other thread -/

/-- SIGUSR1, and the first real-time signal that is free. -/
def sigusr1 : Signal := ⟨10, by unfold Blockable; decide⟩
def sigrt : Signal := ⟨34, by unfold Blockable; decide⟩

abbrev exampleProcess : SignalProcess Unit Nat := .start ∅ fun _ => {sigterm, sigrt}

/-- Two signals get handlers. Of the standard one two are sent, of the other three, the last
    beyond the limit; SIGUSR1 is blocked by nobody. -/
def signalBurst : List (SignalStep Unit Nat) :=
  [.call (.add sigterm 1), .call (.add sigrt 2), .send sigterm true, .send sigrt true,
    .send sigterm true, .send sigrt true, .send sigrt false, .send sigusr1 true, .take sigusr1]

theorem signals_conserved_burst : ∃ t os,
    (signalDelivery Unit Nat).run exampleProcess signalBurst = some (t, os) ∧
      (accounted os.flatten t).Perm [sigterm, sigrt, sigterm, sigrt, sigrt, sigusr1] ∧
      (os.flatten.filterMap SignalFate.ran).length ≤ 6 := by
  have hsome : ((signalDelivery Unit Nat).run exampleProcess signalBurst).isSome := by
    decide +kernel
  obtain ⟨⟨t, os⟩, hrun⟩ := Option.isSome_iff_exists.mp hsome
  exact ⟨t, os, hrun, signals_conserved hrun⟩

end PluginsEngine
