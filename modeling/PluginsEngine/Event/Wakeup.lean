/-
  File:      PluginsEngine/Event/Wakeup.lean
  Subject:   A CALLBACK QUEUE ON ITS LOOP (event/eventfd.cpp with event/eventCtrl.cpp).

  The threads of EventFd.lean, together with the loop that owns the eventfd: the wait, which the
  kernel ends as the descriptors are ready, the dispatch of its records, and all that other
  handlers do to the loop meanwhile. `handleEvents` of the queue is entered from the dispatch of
  the eventfd's record, and from nowhere else.

  * `EventFD.construct` -- the constructor on the loop;
  * `handleEvents_runs_what_was_pushed` -- one call of `handleEvents` runs exactly the callbacks
    pushed before its swap, so callbacks that post again do not keep it from returning;
  * `queueLoop` -- the machine; `QueueLoop.Sound`, `queueLoop_step` -- its invariant;
  * `Due`, `due_step` -- how the callbacks in the list at a wait come to be run;
  * `run_in_one_turn` -- in every interleaving: what has been posted when the loop waits is
    reported by that wait, and started before the loop waits again.
-/
import PluginsEngine.Event.EventFd
import PluginsEngine.Event.Watched

namespace PluginsEngine

open Library EventFD

variable {τ κ ι : Type}

/-- `EventFD(eventLoop)` with the descriptor `eventFd`. -/
def EventFD.construct (w : World ι) (eventFd : Int) (handleEvents : ι) : EventId × World ι :=
  w.addReaderLate eventFd handleEvents

/-! ## 1. One call of `handleEvents` -/

section

variable [DecidableEq τ] {s t : EventFD τ κ} {os : List (List κ)}

/-- Between its swap and its return nothing leaves the shared list, and posts enter it. -/
theorem callbacks_of_no_swap {ls : List (EventFdStep τ κ)} (hno : .atomicPopAll ∉ ls)
    (h : (eventFd τ κ).run s ls = some (t, os)) :
    t.callbacks = s.callbacks ++ ls.flatMap posted := by
  induction ls generalizing s os with
  | nil =>
    cases h
    exact (List.append_nil _).symm
  | cons l ls ih =>
    obtain ⟨m, o, os', hs, hr, rfl⟩ := Machine.run_cons_iff.mp h
    have hm : m.callbacks = s.callbacks ++ posted l := by
      cases l with
      | post thread callback =>
        simp only [eventFd] at hs
        split at hs
        · cases callback with
          | none =>
            cases hs
            exact (List.append_nil _).symm
          | some callback =>
            cases hs
            rfl
        · cases hs
      | atomicPopAll => exact absurd List.mem_cons_self hno
      | write thread | read | popAndExecuteFirstCallback | callbackReturns | leave =>
        simp only [eventFd] at hs
        split at hs
        all_goals
          cases hs
          try exact (List.append_nil _).symm
    rw [ih (fun hin => hno (List.mem_cons_of_mem _ hin)) hr, hm, List.flatMap_cons,
      List.append_assoc]

/-- The callbacks a run starts, and those it leaves, are those it finds and those it posts. -/
theorem eventFd_conserves {ls : List (EventFdStep τ κ)}
    (h : (eventFd τ κ).run s ls = some (t, os)) :
    os.flatten ++ (t.extracted ++ t.callbacks) =
      s.extracted ++ s.callbacks ++ ls.flatMap posted :=
  Machine.run_induct
    (P := fun ls os t => os.flatten ++ (t.extracted ++ t.callbacks) =
      s.extracted ++ s.callbacks ++ ls.flatMap posted) (List.append_nil _).symm
    (fun ls os m l m' o hq hs => by
      rw [List.flatten_append, List.flatMap_append, List.append_assoc, List.flatten_singleton,
        callbacks_step m l m' o hs, ← List.append_assoc, hq, List.flatMap_singleton,
        List.append_assoc]) h

/-- **`handleEvents` runs what was pushed before its swap, and nothing else.** Over any calls of
    `handleEvents`, from one state outside of it to another, with any steps of the posting threads
    and posts of the callbacks in between: the callbacks started are those in the list when the run
    began and those pushed before the last swap, in this order; what is pushed after it is left. -/
theorem handleEvents_runs_what_was_pushed {before after : List (EventFdStep τ κ)}
    (hidle : s.handle = .idle) (hafter : .atomicPopAll ∉ after)
    (h : (eventFd τ κ).run s (before ++ .atomicPopAll :: after) = some (t, os))
    (hreturned : t.handle = .idle) :
    os.flatten = s.callbacks ++ before.flatMap posted ∧ t.callbacks = after.flatMap posted := by
  have hall := eventFd_conserves h
  have hs : s.extracted = [] := by
    unfold EventFD.extracted
    rw [hidle]
  have ht : t.extracted = [] := by
    unfold EventFD.extracted
    rw [hreturned]
  -- the swap leaves the list empty
  obtain ⟨m, _, _, _, hswap, -⟩ := Machine.run_append_iff.mp h
  obtain ⟨u, o, _, hu, htail, -⟩ := Machine.run_cons_iff.mp hswap
  have hnil : u.callbacks = [] := by
    simp only [eventFd] at hu
    split at hu
    · cases hu
      rfl
    · cases hu
  have hleft := callbacks_of_no_swap hafter htail
  rw [hnil, List.nil_append] at hleft
  refine ⟨?_, hleft⟩
  have hposted : (before ++ EventFdStep.atomicPopAll :: after).flatMap posted =
      before.flatMap posted ++ after.flatMap posted := by
    rw [List.flatMap_append, List.flatMap_cons]
    rfl
  rw [hs, ht, hleft, hposted, List.nil_append, List.nil_append, ← List.append_assoc] at hall
  exact List.append_cancel_right hall

/-- Two callbacks are in the list; a third is pushed before the swap; the first one posts a fourth
    while it runs. -/
def repostRun : List (EventFdStep Bool Nat) × List (EventFdStep Bool Nat) :=
  ([.read, .post (some true) (some 3)],
    [.popAndExecuteFirstCallback, .post none (some 4), .write none, .callbackReturns,
      .popAndExecuteFirstCallback, .callbackReturns, .popAndExecuteFirstCallback,
      .callbackReturns, .leave])

theorem handleEvents_runs_three :
    ∃ (s t : EventFD Bool Nat) (os : List (List Nat)),
      (eventFd Bool Nat).run s (repostRun.1 ++ .atomicPopAll :: repostRun.2) = some (t, os) ∧
      os.flatten = [1, 2] ++ [3] ∧ t.callbacks = [4] := by
  let start : EventFD Bool Nat := ⟨[1, 2], 2, fun _ => false, .idle⟩
  have hsome : ((eventFd Bool Nat).run start
      (repostRun.1 ++ .atomicPopAll :: repostRun.2)).isSome := rfl
  obtain ⟨⟨t, os⟩, hrun⟩ := Option.isSome_iff_exists.mp hsome
  have hreturned : ((eventFd Bool Nat).run start
      (repostRun.1 ++ .atomicPopAll :: repostRun.2)).map (fun p => p.1.handle) =
        some .idle := rfl
  rw [hrun] at hreturned
  exact ⟨start, t, os, hrun, handleEvents_runs_what_was_pushed rfl (by decide) hrun
    (Option.some.inj hreturned)⟩

end

/-! ## 2. The queue and its loop -/

/-- A callback queue, and the loop it is on. -/
structure QueueLoop (τ κ ι : Type) where
  loop : LoopState ι
  queue : EventFD τ κ

inductive QueueLoopStep (τ κ : Type) where
  /-- A step of a posting thread, or of the loop's thread inside `handleEvents`. -/
  | queue (l : EventFdStep τ κ)
  /-- A call on the loop, by some other handler. -/
  | act (a : World.Act)
  | wait (records : List EpollEvent)
  /-- The wait is interrupted: EINTR. -/
  | waitFails
  | dispatch

/-- The loop's thread is between two records: not inside `handleEvents`, and not inside a post. -/
def QueueLoop.between (s : QueueLoop τ κ ι) : Prop :=
  s.queue.handle = .idle ∧ s.queue.posting none = false

instance QueueLoop.decidableBetween [DecidableEq κ] (s : QueueLoop τ κ ι) :
    Decidable s.between :=
  inferInstanceAs (Decidable (_ ∧ _))

/-- What epoll_wait(2) reports of an eventfd: a record says EPOLLIN, and there is one if the
    descriptor is watched for input and the counter is not zero. -/
def QueueLoop.reported (fd : Int) (s : QueueLoop τ κ ι) (records : List EpollEvent) : Prop :=
  (∀ r ∈ records, r.fd = fd → r.events = EPOLLIN) ∧
    (s.loop.world.kernel.interest.lookup fd = some Event.readEventFlag → 0 < s.queue.counter →
      ⟨fd, EPOLLIN⟩ ∈ records)

instance QueueLoop.decidableReported (fd : Int) (s : QueueLoop τ κ ι)
    (records : List EpollEvent) : Decidable (s.reported fd records) :=
  inferInstanceAs (Decidable (_ ∧ (_ → _ → _)))

section

variable [DecidableEq τ] [DecidableEq κ] [DecidableEq ι]

/-- A callback queue with the descriptor `fd`, the Event `e` and the read callback `handleEvents`,
    on its loop. The output is the callbacks started. -/
def queueLoop (τ κ : Type) [DecidableEq τ] [DecidableEq κ] (fd : Int) (e : EventId)
    (handleEvents : ι) : Machine (QueueLoop τ κ ι) (QueueLoopStep τ κ) (List κ) where
  step s
    | .queue l =>
      if l = .read then none
      else
        match (eventFd τ κ).step s.queue l with
        | none => none
        | some (queue, o) => some ({ s with queue := queue }, o)
    | .act a =>
      if a.onExisting s.loop.world ∧ a.spares s.loop.world fd e then
        some ({ s with loop := { s.loop with world := s.loop.world.act a } }, [])
      else none
    | .wait records =>
      if s.loop.pending = [] ∧ s.between ∧ s.reported fd records then
        some ({ s with loop := { s.loop with pending := records } }, [])
      else none
    | .waitFails => if s.loop.pending = [] ∧ s.between then some (s, []) else none
    | .dispatch =>
      match s.loop.pending with
      | [] => none
      | r :: rest =>
        if s.between then
          let (w, target) := s.loop.world.dispatch r
          if target = some e ∧ handleEvents ∈ (w.object e).handle r.events then
            -- `handleEvents` begins with the read of the eventfd
            match (eventFd τ κ).step s.queue .read with
            | none => none
            | some (queue, o) => some (⟨⟨w, rest⟩, queue⟩, o)
          else some ({ s with loop := ⟨w, rest⟩ }, [])
        else none

variable {fd : Int} {e : EventId} {handleEvents : ι} {s s' : QueueLoop τ κ ι}

/-- The loop watches the eventfd, its records say EPOLLIN, and a callback in the list will be
    noticed. -/
structure QueueLoop.Sound (fd : Int) (e : EventId) (handleEvents : ι) (s : QueueLoop τ κ ι) :
    Prop where
  keyed : s.loop.world.Keyed
  watches : s.loop.world.Watches fd e handleEvents
  input : ∀ r ∈ s.loop.pending, r.fd = fd → r.events = EPOLLIN
  awake : Awake s.queue

/-- The steps of the queue, and of the loop, that a step consists of. -/
def QueueLoopStep.posted : QueueLoopStep τ κ → List κ
  | .queue l => PluginsEngine.posted l
  | _ => []

/-- **What a dispatch does**: the record of the eventfd starts `handleEvents`, any other record
    leaves the queue alone; either way one record less is pending. -/
theorem queueLoop_dispatch {o : List κ} (h : s.Sound fd e handleEvents)
    (hs : (queueLoop τ κ fd e handleEvents).step s .dispatch = some (s', o)) :
    ∃ r rest, s.loop.pending = r :: rest ∧ s'.loop.pending = rest ∧ s.between ∧
      s'.loop.world = (s.loop.world.dispatch r).1 ∧
      if r.fd = fd then (eventFd τ κ).step s.queue .read = some (s'.queue, o)
      else s'.queue = s.queue ∧ o = [] := by
  simp only [queueLoop] at hs
  cases hp : s.loop.pending with
  | nil =>
    rw [hp] at hs
    cases hs
  | cons r rest =>
    rw [hp] at hs
    dsimp only at hs
    split at hs
    case isFalse => cases hs
    rename_i hbetween
    refine ⟨r, rest, rfl, ?_⟩
    have hinput : r.fd = fd → r.events = EPOLLIN := h.input r (by rw [hp]; exact .head _)
    rcases h.watches.dispatch_cases h.keyed hinput with ⟨hr, hdispatch, hhandle⟩ | ⟨hfd, hother⟩
    · rw [hdispatch] at hs ⊢
      dsimp only at hs
      rw [if_pos ⟨rfl, by rw [hhandle]; exact List.mem_singleton.mpr rfl⟩] at hs
      rw [if_pos (congrArg EpollEvent.fd hr)]
      split at hs
      · cases hs
      · rename_i queue o' hread
        cases hs
        exact ⟨rfl, hbetween, rfl, hread⟩
    · rw [if_neg fun hboth => hother hboth.1] at hs
      cases hs
      rw [if_neg hfd]
      exact ⟨rfl, hbetween, rfl, rfl, rfl⟩

/-- **Every step keeps the invariant**, and passes the callbacks on in order. -/
theorem queueLoop_step {l : QueueLoopStep τ κ} {o : List κ} (h : s.Sound fd e handleEvents)
    (hs : (queueLoop τ κ fd e handleEvents).step s l = some (s', o)) :
    s'.Sound fd e handleEvents ∧
      o ++ (s'.queue.extracted ++ s'.queue.callbacks) =
        s.queue.extracted ++ s.queue.callbacks ++ l.posted := by
  cases l with
  | queue l =>
    simp only [queueLoop] at hs
    split at hs
    · cases hs
    · split at hs
      · cases hs
      · rename_i queue o' hstep
        cases hs
        exact ⟨⟨h.keyed, h.watches, h.input, awake_step _ _ _ _ h.awake hstep⟩,
          callbacks_step _ _ _ _ hstep⟩
  | act a =>
    simp only [queueLoop] at hs
    split at hs
    case isFalse => cases hs
    rename_i hok
    cases hs
    exact ⟨⟨h.keyed.act hok.1, h.watches.act h.keyed hok.2, h.input, h.awake⟩,
      (List.append_nil _).symm⟩
  | wait records =>
    simp only [queueLoop] at hs
    split at hs
    case isFalse => cases hs
    rename_i hok
    cases hs
    exact ⟨⟨h.keyed, h.watches, hok.2.2.1, h.awake⟩, (List.append_nil _).symm⟩
  | waitFails =>
    simp only [queueLoop] at hs
    split at hs
    case isFalse => cases hs
    cases hs
    exact ⟨h, (List.append_nil _).symm⟩
  | dispatch =>
    obtain ⟨r, rest, hp, hp', -, hw, hq⟩ := queueLoop_dispatch h hs
    have hkeyed : s'.loop.world.Keyed := by
      rw [hw]
      exact h.keyed.dispatch r
    have hwatches : s'.loop.world.Watches fd e handleEvents := by
      rw [hw]
      exact h.watches.dispatch h.keyed r
    have hinput : ∀ r' ∈ s'.loop.pending, r'.fd = fd → r'.events = EPOLLIN := by
      intro r' hr'
      refine h.input r' ?_
      rw [hp]
      rw [hp'] at hr'
      exact List.mem_cons_of_mem _ hr'
    split at hq
    · exact ⟨⟨hkeyed, hwatches, hinput, awake_step _ _ _ _ h.awake hq⟩,
        callbacks_step _ _ _ _ hq⟩
    · obtain ⟨hsame, rfl⟩ := hq
      refine ⟨⟨hkeyed, hwatches, hinput, ?_⟩, ?_⟩
      · rw [hsame]
        exact h.awake
      · rw [hsame]
        exact (List.append_nil _).symm

/-! ## 3. One turn of the loop -/

/-- **What is still to come of `n` callbacks** that were in the list when the loop waited, `started`
    having been started since: the wait has `reported` them, or `handleEvents` is about to take the
    list, or those that are not started are extracted. -/
def EventFD.Due (n started : Nat) (reported : Prop) (q : EventFD τ κ) : Prop :=
  (reported ∧ q.extracted = [] ∧ n ≤ started + q.callbacks.length) ∨
    (q.handle = .afterRead ∧ n ≤ started + q.callbacks.length) ∨
    n ≤ started + q.extracted.length

namespace EventFD.Due

variable {q q' : EventFD τ κ} {n started : Nat} {reported : Prop} {o : List κ}

omit [DecidableEq τ] [DecidableEq κ] in
theorem extracted_of_executing {rest : List κ} {running : Bool}
    (h : q.handle = .executing rest running) : q.extracted = rest := by
  unfold EventFD.extracted
  rw [h]

omit [DecidableEq τ] [DecidableEq κ] in
/-- A step that leaves the extracted callbacks alone, and takes none from the list. -/
theorem keep (h : q.Due n started reported) (he : q'.extracted = q.extracted)
    (hc : q.callbacks.length ≤ q'.callbacks.length)
    (hh : q.handle = .afterRead → q'.handle = .afterRead) : q'.Due n started reported := by
  rcases h with ⟨hrep, hnil, hle⟩ | ⟨hread, hle⟩ | hle
  · exact Or.inl ⟨hrep, he.trans hnil, by omega⟩
  · exact Or.inr (Or.inl ⟨hh hread, by omega⟩)
  · exact Or.inr (Or.inr (by rw [he]; exact hle))

omit [DecidableEq κ] in
/-- **A step of the queue**, but for the read of the eventfd. -/
theorem step (h : q.Due n started reported) {l : EventFdStep τ κ} (hl : l ≠ .read)
    (hs : (eventFd τ κ).step q l = some (q', o)) : q'.Due n (started + o.length) reported := by
  cases l with
  | post thread callback =>
    simp only [eventFd] at hs
    split at hs
    · cases callback with
      | none =>
        cases hs
        exact h
      | some callback =>
        cases hs
        exact h.keep rfl (by simp only [List.length_append]; omega) id
    · cases hs
  | write thread =>
    simp only [eventFd] at hs
    split at hs
    · cases hs
      exact h.keep rfl (Nat.le_refl _) id
    · cases hs
  | read => exact absurd rfl hl
  | atomicPopAll =>
    -- what was in the list is extracted now
    simp only [eventFd] at hs
    split at hs
    · rename_i hpc
      cases hs
      have hnil : q.extracted = [] := by
        unfold EventFD.extracted
        rw [hpc]
      rcases h with ⟨-, -, hle⟩ | ⟨-, hle⟩ | hle
      · exact Or.inr (Or.inr hle)
      · exact Or.inr (Or.inr hle)
      · rw [hnil] at hle
        exact Or.inr (Or.inr (Nat.le_trans hle (Nat.le_add_right _ _)))
    · cases hs
  | popAndExecuteFirstCallback =>
    simp only [eventFd] at hs
    split at hs
    · rename_i callback rest hpc
      cases hs
      have hext := extracted_of_executing hpc
      rcases h with ⟨-, hnil, -⟩ | ⟨hread, -⟩ | hle
      · rw [hext] at hnil
        cases hnil
      · rw [hpc] at hread
        cases hread
      · rw [hext, List.length_cons] at hle
        refine Or.inr (Or.inr ?_)
        show n ≤ started + 1 + rest.length
        omega
    · cases hs
  | callbackReturns =>
    simp only [eventFd] at hs
    split at hs
    · rename_i hpc _
      cases hs
      refine h.keep (extracted_of_executing hpc).symm (Nat.le_refl _) fun hread => ?_
      rw [hpc] at hread
      cases hread
    · cases hs
  | leave =>
    simp only [eventFd] at hs
    split at hs
    · rename_i hpc
      cases hs
      refine h.keep (extracted_of_executing hpc).symm (Nat.le_refl _) fun hread => ?_
      rw [hpc] at hread
      cases hread
    · cases hs

omit [DecidableEq κ] in
/-- The read of the eventfd, which the record of the eventfd leads to. -/
theorem read (h : q.Due n started reported) (hs : (eventFd τ κ).step q .read = some (q', o))
    (later : Prop) : q'.Due n (started + o.length) later := by
  simp only [eventFd] at hs
  split at hs
  · rename_i hpc _
    cases hs
    have hnil : q.extracted = [] := by
      unfold EventFD.extracted
      rw [hpc]
    rcases h with ⟨-, -, hle⟩ | ⟨hread, -⟩ | hle
    · exact Or.inr (Or.inl ⟨rfl, hle⟩)
    · rw [hpc] at hread
      cases hread
    · rw [hnil] at hle
      exact Or.inr (Or.inr (Nat.le_trans hle (Nat.le_add_right _ _)))
  · cases hs

end EventFD.Due

/-- The record of the eventfd is among those to be dispatched. -/
def QueueLoop.pendingRecord (fd : Int) (s : QueueLoop τ κ ι) : Prop :=
  ⟨fd, EPOLLIN⟩ ∈ s.loop.pending

/-- A step other than a wait. -/
def QueueLoopStep.isWait : QueueLoopStep τ κ → Bool
  | .wait _ | .waitFails => true
  | .queue _ | .act _ | .dispatch => false

theorem due_step {l : QueueLoopStep τ κ} {o : List κ} {n started : Nat}
    (h : s.Sound fd e handleEvents) (hd : s.queue.Due n started (s.pendingRecord fd))
    (hl : l.isWait = false) (hs : (queueLoop τ κ fd e handleEvents).step s l = some (s', o)) :
    s'.queue.Due n (started + o.length) (s'.pendingRecord fd) := by
  cases l with
  | wait records | waitFails => cases hl
  | queue l =>
    simp only [queueLoop] at hs
    split at hs
    · cases hs
    · rename_i hnot
      split at hs
      · cases hs
      · rename_i queue o' hstep
        cases hs
        exact hd.step hnot hstep
  | act a =>
    simp only [queueLoop] at hs
    split at hs
    case isFalse => cases hs
    cases hs
    exact hd
  | dispatch =>
    obtain ⟨r, rest, hp, hp', -, -, hq⟩ := queueLoop_dispatch h hs
    split at hq
    · exact hd.read hq _
    · rename_i hfd
      obtain ⟨hsame, rfl⟩ := hq
      rw [hsame]
      refine hd.imp_left fun hrep => ⟨?_, hrep.2⟩
      -- the record that was dispatched is another one
      have hmem : ⟨fd, EPOLLIN⟩ ∈ r :: rest := hp ▸ hrep.1
      unfold QueueLoop.pendingRecord
      rw [hp']
      rcases List.mem_cons.mp hmem with heq | hin
      · exact absurd (congrArg EpollEvent.fd heq).symm hfd
      · exact hin

/-- A run without a wait. -/
theorem due_run {ls : List (QueueLoopStep τ κ)} {t : QueueLoop τ κ ι} {os : List (List κ)}
    {n : Nat} (h : s.Sound fd e handleEvents) (hd : s.queue.Due n 0 (s.pendingRecord fd))
    (hls : ∀ l ∈ ls, l.isWait = false)
    (hr : (queueLoop τ κ fd e handleEvents).run s ls = some (t, os)) :
    t.Sound fd e handleEvents ∧ t.queue.Due n os.flatten.length (t.pendingRecord fd) ∧
      os.flatten ++ (t.queue.extracted ++ t.queue.callbacks) =
        s.queue.extracted ++ s.queue.callbacks ++ ls.flatMap QueueLoopStep.posted := by
  refine Machine.run_induct (P := fun ls os t => (∀ l ∈ ls, l.isWait = false) →
    t.Sound fd e handleEvents ∧ t.queue.Due n os.flatten.length (t.pendingRecord fd) ∧
      os.flatten ++ (t.queue.extracted ++ t.queue.callbacks) =
        s.queue.extracted ++ s.queue.callbacks ++ ls.flatMap QueueLoopStep.posted) ?_ ?_ hr hls
  · exact fun _ => ⟨h, hd, (List.append_nil _).symm⟩
  · intro ls os m l m' o hI hs hls'
    obtain ⟨hm, hdm, hcm⟩ := hI fun l' hin => hls' l' (List.mem_append_left _ hin)
    obtain ⟨hm', hc⟩ := queueLoop_step hm hs
    refine ⟨hm', ?_, ?_⟩
    · rw [List.flatten_append, List.flatten_singleton, List.length_append]
      exact due_step hm hdm (hls' l (List.mem_append_right _ List.mem_cons_self)) hs
    · rw [List.flatten_append, List.flatten_singleton, List.append_assoc, hc, ← List.append_assoc,
        hcm, List.flatMap_append, List.flatMap_singleton, List.append_assoc]

/-! ## 4. Runs -/

/-- A queue just constructed on a loop. -/
def QueueLoop.initial (τ κ : Type) (w : World ι) (fd : Int) (handleEvents : ι) :
    QueueLoop τ κ ι :=
  ⟨⟨(EventFD.construct w fd handleEvents).2, []⟩, EventFD.initial⟩

omit [DecidableEq τ] [DecidableEq κ] [DecidableEq ι] in
theorem sound_initial_queue {w : World ι} (hk : w.Keyed) (hpool : fd ∉ w.eventPool)
    (ha : w.kernel.accepts fd) :
    (QueueLoop.initial τ κ w fd handleEvents).Sound fd w.next handleEvents := by
  have hadded := w.addReaderLate_added fd handleEvents hpool ha.2.1
  refine ⟨?_, hadded.watches ha, fun r hr => absurd hr List.not_mem_nil,
    fun hne => absurd rfl hne⟩
  -- the constructor is three calls, and the setting of a callback
  have hnew : (w.newEvent fd).2.Keyed := hk.act (a := .newEvent fd) trivial
  have hadd : ((w.newEvent fd).2.addEvent w.next).Keyed :=
    hnew.act (a := .addEvent w.next) (Nat.lt_succ_self _)
  have henabled : (((w.newEvent fd).2.addEvent w.next).enableReading w.next true).Keyed :=
    hadd.act (a := .enableReading w.next true) (Nat.lt_succ_self _)
  exact henabled.setObject w.next
    (f := fun event => { event with readCallback := some handleEvents }) rfl

/-- Where the loop waits, no record is pending, and it is outside of `handleEvents`. -/
theorem idle_of_isWait {l : QueueLoopStep τ κ} {o : List κ} (hl : l.isWait = true)
    (hs : (queueLoop τ κ fd e handleEvents).step s l = some (s', o)) :
    s.loop.pending = [] ∧ s.between ∧ s.queue.extracted = [] := by
  have hidle : s.loop.pending = [] ∧ s.between := by
    cases l with
    | queue l | act a | dispatch => cases hl
    | wait records =>
      simp only [queueLoop] at hs
      split at hs
      case isFalse => cases hs
      rename_i hok
      exact ⟨hok.1, hok.2.1⟩
    | waitFails =>
      simp only [queueLoop] at hs
      split at hs
      case isFalse => cases hs
      rename_i hok
      exact hok
  refine ⟨hidle.1, hidle.2, ?_⟩
  unfold EventFD.extracted
  rw [hidle.2.1]

/-- **A wait finds the record of the eventfd**, if a callback is in the list and no thread is
    between its push and its write. -/
theorem wait_finds {records : List EpollEvent} {o : List κ} (h : s.Sound fd e handleEvents)
    (hposted : ∀ thread, s.queue.posting thread = false)
    (hs : (queueLoop τ κ fd e handleEvents).step s (.wait records) = some (s', o))
    (hne : s.queue.callbacks ≠ []) : ⟨fd, EPOLLIN⟩ ∈ records := by
  obtain ⟨-, hbetween, -⟩ := idle_of_isWait rfl hs
  simp only [queueLoop] at hs
  split at hs
  case isFalse => cases hs
  rename_i hok
  rcases h.awake hne with hcounter | ⟨thread, hp⟩ | hread
  · exact hok.2.2.2 h.watches.interest hcounter
  · rw [hposted thread] at hp
    cases hp
  · rw [hbetween.1] at hread
    cases hread

/-- What the wait leaves: its records are pending, and with them all that was in the list is due. -/
theorem wait_due {records : List EpollEvent} {o : List κ} (h : s.Sound fd e handleEvents)
    (hposted : ∀ thread, s.queue.posting thread = false)
    (hs : (queueLoop τ κ fd e handleEvents).step s (.wait records) = some (s', o)) :
    s'.queue = s.queue ∧
      s'.queue.Due s.queue.callbacks.length 0 (s'.pendingRecord fd) := by
  have hrecord := wait_finds h hposted hs
  obtain ⟨-, -, hidle⟩ := idle_of_isWait rfl hs
  simp only [queueLoop] at hs
  split at hs
  case isFalse => cases hs
  cases hs
  refine ⟨rfl, ?_⟩
  by_cases hne : s.queue.callbacks = []
  · exact Or.inr (Or.inr (by rw [hne]; exact Nat.zero_le _))
  · exact Or.inl ⟨hrecord hne, hidle, Nat.le_add_left _ _⟩

/-- What a wait and the turn behind it do to the callbacks posted before. -/
structure ServedInTurn (fd : Int) (s : QueueLoop τ κ ι) (records : List EpollEvent)
    (started : List κ) : Prop where
  reported : s.queue.callbacks ≠ [] → ⟨fd, EPOLLIN⟩ ∈ records
  started : s.queue.callbacks <+: started

/-- **What is posted is run in one turn.** A callback queue is constructed on a loop, the kernel
    accepts its eventfd, and the registry has no entry left under its number. In every interleaving
    of the posting threads with the loop's thread, whatever else its handlers do to the loop, as
    long as they spare the eventfd and its Event: where a wait ends and no thread is between its
    push and its write, the callbacks in the list are reported by that wait, and until the loop
    waits again they are all started, in the order of their pushes and before any other. -/
theorem run_in_one_turn {w : World ι} (hk : w.Keyed) (hpool : fd ∉ w.eventPool)
    (ha : w.kernel.accepts fd) {ls turn : List (QueueLoopStep τ κ)} {records : List EpollEvent}
    {next : QueueLoopStep τ κ} {s t u : QueueLoop τ κ ι} {os os' : List (List κ)}
    {first o : List κ} (hposted : ∀ thread, s.queue.posting thread = false)
    (hnext : next.isWait = true) (hturn : ∀ l ∈ turn, l.isWait = false)
    (h : (queueLoop τ κ fd w.next handleEvents).run (.initial τ κ w fd handleEvents) ls =
      some (s, os))
    (h' : (queueLoop τ κ fd w.next handleEvents).run s (.wait records :: turn) =
      some (t, first :: os'))
    (hagain : (queueLoop τ κ fd w.next handleEvents).step t next = some (u, o)) :
    ServedInTurn fd s records os'.flatten := by
  have hsound : s.Sound fd w.next handleEvents :=
    Machine.run_invariant (I := QueueLoop.Sound fd w.next handleEvents)
      (fun _ _ _ _ hI hs => (queueLoop_step hI hs).1) (sound_initial_queue hk hpool ha) h
  obtain ⟨m, _, _, hwait, hrest, heq⟩ := Machine.run_cons_iff.mp h'
  cases heq
  obtain ⟨hqueue, hdue⟩ := wait_due hsound hposted hwait
  obtain ⟨-, -, hidle⟩ := idle_of_isWait rfl hwait
  obtain ⟨ht, hdt, hct⟩ := due_run (queueLoop_step hsound hwait).1 hdue hturn hrest
  refine ⟨wait_finds hsound hposted hwait, ?_⟩
  -- the loop waits again: nothing is pending, and it is outside of `handleEvents`
  obtain ⟨hpending, hbetween, hnone⟩ := idle_of_isWait hnext hagain
  have hlen : s.queue.callbacks.length ≤ os'.flatten.length := by
    rcases hdt with ⟨hin, -⟩ | ⟨hread, -⟩ | hle
    · rw [QueueLoop.pendingRecord, hpending] at hin
      cases hin
    · rw [hbetween.1] at hread
      cases hread
    · rw [hnone] at hle
      exact hle
  have hall : os'.flatten ++ (t.queue.extracted ++ t.queue.callbacks) =
      s.queue.callbacks ++ turn.flatMap QueueLoopStep.posted := by
    rw [hct, hqueue, hidle, List.nil_append]
  exact List.prefix_of_prefix_length_le ⟨_, rfl⟩ ⟨_, hall⟩ hlen

/-- The loop of the examples: descriptor 5 is open, and nothing is registered. -/
abbrev exampleLoop : World Bool :=
  .initial ((∅ : Finmap fun _ : Int => FileKind).insert 5 .pollable) 8

/-- A thread posts a callback; and the turn in which it runs, and posts another one. -/
def postedBefore : List (QueueLoopStep Bool Nat) :=
  [.queue (.post (some true) (some 1)), .queue (.write (some true))]

def exampleTurn : List (QueueLoopStep Bool Nat) :=
  [.dispatch, .queue .atomicPopAll, .queue .popAndExecuteFirstCallback,
    .queue (.post none (some 2)), .queue (.write none), .queue .callbackReturns, .queue .leave]

theorem run_in_one_turn_example : ∃ s t u first os os' o,
    (queueLoop Bool Nat 5 0 true).run (.initial Bool Nat exampleLoop 5 true) postedBefore =
      some (s, os) ∧
    (queueLoop Bool Nat 5 0 true).run s (.wait [⟨5, EPOLLIN⟩] :: exampleTurn) =
      some (t, first :: os') ∧
    (queueLoop Bool Nat 5 0 true).step t (.wait [⟨5, EPOLLIN⟩]) = some (u, o) ∧
    s.queue.callbacks = [1] ∧ ServedInTurn 5 s [⟨5, EPOLLIN⟩] os'.flatten := by
  let start := QueueLoop.initial Bool Nat exampleLoop 5 true
  have hsome : ((queueLoop Bool Nat 5 0 true).run start (postedBefore ++
      (.wait [⟨5, EPOLLIN⟩] :: exampleTurn ++ [.wait [⟨5, EPOLLIN⟩]]))).isSome := by
    decide +kernel
  obtain ⟨⟨u, all⟩, hrun⟩ := Option.isSome_iff_exists.mp hsome
  obtain ⟨s, os, _, h, hrest, -⟩ := Machine.run_append_iff.mp hrun
  obtain ⟨t, os₁, os₂, h', hlast, -⟩ := Machine.run_append_iff.mp hrest
  obtain ⟨_, o, _, hagain, hnil, -⟩ := Machine.run_cons_iff.mp hlast
  cases hnil
  obtain ⟨_, first, os', hwait, hturn, rfl⟩ := Machine.run_cons_iff.mp h'
  have hseen : ((queueLoop Bool Nat 5 0 true).run start postedBefore).map
      (fun p => (p.1.queue.callbacks, p.1.queue.posting none, p.1.queue.posting (some true),
        p.1.queue.posting (some false))) = some ([1], false, false, false) := by
    decide +kernel
  rw [h] at hseen
  obtain ⟨hcallbacks, hposting⟩ := Prod.mk.inj (Option.some.inj hseen)
  obtain ⟨hnone, hboth⟩ := Prod.mk.inj hposting
  obtain ⟨htrue, hfalse⟩ := Prod.mk.inj hboth
  have hposted : ∀ thread, s.queue.posting thread = false := by
    intro thread
    cases thread with
    | none => exact hnone
    | some b =>
      cases b with
      | true => exact htrue
      | false => exact hfalse
  exact ⟨s, t, u, first, os, os', o, h, h', hagain, hcallbacks,
    run_in_one_turn (World.Keyed.initial _ _) (by decide) (by decide) hposted rfl (by decide) h h'
      hagain⟩

end

end PluginsEngine
