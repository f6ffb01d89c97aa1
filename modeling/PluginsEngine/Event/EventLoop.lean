/-
  File:      PluginsEngine/Event/EventLoop.lean
  Subject:   AN EVENT LOOP AS A MACHINE.

  The labels are the calls on the loop and its Events, `wait` (one epoll_wait returned these
  records) and `dispatch` (the loop body of `waitAndRunHandler` for the next record). What a
  handler does is the calls between one `dispatch` and the next, so every behaviour of every
  handler is a run. Which calls are made is bounded by `allowed`, which each theory sets to what
  its callers keep to. The records are arbitrary: nothing rests on what the kernel reports.

  * `waitAndRunHandler_run` -- the run of one batch is `waitAndRunHandler` on it.
-/
import Mathlib.Data.List.ReduceOption
import PluginsEngine.Event.EventCtrl
import PluginsEngine.Library.Runs

namespace PluginsEngine

open Library

variable {κ : Type}

/-- A loop and the records of the current batch that are still to be dispatched. -/
structure LoopState (κ : Type) where
  world : World κ
  pending : List EpollEvent

inductive LoopLabel where
  | act (a : World.Act)
  | wait (records : List EpollEvent)
  | dispatch
  deriving DecidableEq, Repr

/-- The call is on an Event that has been constructed. -/
def World.Act.onExisting (w : World κ) : World.Act → Prop
  | .addEvent e | .deleteEvent e | .enableReading e _ | .enableWriting e _
  | .enableErrorEvent e _ | .disableAll e | .removeFromLoop e => e < w.next
  | .openFile _ _ | .closeFile _ | .newEvent _ | .deleteEventFd _ | .modifyEventFd _ => True

instance World.Act.decidableOnExisting (w : World κ) (a : World.Act) :
    Decidable (a.onExisting w) := by
  cases a <;> unfold World.Act.onExisting <;> infer_instance

section

variable (allowed : World κ → World.Act → Prop) [∀ w a, Decidable (allowed w a)]

/-- An event loop. The output of `dispatch` is the object that got the record. -/
def eventLoop : Machine (LoopState κ) LoopLabel (Option EventId) where
  step s
    | .act a => if allowed s.world a then some ({ s with world := s.world.act a }, none) else none
    | .wait records => some ({ s with pending := records }, none)
    | .dispatch =>
      match s.pending with
      | [] => none
      | r :: rest => some (⟨(s.world.dispatch r).1, rest⟩, (s.world.dispatch r).2)

/-- The labels of one batch: each record's dispatch, then the calls of the callbacks it ran. -/
def batchLabels (w : World κ) : List (EpollEvent × List World.Act) → List LoopLabel
  | [] => []
  | (r, callbackActs) :: rest =>
    match w.dispatch r with
    | (w', none) => .dispatch :: batchLabels w' rest
    | (w', some _) =>
      .dispatch :: (callbackActs.map .act ++ batchLabels (w'.acts callbackActs) rest)

variable {allowed}

theorem run_acts {as : List World.Act} {s t : LoopState κ} {os : List (Option EventId)}
    (h : (eventLoop allowed).run s (as.map .act) = some (t, os)) :
    t = ⟨s.world.acts as, s.pending⟩ ∧ os.reduceOption = [] := by
  induction as generalizing s os with
  | nil =>
    cases h
    exact ⟨rfl, rfl⟩
  | cons a as ih =>
    rw [List.map_cons] at h
    obtain ⟨s', o, os', hs, hr, rfl⟩ := Machine.run_cons_iff.mp h
    simp only [eventLoop] at hs
    split at hs
    · cases hs
      exact ih hr
    · cases hs

/-- **The run of a batch is `waitAndRunHandler`**: it ends in the same loop, with nothing pending,
    and its outputs are the deliveries of the log. -/
theorem waitAndRunHandler_run {batch : List (EpollEvent × List World.Act)} {w : World κ}
    {t : LoopState κ} {os : List (Option EventId)}
    (h : (eventLoop allowed).run ⟨w, batch.map Prod.fst⟩ (batchLabels w batch) = some (t, os)) :
    t = ⟨(w.waitAndRunHandler batch).1, []⟩ ∧
      os.reduceOption = ((w.waitAndRunHandler batch).2.map Prod.snd).reduceOption := by
  induction batch generalizing w os with
  | nil =>
    cases h
    exact ⟨rfl, rfl⟩
  | cons entry rest ih =>
    obtain ⟨r, callbackActs⟩ := entry
    -- the loop body: who gets the record decides whether any callback runs
    cases hd : w.dispatch r with
    | mk w' target =>
      cases target with
      | none =>
        simp only [batchLabels, hd, List.map_cons] at h
        obtain ⟨s', o, os', hs, hr, rfl⟩ := Machine.run_cons_iff.mp h
        simp only [eventLoop, hd] at hs
        cases hs
        obtain ⟨ht, hos⟩ := ih hr
        simp only [World.waitAndRunHandler, hd]
        exact ⟨ht, hos⟩
      | some e =>
        simp only [batchLabels, hd, List.map_cons] at h
        obtain ⟨s', o, os', hs, hr, rfl⟩ := Machine.run_cons_iff.mp h
        simp only [eventLoop, hd] at hs
        cases hs
        obtain ⟨m, os₁, os₂, h₁, h₂, rfl⟩ := Machine.run_append_iff.mp hr
        obtain ⟨rfl, hos₁⟩ := run_acts h₁
        obtain ⟨ht, hos⟩ := ih h₂
        simp only [World.waitAndRunHandler, hd]
        refine ⟨ht, ?_⟩
        rw [List.map_cons, List.reduceOption_cons_of_some, List.reduceOption_cons_of_some,
          List.reduceOption_append, hos₁, hos, List.nil_append]

end

end PluginsEngine
