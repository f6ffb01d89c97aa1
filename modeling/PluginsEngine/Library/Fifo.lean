/-
  File:      PluginsEngine/Library/Fifo.lean
  Subject:   FIFO QUEUES AND WINDOWS OF A LIST. Names nothing of the repository.

  A queue kept in a resizable array between two indices is a WINDOW of a list: the elements from
  index `i` up to index `j`. This file gives the window and the two ways an array changes under
  it, and the abstract queues such an array is to behave as.

  * `window`, `overwrite`, `resize` -- the elements `i..j`; copying elements over a place; the
    array made `n` long;
  * `window_resize`, `window_overwrite_append`, `drop_window`, `take_window` -- growing keeps the
    window, writing behind it appends, reading its front is `take` and `drop`;
  * `QueueOp`, `queueStep`, `queues` -- a family of FIFO queues as a machine: push at the back,
    pop or drop at the front, clear, exchange two queues;
  * `run_conserve` -- a machine each of whose steps passes a queue on without loss does so over
    whole runs.
-/
import PluginsEngine.Library.Runs
import Mathlib.Logic.Function.Basic

namespace PluginsEngine.Library

variable {α : Type}

/-! ## 1. Windows of a list -/

/-- The elements of `l` from index `i` up to, not including, index `j`. -/
def window (l : List α) (i j : Nat) : List α := (l.drop i).take (j - i)

/-- `d` copied over `l` from index `i` on. The list does not grow: what there is no place for is
    not copied. -/
def overwrite (l : List α) (i : Nat) (d : List α) : List α :=
  (l.take i ++ d ++ l.drop (i + d.length)).take l.length

/-- `l` made `n` long: cut off, or filled up with `x`. -/
def resize (l : List α) (n : Nat) (x : α) : List α :=
  l.take n ++ List.replicate (n - l.length) x

@[simp] theorem window_self (l : List α) (i : Nat) : window l i i = [] := by
  simp [window]

theorem length_window {l : List α} {i j : Nat} (hj : j ≤ l.length) :
    (window l i j).length = j - i := by
  simp only [window, List.length_take, List.length_drop]
  omega

@[simp] theorem length_resize (l : List α) (n : Nat) (x : α) : (resize l n x).length = n := by
  simp only [resize, List.length_append, List.length_take, List.length_replicate]
  omega

@[simp] theorem length_overwrite (l : List α) (i : Nat) (d : List α) :
    (overwrite l i d).length = l.length := by
  simp only [overwrite, List.length_append, List.length_take, List.length_drop]
  omega

/-- Growing the list keeps every window. -/
theorem window_resize {l : List α} {i j n : Nat} (x : α) (hj : j ≤ l.length) (hn : j ≤ n) :
    window (resize l n x) i j = window l i j := by
  have htake : (resize l n x).take j = l.take j := by
    rw [resize, List.take_append_of_le_length (by rw [List.length_take]; omega), List.take_take,
      Nat.min_eq_left hn]
  simp only [window, ← List.drop_take, htake]

/-- **Writing right behind a window appends to it.** -/
theorem window_overwrite_append {l d : List α} {i j : Nat} (hij : i ≤ j)
    (h : j + d.length ≤ l.length) :
    window (overwrite l j d) i (j + d.length) = window l i j ++ d := by
  have hlen : (l.take j).length = j := by rw [List.length_take]; omega
  have htake : (overwrite l j d).take (j + d.length) = l.take j ++ d := by
    have e : (l.take j ++ d).length = j + d.length := by rw [List.length_append, hlen]
    rw [overwrite, List.take_take, Nat.min_eq_left h, ← e, List.take_left]
  simp only [window, ← List.drop_take, htake]
  exact List.drop_append_of_le_length (by omega)

theorem drop_window (l : List α) (i j k : Nat) : (window l i j).drop k = window l (i + k) j := by
  simp only [window, List.drop_take, List.drop_drop, Nat.sub_sub]

theorem take_window {l : List α} {i j k : Nat} (h : i + k ≤ j) :
    (window l i j).take k = window l i (i + k) := by
  simp only [window, List.take_take]
  congr 1
  omega

/-! ## 2. Queues -/

/-- What can be done to a family of queues indexed by `ι`. -/
inductive QueueOp (ι α : Type) where
  | push (i : ι) (xs : List α)
  | pop (i : ι) (n : Nat)
  | drop (i : ι) (n : Nat)
  | clear (i : ι)
  | swap (i j : ι)

variable {ι : Type} [DecidableEq ι]

/-- One operation on the queues and the elements it returns. `pop` and `drop` take at most what
    is there. -/
def queueStep (q : ι → List α) : QueueOp ι α → (ι → List α) × List α
  | .push i xs => (Function.update q i (q i ++ xs), [])
  | .pop i n => (Function.update q i ((q i).drop n), (q i).take n)
  | .drop i n => (Function.update q i ((q i).drop n), [])
  | .clear i => (Function.update q i [], [])
  | .swap i j => (Function.update (Function.update q i (q j)) j (q i), [])

/-- A family of FIFO queues as a machine; every operation is allowed. -/
def queues (ι α : Type) [DecidableEq ι] : Machine (ι → List α) (QueueOp ι α) (List α) where
  step q op := some (queueStep q op)

/-! ## 3. Machines that keep what they are given -/

/-- **Conservation**: where every step hands out, and leaves in the queue `q`, what was in the queue
    and what the step was given, a run does. -/
theorem run_conserve {σ ℓ ω : Type} {M : Machine σ ℓ ω} {I : σ → Prop} {q : σ → List α}
    {given : ℓ → ω → List α} {handed : ω → List α}
    (hstep : ∀ s l s' o, I s → M.step s l = some (s', o) →
      I s' ∧ handed o ++ q s' = q s ++ given l o)
    {ls : List ℓ} {s t : σ} {os : List ω} (hI : I s) (h : M.run s ls = some (t, os)) :
    os.flatMap handed ++ q t = q s ++ (List.zipWith given ls os).flatten := by
  induction ls generalizing s os with
  | nil =>
    cases h
    exact (List.append_nil _).symm
  | cons l ls ih =>
    obtain ⟨s', o, os', hs, hr, rfl⟩ := Machine.run_cons_iff.mp h
    obtain ⟨hI', hq⟩ := hstep s l s' o hI hs
    have hrest := ih hI' hr
    calc (o :: os').flatMap handed ++ q t
        = handed o ++ (os'.flatMap handed ++ q t) := by
          rw [List.flatMap_cons, List.append_assoc]
      _ = (handed o ++ q s') ++ (List.zipWith given ls os').flatten := by
          rw [hrest, List.append_assoc]
      _ = q s ++ (List.zipWith given (l :: ls) (o :: os')).flatten := by
          rw [hq, List.zipWith_cons_cons, List.flatten_cons, List.append_assoc]

end PluginsEngine.Library
