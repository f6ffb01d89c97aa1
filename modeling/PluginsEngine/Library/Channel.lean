/-
  File:      PluginsEngine/Library/Channel.lean
  Subject:   TWO MACHINES JOINED BY CHANNELS. Names nothing of the repository.

  A `Port` is a machine that reads elements from one stream and writes elements to another. Two
  ports are joined by a FIFO channel in each direction: what a step of one of them writes enters
  a channel at its end, and a step of the other one may read only what stands at its front. The
  two take their steps in any order.

  * `Port`, `attached`, `attached_iff` -- a port at its end of a connection, and its steps;
  * `Joined`, `Port.join` -- the joined machine;
  * `halves` -- each half of a joined run is a run of its port, so an invariant of the port holds
    there; and neither channel loses, repeats or reorders anything.
-/
import PluginsEngine.Library.Runs

namespace PluginsEngine.Library

/-- A machine that reads and writes elements of `α`. What a step reads is part of its label, what
    it writes part of its output. -/
structure Port (σ ℓ ω α : Type) where
  machine : Machine σ ℓ ω
  reads : ℓ → List α
  writes : ω → List α

/-- One end of a connection: a port, what is still to be read by it and what it has written. -/
structure End (σ α : Type) where
  state : σ
  incoming : List α
  outgoing : List α

/-- Two ports and what is under way between them. -/
structure Joined (σ τ α : Type) where
  left : σ
  right : τ
  toRight : List α
  toLeft : List α

namespace Port

variable {σ τ ℓ κ ω υ α : Type} [DecidableEq α]

/-! ## 1. Steps -/

/-- A step of a port at its end: what it reads must stand at the front of what is incoming. -/
def attached (P : Port σ ℓ ω α) : Machine (End σ α) ℓ ω where
  step s l :=
    if P.reads l <+: s.incoming then
      match P.machine.step s.state l with
      | none => none
      | some (state, o) =>
        some (⟨state, s.incoming.drop (P.reads l).length, s.outgoing ++ P.writes o⟩, o)
    else none

/-- **A step at an end** is a step of the port; what it reads leaves the front of what is incoming,
    and what it writes is appended to what is outgoing. -/
theorem attached_iff {P : Port σ ℓ ω α} {s t : End σ α} {l : ℓ} {o : ω} :
    P.attached.step s l = some (t, o) ↔
      P.machine.step s.state l = some (t.state, o) ∧
        s.incoming = P.reads l ++ t.incoming ∧ t.outgoing = s.outgoing ++ P.writes o := by
  obtain ⟨state, incoming, outgoing⟩ := t
  simp only [attached]
  constructor
  · intro h
    split at h
    case isFalse => cases h
    rename_i hread
    obtain ⟨rest, hrest⟩ := hread
    cases hs : P.machine.step s.state l with
    | none =>
      rw [hs] at h
      cases h
    | some p =>
      rw [hs] at h
      cases h
      refine ⟨rfl, ?_, rfl⟩
      rw [← hrest, List.drop_left]
  · intro h
    obtain ⟨hs, hread, hout⟩ := h
    have hpre : P.reads l <+: s.incoming := ⟨incoming, hread.symm⟩
    rw [if_pos hpre, hs, hread, hout]
    dsimp only
    rw [List.drop_left]

/-- The ports `P` and `Q`, joined. -/
def join (P : Port σ ℓ ω α) (Q : Port τ κ υ α) :
    Machine (Joined σ τ α) (Sum ℓ κ) (Sum ω υ) where
  step s
    | .inl l =>
      match P.attached.step ⟨s.left, s.toLeft, s.toRight⟩ l with
      | none => none
      | some (e, o) => some (⟨e.state, s.right, e.outgoing, e.incoming⟩, .inl o)
    | .inr k =>
      match Q.attached.step ⟨s.right, s.toRight, s.toLeft⟩ k with
      | none => none
      | some (e, o) => some (⟨s.left, e.state, e.incoming, e.outgoing⟩, .inr o)

variable {P : Port σ ℓ ω α} {Q : Port τ κ υ α} {s t : Joined σ τ α}

theorem join_left {l : ℓ} {o : Sum ω υ} (h : (P.join Q).step s (.inl l) = some (t, o)) :
    ∃ o', P.attached.step ⟨s.left, s.toLeft, s.toRight⟩ l =
        some (⟨t.left, t.toLeft, t.toRight⟩, o') ∧ t.right = s.right ∧ o = .inl o' := by
  simp only [join] at h
  split at h
  · cases h
  · rename_i e o' hs
    cases h
    exact ⟨o', hs, rfl, rfl⟩

theorem join_right {k : κ} {o : Sum ω υ} (h : (P.join Q).step s (.inr k) = some (t, o)) :
    ∃ o', Q.attached.step ⟨s.right, s.toRight, s.toLeft⟩ k =
        some (⟨t.right, t.toRight, t.toLeft⟩, o') ∧ t.left = s.left ∧ o = .inr o' := by
  simp only [join] at h
  split at h
  · cases h
  · rename_i e o' hs
    cases h
    exact ⟨o', hs, rfl, rfl⟩

/-! ## 2. Runs -/

/-- The steps of the left port, among those of both; and of the right one. -/
def lefts {β γ : Type} (xs : List (Sum β γ)) : List β := xs.filterMap Sum.getLeft?

def rights {β γ : Type} (xs : List (Sum β γ)) : List γ := xs.filterMap Sum.getRight?

section

variable {β γ : Type} (b : β) (c : γ) (xs : List (Sum β γ))

@[simp] theorem lefts_inl : lefts (Sum.inl b :: xs) = b :: lefts xs := rfl
@[simp] theorem lefts_inr : lefts (Sum.inr c :: xs) = lefts xs := rfl
@[simp] theorem rights_inl : rights (Sum.inl b :: xs) = rights xs := rfl
@[simp] theorem rights_inr : rights (Sum.inr c :: xs) = c :: rights xs := rfl

end

/-- What a joined run is, seen from both ports and from both channels: neither channel loses,
    repeats or reorders anything. -/
structure Halves (P : Port σ ℓ ω α) (Q : Port τ κ υ α) (s t : Joined σ τ α)
    (ls : List (Sum ℓ κ)) (os : List (Sum ω υ)) : Prop where
  left : P.machine.run s.left (lefts ls) = some (t.left, lefts os)
  right : Q.machine.run s.right (rights ls) = some (t.right, rights os)
  toRight : s.toRight ++ (lefts os).flatMap P.writes = (rights ls).flatMap Q.reads ++ t.toRight
  toLeft : s.toLeft ++ (rights os).flatMap Q.writes = (lefts ls).flatMap P.reads ++ t.toLeft

/-- **A joined run is a run of each port, with two channels between them.** -/
theorem halves {ls : List (Sum ℓ κ)} {os : List (Sum ω υ)}
    (h : (P.join Q).run s ls = some (t, os)) : Halves P Q s t ls os := by
  induction ls generalizing s os with
  | nil =>
    cases h
    exact ⟨rfl, rfl, List.append_nil _, List.append_nil _⟩
  | cons l ls ih =>
    obtain ⟨m, o, os', hs, hr, rfl⟩ := Machine.run_cons_iff.mp h
    obtain ⟨hleft, hright, htoRight, htoLeft⟩ := ih hr
    cases l with
    | inl l =>
      obtain ⟨o', hend, hother, rfl⟩ := join_left hs
      obtain ⟨hstep, hread, hwrite⟩ := attached_iff.mp hend
      dsimp only at hstep hread hwrite
      refine ⟨Machine.run_cons_iff.mpr ⟨m.left, o', lefts os', hstep, hleft, rfl⟩, ?_, ?_, ?_⟩
      · rw [rights_inl, rights_inl, ← hother]
        exact hright
      · rw [lefts_inl, rights_inl, List.flatMap_cons, ← List.append_assoc, ← hwrite]
        exact htoRight
      · rw [rights_inl, lefts_inl, List.flatMap_cons, hread, List.append_assoc, htoLeft,
          List.append_assoc]
    | inr k =>
      obtain ⟨o', hend, hother, rfl⟩ := join_right hs
      obtain ⟨hstep, hread, hwrite⟩ := attached_iff.mp hend
      dsimp only at hstep hread hwrite
      refine ⟨?_, Machine.run_cons_iff.mpr ⟨m.right, o', rights os', hstep, hright, rfl⟩, ?_, ?_⟩
      · rw [lefts_inr, lefts_inr, ← hother]
        exact hleft
      · rw [lefts_inr, rights_inr, List.flatMap_cons, hread, List.append_assoc, htoRight,
          List.append_assoc]
      · rw [rights_inr, lefts_inr, List.flatMap_cons, ← List.append_assoc, ← hwrite]
        exact htoLeft

end Port

end PluginsEngine.Library
