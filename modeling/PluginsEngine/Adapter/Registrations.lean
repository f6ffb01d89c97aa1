/-
  File:      PluginsEngine/Adapter/Registrations.lean
  Subject:   REGISTERING WITH THE ADAPTER (adapter/IOContextAdapter.cpp: add, modify, del).

  What the three calls are for is a set: the registered descriptors, each with its mask. `add` first
  constructs the `stream_descriptor`, which boost may refuse by an exception of its own; then it
  inserts, and throws where the insertion took place.

  * `registration`, `Admitted`, `applied` -- the set, which calls it admits and what they do to it;
  * `RegistrationCall`, `registrations` -- the calls on an adapter, in any order;
  * `FollowsSet` -- a call succeeds as the set says, and a call that throws changes nothing;
  * `follows_modify`, `follows_del`, `follows_add_iff` -- one lemma per call;
  * `follows_set_iff` -- so from the start the set is followed exactly if `add` is never called.
-/
import PluginsEngine.Adapter.IOContextAdapter

namespace PluginsEngine

open Library

namespace IOContextAdapter

variable {κ : Type}

/-! ## 1. The set of registrations -/

/-- The registered descriptors, each with its mask. -/
def Adapter.registration (a : Adapter κ) (fd : Int) : Option Mask :=
  (a.map fd).map StreamDesc.events

/-- A call of `add`, `modify` or `del`. `refused` is the text of the exception by which the
    constructor of the `stream_descriptor` refuses the descriptor, if it does. -/
inductive RegistrationCall (κ : Type) where
  | add (fd : Int) (events : Mask) (handler : κ) (memory : Bool) (refused : Option String)
  | modify (fd : Int) (evnets : Mask)
  | del (fd : Int)

/-- **Which calls the set admits**: `add` of an absent descriptor, the others of a present one. -/
def Admitted : RegistrationCall κ → (Int → Option Mask) → Prop
  | .add fd _ _ _ _, m => m fd = none
  | .modify fd _, m | .del fd, m => m fd ≠ none

/-- What an admitted call makes of the set. -/
def applied : RegistrationCall κ → (Int → Option Mask) → Int → Option Mask
  | .add fd events _ _ _, m => Function.update m fd (some events)
  | .modify fd evnets, m => Function.update m fd (some evnets)
  | .del fd, m => Function.update m fd none

/-- The descriptor whose waits a call is to start. -/
def RegistrationCall.starts : RegistrationCall κ → Option Int
  | .add fd _ _ _ _ | .modify fd _ => some fd
  | .del _ => none

/-- The call is an `add`. -/
def RegistrationCall.isAdd : RegistrationCall κ → Bool
  | .add _ _ _ _ _ => true
  | .modify _ _ | .del _ => false

/-- The adapter under calls in any order: every call is possible in every state. -/
def registrations (κ : Type) : Machine (Adapter κ) (RegistrationCall κ) (Shown κ) where
  step a
    | .add _ _ _ _ (some what) => some (a, .threw what)
    | .add fd events handler memory none => some (a.add fd events handler memory)
    | .modify fd evnets => some (a.modify fd evnets)
    | .del fd => some (a.del fd)

/-- **A call follows the set**: it returns normally exactly when the set admits it; then the set
    is changed as it says and every wanted wait of its descriptor is started; and otherwise
    registrations and masks stay as they are. -/
structure FollowsSet (a : Adapter κ) (call : RegistrationCall κ) (a' : Adapter κ) (o : Shown κ) :
    Prop where
  succeeds : o = .returned ↔ Admitted call a.registration
  registers : o = .returned → a'.registration = applied call a.registration
  starts : o = .returned → ∀ fd d, call.starts = some fd → a'.map fd = some d →
    ∀ w, d.wants w = true → d.waitedEvents.has w.event = true
  unchanged : o ≠ .returned → a'.registration = a.registration

/-! ## 2. One lemma per call -/

theorem Adapter.registration_set (a : Adapter κ) (fd : Int) (d : Option (StreamDesc κ)) :
    (a.set fd d).registration = Function.update a.registration fd (d.map StreamDesc.events) := by
  funext fd'
  unfold registration
  by_cases h : fd' = fd
  · subst h
    rw [set_self, Function.update_self]
  · rw [a.set_of_ne h, Function.update_of_ne h]

theorem Adapter.registration_eq_none_iff {a : Adapter κ} {fd : Int} :
    a.registration fd = none ↔ a.map fd = none := Option.map_eq_none_iff

namespace StreamDesc

@[simp] theorem waitAsync_events (d : StreamDesc κ) : d.waitAsync.events = d.events := by
  simp only [waitAsync, arm_events]

theorem wants_waitAsync (d : StreamDesc κ) (w : Wait) : d.waitAsync.wants w = d.wants w := by
  cases w with
  | error => rfl
  | read | write => simp only [wants, waitAsync_events]

/-- After `waitAsync` everything wanted is waited for. -/
theorem waitAsync_starts (d : StreamDesc κ) {w : Wait} (h : d.waitAsync.wants w = true) :
    d.waitAsync.waitedEvents.has w.event = true := by
  rw [wants_waitAsync] at h
  rw [waitAsync_waited, h, Bool.or_true]

end StreamDesc

theorem threw_ne_returned (what : String) : (Shown.threw what : Shown κ) ≠ .returned := by
  intro h
  cases h

/-- A call that throws where the set does not admit it, and changes nothing. -/
theorem follows_of_refused {a : Adapter κ} {call : RegistrationCall κ} {what : String}
    (h : ¬ Admitted call a.registration) : FollowsSet a call a (.threw what) where
  succeeds := ⟨fun heq => absurd heq (threw_ne_returned what), fun hadm => absurd hadm h⟩
  registers heq := absurd heq (threw_ne_returned what)
  starts heq := absurd heq (threw_ne_returned what)
  unchanged _ := rfl

theorem follows_modify (a : Adapter κ) (fd : Int) (evnets : Mask) :
    FollowsSet a (.modify fd evnets) (a.modify fd evnets).1 (a.modify fd evnets).2 := by
  cases hd : a.map fd with
  | none =>
    have hmodify : a.modify fd evnets = (a, .threw "no this fd") := by
      simp only [Adapter.modify, hd]
    rw [hmodify]
    exact follows_of_refused fun hadm => hadm (Adapter.registration_eq_none_iff.mpr hd)
  | some d =>
    have hmodify : a.modify fd evnets =
        (a.set fd (some { d with events := evnets }.waitAsync), .returned) := by
      simp only [Adapter.modify, hd]
    rw [hmodify]
    refine ⟨⟨fun _ hnone => ?_, fun _ => rfl⟩, fun _ => ?_, fun _ fd' d' hfd hd' w hw => ?_,
      fun hne => absurd rfl hne⟩
    · rw [Adapter.registration_eq_none_iff, hd] at hnone
      cases hnone
    · rw [a.registration_set, Option.map_some, StreamDesc.waitAsync_events]
      rfl
    · cases hfd
      rw [Adapter.set_self] at hd'
      cases hd'
      exact StreamDesc.waitAsync_starts _ hw

theorem follows_del (a : Adapter κ) (fd : Int) :
    FollowsSet a (.del fd) (a.del fd).1 (a.del fd).2 := by
  cases hd : a.map fd with
  | none =>
    have hdel : a.del fd = (a, .threw "no this fd") := by
      simp only [Adapter.del, hd]
    rw [hdel]
    exact follows_of_refused fun hadm => hadm (Adapter.registration_eq_none_iff.mpr hd)
  | some d =>
    have hshown : (a.del fd).2 = .returned := by
      simp only [Adapter.del, hd]
    have hmap : (a.del fd).1.map = (a.set fd none).map := by
      simp only [Adapter.del, hd]
    rw [hshown]
    refine ⟨⟨fun _ hnone => ?_, fun _ => rfl⟩, fun _ => ?_, fun _ fd' d' hfd => ?_,
      fun hne => absurd rfl hne⟩
    · rw [Adapter.registration_eq_none_iff, hd] at hnone
      cases hnone
    · have hreg := a.registration_set fd none
      unfold Adapter.registration at hreg ⊢
      rw [hmap]
      exact hreg
    · cases hfd

/-- **`add` follows the set only where it should throw and boost does**: of a present descriptor,
    which the constructor refuses. Where it inserts it throws, with the insertion made. -/
theorem follows_add_iff {a a' : Adapter κ} {fd : Int} {events : Mask} {handler : κ}
    {memory : Bool} {refused : Option String} {o : Shown κ}
    (hs : (registrations κ).step a (.add fd events handler memory refused) = some (a', o)) :
    FollowsSet a (.add fd events handler memory refused) a' o ↔
      a.registration fd ≠ none ∧ refused ≠ none := by
  cases refused with
  | some what =>
    cases hs
    constructor
    · intro h
      refine ⟨fun hnone => threw_ne_returned what (h.succeeds.mpr hnone), fun heq => ?_⟩
      cases heq
    · intro h
      exact follows_of_refused h.1
  | none =>
    simp only [registrations] at hs
    have hno : ¬ FollowsSet a (.add fd events handler memory none) a' o := by
      intro h
      cases hd : a.map fd with
      | none =>
        simp only [Adapter.add, hd] at hs
        cases hs
        exact threw_ne_returned _ (h.succeeds.mpr (Adapter.registration_eq_none_iff.mpr hd))
      | some d =>
        simp only [Adapter.add, hd] at hs
        cases hs
        have habsent := Adapter.registration_eq_none_iff.mp (h.succeeds.mp rfl)
        rw [hd] at habsent
        cases habsent
    exact ⟨fun h => absurd h hno, fun h => absurd rfl h.2⟩

/-! ## 3. Every sequence of calls -/

/-- The calls that follow the set: all but `add`, and an `add` of a present descriptor which boost
    refuses. -/
def Conforms (a : Adapter κ) (call : RegistrationCall κ) (_ : Adapter κ) (_ : Shown κ) : Prop :=
  ∀ fd events handler memory refused, call = .add fd events handler memory refused →
    a.registration fd ≠ none ∧ refused ≠ none

theorem conforms_of_not_add {a a' : Adapter κ} {call : RegistrationCall κ} {o : Shown κ}
    (h : call.isAdd = false) : Conforms a call a' o := by
  intro fd events handler memory refused heq
  rw [heq] at h
  cases h

/-- Every call can be made. -/
theorem step_total (a : Adapter κ) (call : RegistrationCall κ) :
    ∃ a' o, (registrations κ).step a call = some (a', o) := by
  cases call with
  | add fd events handler memory refused =>
    cases refused with
    | none => exact ⟨_, _, rfl⟩
    | some what => exact ⟨_, _, rfl⟩
  | modify fd evnets => exact ⟨_, _, rfl⟩
  | del fd => exact ⟨_, _, rfl⟩

/-- Of an empty adapter every call but `add` throws, and it stays empty. -/
theorem step_start {call : RegistrationCall κ} (h : call.isAdd = false) :
    (registrations κ).step (start κ) call = some (start κ, .threw "no this fd") := by
  cases call with
  | add fd events handler memory refused => cases h
  | modify fd evnets => rfl
  | del fd => rfl

/-- An empty adapter has no descriptor that an `add` could conform for. -/
theorem conforms_start_iff {call : RegistrationCall κ} {a' : Adapter κ} {o : Shown κ} :
    Conforms (start κ) call a' o ↔ call.isAdd = false := by
  refine ⟨fun h => ?_, conforms_of_not_add⟩
  cases call with
  | add fd events handler memory refused => exact absurd rfl (h _ _ _ _ _ rfl).1
  | modify fd evnets => rfl
  | del fd => rfl

theorem follows_step_iff {a a' : Adapter κ} {call : RegistrationCall κ} {o : Shown κ}
    (hs : (registrations κ).step a call = some (a', o)) :
    FollowsSet a call a' o ↔ Conforms a call a' o := by
  cases call with
  | add fd events handler memory refused =>
    rw [follows_add_iff hs]
    constructor
    · intro h fd' events' handler' memory' refused' heq
      cases heq
      exact h
    · intro h
      exact h fd events handler memory refused rfl
  | modify fd evnets =>
    have hfollows := follows_modify a fd evnets
    rw [show a.modify fd evnets = (a', o) from Option.some.inj hs] at hfollows
    exact ⟨fun _ => conforms_of_not_add rfl, fun _ => hfollows⟩
  | del fd =>
    have hfollows := follows_del a fd
    rw [show a.del fd = (a', o) from Option.some.inj hs] at hfollows
    exact ⟨fun _ => conforms_of_not_add rfl, fun _ => hfollows⟩

/-- **The set is followed exactly by the calls that conform**, in any state and from it on; and
    from the start of an adapter that is: by the sequences without an `add`, since the first one
    is of an absent descriptor. -/
theorem follows_set_iff (κ : Type) :
    (∀ (a : Adapter κ) (calls : List (RegistrationCall κ)),
      (registrations κ).Along FollowsSet a calls ↔ (registrations κ).Along Conforms a calls) ∧
    ∀ calls : List (RegistrationCall κ),
      (registrations κ).Along FollowsSet (start κ) calls ↔
        ∀ call ∈ calls, call.isAdd = false := by
  have hiff : ∀ (a : Adapter κ) (calls : List (RegistrationCall κ)),
      (registrations κ).Along FollowsSet a calls ↔ (registrations κ).Along Conforms a calls :=
    fun a calls => Machine.along_iff (I := fun _ => True)
      (fun _ _ _ _ _ hs => ⟨follows_step_iff hs, fun _ => trivial⟩) trivial
  refine ⟨hiff, fun calls => ?_⟩
  rw [hiff]
  induction calls with
  | nil => exact ⟨fun _ _ hmem => absurd hmem List.not_mem_nil, fun _ => trivial⟩
  | cons call calls ih =>
    rw [List.forall_mem_cons, ← ih]
    constructor
    · intro h
      obtain ⟨a', o, hs⟩ := step_total (start κ) call
      have hadd := conforms_start_iff.mp (Machine.along_cons h hs).1
      exact ⟨hadd, (Machine.along_cons h (step_start hadd)).2⟩
    · intro h a' o hs
      rw [step_start h.1] at hs
      cases hs
      exact ⟨conforms_of_not_add h.1, h.2⟩

/-- The first `add` of descriptor 5 throws, and leaves it registered without a wait. -/
theorem add_throws_and_registers :
    ((registrations Nat).run (start Nat) [.add 5 EPOLLIN 7 false none]).map
        (fun p => (p.1.registration 5, p.2)) =
      some (some EPOLLIN, [.threw "add events failed"]) ∧
    ¬ ∀ calls : List (RegistrationCall Nat),
      (registrations Nat).Along FollowsSet (start Nat) calls := by
  refine ⟨by decide, fun h => ?_⟩
  have hstep := (h [.add 5 EPOLLIN 7 false none] _ _ rfl).1
  exact absurd (congrFun (hstep.unchanged (threw_ne_returned _)) 5) (by decide)

end IOContextAdapter

end PluginsEngine
