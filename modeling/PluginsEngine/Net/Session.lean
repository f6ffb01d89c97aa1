/-
  File:      PluginsEngine/Net/Session.lean
  Subject:   A CONNECTION FROM ITS CONSTRUCTION TO THE END, writes after the close included.

  `session` is `connection` with the first test of `write`: in state `Disconnected` it returns at
  once. Reports may go on after the close; nothing in the connection takes its Event out of the
  loop before the destructor runs.

  * `session_cases` -- a step is a step of `connection`, or a `write` that returned at once;
  * `MethodLaw`, `session_method`, `quiet_of_disconnected` -- what a step does to the state, and
    what it runs, also where the state is `Disconnected`;
  * `write_law` -- what a `write` hands to the socket and what it queues.
-/
import PluginsEngine.Net.OutgoingStream

namespace PluginsEngine

open Library

/-- A connection in use, and after it was closed. -/
def session : Machine ConnectionState ConnectionStep Shown where
  step s
    | .write data a =>
      -- "disconnected, need not write"
      if s.self.connect.state = .Disconnected then some (s, ⟨none, []⟩)
      else connection.step s (.write data a)
    | l => connection.step s l

theorem session_cases {s s' : ConnectionState} {l : ConnectionStep} {o : Shown}
    (hs : session.step s l = some (s', o)) :
    (∃ data a, l = .write data a ∧ s.self.connect.state = .Disconnected ∧ s' = s ∧
        o = ⟨none, []⟩) ∨
      connection.step s l = some (s', o) := by
  cases l with
  | write data a =>
    simp only [session] at hs
    split at hs
    · rename_i hdisc
      cases hs
      exact Or.inl ⟨data, a, rfl, hdisc, rfl, rfl⟩
    · exact Or.inr hs
  | writable a | readable r | error | connectedHandle | shutdownWrite | callbackReturns =>
    exact Or.inr hs

theorem ConnectionState.Steady.session_step {s s' : ConnectionState} {l : ConnectionStep}
    {o : Shown} (h : s.Steady) (hs : session.step s l = some (s', o)) : s'.Steady := by
  rcases session_cases hs with ⟨data, a, -, -, rfl, -⟩ | hc
  · exact h
  · exact (h.step hc).1

/-! ## 1. The state, and which callbacks run -/

namespace Connection

variable (c : Connection)

theorem mem_invoke {cb cb' : UserCallback} (h : cb' ∈ c.invoke cb) : cb' = cb := by
  unfold invoke at h
  split at h
  · exact List.mem_singleton.mp h
  · exact absurd h List.not_mem_nil

theorem length_invoke_le (cb : UserCallback) : (c.invoke cb).length ≤ 1 := by
  unfold invoke
  split
  · exact Nat.le_refl 1
  · exact Nat.zero_le 1

@[simp] theorem closeEvent_state : c.closeEvent.1.connect.state = .Disconnected := by
  unfold closeEvent
  split
  · rename_i h
    exact h
  · rfl

theorem closeEvent_of_disconnected (h : c.connect.state = .Disconnected) :
    c.closeEvent = (c, []) :=
  if_pos h

theorem mem_closeEvent {cb : UserCallback} (h : cb ∈ c.closeEvent.2) :
    cb = .closeCallback ∧ c.connect.state ≠ .Disconnected := by
  unfold closeEvent at h
  split at h
  · exact absurd h List.not_mem_nil
  · rename_i hne
    exact ⟨c.mem_invoke h, hne⟩

theorem length_closeEvent_le : c.closeEvent.2.length ≤ 1 := by
  unfold closeEvent
  split
  · exact Nat.zero_le 1
  · exact c.length_invoke_le _

theorem finishWrite_state (f : WriteFrame) :
    (c.finishWrite f).connect.state = c.connect.state := by
  unfold finishWrite
  split
  · dsimp only
    split <;> rfl
  · rfl

/-- What running one method may do to the state, and which callbacks it may invoke. -/
structure MethodLaw (c c' : Connection) (ran : List UserCallback) : Prop where
  one : ran.length ≤ 1
  closes : .closeCallback ∈ ran →
    c.connect.state ≠ .Disconnected ∧ c'.connect.state = .Disconnected
  stays : c.connect.state = .Disconnected → c'.connect.state = .Disconnected

theorem MethodLaw.silent {c' : Connection} (h : c'.connect.state = c.connect.state) :
    MethodLaw c c' [] where
  one := Nat.zero_le 1
  closes hin := absurd hin List.not_mem_nil
  stays hd := h.trans hd

theorem MethodLaw.invoke {c' : Connection} (cb : UserCallback) (hcb : cb ≠ .closeCallback)
    (h : c'.connect.state = c.connect.state) : MethodLaw c c' (c.invoke cb) where
  one := c.length_invoke_le cb
  closes hin := absurd (c.mem_invoke hin).symm hcb
  stays hd := h.trans hd

/-- `closeEvent`, called after changes that leave the state alone. -/
theorem MethodLaw.close {c' : Connection} (h : c'.connect.state = c.connect.state) :
    MethodLaw c c'.closeEvent.1 c'.closeEvent.2 where
  one := c'.length_closeEvent_le
  closes hin := by
    rw [← h]
    exact ⟨(c'.mem_closeEvent hin).2, c'.closeEvent_state⟩
  stays _ := c'.closeEvent_state

theorem readEvent_method (r : ReadvAnswer) :
    MethodLaw c (c.readEvent r).1 (c.readEvent r).2 := by
  unfold readEvent
  dsimp only
  split
  · exact MethodLaw.invoke c .messageCallback (by decide) rfl
  · split
    · exact MethodLaw.close c rfl
    · split
      · exact MethodLaw.silent c rfl
      · exact MethodLaw.close c rfl

theorem writeEvent_method (a : WriteAnswer) :
    MethodLaw c (c.writeEvent a).1 (c.writeEvent a).2.ran := by
  unfold writeEvent
  split
  · exact MethodLaw.silent c rfl
  · dsimp only
    split
    · split
      · exact MethodLaw.invoke c .writeCompleteCallback (by decide) rfl
      · exact MethodLaw.silent c rfl
    · split
      · exact MethodLaw.silent c rfl
      · exact MethodLaw.close c rfl

/-- The callback `write` may run: the one of completion, where it is set. -/
theorem mem_beginWrite_ran {data : List UInt8} {a : WriteAnswer} {cb : UserCallback}
    (h : cb ∈ (c.beginWrite data a).2.ran) : cb ∈ c.invoke .writeCompleteCallback := by
  unfold beginWrite at h
  dsimp only at h
  split at h
  · split at h
    · dsimp only at h
      split at h
      · exact h
      · exact absurd h List.not_mem_nil
    · exact absurd h List.not_mem_nil
  · exact absurd h List.not_mem_nil

theorem length_beginWrite_ran_le (data : List UInt8) (a : WriteAnswer) :
    (c.beginWrite data a).2.ran.length ≤ 1 := by
  unfold beginWrite
  dsimp only
  split
  · split
    · dsimp only
      split
      · exact c.length_invoke_le _
      · exact Nat.zero_le 1
    · exact Nat.zero_le 1
  · exact Nat.zero_le 1

/-- The first half of `write` closes nothing; it may run the completion callback. -/
theorem beginWrite_method (data : List UInt8) (a : WriteAnswer) {c' : Connection}
    (h : c'.connect.state = c.connect.state) :
    MethodLaw c c' (c.beginWrite data a).2.ran where
  one := c.length_beginWrite_ran_le data a
  closes hin := absurd (c.mem_invoke (c.mem_beginWrite_ran hin)) nofun
  stays hd := h.trans hd

/-- **A disconnected connection that is told it is writable** runs no callback: there is nothing
    to send, and `closeEvent` returns at once. -/
theorem writeEvent_of_disconnected {c : Connection} (h : c.Steady)
    (hd : c.connect.state = .Disconnected) {a : WriteAnswer}
    (hfit : c.isWriting = false → a.fits c.backlog.length) : (c.writeEvent a).2.ran = [] := by
  unfold writeEvent
  by_cases hw : c.isWriting = true
  · rw [if_pos hw]
  · have hoff : c.isWriting = false := (Bool.not_eq_true _).mp hw
    have hret : ¬ a.ret > 0 := by
      have hf := hfit hoff
      rw [h.backlog_eq.trans (h.unsent_eq_nil hoff)] at hf
      rcases hf with herr | ⟨_, hle, _⟩
      · omega
      · exact Int.not_lt.mpr hle
    simp only [hoff, Bool.false_eq_true, if_false, if_neg hret]
    split
    · rfl
    · rw [c.closeEvent_of_disconnected hd]

end Connection

namespace ConnectionState

variable {s s' : ConnectionState} {l : ConnectionStep} {o : Shown}

/-- **What a step other than `connectedHandle` does to the state**, and what it may run. -/
theorem session_method (hs : session.step s l = some (s', o)) (hl : l ≠ .connectedHandle) :
    Connection.MethodLaw s.self s'.self o.ran := by
  rcases session_cases hs with ⟨data, a, -, -, rfl, rfl⟩ | hc
  · exact .silent _ rfl
  cases l with
  | write data a =>
    simp only [connection] at hc
    split at hc
    case isFalse => cases hc
    split at hc
    · cases hc
      exact s.self.beginWrite_method data a (s.self.finishWrite_state _)
    · cases hc
      exact s.self.beginWrite_method data a rfl
  | writable a =>
    simp only [connection] at hc
    split at hc
    case isFalse => cases hc
    cases hc
    exact s.self.writeEvent_method a
  | readable r =>
    simp only [connection] at hc
    split at hc
    case isFalse => cases hc
    cases hc
    exact s.self.readEvent_method r
  | error =>
    simp only [connection] at hc
    split at hc
    case isFalse => cases hc
    cases hc
    exact .close _ rfl
  | connectedHandle => exact absurd rfl hl
  | shutdownWrite =>
    cases hc
    unfold Connection.shutdownWrite
    split
    · rename_i hconn
      refine ⟨Nat.zero_le 1, fun hin => absurd hin List.not_mem_nil, fun hd => ?_⟩
      rw [hconn] at hd
      cases hd
    · exact .silent _ rfl
  | callbackReturns =>
    simp only [connection] at hc
    split at hc
    · cases hc
    · cases hc
      exact .silent _ rfl
    · split at hc
      case isFalse => cases hc
      cases hc
      exact .silent _ (s.self.finishWrite_state _)

/-- **What runs where the state is `Disconnected`**: nothing, unless a read is made. -/
theorem quiet_of_disconnected (h : s.Steady) (hd : s.self.connect.state = .Disconnected)
    (hs : session.step s l = some (s', o)) (hl : ∀ r, l ≠ .readable r) : o.ran = [] := by
  cases l with
  | write data a =>
    simp only [session, if_pos hd] at hs
    cases hs
    rfl
  | writable a =>
    simp only [session, connection] at hs
    split at hs
    case isFalse => cases hs
    rename_i hok
    cases hs
    exact Connection.writeEvent_of_disconnected h.self hd hok.2
  | readable r => exact absurd rfl (hl r)
  | error =>
    simp only [session, connection] at hs
    split at hs
    case isFalse => cases hs
    cases hs
    show s.self.closeEvent.2 = []
    rw [s.self.closeEvent_of_disconnected hd]
  | connectedHandle | shutdownWrite =>
    cases hs
    rfl
  | callbackReturns =>
    simp only [session, connection] at hs
    split at hs
    · cases hs
    · cases hs
      rfl
    · split at hs
      case isFalse => cases hs
      cases hs
      rfl

end ConnectionState

/-! ## 2. What a write hands over and what it queues -/

/-- The socket took less than the whole of `data`, and did not refuse it with a fault error. -/
def WriteAnswer.leaves (a : WriteAnswer) (data : List UInt8) : Prop :=
  ¬ a.fault ∧ a.ret.toNat < data.length

instance (a : WriteAnswer) (data : List UInt8) : Decidable (a.leaves data) :=
  inferInstanceAs (Decidable (_ ∧ _))

namespace Connection

/-- `write` calls the socket exactly where nothing is queued. -/
theorem Steady.direct_iff {c : Connection} (h : c.Steady) : c.direct ↔ c.unsent = [] := by
  rw [direct, h.wf.isEmpty_iff]
  constructor
  · exact fun hd => hd.2
  · intro hnil
    refine ⟨?_, hnil⟩
    by_cases hw : c.isWriting = true
    · exact absurd hnil (h.writing.mp hw)
    · exact (Bool.not_eq_true _).mp hw

end Connection

namespace ConnectionState

variable {s s' : ConnectionState} {o : Shown} {data : List UInt8} {a : WriteAnswer}

theorem write_shown (hs : connection.step s (.write data a) = some (s', o)) :
    s.self.connect.state ≠ .Disconnected ∧ data.length < 2 ^ 32 ∧ a.fits data.length ∧
      o = (s.self.beginWrite data a).2 := by
  simp only [connection] at hs
  split at hs
  case isFalse => cases hs
  rename_i hok
  obtain ⟨hstate, hlen, hfit, -⟩ := hok
  split at hs
  · cases hs
    exact ⟨hstate, hlen, hfit, rfl⟩
  · cases hs
    exact ⟨hstate, hlen, hfit, rfl⟩

/-- **What a `write` does.** With nothing queued, the socket takes what it answers, and the others
    are queued unless it answered with a fault error; behind a backlog, all of the data is. -/
theorem write_law (h : s.Steady) (hs : connection.step s (.write data a) = some (s', o)) :
    (s.self.unsent = [] → o.handed = a.taken data ∧
        s'.self.unsent = if a.fault then [] else data.drop a.ret.toNat) ∧
      (s.self.unsent ≠ [] → o.handed = [] ∧ s'.self.unsent = s.self.unsent ++ data) := by
  obtain ⟨-, hlen, hfit, rfl⟩ := write_shown hs
  have hstream := (h.step hs).2
  refine ⟨fun hnil => ?_, fun hne => ?_⟩
  · have hd : s.self.direct := h.self.direct_iff.mpr hnil
    have hcall : (s.self.beginWrite data a).2.call = some (data, a) := by
      rcases hfit with herr | ⟨hnonneg, hle, hmax⟩
      · rw [Connection.beginWrite_error hd hlen herr]
      · rw [Connection.beginWrite_taken hd hlen hnonneg hle hmax]
    have hhanded : (s.self.beginWrite data a).2.handed = a.taken data := by
      rw [Shown.handed, hcall]
    have haccepted : (ConnectionStep.write data a).accepted (s.self.beginWrite data a).2 =
        if a.fault then [] else data := by
      cases hshown : (s.self.beginWrite data a).2 with
      | mk call ran =>
        rw [hshown] at hcall
        cases hcall
        rfl
    rw [hhanded, haccepted, hnil, List.nil_append] at hstream
    refine ⟨hhanded, ?_⟩
    by_cases hfault : a.fault
    · rw [if_pos hfault] at hstream ⊢
      exact (List.append_eq_nil_iff.mp hstream).2
    · rw [if_neg hfault] at hstream ⊢
      refine List.append_cancel_left (hstream.trans ?_)
      exact (List.take_append_drop _ _).symm
  · have hd : ¬ s.self.direct := fun hd => hne (h.self.direct_iff.mp hd)
    rw [Connection.beginWrite_behind hd hlen] at hstream ⊢
    exact ⟨rfl, hstream⟩

/-- Only a `write` changes what is queued. -/
theorem unsent_of_not_write {l : ConnectionStep} (h : s.Steady)
    (hs : connection.step s l = some (s', o)) (hl : ∀ data a, l ≠ .write data a) :
    s'.self.unsent = s.self.unsent := by
  have hstream := (h.step hs).2
  have haccepted : l.accepted o = [] := by
    cases l with
    | write data a => exact absurd rfl (hl data a)
    | writable a | readable r | error | connectedHandle | shutdownWrite | callbackReturns => rfl
  have hhanded : o.handed = [] := by
    cases l with
    | write data a => exact absurd rfl (hl data a)
    | writable a =>
      simp only [connection] at hs
      split at hs
      case isFalse => cases hs
      rename_i hok
      cases hs
      exact (Connection.writeEvent_law h.self hok.2).2.2
    | connectedHandle | shutdownWrite =>
      cases hs
      rfl
    | readable r | error =>
      simp only [connection] at hs
      split at hs
      case isFalse => cases hs
      cases hs
      rfl
    | callbackReturns =>
      simp only [connection] at hs
      split at hs
      · cases hs
      · cases hs
        rfl
      · split at hs
        case isFalse => cases hs
        cases hs
        rfl
  rw [hhanded, haccepted, List.nil_append, List.append_nil] at hstream
  exact hstream

/-- Whether something is queued after a `write`. -/
theorem write_unsent_iff (h : s.Steady)
    (hs : connection.step s (.write data a) = some (s', o)) :
    s'.self.unsent ≠ [] ↔ s.self.unsent ≠ [] ∨ a.leaves data := by
  obtain ⟨hdirect, hbehind⟩ := write_law h hs
  by_cases hnil : s.self.unsent = []
  · rw [(hdirect hnil).2]
    by_cases hfault : a.fault
    · rw [if_pos hfault]
      exact ⟨fun hne => absurd rfl hne,
        fun hor => hor.elim (fun hne => absurd hnil hne) fun hl => absurd hfault hl.1⟩
    · rw [if_neg hfault, Ne, List.drop_eq_nil_iff, Nat.not_le]
      exact ⟨fun hlt => Or.inr ⟨hfault, hlt⟩,
        fun hor => hor.elim (fun hne => absurd hnil hne) And.right⟩
  · rw [(hbehind hnil).2]
    exact ⟨fun _ => Or.inl hnil, fun _ hcat => hnil (List.append_eq_nil_iff.mp hcat).1⟩

/-- **When a `write` moves no byte**: it has none, or the socket is called and refuses them with a
    fault error. -/
theorem write_still_iff (h : s.Steady)
    (hs : connection.step s (.write data a) = some (s', o)) :
    (o.handed = [] ∧ s'.self.unsent = s.self.unsent) ↔
      data = [] ∨ (s.self.unsent = [] ∧ a.fault) := by
  obtain ⟨hdirect, hbehind⟩ := write_law h hs
  by_cases hnil : s.self.unsent = []
  · obtain ⟨hhanded, hunsent⟩ := hdirect hnil
    rw [hhanded, hunsent, hnil]
    by_cases hfault : a.fault
    · rw [if_pos hfault]
      exact ⟨fun _ => Or.inr ⟨rfl, hfault⟩,
        fun _ => ⟨WriteAnswer.taken_eq_nil (Int.le_of_lt hfault.1), rfl⟩⟩
    · rw [if_neg hfault]
      constructor
      · intro hok
        obtain ⟨htake, hdrop⟩ := hok
        left
        rw [← List.take_append_drop a.ret.toNat data, hdrop, List.append_nil]
        exact htake
      · intro hok
        rcases hok with rfl | ⟨-, hf⟩
        · exact ⟨List.take_nil, List.drop_nil⟩
        · exact absurd hf hfault
  · obtain ⟨hhanded, hunsent⟩ := hbehind hnil
    rw [hhanded, hunsent, List.append_right_eq_self]
    exact ⟨fun hd => Or.inl hd.2, fun hor => hor.elim (fun hd => ⟨rfl, hd⟩)
      fun hd => absurd hd.1 hnil⟩

end ConnectionState

end PluginsEngine
