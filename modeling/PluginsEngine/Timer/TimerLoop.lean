/-
  File:      PluginsEngine/Timer/TimerLoop.lean
  Subject:   A TIMER QUEUE ON ITS LOOP (timer/timerQueue.cpp with event/eventCtrl.cpp).

  The machine of TimerQueue.lean, together with the timerfd as the kernel keeps it and the loop
  whose dispatch enters `timerHandle`. The clock is read before timerfd_settime(2) counts from it,
  epoll_wait(2) returns at any time, and the other handlers on the loop do what they like, as long
  as they spare the timerfd and its Event.

  * `TimerFd` -- armed, expired, read;
  * `timerLoop` -- the machine; `Punctual` -- no timer is armed when it is overdue, and
    timerfd_settime is entered soon after the reading;
  * `TimerFd.Covers`, `TimerLoop.Sound` -- its invariant: the timerfd expires in time;
  * `InTurn`, `InTurn.step` -- what is left to fire of the timers that were due at a wait;
  * `timers_fire_on_time` -- over every run: a timer that is overdue by more than 16 ms when the
    loop's wait ends is reported by it, and all timers due at that time are fired before the loop
    waits again.
-/
import PluginsEngine.Event.Watched
import PluginsEngine.Timer.Conservation
import PluginsEngine.Timer.Cover

namespace PluginsEngine

open Library TimerState

variable {ι : Type}

/-- `TimerQueue(eventLoop)` with the descriptor `timerFd`. -/
def TimerQueue.construct (w : World ι) (timerFd : Int) (timerHandle : ι) : EventId × World ι :=
  w.addReader timerFd timerHandle

/-! ## 1. The timerfd -/

def Timespec.nanoseconds (ts : Timespec) : Nat := ts.tv_sec * 1000000000 + ts.tv_nsec

/-- The intervals that are armed are whole milliseconds. -/
theorem Timer.getTimeInterval_nanoseconds (timer : Timer) (t : Nat) :
    (timer.getTimeInterval t).nanoseconds =
      (timer.getTimeInterval t).milliseconds * 1000000 := by
  unfold Timer.getTimeInterval Timespec.nanoseconds Timespec.milliseconds
  dsimp only
  omega

/-- A timerfd that is not periodic: when it will expire, and whether it has expired since it was
    set or read. -/
structure TimerFd where
  expiry : Option Nat
  expired : Bool
  deriving DecidableEq

namespace TimerFd

variable (f : TimerFd)

/-- `timerfd_create`. -/
def initial : TimerFd := ⟨none, false⟩

/-- timerfd_settime(2) at the time `t`, with a relative interval: an expiration that nobody has
    read is forgotten. -/
def settime (interval : Timespec) (t : Nat) : TimerFd := ⟨some (t + interval.nanoseconds), false⟩

/-- The timerfd when it is `t`. -/
def elapse (t : Nat) : TimerFd :=
  match f.expiry with
  | none => f
  | some x => if x ≤ t then ⟨none, true⟩ else f

/-- read(2), which does not block: with nothing expired it fails, and nobody cares. -/
def read : TimerFd := { f with expired := false }

end TimerFd

/-! ## 2. The queue and its loop -/

/-- A timer queue, its timerfd, and the loop it is on. -/
structure TimerLoop (ι : Type) where
  loop : LoopState ι
  timers : TimerState
  timerFd : TimerFd

inductive TimerLoopStep where
  /-- A step of the queue. Should it arm the timerfd, timerfd_settime is entered at `t`. -/
  | timers (l : TimerStep) (t : Nat)
  /-- A call on the loop, by some other handler. -/
  | act (a : World.Act)
  /-- epoll_wait returns at `t`. -/
  | wait (t : Nat) (records : List EpollEvent)
  /-- The wait is interrupted: EINTR. -/
  | waitFails
  /-- The next record is dispatched; a read of the timerfd is made at `t`. -/
  | dispatch (t : Nat)

/-- A step other than a wait. -/
def TimerLoopStep.isWait : TimerLoopStep → Bool
  | .wait _ _ | .waitFails => true
  | .timers _ _ | .act _ | .dispatch _ => false

/-- What epoll_wait(2) reports of a timerfd: a record says EPOLLIN, and there is one if the
    descriptor is watched for input and has expired. -/
def TimerLoop.reported (fd : Int) (s : TimerLoop ι) (t : Nat) (records : List EpollEvent) : Prop :=
  (∀ r ∈ records, r.fd = fd → r.events = EPOLLIN) ∧
    (s.loop.world.kernel.interest.lookup fd = some Event.readEventFlag →
      (s.timerFd.elapse t).expired = true → ⟨fd, EPOLLIN⟩ ∈ records)

instance TimerLoop.decidableReported (fd : Int) (s : TimerLoop ι) (t : Nat)
    (records : List EpollEvent) : Decidable (s.reported fd t records) :=
  inferInstanceAs (Decidable (_ ∧ (_ → _ → _)))

section

variable [DecidableEq ι]

/-- A timer queue with the descriptor `fd`, the Event `e` and the read callback `timerHandle`, on
    its loop. -/
def timerLoop (fd : Int) (e : EventId) (timerHandle : ι) :
    Machine (TimerLoop ι) TimerLoopStep TimerShown where
  step s
    | .timers l t =>
      if l = .timerHandle then none
      else
        match timerQueue.step s.timers l with
        | none => none
        | some (timers, o) =>
          match o.armed with
          | none => some ({ s with timers := timers }, o)
          | some a =>
            if timers.reads t then
              some ({ s with
                timers := { timers with clock := t }
                timerFd := .settime a.interval t }, o)
            else none
    | .act a =>
      if a.onExisting s.loop.world ∧ a.spares s.loop.world fd e then
        some ({ s with loop := { s.loop with world := s.loop.world.act a } }, quiet)
      else none
    | .wait t records =>
      if s.loop.pending = [] ∧ s.timers.pc = .idle ∧ s.timers.reads t ∧
          s.reported fd t records then
        some (⟨{ s.loop with pending := records }, { s.timers with clock := t },
          s.timerFd.elapse t⟩, quiet)
      else none
    | .waitFails =>
      if s.loop.pending = [] ∧ s.timers.pc = .idle then some (s, quiet) else none
    | .dispatch t =>
      match s.loop.pending with
      | [] => none
      | r :: rest =>
        if s.timers.pc = .idle then
          let (w, target) := s.loop.world.dispatch r
          if target = some e ∧ timerHandle ∈ (w.object e).handle r.events then
            -- `timerHandle` begins with the read of the timerfd
            match timerQueue.step { s.timers with clock := t } .timerHandle with
            | none => none
            | some (timers, o) =>
              if s.timers.reads t then
                some (⟨⟨w, rest⟩, timers, (s.timerFd.elapse t).read⟩, o)
              else none
          else some ({ s with loop := ⟨w, rest⟩ }, quiet)
        else none

/-- A queue just constructed on a loop. -/
def TimerLoop.initial (w : World ι) (fd : Int) (timerHandle : ι) : TimerLoop ι :=
  ⟨⟨(TimerQueue.construct w fd timerHandle).2, []⟩, TimerState.initial, .initial⟩

end

/-- **Punctual steps**: an addition arms its timer before it is overdue, `resetTimer()` finds no
    timer overdue, and timerfd_settime is entered at most `δ` ns after the reading that its
    interval was computed from. -/
def Punctual (δ : Nat) (s : TimerLoop ι) (l : TimerLoopStep) (_ : TimerLoop ι) (o : TimerShown) :
    Prop :=
  match l with
  | .timers l t => s.timers.OnTime l ∧ ∀ a ∈ o.armed, t ≤ a.reading + δ
  | .act _ | .wait _ _ | .waitFails | .dispatch _ => True

instance TimerState.decidableOnTime (s : TimerState) : (l : TimerStep) → Decidable (s.OnTime l)
  | .addOnceTimer interval t t' =>
    inferInstanceAs (Decidable ((s.queue.withTimer .once interval t).arms s.queue.next = true →
      t' / 1000000 ≤ t / 1000000 + interval.toNat))
  | .addRecurringTimer interval t t' =>
    inferInstanceAs (Decidable ((s.queue.withTimer .recurring interval t).arms s.queue.next = true →
      t' / 1000000 ≤ t / 1000000 + interval.toNat))
  | .resetTimer t => inferInstanceAs (Decidable (∀ n ∈ s.queue.nodes, t / 1000000 ≤ n.key))
  | .timerHandle | .loopEnd | .check _ | .callbackReturns _ => inferInstanceAs (Decidable True)

instance decidablePunctual (δ : Nat) (s : TimerLoop ι) (l : TimerLoopStep) (s' : TimerLoop ι)
    (o : TimerShown) : Decidable (Punctual δ s l s' o) :=
  match l with
  | .timers l t =>
    inferInstanceAs (Decidable (s.timers.OnTime l ∧ ∀ a ∈ o.armed, t ≤ a.reading + δ))
  | .act _ | .wait _ _ | .waitFails | .dispatch _ => inferInstanceAs (Decidable True)

/-! ## 3. The timerfd expires in time -/

/-- When a timerfd that was set for a timer with the deadline `key` has expired at the latest. -/
def latestExpiry (δ key : Nat) : Nat := (key + 16) * 1000000 + δ

theorem latestExpiry_mono (δ : Nat) {key key' : Nat} (h : key ≤ key') :
    latestExpiry δ key ≤ latestExpiry δ key' :=
  Nat.add_le_add_right (Nat.mul_le_mul_right _ (Nat.add_le_add_right h _)) _

/-- **The timerfd covers the nodes**: if there are any, it has expired, or will at the latest for
    the earliest of them. -/
def TimerFd.Covers (f : TimerFd) (δ : Nat) (ns : List (Node Nat TimerId)) : Prop :=
  ns ≠ [] → f.expired = true ∨ ∃ x, f.expiry = some x ∧ ∀ n ∈ ns, x ≤ latestExpiry δ n.key

namespace TimerFd.Covers

variable {f : TimerFd} {δ : Nat} {ns ns' : List (Node Nat TimerId)}

/-- Timers that are due no earlier than some there were. -/
theorem stays (h : f.Covers δ ns) (hns : NotBefore ns ns') : f.Covers δ ns' := by
  intro hne
  obtain ⟨n, hn⟩ := List.exists_mem_of_ne_nil _ hne
  obtain ⟨m, hm, -⟩ := hns n hn
  rcases h (List.ne_nil_of_mem hm) with hexpired | ⟨x, hx, hall⟩
  · exact Or.inl hexpired
  · refine Or.inr ⟨x, hx, fun n hn => ?_⟩
    obtain ⟨m, hm, hle⟩ := hns n hn
    exact Nat.le_trans (hall m hm) (latestExpiry_mono δ hle)

theorem elapse (h : f.Covers δ ns) (t : Nat) : (f.elapse t).Covers δ ns := by
  intro hne
  unfold TimerFd.elapse
  rcases h hne with hexpired | ⟨x, hx, hall⟩
  · left
    split
    · exact hexpired
    · split
      · rfl
      · exact hexpired
  · rw [hx]
    dsimp only
    split
    · exact Or.inl rfl
    · exact Or.inr ⟨x, hx, hall⟩

/-- **A timer that is long overdue has made it expire.** -/
theorem expired (h : f.Covers δ ns) {n : Node Nat TimerId} (hn : n ∈ ns) {t : Nat}
    (ht : latestExpiry δ n.key ≤ t) : (f.elapse t).expired = true := by
  unfold TimerFd.elapse
  rcases h (List.ne_nil_of_mem hn) with hexpired | ⟨x, hx, hall⟩
  · split
    · exact hexpired
    · split
      · rfl
      · exact hexpired
  · rw [hx]
    dsimp only
    rw [if_pos (Nat.le_trans (hall n hn) ht)]

end TimerFd.Covers

namespace TimerState

variable {s s' : TimerState} {l : TimerStep} {o : TimerShown} {δ : Nat} {f : TimerFd}

/-- Time passes. -/
theorem Wf.later (h : s.Wf) {t : Nat} (hr : s.reads t) : Wf { s with clock := t } := by
  refine h.goOn s.pc hr.1 hr.2 ?_
  have hpc := h.pc
  cases hs : s.pc with
  | idle | resetting => trivial
  | loop kind it =>
    rw [hs] at hpc
    exact hpc
  | firing kind it =>
    rw [hs] at hpc
    obtain ⟨n, ns, hnodes, hid, hdue⟩ := hpc
    exact ⟨n, ns, hnodes, hid, Nat.le_trans hdue (Nat.div_le_div_right hr.1)⟩

/-- **A timerfd set on time covers the timers.** -/
theorem Wf.covers_settime (h : s.Wf) {n : Node Nat TimerId} (hn : n ∈ s.queue.nodes)
    (hmin : ∀ x ∈ s.queue.nodes, n.key ≤ x.key)
    (hin : (s.queue.arming n.value s.clock).InTime s.queue) {t : Nat} (ht : t ≤ s.clock + δ) :
    (TimerFd.settime (s.queue.arming n.value s.clock).interval t).Covers δ s.queue.nodes := by
  obtain ⟨hlt, hkey⟩ := h.node n hn
  obtain ⟨-, hexpiry⟩ := h.expiry_bounds hlt hin
  have hinterval := (s.queue.timer n.value).getTimeInterval_nanoseconds s.clock
  have hnow : (s.queue.arming n.value s.clock).expiry = s.clock / 1000000 +
      ((s.queue.timer n.value).getTimeInterval s.clock).milliseconds :=
    congrArg (· + _) (Timer.getNowTimeMSecond_eq h.clock)
  rw [hnow, ← hkey] at hexpiry
  refine fun _ => Or.inr ⟨_, rfl, fun x hx => ?_⟩
  have hx' := hmin x hx
  show t + ((s.queue.timer n.value).getTimeInterval s.clock).nanoseconds ≤ _
  rw [hinterval]
  unfold latestExpiry
  omega

/-- **A step of the queue keeps the cover**: it arms nothing, or for the earliest timer. -/
theorem Wf.covers_step (h : s.Wf) (hs : timerQueue.step s l = some (s', o)) (hon : s.OnTime l)
    (hf : s.pc = .idle → f.Covers δ s.queue.nodes) :
    (o.armed = none → s'.pc = .idle → f.Covers δ s'.queue.nodes) ∧
      ∀ a, o.armed = some a → ∀ t, t ≤ a.reading + δ →
        (TimerFd.settime a.interval t).Covers δ s'.queue.nodes := by
  have hwf := h.step hs
  have hsound := (h.sound_iff_onTime hs).mpr hon
  constructor
  · intro hnone hpc'
    rcases h.timerFd_cases hs with ⟨-, -, hlater⟩ | ⟨n, -, -, harm, -⟩
    · rcases h.idle_cases hs hpc' with hnil | harm | ⟨hpc, -⟩
      · exact fun hne => absurd hnil hne
      · exact absurd hnone harm
      · exact (hf hpc).stays hlater
    · rw [hnone] at harm
      cases harm
  · intro a ha t ht
    rcases h.timerFd_cases hs with ⟨hnone, -⟩ | ⟨n, hn, hmin, harm, -, -⟩
    · rw [hnone] at ha
      cases ha
    · rw [ha] at harm
      cases harm
      have hlt := (hwf.node n hn).1
      have hin := (hwf.inTime_iff n.value).mpr ((hwf.sound_iff hlt).mp (hsound _ ha))
      exact hwf.covers_settime hn hmin hin ht

end TimerState

/-! ## 4. The invariant of the loop -/

/-- The loop watches the timerfd, its records say EPOLLIN, and the queue is well formed. -/
structure TimerLoop.Listens (fd : Int) (e : EventId) (timerHandle : ι) (s : TimerLoop ι) :
    Prop where
  keyed : s.loop.world.Keyed
  watches : s.loop.world.Watches fd e timerHandle
  input : ∀ r ∈ s.loop.pending, r.fd = fd → r.events = EPOLLIN
  wf : s.timers.Wf

/-- And between two passes, the timerfd covers the timers. -/
structure TimerLoop.Sound (δ : Nat) (fd : Int) (e : EventId) (timerHandle : ι) (s : TimerLoop ι) :
    Prop extends s.Listens fd e timerHandle where
  covers : s.timers.pc = .idle → s.timerFd.Covers δ s.timers.queue.nodes

section

variable [DecidableEq ι] {fd : Int} {e : EventId} {timerHandle : ι} {s s' : TimerLoop ι}
  {l : TimerLoopStep} {o : TimerShown} {δ : Nat}

omit [DecidableEq ι] in
theorem sound_initial_timers {w : World ι} (hk : w.Keyed) (hpool : fd ∉ w.eventPool)
    (ha : w.kernel.accepts fd) :
    (TimerLoop.initial w fd timerHandle).Sound δ fd w.next timerHandle := by
  have hadded := w.addReader_added fd timerHandle hpool ha.2.1
  refine ⟨⟨?_, hadded.watches ha, fun r hr => absurd hr List.not_mem_nil, wf_initial⟩,
    fun _ hne => absurd rfl hne⟩
  -- the constructor is three calls, and the setting of a callback
  have hnew : (w.newEvent fd).2.Keyed := hk.act (a := .newEvent fd) trivial
  have hadd : ((w.newEvent fd).2.addEvent w.next).Keyed :=
    hnew.act (a := .addEvent w.next) (Nat.lt_succ_self _)
  have hset : (((w.newEvent fd).2.addEvent w.next).setReadCallback w.next timerHandle).Keyed :=
    hadd.setObject w.next (f := fun event => { event with readCallback := some timerHandle }) rfl
  exact hset.act (a := .enableReading w.next true) (Nat.lt_succ_self _)

/-- A step of the queue: which one it is, and what the timerfd and the clock are behind it. -/
theorem timerLoop_timers {k : TimerStep} {t : Nat}
    (hs : (timerLoop fd e timerHandle).step s (.timers k t) = some (s', o)) :
    k ≠ .timerHandle ∧ s'.loop = s.loop ∧ ∃ timers,
      timerQueue.step s.timers k = some (timers, o) ∧
        ((o.armed = none ∧ s'.timers = timers ∧ s'.timerFd = s.timerFd) ∨
          ∃ a, o.armed = some a ∧ timers.reads t ∧ s'.timers = { timers with clock := t } ∧
            s'.timerFd = .settime a.interval t) := by
  simp only [timerLoop] at hs
  split at hs
  · cases hs
  rename_i hk
  split at hs
  · cases hs
  rename_i timers o' hstep
  split at hs
  · rename_i hnone
    cases hs
    exact ⟨hk, rfl, timers, hstep, Or.inl ⟨hnone, rfl, rfl⟩⟩
  · rename_i a hsome
    split at hs
    case isFalse => cases hs
    rename_i hr
    cases hs
    exact ⟨hk, rfl, timers, hstep, Or.inr ⟨a, hsome, hr, rfl, rfl⟩⟩

/-- **What a dispatch does**: the record of the timerfd starts a pass, any other record leaves the
    queue alone; either way one record less is pending. -/
theorem timerLoop_dispatch {t : Nat} (h : s.Listens fd e timerHandle)
    (hs : (timerLoop fd e timerHandle).step s (.dispatch t) = some (s', o)) :
    ∃ r rest, s.loop.pending = r :: rest ∧ s'.loop.pending = rest ∧ s.timers.pc = .idle ∧
      s'.loop.world = (s.loop.world.dispatch r).1 ∧ o = quiet ∧
      ((r = ⟨fd, EPOLLIN⟩ ∧ s.timers.reads t ∧
          s'.timers = ⟨s.timers.queue, .loop .once s.timers.queue.onceTimers.begin, t⟩) ∨
        (r.fd ≠ fd ∧ s'.timers = s.timers ∧ s'.timerFd = s.timerFd)) := by
  simp only [timerLoop] at hs
  cases hp : s.loop.pending with
  | nil =>
    rw [hp] at hs
    cases hs
  | cons r rest =>
    rw [hp] at hs
    dsimp only at hs
    split at hs
    case isFalse => cases hs
    rename_i hidle
    refine ⟨r, rest, rfl, ?_⟩
    have hinput : r.fd = fd → r.events = EPOLLIN := h.input r (by rw [hp]; exact .head _)
    rcases h.watches.dispatch_cases h.keyed hinput with ⟨hr, hdispatch, hhandle⟩ | ⟨hfd, hother⟩
    · rw [hdispatch] at hs ⊢
      dsimp only at hs
      rw [if_pos ⟨rfl, by rw [hhandle]; exact List.mem_singleton.mpr rfl⟩] at hs
      simp only [timerQueue, hidle] at hs
      split at hs
      case isFalse => cases hs
      rename_i hreads
      cases hs
      exact ⟨rfl, hidle, rfl, rfl, Or.inl ⟨hr, hreads, rfl⟩⟩
    · rw [if_neg fun hboth => hother hboth.1] at hs
      cases hs
      exact ⟨rfl, hidle, rfl, rfl, Or.inr ⟨hfd, rfl, rfl⟩⟩

/-- Every step leaves the loop listening, -/
theorem timerLoop_listens (h : s.Listens fd e timerHandle)
    (hs : (timerLoop fd e timerHandle).step s l = some (s', o)) :
    s'.Listens fd e timerHandle := by
  cases l with
  | timers k t =>
    obtain ⟨-, hloop, timers, hstep, hcases⟩ := timerLoop_timers hs
    refine ⟨by rw [hloop]; exact h.keyed, by rw [hloop]; exact h.watches,
      by rw [hloop]; exact h.input, ?_⟩
    rcases hcases with ⟨-, htimers, -⟩ | ⟨a, -, hr, htimers, -⟩
    · rw [htimers]
      exact h.wf.step hstep
    · rw [htimers]
      exact (h.wf.step hstep).later hr
  | act a =>
    simp only [timerLoop] at hs
    split at hs
    case isFalse => cases hs
    rename_i hact
    cases hs
    exact ⟨h.keyed.act hact.1, h.watches.act h.keyed hact.2, h.input, h.wf⟩
  | wait t records =>
    simp only [timerLoop] at hs
    split at hs
    case isFalse => cases hs
    rename_i hwait
    obtain ⟨-, -, hr, hreported⟩ := hwait
    cases hs
    exact ⟨h.keyed, h.watches, hreported.1, h.wf.later hr⟩
  | waitFails =>
    simp only [timerLoop] at hs
    split at hs
    case isFalse => cases hs
    cases hs
    exact h
  | dispatch t =>
    obtain ⟨r, rest, hp, hp', hidle, hw, -, hcases⟩ := timerLoop_dispatch h hs
    refine ⟨by rw [hw]; exact h.keyed.dispatch r, by rw [hw]; exact h.watches.dispatch h.keyed r,
      fun r' hr' => ?_, ?_⟩
    · rw [hp'] at hr'
      exact h.input r' (by rw [hp]; exact List.mem_cons_of_mem _ hr')
    · rcases hcases with ⟨-, hr, htimers⟩ | ⟨-, htimers, -⟩
      · rw [htimers]
        exact h.wf.goOn _ hr.1 hr.2 rfl
      · rw [htimers]
        exact h.wf

/-- and **every punctual step leaves the timers covered**. -/
theorem timerLoop_step (h : s.Sound δ fd e timerHandle)
    (hs : (timerLoop fd e timerHandle).step s l = some (s', o)) (hok : Punctual δ s l s' o) :
    s'.Sound δ fd e timerHandle := by
  refine ⟨timerLoop_listens h.toListens hs, ?_⟩
  cases l with
  | timers k t =>
    obtain ⟨-, -, timers, hstep, hcases⟩ := timerLoop_timers hs
    obtain ⟨hon, hprompt⟩ := hok
    obtain ⟨hstays, hset⟩ := h.wf.covers_step hstep hon h.covers
    rcases hcases with ⟨hnone, htimers, hfd⟩ | ⟨a, hsome, -, htimers, hfd⟩
    · rw [htimers, hfd]
      exact hstays hnone
    · rw [htimers, hfd]
      exact fun _ => hset a hsome t (hprompt a hsome)
  | act a =>
    simp only [timerLoop] at hs
    split at hs
    case isFalse => cases hs
    cases hs
    exact h.covers
  | wait t records =>
    simp only [timerLoop] at hs
    split at hs
    case isFalse => cases hs
    rename_i hwait
    cases hs
    exact fun _ => (h.covers hwait.2.1).elapse t
  | waitFails =>
    simp only [timerLoop] at hs
    split at hs
    case isFalse => cases hs
    cases hs
    exact h.covers
  | dispatch t =>
    obtain ⟨r, rest, -, -, -, -, -, hcases⟩ := timerLoop_dispatch h.toListens hs
    rcases hcases with ⟨-, -, htimers⟩ | ⟨-, htimers, hfd⟩
    · rw [htimers]
      exact fun hidle => by cases hidle
    · rw [htimers, hfd]
      exact h.covers

end

/-! ## 5. What a turn does to the timers -/

/-- The multimaps whose loop the pass has left; between two passes, both. -/
def PassPc.hasLeft : PassPc → TimerKind → Prop
  | .loop .once _, _ | .firing .once _, _ => False
  | .loop .recurring _, kind | .firing .recurring _, kind => kind = .once
  | .resetting, _ | .idle, _ => True

/-- **A turn of the loop**, after a wait that ended in the millisecond `T`, and has shown `os` so
    far. Its pass is still to come, or the multimaps it has left have nothing that was due then;
    and of the nodes `waiting` that were there, those that are gone have fired. -/
structure InTurn (T : Nat) (waiting : TimerKind → List (Node Nat TimerId)) (toCome : Prop)
    (os : List TimerShown) (s : TimerState) : Prop where
  clock : T ≤ s.clock / 1000000
  left : (toCome ∧ s.pc = .idle) ∨
    ∀ kind, s.pc.hasLeft kind → ∀ n ∈ (s.queue.timers kind).nodes, T ≤ n.key
  waiting : ∀ kind, ∀ n ∈ waiting kind,
    n ∈ (s.queue.timers kind).nodes ∨ n.value ∈ fired kind os
  running : ∀ kind it, s.pc = .firing kind it →
    ∃ n ns, (s.queue.timers kind).nodes = n :: ns ∧ n.value ∈ fired kind os

namespace InTurn

variable {T : Nat} {waiting : TimerKind → List (Node Nat TimerId)} {toCome : Prop}
  {os : List TimerShown} {s s' : TimerState} {l : TimerStep} {o : TimerShown}

theorem fired_mono {kind : TimerKind} {timer : TimerId} (h : timer ∈ fired kind os)
    (o : TimerShown) : timer ∈ fired kind (os ++ [o]) := by
  rw [Ledger.fired_append]
  exact List.mem_append_left _ h

/-- Only the clock is read, or the timerfd is set. -/
theorem later (h : InTurn T waiting toCome os s) (hq : s'.queue.timers = s.queue.timers)
    (hpc : s'.pc = s.pc) (hle : s.clock ≤ s'.clock) : InTurn T waiting toCome os s' where
  clock := Nat.le_trans h.clock (Nat.div_le_div_right hle)
  left := by
    rw [hq, hpc]
    exact h.left
  waiting := by
    rw [hq]
    exact h.waiting
  running := by
    rw [hq, hpc]
    exact h.running

/-- The pass goes on to another place, and the multimaps stay as they are. -/
theorem goOn (h : InTurn T waiting toCome os s) {toCome' : Prop}
    (hq : s'.queue.timers = s.queue.timers) (hle : s.clock ≤ s'.clock)
    (hleft : ∀ kind, s'.pc.hasLeft kind → ∀ n ∈ (s.queue.timers kind).nodes, T ≤ n.key)
    (hpc : ∀ kind it, s'.pc ≠ .firing kind it) : InTurn T waiting toCome' (os ++ [o]) s' where
  clock := Nat.le_trans h.clock (Nat.div_le_div_right hle)
  left := by
    rw [hq]
    exact Or.inr hleft
  waiting kind n hn := by
    rw [hq]
    exact (h.waiting kind n hn).imp_right fun hin => fired_mono hin o
  running kind it hfiring := absurd hfiring (hpc kind it)

/-- What a pass that is running has left. -/
theorem left_of_running (h : InTurn T waiting toCome os s) (hpc : s.pc ≠ .idle) {kind : TimerKind}
    (hleft : s.pc.hasLeft kind) : ∀ n ∈ (s.queue.timers kind).nodes, T ≤ n.key := by
  rcases h.left with ⟨-, hidle⟩ | hall
  · exact absurd hidle hpc
  · exact hall kind hleft

/-- A loop is left, because nothing in its multimap is due any more. -/
theorem leave (h : InTurn T waiting toCome os s) {kind : TimerKind} {it : Option Nat}
    (hpc : s.pc = .loop kind it) (hdone : ∀ n ∈ (s.queue.timers kind).nodes, T ≤ n.key) {t : Nat}
    (hle : s.clock ≤ t) : InTurn T waiting toCome (os ++ [o]) ⟨s.queue, s.leave kind, t⟩ := by
  have hrunning : s.pc ≠ .idle := by
    rw [hpc]
    exact nofun
  refine h.goOn rfl hle (fun kind' hleft => ?_) fun kind' it' => ?_
  · cases kind with
    | once =>
      have honce : kind' = .once := hleft
      rw [honce]
      exact hdone
    | recurring =>
      cases kind' with
      | once => exact h.left_of_running hrunning (by rw [hpc]; rfl)
      | recurring => exact hdone
  · cases kind with
    | once => exact nofun
    | recurring => exact nofun

/-- A timer is added: it is due no earlier than now. -/
theorem addition (hwf : s.Wf) (h : InTurn T waiting toCome os s) {kind : TimerKind}
    {interval : UInt32} {t : Nat} (hle : s.clock ≤ t) (hv : ValidReading t)
    (hq : s'.queue.timers = (s.queue.withTimer kind interval t).timers) (hpc : s'.pc = s.pc)
    (hle' : t ≤ s'.clock) : InTurn T waiting toCome (os ++ [o]) s' := by
  have hnow : T ≤ t / 1000000 := Nat.le_trans h.clock (Nat.div_le_div_right hle)
  have hdeadline := deadline_withTimer (q := s.queue) hv kind interval
  have hnodes : ∀ kind' n, n ∈ (s'.queue.timers kind').nodes →
      T ≤ n.key ∨ n ∈ (s.queue.timers kind').nodes := by
    intro kind' n hn
    rw [hq, s.queue.withTimer_timers] at hn
    by_cases hkind : kind' = kind
    · rw [hkind, Function.update_self] at hn
      rcases Multimap.mem_insert.mp hn with rfl | hold
      · refine Or.inl ?_
        show T ≤ (s.queue.withTimer kind interval t).deadline s.queue.next
        rw [hdeadline]
        exact Nat.le_trans hnow (Nat.le_add_right _ _)
      · rw [hkind]
        exact Or.inr hold
    · rw [Function.update_of_ne hkind] at hn
      exact Or.inr hn
  have hstays : ∀ kind' n, n ∈ (s.queue.timers kind').nodes →
      n ∈ (s'.queue.timers kind').nodes := by
    intro kind' n hn
    rw [hq, s.queue.withTimer_timers]
    by_cases hkind : kind' = kind
    · rw [hkind, Function.update_self]
      rw [hkind] at hn
      exact Multimap.mem_insert.mpr (Or.inr hn)
    · rw [Function.update_of_ne hkind]
      exact hn
  refine ⟨Nat.le_trans hnow (Nat.div_le_div_right hle'), ?_, fun kind' n hn => ?_,
    fun kind' it hfiring => ?_⟩
  · rw [hpc]
    refine h.left.imp_right fun hall kind' hleft n hn => ?_
    rcases hnodes kind' n hn with hlate | hold
    · exact hlate
    · exact hall kind' hleft n hold
  · rcases h.waiting kind' n hn with hin | hfired
    · exact Or.inl (hstays kind' n hin)
    · exact Or.inr (fired_mono hfired o)
  · rw [hpc] at hfiring
    obtain ⟨n, ns, hfirst, hfired⟩ := h.running kind' it hfiring
    obtain ⟨n', ns', hfirst', -, hdue⟩ := hwf.firing hfiring
    rw [hfirst] at hfirst'
    cases hfirst'
    have hdue' : n.key ≤ t / 1000000 := Nat.le_trans hdue (Nat.div_le_div_right hle)
    obtain ⟨ns'', hnew⟩ := withTimer_first kind interval hv hfirst hdue'
    rw [hq]
    exact ⟨n, ns'', hnew, fired_mono hfired o⟩

/-- A callback returns: the node it ran for is gone, and its timer has fired. -/
theorem returned (h : InTurn T waiting toCome os s) {kind : TimerKind} {n : Node Nat TimerId}
    {ns : List (Node Nat TimerId)} {m : Multimap Nat TimerId} {timer : TimerId → Timer} {t : Nat}
    (hpc : s.pc = .firing kind n.id) (hnodes : (s.queue.timers kind).nodes = n :: ns)
    (hm : ∀ x ∈ ns, x ∈ m.nodes) (hle : s.clock ≤ t) :
    InTurn T waiting toCome (os ++ [o])
      ⟨{ s.queue with
          timer := timer
          timers := Function.update s.queue.timers kind m }, .loop kind m.begin, t⟩ := by
  have hrunning : s.pc ≠ .idle := by
    rw [hpc]
    exact nofun
  refine ⟨Nat.le_trans h.clock (Nat.div_le_div_right hle), Or.inr fun kind' hleft x hx => ?_,
    fun kind' x hx => ?_, fun _ _ => nofun⟩
  · cases kind with
    | once => exact absurd hleft id
    | recurring =>
      have honce : kind' = .once := hleft
      subst honce
      exact h.left_of_running hrunning (by rw [hpc]; rfl) x hx
  · rcases h.waiting kind' x hx with hin | hfired
    · by_cases hkind : kind' = kind
      · subst hkind
        rw [hnodes] at hin
        rcases List.mem_cons.mp hin with rfl | hin
        · obtain ⟨n', ns', hfirst, hfired⟩ := h.running kind' _ hpc
          rw [hnodes] at hfirst
          cases hfirst
          exact Or.inr (fired_mono hfired o)
        · refine Or.inl ?_
          dsimp only
          rw [Function.update_self]
          exact hm x hin
      · refine Or.inl ?_
        dsimp only
        rw [Function.update_of_ne hkind]
        exact hin
    · exact Or.inr (fired_mono hfired o)

/-- **Every step of the queue** in the turn. -/
theorem step (hwf : s.Wf) (h : InTurn T waiting toCome os s)
    (hs : timerQueue.step s l = some (s', o)) : InTurn T waiting toCome (os ++ [o]) s' := by
  cases hwf.move hs with
  | add kind interval t t' hadd hle htt hv hno =>
    exact addition hwf h hle (Nat.lt_of_le_of_lt htt hv) rfl rfl htt
  | addArming kind interval t t' hadd hle htt hv hyes =>
    exact addition hwf h hle (Nat.lt_of_le_of_lt htt hv) rfl rfl htt
  | start hpc =>
    exact h.goOn rfl (Nat.le_refl _) (fun kind hleft => absurd hleft id) fun _ _ => nofun
  | loopEnd kind hpc hnodes =>
    refine h.leave hpc (fun n hn => ?_) (Nat.le_refl _)
    rw [hnodes] at hn
    exact absurd hn List.not_mem_nil
  | wait kind n ns t hpc hnodes hr hlater =>
    refine h.leave hpc (fun x hx => ?_) hr.1
    have hclock : T ≤ t / 1000000 := Nat.le_trans h.clock (Nat.div_le_div_right hr.1)
    exact Nat.le_trans hclock (Nat.le_trans (Nat.le_of_lt hlater) (Multimap.key_le hnodes x hx))
  | fire kind n ns t hpc hnodes hr hdue =>
    have hrunning : s.pc ≠ .idle := by
      rw [hpc]
      exact nofun
    have hfired : n.value ∈ fired kind (os ++ [⟨none, some (kind, n.value, t), none⟩]) := by
      rw [Ledger.fired_append]
      refine List.mem_append_right _ (List.mem_filterMap.mpr ⟨_, .head _, ?_⟩)
      exact if_pos rfl
    refine ⟨Nat.le_trans h.clock (Nat.div_le_div_right hr.1), Or.inr fun kind' hleft => ?_,
      fun kind' x hx => (h.waiting kind' x hx).imp_right fun hin => fired_mono hin _,
      fun kind' it hfiring => ?_⟩
    · refine h.left_of_running hrunning ?_
      rw [hpc]
      cases kind with
      | once => exact hleft
      | recurring => exact hleft
    · cases hfiring
      exact ⟨n, ns, hnodes, hfired⟩
  | onceReturns n ns t m hpc hnodes hr hm =>
    refine h.returned hpc hnodes (fun x hx => ?_) hr.1
    rw [hm]
    exact hx
  | recurringReturns n ns t m id hpc hnodes hr hdue hm =>
    exact h.returned hpc hnodes (fun x hx => hm.mem_iff.mpr (List.mem_cons_of_mem _ hx)) hr.1
  | resetNone t hpc hr hnodes =>
    refine h.goOn rfl hr.1 (fun kind _ => ?_) fun _ _ => nofun
    exact h.left_of_running (by rw [hpc]; exact nofun) (by rw [hpc]; trivial)
  | reset n t hpc hr hn hmin =>
    refine h.goOn rfl hr.1 (fun kind _ => ?_) fun _ _ => nofun
    exact h.left_of_running (by rw [hpc]; exact nofun) (by rw [hpc]; trivial)

/-- What is shown in between, and whether the pass is still to come. -/
theorem mono (h : InTurn T waiting toCome os s) {toCome' : Prop}
    (hcome : toCome → s.pc = .idle → toCome') (o : TimerShown) :
    InTurn T waiting toCome' (os ++ [o]) s where
  clock := h.clock
  left := h.left.imp_left fun hboth => ⟨hcome hboth.1 hboth.2, hboth.2⟩
  waiting kind n hn := (h.waiting kind n hn).imp_right fun hin => fired_mono hin o
  running kind it hpc := by
    obtain ⟨n, ns, hnodes, hin⟩ := h.running kind it hpc
    exact ⟨n, ns, hnodes, fired_mono hin o⟩

end InTurn

section

variable [DecidableEq ι] {fd : Int} {e : EventId} {timerHandle : ι} {s s' : TimerLoop ι}
  {l : TimerLoopStep} {o : TimerShown} {T : Nat} {waiting : TimerKind → List (Node Nat TimerId)}
  {os : List TimerShown}

/-- **Every step of the loop** in the turn. The pass is to come while the record of the timerfd is
    still to be dispatched. -/
theorem inTurn_step (h : s.Listens fd e timerHandle)
    (hturn : InTurn T waiting (⟨fd, EPOLLIN⟩ ∈ s.loop.pending) os s.timers)
    (hl : l.isWait = false) (hs : (timerLoop fd e timerHandle).step s l = some (s', o)) :
    InTurn T waiting (⟨fd, EPOLLIN⟩ ∈ s'.loop.pending) (os ++ [o]) s'.timers := by
  cases l with
  | wait t records | waitFails => cases hl
  | timers k t =>
    obtain ⟨-, hloop, timers, hstep, hcases⟩ := timerLoop_timers hs
    have hnext := hturn.step h.wf hstep
    rw [hloop]
    rcases hcases with ⟨-, htimers, -⟩ | ⟨a, -, hr, htimers, -⟩
    · rw [htimers]
      exact hnext
    · rw [htimers]
      exact hnext.later rfl rfl hr.1
  | act a =>
    simp only [timerLoop] at hs
    split at hs
    case isFalse => cases hs
    cases hs
    exact hturn.mono (fun hcome _ => hcome) _
  | dispatch t =>
    obtain ⟨r, rest, hp, hp', -, -, -, hcases⟩ := timerLoop_dispatch h hs
    rcases hcases with ⟨-, hr, htimers⟩ | ⟨hfd, htimers, -⟩
    · have hpass : InTurn T waiting (⟨fd, EPOLLIN⟩ ∈ s'.loop.pending) (os ++ [o])
          ⟨s.timers.queue, .loop .once s.timers.queue.onceTimers.begin, t⟩ :=
        hturn.goOn rfl hr.1 (fun kind hleft => absurd hleft id) fun _ _ hidle => by cases hidle
      rw [htimers]
      exact hpass
    · rw [htimers]
      refine hturn.mono (fun hcome _ => ?_) o
      -- the record that was dispatched is another one
      rw [hp] at hcome
      rw [hp']
      rcases List.mem_cons.mp hcome with heq | hin
      · exact absurd (congrArg EpollEvent.fd heq).symm hfd
      · exact hin

/-- A turn without a wait. -/
theorem inTurn_run {ls : List TimerLoopStep} {t : TimerLoop ι} (h : s.Listens fd e timerHandle)
    (hturn : InTurn T waiting (⟨fd, EPOLLIN⟩ ∈ s.loop.pending) [] s.timers)
    (hls : ∀ l ∈ ls, l.isWait = false)
    (hr : (timerLoop fd e timerHandle).run s ls = some (t, os)) :
    InTurn T waiting (⟨fd, EPOLLIN⟩ ∈ t.loop.pending) os t.timers := by
  refine (Machine.run_induct (P := fun ls os t => (∀ l ∈ ls, l.isWait = false) →
    t.Listens fd e timerHandle ∧
      InTurn T waiting (⟨fd, EPOLLIN⟩ ∈ t.loop.pending) os t.timers) ?_ ?_ hr hls).2
  · exact fun _ => ⟨h, hturn⟩
  · intro ls os m l m' o hI hs hls'
    obtain ⟨hm, hturn'⟩ := hI fun l' hin => hls' l' (List.mem_append_left _ hin)
    exact ⟨timerLoop_listens hm hs, inTurn_step hm hturn'
      (hls' l (List.mem_append_right _ List.mem_cons_self)) hs⟩

end

/-! ## 6. Timers fire on time -/

/-- What a wait that ended at `t`, and the turn behind it, do to the timers: those long overdue are
    reported, and a report fires all that were due. -/
structure FiredInTurn (δ : Nat) (fd : Int) (s : TimerLoop ι) (t : Nat) (records : List EpollEvent)
    (os : List TimerShown) : Prop where
  reported : ∀ n ∈ s.timers.queue.nodes, latestExpiry δ n.key ≤ t → ⟨fd, EPOLLIN⟩ ∈ records
  fired : ⟨fd, EPOLLIN⟩ ∈ records → ∀ kind, ∀ n ∈ (s.timers.queue.timers kind).nodes,
    n.key < t / 1000000 → n.value ∈ fired kind os

/-- **Timers fire on time.** A timer queue is constructed on a loop, the kernel accepts its
    timerfd, and the registry has no entry left under its number. In every run whose steps are
    punctual, with any additions, callbacks and other handlers that spare the timerfd: where a wait
    ends at `t`, it reports the timerfd if a timer is overdue by 16 ms and `δ`; and if it does,
    every timer whose deadline is before the millisecond of `t` is fired before the loop waits
    again. -/
theorem timers_fire_on_time [DecidableEq ι] {w : World ι} {fd : Int} {timerHandle : ι} {δ : Nat}
    (hk : w.Keyed) (hpool : fd ∉ w.eventPool) (ha : w.kernel.accepts fd)
    {ls turn : List TimerLoopStep} {t : Nat} {records : List EpollEvent} {next : TimerLoopStep}
    {s u v : TimerLoop ι} {os os' : List TimerShown} {first o : TimerShown}
    (hok : (timerLoop fd w.next timerHandle).Along (Punctual δ) (.initial w fd timerHandle) ls)
    (hnext : next.isWait = true) (hturn : ∀ l ∈ turn, l.isWait = false)
    (h : (timerLoop fd w.next timerHandle).run (.initial w fd timerHandle) ls = some (s, os))
    (h' : (timerLoop fd w.next timerHandle).run s (.wait t records :: turn) =
      some (u, first :: os'))
    (hagain : (timerLoop fd w.next timerHandle).step u next = some (v, o)) :
    FiredInTurn δ fd s t records os' := by
  have hsound : s.Sound δ fd w.next timerHandle :=
    Machine.run_induct_along (P := fun _ _ s => s.Sound δ fd w.next timerHandle)
      (sound_initial_timers hk hpool ha)
      (fun _ _ _ _ _ _ _ hI hs hok => timerLoop_step hI hs hok) hok h
  obtain ⟨m, _, _, hwait, hrest, heq⟩ := Machine.run_cons_iff.mp h'
  cases heq
  have hm := timerLoop_listens hsound.toListens hwait
  simp only [timerLoop] at hwait
  split at hwait
  case isFalse => cases hwait
  rename_i hguard
  obtain ⟨-, hidle, hr, hreported⟩ := hguard
  cases hwait
  refine ⟨fun n hn ht => ?_, fun hrecord kind n hn hdue => ?_⟩
  · exact hreported.2 hsound.watches.interest ((hsound.covers hidle).expired hn ht)
  -- the loop waits again: nothing is pending, and no pass is running
  have hend : u.loop.pending = [] ∧ u.timers.pc = .idle := by
    cases next with
    | timers k t | act a | dispatch t => cases hnext
    | wait t records =>
      simp only [timerLoop] at hagain
      split at hagain
      case isFalse => cases hagain
      rename_i hguard
      exact ⟨hguard.1, hguard.2.1⟩
    | waitFails =>
      simp only [timerLoop] at hagain
      split at hagain
      case isFalse => cases hagain
      rename_i hguard
      exact hguard
  have hstart : InTurn (t / 1000000) (fun kind => (s.timers.queue.timers kind).nodes)
      (⟨fd, EPOLLIN⟩ ∈ records) [] { s.timers with clock := t } :=
    ⟨Nat.le_refl _, Or.inl ⟨hrecord, hidle⟩, fun _ _ hin => Or.inl hin, fun kind it hpc => by
      rw [show s.timers.pc = _ from hpc] at hidle
      cases hidle⟩
  have hlast := inTurn_run hm hstart hturn hrest
  rcases hlast.waiting kind n hn with hin | hfired
  · rcases hlast.left with ⟨hcome, -⟩ | hall
    · rw [hend.1] at hcome
      exact absurd hcome List.not_mem_nil
    · have hleft : u.timers.pc.hasLeft kind := by
        rw [hend.2]
        trivial
      exact absurd hdue (Nat.not_lt.mpr (hall kind hleft n hin))
  · exact hfired

/-- A once timer of 20 ms and a recurring one of 50 ms; timerfd_settime is entered 1 µs late. -/
def twoTimers : List TimerLoopStep :=
  [.timers (.addOnceTimer 20 0 0) 1000, .timers (.addRecurringTimer 50 1000 2000) 2000]

/-- The pass at 40 ms. -/
def passAtForty : List TimerLoopStep :=
  [.dispatch 40000000, .timers (.check 40000000) 0, .timers (.callbackReturns 41000000) 0,
    .timers .loopEnd 0, .timers (.check 41000000) 0, .timers (.resetTimer 41000000) 41000500]

theorem timers_fire_on_time_passAtForty : ∃ s u v os first os' o,
    (timerLoop 5 0 true).run (.initial (.initial ((∅ : Finmap fun _ : Int => FileKind).insert 5
        .pollable) 8) 5 true) twoTimers = some (s, os) ∧
      (timerLoop 5 0 true).run s (.wait 40000000 [⟨5, EPOLLIN⟩] :: passAtForty) =
        some (u, first :: os') ∧
      (timerLoop 5 0 true).step u (.wait 60000000 [⟨5, EPOLLIN⟩]) = some (v, o) ∧
      s.timers.queue.nodes.map Node.key = [20, 50] ∧ fired .once os' = [0] ∧
      FiredInTurn 1000 5 s 40000000 [⟨5, EPOLLIN⟩] os' := by
  let w : World Bool := .initial ((∅ : Finmap fun _ : Int => FileKind).insert 5 .pollable) 8
  let start := TimerLoop.initial w 5 true
  let turn : List TimerLoopStep := .wait 40000000 [⟨5, EPOLLIN⟩] :: passAtForty
  let next : TimerLoopStep := .wait 60000000 [⟨5, EPOLLIN⟩]
  have hsome : ((timerLoop 5 0 true).run start (twoTimers ++ (turn ++ [next]))).isSome := by
    decide +kernel
  obtain ⟨⟨v, all⟩, hrun⟩ := Option.isSome_iff_exists.mp hsome
  obtain ⟨s, os, _, h, hrest, -⟩ := Machine.run_append_iff.mp hrun
  obtain ⟨u, os₁, os₂, h', hlast, -⟩ := Machine.run_append_iff.mp hrest
  obtain ⟨_, o, _, hagain, hnil, -⟩ := Machine.run_cons_iff.mp hlast
  cases hnil
  obtain ⟨_, first, os', -, -, rfl⟩ := Machine.run_cons_iff.mp h'
  have hkeys : ((timerLoop 5 0 true).run start twoTimers).map
      (fun p => p.1.timers.queue.nodes.map Node.key) = some [20, 50] := by
    decide +kernel
  have hfired : ((timerLoop 5 0 true).run start (twoTimers ++ turn)).map
      (fun p => fired .once (p.2.drop 3)) = some [0] := by
    decide +kernel
  have hlen : ((timerLoop 5 0 true).run start twoTimers).map (fun p => p.2.length) = some 2 := by
    decide +kernel
  rw [h] at hkeys hlen
  have hboth := Machine.run_append_iff.mpr ⟨s, os, first :: os', h, h', rfl⟩
  rw [hboth] at hfired
  have hdrop : (os ++ first :: os').drop 3 = os' := by
    have hlength : os.length = 2 := Option.some.inj hlen
    rw [List.drop_append, hlength, List.drop_of_length_le (by omega)]
    rfl
  refine ⟨s, u, v, os, first, os', o, h, h', hagain, Option.some.inj hkeys, ?_, ?_⟩
  · rw [← hdrop]
    exact Option.some.inj hfired
  · exact timers_fire_on_time (World.Keyed.initial _ _) (by decide) (by decide)
      (by decide +kernel) rfl (by decide) h h' hagain

end PluginsEngine
