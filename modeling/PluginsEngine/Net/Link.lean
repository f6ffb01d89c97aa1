/-
  File:      PluginsEngine/Net/Link.lean
  Subject:   TWO CONNECTIONS TALKING TO EACH OTHER.

  Both ends of a TCP connection are a `TcpConnect`, each on the loop of its own process, each with
  an application that writes and that takes lines out of the buffer its message callback is given.
  The network is a byte channel in each direction. The steps of the two ends come in any order, and
  every call is answered as the kernel likes: short writes, errors, reads of any size. The runs are
  those in which no index of a buffer passes 2^32: behind that, bytes are lost.

  * `endpoint` -- a session and the lines taken from its `readBuf`; a step shows what it handed
    to the socket, what `write` accepted and the line;
  * `EndpointLaw`, `endpoint_step`, `endpoint_run` -- one step and one run of an end, on both of
    its streams;
  * `link`, `Delivered` -- both ends joined, and what one direction guarantees;
  * `link_delivers` -- in both directions at once, over every interleaving: lines taken, unread
    bytes, bytes under way and backlog are what `write` accepted, so the lines arrive in order,
    once each, and none but those sent;
  * `link_stalls` -- from the first backlog on nothing more is sent, so the peer's share is fixed.
-/
import PluginsEngine.Library.Channel
import PluginsEngine.Net.Framing
import PluginsEngine.Net.Session

namespace PluginsEngine

open Library Buffer

/-! ## 1. One end -/

inductive EndpointStep where
  | session (l : ConnectionStep)
  /-- The application takes a line from the buffer of the message callback. -/
  | takeLine

structure EndpointShown where
  handed : List UInt8
  accepted : List UInt8
  line : Option (List UInt8)
  deriving DecidableEq, Repr

/-- The data a `write` accepts: none where it returns at once. -/
def ConnectionState.accepts (s : ConnectionState) (l : ConnectionStep) (o : Shown) : List UInt8 :=
  if s.self.connect.state = .Disconnected then [] else l.accepted o

/-- The connection with another `readBuf`. -/
def ConnectionState.setReadBuf (s : ConnectionState) (b : Buffer) : ConnectionState :=
  { s with self := { s.self with connect := { s.self.connect with readBuf := b } } }

def endpoint : Machine ConnectionState EndpointStep EndpointShown where
  step s
    | .session l =>
      match session.step s l with
      | none => none
      | some (s', o) => some (s', ⟨o.handed, s.accepts l o, none⟩)
    | .takeLine =>
      let taken := s.self.connect.readBuf.takeLine
      some (s.setReadBuf taken.1, ⟨[], [], taken.2⟩)

/-- The bytes a step reads from the socket. -/
def ConnectionStep.received : ConnectionStep → List UInt8
  | .readable r => r.received
  | _ => []

def EndpointStep.received : EndpointStep → List UInt8
  | .session l => l.received
  | .takeLine => []

/-- The unread bytes of `readBuf`. -/
abbrev ConnectionState.unread (s : ConnectionState) : List UInt8 :=
  s.self.connect.readBuf.contents

/-- **The invariant of an end**: both its buffers are in order. -/
structure ConnectionState.Sound (s : ConnectionState) : Prop where
  steady : s.Steady
  readBuf : s.self.connect.readBuf.Wf

/-! ## 2. What a step does to the incoming stream -/

namespace Connection

variable (c : Connection)

theorem closeEvent_readBuf : c.closeEvent.1.connect.readBuf = c.connect.readBuf := by
  unfold closeEvent
  split <;> rfl

theorem finishWrite_readBuf (f : WriteFrame) :
    (c.finishWrite f).connect.readBuf = c.connect.readBuf := by
  unfold finishWrite
  split
  · dsimp only
    split <;> rfl
  · rfl

theorem writeEvent_readBuf (a : WriteAnswer) :
    (c.writeEvent a).1.connect.readBuf = c.connect.readBuf := by
  unfold writeEvent
  split
  · rfl
  · dsimp only
    split
    · split <;> rfl
    · split
      · rfl
      · exact c.closeEvent_readBuf

/-- Whatever `readEvent` does beside, `readBuf` is as `readFromIO` leaves it. -/
theorem readEvent_readBuf (r : ReadvAnswer) :
    (c.readEvent r).1.connect.readBuf = ( Buffer.readFromIO c.connect.readBuf r).1 := by
  unfold readEvent
  dsimp only
  split
  · rfl
  · split
    · exact closeEvent_readBuf _
    · split
      · rfl
      · exact closeEvent_readBuf _

theorem shutdownWrite_readBuf : c.shutdownWrite.connect.readBuf = c.connect.readBuf := by
  unfold shutdownWrite
  split <;> rfl

end Connection

namespace ConnectionState

variable {s s' : ConnectionState}

/-- **A step of a session appends what it reads to the unread bytes**, and only a read does. -/
theorem session_unread {l : ConnectionStep} {o : Shown} (h : s.self.connect.readBuf.Wf)
    (hs : session.step s l = some (s', o)) :
    s'.self.connect.readBuf.Wf ∧ s'.unread = s.unread ++ l.received := by
  have hsame : ∀ {b : Buffer}, l.received = [] → b = s.self.connect.readBuf →
      b.Wf ∧ b.contents = s.unread ++ l.received := by
    intro b hnil hb
    rw [hnil, hb, List.append_nil]
    exact ⟨h, rfl⟩
  rcases session_cases hs with ⟨data, a, rfl, -, rfl, -⟩ | hc
  · exact hsame rfl rfl
  cases l with
  | write data a =>
    simp only [connection] at hc
    split at hc
    case isFalse => cases hc
    split at hc
    · cases hc
      exact hsame rfl (Connection.finishWrite_readBuf _ _)
    · cases hc
      exact hsame rfl rfl
  | writable a =>
    simp only [connection] at hc
    split at hc
    case isFalse => cases hc
    cases hc
    exact hsame rfl (Connection.writeEvent_readBuf _ _)
  | readable r =>
    simp only [connection] at hc
    split at hc
    case isFalse => cases hc
    rename_i hok
    cases hc
    show ((s.self.readEvent r).1.connect.readBuf).Wf ∧
      ((s.self.readEvent r).1.connect.readBuf).contents = s.unread ++ r.received
    rw [Connection.readEvent_readBuf]
    exact Buffer.readFromIO_contents h hok.2.1 hok.2.2
  | error =>
    simp only [connection] at hc
    split at hc
    case isFalse => cases hc
    cases hc
    exact hsame rfl (Connection.closeEvent_readBuf _)
  | connectedHandle =>
    cases hc
    exact hsame rfl rfl
  | shutdownWrite =>
    cases hc
    exact hsame rfl (Connection.shutdownWrite_readBuf _)
  | callbackReturns =>
    simp only [connection] at hc
    split at hc
    · cases hc
    · cases hc
      exact hsame rfl rfl
    · split at hc
      case isFalse => cases hc
      cases hc
      exact hsame rfl (Connection.finishWrite_readBuf _ _)

/-- A step of a session passes the outgoing stream on. -/
theorem session_unsent {l : ConnectionStep} {o : Shown} (h : s.Steady)
    (hs : session.step s l = some (s', o)) :
    o.handed ++ s'.self.unsent = s.self.unsent ++ s.accepts l o := by
  unfold accepts
  rcases session_cases hs with ⟨data, a, rfl, hdisc, rfl, rfl⟩ | hc
  · rw [if_pos hdisc, List.append_nil]
    rfl
  · have hstep := (h.step hc).2
    split
    · -- a disconnected connection takes no `write`, and nothing else accepts data
      rename_i hdisc
      cases l with
      | write data a => exact absurd hdisc (write_shown hc).1
      | writable a | readable r | error | connectedHandle | shutdownWrite | callbackReturns =>
        exact hstep
    · exact hstep

/-- **Behind a backlog nothing is handed to the socket.** -/
theorem session_stalls {l : ConnectionStep} {o : Shown} (h : s.Steady) (hne : s.self.unsent ≠ [])
    (hs : session.step s l = some (s', o)) :
    o.handed = [] ∧ s'.self.unsent = s.self.unsent ++ s.accepts l o := by
  have hhanded : o.handed = [] := by
    rcases session_cases hs with ⟨data, a, -, -, -, rfl⟩ | hc
    · rfl
    · by_cases hw : ∃ data a, l = .write data a
      · obtain ⟨data, a, rfl⟩ := hw
        exact ((write_law h hc).2 hne).1
      · have hnot : ∀ data a, l ≠ .write data a := fun data a heq => hw ⟨data, a, heq⟩
        have hsame := unsent_of_not_write h hc hnot
        have haccepted : l.accepted o = [] := by
          cases l with
          | write data a => exact absurd rfl (hnot data a)
          | writable a | readable r | error | connectedHandle | shutdownWrite
          | callbackReturns => rfl
        have hstream := (h.step hc).2
        rw [hsame, haccepted, List.append_nil] at hstream
        exact List.append_left_eq_self.mp hstream
  have hstream := session_unsent h hs
  rw [hhanded, List.nil_append] at hstream
  exact ⟨hhanded, hstream⟩

end ConnectionState

/-! ## 3. Steps and runs of an end -/

/-- **One step of an end**: the outgoing stream passes from what is accepted over the backlog to
    what is handed over; the incoming one from what is received over the unread bytes to the
    lines. -/
structure EndpointLaw (s : ConnectionState) (l : EndpointStep) (s' : ConnectionState)
    (o : EndpointShown) : Prop where
  sound : s'.Sound
  outgoing : o.handed ++ s'.self.unsent = s.self.unsent ++ o.accepted
  incoming : split kCRLF (s.unread ++ l.received) =
    (o.line.toList ++ (split kCRLF s'.unread).1, (split kCRLF s'.unread).2)

theorem endpoint_step {s s' : ConnectionState} {l : EndpointStep} {o : EndpointShown}
    (h : s.Sound) (hs : endpoint.step s l = some (s', o)) : EndpointLaw s l s' o := by
  cases l with
  | session l =>
    simp only [endpoint] at hs
    split at hs
    · cases hs
    · rename_i t shown hstep
      cases hs
      obtain ⟨hwf, hunread⟩ := ConnectionState.session_unread h.readBuf hstep
      refine ⟨⟨h.steady.session_step hstep, hwf⟩, ConnectionState.session_unsent h.steady hstep, ?_⟩
      rw [hunread]
      rfl
  | takeLine =>
    cases hs
    -- the application's step is a step of the framing loop
    obtain ⟨hwf, hsplit⟩ := Buffer.framing_step h.readBuf
      (Buffer.framing_takeLine s.self.connect.readBuf)
    exact ⟨⟨⟨h.steady.self.keep rfl rfl rfl, h.steady.running⟩, hwf⟩,
      (List.append_nil _).symm, hsplit⟩

/-- The lines an end has taken. -/
def linesOf (os : List EndpointShown) : List (List UInt8) := os.filterMap EndpointShown.line

theorem linesOf_cons (o : EndpointShown) (os : List EndpointShown) :
    linesOf (o :: os) = o.line.toList ++ linesOf os := by
  unfold linesOf
  rw [List.filterMap_cons]
  cases o.line with
  | none => rfl
  | some line => rfl

theorem sound_initial (loop : World TcpCallback) (fd : Int) (callbacks : List UserCallback) :
    (ConnectionState.initial loop fd callbacks).Sound where
  steady := ConnectionState.steady_initial loop fd callbacks
  readBuf := Buffer.new_wf _

/-- The incoming stream of an end between two states of a run. -/
theorem endpoint_incoming {ls : List EndpointStep} {s t : ConnectionState}
    {os : List EndpointShown} (h : s.Sound) (hr : endpoint.run s ls = some (t, os)) :
    split kCRLF (s.unread ++ ls.flatMap EndpointStep.received) =
      (linesOf os ++ (split kCRLF t.unread).1, (split kCRLF t.unread).2) := by
  induction ls generalizing s os with
  | nil =>
    cases hr
    rw [List.flatMap_nil, List.append_nil]
    rfl
  | cons l ls ih =>
    obtain ⟨m, o, os', hs, hrest, rfl⟩ := Machine.run_cons_iff.mp hr
    obtain ⟨hsound, -, hin⟩ := endpoint_step h hs
    have hm := ih hsound hrest
    -- the lines of the step come first; its tail goes on before what is received later
    have hcut := split_append (d := kCRLF) (s.unread ++ l.received)
      (ls.flatMap EndpointStep.received)
    have htail := split_append (d := kCRLF) m.unread (ls.flatMap EndpointStep.received)
    rw [hm] at htail
    obtain ⟨hlines, hrem⟩ := Prod.mk.inj htail
    rw [hin] at hcut
    dsimp only at hcut
    rw [List.flatMap_cons, ← List.append_assoc, hcut, ← hrem, List.append_assoc, ← hlines]
    rw [linesOf_cons, List.append_assoc]

/-- What a run of an end does to its two streams. -/
structure EndpointRun (s : ConnectionState) (ls : List EndpointStep) (t : ConnectionState)
    (os : List EndpointShown) : Prop where
  sound : t.Sound
  outgoing : os.flatMap EndpointShown.handed ++ t.self.unsent =
    s.self.unsent ++ os.flatMap EndpointShown.accepted
  incoming : split kCRLF (s.unread ++ ls.flatMap EndpointStep.received) =
    (linesOf os ++ (split kCRLF t.unread).1, (split kCRLF t.unread).2)

theorem endpoint_run {ls : List EndpointStep} {s t : ConnectionState} {os : List EndpointShown}
    (h : s.Sound) (hr : endpoint.run s ls = some (t, os)) : EndpointRun s ls t os := by
  refine ⟨?_, ?_, endpoint_incoming h hr⟩
  · exact Machine.run_invariant (I := ConnectionState.Sound)
      (fun _ _ _ _ hI hs => (endpoint_step hI hs).sound) h hr
  · refine (Machine.run_induct (P := fun _ os u => u.Sound ∧
      os.flatMap EndpointShown.handed ++ u.self.unsent =
        s.self.unsent ++ os.flatMap EndpointShown.accepted) ?_ ?_ hr).2
    · exact ⟨h, (List.append_nil _).symm⟩
    · intro ls os u l u' o hI hs
      have hlaw := endpoint_step hI.1 hs
      refine ⟨hlaw.sound, ?_⟩
      rw [List.flatMap_append, List.flatMap_append, List.flatMap_singleton,
        List.flatMap_singleton, List.append_assoc, hlaw.outgoing, ← List.append_assoc, hI.2,
        List.append_assoc]

/-- **The lines with their ends, and the unread bytes, are what was received.** -/
theorem EndpointRun.received {s t : ConnectionState} {ls : List EndpointStep}
    {os : List EndpointShown} (h : EndpointRun s ls t os) :
    (linesOf os).flatMap (· ++ kCRLF.text) ++ t.unread =
      s.unread ++ ls.flatMap EndpointStep.received := by
  have hjoined := split_joined (d := kCRLF) (s.unread ++ ls.flatMap EndpointStep.received)
  rw [h.incoming, List.flatMap_append, List.append_assoc, split_joined] at hjoined
  exact hjoined

/-- **A backlog is for good**: behind it nothing more is handed over, and all that is accepted
    stays behind it. -/
theorem endpoint_stalls {ls : List EndpointStep} {s t : ConnectionState}
    {os : List EndpointShown} (h : s.Sound) (hne : s.self.unsent ≠ [])
    (hr : endpoint.run s ls = some (t, os)) :
    os.flatMap EndpointShown.handed = [] ∧
      t.self.unsent = s.self.unsent ++ os.flatMap EndpointShown.accepted := by
  have hstep : ∀ u l u' o, u.Sound ∧ u.self.unsent ≠ [] → endpoint.step u l = some (u', o) →
      (u'.Sound ∧ u'.self.unsent ≠ []) ∧ o.handed = [] := by
    intro u l u' o hI hs
    obtain ⟨hsound, hu⟩ := hI
    have hlaw := endpoint_step hsound hs
    have hhanded : o.handed = [] := by
      cases l with
      | session l =>
        simp only [endpoint] at hs
        split at hs
        · cases hs
        · rename_i v shown hv
          cases hs
          exact (ConnectionState.session_stalls hsound.steady hu hv).1
      | takeLine =>
        cases hs
        rfl
    have hout := hlaw.outgoing
    rw [hhanded, List.nil_append] at hout
    refine ⟨⟨hlaw.sound, ?_⟩, hhanded⟩
    rw [hout]
    exact fun hcat => hu (List.append_eq_nil_iff.mp hcat).1
  have hnone := (Machine.run_induct (P := fun _ os u => (u.Sound ∧ u.self.unsent ≠ []) ∧
      os.flatMap EndpointShown.handed = []) ⟨⟨h, hne⟩, rfl⟩
    (fun ls os u l u' o hI hs => by
      obtain ⟨hkeep, hhanded⟩ := hstep u l u' o hI.1 hs
      refine ⟨hkeep, ?_⟩
      rw [List.flatMap_append, hI.2, List.flatMap_singleton, hhanded]
      rfl) hr).2
  have hout := (endpoint_run h hr).outgoing
  rw [hnone, List.nil_append] at hout
  exact ⟨hnone, hout⟩

/-! ## 4. Both ends -/

def endpointPort : Port ConnectionState EndpointStep EndpointShown UInt8 :=
  ⟨endpoint, EndpointStep.received, EndpointShown.handed⟩

/-- A TCP connection between two of them. -/
def link : Machine (Joined ConnectionState ConnectionState UInt8)
    (Sum EndpointStep EndpointStep) (Sum EndpointShown EndpointShown) :=
  endpointPort.join endpointPort

/-- **What one direction guarantees**, where one end has shown `sent` and the other `got`. -/
structure Delivered (sent got : List EndpointShown) (sender receiver : ConnectionState)
    (underway : List UInt8) : Prop where
  bytes : (linesOf got).flatMap (· ++ kCRLF.text) ++ receiver.unread ++ underway ++
    sender.self.unsent = sent.flatMap EndpointShown.accepted
  lines : ∃ later, (split kCRLF (sent.flatMap EndpointShown.accepted)).1 = linesOf got ++ later
  complete : underway = [] → sender.self.unsent = [] →
    receiver.self.connect.readBuf.findCRLF = none →
    split kCRLF (sent.flatMap EndpointShown.accepted) = (linesOf got, receiver.unread)

/-- From the runs of the two ends, and the channel between them. -/
theorem Delivered.of_runs {s t s' t' : ConnectionState} {ls ls' : List EndpointStep}
    {sent got : List EndpointShown} {underway : List UInt8} (hsent : EndpointRun s ls t sent)
    (hgot : EndpointRun s' ls' t' got) (hs : s.self.unsent = []) (hs' : s'.unread = [])
    (hchannel : sent.flatMap EndpointShown.handed =
      ls'.flatMap EndpointStep.received ++ underway) :
    Delivered sent got t t' underway := by
  have hout := hsent.outgoing
  rw [hs, List.nil_append, hchannel] at hout
  have hin := hgot.incoming
  have hreceived := hgot.received
  rw [hs', List.nil_append] at hin hreceived
  refine ⟨?_, ?_, fun hu hnone hnull => ?_⟩
  · rw [hreceived, hout]
  · rw [← hout, List.append_assoc, split_append, hin]
    exact ⟨_, List.append_assoc _ _ _⟩
  · rw [← hout, hu, hnone, List.append_nil, List.append_nil, hin,
      split_of_none ((Buffer.findCRLF_eq_none_iff _).mp hnull), List.append_nil]

/-- Two connections just constructed, and nothing under way. -/
def linkInitial (left right : ConnectionState) : Joined ConnectionState ConnectionState UInt8 :=
  ⟨left, right, [], []⟩

/-- **Delivery, in both directions at once.** In every state of every run of two connections that
    talk to each other, whatever the kernel answers and however the steps of the two interleave:
    the lines one end has taken, each with its line end, then its unread bytes, the bytes under
    way and the backlog of the other end, are the data the other end's `write` accepted, in order;
    the lines taken are the first lines of that data; and when nothing is left on the way, they are
    all of its lines and the unread bytes are what is behind the last of them. -/
theorem link_delivers {loop loop' : World TcpCallback} {fd fd' : Int}
    {callbacks callbacks' : List UserCallback} {ls : List (Sum EndpointStep EndpointStep)}
    {t : Joined ConnectionState ConnectionState UInt8}
    {os : List (Sum EndpointShown EndpointShown)}
    (h : link.run (linkInitial (.initial loop fd callbacks) (.initial loop' fd' callbacks')) ls =
      some (t, os)) :
    Delivered (Port.lefts os) (Port.rights os) t.left t.right t.toRight ∧
      Delivered (Port.rights os) (Port.lefts os) t.right t.left t.toLeft := by
  obtain ⟨hleft, hright, htoRight, htoLeft⟩ := Port.halves h
  have hl := endpoint_run (sound_initial loop fd callbacks) hleft
  have hr := endpoint_run (sound_initial loop' fd' callbacks') hright
  exact ⟨.of_runs hl hr (Buffer.new_contents _) (Buffer.new_contents _) htoRight,
    .of_runs hr hl (Buffer.new_contents _) (Buffer.new_contents _) htoLeft⟩

/-- The left end writes a line and the beginning of the next one; the right end reads it in two
    parts, takes a line in between and behind them, and answers with one byte. -/
def exampleTalk : List (Sum EndpointStep EndpointStep) :=
  [.inl (.session .connectedHandle), .inr (.session .connectedHandle),
    .inl (.session (.write [97, 98, 13, 10, 99] ⟨5, 0⟩)),
    .inr (.session (.readable ⟨3, [97, 98, 13, 10, 99], 0⟩)), .inr .takeLine,
    .inr (.session (.readable ⟨2, [10, 99], 0⟩)), .inr .takeLine,
    .inr (.session (.write [100] ⟨1, 0⟩))]

theorem link_delivers_exampleTalk : ∃ t os,
    link.run (linkInitial (.initial (.initial ∅ 8) 4 []) (.initial (.initial ∅ 8) 5 []))
        exampleTalk = some (t, os) ∧
      linesOf (Port.rights os) = [[97, 98]] ∧ t.toLeft = [100] ∧
      Delivered (Port.lefts os) (Port.rights os) t.left t.right t.toRight ∧
      Delivered (Port.rights os) (Port.lefts os) t.right t.left t.toLeft := by
  let start := linkInitial (.initial (.initial ∅ 8) 4 []) (.initial (.initial ∅ 8) 5 [])
  have hsome : (link.run start exampleTalk).isSome := by decide +kernel
  obtain ⟨⟨t, os⟩, hrun⟩ := Option.isSome_iff_exists.mp hsome
  have hseen : (link.run start exampleTalk).map
      (fun p => (linesOf (Port.rights p.2), p.1.toLeft)) = some ([[97, 98]], [100]) := by
    decide +kernel
  rw [hrun] at hseen
  obtain ⟨hlines, hleft⟩ := Prod.mk.inj (Option.some.inj hseen)
  exact ⟨t, os, hrun, hlines, hleft, link_delivers hrun⟩

/-- **A backlog fixes what the peer can still get.** Where a run of the link comes to a state in
    which the left end has a backlog, and goes on from there: nothing more is put on the way, all
    that `write` accepts from then on stays in the backlog, and what the right end takes or holds
    from then on is what it held and what was under way already. -/
theorem link_stalls {loop loop' : World TcpCallback} {fd fd' : Int}
    {callbacks callbacks' : List UserCallback} {ls ls' : List (Sum EndpointStep EndpointStep)}
    {s t : Joined ConnectionState ConnectionState UInt8}
    {os os' : List (Sum EndpointShown EndpointShown)}
    (h : link.run (linkInitial (.initial loop fd callbacks) (.initial loop' fd' callbacks')) ls =
      some (s, os))
    (hbacklog : s.left.self.unsent ≠ []) (h' : link.run s ls' = some (t, os')) :
    t.left.self.unsent =
        s.left.self.unsent ++ (Port.lefts os').flatMap EndpointShown.accepted ∧
      (linesOf (Port.rights os')).flatMap (· ++ kCRLF.text) ++ t.right.unread ++ t.toRight =
        s.right.unread ++ s.toRight := by
  obtain ⟨hleft, hright, -, -⟩ := Port.halves h
  have hl := (endpoint_run (sound_initial loop fd callbacks) hleft).sound
  have hr := (endpoint_run (sound_initial loop' fd' callbacks') hright).sound
  obtain ⟨hleft', hright', htoRight, -⟩ := Port.halves h'
  obtain ⟨hnone, hunsent⟩ := endpoint_stalls hl hbacklog hleft'
  have hempty : (Port.lefts os').flatMap endpointPort.writes = [] := hnone
  rw [hempty, List.append_nil] at htoRight
  refine ⟨hunsent, ?_⟩
  rw [(endpoint_run hr hright').received, htoRight, List.append_assoc]
  rfl

/-- A write of which the socket takes one byte of three; and what comes after it: one more write,
    and a read of the peer. -/
theorem link_stalls_short_write : ∃ s t os os',
    link.run (linkInitial (.initial (.initial ∅ 8) 4 []) (.initial (.initial ∅ 8) 5 []))
        [.inl (.session .connectedHandle), .inl (.session (.write [1, 2, 3] ⟨1, 0⟩))] =
      some (s, os) ∧
    link.run s [.inl (.session (.write [4] ⟨1, 0⟩)),
        .inr (.session (.readable ⟨1, [1], 0⟩))] = some (t, os') ∧
      s.left.self.unsent = [2, 3] ∧
      t.left.self.unsent =
        s.left.self.unsent ++ (Port.lefts os').flatMap EndpointShown.accepted ∧
      (linesOf (Port.rights os')).flatMap (· ++ kCRLF.text) ++ t.right.unread ++ t.toRight =
        s.right.unread ++ s.toRight := by
  let start := linkInitial (.initial (.initial ∅ 8) 4 []) (.initial (.initial ∅ 8) 5 [])
  let before : List (Sum EndpointStep EndpointStep) :=
    [.inl (.session .connectedHandle), .inl (.session (.write [1, 2, 3] ⟨1, 0⟩))]
  let after : List (Sum EndpointStep EndpointStep) :=
    [.inl (.session (.write [4] ⟨1, 0⟩)), .inr (.session (.readable ⟨1, [1], 0⟩))]
  have hsome : (link.run start (before ++ after)).isSome := by decide +kernel
  obtain ⟨⟨t, all⟩, hrun⟩ := Option.isSome_iff_exists.mp hsome
  obtain ⟨s, os, os', h, h', -⟩ := Machine.run_append_iff.mp hrun
  have hseen : (link.run start before).map (fun p => p.1.left.self.unsent) = some [2, 3] := by
    decide +kernel
  rw [h] at hseen
  have hunsent : s.left.self.unsent = [2, 3] := Option.some.inj hseen
  have hbacklog : s.left.self.unsent ≠ [] := by
    rw [hunsent]
    exact List.cons_ne_nil _ _
  exact ⟨s, t, os, os', h, h', hunsent, link_stalls h hbacklog h'⟩

end PluginsEngine
