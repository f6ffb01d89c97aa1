/-
  File:      PluginsEngine/Net/ConnectPool.lean
  Subject:   WHICH CONNECTIONS THE POOL OF A SERVER OWNS.

  The pool is keyed by the peer's address, and connections are told apart by their sockets. The
  steps are the accepts and the callbacks of the connections' Events, in any order, and what
  references the application keeps; a connection lives as long as the pool or the application has
  a reference to it.

  * `PoolLaw` -- the newest connection of an address is its entry, every open connection is owned,
    and a close removes the entry of its own connection and no other;
  * `poolLaw_iff_fresh_address` -- it holds along a run exactly when no connection is accepted
    from an address the pool still has an entry for;
  * `second_connection_is_not_owned` -- two sockets with one peer address.
-/
import PluginsEngine.Net.TcpServer

namespace PluginsEngine

open Library

/-! ## 1. Accepts and callbacks -/

/-- A server, and the connections the application holds a reference to. -/
structure PoolState where
  server : TcpServer
  held : Finset ConnectId

inductive PoolStep where
  /-- A connection is accepted; `keeps` says whether `connectCallback` keeps a reference. -/
  | newConnected (sockfd : Int) (addr : SocketAddr) (keeps : Bool)
  | callback (id : ConnectId) (cb : TcpCallback) (io : IoAnswer)
  | hold (id : ConnectId)
  | release (id : ConnectId)

namespace PoolState

/-- The connection has been accepted, and somebody has a reference to it. -/
def alive (s : PoolState) (id : ConnectId) : Prop :=
  id < s.server.next ∧ (s.server.owns id ∨ id ∈ s.held)

instance decidableAlive (s : PoolState) (id : ConnectId) : Decidable (s.alive id) :=
  inferInstanceAs (Decidable (_ ∧ (_ ∨ _)))

def initial (poolSize : Nat) (loops : Nat → World TcpCallback) : PoolState :=
  ⟨.initial poolSize loops, ∅⟩

end PoolState

/-- The output is the connection accepted. -/
def connectPool : Machine PoolState PoolStep (Option ConnectId) where
  step s
    | .newConnected sockfd addr keeps =>
      let (id, server) := s.server.newConnected sockfd addr
      some (⟨server, if keeps then insert id s.held else s.held⟩, some id)
    | .callback id cb io =>
      if s.alive id then some ({ s with server := (s.server.runCallback id cb io).1 }, none)
      else none
    | .hold id => if s.alive id then some ({ s with held := insert id s.held }, none) else none
    | .release id => some ({ s with held := s.held.erase id }, none)

namespace PoolState

variable {s s' : PoolState} {l : PoolStep} {o : Option ConnectId}

/-- **The pool law.** Right after `newConnected` the entry of the address is the connection just
    accepted; every accepted connection that is not closed is owned by the pool; and a callback
    that closes its connection removes the connection's entry, which is there, and no other. -/
structure PoolLaw (s : PoolState) (l : PoolStep) (s' : PoolState) (o : Option ConnectId) :
    Prop where
  accepted : ∀ sockfd addr keeps, l = .newConnected sockfd addr keeps →
    ∃ id, o = some id ∧ s'.server.connectPool.lookup addr.toString = some id
  owned : ∀ id, id < s'.server.next →
    (s'.server.object id).connect.state ≠ .Disconnected → s'.server.owns id
  removed : ∀ id cb io, l = .callback id cb io → (s.server.connection id).closes cb io →
    s.server.owns id ∧ ∀ name x, s'.server.connectPool.lookup name = some x ↔
      s.server.connectPool.lookup name = some x ∧ x ≠ id

/-- A connection is accepted only from an address that has no entry in the pool. -/
def FreshAddress (s : PoolState) (l : PoolStep) (_ : PoolState) (_ : Option ConnectId) : Prop :=
  match l with
  | .newConnected _ addr _ => addr.toString ∉ s.server.connectPool
  | _ => True

theorem accepted_of_step {sockfd : Int} {addr : SocketAddr} {keeps : Bool}
    (hs : connectPool.step s (.newConnected sockfd addr keeps) = some (s', o)) :
    s.server.Accepted addr s.server.next s'.server ∧ o = some s.server.next := by
  have hacc := s.server.newConnected_law sockfd addr
  cases hc : s.server.newConnected sockfd addr with
  | mk id server =>
    rw [hc] at hacc
    simp only [connectPool, hc] at hs
    cases hs
    have hid : id = s.server.next := hacc.id_eq
    subst hid
    exact ⟨hacc, rfl⟩

theorem callback_of_step {id : ConnectId} {cb : TcpCallback} {io : IoAnswer}
    (hs : connectPool.step s (.callback id cb io) = some (s', o)) :
    id < s.server.next ∧ s'.server = (s.server.runCallback id cb io).1 := by
  simp only [connectPool] at hs
  split at hs
  · rename_i halive
    obtain ⟨hs', -⟩ := Prod.mk.inj (Option.some.inj hs)
    exact ⟨halive.1, by rw [← hs']⟩
  · cases hs

/-! ## 2. What the pool has -/

/-- **Pool and connections**: open connections are owned, entries are connections of that name,
    and every connection has its close callback. -/
structure Owned (s : PoolState) : Prop where
  owned : ∀ id, id < s.server.next →
    (s.server.object id).connect.state ≠ .Disconnected → s.server.owns id
  entry : ∀ name x, s.server.connectPool.lookup name = some x →
    x < s.server.next ∧ (s.server.object x).name = name
  bound : ∀ id, id < s.server.next →
    .closeCallback ∈ (s.server.object id).connect.callbacks

theorem owned_initial (poolSize : Nat) (loops : Nat → World TcpCallback) :
    (initial poolSize loops).Owned where
  owned id hlt := absurd hlt (Nat.not_lt_zero id)
  entry name x h := by
    have hnone : (∅ : Finmap fun _ : Name => ConnectId).lookup name = none :=
      Finmap.lookup_empty name
    exact absurd (hnone.symm.trans h) nofun
  bound id hlt := absurd hlt (Nat.not_lt_zero id)

/-- An accept from an address without an entry. -/
theorem Owned.newConnected (h : s.Owned) {addr : SocketAddr} {id : ConnectId}
    (hacc : s.server.Accepted addr id s'.server) (hnew : addr.toString ∉ s.server.connectPool) :
    s'.Owned where
  owned id' hlt hopen := by
    rw [hacc.next] at hlt
    rcases Nat.lt_succ_iff_lt_or_eq.mp hlt with hold | rfl
    · rw [hacc.old id' hold] at hopen
      exact hacc.owns hold (h.owned id' hold hopen)
    · rw [TcpServer.owns, hacc.pool, insertNew_of_notMem hnew, hacc.name, Finmap.lookup_insert]
  entry name x hx := by
    rw [hacc.pool, insertNew_of_notMem hnew] at hx
    rw [hacc.next]
    by_cases hname : name = addr.toString
    · rw [hname, Finmap.lookup_insert] at hx
      cases hx
      exact ⟨Nat.lt_succ_self _, by rw [hname, hacc.name]⟩
    · rw [Finmap.lookup_insert_of_ne _ hname] at hx
      obtain ⟨hlt, hn⟩ := h.entry name x hx
      exact ⟨Nat.lt_succ_of_lt hlt, by rw [hacc.old x hlt, hn]⟩
  bound id' hlt := by
    rw [hacc.next] at hlt
    rcases Nat.lt_succ_iff_lt_or_eq.mp hlt with hold | rfl
    · rw [hacc.old id' hold]
      exact h.bound id' hold
    · rw [hacc.callbacks]
      exact List.mem_cons_self

/-- The entries after the close of a connection that is owned. -/
theorem Owned.lookup_erase (h : s.Owned) {id : ConnectId} (howns : s.server.owns id)
    (name : Name) (x : ConnectId) :
    (s.server.connectPool.erase (s.server.object id).name).lookup name = some x ↔
      s.server.connectPool.lookup name = some x ∧ x ≠ id := by
  by_cases hname : name = (s.server.object id).name
  · subst hname
    rw [Finmap.lookup_erase, show s.server.connectPool.lookup _ = some id from howns]
    exact ⟨nofun, fun hx => absurd (Option.some.inj hx.1).symm hx.2⟩
  · rw [Finmap.lookup_erase_ne hname]
    refine ⟨fun hx => ⟨hx, ?_⟩, And.left⟩
    intro heq
    subst heq
    exact hname (h.entry name x hx).2.symm

/-- A callback of the Event of a connection. -/
theorem Owned.callback (h : s.Owned) {id : ConnectId} (hid : id < s.server.next)
    {cb : TcpCallback} {io : IoAnswer} (hs : s'.server = (s.server.runCallback id cb io).1) :
    s'.Owned := by
  have hran := s.server.runCallback_pool id cb io
  have hself := s.server.runCallback_self id cb io
  rw [← hs] at hran hself
  have hstate : ∀ id', (s'.server.object id').connect.state ≠ .Disconnected →
      (s.server.object id').connect.state ≠ .Disconnected := by
    intro id' hopen hd
    by_cases hne : id' = id
    · subst hne
      have hst : (s'.server.object id').connect.state = _ := hself.state
      rw [hst, show (s.server.connection id').connect.state = .Disconnected from hd,
        ite_self] at hopen
      exact hopen rfl
    · rw [hran.others id' hne] at hopen
      exact hopen hd
  refine ⟨fun id' hlt hopen => ?_, fun name x hx => ?_, fun id' hlt => ?_⟩
  · rw [hran.next] at hlt
    have howns : s.server.connectPool.lookup (s.server.object id').name = some id' :=
      h.owned id' hlt (hstate id' hopen)
    rw [TcpServer.owns, hran.names, hran.pool]
    split
    · rename_i hclosed
      -- the connection that closed is another one, and has another name
      have hcloses := (hself.closeRan.mp hclosed).1
      have hne : id' ≠ id := by
        intro heq
        subst heq
        have hst : (s'.server.object id').connect.state = _ := hself.state
        rw [if_pos hcloses] at hst
        exact hopen hst
      have hidowns : s.server.owns id := h.owned id hid hcloses.1
      exact (h.lookup_erase hidowns _ _).mpr ⟨howns, hne⟩
    · exact howns
  · rw [hran.next, hran.names]
    rw [hran.pool] at hx
    split at hx
    · by_cases hname : name = (s.server.object id).name
      · rw [hname, Finmap.lookup_erase] at hx
        cases hx
      · rw [Finmap.lookup_erase_ne hname] at hx
        exact h.entry name x hx
    · exact h.entry name x hx
  · rw [hran.next] at hlt
    by_cases hne : id' = id
    · subst hne
      have hcb : (s'.server.object id').connect.callbacks = _ := hself.callbacks
      rw [hcb]
      exact h.bound id' hlt
    · rw [hran.others id' hne]
      exact h.bound id' hlt

theorem Owned.step (h : s.Owned) (hs : connectPool.step s l = some (s', o))
    (hok : FreshAddress s l s' o) : s'.Owned := by
  cases l with
  | newConnected sockfd addr keeps => exact h.newConnected (accepted_of_step hs).1 hok
  | callback id cb io =>
    obtain ⟨hid, hs'⟩ := callback_of_step hs
    exact h.callback hid hs'
  | hold id =>
    simp only [connectPool] at hs
    split at hs
    case isFalse => cases hs
    cases hs
    exact ⟨h.owned, h.entry, h.bound⟩
  | release id =>
    cases hs
    exact ⟨h.owned, h.entry, h.bound⟩

/-! ## 3. When the law holds -/

theorem Owned.poolLaw (h : s.Owned) (hs : connectPool.step s l = some (s', o))
    (hok : FreshAddress s l s' o) : PoolLaw s l s' o where
  accepted sockfd addr keeps hl := by
    subst hl
    obtain ⟨hacc, ho⟩ := accepted_of_step hs
    refine ⟨_, ho, ?_⟩
    rw [hacc.pool, insertNew_of_notMem hok, Finmap.lookup_insert]
  owned := (h.step hs hok).owned
  removed id cb io hl hcloses := by
    subst hl
    obtain ⟨hid, hs'⟩ := callback_of_step hs
    have howns : s.server.owns id := h.owned id hid hcloses.1
    refine ⟨howns, fun name x => ?_⟩
    rw [hs', (s.server.runCallback_pool id cb io).pool,
      if_pos ((s.server.runCallback_self id cb io).closeRan.mpr ⟨hcloses, h.bound id hid⟩)]
    exact h.lookup_erase howns name x

/-- An entry that is there already stays there: `insert` does not overwrite. -/
theorem Owned.freshAddress (h : s.Owned) (hs : connectPool.step s l = some (s', o))
    (hlaw : PoolLaw s l s' o) : FreshAddress s l s' o := by
  cases l with
  | newConnected sockfd addr keeps =>
    intro hmem
    obtain ⟨hacc, ho⟩ := accepted_of_step hs
    obtain ⟨id, hid, hlookup⟩ := hlaw.accepted sockfd addr keeps rfl
    rw [ho] at hid
    cases hid
    rw [hacc.pool, insertNew_of_mem hmem] at hlookup
    exact absurd (h.entry _ _ hlookup).1 (Nat.lt_irrefl _)
  | callback _ _ _ | hold _ | release _ => trivial

end PoolState

open PoolState

/-- **The pool law, exactly.** For every order of accepts and callbacks, and whatever references
    the application keeps: the pool law holds at every step if and only if no connection is
    accepted from an address that has an entry in the pool. -/
theorem poolLaw_iff_fresh_address (poolSize : Nat) (loops : Nat → World TcpCallback)
    (ls : List PoolStep) :
    connectPool.Along PoolLaw (PoolState.initial poolSize loops) ls ↔
      connectPool.Along FreshAddress (PoolState.initial poolSize loops) ls :=
  Machine.along_iff (I := Owned)
    (fun _ _ _ _ h hs => ⟨⟨h.freshAddress hs, h.poolLaw hs⟩, h.step hs⟩)
    (owned_initial poolSize loops)

/-- The peer 10.0.0.7:5000. -/
def examplePeer : SocketAddr := ⟨0x0700000a, 0x8813⟩

example : examplePeer.toString = "10.0.0.7:5000".toList := by decide +kernel

/-- The peer's socket dies and its next one presents the same address before the close of the
    first is processed; the application keeps both connections. Then the second one closes. -/
def sameAddressRun : List PoolStep :=
  [.newConnected 5 examplePeer true, .newConnected 6 examplePeer true,
    .callback 1 .readEvent ⟨⟨0, [], 0⟩, ⟨0, 0⟩⟩]

/-- **The second connection of an address is not owned**, and its close takes the first one's
    entry out of the pool. -/
theorem second_connection_is_not_owned :
    (connectPool.run (PoolState.initial 0 fun _ => .initial ∅ 8) (sameAddressRun.take 2)).map
        (fun p => p.1.server.connectPool.lookup examplePeer.toString) = some (some 0) ∧
      (connectPool.run (PoolState.initial 0 fun _ => .initial ∅ 8) sameAddressRun).map
        (fun p => (p.1.server.connectPool.lookup examplePeer.toString,
          (p.1.server.object 0).connect.state)) = some (none, .Connected) ∧
      ¬ connectPool.Along PoolLaw (PoolState.initial 0 fun _ => .initial ∅ 8) sameAddressRun := by
  refine ⟨by decide +kernel, by decide +kernel, fun h => ?_⟩
  obtain ⟨id, hid, hlookup⟩ := ((h _ _ rfl).2 _ _ rfl).1.accepted 6 examplePeer true rfl
  cases hid
  exact absurd hlookup (by decide +kernel)

end PluginsEngine
