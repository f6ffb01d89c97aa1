/-
  File:      PluginsEngine/Thread/EventThreadPool.lean
  Subject:   THE POOL OF WORKER LOOPS (EventThreadPool): how many there are, whose turn it is, and
             which one a hash selects.

  `init` starts `threadNum` threads and takes in the loop of each; called again it starts as many
  more. `setThreadNum` may be called at any time. A connection is given to a loop either in turn
  (`getOneLoopFromPool`) or by a hash (`getOneLoopWithHash`).

  * `EventThreadPool`, `eventThreadPool` -- the pool and its calls, in any order;
  * `queue`, `getOneLoopFromPool_turn` -- the pool as a queue whose first loop has the next turn;
  * `getOneLoopFromPool_fair` -- the turns are fair, from any 16-bit index on;
  * `SelectsInside`, `HashFits` -- a hash that selects a loop of the pool, and when it does;
  * `threadNum_le_size_of_init`, `covered_run` -- `init` leaves no modulus above the size of the
    pool; only a later `setThreadNum` makes one;
  * `getOneLoopWithHash_inside_iff` -- over every run of calls.
-/
import Mathlib.Data.Int.ModEq
import PluginsEngine.Library.RoundRobin
import PluginsEngine.Library.Runs

namespace PluginsEngine

open Library

/-! ## 1. The pool -/

structure EventThreadPool (Thread Loop : Type) where
  mainLoop : Loop
  started : Bool
  threadNum : UInt16
  threadIndex : UInt16
  threadPoll : List Thread
  eventLoopPoll : List Loop

/-- What `getOneLoopWithHash` comes to: a loop, or undefined behaviour. -/
inductive Selected (Loop : Type) where
  | loop (l : Loop)
  | divisionByZero
  | outOfRange
deriving DecidableEq

namespace EventThreadPool

variable {Thread Loop : Type}

def new (loop : Loop) : EventThreadPool Thread Loop := ⟨loop, false, 0, 0, [], []⟩

def setThreadNum (num : UInt16) (p : EventThreadPool Thread Loop) : EventThreadPool Thread Loop :=
  { p with threadNum := num }

/-- One round of the loop of `init`: a thread is started, and it and its loop are taken in. -/
def pushThread (p : EventThreadPool Thread Loop) (thread : Thread × Loop) :
    EventThreadPool Thread Loop :=
  { p with
    threadPoll := p.threadPoll ++ [thread.1]
    eventLoopPoll := p.eventLoopPoll ++ [thread.2] }

/-- `init()`. `thread i` is the `i`-th thread it starts, with what its `getEventLoopInThread`
    returns. -/
def init (thread : Nat → Thread × Loop) (p : EventThreadPool Thread Loop) :
    EventThreadPool Thread Loop :=
  { ((List.range p.threadNum.toNat).map thread).foldl pushThread p with started := true }

/-- `init(num)`. The `int` is narrowed to the field's 16 bits. -/
def initNum (num : Int32) (thread : Nat → Thread × Loop) (p : EventThreadPool Thread Loop) :
    EventThreadPool Thread Loop :=
  init thread { p with threadNum := UInt16.ofInt num.toInt }

variable (p : EventThreadPool Thread Loop)

/-- `threadIndex++`, and back to 0 at the end of the pool. -/
def nextIndex : UInt16 :=
  if p.eventLoopPoll.length ≤ (p.threadIndex + 1).toNat then 0 else p.threadIndex + 1

theorem nextIndex_lt (h : p.eventLoopPoll ≠ []) :
    p.nextIndex.toNat < p.eventLoopPoll.length := by
  unfold nextIndex
  split
  · exact List.length_pos_iff.mpr h
  · rename_i hlt
    exact Nat.lt_of_not_le hlt

def getOneLoopFromPool : Loop × EventThreadPool Thread Loop :=
  if h : p.eventLoopPoll = [] then (p.mainLoop, p)
  else (p.eventLoopPoll.get ⟨p.nextIndex.toNat, p.nextIndex_lt h⟩,
    { p with threadIndex := p.nextIndex })

/-- `eventLoopPoll[index]`, with an index that is an `int`. -/
def eventLoopAt (index : Int) : Selected Loop :=
  if h : 0 ≤ index ∧ index.toNat < p.eventLoopPoll.length then
    .loop (p.eventLoopPoll.get ⟨index.toNat, h.2⟩)
  else .outOfRange

/-- `getOneLoopWithHash`. `%` truncates towards zero. -/
def getOneLoopWithHash (hash : Int32) : Selected Loop :=
  if p.eventLoopPoll = [] then .loop p.mainLoop
  else if p.threadNum = 0 then .divisionByZero
  else p.eventLoopAt (hash.toInt.tmod p.threadNum.toNat)

/-! ## 2. Taking turns -/

/-- The loops in the order in which they have their turns. -/
def queue : List Loop := p.eventLoopPoll.rotate p.nextIndex.toNat

/-- The next `k` calls of `getOneLoopFromPool`: the loops returned and the pool after them. -/
def takeTurns : Nat → EventThreadPool Thread Loop → List Loop × EventThreadPool Thread Loop
  | 0, p => ([], p)
  | k + 1, p =>
    let (l, p) := p.getOneLoopFromPool
    let (ls, p) := takeTurns k p
    (l :: ls, p)

/-- **Before the pool is filled** a call returns the main loop and changes nothing. -/
theorem getOneLoopFromPool_empty (h : p.eventLoopPoll = []) :
    p.getOneLoopFromPool = (p.mainLoop, p) := dif_pos h

theorem getOneLoopFromPool_eventLoopPoll :
    p.getOneLoopFromPool.2.eventLoopPoll = p.eventLoopPoll := by
  unfold getOneLoopFromPool
  split <;> rfl

/-- An index inside the pool is followed by the next slot, cyclically. The index is counted in 16
    bits, so the pool has to leave one value of them free. -/
theorem nextIndex_of_lt (hlt : p.threadIndex.toNat < p.eventLoopPoll.length)
    (hsize : p.eventLoopPoll.length ≤ 65535) :
    p.nextIndex.toNat = (p.threadIndex.toNat + 1) % p.eventLoopPoll.length := by
  have hadd : (p.threadIndex + 1).toNat = p.threadIndex.toNat + 1 := by
    rw [UInt16.toNat_add]
    exact Nat.mod_eq_of_lt (Nat.lt_succ_of_le (Nat.le_trans hlt hsize))
  unfold nextIndex
  rw [hadd]
  split
  · rename_i hle
    have heq : p.threadIndex.toNat + 1 = p.eventLoopPoll.length := Nat.le_antisymm hlt hle
    rw [heq, Nat.mod_self]
    rfl
  · rename_i hgt
    rw [hadd, Nat.mod_eq_of_lt (Nat.lt_of_not_le hgt)]

/-- **One call is one turn**: it returns the first of the queue and sends it to the end. -/
theorem getOneLoopFromPool_turn (h : p.eventLoopPoll ≠ [])
    (hsize : p.eventLoopPoll.length ≤ 65535) :
    p.queue.head? = some p.getOneLoopFromPool.1 ∧
      p.getOneLoopFromPool.2.queue = p.queue.rotate 1 := by
  have hlt := p.nextIndex_lt h
  have hget : p.getOneLoopFromPool = (p.eventLoopPoll.get ⟨p.nextIndex.toNat, hlt⟩,
      { p with threadIndex := p.nextIndex }) := dif_neg h
  rw [hget]
  constructor
  · unfold queue
    rw [List.head?_rotate hlt]
    exact List.getElem?_eq_getElem hlt
  · have hnext := nextIndex_of_lt { p with threadIndex := p.nextIndex } hlt hsize
    unfold queue
    rw [hnext, List.rotate_mod, List.rotate_rotate]

/-- **Any number of calls** are as many turns of the queue. -/
theorem takeTurns_fst (h : p.eventLoopPoll ≠ []) (hsize : p.eventLoopPoll.length ≤ 65535)
    (k : Nat) : (takeTurns k p).1 = turns k p.queue := by
  induction k generalizing p with
  | zero => rfl
  | succ k ih =>
    obtain ⟨hhead, hqueue⟩ := p.getOneLoopFromPool_turn h hsize
    have hpoll := p.getOneLoopFromPool_eventLoopPoll
    have hrest := ih p.getOneLoopFromPool.2 (hpoll ▸ h) (hpoll ▸ hsize)
    rw [turns_succ k hhead, ← hqueue, ← hrest]
    rfl

theorem takeTurns_empty (h : p.eventLoopPoll = []) (k : Nat) :
    takeTurns k p = (List.replicate k p.mainLoop, p) := by
  induction k with
  | zero => rfl
  | succ k ih =>
    rw [takeTurns, p.getOneLoopFromPool_empty h]
    dsimp only
    rw [ih, List.replicate_succ]

theorem takeTurns_eventLoopPoll (k : Nat) :
    (takeTurns k p).2.eventLoopPoll = p.eventLoopPoll := by
  induction k generalizing p with
  | zero => rfl
  | succ k ih => exact (ih _).trans p.getOneLoopFromPool_eventLoopPoll

/-- **Round robin is fair.** Whatever the index is, in a pool of 1 to 65535 loops any window of as
    many calls as there are loops returns each of them once, and after any number of calls no loop
    was returned two times more than another. While the pool is empty the calls return the main
    loop and leave the pool as it is. -/
theorem getOneLoopFromPool_fair [DecidableEq Loop] :
    (1 ≤ p.eventLoopPoll.length → p.eventLoopPoll.length ≤ 65535 →
      (∀ m, (takeTurns p.eventLoopPoll.length (takeTurns m p).2).1.Perm p.eventLoopPoll) ∧
      (p.eventLoopPoll.Nodup → ∀ k, ∀ a ∈ p.eventLoopPoll, ∀ b ∈ p.eventLoopPoll,
        (takeTurns k p).1.count a ≤ (takeTurns k p).1.count b + 1)) ∧
    (p.eventLoopPoll = [] → ∀ k, takeTurns k p = (List.replicate k p.mainLoop, p)) := by
  refine ⟨fun hpos hsize => ⟨fun m => ?_, fun hnodup k a _ b hb => ?_⟩, p.takeTurns_empty⟩
  · have hpoll := p.takeTurns_eventLoopPoll m
    generalize (takeTurns m p).2 = q at hpoll
    rw [← hpoll] at hpos hsize ⊢
    have hlen : q.eventLoopPoll.length = q.queue.length + 0 := (List.length_rotate _ _).symm
    rw [q.takeTurns_fst (List.length_pos_iff.mp hpos) hsize, hlen, turns_round]
    exact (List.append_nil _).symm ▸ List.rotate_perm _ _
  · rw [p.takeTurns_fst (List.length_pos_iff.mp hpos) hsize]
    exact turns_fair (List.nodup_rotate.mpr hnodup) (List.mem_rotate.mpr hb) k

/-- Three loops, and the 16-bit index at its last value. -/
def threeLoops : EventThreadPool Nat Nat := ⟨0, true, 3, 65535, [1, 2, 3], [11, 12, 13]⟩

theorem getOneLoopFromPool_fair_threeLoops :
    (takeTurns 3 (takeTurns 4 threeLoops).2).1.Perm [11, 12, 13] ∧
      (takeTurns 5 threeLoops).1.count 11 ≤ (takeTurns 5 threeLoops).1.count 13 + 1 ∧
      takeTurns 2 (new 0 : EventThreadPool Nat Nat) = ([0, 0], new 0) :=
  have h := threeLoops.getOneLoopFromPool_fair.1 (by decide) (by decide)
  ⟨h.1 4, h.2 (by decide) 5 11 (by decide) 13 (by decide),
    (new 0 : EventThreadPool Nat Nat).getOneLoopFromPool_fair.2 rfl 2⟩

/-! ## 3. Selection by a hash -/

/-- What a selection must come to: the main loop of an empty pool, or a loop of the pool. -/
def SelectsInside (r : Selected Loop) : Prop :=
  (p.eventLoopPoll = [] ∧ r = .loop p.mainLoop) ∨
    ∃ i : Fin p.eventLoopPoll.length, r = .loop (p.eventLoopPoll.get i)

/-- **When a hash selects inside the pool**: there is a modulus, the hash is not negative (or a
    multiple of the modulus), and where the modulus is above the size of the pool the hash is
    congruent to one of the slots. -/
def HashFits (hash : Int32) : Prop :=
  p.eventLoopPoll = [] ∨
    (p.threadNum ≠ 0 ∧ (0 ≤ hash.toInt ∨ (p.threadNum.toNat : Int) ∣ hash.toInt) ∧
      (p.threadNum.toNat ≤ p.eventLoopPoll.length ∨
        ∃ slot : Fin p.eventLoopPoll.length,
          (slot : Int) ≡ hash.toInt [ZMOD p.threadNum.toNat]))

/-- The remainder of a truncating division is not negative exactly when the dividend is not, or
    when nothing remains. -/
theorem tmod_nonneg_iff {a b : Int} : 0 ≤ a.tmod b ↔ 0 ≤ a ∨ b ∣ a := by
  constructor
  · intro h
    rcases Int.le_total 0 a with ha | ha
    · exact Or.inl ha
    · have hneg := Int.tmod_nonneg b (Int.neg_nonneg_of_nonpos ha)
      rw [Int.neg_tmod] at hneg
      exact Or.inr (Int.dvd_of_tmod_eq_zero (by omega))
  · intro h
    rcases h with ha | hdvd
    · exact Int.tmod_nonneg b ha
    · exact Int.le_of_eq (Int.tmod_eq_zero_of_dvd hdvd).symm

/-- A remainder that is not negative is below `n` exactly when the modulus is at most `n`, or one
    of `0 .. n - 1` is congruent to the dividend. -/
theorem tmod_lt_iff {a : Int} {m n : Nat} (hm : 0 < m) (h : 0 ≤ a.tmod m) :
    (a.tmod m).toNat < n ↔ m ≤ n ∨ ∃ slot : Fin n, (slot : Int) ≡ a [ZMOD m] := by
  have hlt : a.tmod m < m := Int.tmod_lt_of_pos a (by omega)
  have hmod : a.tmod m ≡ a [ZMOD m] := (Int.modEq_iff_dvd).mpr Int.dvd_self_sub_tmod
  constructor
  · intro hn
    exact Or.inr ⟨⟨(a.tmod m).toNat, hn⟩, by rwa [Int.toNat_of_nonneg h]⟩
  · intro hor
    rcases Nat.lt_or_ge n m with hnm | hmn
    · obtain ⟨slot, hslot⟩ := hor.resolve_left (Nat.not_le.mpr hnm)
      -- both are below the modulus, so they are equal
      have heq : (slot : Int) = a.tmod m := by
        have hboth := hslot.trans hmod.symm
        unfold Int.ModEq at hboth
        rwa [Int.emod_eq_of_lt (by omega) (by omega), Int.emod_eq_of_lt h hlt] at hboth
      omega
    · omega

theorem eventLoopAt_inside_iff (h : p.eventLoopPoll ≠ []) (index : Int) :
    p.SelectsInside (p.eventLoopAt index) ↔
      0 ≤ index ∧ index.toNat < p.eventLoopPoll.length := by
  unfold eventLoopAt
  split
  · rename_i hin
    exact ⟨fun _ => hin, fun _ => Or.inr ⟨_, rfl⟩⟩
  · rename_i hout
    refine ⟨fun hsel => ?_, fun hin => absurd hin hout⟩
    rcases hsel with ⟨hempty, -⟩ | ⟨i, hi⟩
    · exact absurd hempty h
    · cases hi

/-- **One call**: it selects inside the pool exactly when the hash fits. -/
theorem getOneLoopWithHash_inside (hash : Int32) :
    p.SelectsInside (p.getOneLoopWithHash hash) ↔ p.HashFits hash := by
  unfold getOneLoopWithHash HashFits
  split
  · rename_i hempty
    exact ⟨fun _ => Or.inl hempty, fun _ => Or.inl ⟨hempty, rfl⟩⟩
  · rename_i hne
    rw [or_iff_right hne]
    split
    · rename_i hzero
      refine ⟨fun hsel => ?_, fun hfit => absurd hzero hfit.1⟩
      rcases hsel with ⟨hempty, -⟩ | ⟨i, hi⟩
      · exact absurd hempty hne
      · cases hi
    · rename_i hnz
      have hpos : 0 < p.threadNum.toNat :=
        Nat.pos_of_ne_zero fun hz => hnz (UInt16.toNat_inj.mp hz)
      rw [p.eventLoopAt_inside_iff hne]
      constructor
      · intro hin
        exact ⟨hnz, tmod_nonneg_iff.mp hin.1, (tmod_lt_iff hpos hin.1).mp hin.2⟩
      · intro hfit
        have hnonneg := tmod_nonneg_iff.mpr hfit.2.1
        exact ⟨hnonneg, (tmod_lt_iff hpos hnonneg).mpr hfit.2.2⟩

end EventThreadPool

/-! ## 4. Every run of calls -/

inductive PoolCall (Thread Loop : Type) where
  | setThreadNum (num : UInt16)
  | init (thread : Nat → Thread × Loop)
  | initNum (num : Int32) (thread : Nat → Thread × Loop)
  | getOneLoopFromPool
  | getOneLoopWithHash (hash : Int32)

/-- The pool under calls in any order. A call shows what it returns. -/
def eventThreadPool (Thread Loop : Type) :
    Machine (EventThreadPool Thread Loop) (PoolCall Thread Loop) (Option (Selected Loop)) where
  step p
    | .setThreadNum num => some (p.setThreadNum num, none)
    | .init thread => some (p.init thread, none)
    | .initNum num thread => some (p.initNum num thread, none)
    | .getOneLoopFromPool =>
      some (p.getOneLoopFromPool.2, some (.loop p.getOneLoopFromPool.1))
    | .getOneLoopWithHash hash => some (p, some (p.getOneLoopWithHash hash))

namespace EventThreadPool

variable {Thread Loop : Type}

/-- A call of `getOneLoopWithHash` returns a loop that `SelectsInside` admits. -/
def HashLaw (p : EventThreadPool Thread Loop) (call : PoolCall Thread Loop)
    (_ : EventThreadPool Thread Loop) (o : Option (Selected Loop)) : Prop :=
  ∀ hash, call = .getOneLoopWithHash hash → ∃ r, o = some r ∧ p.SelectsInside r

/-- A call of `getOneLoopWithHash` is made with a hash that fits. -/
def HashCondition (p : EventThreadPool Thread Loop) (call : PoolCall Thread Loop)
    (_ : EventThreadPool Thread Loop) (_ : Option (Selected Loop)) : Prop :=
  ∀ hash, call = .getOneLoopWithHash hash → p.HashFits hash

theorem hashLaw_iff {p p' : EventThreadPool Thread Loop} {call : PoolCall Thread Loop}
    {o : Option (Selected Loop)} (hs : (eventThreadPool Thread Loop).step p call = some (p', o)) :
    p.HashLaw call p' o ↔ p.HashCondition call p' o := by
  constructor
  · intro hlaw hash heq
    subst heq
    obtain ⟨r, hr, hin⟩ := hlaw hash rfl
    cases hs
    cases hr
    exact (p.getOneLoopWithHash_inside hash).mp hin
  · intro hcond hash heq
    have hfit := hcond hash heq
    subst heq
    cases hs
    exact ⟨_, rfl, (p.getOneLoopWithHash_inside hash).mpr hfit⟩

/-- The modulus is not above the size of the pool, or there is no pool. -/
def Covered (p : EventThreadPool Thread Loop) : Prop :=
  p.eventLoopPoll = [] ∨ p.threadNum.toNat ≤ p.eventLoopPoll.length

/-- Of a covered pool every hash that is not negative selects a loop, once there is a modulus. -/
theorem Covered.hashFits_iff {p : EventThreadPool Thread Loop} (h : p.Covered) (hash : Int32) :
    p.HashFits hash ↔ p.eventLoopPoll = [] ∨
      (p.threadNum ≠ 0 ∧ (0 ≤ hash.toInt ∨ (p.threadNum.toNat : Int) ∣ hash.toInt)) := by
  unfold HashFits
  rcases h with hempty | hle
  · exact ⟨fun _ => Or.inl hempty, fun _ => Or.inl hempty⟩
  · constructor
    · intro hfit
      exact hfit.imp_right fun hfit => ⟨hfit.1, hfit.2.1⟩
    · intro hfit
      exact hfit.imp_right fun hfit => ⟨hfit.1, hfit.2, Or.inl hle⟩

theorem foldl_pushThread (p : EventThreadPool Thread Loop) (started : List (Thread × Loop)) :
    started.foldl pushThread p =
      { p with
        threadPoll := p.threadPoll ++ started.map Prod.fst
        eventLoopPoll := p.eventLoopPoll ++ started.map Prod.snd } := by
  induction started generalizing p with
  | nil => simp only [List.foldl_nil, List.map_nil, List.append_nil]
  | cons thread started ih =>
    rw [List.foldl_cons, ih]
    simp only [pushThread, List.append_assoc, List.singleton_append, List.map_cons]

/-- **`init` covers**: it adds as many loops as the modulus says. -/
theorem threadNum_le_size_of_init (p : EventThreadPool Thread Loop)
    (thread : Nat → Thread × Loop) :
    (p.init thread).threadNum.toNat ≤ (p.init thread).eventLoopPoll.length := by
  unfold init
  rw [foldl_pushThread]
  simp only [List.length_append, List.length_map, List.length_range]
  exact Nat.le_add_left _ _

/-- What makes a pool uncovered: a filled pool that is given a modulus above its size. -/
def Uncovers (p : EventThreadPool Thread Loop) (call : PoolCall Thread Loop) : Prop :=
  ∃ num, call = .setThreadNum num ∧ p.eventLoopPoll ≠ [] ∧ p.eventLoopPoll.length < num.toNat

theorem covered_step {p p' : EventThreadPool Thread Loop} {call : PoolCall Thread Loop}
    {o : Option (Selected Loop)} (hs : (eventThreadPool Thread Loop).step p call = some (p', o))
    (h : p.Covered) (hcall : ¬ p.Uncovers call) : p'.Covered := by
  cases call with
  | setThreadNum num =>
    cases hs
    by_cases hempty : p.eventLoopPoll = []
    · exact Or.inl hempty
    · exact Or.inr (Nat.not_lt.mp fun hlt => hcall ⟨num, rfl, hempty, hlt⟩)
  | init thread =>
    cases hs
    exact Or.inr (p.threadNum_le_size_of_init thread)
  | initNum num thread =>
    cases hs
    exact Or.inr (threadNum_le_size_of_init _ thread)
  | getOneLoopFromPool =>
    cases hs
    unfold Covered getOneLoopFromPool
    split <;> exact h
  | getOneLoopWithHash hash =>
    cases hs
    exact h

/-- **A pool stays covered** as long as no `setThreadNum` uncovers it. -/
theorem covered_run {loop : Loop} {calls : List (PoolCall Thread Loop)}
    {p : EventThreadPool Thread Loop} {os : List (Option (Selected Loop))}
    (hcalls : (eventThreadPool Thread Loop).Along (fun p call _ _ => ¬ p.Uncovers call) (new loop)
      calls) (h : (eventThreadPool Thread Loop).run (new loop) calls = some (p, os)) :
    p.Covered :=
  Machine.run_induct_along (P := fun _ _ p => Covered p) (Or.inl rfl)
    (fun _ _ _ _ _ _ _ hcov hs hcall => covered_step hs hcov hcall) hcalls h

/-- So in such runs a hash fails only by its sign, or where there is no modulus. -/
theorem selectsInside_of_covered_run {loop : Loop} {calls : List (PoolCall Thread Loop)}
    {p : EventThreadPool Thread Loop} {os : List (Option (Selected Loop))}
    (hcalls : (eventThreadPool Thread Loop).Along (fun p call _ _ => ¬ p.Uncovers call) (new loop)
      calls) (h : (eventThreadPool Thread Loop).run (new loop) calls = some (p, os))
    (hash : Int32) :
    p.SelectsInside (p.getOneLoopWithHash hash) ↔ p.eventLoopPoll = [] ∨
      (p.threadNum ≠ 0 ∧ (0 ≤ hash.toInt ∨ (p.threadNum.toNat : Int) ∣ hash.toInt)) := by
  rw [p.getOneLoopWithHash_inside, (covered_run hcalls h).hashFits_iff]

/-- **Hash selection, over every run of calls**: every selection stays inside the pool exactly when
    every hash fits. -/
theorem getOneLoopWithHash_inside_iff (loop : Loop) (calls : List (PoolCall Thread Loop)) :
    (eventThreadPool Thread Loop).Along HashLaw (new loop) calls ↔
      (eventThreadPool Thread Loop).Along HashCondition (new loop) calls :=
  Machine.along_iff (I := fun _ => True) (fun _ _ _ _ _ hs => ⟨hashLaw_iff hs, fun _ => trivial⟩)
    trivial

/-- A pool of two loops and the hash -1: the slot is -1. -/
theorem getOneLoopWithHash_negative :
    ¬ ∀ calls : List (PoolCall Nat Nat),
      (eventThreadPool Nat Nat).Along HashLaw (new 0) calls := by
  intro h
  have hrun := h [.initNum 2 fun i => (i, i + 1), .getOneLoopWithHash (-1)]
  obtain ⟨r, hr, hsel⟩ := ((hrun _ _ rfl).2 _ _ rfl).1 (-1) rfl
  have hout : (initNum 2 (fun i => (i, i + 1)) (new 0 : EventThreadPool Nat Nat)).getOneLoopWithHash
      (-1) = .outOfRange := by decide
  rw [hout] at hr
  cases hr
  rcases hsel with ⟨-, hmain⟩ | ⟨i, hi⟩
  · cases hmain
  · cases hi

end EventThreadPool

end PluginsEngine
