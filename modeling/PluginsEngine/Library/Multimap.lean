/-
  File:      PluginsEngine/Library/Multimap.lean
  Subject:   ORDERED MULTIMAPS WITH STABLE ITERATORS. Names nothing of the repository.

  The nodes of a multimap stand in the order of their keys, equal keys in the order of their
  insertion. An iterator is the identity of a node, so it survives insertions and the erasure of
  other nodes; `none` is the end. Sortedness and the distinctness of the identities are fields of
  the structure.

  * `insert`, `begin`, `deref`, `erase`, `count` -- the operations;
  * `nodes_insert_perm`, `insert_behind_begin` -- an insertion adds one node, and behind the first
    one when its key is not smaller;
  * `erase_begin` -- erasing the first node gives the iterator to the new first one;
  * `equalRange`, `equalRange_insert_of_ne`, `mem_erase` -- the nodes of one key, which the
    insertion of another one leaves alone, and what an erasure leaves.
-/
import Mathlib.Order.Lattice
import Mathlib.Data.List.Perm.Basic
import Mathlib.Data.List.Pairwise

namespace PluginsEngine.Library

/-- A node: its identity, its key and its value. -/
structure Node (κ ν : Type) where
  id : Nat
  key : κ
  value : ν
  deriving DecidableEq, Repr

/-! ## 1. Lists of nodes -/

section

variable {κ ν : Type} [LinearOrder κ]

/-- `n` put at its upper bound: before the first node with a greater key. -/
def insertNode (n : Node κ ν) : List (Node κ ν) → List (Node κ ν)
  | [] => [n]
  | m :: ms => if n.key < m.key then n :: m :: ms else m :: insertNode n ms

theorem insertNode_perm (n : Node κ ν) (ms : List (Node κ ν)) :
    (insertNode n ms).Perm (n :: ms) := by
  induction ms with
  | nil => exact List.Perm.refl _
  | cons m ms ih =>
    unfold insertNode
    split
    · exact List.Perm.refl _
    · exact (ih.cons m).trans (List.Perm.swap n m ms)

theorem insertNode_cons_of_le {n m : Node κ ν} (h : m.key ≤ n.key) (ms : List (Node κ ν)) :
    insertNode n (m :: ms) = m :: insertNode n ms :=
  if_neg (not_lt.mpr h)

theorem insertNode_sorted (n : Node κ ν) {ms : List (Node κ ν)}
    (h : ms.Pairwise fun a b => a.key ≤ b.key) :
    (insertNode n ms).Pairwise fun a b => a.key ≤ b.key := by
  induction ms with
  | nil => exact List.pairwise_singleton _ _
  | cons m ms ih =>
    obtain ⟨hm, hms⟩ := List.pairwise_cons.mp h
    unfold insertNode
    by_cases hlt : n.key < m.key
    · rw [if_pos hlt]
      refine List.pairwise_cons.mpr ⟨fun x hx => ?_, h⟩
      rcases List.mem_cons.mp hx with rfl | hx
      · exact le_of_lt hlt
      · exact le_trans (le_of_lt hlt) (hm x hx)
    · rw [if_neg hlt]
      refine List.pairwise_cons.mpr ⟨fun x hx => ?_, ih hms⟩
      rcases List.mem_cons.mp ((insertNode_perm n ms).mem_iff.mp hx) with rfl | hx
      · exact not_lt.mp hlt
      · exact hm x hx

/-- The nodes of another key stay as they are, and in their order. -/
theorem filter_insertNode_of_ne {n : Node κ ν} {k : κ} (h : n.key ≠ k) (ms : List (Node κ ν)) :
    (insertNode n ms).filter (fun x => x.key = k) = ms.filter fun x => x.key = k := by
  have hn : ¬ decide (n.key = k) = true := by rw [decide_eq_true_iff]; exact h
  induction ms with
  | nil => exact List.filter_cons_of_neg hn
  | cons m ms ih =>
    unfold insertNode
    split
    · exact List.filter_cons_of_neg hn
    · rw [List.filter_cons, List.filter_cons, ih]

end

/-! ## 2. Multimaps -/

/-- **An ordered multimap**; `next` is the identity the next node will get. -/
structure Multimap (κ ν : Type) [LinearOrder κ] where
  nodes : List (Node κ ν)
  next : Nat
  sorted : nodes.Pairwise fun m n => m.key ≤ n.key
  distinct : nodes.Pairwise fun m n => m.id ≠ n.id
  id_lt : ∀ n ∈ nodes, n.id < next

namespace Multimap

variable {κ ν : Type} [LinearOrder κ]

def empty : Multimap κ ν where
  nodes := []
  next := 0
  sorted := List.Pairwise.nil
  distinct := List.Pairwise.nil
  id_lt _ hn := absurd hn List.not_mem_nil

variable (m : Multimap κ ν)

def insert (k : κ) (v : ν) : Multimap κ ν where
  nodes := insertNode ⟨m.next, k, v⟩ m.nodes
  next := m.next + 1
  sorted := insertNode_sorted _ m.sorted
  distinct := by
    refine ((insertNode_perm _ m.nodes).pairwise_iff fun h => Ne.symm h).mpr ?_
    exact List.pairwise_cons.mpr ⟨fun n hn => Nat.ne_of_gt (m.id_lt n hn), m.distinct⟩
  id_lt n hn := by
    rcases List.mem_cons.mp ((insertNode_perm _ m.nodes).mem_iff.mp hn) with rfl | hn
    · exact Nat.lt_succ_self _
    · exact Nat.lt_succ_of_lt (m.id_lt n hn)

/-- The iterator to the first node. -/
def begin : Option Nat := m.nodes.head?.map Node.id

/-- The node an iterator points to. -/
def deref (it : Nat) : Option (Node κ ν) := m.nodes.find? fun n => n.id = it

/-- The multimap without the node `it`, and the iterator to the node after it. -/
def erase (it : Nat) : Multimap κ ν × Option Nat :=
  (⟨m.nodes.filter fun n => n.id ≠ it, m.next, m.sorted.filter _, m.distinct.filter _,
      fun n hn => m.id_lt n (List.mem_filter.mp hn).1⟩,
    (m.nodes.dropWhile fun n => n.id ≠ it).tail.head?.map Node.id)

/-- How many nodes have the key `k`. -/
def count (k : κ) : Nat := m.nodes.countP fun n => n.key = k

def values : List ν := m.nodes.map Node.value

/-- The nodes with the key `k`, in order. -/
def equalRange (k : κ) : List (Node κ ν) := m.nodes.filter fun n => n.key = k

variable {m}

/-! ## 3. What they do -/

theorem nodes_insert_perm (k : κ) (v : ν) :
    (m.insert k v).nodes.Perm (⟨m.next, k, v⟩ :: m.nodes) :=
  insertNode_perm _ _

theorem mem_insert {k : κ} {v : ν} {n : Node κ ν} :
    n ∈ (m.insert k v).nodes ↔ n = ⟨m.next, k, v⟩ ∨ n ∈ m.nodes :=
  (nodes_insert_perm k v).mem_iff.trans List.mem_cons

theorem mem_equalRange {k : κ} {n : Node κ ν} :
    n ∈ m.equalRange k ↔ n ∈ m.nodes ∧ n.key = k := by
  rw [equalRange, List.mem_filter, decide_eq_true_iff]

theorem equalRange_insert_of_ne {k k' : κ} (h : k ≠ k') (v : ν) :
    (m.insert k v).equalRange k' = m.equalRange k' :=
  filter_insertNode_of_ne h _

theorem nodes_nodup : m.nodes.Nodup :=
  m.distinct.imp fun h heq => h (congrArg Node.id heq)

theorem mem_erase {it : Nat} {n : Node κ ν} :
    n ∈ (m.erase it).1.nodes ↔ n ∈ m.nodes ∧ n.id ≠ it := by
  show n ∈ m.nodes.filter (fun n => n.id ≠ it) ↔ _
  rw [List.mem_filter, decide_eq_true_iff]

/-- Two nodes with one identity are one node. -/
theorem eq_of_id {n n' : Node κ ν} (h : n ∈ m.nodes) (h' : n' ∈ m.nodes) (hid : n.id = n'.id) :
    n = n' := by
  have : Std.Symm fun a b : Node κ ν => a.id ≠ b.id := ⟨fun _ _ hab => Ne.symm hab⟩
  by_contra hne
  exact m.distinct.forall h h' hne hid

theorem first_mem {n : Node κ ν} {ns : List (Node κ ν)} (h : m.nodes = n :: ns) :
    n ∈ m.nodes := by
  rw [h]
  exact .head _

/-- The first node has the smallest key. -/
theorem key_le {n : Node κ ν} {ns : List (Node κ ν)} (h : m.nodes = n :: ns) :
    ∀ x ∈ m.nodes, n.key ≤ x.key := by
  intro x hx
  have hs := m.sorted
  rw [h] at hx hs
  rcases List.mem_cons.mp hx with rfl | hx
  · exact le_refl _
  · exact (List.pairwise_cons.mp hs).1 x hx

/-- **What is not smaller than the first key goes behind the first node.** -/
theorem insert_behind_begin {n : Node κ ν} {ns : List (Node κ ν)} (h : m.nodes = n :: ns) {k : κ}
    (hk : n.key ≤ k) (v : ν) :
    (m.insert k v).nodes = n :: insertNode ⟨m.next, k, v⟩ ns := by
  show insertNode _ m.nodes = _
  rw [h]
  exact insertNode_cons_of_le hk ns

theorem begin_eq_none : m.begin = none ↔ m.nodes = [] := by
  rw [begin, Option.map_eq_none_iff, List.head?_eq_none_iff]

theorem begin_eq_some {n : Node κ ν} {ns : List (Node κ ν)} (h : m.nodes = n :: ns) :
    m.begin = some n.id := by
  rw [begin, h]
  rfl

theorem exists_of_begin {it : Nat} (h : m.begin = some it) :
    ∃ n ns, m.nodes = n :: ns ∧ n.id = it := by
  unfold begin at h
  cases hn : m.nodes with
  | nil =>
    rw [hn] at h
    cases h
  | cons n ns =>
    rw [hn] at h
    exact ⟨n, ns, rfl, Option.some.inj h⟩

theorem deref_begin {n : Node κ ν} {ns : List (Node κ ν)} (h : m.nodes = n :: ns) :
    m.deref n.id = some n := by
  rw [deref, h]
  exact List.find?_cons_of_pos (decide_eq_true rfl)

/-- **Erasing the first node** leaves the others, and gives the iterator to the first of them. -/
theorem erase_begin {n : Node κ ν} {ns : List (Node κ ν)} (h : m.nodes = n :: ns) :
    (m.erase n.id).1.nodes = ns ∧ (m.erase n.id).2 = (m.erase n.id).1.begin := by
  have hd := m.distinct
  rw [h] at hd
  have hns : ns.filter (fun x => x.id ≠ n.id) = ns :=
    List.filter_eq_self.mpr fun x hx =>
      decide_eq_true fun e => (List.pairwise_cons.mp hd).1 x hx e.symm
  have hfilter : (m.erase n.id).1.nodes = ns := by
    show m.nodes.filter _ = ns
    rw [h, List.filter_cons_of_neg (by simp only [ne_eq, not_true_eq_false, decide_false,
      Bool.false_eq_true, not_false_eq_true]), hns]
  refine ⟨hfilter, ?_⟩
  rw [begin, hfilter]
  show (m.nodes.dropWhile _).tail.head?.map Node.id = _
  rw [h, List.dropWhile_cons_of_neg (by simp only [ne_eq, not_true_eq_false, decide_false,
    Bool.false_eq_true, not_false_eq_true]), List.tail_cons]

end Multimap

end PluginsEngine.Library
