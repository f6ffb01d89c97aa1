/-
  File:      PluginsEngine/Engine/PluginData.lean
  Subject:   WHAT PLUGINS KEEP IN THE ENGINES (plugin/PluginDataStorage.hpp,
             pluginDataStorage.cpp, engine/engine.cpp).

  A plugin draws one key for the life of the process, from a static 32-bit counter, and keeps one
  word under it in every engine that loads it. The engines know keys only, no owners. Here the
  owners are numbered in the order in which they drew, so a call names its engine and its owner.

  * `privateCells` -- what the storage is for: a cell for every engine and owner;
  * `PluginDataState.cells` -- what the maps of the engines hold, read as cells;
  * `privateCells_run` -- up to 2³² owners the two answer alike, over whole runs;
  * `pluginData_private` -- and from then on some owner reads what another one saved.
-/
import Mathlib.Algebra.Ring.Nat
import PluginsEngine.Library.FiniteMap
import PluginsEngine.Library.Runs

namespace PluginsEngine

open Library

/-! ## 1. Keys and maps -/

namespace PluginDataStorage

abbrev Key := UInt32
abbrev Data := UInt64

/-- `key++` of the static counter: the key that is returned, and the counter after it. -/
def getUniqueKey (key : Key) : Key × Key := (key, key + 1)

end PluginDataStorage

open PluginDataStorage

namespace Engine

abbrev PluginDataMap := Finmap fun _ : Key => Data

def save (pluginDataMap : PluginDataMap) (key : Key) (data : Data) : PluginDataMap :=
  let inserted := insertNew key data pluginDataMap
  -- `!ret.second`: there was an entry, which is replaced
  if key ∈ pluginDataMap then inserted.insert key data else inserted

def get (pluginDataMap : PluginDataMap) (key : Key) : Data :=
  match pluginDataMap.lookup key with
  | none => 0
  | some data => data

def remove (pluginDataMap : PluginDataMap) (key : Key) : PluginDataMap :=
  pluginDataMap.erase key

variable {m : PluginDataMap} {key other : Key} {data : Data}

theorem save_eq : save m key data = m.insert key data := by
  unfold save
  split
  case isTrue h => rw [insertNew_of_mem h]
  case isFalse h => exact insertNew_of_notMem h

theorem get_of_notMem (h : key ∉ m) : get m key = 0 := by
  rw [get, Finmap.lookup_eq_none.mpr h]

@[simp] theorem get_save_self : get (save m key data) key = data := by
  rw [save_eq, get, Finmap.lookup_insert]

@[simp] theorem get_remove_self : get (remove m key) key = 0 := by
  rw [remove, get, Finmap.lookup_erase]

theorem get_save_of_ne (h : other ≠ key) : get (save m key data) other = get m other := by
  rw [save_eq, get, get, Finmap.lookup_insert_of_ne m h]

theorem get_remove_of_ne (h : other ≠ key) : get (remove m key) other = get m other := by
  rw [remove, get, get, Finmap.lookup_erase_ne h]

end Engine

/-! ## 2. The storage and what it is for -/

/-- The counter of the process, the keys it has given out, in order, and the engines' maps. -/
structure PluginDataState where
  key : Key
  drawn : List Key
  pluginDataMap : Nat → Engine.PluginDataMap

inductive PluginDataCall where
  /-- One more owner draws its key. -/
  | getUniqueKey
  | save (engine owner : Nat) (data : Data)
  | get (engine owner : Nat)
  | remove (engine owner : Nat)
  deriving DecidableEq

namespace PluginDataState

def initial : PluginDataState := ⟨0, [], fun _ => ∅⟩

def withMap (s : PluginDataState) (engine : Nat) (m : Engine.PluginDataMap) : PluginDataState :=
  { s with pluginDataMap := Function.update s.pluginDataMap engine m }

end PluginDataState

/-- The calls of the owners on the engines. The output is the answer of `get`. -/
def pluginData : Machine PluginDataState PluginDataCall (Option Data) where
  step s
    | .getUniqueKey =>
      some ({ s with
        key := (PluginDataStorage.getUniqueKey s.key).2
        drawn := s.drawn ++ [(PluginDataStorage.getUniqueKey s.key).1] }, none)
    | .save engine owner data =>
      match s.drawn[owner]? with
      | none => none
      | some key =>
        some (s.withMap engine (Engine.save (s.pluginDataMap engine) key data), none)
    | .get engine owner =>
      match s.drawn[owner]? with
      | none => none
      | some key => some (s, some (Engine.get (s.pluginDataMap engine) key))
    | .remove engine owner =>
      match s.drawn[owner]? with
      | none => none
      | some key =>
        some (s.withMap engine (Engine.remove (s.pluginDataMap engine) key), none)

/-- A cell for every engine and owner, which is 0 while nothing is saved. -/
structure PrivateCells where
  owners : Nat
  cell : Nat → Nat → Data

namespace PrivateCells

def initial : PrivateCells := ⟨0, fun _ _ => 0⟩

def write (c : PrivateCells) (engine owner : Nat) (data : Data) : PrivateCells :=
  { c with cell := Function.update c.cell engine (Function.update (c.cell engine) owner data) }

end PrivateCells

/-- **The abstract storage**: no owner has a way to a cell of another one. -/
def privateCells : Machine PrivateCells PluginDataCall (Option Data) where
  step c
    | .getUniqueKey => some ({ c with owners := c.owners + 1 }, none)
    | .save engine owner data =>
      if owner < c.owners then some (c.write engine owner data, none) else none
    | .get engine owner =>
      if owner < c.owners then some (c, some (c.cell engine owner)) else none
    | .remove engine owner =>
      if owner < c.owners then some (c.write engine owner 0, none) else none

/-- The maps, read as cells: what `get` would answer each owner. -/
def PluginDataState.cells (s : PluginDataState) : PrivateCells where
  owners := s.drawn.length
  cell engine owner :=
    match s.drawn[owner]? with
    | none => 0
    | some key => Engine.get (s.pluginDataMap engine) key

/-! ## 3. The keys in use -/

/-- The counter has given out its values from 0 on, and the maps have entries for those only. -/
structure KeysDrawn (s : PluginDataState) : Prop where
  key : s.key = UInt32.ofNat s.drawn.length
  drawn : ∀ owner < s.drawn.length, s.drawn[owner]? = some (UInt32.ofNat owner)
  entries : ∀ engine key, key ∈ s.pluginDataMap engine →
    ∃ owner < s.drawn.length, key = UInt32.ofNat owner

theorem keysDrawn_initial : KeysDrawn .initial where
  key := rfl
  drawn _ h := absurd h (Nat.not_lt_zero _)
  entries _ _ h := absurd h Finmap.notMem_empty

/-- The keys of the first 2³² owners are different. -/
theorem ofNat_inj_of_le {n a b : Nat} (hn : n ≤ 2 ^ 32) (ha : a < n) (hb : b < n)
    (h : UInt32.ofNat a = UInt32.ofNat b) : a = b := by
  have hmod := congrArg UInt32.toNat h
  rw [UInt32.toNat_ofNat', UInt32.toNat_ofNat'] at hmod
  omega

section

variable {s s' : PluginDataState} {l : PluginDataCall} {o : Option Data} {owner engine : Nat}

theorem KeysDrawn.cell_eq (h : KeysDrawn s) (howner : owner < s.drawn.length) :
    s.cells.cell engine owner = Engine.get (s.pluginDataMap engine) (UInt32.ofNat owner) := by
  simp only [PluginDataState.cells, h.drawn owner howner]

/-- **What a call is**: it draws a key, or its owner has one and writes or reads what is under
    it in one engine. -/
theorem pluginData_cases (h : KeysDrawn s) (hs : pluginData.step s l = some (s', o)) :
    (l = .getUniqueKey ∧ o = none ∧
      s' = { s with key := s.key + 1, drawn := s.drawn ++ [s.key] }) ∨
    (∃ engine owner data, l = .save engine owner data ∧ o = none ∧ owner < s.drawn.length ∧
      s' = s.withMap engine
        (Engine.save (s.pluginDataMap engine) (UInt32.ofNat owner) data)) ∨
    (∃ engine owner, l = .get engine owner ∧ owner < s.drawn.length ∧ s' = s ∧
      o = some (Engine.get (s.pluginDataMap engine) (UInt32.ofNat owner))) ∨
    (∃ engine owner, l = .remove engine owner ∧ o = none ∧ owner < s.drawn.length ∧
      s' = s.withMap engine
        (Engine.remove (s.pluginDataMap engine) (UInt32.ofNat owner))) := by
  have hkey : ∀ {owner key}, s.drawn[owner]? = some key →
      owner < s.drawn.length ∧ key = UInt32.ofNat owner := by
    intro owner key hsome
    have hlt := (List.getElem?_eq_some_iff.mp hsome).1
    rw [h.drawn owner hlt] at hsome
    exact ⟨hlt, (Option.some.inj hsome).symm⟩
  cases l with
  | getUniqueKey =>
    cases hs
    exact .inl ⟨rfl, rfl, rfl⟩
  | save engine owner data =>
    simp only [pluginData] at hs
    split at hs
    · cases hs
    · rename_i hsome
      obtain ⟨hlt, rfl⟩ := hkey hsome
      cases hs
      exact .inr (.inl ⟨engine, owner, data, rfl, rfl, hlt, rfl⟩)
  | get engine owner =>
    simp only [pluginData] at hs
    split at hs
    · cases hs
    · rename_i hsome
      obtain ⟨hlt, rfl⟩ := hkey hsome
      cases hs
      exact .inr (.inr (.inl ⟨engine, owner, rfl, hlt, rfl, rfl⟩))
  | remove engine owner =>
    simp only [pluginData] at hs
    split at hs
    · cases hs
    · rename_i hsome
      obtain ⟨hlt, rfl⟩ := hkey hsome
      cases hs
      exact .inr (.inr (.inr ⟨engine, owner, rfl, rfl, hlt, rfl⟩))

/-- A map that is changed under one drawn key has entries for drawn keys. -/
theorem KeysDrawn.write (h : KeysDrawn s) (howner : owner < s.drawn.length)
    {m : Engine.PluginDataMap}
    (hm : ∀ key ∈ m, key = UInt32.ofNat owner ∨ key ∈ s.pluginDataMap engine) :
    KeysDrawn (s.withMap engine m) where
  key := h.key
  drawn := h.drawn
  entries e key hin := by
    rcases of_update (p := fun m => key ∈ m) hin with ⟨rfl, hnew⟩ | ⟨-, hold⟩
    · rcases hm key hnew with rfl | hold
      · exact ⟨owner, howner, rfl⟩
      · exact h.entries e key hold
    · exact h.entries e key hold

theorem keysDrawn_step (h : KeysDrawn s) (hs : pluginData.step s l = some (s', o)) :
    KeysDrawn s' := by
  rcases pluginData_cases h hs with ⟨rfl, -, rfl⟩ | ⟨engine, owner, data, rfl, -, hlt, rfl⟩ |
    ⟨engine, owner, rfl, -, rfl, -⟩ | ⟨engine, owner, rfl, -, hlt, rfl⟩
  · refine ⟨?_, fun owner hlt => ?_, fun engine key hin => ?_⟩
    · simp only [h.key, List.length_append, List.length_singleton, UInt32.ofNat_add]
      rfl
    · rw [List.length_append, List.length_singleton] at hlt
      rcases Nat.lt_succ_iff_lt_or_eq.mp hlt with hold | rfl
      · simp only [List.getElem?_append_left hold, h.drawn owner hold]
      · simp only [List.getElem?_concat_length, h.key]
    · obtain ⟨owner, hlt, rfl⟩ := h.entries engine key hin
      refine ⟨owner, ?_, rfl⟩
      rw [List.length_append, List.length_singleton]
      omega
  · refine h.write hlt fun key hin => ?_
    rw [Engine.save_eq] at hin
    exact Finmap.mem_insert.mp hin
  · exact h
  · exact h.write hlt fun key hin => .inr (Finmap.mem_erase.mp hin).2

theorem keysDrawn_of_run {ls : List PluginDataCall} {os : List (Option Data)}
    (h : pluginData.run .initial ls = some (s, os)) : KeysDrawn s :=
  Machine.run_invariant (fun _ _ _ _ => keysDrawn_step) keysDrawn_initial h

theorem drawn_length_le (h : KeysDrawn s) (hs : pluginData.step s l = some (s', o)) :
    s.drawn.length ≤ s'.drawn.length := by
  rcases pluginData_cases h hs with ⟨rfl, -, rfl⟩ | ⟨engine, owner, data, rfl, -, hlt, rfl⟩ |
    ⟨engine, owner, rfl, -, rfl, -⟩ | ⟨engine, owner, rfl, -, hlt, rfl⟩
  · rw [List.length_append]
    omega
  · exact Nat.le_refl _
  · exact Nat.le_refl _
  · exact Nat.le_refl _

/-- Only a draw gives out a key. -/
theorem drawn_of_no_draw {ls : List PluginDataCall} {t : PluginDataState}
    {os : List (Option Data)} (h : KeysDrawn s) (hrun : pluginData.run s ls = some (t, os))
    (hdraw : .getUniqueKey ∉ ls) : t.drawn = s.drawn := by
  induction ls generalizing s os with
  | nil =>
    cases hrun
    rfl
  | cons l ls ih =>
    obtain ⟨s', o, os', hs, hr, rfl⟩ := Machine.run_cons_iff.mp hrun
    obtain ⟨hl, hls⟩ := not_or.mp (mt List.mem_cons.mpr hdraw)
    rw [ih (keysDrawn_step h hs) hr hls]
    rcases pluginData_cases h hs with ⟨rfl, -, -⟩ | ⟨engine, owner, data, rfl, -, -, rfl⟩ |
      ⟨engine, owner, rfl, -, rfl, -⟩ | ⟨engine, owner, rfl, -, -, rfl⟩
    · exact absurd rfl hl
    · rfl
    · rfl
    · rfl

/-! ## 4. Up to 2³² owners -/

/-- The cells after one map has changed under the key of one owner. -/
theorem KeysDrawn.cells_withMap (h : KeysDrawn s) (hn : s.drawn.length ≤ 2 ^ 32)
    (howner : owner < s.drawn.length) {m : Engine.PluginDataMap} {data : Data}
    (hself : Engine.get m (UInt32.ofNat owner) = data)
    (hother : ∀ key, key ≠ UInt32.ofNat owner →
      Engine.get m key = Engine.get (s.pluginDataMap engine) key) :
    (s.withMap engine m).cells = s.cells.write engine owner data := by
  have hcell : ∀ e x, (s.withMap engine m).cells.cell e x =
      (s.cells.write engine owner data).cell e x := by
    intro e x
    simp only [PluginDataState.cells, PluginDataState.withMap, PrivateCells.write]
    rcases eq_or_ne e engine with rfl | he
    · rw [Function.update_self, Function.update_self]
      rcases eq_or_ne x owner with rfl | hx
      · rw [Function.update_self, h.drawn x howner]
        exact hself
      · rw [Function.update_of_ne hx]
        cases hkey : s.drawn[x]? with
        | none => rfl
        | some key =>
          -- another owner, so another key
          have hlt := (List.getElem?_eq_some_iff.mp hkey).1
          rw [h.drawn x hlt] at hkey
          cases hkey
          exact hother _ fun heq => hx (ofNat_inj_of_le hn hlt howner heq)
    · rw [Function.update_of_ne he, Function.update_of_ne he]
  exact congrArg (PrivateCells.mk s.drawn.length) (funext fun e => funext (hcell e))

/-- A new owner finds nothing under its key, as long as the key is a new one. -/
theorem KeysDrawn.cells_getUniqueKey (h : KeysDrawn s) (hn : s.drawn.length < 2 ^ 32) :
    PluginDataState.cells { s with key := s.key + 1, drawn := s.drawn ++ [s.key] } =
      { s.cells with owners := s.drawn.length + 1 } := by
  have hcell : ∀ e x, PrivateCells.cell
      (PluginDataState.cells { s with key := s.key + 1, drawn := s.drawn ++ [s.key] }) e x =
      s.cells.cell e x := by
    intro e x
    simp only [PluginDataState.cells]
    rcases Nat.lt_trichotomy x s.drawn.length with hlt | rfl | hgt
    · rw [List.getElem?_append_left hlt]
    · rw [List.getElem?_concat_length, List.getElem?_eq_none (Nat.le_refl _)]
      refine Engine.get_of_notMem fun hin => ?_
      obtain ⟨x, hx, heq⟩ := h.entries e _ hin
      rw [h.key] at heq
      have := ofNat_inj_of_le (Nat.succ_le_of_lt hn) (Nat.lt_succ_self _)
        (Nat.lt_succ_of_lt hx) heq
      omega
    · rw [List.getElem?_eq_none (by rw [List.length_append, List.length_singleton]; omega),
        List.getElem?_eq_none (by omega)]
  have hlen : (s.drawn ++ [s.key]).length = s.drawn.length + 1 := by
    rw [List.length_append, List.length_singleton]
  exact (congrArg₂ PrivateCells.mk hlen (funext fun e => funext (hcell e)))

/-- **One call, among at most 2³² owners**, is the call on the cells. -/
theorem privateCells_step (h : KeysDrawn s) (hs : pluginData.step s l = some (s', o))
    (hn : s'.drawn.length ≤ 2 ^ 32) : privateCells.step s.cells l = some (s'.cells, o) := by
  rcases pluginData_cases h hs with ⟨rfl, rfl, rfl⟩ | ⟨engine, owner, data, rfl, rfl, hlt, rfl⟩ |
    ⟨engine, owner, rfl, hlt, rfl, rfl⟩ | ⟨engine, owner, rfl, rfl, hlt, rfl⟩
  · have hroom : s.drawn.length < 2 ^ 32 := by
      rw [List.length_append, List.length_singleton] at hn
      omega
    rw [h.cells_getUniqueKey hroom]
    rfl
  · rw [h.cells_withMap hn hlt Engine.get_save_self fun _ => Engine.get_save_of_ne]
    exact if_pos hlt
  · rw [← h.cell_eq hlt]
    exact if_pos hlt
  · rw [h.cells_withMap hn hlt Engine.get_remove_self fun _ => Engine.get_remove_of_ne]
    exact if_pos hlt

/-- **Up to 2³² owners, the maps are cells**: every run shows what the run on the cells shows. -/
theorem privateCells_run {ls : List PluginDataCall} {os : List (Option Data)} {t : PluginDataState}
    (hs : KeysDrawn s) (h : pluginData.run s ls = some (t, os)) (hn : t.drawn.length ≤ 2 ^ 32) :
    privateCells.run s.cells ls = some (t.cells, os) := by
  have hrun : KeysDrawn t ∧ (t.drawn.length ≤ 2 ^ 32 →
      privateCells.run s.cells ls = some (t.cells, os)) := by
    refine Machine.run_induct (P := fun ls os t => KeysDrawn t ∧ (t.drawn.length ≤ 2 ^ 32 →
      privateCells.run s.cells ls = some (t.cells, os))) ⟨hs, fun _ => rfl⟩ ?_ h
    intro ls os t l t' o ih hstep
    refine ⟨keysDrawn_step ih.1 hstep, fun hn => ?_⟩
    have hrun := ih.2 (Nat.le_trans (drawn_length_le ih.1 hstep) hn)
    exact Machine.run_append_iff.mpr ⟨_, os, [o], hrun,
      Machine.run_cons_iff.mpr ⟨_, o, [], privateCells_step ih.1 hstep hn, rfl, rfl⟩, rfl⟩
  exact hrun.2 hn

/-! ## 5. From 2³² owners on -/

/-- The owner with the number 2³² has the key of the first one. -/
theorem KeysDrawn.first_again (h : KeysDrawn s) (hn : 2 ^ 32 < s.drawn.length) :
    s.drawn[0]? = s.drawn[2 ^ 32]? := by
  rw [h.drawn 0 (by omega), h.drawn (2 ^ 32) hn]
  rfl

/-- The calls with which the first owner notices it. -/
def overwriting : List PluginDataCall := [.remove 0 0, .save 0 (2 ^ 32) 1, .get 0 0]

/-- The first owner reads what the last one saved. -/
theorem overwriting_run (h : KeysDrawn s) (hn : 2 ^ 32 < s.drawn.length) :
    ∃ t, pluginData.run s overwriting = some (t, [none, none, some 1]) := by
  have hfirst : s.drawn[0]? = some 0 := h.drawn 0 (by omega)
  have hlast : s.drawn[2 ^ 32]? = some 0 := by rw [← h.first_again hn, hfirst]
  let removed := s.withMap 0 (Engine.remove (s.pluginDataMap 0) 0)
  let saved := removed.withMap 0 (Engine.save (removed.pluginDataMap 0) 0 1)
  have hremove : pluginData.step s (.remove 0 0) = some (removed, none) := by
    simp only [pluginData, hfirst, removed]
  have hsave : pluginData.step removed (.save 0 (2 ^ 32) 1) = some (saved, none) := by
    simp only [pluginData, show removed.drawn[2 ^ 32]? = some 0 from hlast, saved]
  have hget : pluginData.step saved (.get 0 0) = some (saved, some 1) := by
    simp only [pluginData, show saved.drawn[0]? = some 0 from hfirst]
    simp only [saved, PluginDataState.withMap, Function.update_self, Engine.get_save_self]
  refine ⟨saved, ?_⟩
  simp only [overwriting, Machine.run, hremove, hsave, hget]

/-- In its own cell it would read nothing. -/
theorem overwriting_cells {c t : PrivateCells} {os : List (Option Data)}
    (h : privateCells.run c overwriting = some (t, os)) : os = [none, none, some 0] := by
  obtain ⟨c₁, o₁, os₁, h₁, hr₁, rfl⟩ := Machine.run_cons_iff.mp h
  obtain ⟨c₂, o₂, os₂, h₂, hr₂, rfl⟩ := Machine.run_cons_iff.mp hr₁
  obtain ⟨c₃, o₃, os₃, h₃, hr₃, rfl⟩ := Machine.run_cons_iff.mp hr₂
  cases hr₃
  simp only [privateCells] at h₁ h₂ h₃
  split at h₁
  case isFalse => cases h₁
  cases h₁
  split at h₂
  case isFalse => cases h₂
  cases h₂
  split at h₃
  case isFalse => cases h₃
  cases h₃
  rfl

end

/-- **What plugins keep is private exactly up to 2³² owners**: after any run of draws and calls,
    with at most 2³² keys drawn, every answer so far was that of private cells, and every answer
    to come is, whatever the owners there are now call; with one key more, they can see that it
    is not. -/
theorem pluginData_private {ls : List PluginDataCall} {s : PluginDataState}
    {os : List (Option Data)} (h : pluginData.run .initial ls = some (s, os)) :
    (s.drawn.length ≤ 2 ^ 32 → privateCells.run .initial ls = some (s.cells, os)) ∧
      ((∀ ls' t os', pluginData.run s ls' = some (t, os') → .getUniqueKey ∉ ls' →
        privateCells.run s.cells ls' = some (t.cells, os')) ↔ s.drawn.length ≤ 2 ^ 32) := by
  have hkeys := keysDrawn_of_run h
  refine ⟨privateCells_run keysDrawn_initial h, fun hprivate => ?_, fun hn ls' t os' h' hdraw => ?_⟩
  · by_contra hmany
    obtain ⟨t, hrun⟩ := overwriting_run hkeys (by omega)
    have hcells := overwriting_cells (hprivate _ t _ hrun (by decide))
    cases hcells
  · have hlen := drawn_of_no_draw hkeys h' hdraw
    exact privateCells_run hkeys h' (by rw [hlen]; exact hn)

/-- Two owners on two engines, with the answers of each. -/
def twoOwners : List PluginDataCall :=
  [.getUniqueKey, .save 0 0 7, .getUniqueKey, .get 0 1, .save 0 1 8, .save 1 0 9, .get 0 0,
    .remove 0 0, .get 0 0, .get 1 0, .get 0 1]

theorem pluginData_private_twoOwners :
    ∃ s, pluginData.run .initial twoOwners = some (s, [none, none, none, some 0, none, none,
        some 7, none, some 0, some 9, some 8]) ∧
      (s.drawn.length ≤ 2 ^ 32 → privateCells.run .initial twoOwners = some (s.cells, [none, none,
        none, some 0, none, none, some 7, none, some 0, some 9, some 8])) := by
  have hos : (pluginData.run .initial twoOwners).map (fun p => p.2) = some [none, none, none,
      some 0, none, none, some 7, none, some 0, some 9, some 8] := by decide +kernel
  obtain ⟨⟨s, os⟩, hrun, heq⟩ := Option.map_eq_some_iff.mp hos
  cases heq
  exact ⟨s, hrun, (pluginData_private hrun).1⟩

end PluginsEngine
