/-
  File:      PluginsEngine/Plugin/PluginMap.lean
  Subject:   THE PLUGIN MAP (comapi/plugin/PluginMap.hpp).

  A multimap from keys to weak pointers. A weak pointer is the Plugin object it was made from;
  `lock()` gives that object unless it is released, which `released` says.

  * `eraseReleasedPlugins`, `updatePlugin` -- the functions;
  * `nodes_eraseReleasedPlugins` -- what the erasure leaves: all but the released ones of its key;
  * `updatePlugin_self`, `updatePlugin_keeps` -- the new plugin is in the map under its key, and
    no living one loses its place.
-/
import PluginsEngine.Library.Multimap

namespace PluginsEngine

open Library

/-- Which Plugin object. -/
abbrev PluginId := Nat

/-- `std::multimap<std::size_t, std::weak_ptr<Plugin>>`. -/
abbrev PluginMap := Multimap Nat PluginId

namespace PluginMap

variable (released : PluginId → Bool)

/-- `lock()` of a weak pointer. -/
def lock (plugin : PluginId) : Option PluginId := if released plugin then none else some plugin

/-- The loop over the range of a key; erasing the node the iterator is at leads to the next one. -/
def eraseReleasedPlugins (pluginMap : PluginMap) (key : Nat) : PluginMap :=
  (pluginMap.equalRange key).foldl
    (fun m it => if (lock released it.value).isNone then (m.erase it.id).1 else m) pluginMap

def updatePlugin (pluginMap : PluginMap) (key : Nat) (newPlugin : PluginId) : PluginMap :=
  let pluginMap := eraseReleasedPlugins released pluginMap key
  if (pluginMap.equalRange key).any fun it => lock released it.value = some newPlugin then
    pluginMap
  else pluginMap.insert key newPlugin

/-- The plugin is in the map under the key. -/
def Contains (pluginMap : PluginMap) (key : Nat) (plugin : PluginId) : Prop :=
  ∃ n ∈ pluginMap.nodes, n.key = key ∧ n.value = plugin

instance (pluginMap : PluginMap) (key : Nat) (plugin : PluginId) :
    Decidable (Contains pluginMap key plugin) :=
  inferInstanceAs (Decidable (∃ n ∈ _, _))

variable {released} {pluginMap : PluginMap} {key : Nat} {plugin : PluginId}

theorem lock_isNone : (lock released plugin).isNone = released plugin := by
  unfold lock
  split
  · rename_i h
    rw [h]
    rfl
  · rename_i h
    rw [Bool.not_eq_true] at h
    rw [h]
    rfl

theorem lock_eq_some {plugin' : PluginId} :
    lock released plugin = some plugin' ↔ released plugin = false ∧ plugin = plugin' := by
  unfold lock
  cases released plugin with
  | true => simp
  | false => simp

/-- The loop over a list of nodes erases those that are released. -/
theorem nodes_eraseLoop (its : List (Node Nat PluginId)) :
    (its.foldl (fun m it => if (lock released it.value).isNone then (m.erase it.id).1 else m)
        pluginMap).nodes =
      pluginMap.nodes.filter fun n => ∀ it ∈ its, released it.value = true → n.id ≠ it.id := by
  induction its generalizing pluginMap with
  | nil => exact (List.filter_eq_self.mpr fun n _ => by simp).symm
  | cons it its ih =>
    rw [List.foldl_cons, ih, lock_isNone]
    cases hit : released it.value with
    | true =>
      show (pluginMap.nodes.filter fun n => n.id ≠ it.id).filter _ = _
      rw [List.filter_filter]
      refine List.filter_congr fun n _ => ?_
      rw [← Bool.decide_and, decide_eq_decide, List.forall_mem_cons]
      simp only [hit, forall_const, and_comm]
    | false =>
      refine List.filter_congr fun n _ => ?_
      rw [decide_eq_decide, List.forall_mem_cons]
      simp only [hit, Bool.false_eq_true, false_implies, true_and]

/-- **The erasure** leaves all nodes but the released ones of its key, in their order. -/
theorem nodes_eraseReleasedPlugins :
    (eraseReleasedPlugins released pluginMap key).nodes =
      pluginMap.nodes.filter fun n => n.key = key → released n.value = false := by
  rw [eraseReleasedPlugins, nodes_eraseLoop]
  refine List.filter_congr fun n hn => ?_
  rw [decide_eq_decide]
  refine ⟨fun h hkey => ?_, fun h it hit hrel hid => ?_⟩
  · by_contra hrel
    exact h n (Multimap.mem_equalRange.mpr ⟨hn, hkey⟩) (Bool.not_eq_false _ ▸ hrel) rfl
  · obtain ⟨hmem, hkey⟩ := Multimap.mem_equalRange.mp hit
    have heq := Multimap.eq_of_id hn hmem hid
    subst heq
    rw [h hkey] at hrel
    cases hrel

theorem mem_eraseReleasedPlugins {n : Node Nat PluginId} :
    n ∈ (eraseReleasedPlugins released pluginMap key).nodes ↔
      n ∈ pluginMap.nodes ∧ (n.key = key → released n.value = false) := by
  rw [nodes_eraseReleasedPlugins, List.mem_filter, decide_eq_true_iff]

/-- The nodes of another key stay, expired or not. -/
theorem equalRange_eraseReleasedPlugins {key' : Nat} (h : key' ≠ key) :
    (eraseReleasedPlugins released pluginMap key).equalRange key' =
      pluginMap.equalRange key' := by
  rw [Multimap.equalRange, nodes_eraseReleasedPlugins, List.filter_filter]
  refine List.filter_congr fun n _ => ?_
  rw [← Bool.decide_and, decide_eq_decide]
  exact ⟨And.left, fun hkey => ⟨hkey, fun hk => absurd (hkey.symm.trans hk) h⟩⟩

/-- **The new plugin is in the map**, under its key. -/
theorem updatePlugin_self : Contains (updatePlugin released pluginMap key plugin) key plugin := by
  simp only [updatePlugin]
  split
  · rename_i h
    obtain ⟨n, hn, heq⟩ := List.any_eq_true.mp h
    obtain ⟨hmem, hkey⟩ := Multimap.mem_equalRange.mp hn
    exact ⟨n, hmem, hkey, (lock_eq_some.mp (of_decide_eq_true heq)).2⟩
  · exact ⟨_, Multimap.mem_insert.mpr (.inl rfl), rfl, rfl⟩

/-- **A living plugin keeps its place**, under its key. -/
theorem updatePlugin_keeps {key' : Nat} {plugin' : PluginId}
    (h : Contains pluginMap key' plugin') (halive : released plugin' = false) :
    Contains (updatePlugin released pluginMap key plugin) key' plugin' := by
  obtain ⟨n, hn, hkey, rfl⟩ := h
  have hmem : n ∈ (eraseReleasedPlugins released pluginMap key).nodes :=
    mem_eraseReleasedPlugins.mpr ⟨hn, fun _ => halive⟩
  simp only [updatePlugin]
  split
  · exact ⟨n, hmem, hkey, rfl⟩
  · exact ⟨n, Multimap.mem_insert.mpr (.inr hmem), hkey, rfl⟩

/-- **What `updatePlugin` leaves**: what the erasure leaves, and at most one new entry, when no
    living entry of the plugin is there. -/
theorem mem_updatePlugin {n : Node Nat PluginId}
    (hn : n ∈ (updatePlugin released pluginMap key plugin).nodes) :
    n ∈ (eraseReleasedPlugins released pluginMap key).nodes ∨
      (n = ⟨(eraseReleasedPlugins released pluginMap key).next, key, plugin⟩ ∧
        ∀ n' ∈ (eraseReleasedPlugins released pluginMap key).nodes, n'.key = key →
          n'.value = plugin → released n'.value = true) := by
  simp only [updatePlugin] at hn
  split at hn
  · exact Or.inl hn
  · rename_i hany
    rcases Multimap.mem_insert.mp hn with rfl | hn
    · refine Or.inr ⟨rfl, fun n' hn' hkey hvalue => ?_⟩
      by_contra hrel
      exact hany (List.any_eq_true.mpr ⟨n', Multimap.mem_equalRange.mpr ⟨hn', hkey⟩,
        decide_eq_true (lock_eq_some.mpr ⟨Bool.eq_false_iff.mpr hrel, hvalue⟩)⟩)
    · exact Or.inl hn

/-- The entries under another key stay. -/
theorem equalRange_updatePlugin {key' : Nat} (h : key' ≠ key) :
    (updatePlugin released pluginMap key plugin).equalRange key' =
      pluginMap.equalRange key' := by
  simp only [updatePlugin]
  split
  · exact equalRange_eraseReleasedPlugins h
  · rw [Multimap.equalRange_insert_of_ne (Ne.symm h), equalRange_eraseReleasedPlugins h]

end PluginMap

end PluginsEngine
