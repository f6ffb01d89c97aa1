/-
  File:      PluginsEngine/Plugin/Existing.lean
  Subject:   THE PLUGIN MAP OVER ITS LIFE.

  Plugins are made, registered under keys with `updatePluginMap`, and released, in any order. A
  plugin is made at an address that no living one has; the address of a released plugin may be
  used again, and `updatePlugin` compares addresses.

  * `updatePluginAt` -- `updatePlugin` as it stands in the source; `updatePluginAt_eq` relates it
    to the comparison of objects, which is what it comes to while addresses tell the living apart;
  * `Tidy` -- no living plugin has two entries under a key, and the living ones have theirs where
    they were registered;
  * `existingLaw_along` -- the law of the map after every step of every run, with what
    `getExistingPlugins` gives.
-/
import PluginsEngine.Library.FiniteMap
import PluginsEngine.Plugin.PluginCreator

namespace PluginsEngine

open Library

/-! ## 1. Plugins with addresses -/

namespace PluginMap

/-- `updatePlugin`: the plugins under the key are locked and their addresses compared. -/
def updatePluginAt (address : PluginId → Nat) (released : PluginId → Bool) (pluginMap : PluginMap)
    (key : Nat) (newPlugin : PluginId) : PluginMap :=
  let pluginMap := eraseReleasedPlugins released pluginMap key
  if (pluginMap.equalRange key).any fun it =>
      (lock released it.value).any fun plugin => address plugin = address newPlugin then
    pluginMap
  else pluginMap.insert key newPlugin

/-- Among the living plugins of the map and the new one an address belongs to one. -/
theorem updatePluginAt_eq {address : PluginId → Nat} {released : PluginId → Bool}
    {pluginMap : PluginMap} {newPlugin : PluginId}
    (h : ∀ n ∈ pluginMap.nodes, released n.value = false → address n.value = address newPlugin →
      n.value = newPlugin) (key : Nat) :
    updatePluginAt address released pluginMap key newPlugin =
      updatePlugin released pluginMap key newPlugin := by
  have hany : ((eraseReleasedPlugins released pluginMap key).equalRange key).any (fun it =>
        (lock released it.value).any fun plugin => address plugin = address newPlugin) =
      ((eraseReleasedPlugins released pluginMap key).equalRange key).any fun it =>
        lock released it.value = some newPlugin := by
    rw [Bool.eq_iff_iff, List.any_eq_true, List.any_eq_true]
    refine exists_congr fun n => and_congr_right fun hn => ?_
    have hmem := (mem_eraseReleasedPlugins.mp (Multimap.mem_equalRange.mp hn).1).1
    rw [decide_eq_true_iff, lock_eq_some]
    unfold lock
    cases hrel : released n.value with
    | true => simp
    | false =>
      simp only [Bool.false_eq_true, if_false, Option.any_some, decide_eq_true_iff, true_and]
      exact ⟨h n hmem hrel, fun heq => by rw [heq]⟩
  unfold updatePluginAt updatePlugin
  simp only [hany]

end PluginMap

/-- An engine and its Plugin objects: those below `made` have been constructed. -/
structure PluginsInUse where
  engine : PluginEngine
  address : PluginId → Nat
  made : PluginId

inductive PluginUse where
  /-- A plugin is constructed at the address. -/
  | make (address : Nat)
  /-- The last reference to the plugin goes. -/
  | release (plugin : PluginId)
  | updatePlugin (key : Nat) (plugin : PluginId)

namespace PluginsInUse

/-- The plugin exists. -/
def alive (s : PluginsInUse) (plugin : PluginId) : Prop :=
  plugin < s.made ∧ s.engine.released plugin = false

instance (s : PluginsInUse) (plugin : PluginId) : Decidable (s.alive plugin) :=
  inferInstanceAs (Decidable (_ ∧ _))

def start : PluginsInUse := ⟨⟨∅, Multimap.empty, fun _ => true⟩, fun _ => 0, 0⟩

/-- No living plugin is at the address. -/
def vacant (s : PluginsInUse) (a : Nat) : Prop :=
  ∀ plugin < s.made, s.alive plugin → s.address plugin ≠ a

instance (s : PluginsInUse) (a : Nat) : Decidable (s.vacant a) :=
  inferInstanceAs (Decidable (∀ _ < _, _))

end PluginsInUse

/-- **Plugins in use.** Who registers or releases a plugin has a reference to it. -/
def pluginsInUse : Machine PluginsInUse PluginUse Unit where
  step s
    | .make a =>
      if s.vacant a then
        some (⟨{ s.engine with released := Function.update s.engine.released s.made false },
          Function.update s.address s.made a, s.made + 1⟩, ())
      else none
    | .release plugin =>
      if s.alive plugin then
        some ({ s with engine :=
          { s.engine with released := Function.update s.engine.released plugin true } }, ())
      else none
    | .updatePlugin key plugin =>
      if s.alive plugin then
        some ({ s with engine :=
          { s.engine with pluginMap :=
              s.engine.pluginMap.updatePluginAt s.address s.engine.released key plugin } }, ())
      else none

/-- The pairs passed to `updatePlugin`, after a step. -/
def passedAfter (_ : PluginsInUse) (u : PluginUse) (_ : Unit) (passed : Finset (Nat × PluginId)) :
    Finset (Nat × PluginId) :=
  match u with
  | .updatePlugin key plugin => insert (key, plugin) passed
  | _ => passed

abbrev PassedState := PluginsInUse × Finset (Nat × PluginId)

def passedPlugins : Machine PassedState PluginUse Unit :=
  pluginsInUse.withHistory passedAfter

/-! ## 2. The law -/

/-- No living plugin has two entries under one key. -/
def PluginsInUse.NoTwins (s : PluginsInUse) : Prop :=
  ∀ n ∈ s.engine.pluginMap.nodes, ∀ n' ∈ s.engine.pluginMap.nodes, n.key = n'.key →
    n.value = n'.value → s.alive n.value → n = n'

/-- **The law of the plugin map**, of one step: no living plugin twice under a key; the living
    entries are the pairs passed whose plugin lives, and `getExistingPlugins` gives these; behind
    `updatePlugin(key, _)` nothing expired is left under the key; all else is as it was. -/
structure ExistingLaw (s : PassedState) (u : PluginUse) (s' : PassedState) (_ : Unit) : Prop where
  noTwins : s'.1.NoTwins
  living : ∀ key plugin, s'.1.alive plugin →
    (s'.1.engine.pluginMap.Contains key plugin ↔ (key, plugin) ∈ s'.2)
  existing : ∃ pairs : List (Nat × PluginId), pairs.Nodup ∧
    (∀ key plugin, (key, plugin) ∈ pairs ↔ (key, plugin) ∈ s'.2 ∧ s'.1.alive plugin) ∧
    s'.1.engine.getExistingPlugins = pairs.map Prod.snd
  swept : ∀ key plugin, u = .updatePlugin key plugin →
    ∀ n ∈ s'.1.engine.pluginMap.nodes, n.key = key → s'.1.alive n.value
  others : ∀ key', (∀ plugin, u ≠ .updatePlugin key' plugin) →
    s'.1.engine.pluginMap.equalRange key' = s.1.engine.pluginMap.equalRange key'

/-! ## 3. The invariant -/

/-- **The map is tidy.** -/
structure Tidy (s : PassedState) : Prop where
  noTwins : s.1.NoTwins
  living : ∀ key plugin, s.1.alive plugin →
    (s.1.engine.pluginMap.Contains key plugin ↔ (key, plugin) ∈ s.2)
  made : ∀ n ∈ s.1.engine.pluginMap.nodes, n.value < s.1.made
  passed : ∀ p ∈ s.2, p.2 < s.1.made
  addresses : ∀ plugin plugin', s.1.alive plugin → s.1.alive plugin' →
    s.1.address plugin = s.1.address plugin' → plugin = plugin'

theorem tidy_start : Tidy (PluginsInUse.start, ∅) where
  noTwins _ hn := absurd hn List.not_mem_nil
  living _ _ h := absurd h.1 (Nat.not_lt_zero _)
  made _ hn := absurd hn List.not_mem_nil
  passed _ hp := absurd hp (Finset.notMem_empty _)
  addresses _ _ h := absurd h.1 (Nat.not_lt_zero _)

namespace Tidy

variable {s : PassedState}

/-- **What `getExistingPlugins` gives**: the plugins of the living entries, which are the living
    pairs passed, each once. -/
theorem existing (h : Tidy s) : ∃ pairs : List (Nat × PluginId), pairs.Nodup ∧
    (∀ key plugin, (key, plugin) ∈ pairs ↔ (key, plugin) ∈ s.2 ∧ s.1.alive plugin) ∧
    s.1.engine.getExistingPlugins = pairs.map Prod.snd := by
  set m := s.1.engine.pluginMap with hm
  set live := m.nodes.filter fun n => s.1.engine.released n.value = false with hlive
  have hmem : ∀ n, n ∈ live ↔ n ∈ m.nodes ∧ s.1.alive n.value := by
    intro n
    rw [hlive, List.mem_filter, decide_eq_true_iff]
    exact ⟨fun hn => ⟨hn.1, h.made n hn.1, hn.2⟩, fun hn => ⟨hn.1, hn.2.2⟩⟩
  refine ⟨live.map fun n => (n.key, n.value), ?_, fun key plugin => ?_, ?_⟩
  · -- an entry is told by its key and its living plugin
    refine (List.nodup_map_iff_inj_on (m.nodes_nodup.filter _)).mpr fun n hn n' hn' heq => ?_
    obtain ⟨hkey, hvalue⟩ := Prod.mk.inj heq
    have hn₁ := (hmem n).mp hn
    exact h.noTwins n hn₁.1 n' ((hmem n').mp hn').1 hkey hvalue hn₁.2
  · rw [List.mem_map]
    constructor
    · intro hp
      obtain ⟨n, hn, heq⟩ := hp
      obtain ⟨rfl, rfl⟩ := Prod.mk.inj heq
      obtain ⟨hn, halive⟩ := (hmem n).mp hn
      exact ⟨(h.living n.key n.value halive).mp ⟨n, hn, rfl, rfl⟩, halive⟩
    · intro hp
      obtain ⟨n, hn, rfl, rfl⟩ := (h.living key plugin hp.2).mpr hp.1
      exact ⟨n, (hmem n).mpr ⟨hn, hp.2⟩, rfl⟩
  · show (m.nodes.map Node.value).filterMap (PluginMap.lock s.1.engine.released) = _
    rw [List.filterMap_map, List.map_map, hlive, ← List.filterMap_eq_map, List.filterMap_filter]
    refine List.filterMap_congr fun n _ => ?_
    show PluginMap.lock s.1.engine.released n.value = _
    unfold PluginMap.lock
    cases s.1.engine.released n.value <;> rfl

/-! ### The steps -/

/-- What a step has to keep of the map, when it changes the map in no way. -/
theorem law_of_same (h : Tidy s) {s₀ : PassedState} {u : PluginUse} {o : Unit}
    (hmap : s.1.engine.pluginMap = s₀.1.engine.pluginMap)
    (hu : ∀ key plugin, u ≠ .updatePlugin key plugin) : ExistingLaw s₀ u s o where
  noTwins := h.noTwins
  living := h.living
  existing := h.existing
  swept key plugin heq := absurd heq (hu key plugin)
  others key' _ := by rw [hmap]

theorem make (h : Tidy s) {a : Nat} (hv : s.1.vacant a) :
    Tidy (⟨{ s.1.engine with released := Function.update s.1.engine.released s.1.made false },
      Function.update s.1.address s.1.made a, s.1.made + 1⟩, s.2) := by
  set s' : PluginsInUse :=
    ⟨{ s.1.engine with released := Function.update s.1.engine.released s.1.made false },
      Function.update s.1.address s.1.made a, s.1.made + 1⟩ with hs'
  -- the living plugins are the new one and those of before
  have halive : ∀ plugin, s'.alive plugin → plugin = s.1.made ∨ s.1.alive plugin := by
    intro plugin hp
    by_cases heq : plugin = s.1.made
    · exact Or.inl heq
    · have hrel : s.1.engine.released plugin = false := by
        rw [← hp.2]
        exact (Function.update_of_ne heq _ _).symm
      exact Or.inr ⟨Nat.lt_of_le_of_ne (Nat.le_of_lt_succ hp.1) heq, hrel⟩
  have hold : ∀ plugin < s.1.made, s'.alive plugin → s.1.alive plugin := by
    intro plugin hlt hp
    exact (halive plugin hp).resolve_left (Nat.ne_of_lt hlt)
  refine ⟨fun n hn n' hn' hkey hvalue hp => ?_, fun key plugin hp => ?_,
    fun n hn => Nat.lt_succ_of_lt (h.made n hn), fun p hp => Nat.lt_succ_of_lt (h.passed p hp),
    fun plugin plugin' hp hp' haddr => ?_⟩
  · exact h.noTwins n hn n' hn' hkey hvalue (hold _ (h.made n hn) hp)
  · rcases halive plugin hp with rfl | hp
    · refine iff_of_false (fun hc => ?_) fun hpassed => Nat.lt_irrefl _ (h.passed _ hpassed)
      obtain ⟨n, hn, -, hvalue⟩ := hc
      exact Nat.lt_irrefl _ (hvalue ▸ h.made n hn)
    · exact h.living key plugin hp
  · have hnew : ∀ q, s.1.alive q → s'.address q = s.1.address q := fun q hq =>
      Function.update_of_ne (Nat.ne_of_lt hq.1) _ _
    have hself : s'.address s.1.made = a := Function.update_self _ _ _
    rcases halive plugin hp with rfl | hp₁
    · rcases halive plugin' hp' with rfl | hp₂
      · rfl
      · rw [hself, hnew _ hp₂] at haddr
        exact absurd haddr.symm (hv plugin' hp₂.1 hp₂)
    · rcases halive plugin' hp' with rfl | hp₂
      · rw [hself, hnew _ hp₁] at haddr
        exact absurd haddr (hv plugin hp₁.1 hp₁)
      · rw [hnew _ hp₁, hnew _ hp₂] at haddr
        exact h.addresses plugin plugin' hp₁ hp₂ haddr

theorem release (h : Tidy s) (plugin : PluginId) :
    Tidy ({ s.1 with engine :=
      { s.1.engine with released := Function.update s.1.engine.released plugin true } }, s.2) := by
  set s' : PluginsInUse := { s.1 with engine :=
    { s.1.engine with released := Function.update s.1.engine.released plugin true } } with hs'
  -- nobody comes to life
  have halive : ∀ p, s'.alive p → s.1.alive p := by
    intro p hp
    rcases update_cases hp.2 with ⟨-, hc⟩ | ⟨-, hrel⟩
    · cases hc
    · exact ⟨hp.1, hrel⟩
  exact ⟨fun n hn n' hn' hkey hvalue hp => h.noTwins n hn n' hn' hkey hvalue (halive _ hp),
    fun key p hp => h.living key p (halive p hp), h.made, h.passed,
    fun p p' hp hp' => h.addresses p p' (halive p hp) (halive p' hp')⟩

/-- The engine after `updatePlugin`; the addresses of the living tell them apart. -/
theorem updatePluginAt_eq (h : Tidy s) {plugin : PluginId} (hp : s.1.alive plugin) (key : Nat) :
    s.1.engine.pluginMap.updatePluginAt s.1.address s.1.engine.released key plugin =
      s.1.engine.pluginMap.updatePlugin s.1.engine.released key plugin :=
  PluginMap.updatePluginAt_eq (fun n hn hrel haddr =>
    h.addresses n.value plugin ⟨h.made n hn, hrel⟩ hp haddr) key

/-- The entries after `updatePlugin`: those kept, of living plugins where the key is the one
    updated, and that of the new plugin. -/
theorem mem_updatePluginMap (h : Tidy s) {key : Nat} {plugin : PluginId} {n : Node Nat PluginId}
    (hn : n ∈ (s.1.engine.pluginMap.updatePlugin s.1.engine.released key plugin).nodes) :
    (n ∈ s.1.engine.pluginMap.nodes ∧ (n.key = key → s.1.alive n.value)) ∨
      (n.key = key ∧ n.value = plugin) := by
  rcases PluginMap.mem_updatePlugin hn with hn | ⟨rfl, -⟩
  · obtain ⟨hmem, hrel⟩ := PluginMap.mem_eraseReleasedPlugins.mp hn
    exact Or.inl ⟨hmem, fun hkey => ⟨h.made n hmem, hrel hkey⟩⟩
  · exact Or.inr ⟨rfl, rfl⟩

/-- `updatePlugin` keeps the map tidy. -/
theorem tidy_updatePlugin (h : Tidy s) {key : Nat} {plugin : PluginId} (hp : s.1.alive plugin) :
    Tidy ({ s.1 with engine := s.1.engine.updatePluginMap key plugin },
      insert (key, plugin) s.2) := by
  refine ⟨fun n hn n' hn' hkey hvalue ha => ?_,
    fun key' p ha => ⟨fun hc => ?_, fun hpassed => ?_⟩, fun n hn => ?_, fun p hpassed => ?_,
    h.addresses⟩
  · -- both were there, or the new one would stand beside a living one
    have hliving : s.1.engine.released n.value ≠ true := Bool.eq_false_iff.mp ha.2
    rcases PluginMap.mem_updatePlugin hn with hn | ⟨rfl, hnone⟩
    · rcases PluginMap.mem_updatePlugin hn' with hn' | ⟨rfl, hnone⟩
      · exact h.noTwins n (PluginMap.mem_eraseReleasedPlugins.mp hn).1 n'
          (PluginMap.mem_eraseReleasedPlugins.mp hn').1 hkey hvalue ha
      · exact absurd (hnone n hn hkey hvalue) hliving
    · rcases PluginMap.mem_updatePlugin hn' with hn' | ⟨rfl, -⟩
      · have hrel := hnone n' hn' hkey.symm hvalue.symm
        rw [← hvalue] at hrel
        exact absurd hrel hliving
      · rfl
  · obtain ⟨n, hn, rfl, rfl⟩ := hc
    rcases h.mem_updatePluginMap hn with ⟨hn, -⟩ | ⟨hk, hv⟩
    · exact Finset.mem_insert_of_mem ((h.living n.key n.value ha).mp ⟨n, hn, rfl, rfl⟩)
    · rw [hk, hv]
      exact Finset.mem_insert_self _ _
  · rcases Finset.mem_insert.mp hpassed with heq | hpassed
    · obtain ⟨rfl, rfl⟩ := Prod.mk.inj heq
      exact PluginMap.updatePlugin_self
    · exact PluginMap.updatePlugin_keeps ((h.living key' p ha).mpr hpassed) ha.2
  · rcases h.mem_updatePluginMap hn with ⟨hn, -⟩ | ⟨-, hv⟩
    · exact h.made n hn
    · rw [hv]
      exact hp.1
  · rcases Finset.mem_insert.mp hpassed with rfl | hpassed
    · exact hp.1
    · exact h.passed p hpassed

theorem updatePlugin (h : Tidy s) {key : Nat} {plugin : PluginId} (hp : s.1.alive plugin)
    {o : Unit} :
    Tidy ({ s.1 with engine := s.1.engine.updatePluginMap key plugin },
        insert (key, plugin) s.2) ∧
      ExistingLaw s (.updatePlugin key plugin)
        ({ s.1 with engine := s.1.engine.updatePluginMap key plugin },
          insert (key, plugin) s.2) o := by
  have htidy : Tidy ({ s.1 with engine := s.1.engine.updatePluginMap key plugin },
      insert (key, plugin) s.2) := h.tidy_updatePlugin hp
  refine ⟨htidy, htidy.noTwins, htidy.living, htidy.existing, fun key' plugin' heq n hn hk => ?_,
    fun key' hne => ?_⟩
  · cases heq
    rcases h.mem_updatePluginMap hn with ⟨-, ha⟩ | ⟨-, hv⟩
    · exact ha hk
    · rw [hv]
      exact hp
  · have hkey : key' ≠ key := fun hk => hne plugin (by rw [hk])
    exact PluginMap.equalRange_updatePlugin hkey

theorem step (h : Tidy s) {u : PluginUse} {s' : PassedState} {o : Unit}
    (hs : passedPlugins.step s u = some (s', o)) : Tidy s' ∧ ExistingLaw s u s' o := by
  obtain ⟨s₁, passed⟩ := s'
  obtain ⟨hstep, hpassed⟩ := Machine.withHistory_step_iff.mp hs
  dsimp only at hstep hpassed
  subst hpassed
  cases u with
  | make a =>
    simp only [pluginsInUse] at hstep
    split at hstep
    · rename_i hv
      obtain ⟨rfl, -⟩ := Prod.mk.inj (Option.some.inj hstep)
      have htidy := h.make hv
      exact ⟨htidy, htidy.law_of_same rfl fun _ _ => PluginUse.noConfusion⟩
    · cases hstep
  | release plugin =>
    simp only [pluginsInUse] at hstep
    split at hstep
    · obtain ⟨rfl, -⟩ := Prod.mk.inj (Option.some.inj hstep)
      have htidy := h.release plugin
      exact ⟨htidy, htidy.law_of_same rfl fun _ _ => PluginUse.noConfusion⟩
    · cases hstep
  | updatePlugin key plugin =>
    simp only [pluginsInUse] at hstep
    split at hstep
    · rename_i hp
      obtain ⟨rfl, -⟩ := Prod.mk.inj (Option.some.inj hstep)
      rw [h.updatePluginAt_eq hp]
      exact h.updatePlugin hp
    · cases hstep

end Tidy

/-- **The plugin map over every run**: whatever plugins are made, registered and released, in any
    order and with addresses used again, every step keeps the law of the map. -/
theorem existingLaw_along (us : List PluginUse) :
    passedPlugins.Along ExistingLaw (PluginsInUse.start, ∅) us :=
  Machine.along_of_invariant (I := Tidy) (fun _ _ _ _ h hs => h.step hs) tidy_start

/-- A plugin is registered under two keys and released; one made at its address is registered
    under the first of them. -/
example : (pluginsInUse.run PluginsInUse.start
      [.make 64, .updatePlugin 1 0, .updatePlugin 2 0, .release 0, .make 64,
        .updatePlugin 1 1]).map (fun p =>
        (p.1.engine.pluginMap.nodes.map fun n => (n.key, n.value),
          p.1.engine.getExistingPlugins)) = some ([(1, 1), (2, 0)], [1]) := by
  decide

end PluginsEngine
