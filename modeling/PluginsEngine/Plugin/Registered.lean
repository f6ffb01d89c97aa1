/-
  File:      PluginsEngine/Plugin/Registered.lean
  Subject:   WHICH PLUGINS THE ENGINE KNOWS.

  Plugins find each other through `getExistingPlugins`. `create` registers the plugin of the
  directory; a plugin of the plugin-path variable is returned before `updatePluginMap` is reached.

  * `registered_iff` -- a plugin is known as long as it is in the map and not released;
  * `CreateEnds`, `createEnds` -- the three ways a call of `create` ends, for the plugins;
  * `allRegistered_iff` -- every plugin returned is known while it lives, exactly when no file of
    the variable gives a plugin that is not known already; and a call that throws changes nothing;
  * `plugin_of_the_variable_is_unknown` -- one file in the variable.
-/
import PluginsEngine.Library.FiniteMap
import PluginsEngine.Plugin.Search

namespace PluginsEngine

open Library PluginCreator

/-! ## 1. What the engine knows -/

namespace PluginEngine

variable {engine engine' : PluginEngine} {key : Nat} {plugin : PluginId}

/-- The plugin is in the plugin map under the key, and `getExistingPlugins` gives it. -/
def Registered (engine : PluginEngine) (key : Nat) (plugin : PluginId) : Prop :=
  engine.pluginMap.Contains key plugin ∧ plugin ∈ engine.getExistingPlugins

theorem registered_iff :
    engine.Registered key plugin ↔
      engine.pluginMap.Contains key plugin ∧ engine.released plugin = false := by
  refine and_congr_right fun hcontains => ?_
  rw [getExistingPlugins, List.mem_filterMap]
  constructor
  · intro hmem
    obtain ⟨plugin', -, hlock⟩ := hmem
    obtain ⟨halive, rfl⟩ := PluginMap.lock_eq_some.mp hlock
    exact halive
  · intro halive
    obtain ⟨n, hn, -, rfl⟩ := hcontains
    exact ⟨n.value, List.mem_map.mpr ⟨n, hn, rfl⟩, PluginMap.lock_eq_some.mpr ⟨halive, rfl⟩⟩

/-- The plugins of the engine are as before. -/
def SamePlugins (engine engine' : PluginEngine) : Prop :=
  engine'.pluginMap = engine.pluginMap ∧ engine'.released = engine.released

theorem SamePlugins.registered_iff (h : engine.SamePlugins engine') :
    engine'.Registered key plugin ↔ engine.Registered key plugin := by
  rw [PluginEngine.registered_iff, PluginEngine.registered_iff, h.1, h.2]

theorem samePlugins_createFromFile (engine : PluginEngine) (blacklist : List StdString) (n : Nat)
    (path : StdString) (io : FileAnswers) :
    engine.SamePlugins (createFromFile blacklist n path io engine).engine := by
  unfold createFromFile
  split
  · exact ⟨rfl, rfl⟩
  · cases PluginCreator.getSharedLibrary n path io engine with
    | mk lib calls =>
      simp only
      split <;> exact ⟨rfl, rfl⟩

theorem samePlugins_createFromFiles (engine : PluginEngine) (blacklist : List StdString)
    (io : Nat → FileAnswers) (n : Nat) (paths : List StdString) :
    engine.SamePlugins (createFromFiles blacklist io n paths engine).engine := by
  induction paths generalizing n engine with
  | nil => exact ⟨rfl, rfl⟩
  | cons path paths ih =>
    have hfile := samePlugins_createFromFile engine blacklist n path (io n)
    rw [createFromFiles]
    split
    · have hrest := ih (createFromFile blacklist n path (io n) engine).engine (n + 1)
      exact ⟨hrest.1.trans hfile.1, hrest.2.trans hfile.2⟩
    · exact hfile

theorem samePlugins_createFromDirectory (engine : PluginEngine) (blacklist : List StdString)
    (path : StdString) (it : DirectoryIterator) (typeName : StdString) (io : Nat → FileAnswers)
    (n : Nat) :
    engine.SamePlugins (createFromDirectory blacklist path it typeName io n engine).engine := by
  unfold createFromDirectory
  split
  · exact ⟨rfl, rfl⟩
  · rename_i paths _
    have hfiles := samePlugins_createFromFiles engine blacklist io n paths
    simp only
    split
    · exact hfiles
    · exact hfiles

end PluginEngine

theorem samePlugins_variablePart (engine : PluginEngine) (call : CreateCall) :
    engine.SamePlugins (variablePart engine call).engine :=
  PluginEngine.samePlugins_createFromFiles _ _ _ _ _

theorem samePlugins_directoryPart (engine : PluginEngine) (call : CreateCall) :
    engine.SamePlugins (directoryPart engine call).engine := by
  have h := samePlugins_variablePart engine call
  have h' := PluginEngine.samePlugins_createFromDirectory
    (variablePart engine call).engine (variableEntries call.blackListEnv)
    COMMON_API_PLUGINS call.directory call.pluginTypeName call.io
    (variableEntries call.pluginsEnv).length
  exact ⟨h'.1.trans h.1, h'.2.trans h.2⟩

/-! ## 2. What a call of `create` does to the plugins -/

/-- **How a call of `create` ends**: a file of the variable decides, and the plugins are as before;
    a file of the directory gives a plugin, which goes into the map; or it throws. -/
inductive CreateEnds (engine : PluginEngine) (call : CreateCall) (r : CreateResult) : Prop where
  | fromVariable (k : Nat) (hk : k < (variableEntries call.pluginsEnv).length)
      (hreaches : (call.search engine).Reaches k) (hdecides : (call.search engine).Decides k)
      (hcreated : r.created = (call.io k).creator) (hsame : engine.SamePlugins r.engine)
  | fromDirectory (plugin : PluginId)
      (hno : ∀ k < (variableEntries call.pluginsEnv).length, ¬ (call.search engine).Decides k)
      (hcreated : r.created = .plugin plugin)
      (hmap : r.engine.pluginMap =
        engine.pluginMap.updatePlugin engine.released call.key plugin)
      (hreleased : r.engine.released = engine.released)
  | fails (hno : ∀ k < (variableEntries call.pluginsEnv).length,
        ¬ (call.search engine).Decides k)
      (hcreated : ∀ plugin, r.created ≠ .plugin plugin) (hsame : engine.SamePlugins r.engine)

theorem createEnds (engine : PluginEngine) (call : CreateCall) :
    CreateEnds engine call (create engine call) := by
  cases ends_variablePart engine call with
  | found k hk hdecides hfirst hcreated htried =>
    have hne : (variablePart engine call).created ≠ .nullptr := by
      rw [hcreated]
      exact hdecides.creator_ne
    have hlt : k < (call.search engine).files.length :=
      Nat.lt_of_lt_of_le hk (List.sublist_append_left _ _).length_le
    rw [create_of_variable hne]
    exact .fromVariable k hk ⟨hlt, hfirst⟩ hdecides hcreated (samePlugins_variablePart engine call)
  | through hno hcreated htried =>
    have hsame := samePlugins_directoryPart engine call
    rw [create_of_directory hcreated]
    cases hd : (directoryPart engine call).created with
    | plugin plugin =>
      refine .fromDirectory plugin hno rfl ?_ hsame.2
      show (directoryPart engine call).engine.pluginMap.updatePlugin _ _ _ = _
      rw [hsame.1, hsame.2]
    | nullptr => exact .fails hno (fun plugin h => by cases h) hsame
    | throws e => exact .fails hno (fun plugin h => by cases h) hsame

/-! ## 3. Every plugin returned -/

/-- The plugins that calls of `create` have returned, each with the key of its call. -/
abbrev Returned := List (Nat × PluginId)

def recordReturned (_ : PluginEngine) (l : PluginStep) (o : Option Created × List Opening)
    (returned : Returned) : Returned :=
  match l, o.1 with
  | .create call, some (.plugin plugin) => (call.key, plugin) :: returned
  | _, _ => returned

/-- An engine in use, and the plugins it has returned. -/
def returningEngine :
    Machine (PluginEngine × Returned) PluginStep (Option Created × List Opening) :=
  pluginEngine.withHistory recordReturned

/-- Every plugin returned is known while it lives. -/
def AllRegistered (s : PluginEngine × Returned) : Prop :=
  ∀ p ∈ s.2, s.1.released p.2 = false → s.1.Registered p.1 p.2

/-- **The law of `create`**: every plugin returned is known while it lives, and a call that throws
    leaves the plugin map alone. -/
def KeepsPlugins (s : PluginEngine × Returned) (_ : PluginStep) (s' : PluginEngine × Returned)
    (o : Option Created × List Opening) : Prop :=
  AllRegistered s' ∧ ∀ e, o.1 = some (.throws e) → s'.1.pluginMap = s.1.pluginMap

/-- **No file of the variable gives an unknown plugin**: the file that decides the search, should
    it be one of the variable, gives a plugin that is known under the key already, or throws. -/
def FromDirectory (s : PluginEngine × Returned) (l : PluginStep) (_ : PluginEngine × Returned)
    (_ : Option Created × List Opening) : Prop :=
  ∀ call, l = .create call → ∀ k < (variableEntries call.pluginsEnv).length,
    (call.search s.1).Reaches k → (call.search s.1).Decides k →
      ∀ plugin, (call.io k).creator = .plugin plugin → s.1.Registered call.key plugin

section

variable {s s' : PluginEngine × Returned} {l : PluginStep} {o : Option Created × List Opening}

/-- A call of `create` as a step, with what it records. -/
theorem step_create {call : CreateCall}
    (hs : returningEngine.step s (.create call) = some (s', o)) :
    s.1.gives (create s.1 call).created = true ∧ s'.1 = (create s.1 call).engine ∧
      o.1 = some (create s.1 call).created ∧ s'.2 = recordReturned s.1 (.create call) o s.2 := by
  obtain ⟨hstep, hrecord⟩ := Machine.withHistory_step_iff.mp hs
  simp only [pluginEngine] at hstep
  split at hstep
  · rename_i hgives
    obtain ⟨hengine, ho⟩ := Prod.mk.inj (Option.some.inj hstep)
    exact ⟨hgives, hengine.symm, by rw [← ho], hrecord⟩
  · cases hstep

/-- What is recorded is what was before, and the plugin of this call. -/
theorem mem_recordReturned {engine : PluginEngine} {call : CreateCall} {created : Created}
    (ho : o.1 = some created) {returned : Returned} {p : Nat × PluginId} :
    p ∈ recordReturned engine (.create call) o returned ↔
      (∃ plugin, created = .plugin plugin ∧ p = (call.key, plugin)) ∨ p ∈ returned := by
  simp only [recordReturned, ho]
  cases created with
  | nullptr => simp
  | plugin plugin => simp [List.mem_cons]
  | throws e => simp

/-- A call of `create` after which the plugins are as before. -/
theorem keepsPlugins_of_same {call : CreateCall} (hI : AllRegistered s)
    (hs : returningEngine.step s (.create call) = some (s', o))
    (hsame : s.1.SamePlugins (create s.1 call).engine) :
    KeepsPlugins s (.create call) s' o ↔
      ∀ plugin, (create s.1 call).created = .plugin plugin → s.1.Registered call.key plugin := by
  obtain ⟨hgives, hengine, ho, hrecord⟩ := step_create hs
  rw [← hengine] at hsame
  constructor
  · intro hkeeps plugin hplugin
    obtain ⟨hall, -⟩ := hkeeps
    refine hsame.registered_iff.mp (hall (call.key, plugin) ?_ ?_)
    · rw [hrecord]
      exact (mem_recordReturned ho).mpr (.inl ⟨plugin, hplugin, rfl⟩)
    · rw [hsame.2]
      rw [hplugin] at hgives
      simpa [PluginEngine.gives] using hgives
  · intro hknown
    refine ⟨fun p hp halive => ?_, fun _ _ => hsame.1⟩
    rw [hrecord] at hp
    rw [hsame.registered_iff]
    rcases (mem_recordReturned ho).mp hp with ⟨plugin, hplugin, rfl⟩ | hold
    · exact hknown plugin hplugin
    · rw [hsame.2] at halive
      exact hI p hold halive

theorem keepsPlugins_iff_of_create {call : CreateCall} (hI : AllRegistered s)
    (hs : returningEngine.step s (.create call) = some (s', o)) :
    KeepsPlugins s (.create call) s' o ↔ FromDirectory s (.create call) s' o := by
  cases createEnds s.1 call with
  | fromVariable k hk hreaches hdecides hcreated hsame =>
    rw [keepsPlugins_of_same hI hs hsame, hcreated]
    constructor
    · intro hknown call' hcall k' hk' hreaches' hdecides'
      cases hcall
      rw [hreaches'.unique hdecides' hreaches hdecides]
      exact hknown
    · intro hok
      exact hok call rfl k hk hreaches hdecides
  | fromDirectory plugin hno hcreated hmap hreleased =>
    obtain ⟨hgives, hengine, ho, hrecord⟩ := step_create hs
    rw [← hengine] at hmap hreleased
    refine ⟨fun _ call' hcall k hk _ hdecides => ?_, fun _ => ⟨fun p hp halive => ?_, ?_⟩⟩
    · cases hcall
      exact absurd hdecides (hno k hk)
    · rw [PluginEngine.registered_iff]
      refine ⟨?_, halive⟩
      rw [hmap]
      rw [hrecord] at hp
      rcases (mem_recordReturned ho).mp hp with ⟨plugin', hplugin', rfl⟩ | hold
      · cases hcreated.symm.trans hplugin'
        exact PluginMap.updatePlugin_self
      · rw [hreleased] at halive
        exact PluginMap.updatePlugin_keeps
          (PluginEngine.registered_iff.mp (hI p hold halive)).1 halive
    · intro e he
      rw [ho, hcreated] at he
      cases he
  | fails hno hcreated hsame =>
    rw [keepsPlugins_of_same hI hs hsame]
    refine ⟨fun _ call' hcall k hk _ hdecides => ?_, fun _ plugin hplugin => ?_⟩
    · cases hcall
      exact absurd hdecides (hno k hk)
    · exact absurd hplugin (hcreated plugin)

theorem keepsPlugins_of_release {plugin : PluginId} (hI : AllRegistered s)
    (hs : returningEngine.step s (.release plugin) = some (s', o)) :
    KeepsPlugins s (.release plugin) s' o := by
  obtain ⟨hstep, hrecord⟩ := Machine.withHistory_step_iff.mp hs
  obtain ⟨hengine, ho⟩ := Prod.mk.inj (Option.some.inj hstep)
  have hreturned : s'.2 = s.2 := by
    rw [hrecord, ← ho]
    rfl
  refine ⟨fun p hp halive => ?_, fun e he => ?_⟩
  · rw [hreturned] at hp
    rw [← hengine] at halive ⊢
    rcases update_cases halive with ⟨-, htrue⟩ | ⟨-, hold⟩
    · cases htrue
    · rw [PluginEngine.registered_iff]
      exact ⟨(PluginEngine.registered_iff.mp (hI p hp hold)).1, halive⟩
  · rw [← ho] at he
    cases he

end

/-- **The plugins of an engine**, in every run from every engine. Each plugin that `create` has
    returned is known under its key while it lives, and a call that throws leaves the plugin map
    alone, exactly when no file of the plugin-path variable gives a plugin that is not known
    already. -/
theorem allRegistered_iff (engine : PluginEngine) (ls : List PluginStep) :
    returningEngine.Along KeepsPlugins (engine, []) ls ↔
      returningEngine.Along FromDirectory (engine, []) ls := by
  refine Machine.along_iff (I := AllRegistered) (fun s l s' o hI hs => ?_)
    (fun p hp => absurd hp List.not_mem_nil)
  cases l with
  | create call =>
    have hiff := keepsPlugins_iff_of_create hI hs
    exact ⟨hiff, fun hok => (hiff.mpr hok).1⟩
  | release plugin =>
    have hkeeps := keepsPlugins_of_release hI hs
    exact ⟨⟨fun _ call hcall => (by cases hcall), fun _ => hkeeps⟩, fun _ => hkeeps.1⟩

/-- A fresh engine and one file in the variable, whose creator gives a plugin. The plugin is
    returned, and `getExistingPlugins` is empty. -/
theorem plugin_of_the_variable_is_unknown :
    ¬ ∀ (engine : PluginEngine) (ls : List PluginStep),
      returningEngine.Along KeepsPlugins (engine, []) ls := by
  intro h
  have hA := h ⟨∅, .empty, fun _ => false⟩ [.create ⟨none, some [112], ⟨[], none⟩, [], 5,
    fun _ => ⟨some 1, true, .plugin 7⟩⟩]
  obtain ⟨n, hn, -⟩ := ((hA _ _ rfl).1.1 (5, 7) (.head _) rfl).1
  exact absurd hn List.not_mem_nil

end PluginsEngine
