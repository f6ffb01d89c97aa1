/-
  File:      PluginsEngine/Plugin/PluginCreator.lean
  Subject:   LOADING PLUGINS (plugin/pluginCreator.cpp, sharedLibrary.cpp, engine/utilMap.hpp).

  `create` tries the files of the plugin-path variable, then those of the plugin directory, until
  a creator gives a plugin. The dynamic loader and the creators are outside the program: each file
  tried, the `n`-th of a call, comes with what they answer should they be asked, `io n`. So
  `functionName` and `extraArgs`, which only they get, are not there, and nothing relates the
  answers to the path or to each other.

  * `colonSeparatedStringToPaths_eq` -- the loop over the bytes splits at the colons and leaves
    the empty parts out;
  * `listDirectory_sorted` -- the files of the directory in order;
  * `create` -- both loops;
  * `pluginEngine` -- an engine in use: calls of `create`, and releases of plugins.
-/
import Mathlib.Data.Finmap
import Mathlib.Data.List.Sort
import Mathlib.Logic.Function.Basic
import PluginsEngine.Library.Runs
import PluginsEngine.Plugin.PluginMap

namespace PluginsEngine

open Library

/-! ## 1. Strings and what the outside answers -/

/-- A `std::string`: its bytes. -/
abbrev StdString := List UInt8

def StdString.ofText (text : String) : StdString := text.toUTF8.data.toList

/-- What is thrown: a text, or what a creator threw. -/
inductive PluginError where
  | text (message : StdString)
  | creator (exception : Nat)
  deriving DecidableEq

/-- What a creator comes to. -/
inductive Created where
  | nullptr
  | plugin (plugin : PluginId)
  | throws (e : PluginError)
  deriving DecidableEq

/-- What the loader and the creator answer for one file: the handle of `dlopen`, whether `dlsym`
    finds the function, and what that comes to. -/
structure FileAnswers where
  dlopen : Option Nat
  dlsym : Bool
  creator : Created

/-- A `std::filesystem::filesystem_error`. -/
structure FilesystemError where
  noSuchFileOrDirectory : Bool
  what : StdString

/-- What a `directory_iterator` gives: its entries, and the error that ends it, should one. -/
structure DirectoryIterator where
  entries : List StdString
  error : Option FilesystemError

namespace PluginCreator

/-- ':' -/
def colon : UInt8 := 58

/-- The loop of `colonSeparatedStringToPaths`; `candidate` is what stands between `previous` and
    `i`. -/
def colonLoop (candidate : StdString) : StdString → List StdString
  | [] => if candidate = [] then [] else [candidate]
  | c :: rest =>
    if c = colon then
      if candidate = [] then colonLoop [] rest else candidate :: colonLoop [] rest
    else colonLoop (candidate ++ [c]) rest

def colonSeparatedStringToPaths (str : StdString) : List StdString := colonLoop [] str

/-- `std::sort` by the bytes. -/
def sort (paths : List StdString) : List StdString := paths.insertionSort (· ≤ ·)

def listDirectory (path : StdString) (it : DirectoryIterator) :
    Except PluginError (List StdString) :=
  match it.error with
  | none => .ok (sort it.entries)
  | some e =>
    if e.noSuchFileOrDirectory then .ok (sort it.entries)
    else .error (.text (.ofText "Error listing directory " ++ path ++ .ofText ": " ++ e.what))

def contains (s : StdString) (v : List StdString) : Bool := v.any fun i => i = s

theorem contains_iff {s : StdString} {v : List StdString} : contains s v = true ↔ s ∈ v := by
  simp [contains]

/-- The loop goes on with the part it is in, which splitting a list keeps in reverse. -/
theorem colonLoop_eq (candidate str : StdString) :
    colonLoop candidate str =
      (str.splitOnPPrepend (· == colon) candidate.reverse).filter (· ≠ []) := by
  induction str generalizing candidate with
  | nil =>
    rw [List.splitOnPPrepend_nil, List.reverse_reverse, colonLoop]
    by_cases hempty : candidate = []
    · rw [if_pos hempty, List.filter_cons_of_neg (by simpa using hempty), List.filter_nil]
    · rw [if_neg hempty, List.filter_cons_of_pos (by simpa using hempty), List.filter_nil]
  | cons c rest ih =>
    have hrest : colonLoop [] rest = (rest.splitOnP (· == colon)).filter (· ≠ []) := ih []
    rw [List.splitOnPPrepend_cons_eq_if, colonLoop]
    by_cases hc : c = colon
    · rw [if_pos hc, if_pos (beq_iff_eq.mpr hc), List.reverse_reverse, hrest]
      by_cases hempty : candidate = []
      · rw [if_pos hempty, List.filter_cons_of_neg (by simpa using hempty)]
      · rw [if_neg hempty, List.filter_cons_of_pos (by simpa using hempty)]
    · rw [if_neg hc, if_neg (by simpa using hc), ih, List.reverse_append, List.reverse_singleton,
        List.singleton_append]

/-- **The entries of a variable**: its parts between the colons, left to right, but the empty
    ones. -/
theorem colonSeparatedStringToPaths_eq (str : StdString) :
    colonSeparatedStringToPaths str = (str.splitOn colon).filter (· ≠ []) := by
  rw [colonSeparatedStringToPaths, colonLoop_eq, List.splitOn_eq_splitOnP]
  rfl

example : colonSeparatedStringToPaths [1, 58, 2, 58, 58, 3] = [[1], [2], [3]] := by decide

/-- **The files of a directory**, in order. -/
theorem listDirectory_sorted {path : StdString} {it : DirectoryIterator} {paths : List StdString}
    (h : listDirectory path it = .ok paths) :
    paths.Perm it.entries ∧ paths.Pairwise (· ≤ ·) := by
  have hsort : (sort it.entries).Perm it.entries ∧ (sort it.entries).Pairwise (· ≤ ·) :=
    ⟨List.perm_insertionSort _ _, List.pairwise_insertionSort _ _⟩
  unfold listDirectory at h
  split at h
  · cases h
    exact hsort
  · split at h
    · cases h
      exact hsort
    · cases h

end PluginCreator

/-! ## 2. The engine and its shared libraries -/

/-- A `SharedLibrary`: the handle its constructor got from `dlopen`. -/
structure SharedLibrary where
  handle : Option Nat
  deriving DecidableEq

namespace SharedLibrary

def valid (lib : SharedLibrary) : Bool := lib.handle.isSome

/-- Whether `resolveFunction` gives a function: `dlsym` looks it up in a valid library only. -/
def resolveFunction (lib : SharedLibrary) (io : FileAnswers) : Bool := lib.valid && io.dlsym

end SharedLibrary

/-- The engine's shared libraries and plugins, and which Plugin objects are released. -/
structure PluginEngine where
  sharedLibraryMap : Finmap fun _ : StdString => SharedLibrary
  pluginMap : PluginMap
  released : PluginId → Bool

namespace PluginEngine

variable (engine : PluginEngine)

/-- `Map::add` replaces. -/
def addSharedLibrary (key : StdString) (lib : SharedLibrary) : PluginEngine :=
  { engine with sharedLibraryMap := engine.sharedLibraryMap.insert key lib }

/-- `Map::get`. -/
def getSharedLibrary (key : StdString) : Option SharedLibrary :=
  engine.sharedLibraryMap.lookup key

def updatePluginMap (key : Nat) (plugin : PluginId) : PluginEngine :=
  { engine with pluginMap := engine.pluginMap.updatePlugin engine.released key plugin }

def getExistingPlugins : List PluginId :=
  engine.pluginMap.values.filterMap (PluginMap.lock engine.released)

end PluginEngine

/-! ## 3. Creating a plugin -/

/-- A call of `dlopen`: for which file tried, its path, and the handle. -/
structure Opening where
  file : Nat
  path : StdString
  handle : Option Nat
  deriving DecidableEq

/-- What a function that tries files returns or throws, the engine then, and the calls of `dlopen`
    in order. -/
structure CreateResult where
  created : Created
  engine : PluginEngine
  opened : List Opening

/-- The arguments and the environment of a call of `create`. -/
structure CreateCall where
  blackListEnv : Option StdString
  pluginsEnv : Option StdString
  directory : DirectoryIterator
  pluginTypeName : StdString
  key : Nat
  io : Nat → FileAnswers

/-- The end of `create`, behind `createFromDirectory`: the plugin goes into the plugin map. -/
def PluginEngine.register (engine : PluginEngine) (key : Nat) (created : Created) : PluginEngine :=
  match created with
  | .plugin plugin => engine.updatePluginMap key plugin
  | _ => engine

namespace PluginCreator

def COMMON_API_PLUGINS : StdString := .ofText "/usr/local/libexec"

/-- `getSharedLibrary` for the file `n`. -/
def getSharedLibrary (n : Nat) (path : StdString) (io : FileAnswers) (engine : PluginEngine) :
    SharedLibrary × List Opening :=
  match engine.getSharedLibrary path with
  | some lib => (lib, [])
  | none => (⟨io.dlopen⟩, [⟨n, path, io.dlopen⟩])

def createFromSharedLibrary (lib : SharedLibrary) (io : FileAnswers) : Created :=
  if lib.resolveFunction io then io.creator else .nullptr

def createFromFile (blacklist : List StdString) (n : Nat) (path : StdString) (io : FileAnswers)
    (engine : PluginEngine) : CreateResult :=
  if contains path blacklist then ⟨.nullptr, engine, []⟩
  else
    let (lib, opened) := getSharedLibrary n path io engine
    if lib.valid then
      ⟨createFromSharedLibrary lib io, engine.addSharedLibrary path lib, opened⟩
    else ⟨.nullptr, engine, opened⟩

/-- The loops of `create` and `createFromDirectory`: the files from the `n`-th one on, until one
    gives a plugin or throws. -/
def createFromFiles (blacklist : List StdString) (io : Nat → FileAnswers) :
    Nat → List StdString → PluginEngine → CreateResult
  | _, [], engine => ⟨.nullptr, engine, []⟩
  | n, path :: paths, engine =>
    let r := createFromFile blacklist n path (io n) engine
    if r.created = .nullptr then
      let r' := createFromFiles blacklist io (n + 1) paths r.engine
      { r' with opened := r.opened ++ r'.opened }
    else r

def createFromDirectory (blacklist : List StdString) (path : StdString) (it : DirectoryIterator)
    (pluginTypeName : StdString) (io : Nat → FileAnswers) (n : Nat) (engine : PluginEngine) :
    CreateResult :=
  match listDirectory path it with
  | .error e => ⟨.throws e, engine, []⟩
  | .ok paths =>
    let r := createFromFiles blacklist io n paths engine
    if r.created = .nullptr then
      { r with created := .throws (.text
          (.ofText "No plugins found in " ++ path ++ pluginTypeName ++ .ofText "\n")) }
    else r

/-- The entries of a variable, which may not be set. -/
def envPaths (env : Option StdString) : List StdString :=
  match env with
  | some str => colonSeparatedStringToPaths str
  | none => []

def create (engine : PluginEngine) (call : CreateCall) : CreateResult :=
  let blacklist := envPaths call.blackListEnv
  let paths := envPaths call.pluginsEnv
  let r := createFromFiles blacklist call.io 0 paths engine
  if r.created = .nullptr then
    let ret := createFromDirectory blacklist COMMON_API_PLUGINS call.directory call.pluginTypeName
      call.io paths.length r.engine
    ⟨ret.created, ret.engine.register call.key ret.created, r.opened ++ ret.opened⟩
  else r  -- a plugin of the variable is returned here, past `updatePluginMap`

end PluginCreator

/-! ## 4. Engines in use -/

inductive PluginStep where
  | create (call : CreateCall)
  /-- The last reference to a plugin goes. -/
  | release (plugin : PluginId)

/-- A plugin that a creator gives is not released. -/
def PluginEngine.gives (engine : PluginEngine) (created : Created) : Bool :=
  match created with
  | .plugin plugin => !engine.released plugin
  | _ => true

/-- An engine in use. The output of `create` is what it comes to and its calls of `dlopen`. -/
def pluginEngine : Machine PluginEngine PluginStep (Option Created × List Opening) where
  step engine
    | .create call =>
      let r := PluginCreator.create engine call
      if engine.gives r.created then
        some (r.engine, (some r.created, r.opened))
      else none
    | .release plugin =>
      some ({ engine with released := Function.update engine.released plugin true }, (none, []))

end PluginsEngine
