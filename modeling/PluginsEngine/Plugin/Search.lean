/-
  File:      PluginsEngine/Plugin/Search.lean
  Subject:   THE SEARCH FOR A PLUGIN, and its reference.

  `PluginSearch` says in one go, without loops and without a cache that changes, which files a
  call of `create` tries, which of them decides it and which libraries it opens. A file decides
  when it is not blacklisted, its library is valid, its function resolves and its creator gives
  no null pointer; a creator that throws ends the search too.

  * `Tries`, `Opens`, `Has`, `Decides`, `Reaches` -- the reference;
  * `Tried`, `Tried.step` -- the engine after the first files, and what one more file does;
  * `ends_createFromFiles` -- the loop over the files;
  * `Loads` -- no library is opened twice, over any sequence of calls;
  * `create_eq_search` -- a call of `create` is the search.
-/
import PluginsEngine.Plugin.PluginCreator

namespace PluginsEngine

open Library PluginCreator

/-! ## 1. The reference -/

/-- A search: the files in the order they are tried, the blacklist, the answers for each file, and
    the libraries that are loaded before. -/
structure PluginSearch where
  files : List StdString
  blacklist : List StdString
  io : Nat → FileAnswers
  libraries : Finmap fun _ : StdString => SharedLibrary

namespace PluginSearch

variable (S : PluginSearch)

/-- The `n`-th file is `path`, and is not blacklisted. -/
def Tries (n : Nat) (path : StdString) : Prop := S.files[n]? = some path ∧ path ∉ S.blacklist

/-- The library of the `n`-th file is still to be opened then: neither the engine nor an earlier
    file of this search has loaded it. -/
def Opens (n : Nat) (path : StdString) : Prop :=
  S.Tries n path ∧ S.libraries.lookup path = none ∧
    ∀ m < n, S.files[m]? = some path → (S.io m).dlopen = none

/-- The library of `path`, once the first `n` files are through. -/
def Has (n : Nat) (path : StdString) (lib : SharedLibrary) : Prop :=
  S.libraries.lookup path = some lib ∨
    ∃ m < n, S.Opens m path ∧ ∃ handle, (S.io m).dlopen = some handle ∧ lib = ⟨some handle⟩

/-- The `n`-th file decides the search, if it comes to it. -/
def Decides (n : Nat) : Prop :=
  ∃ path lib, S.Tries n path ∧ S.Has (n + 1) path lib ∧ lib.valid = true ∧
    (S.io n).dlsym = true ∧ (S.io n).creator ≠ .nullptr

/-- The search comes to the `n`-th file. -/
def Reaches (n : Nat) : Prop := n < S.files.length ∧ ∀ m < n, ¬ S.Decides m

end PluginSearch

/-- The entries of a variable: what stands between its colons, left to right, if it is not
    empty. -/
def variableEntries (env : Option StdString) : List StdString :=
  ((env.getD []).splitOn colon).filter (· ≠ [])

/-- The files of a directory in order; none, if it cannot be listed. A directory that is missing
    counts as an empty one. -/
def directoryFiles (it : DirectoryIterator) : List StdString :=
  match it.error with
  | none => it.entries.insertionSort (· ≤ ·)
  | some e => if e.noSuchFileOrDirectory then it.entries.insertionSort (· ≤ ·) else []

/-- The search a call of `create` is to make. -/
def CreateCall.search (call : CreateCall) (engine : PluginEngine) : PluginSearch where
  files := variableEntries call.pluginsEnv ++ directoryFiles call.directory
  blacklist := variableEntries call.blackListEnv
  io := call.io
  libraries := engine.sharedLibraryMap

theorem envPaths_eq (env : Option StdString) : envPaths env = variableEntries env := by
  cases env with
  | none => rfl
  | some str => exact colonSeparatedStringToPaths_eq str

/-! ## 2. One file -/

namespace PluginSearch

variable {S : PluginSearch} {k : Nat} {engine : PluginEngine} {opened : List Opening}

/-- **The engine after the first `k` files**: its libraries, and the calls of `dlopen`. -/
structure Tried (S : PluginSearch) (k : Nat) (engine : PluginEngine) (opened : List Opening) :
    Prop where
  libraries : ∀ path lib, engine.sharedLibraryMap.lookup path = some lib ↔ S.Has k path lib
  calls : ∀ o, o ∈ opened ↔
    o.file < k ∧ S.Opens o.file o.path ∧ o.handle = (S.io o.file).dlopen
  order : opened.Pairwise fun o o' => o.file < o'.file

theorem tried_zero (h : engine.sharedLibraryMap = S.libraries) : S.Tried 0 engine [] where
  libraries path lib := by
    rw [h]
    exact ⟨.inl, fun hhas => hhas.resolve_right fun ⟨m, hm, _⟩ => absurd hm (Nat.not_lt_zero m)⟩
  calls o := ⟨fun ho => absurd ho List.not_mem_nil, fun ho => absurd ho.1 (Nat.not_lt_zero _)⟩
  order := List.Pairwise.nil

theorem has_succ {path : StdString} {lib : SharedLibrary} :
    S.Has (k + 1) path lib ↔ S.Has k path lib ∨
      (S.Opens k path ∧ ∃ handle, (S.io k).dlopen = some handle ∧ lib = ⟨some handle⟩) := by
  constructor
  · intro hhas
    rcases hhas with hold | ⟨m, hm, hopens, hlib⟩
    · exact .inl (.inl hold)
    · rcases Nat.lt_succ_iff_lt_or_eq.mp hm with hlt | rfl
      · exact .inl (.inr ⟨m, hlt, hopens, hlib⟩)
      · exact .inr ⟨hopens, hlib⟩
  · intro hhas
    rcases hhas with (hold | ⟨m, hm, hopens, hlib⟩) | ⟨hopens, hlib⟩
    · exact .inl hold
    · exact .inr ⟨m, Nat.lt_succ_of_lt hm, hopens, hlib⟩
    · exact .inr ⟨k, Nat.lt_succ_self k, hopens, hlib⟩

/-- **A library is opened exactly when the engine does not have it**: an earlier file with the same
    path would have loaded it, the first of those whose `dlopen` succeeds. -/
theorem Tried.opens_iff (h : S.Tried k engine opened) {path : StdString} (htries : S.Tries k path) :
    S.Opens k path ↔ engine.sharedLibraryMap.lookup path = none := by
  constructor
  · intro hopens
    obtain ⟨-, hnone, hfailed⟩ := hopens
    refine Option.eq_none_iff_forall_ne_some.mpr fun lib hlib => ?_
    rcases (h.libraries path lib).mp hlib with hold | ⟨m, hm, hopens, handle, hhandle, -⟩
    · rw [hnone] at hold
      cases hold
    · rw [hfailed m hm hopens.1.1] at hhandle
      cases hhandle
  · intro hlookup
    have hno : ∀ lib, ¬ S.Has k path lib := by
      intro lib hlib
      rw [(h.libraries path lib).mpr hlib] at hlookup
      cases hlookup
    refine ⟨htries, Option.eq_none_iff_forall_ne_some.mpr fun lib hlib => hno lib (.inl hlib), ?_⟩
    intro m
    -- by induction the files before `m` failed, so `m` would be the first to open the library
    induction m using Nat.strong_induction_on with
    | _ m ih =>
      intro hm hfile
      refine Option.eq_none_iff_forall_ne_some.mpr fun handle hhandle => ?_
      refine hno ⟨some handle⟩ (.inr ⟨m, hm, ⟨⟨hfile, htries.2⟩, ?_, ?_⟩, handle, hhandle, rfl⟩)
      · exact Option.eq_none_iff_forall_ne_some.mpr fun lib hlib => hno lib (.inl hlib)
      · exact fun m' hm' hfile' => ih m' hm' (Nat.lt_trans hm' hm) hfile'

/-- A file that opens nothing leaves the libraries as they are. -/
theorem Tried.quiet (h : S.Tried k engine opened) (hno : ∀ path, ¬ S.Opens k path)
    {engine' : PluginEngine}
    (hsame : ∀ path, engine'.sharedLibraryMap.lookup path = engine.sharedLibraryMap.lookup path) :
    S.Tried (k + 1) engine' opened where
  libraries path lib := by
    rw [hsame, h.libraries, has_succ]
    exact ⟨.inl, fun hhas => hhas.resolve_right fun hk => hno path hk.1⟩
  calls o := by
    rw [h.calls]
    refine ⟨fun ⟨hlt, ho⟩ => ⟨Nat.lt_succ_of_lt hlt, ho⟩, fun ⟨hlt, hopens, hhandle⟩ => ?_⟩
    refine ⟨Nat.lt_of_le_of_ne (Nat.le_of_lt_succ hlt) ?_, hopens, hhandle⟩
    intro hk
    exact hno o.path (hk ▸ hopens)
  order := h.order

/-- A file that calls `dlopen` adds the call, and the library if there is one. -/
theorem Tried.open (h : S.Tried k engine opened) {path : StdString} (hopens : S.Opens k path)
    {engine' : PluginEngine}
    (hlookup : ∀ path' lib, engine'.sharedLibraryMap.lookup path' = some lib ↔
      engine.sharedLibraryMap.lookup path' = some lib ∨
        (path' = path ∧ ∃ handle, (S.io k).dlopen = some handle ∧ lib = ⟨some handle⟩)) :
    S.Tried (k + 1) engine' (opened ++ [⟨k, path, (S.io k).dlopen⟩]) where
  libraries path' lib := by
    rw [hlookup, h.libraries, has_succ]
    refine or_congr_right ⟨fun ⟨hpath, hlib⟩ => ⟨hpath ▸ hopens, hlib⟩, fun ⟨hk, hlib⟩ => ?_⟩
    exact ⟨Option.some.inj (hk.1.1.symm.trans hopens.1.1), hlib⟩
  calls o := by
    rw [List.mem_append, List.mem_singleton, h.calls]
    constructor
    · intro ho
      rcases ho with ⟨hlt, ho⟩ | rfl
      · exact ⟨Nat.lt_succ_of_lt hlt, ho⟩
      · exact ⟨Nat.lt_succ_self k, hopens, rfl⟩
    · intro ho
      obtain ⟨hlt, hopens', hhandle⟩ := ho
      rcases Nat.lt_succ_iff_lt_or_eq.mp hlt with hold | hk
      · exact .inl ⟨hold, hopens', hhandle⟩
      · obtain ⟨file, path', handle⟩ := o
        have hfile : file = k := hk
        have hopen : handle = (S.io file).dlopen := hhandle
        subst hfile hopen
        have hpath : path' = path := Option.some.inj (hopens'.1.1.symm.trans hopens.1.1)
        exact .inr (by rw [hpath])
  order := by
    refine List.pairwise_append.mpr ⟨h.order, List.pairwise_singleton _ _, fun o ho o' ho' => ?_⟩
    rw [List.mem_singleton.mp ho']
    exact ((h.calls o).mp ho).1

/-- Whether a file decides, by its library once it is through. -/
theorem Tried.decides_iff (h : S.Tried (k + 1) engine opened) {path : StdString}
    (htries : S.Tries k path) :
    S.Decides k ↔ ∃ lib, engine.sharedLibraryMap.lookup path = some lib ∧ lib.valid = true ∧
      (S.io k).dlsym = true ∧ (S.io k).creator ≠ .nullptr := by
  constructor
  · intro hdecides
    obtain ⟨path', lib, htries', hhas, hok⟩ := hdecides
    cases Option.some.inj (htries'.1.symm.trans htries.1)
    exact ⟨lib, (h.libraries path lib).mpr hhas, hok⟩
  · intro hfound
    obtain ⟨lib, hlookup, hok⟩ := hfound
    exact ⟨path, lib, htries, (h.libraries path lib).mp hlookup, hok⟩

/-- What `createFromFile` does with a file that is not blacklisted. -/
theorem createFromFile_eq {blacklist : List StdString} {n : Nat} {path : StdString}
    {io : FileAnswers} (hb : path ∉ blacklist) {lib : SharedLibrary} {calls : List Opening}
    (hget : PluginCreator.getSharedLibrary n path io engine = (lib, calls)) :
    createFromFile blacklist n path io engine =
      ⟨if lib.valid = true ∧ io.dlsym = true then io.creator else .nullptr,
        if lib.valid then engine.addSharedLibrary path lib else engine, calls⟩ := by
  have hcontains : ¬ contains path blacklist = true := fun h => hb (contains_iff.mp h)
  simp only [createFromFile, if_neg hcontains, hget, createFromSharedLibrary,
    SharedLibrary.resolveFunction]
  cases lib.valid with
  | true => simp
  | false => simp

/-- The libraries after `addSharedLibrary`. -/
theorem lookup_addSharedLibrary {path path' : StdString} {lib lib' : SharedLibrary} :
    (engine.addSharedLibrary path lib).sharedLibraryMap.lookup path' = some lib' ↔
      (path' = path ∧ lib' = lib) ∨
        (path' ≠ path ∧ engine.sharedLibraryMap.lookup path' = some lib') := by
  show (engine.sharedLibraryMap.insert path lib).lookup path' = _ ↔ _
  by_cases hpath : path' = path
  · subst hpath
    rw [Finmap.lookup_insert]
    simp only [Option.some.injEq, true_and, ne_eq, not_true_eq_false, false_and, or_false, eq_comm]
  · rw [Finmap.lookup_insert_of_ne _ hpath]
    simp only [hpath, false_and, ne_eq, not_false_eq_true, true_and, false_or]

/-- A library that was loaded before is added once more. -/
theorem lookup_addAgain {path : StdString} {lib : SharedLibrary}
    (h : engine.sharedLibraryMap.lookup path = some lib) (path' : StdString) :
    (engine.addSharedLibrary path lib).sharedLibraryMap.lookup path' =
      engine.sharedLibraryMap.lookup path' := by
  refine Option.ext fun lib' => lookup_addSharedLibrary.trans ⟨fun hnew => ?_, fun hold => ?_⟩
  · rcases hnew with ⟨rfl, rfl⟩ | ⟨-, hold⟩
    · exact h
    · exact hold
  · by_cases hpath : path' = path
    · subst hpath
      exact .inl ⟨rfl, Option.some.inj (hold.symm.trans h)⟩
    · exact .inr ⟨hpath, hold⟩

/-- **What the `k`-th file comes to**: the engine goes on as the reference says, and the creator's
    answer is returned exactly when the file decides. -/
structure Step (S : PluginSearch) (k : Nat) (opened : List Opening) (r : CreateResult) : Prop where
  tried : S.Tried (k + 1) r.engine (opened ++ r.opened)
  decides : S.Decides k → r.created = (S.io k).creator
  otherwise : ¬ S.Decides k → r.created = .nullptr

theorem step_of_decides_iff {r : CreateResult}
    (htried : S.Tried (k + 1) r.engine (opened ++ r.opened)) {valid : Bool}
    (hD : S.Decides k ↔ valid = true ∧ (S.io k).dlsym = true ∧ (S.io k).creator ≠ .nullptr)
    (hcreated : r.created =
      if valid = true ∧ (S.io k).dlsym = true then (S.io k).creator else .nullptr) :
    S.Step k opened r where
  tried := htried
  decides hd := by
    obtain ⟨hv, hs, -⟩ := hD.mp hd
    rw [hcreated, if_pos ⟨hv, hs⟩]
  otherwise hd := by
    rw [hcreated]
    split
    · rename_i hok
      by_contra hne
      exact hd (hD.mpr ⟨hok.1, hok.2, hne⟩)
    · rfl

theorem Tried.step_blacklisted (h : S.Tried k engine opened) {path : StdString}
    (hfile : S.files[k]? = some path) (hb : path ∈ S.blacklist) :
    S.Step k opened (createFromFile S.blacklist k path (S.io k) engine) := by
  have hr : createFromFile S.blacklist k path (S.io k) engine = ⟨.nullptr, engine, []⟩ := by
    rw [createFromFile, if_pos (contains_iff.mpr hb)]
  have hno : ∀ path', ¬ S.Tries k path' := by
    intro path' htries
    cases Option.some.inj (htries.1.symm.trans hfile)
    exact htries.2 hb
  have hnot : ¬ S.Decides k := by
    intro hdecides
    obtain ⟨path', lib, htries, -⟩ := hdecides
    exact hno path' htries
  rw [hr]
  refine ⟨?_, fun hd => absurd hd hnot, fun _ => rfl⟩
  rw [List.append_nil]
  exact h.quiet (fun path' hopens => hno path' hopens.1) fun _ => rfl

theorem Tried.step_loaded (h : S.Tried k engine opened) {path : StdString}
    (htries : S.Tries k path) {lib : SharedLibrary}
    (hlookup : engine.sharedLibraryMap.lookup path = some lib) :
    S.Step k opened (createFromFile S.blacklist k path (S.io k) engine) := by
  have hget : PluginCreator.getSharedLibrary k path (S.io k) engine = (lib, []) := by
    simp only [PluginCreator.getSharedLibrary, PluginEngine.getSharedLibrary, hlookup]
  have hsame : ∀ path', (if lib.valid then engine.addSharedLibrary path lib
      else engine).sharedLibraryMap.lookup path' = engine.sharedLibraryMap.lookup path' := by
    intro path'
    cases lib.valid with
    | false => rfl
    | true => exact lookup_addAgain hlookup path'
  have hno : ∀ path', ¬ S.Opens k path' := by
    intro path' hopens
    cases Option.some.inj (hopens.1.1.symm.trans htries.1)
    rw [(h.opens_iff htries).mp hopens] at hlookup
    cases hlookup
  have htried := h.quiet hno hsame
  have hD := htried.decides_iff htries
  rw [hsame, hlookup] at hD
  simp only [Option.some.injEq, exists_eq_left'] at hD
  rw [createFromFile_eq htries.2 hget]
  refine step_of_decides_iff ?_ hD rfl
  rw [List.append_nil]
  exact htried

theorem Tried.step_opened (h : S.Tried k engine opened) {path : StdString}
    (htries : S.Tries k path) (hlookup : engine.sharedLibraryMap.lookup path = none) :
    S.Step k opened (createFromFile S.blacklist k path (S.io k) engine) := by
  have hget : PluginCreator.getSharedLibrary k path (S.io k) engine =
      (⟨(S.io k).dlopen⟩, [⟨k, path, (S.io k).dlopen⟩]) := by
    simp only [PluginCreator.getSharedLibrary, PluginEngine.getSharedLibrary, hlookup]
  have hadded : ∀ path' lib, (if (SharedLibrary.mk (S.io k).dlopen).valid
      then engine.addSharedLibrary path ⟨(S.io k).dlopen⟩
      else engine).sharedLibraryMap.lookup path' = some lib ↔
        engine.sharedLibraryMap.lookup path' = some lib ∨
          (path' = path ∧ ∃ handle, (S.io k).dlopen = some handle ∧ lib = ⟨some handle⟩) := by
    intro path' lib
    cases (S.io k).dlopen with
    | none => simp [SharedLibrary.valid]
    | some handle =>
      simp only [SharedLibrary.valid, Option.isSome_some, if_true, lookup_addSharedLibrary]
      by_cases hpath : path' = path
      · subst hpath
        simp [hlookup]
      · simp [hpath]
  have htried := h.open ((h.opens_iff htries).mpr hlookup) hadded
  have hD : S.Decides k ↔ (SharedLibrary.mk (S.io k).dlopen).valid = true ∧
      (S.io k).dlsym = true ∧ (S.io k).creator ≠ .nullptr := by
    rw [htried.decides_iff htries]
    simp only [hadded, hlookup]
    cases (S.io k).dlopen with
    | none => simp [SharedLibrary.valid]
    | some handle => simp [SharedLibrary.valid]
  rw [createFromFile_eq htries.2 hget]
  exact step_of_decides_iff htried hD rfl

/-- **One more file.** -/
theorem Tried.step (h : S.Tried k engine opened) {path : StdString}
    (hfile : S.files[k]? = some path) :
    S.Step k opened (createFromFile S.blacklist k path (S.io k) engine) := by
  by_cases hb : path ∈ S.blacklist
  · exact h.step_blacklisted hfile hb
  · cases hlookup : engine.sharedLibraryMap.lookup path with
    | some lib => exact h.step_loaded ⟨hfile, hb⟩ hlookup
    | none => exact h.step_opened ⟨hfile, hb⟩ hlookup

/-! ## 3. The loops -/

/-- **How a search through the first `n` files ends**: at the first one that decides, or behind
    them all. -/
inductive Ends (S : PluginSearch) (n : Nat) (created : Created) (engine : PluginEngine)
    (opened : List Opening) : Prop where
  | found (k : Nat) (hk : k < n) (hdecides : S.Decides k) (hfirst : ∀ m < k, ¬ S.Decides m)
      (hcreated : created = (S.io k).creator) (htried : S.Tried (k + 1) engine opened)
  | through (hno : ∀ m < n, ¬ S.Decides m) (hcreated : created = .nullptr)
      (htried : S.Tried n engine opened)

theorem Decides.creator_ne (h : S.Decides k) : (S.io k).creator ≠ .nullptr := by
  obtain ⟨path, lib, -, -, -, -, hne⟩ := h
  exact hne

theorem ends_createFromFiles {n : Nat} {paths : List StdString} (htried : S.Tried n engine opened)
    (hno : ∀ m < n, ¬ S.Decides m)
    (hfiles : ∀ i path, paths[i]? = some path → S.files[n + i]? = some path) {r : CreateResult}
    (hr : createFromFiles S.blacklist S.io n paths engine = r) :
    S.Ends (n + paths.length) r.created r.engine (opened ++ r.opened) := by
  induction paths generalizing n engine opened r with
  | nil =>
    rw [createFromFiles] at hr
    subst hr
    rw [List.append_nil]
    exact .through hno rfl htried
  | cons path paths ih =>
    rw [createFromFiles] at hr
    obtain ⟨htried', hyes, hnull⟩ := htried.step (hfiles 0 path rfl)
    by_cases hd : S.Decides n
    · rw [if_neg (by rw [hyes hd]; exact hd.creator_ne)] at hr
      subst hr
      exact .found n (Nat.lt_add_of_pos_right (Nat.succ_pos _)) hd hno (hyes hd) htried'
    · rw [if_pos (hnull hd)] at hr
      subst hr
      have hno' : ∀ m < n + 1, ¬ S.Decides m := by
        intro m hm
        rcases Nat.lt_succ_iff_lt_or_eq.mp hm with hlt | rfl
        · exact hno m hlt
        · exact hd
      have hends := ih htried' hno' (fun i path' hi => (by
        rw [Nat.add_right_comm, Nat.add_assoc]
        exact hfiles (i + 1) path' hi)) rfl
      rw [List.append_assoc, Nat.add_right_comm, Nat.add_assoc] at hends
      exact hends

/-- Only the libraries of the engine matter. -/
theorem Ends.congr {n : Nat} {created : Created} (h : S.Ends n created engine opened)
    {engine' : PluginEngine} (hmap : engine'.sharedLibraryMap = engine.sharedLibraryMap) :
    S.Ends n created engine' opened := by
  have htried : ∀ {m}, S.Tried m engine opened → S.Tried m engine' opened := fun ht =>
    ⟨by rw [hmap]; exact ht.libraries, ht.calls, ht.order⟩
  cases h with
  | found k hk hdecides hfirst hcreated ht =>
    exact .found k hk hdecides hfirst hcreated (htried ht)
  | through hno hcreated ht => exact .through hno hcreated (htried ht)

end PluginSearch

theorem listDirectory_eq (path : StdString) (it : DirectoryIterator) :
    listDirectory path it = .ok (directoryFiles it) ∨
      ∃ e, listDirectory path it = .error e ∧ directoryFiles it = [] := by
  unfold listDirectory directoryFiles
  cases it.error with
  | none => exact .inl rfl
  | some e =>
    cases he : e.noSuchFileOrDirectory with
    | true => exact .inl (by simp only [he, if_true, sort])
    | false => exact .inr ⟨_, by simp only [he, Bool.false_eq_true, if_false]; rfl, by simp [he]⟩

/-- The part of `createFromDirectory` that is in the search: the directory's files come behind
    those of the variable. -/
theorem ends_createFromDirectory {S : PluginSearch} {n : Nat} {engine : PluginEngine}
    {opened : List Opening} (htried : S.Tried n engine opened) (hno : ∀ m < n, ¬ S.Decides m)
    {path typeName : StdString} {it : DirectoryIterator}
    (hfiles : ∀ i path, (directoryFiles it)[i]? = some path → S.files[n + i]? = some path)
    {r : CreateResult}
    (hr : createFromDirectory S.blacklist path it typeName S.io n engine = r) :
    ∃ created, S.Ends (n + (directoryFiles it).length) created r.engine (opened ++ r.opened) ∧
      ((r.created = created ∧ created ≠ .nullptr) ∨
        (created = .nullptr ∧ ∃ e, r.created = .throws e)) := by
  unfold createFromDirectory at hr
  rcases listDirectory_eq path it with hok | ⟨e, herror, hempty⟩
  · simp only [hok] at hr
    have hends := PluginSearch.ends_createFromFiles htried hno hfiles rfl
    split at hr
    · rename_i hnull
      subst hr
      exact ⟨.nullptr, hnull ▸ hends, .inr ⟨rfl, _, rfl⟩⟩
    · rename_i hne
      subst hr
      exact ⟨_, hends, .inl ⟨rfl, hne⟩⟩
  · simp only [herror] at hr
    subst hr
    rw [hempty, List.append_nil]
    exact ⟨.nullptr, .through hno rfl htried, .inr ⟨rfl, e, rfl⟩⟩

theorem sharedLibraryMap_register (engine : PluginEngine) (key : Nat) (created : Created) :
    (engine.register key created).sharedLibraryMap = engine.sharedLibraryMap := by
  cases created <;> rfl

/-- What the loop of `create` over the files of the variable comes to. -/
def variablePart (engine : PluginEngine) (call : CreateCall) : CreateResult :=
  createFromFiles (variableEntries call.blackListEnv) call.io 0 (variableEntries call.pluginsEnv)
    engine

/-- What `createFromDirectory` comes to behind it. -/
def directoryPart (engine : PluginEngine) (call : CreateCall) : CreateResult :=
  createFromDirectory (variableEntries call.blackListEnv) COMMON_API_PLUGINS call.directory
    call.pluginTypeName call.io (variableEntries call.pluginsEnv).length
    (variablePart engine call).engine

theorem create_of_variable {engine : PluginEngine} {call : CreateCall}
    (h : (variablePart engine call).created ≠ .nullptr) :
    create engine call = variablePart engine call := by
  unfold create
  rw [envPaths_eq, envPaths_eq]
  exact if_neg h

/-- A plugin of the directory is registered. -/
theorem create_of_directory {engine : PluginEngine} {call : CreateCall}
    (h : (variablePart engine call).created = .nullptr) :
    create engine call =
      ⟨(directoryPart engine call).created,
        (directoryPart engine call).engine.register call.key (directoryPart engine call).created,
        (variablePart engine call).opened ++ (directoryPart engine call).opened⟩ := by
  unfold create
  rw [envPaths_eq, envPaths_eq]
  exact if_pos h

theorem ends_variablePart (engine : PluginEngine) (call : CreateCall) :
    (call.search engine).Ends (variableEntries call.pluginsEnv).length
      (variablePart engine call).created (variablePart engine call).engine
      (variablePart engine call).opened := by
  have htried : (call.search engine).Tried 0 engine [] := PluginSearch.tried_zero rfl
  have hfiles : ∀ i path, (variableEntries call.pluginsEnv)[i]? = some path →
      (call.search engine).files[0 + i]? = some path := by
    intro i path hi
    rw [Nat.zero_add]
    exact (List.getElem?_append_left (List.getElem?_eq_some_iff.mp hi).1).trans hi
  have hends := PluginSearch.ends_createFromFiles htried
    (fun m hm => absurd hm (Nat.not_lt_zero m)) hfiles rfl
  rw [Nat.zero_add, List.nil_append] at hends
  exact hends

/-- **A call of `create` is its search**: it returns what the deciding creator gives, and throws
    when no file decides. -/
theorem ends_create (engine : PluginEngine) (call : CreateCall) :
    ∃ created, (call.search engine).Ends (call.search engine).files.length created
        (create engine call).engine (create engine call).opened ∧
      (((create engine call).created = created ∧ created ≠ .nullptr) ∨
        (created = .nullptr ∧ ∃ e, (create engine call).created = .throws e)) := by
  have hlength : (call.search engine).files.length =
      (variableEntries call.pluginsEnv).length + (directoryFiles call.directory).length :=
    List.length_append
  cases ends_variablePart engine call with
  | found k hk hdecides hfirst hcreated htried =>
    have hne : (variablePart engine call).created ≠ .nullptr := by
      rw [hcreated]
      exact hdecides.creator_ne
    rw [create_of_variable hne, hlength]
    exact ⟨_, .found k (Nat.lt_add_right _ hk) hdecides hfirst hcreated htried, .inl ⟨rfl, hne⟩⟩
  | through hno hcreated htried =>
    obtain ⟨created, hends, hout⟩ := ends_createFromDirectory htried hno (fun i path hi => (by
      show (variableEntries call.pluginsEnv ++ directoryFiles call.directory)[_]? = _
      rw [List.getElem?_append_right (Nat.le_add_right _ _), Nat.add_sub_cancel_left]
      exact hi)) rfl
    rw [create_of_directory hcreated, hlength]
    exact ⟨created, hends.congr (sharedLibraryMap_register _ _ _), hout⟩

namespace PluginSearch

variable {S : PluginSearch} {n : Nat} {created : Created} {engine : PluginEngine}
  {opened : List Opening}

/-- The files a search through all of them came to are those that are tried. -/
theorem Ends.tried (h : S.Ends S.files.length created engine opened) :
    ∃ n, S.Tried n engine opened ∧ ∀ m, S.Reaches m ↔ m < n := by
  cases h with
  | found k hk hdecides hfirst hcreated htried =>
    refine ⟨k + 1, htried, fun m => ⟨fun hm => ?_, fun hm => ?_⟩⟩
    · exact Nat.lt_succ_of_le (Nat.le_of_not_lt fun hlt => hm.2 k hlt hdecides)
    · have hle := Nat.le_of_lt_succ hm
      exact ⟨Nat.lt_of_le_of_lt hle hk, fun m' hm' => hfirst m' (Nat.lt_of_lt_of_le hm' hle)⟩
  | through hno hcreated htried =>
    exact ⟨S.files.length, htried, fun m =>
      ⟨fun hm => hm.1, fun hm => ⟨hm, fun m' hm' => hno m' (Nat.lt_trans hm' hm)⟩⟩⟩

/-- A search comes to one file that decides at most. -/
theorem Reaches.unique {k k' : Nat} (hk : S.Reaches k) (hdecides : S.Decides k)
    (hk' : S.Reaches k') (hdecides' : S.Decides k') : k = k' :=
  Nat.le_antisymm (Nat.le_of_not_lt fun hlt => hk.2 k' hlt hdecides')
    (Nat.le_of_not_lt fun hlt => hk'.2 k hlt hdecides)

theorem Ends.created_of_decides (h : S.Ends S.files.length created engine opened) {k : Nat}
    (hk : S.Reaches k) (hdecides : S.Decides k) : created = (S.io k).creator := by
  cases h with
  | found k' hk' hdecides' hfirst hcreated htried =>
    rw [hk.unique hdecides ⟨hk', hfirst⟩ hdecides', hcreated]
  | through hno hcreated htried => exact absurd hdecides (hno k hk.1)

theorem Ends.created_of_none (h : S.Ends S.files.length created engine opened)
    (hno : ∀ n, ¬ S.Decides n) : created = .nullptr := by
  cases h with
  | found k hk hdecides hfirst hcreated htried => exact absurd hdecides (hno k)
  | through hno' hcreated htried => exact hcreated

/-- In one search, a path whose library was opened is not opened again. -/
theorem Tried.once (h : S.Tried n engine opened) :
    opened.Pairwise fun o o' => o.handle.isSome = true → o'.path ≠ o.path := by
  refine h.order.imp_of_mem fun {o o'} ho ho' hlt hsome hpath => ?_
  obtain ⟨-, hopens, hhandle⟩ := (h.calls o).mp ho
  obtain ⟨-, hopens', -⟩ := (h.calls o').mp ho'
  have hfailed := hopens'.2.2 o.file hlt (hpath ▸ hopens.1.1)
  rw [hhandle, hfailed] at hsome
  cases hsome

end PluginSearch

/-! ## 4. Calls of `create` -/

/-- **No library is opened twice**: what an engine opened from `s` to `t` was not loaded in `s`, is
    loaded in `t` if `dlopen` gave a handle, and was not opened again then. -/
structure Loads (s t : PluginEngine) (opened : List Opening) : Prop where
  once : opened.Pairwise fun o o' => o.handle.isSome = true → o'.path ≠ o.path
  fresh : ∀ o ∈ opened, s.sharedLibraryMap.lookup o.path = none
  loaded : ∀ o ∈ opened, o.handle.isSome = true → t.sharedLibraryMap.lookup o.path ≠ none
  kept : ∀ path, s.sharedLibraryMap.lookup path ≠ none → t.sharedLibraryMap.lookup path ≠ none

namespace Loads

variable {s t u : PluginEngine} {opened opened' : List Opening}

theorem nothing (h : t.sharedLibraryMap = s.sharedLibraryMap) : Loads s t [] where
  once := List.Pairwise.nil
  fresh _ ho := absurd ho List.not_mem_nil
  loaded _ ho := absurd ho List.not_mem_nil
  kept path hpath := by
    rw [h]
    exact hpath

theorem append (h : Loads s t opened) (h' : Loads t u opened') :
    Loads s u (opened ++ opened') where
  once := by
    refine List.pairwise_append.mpr ⟨h.once, h'.once, fun o ho o' ho' hsome hpath => ?_⟩
    exact h.loaded o ho hsome (hpath ▸ h'.fresh o' ho')
  fresh o ho := by
    rcases List.mem_append.mp ho with ho | ho
    · exact h.fresh o ho
    · by_contra hpath
      exact h.kept o.path hpath (h'.fresh o ho)
  loaded o ho hsome := by
    rcases List.mem_append.mp ho with ho | ho
    · exact h'.kept o.path (h.loaded o ho hsome)
    · exact h'.loaded o ho hsome
  kept path hpath := h'.kept path (h.kept path hpath)

/-- A call of `create`. -/
theorem create (engine : PluginEngine) (call : CreateCall) :
    Loads engine (PluginCreator.create engine call).engine
      (PluginCreator.create engine call).opened := by
  obtain ⟨created, hends, -⟩ := ends_create engine call
  obtain ⟨n, htried, -⟩ := hends.tried
  refine ⟨htried.once, fun o ho => ((htried.calls o).mp ho).2.1.2.1, fun o ho hsome => ?_,
    fun path hpath => ?_⟩
  · obtain ⟨hlt, hopens, hhandle⟩ := (htried.calls o).mp ho
    obtain ⟨handle, heq⟩ := Option.isSome_iff_exists.mp hsome
    rw [(htried.libraries o.path ⟨some handle⟩).mpr
      (.inr ⟨o.file, hlt, hopens, handle, hhandle.symm.trans heq, rfl⟩)]
    exact Option.some_ne_none _
  · obtain ⟨lib, hlib⟩ := Option.ne_none_iff_exists'.mp hpath
    rw [(htried.libraries path lib).mpr (.inl hlib)]
    exact Option.some_ne_none _

/-- A run of calls and releases. -/
theorem run {ls : List PluginStep} {os : List (Option Created × List Opening)}
    (h : pluginEngine.run s ls = some (t, os)) : Loads s t (os.flatMap Prod.snd) := by
  refine Machine.run_induct (P := fun _ os t => Loads s t (os.flatMap Prod.snd)) (nothing rfl)
    (fun ls os t l t' o hI hs => ?_) h
  rw [List.flatMap_append, List.flatMap_singleton]
  refine hI.append ?_
  cases l with
  | create call =>
    simp only [pluginEngine] at hs
    split at hs
    · cases hs
      exact create t call
    · cases hs
  | release plugin =>
    cases hs
    exact nothing rfl

end Loads

/-- **The search for a plugin**, for every call of `create` on every engine. The first file that
    decides is the one whose creator's answer is returned; without one the call throws. `dlopen` is
    called for exactly the files the search comes to that are not blacklisted and whose library is
    not loaded, and the libraries afterwards are those before and the ones so opened. Over every
    run no library is opened again, whichever call opened it. -/
theorem create_eq_search (engine : PluginEngine) (call : CreateCall) :
    (∀ n, (call.search engine).Reaches n → (call.search engine).Decides n →
      (create engine call).created = (call.io n).creator) ∧
    ((∀ n, ¬ (call.search engine).Decides n) → ∃ e, (create engine call).created = .throws e) ∧
    (∀ o, o ∈ (create engine call).opened ↔ (call.search engine).Reaches o.file ∧
      (call.search engine).Opens o.file o.path ∧ o.handle = (call.io o.file).dlopen) ∧
    (∀ path lib, (create engine call).engine.sharedLibraryMap.lookup path = some lib ↔
      engine.sharedLibraryMap.lookup path = some lib ∨
        ∃ n, (call.search engine).Reaches n ∧ (call.search engine).Opens n path ∧
          ∃ handle, (call.io n).dlopen = some handle ∧ lib = ⟨some handle⟩) ∧
    ∀ ls t os, pluginEngine.run engine ls = some (t, os) →
      (os.flatMap Prod.snd).Pairwise (fun o o' => o.handle.isSome = true → o'.path ≠ o.path) ∧
      ∀ o ∈ os.flatMap Prod.snd, engine.sharedLibraryMap.lookup o.path = none := by
  obtain ⟨created, hends, hout⟩ := ends_create engine call
  obtain ⟨n, htried, hreaches⟩ := hends.tried
  refine ⟨fun k hk hdecides => ?_, fun hno => ?_, fun o => ?_, fun path lib => ?_,
    fun ls t os hrun => ⟨(Loads.run hrun).once, (Loads.run hrun).fresh⟩⟩
  · have hcreated := hends.created_of_decides hk hdecides
    rcases hout with ⟨hout, -⟩ | ⟨hnull, -⟩
    · rw [hout, hcreated]
      rfl
    · exact absurd (hcreated.symm.trans hnull) hdecides.creator_ne
  · have hnull := hends.created_of_none hno
    rcases hout with ⟨-, hne⟩ | ⟨-, hthrows⟩
    · exact absurd hnull hne
    · exact hthrows
  · rw [hreaches]
    exact htried.calls o
  · simp only [hreaches]
    exact htried.libraries path lib

end PluginsEngine
