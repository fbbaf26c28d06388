import Qtrade.Lib.Runs
import Qtrade.Lib.Table
import Qtrade.Sdk

/-!
# Strategy plugins

`strategy_plugin_loader.cpp` over a dynamic linker that counts how often each library is open.
-/

namespace Qtrade.Strategy

/-! ## The linker -/

/-- What `dlopen` returns: the same for the same library, each time. -/
structure Handle where
  number : Nat
deriving DecidableEq

/-- The address of a symbol. -/
structure Symbol where
  library : Handle
  name : String
deriving DecidableEq

/-- `faulted` after a handle was closed that was not open. -/
structure Linker where
  opened : Multiset Handle := 0
  faulted : Bool := false
deriving DecidableEq

namespace Linker

def dlopen (s : Linker) (handle : Handle) : Linker := { s with opened := handle ::ₘ s.opened }

def dlclose (s : Linker) (handle : Handle) : Linker :=
  { opened := s.opened.erase handle, faulted := s.faulted || !decide (handle ∈ s.opened) }

/-- Closes them all, in any order. -/
def dlcloseAll (s : Linker) (handles : Multiset Handle) : Linker :=
  { opened := s.opened - handles, faulted := s.faulted || !decide (handles ≤ s.opened) }

theorem dlclose_dlopen (s : Linker) (handle : Handle) : (s.dlopen handle).dlclose handle = s := by
  simp [dlopen, dlclose]

theorem dlcloseAll_list (s : Linker) (handles : List Handle) :
    s.dlcloseAll handles = handles.foldl dlclose s := by
  induction handles generalizing s with
  | nil => simp [dlcloseAll]
  | cons handle rest ih =>
    rw [List.foldl_cons, ← ih, ← Multiset.cons_coe]
    have hopened : s.opened - (handle ::ₘ (rest : Multiset Handle)) = s.opened.erase handle - rest :=
      Multiset.sub_cons handle s.opened rest
    have hle : handle ::ₘ (rest : Multiset Handle) ≤ s.opened ↔
        handle ∈ s.opened ∧ (rest : Multiset Handle) ≤ s.opened.erase handle := by
      constructor
      · intro h
        have hmem := Multiset.mem_of_le h (Multiset.mem_cons_self handle rest)
        refine ⟨hmem, ?_⟩
        rwa [← Multiset.cons_le_cons_iff handle, Multiset.cons_erase hmem]
      · rintro ⟨hmem, h⟩
        rwa [← Multiset.cons_erase hmem, Multiset.cons_le_cons_iff]
    unfold dlcloseAll dlclose
    rw [hopened, decide_eq_decide.mpr hle, Bool.decide_and, Bool.not_and, Bool.or_assoc]

end Linker

/-! ## The loader -/

/-- What a file holds: its library and the symbols of it, and what two of its functions answer. A null pointer for a
name is `none`. -/
structure Image where
  handle : Handle
  exports : List String
  abiVersion : Int := 1
  pluginName : Option String := none

def symAbiVersion : String := "qtrade_strategy_abi_version"

def symPluginName : String := "qtrade_strategy_plugin_name"

def symCreate : String := "qtrade_strategy_create"

def symDestroy : String := "qtrade_strategy_destroy"

def strategyAbiVersion : Int := 1

/-- `Lookup`. -/
def Image.lookup (image : Image) (symbol : String) : Option Symbol :=
  if symbol ∈ image.exports then some ⟨image.handle, symbol⟩ else none

/-- The name of the plugin that the library is. -/
def Image.offered (image : Image) : Option String :=
  if [symCreate, symDestroy, symAbiVersion, symPluginName].all (· ∈ image.exports) ∧
      image.abiVersion = strategyAbiVersion then
    image.pluginName.filter (· ≠ "")
  else none

/-- An entry is made complete, so none of its pointers is null. -/
structure StrategyPluginEntry where
  dlHandle : Handle
  path : String
  pluginName : String
  create : Symbol
  destroy : Symbol
deriving DecidableEq

/-- A file of a directory, and what `dlopen` finds in it. -/
structure DirectoryEntry where
  path : String
  isRegularFile : Bool := true
  image : Option Image := none

structure Directory where
  isDirectory : Bool := true
  entries : List DirectoryEntry := []

/-- `std::filesystem::path::extension`: the filename from its last dot on, unless it begins there or is `..`. -/
def extension (path : String) : String :=
  let filename := path.toList.reverse.takeWhile (· ≠ '/')
  if filename = ['.'] ∨ filename = ['.', '.'] then ""
  else
    match filename.dropWhile (· ≠ '.') with
    | _ :: _ :: _ => String.ofList ('.' :: (filename.takeWhile (· ≠ '.')).reverse)
    | _ => ""

structure StrategyPluginLoader where
  plugins : Table String StrategyPluginEntry := ∅
  linker : Linker := {}

namespace StrategyPluginLoader

def loadFileLocked (s : StrategyPluginLoader) (soPath : String) (image : Option Image) :
    ErrorCode × StrategyPluginLoader :=
  match image with
  | none => (.dynamicLibraryLoadError, s)
  | some image =>
    let opened := s.linker.dlopen image.handle
    let closed := { s with linker := opened.dlclose image.handle }
    match image.lookup symCreate, image.lookup symDestroy, image.lookup symAbiVersion, image.lookup symPluginName with
    | some create, some destroy, some _, some _ =>
      if image.abiVersion ≠ strategyAbiVersion then (.dynamicLibrarySymbolTypeMismatch, closed)
      else
        match image.pluginName with
        | none => (.dynamicLibrarySymbolParseError, closed)
        | some pluginName =>
          if pluginName = "" then (.dynamicLibrarySymbolParseError, closed)
          else if (s.plugins.lookup pluginName).isSome then (.dynamicLibrarySymbolRegisterError, closed)
          else
            (.success,
              { plugins := s.plugins.insert pluginName
                  { dlHandle := image.handle, path := soPath, pluginName, create, destroy }
                linker := opened })
    | _, _, _, _ => (.dynamicLibrarySymbolNotFound, closed)

def loadFile (s : StrategyPluginLoader) (soPath : String) (image : Option Image) :
    ErrorCode × StrategyPluginLoader :=
  s.loadFileLocked soPath image

/-- The body of the loop. A file that cannot be loaded is passed over. -/
def loadEntry (s : StrategyPluginLoader) (entry : DirectoryEntry) : StrategyPluginLoader :=
  if !entry.isRegularFile then s
  else if extension entry.path ≠ ".so" then s
  else (s.loadFileLocked entry.path entry.image).2

/-- A directory that cannot be opened has no entries. -/
def loadStrategyPlugin (s : StrategyPluginLoader) (directory : Directory) : ErrorCode × StrategyPluginLoader :=
  if !directory.isDirectory then (.notSuchFileOrDirectory, s)
  else (.success, directory.entries.foldl loadEntry s)

/-- The functions that make a strategy and destroy it. -/
def create (s : StrategyPluginLoader) (pluginName : String) : Option (Symbol × Symbol) :=
  (s.plugins.lookup pluginName).map fun entry => (entry.create, entry.destroy)

def unloadAll (s : StrategyPluginLoader) : StrategyPluginLoader :=
  { plugins := ∅, linker := s.linker.dlcloseAll (Table.valuesBy (·.dlHandle) s.plugins) }

/-! ## One file -/

/-- The entry of a plugin. -/
def entryOf (soPath : String) (image : Image) (pluginName : String) : StrategyPluginEntry where
  dlHandle := image.handle
  path := soPath
  pluginName
  create := ⟨image.handle, symCreate⟩
  destroy := ⟨image.handle, symDestroy⟩

/-- The loader with one plugin more, whose library is open once more. -/
def add (s : StrategyPluginLoader) (soPath : String) (image : Image) (pluginName : String) : StrategyPluginLoader where
  plugins := s.plugins.insert pluginName (entryOf soPath image pluginName)
  linker := s.linker.dlopen image.handle

variable {s : StrategyPluginLoader}

theorem loadFileLocked_cases (s : StrategyPluginLoader) (soPath : String) (image : Option Image) :
    (∃ found pluginName, image = some found ∧ found.offered = some pluginName ∧
      s.plugins.lookup pluginName = none ∧ s.loadFileLocked soPath image = (.success, s.add soPath found pluginName)) ∨
    ((∀ pluginName, image.bind Image.offered = some pluginName → (s.plugins.lookup pluginName).isSome = true) ∧
      (s.loadFileLocked soPath image).1 ≠ .success ∧ (s.loadFileLocked soPath image).2 = s) := by
  cases image with
  | none => exact Or.inr ⟨nofun, by simp [loadFileLocked], rfl⟩
  | some image =>
    have hclosed : { s with linker := (s.linker.dlopen image.handle).dlclose image.handle } = s := by
      rw [Linker.dlclose_dlopen]
    simp only [loadFileLocked, hclosed, Option.bind_some]
    by_cases hsymbols : [symCreate, symDestroy, symAbiVersion, symPluginName].all (· ∈ image.exports) = true
    case neg =>
      have hnone : image.offered = none := if_neg fun h => hsymbols h.1
      simp only [List.all_cons, List.all_nil, Bool.and_true, Bool.and_eq_true, decide_eq_true_eq, not_and] at hsymbols
      refine Or.inr ⟨by simp [hnone], ?_⟩
      unfold Image.lookup
      by_cases hcreate : symCreate ∈ image.exports <;> by_cases hdestroy : symDestroy ∈ image.exports <;>
        by_cases habi : symAbiVersion ∈ image.exports <;> by_cases hname : symPluginName ∈ image.exports <;>
          simp_all
    case pos =>
      have hall := hsymbols
      simp only [List.all_cons, List.all_nil, Bool.and_true, Bool.and_eq_true, decide_eq_true_eq] at hall
      obtain ⟨hcreate, hdestroy, habi, hname⟩ := hall
      simp only [Image.lookup, hcreate, hdestroy, habi, hname, if_true]
      by_cases hversion : image.abiVersion = strategyAbiVersion
      case neg => exact Or.inr ⟨by simp [Image.offered, hversion], by simp [hversion]⟩
      case pos =>
        have hoffered : image.offered = image.pluginName.filter (· ≠ "") := if_pos ⟨hsymbols, hversion⟩
        rw [hoffered, if_neg (not_not.mpr hversion)]
        cases hplugin : image.pluginName with
        | none => exact Or.inr ⟨by simp, by simp⟩
        | some pluginName =>
          by_cases hempty : pluginName = ""
          · exact Or.inr ⟨by simp [hempty], by simp [hempty]⟩
          · cases hold : s.plugins.lookup pluginName with
            | some entry => exact Or.inr ⟨by simp [hempty, hold], by simp [hempty, hold]⟩
            | none =>
              refine Or.inl ⟨image, pluginName, rfl, ?_, hold, ?_⟩
              · simp [hoffered, hplugin, hempty]
              · simp [hempty, hold, add, entryOf]

/-! ## What is open -/

/-- Each library is open as often as the table has entries of it, and each entry is a plugin's under its name. -/
structure Accounted (s : StrategyPluginLoader) : Prop where
  opened : s.linker.opened = Table.valuesBy (·.dlHandle) s.plugins
  faulted : s.linker.faulted = false
  named : ∀ pluginName entry, s.plugins.lookup pluginName = some entry →
    pluginName ≠ "" ∧ entry.pluginName = pluginName
  symbols : ∀ pluginName entry, s.plugins.lookup pluginName = some entry →
    entry.create = ⟨entry.dlHandle, symCreate⟩ ∧ entry.destroy = ⟨entry.dlHandle, symDestroy⟩

theorem accounted_fresh : Accounted {} := ⟨rfl, rfl, by simp, by simp⟩

theorem Image.offered_ne {image : Image} {pluginName : String} (h : image.offered = some pluginName) :
    pluginName ≠ "" := by
  unfold Image.offered at h
  split at h
  case isTrue => simpa using (Option.filter_eq_some_iff.mp h).2
  case isFalse => cases h

theorem lookup_add (s : StrategyPluginLoader) (soPath : String) (image : Image) (pluginName k : String) :
    (s.add soPath image pluginName).plugins.lookup k =
      if k = pluginName then some (entryOf soPath image pluginName) else s.plugins.lookup k :=
  Table.lookup_store _ _ _ _

theorem Accounted.add (h : s.Accounted) (soPath : String) {image : Image} {pluginName : String}
    (hoffered : image.offered = some pluginName) (hnew : s.plugins.lookup pluginName = none) :
    (s.add soPath image pluginName).Accounted := by
  refine ⟨?_, h.faulted, fun k entry hk => ?_, fun k entry hk => ?_⟩
  · have hinsert := Table.valuesBy_insert (·.dlHandle) hnew (entryOf soPath image pluginName)
    show image.handle ::ₘ s.linker.opened = _
    rw [h.opened]
    exact hinsert.symm
  · rw [lookup_add] at hk
    split at hk
    case isTrue hsame =>
      cases hk
      exact ⟨hsame ▸ Image.offered_ne hoffered, hsame.symm⟩
    case isFalse => exact h.named k entry hk
  · rw [lookup_add] at hk
    split at hk
    case isTrue =>
      cases hk
      exact ⟨rfl, rfl⟩
    case isFalse => exact h.symbols k entry hk

theorem Accounted.loadFileLocked (h : s.Accounted) (soPath : String) (image : Option Image) :
    (s.loadFileLocked soPath image).2.Accounted := by
  rcases loadFileLocked_cases s soPath image with ⟨found, pluginName, -, hoffered, hnew, hload⟩ | ⟨-, -, hsame⟩
  · rw [hload]
    exact h.add soPath hoffered hnew
  · rw [hsame]
    exact h

theorem Accounted.loadEntry (h : s.Accounted) (entry : DirectoryEntry) : (s.loadEntry entry).Accounted := by
  unfold StrategyPluginLoader.loadEntry
  split_ifs
  · exact h
  · exact h
  · exact h.loadFileLocked _ _

theorem Accounted.loadStrategyPlugin (h : s.Accounted) (directory : Directory) :
    (s.loadStrategyPlugin directory).2.Accounted := by
  unfold StrategyPluginLoader.loadStrategyPlugin
  split
  case isTrue => exact h
  case isFalse =>
    dsimp only
    generalize directory.entries = entries
    induction entries generalizing s with
    | nil => exact h
    | cons entry rest ih => exact ih (h.loadEntry entry)

/-- Everything that was opened is closed, and nothing else. -/
theorem Accounted.unloadAll (h : s.Accounted) : s.unloadAll = {} := by
  have hlinker : s.linker.dlcloseAll (Table.valuesBy (·.dlHandle) s.plugins) = {} := by
    rw [← h.opened]
    simp [Linker.dlcloseAll, h.faulted]
  unfold StrategyPluginLoader.unloadAll
  rw [hlinker]

/-! ### Runs -/

inductive Op
  | loadFile (soPath : String) (image : Option Image)
  | loadStrategyPlugin (directory : Directory)
  | unloadAll

def perform (s : StrategyPluginLoader) : Op → StrategyPluginLoader
  | .loadFile soPath image => (s.loadFile soPath image).2
  | .loadStrategyPlugin directory => (s.loadStrategyPlugin directory).2
  | .unloadAll => s.unloadAll

def step (s : StrategyPluginLoader) (op : Op) : Option StrategyPluginLoader := some (s.perform op)

/-- Whatever is loaded in whatever order, each library is open as often as an entry needs it, no handle is closed
that is not open, and after `UnloadAll` (and so after the destructor) nothing is open. -/
theorem handles_accounted (h : Runs.Reaches step Runs.anyStep {} s) :
    s.Accounted ∧ s.unloadAll.linker = {} := by
  have haccounted : s.Accounted := by
    refine h.invariant accounted_fresh fun s op s' hs _ hstep => ?_
    cases hstep
    cases op with
    | loadFile soPath image => exact hs.loadFileLocked soPath image
    | loadStrategyPlugin directory => exact hs.loadStrategyPlugin directory
    | unloadAll =>
      show s.unloadAll.Accounted
      rw [hs.unloadAll]
      exact accounted_fresh
  exact ⟨haccounted, by rw [haccounted.unloadAll]⟩

/-- A plugin that is complete. -/
def plugin (number : Nat) (pluginName : String) : Image where
  handle := ⟨number⟩
  exports := [symCreate, symDestroy, symAbiVersion, symPluginName]
  pluginName := some pluginName

/-- A directory with one library under two paths, and a file that is no plugin. -/
def pluginDir : Directory where
  entries :=
    [{ path := "a.so", image := some (plugin 1 "a") }, { path := "b.so", image := some (plugin 1 "a") },
      { path := "c.so", image := some (plugin 2 "c") },
      { path := "d.so", image := some { handle := ⟨3⟩, exports := [] } }]

theorem handles_accounted_twice :
    (({} : StrategyPluginLoader).loadStrategyPlugin pluginDir).2.linker.opened = {⟨1⟩, ⟨2⟩} ∧
      (({} : StrategyPluginLoader).loadStrategyPlugin pluginDir).2.unloadAll.linker = {} := by
  have hreaches : Runs.Reaches step Runs.anyStep {} (({} : StrategyPluginLoader).loadStrategyPlugin pluginDir).2 :=
    Runs.reaches_of_exec [.loadStrategyPlugin pluginDir] rfl
  exact ⟨by decide +kernel, (handles_accounted hreaches).2⟩

/-! ## What is loaded -/

/-- The name of the plugin that the file is. -/
def offeredBy (entry : DirectoryEntry) : Option String :=
  if entry.isRegularFile ∧ extension entry.path = ".so" then entry.image.bind Image.offered else none

def files (directory : Directory) : List DirectoryEntry := if directory.isDirectory then directory.entries else []

/-- The entry for a file that is the plugin. -/
def entryFor (pluginName : String) (file : DirectoryEntry) : Option StrategyPluginEntry :=
  file.image.map fun image => entryOf file.path image pluginName

/-- The entry for the first such file, in the order of the directory. -/
def first (files : List DirectoryEntry) (pluginName : String) : Option StrategyPluginEntry :=
  (files.find? (offeredBy · == some pluginName)).bind (entryFor pluginName)

theorem loadEntry_cases (s : StrategyPluginLoader) (entry : DirectoryEntry) :
    (∃ image pluginName, entry.image = some image ∧ offeredBy entry = some pluginName ∧
      s.plugins.lookup pluginName = none ∧ s.loadEntry entry = s.add entry.path image pluginName) ∨
    ((∀ pluginName, offeredBy entry = some pluginName → (s.plugins.lookup pluginName).isSome = true) ∧
      s.loadEntry entry = s) := by
  unfold loadEntry offeredBy
  by_cases hregular : entry.isRegularFile = true
  case neg => exact Or.inr ⟨by simp [hregular], by simp [hregular]⟩
  case pos =>
    by_cases hextension : extension entry.path = ".so"
    case neg => exact Or.inr ⟨by simp [hextension], by simp [hextension]⟩
    case pos =>
      simp only [hregular, hextension, Bool.not_true, Bool.false_eq_true, ne_eq, not_true_eq_false, if_false, and_self,
        if_true]
      rcases loadFileLocked_cases s entry.path entry.image with
        ⟨image, pluginName, himage, hoffered, hnew, hload⟩ | ⟨hknown, -, hsame⟩
      · exact Or.inl ⟨image, pluginName, himage, by rw [himage, Option.bind_some, hoffered], hnew, by rw [hload]⟩
      · exact Or.inr ⟨hknown, hsame⟩

theorem lookup_loadEntry (s : StrategyPluginLoader) (entry : DirectoryEntry) (pluginName : String) :
    (s.loadEntry entry).plugins.lookup pluginName = (s.plugins.lookup pluginName).or (first [entry] pluginName) := by
  rcases loadEntry_cases s entry with ⟨image, offered, himage, hoffered, hnew, hload⟩ | ⟨hknown, hsame⟩
  · rw [hload, lookup_add]
    by_cases hname : pluginName = offered
    · subst hname
      simp [hnew, first, hoffered, entryFor, himage]
    · simp [hname, first, hoffered, Ne.symm hname]
  · rw [hsame]
    cases hlookup : s.plugins.lookup pluginName with
    | some known => rfl
    | none =>
      have hother : offeredBy entry ≠ some pluginName := by
        intro hoffered
        simpa [hlookup] using hknown pluginName hoffered
      simp [first, hother]

theorem image_of_offeredBy {entry : DirectoryEntry} {pluginName : String} (h : offeredBy entry = some pluginName) :
    ∃ image, entry.image = some image := by
  unfold offeredBy at h
  split at h
  case isTrue =>
    obtain ⟨image, himage, -⟩ := Option.bind_eq_some_iff.mp h
    exact ⟨image, himage⟩
  case isFalse => cases h

theorem first_isSome {files : List DirectoryEntry} {entry : DirectoryEntry} {pluginName : String}
    (hmem : entry ∈ files) (h : offeredBy entry = some pluginName) : (first files pluginName).isSome = true := by
  have hfound : (files.find? (offeredBy · == some pluginName)).isSome = true :=
    List.find?_isSome.mpr ⟨entry, hmem, by simp [h]⟩
  obtain ⟨file, hfile⟩ := Option.isSome_iff_exists.mp hfound
  obtain ⟨image, himage⟩ := image_of_offeredBy (by simpa using List.find?_some hfile)
  simp [first, hfile, entryFor, himage]

theorem first_cons (entry : DirectoryEntry) (rest : List DirectoryEntry) (pluginName : String) :
    first (entry :: rest) pluginName = (first [entry] pluginName).or (first rest pluginName) := by
  unfold first
  by_cases hoffered : offeredBy entry = some pluginName
  · obtain ⟨image, himage⟩ := image_of_offeredBy hoffered
    simp [hoffered, entryFor, himage]
  · simp [hoffered]

theorem lookup_loadEntries (files : List DirectoryEntry) (s : StrategyPluginLoader) (pluginName : String) :
    (files.foldl loadEntry s).plugins.lookup pluginName =
      (s.plugins.lookup pluginName).or (first files pluginName) := by
  induction files generalizing s with
  | nil => simp [first]
  | cons entry rest ih => rw [List.foldl_cons, ih, lookup_loadEntry, first_cons entry rest, Option.or_assoc]

theorem loadEntries_known (files : List DirectoryEntry) (s : StrategyPluginLoader)
    (hknown : ∀ entry ∈ files, ∀ pluginName, offeredBy entry = some pluginName →
      (s.plugins.lookup pluginName).isSome = true) : files.foldl loadEntry s = s := by
  induction files with
  | nil => rfl
  | cons entry rest ih =>
    have hsame : s.loadEntry entry = s := by
      rcases loadEntry_cases s entry with ⟨image, pluginName, -, hoffered, hnew, -⟩ | ⟨-, hsame⟩
      · simpa [hnew] using hknown entry List.mem_cons_self pluginName hoffered
      · exact hsame
    rw [List.foldl_cons, hsame]
    exact ih fun other hother => hknown other (List.mem_cons_of_mem _ hother)

theorem loadStrategyPlugin_files (s : StrategyPluginLoader) (directory : Directory) :
    (s.loadStrategyPlugin directory).2 = (files directory).foldl loadEntry s := by
  unfold loadStrategyPlugin files
  cases directory.isDirectory <;> rfl

/-- A name that has a plugin keeps it, and a new one gets the first file of the directory that is such a plugin.
Loading the directory again changes nothing. -/
theorem plugins_first_kept (s : StrategyPluginLoader) (directory : Directory) :
    (∀ pluginName, (s.loadStrategyPlugin directory).2.plugins.lookup pluginName =
      (s.plugins.lookup pluginName).or (first (files directory) pluginName)) ∧
    ((s.loadStrategyPlugin directory).2.loadStrategyPlugin directory).2 = (s.loadStrategyPlugin directory).2 := by
  have hlookup : ∀ pluginName, (s.loadStrategyPlugin directory).2.plugins.lookup pluginName =
      (s.plugins.lookup pluginName).or (first (files directory) pluginName) := by
    intro pluginName
    rw [loadStrategyPlugin_files]
    exact lookup_loadEntries _ _ _
  refine ⟨hlookup, ?_⟩
  rw [loadStrategyPlugin_files _ directory]
  refine loadEntries_known _ _ fun entry hmem pluginName hoffered => ?_
  rw [hlookup, Option.isSome_or, first_isSome hmem hoffered, Bool.or_true]

end StrategyPluginLoader

end Qtrade.Strategy
