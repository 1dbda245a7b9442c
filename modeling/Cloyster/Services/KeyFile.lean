import Cloyster.Basic
import Cloyster.Lib.KeyFileText

/-! The key file wrapper of `services/files`. A key file is a list of groups in
file order, each a list of keys with their decoded values. GLib's text format
is a parameter with two laws, that what is saved loads back and that the two
booleans it writes are read as they are; the wrapper's readers and writers are
the program's own. `has_key` on a missing group is an
error in GLib, so the readers with a default still need the group to exist. -/

namespace Cloyster

open Lib

structure KeyFile where
  groups : OrdMap String (OrdMap String String)
  deriving DecidableEq

instance : EmptyCollection KeyFile := ⟨⟨∅⟩⟩

/-- GLib's key file format. -/
structure GKeyFile where
  load : String → Option KeyFile
  toData : KeyFile → String
  parseBoolean : String → Option Bool
  load_toData : ∀ file, load (toData file) = some file
  parseBoolean_text : ∀ b : Bool, parseBoolean (if b then "true" else "false") = some b

/-- Trailing blanks are ignored. -/
def GKeyFile.booleanOf (value : String) : Option Bool :=
  let v := Text.rstrip value " \t\n\r\x0b\x0c"
  if v = "true" ∨ v = "1" then some true
  else if v = "false" ∨ v = "0" then some false
  else none

/-- The format with every escape GLib has, and a few more for names it would refuse. -/
def GKeyFile.text : GKeyFile where
  load text := (KeyFileText.parse text).map KeyFile.mk
  toData file := KeyFileText.render file.groups
  parseBoolean := booleanOf
  load_toData file := by rw [KeyFileText.parse_render, Option.map_some]
  parseBoolean_text b := by cases b <;> decide

namespace KeyFile

variable (file : KeyFile) (group key : String)

def value? : Option String := (file.groups.get? group).bind (·.get? key)

def getGroups : List String := file.groups.keys

def hasGroup : Bool := (file.groups.get? group).isSome

/-- Groups with a given prefix, in file order. -/
def listAllPrefixedEntries (pre : String) : List String :=
  file.getGroups.filter fun group => Text.startsWith group pre

def noSuchEntry : Exn := .runtimeError s!"Keyfile Error, no such entry {group} {key}"

def getString : Except Exn String :=
  match file.value? group key with
  | some v => .ok v
  | none => .error (noSuchEntry group key)

/-- `getString` with a default for a missing key of an existing group. -/
def getStringOr (defaultValue : String) : Except Exn String :=
  if file.hasGroup group then .ok ((file.value? group key).getD defaultValue)
  else .error (noSuchEntry group key)

def getStringOpt : Except Exn (Option String) :=
  if file.hasGroup group then .ok (file.value? group key)
  else .error ⟨.keyFileError, s!"Key file does not have group “{group}”"⟩

def getBoolean (codec : GKeyFile) (file : KeyFile) (group key : String) : Except Exn Bool :=
  match (file.value? group key).bind codec.parseBoolean with
  | some b => .ok b
  | none => .error (noSuchEntry group key)

def setString (value : String) : KeyFile :=
  ⟨file.groups.set group (((file.groups.get? group).getD ∅).set key value)⟩

def setStringOpt : Option String → KeyFile
  | some value => file.setString group key value
  | none => file

def setBoolean (value : Bool) : KeyFile :=
  file.setString group key (if value then "true" else "false")

/-- The key file with these groups. -/
def ofGroups (groups : List (String × List (String × String))) : KeyFile :=
  groups.foldl (fun file g => g.2.foldl (fun file e => file.setString g.1 e.1 e.2) file) ∅

variable {file group key}

@[simp] theorem value?_empty : (∅ : KeyFile).value? group key = none := rfl

@[simp] theorem getGroups_empty : (∅ : KeyFile).getGroups = [] := rfl

theorem getString_ok_iff {v : String} :
    file.getString group key = .ok v ↔ file.value? group key = some v := by
  unfold getString
  split <;> simp_all

theorem getStringOr_ok_iff {d v : String} :
    file.getStringOr group key d = .ok v ↔
      file.hasGroup group ∧ (file.value? group key).getD d = v := by
  unfold getStringOr
  split_ifs with h <;> simp [h]

theorem getStringOpt_ok_iff {o : Option String} :
    file.getStringOpt group key = .ok o ↔ file.hasGroup group ∧ file.value? group key = o := by
  unfold getStringOpt
  split_ifs with h <;> simp [h]

theorem hasGroup_of_value? {v : String} (h : file.value? group key = some v) :
    file.hasGroup group := by
  unfold value? at h
  unfold hasGroup
  cases hg : file.groups.get? group with
  | none => rw [hg] at h; simp at h
  | some _ => rfl

theorem mem_getGroups_iff : group ∈ file.getGroups ↔ file.hasGroup group :=
  (OrdMap.get?_isSome_iff _ _).symm

theorem value?_setString (g k v : String) :
    (file.setString g k v).value? group key =
      if group = g ∧ key = k then some v else file.value? group key := by
  simp only [value?, setString, OrdMap.get?_set]
  by_cases hg : group = g
  · subst hg
    simp only [if_true, Option.bind_some, OrdMap.get?_set, true_and]
    split_ifs
    · rfl
    · cases file.groups.get? group <;> simp
  · simp [hg]

theorem mem_getGroups_setString (g k v : String) :
    group ∈ (file.setString g k v).getGroups ↔ group = g ∨ group ∈ file.getGroups :=
  OrdMap.mem_keys_set _ _ _ _

theorem value?_setStringOpt (g k : String) (v : Option String) :
    (file.setStringOpt g k v).value? group key =
      if group = g ∧ key = k then v.or (file.value? group key) else file.value? group key := by
  cases v with
  | none => simp [setStringOpt]
  | some v => simp [setStringOpt, value?_setString]

theorem setString_setString (file : KeyFile) (group key v w : String) :
    (file.setString group key v).setString group key w = file.setString group key w := by
  simp only [setString, OrdMap.get?_set_self, Option.getD_some, OrdMap.set_set]

/-- A key that is there can be set before or after another one. -/
theorem setString_comm {u : String} (hvalue : file.value? group key = some u)
    (hne : ¬ (g = group ∧ k = key)) (v w : String) :
    (file.setString g k w).setString group key v =
      (file.setString group key v).setString g k w := by
  obtain ⟨m, hm, hget⟩ := Option.bind_eq_some_iff.mp hvalue
  have hgroup : group ∈ file.groups.keys := OrdMap.mem_keys_of_get? hm
  have hkey : key ∈ m.keys := OrdMap.mem_keys_of_get? hget
  by_cases hg : g = group
  · subst hg
    have hk : key ≠ k := fun h => hne ⟨rfl, h.symm⟩
    simp only [setString, OrdMap.get?_set_self, Option.getD_some, hm, OrdMap.set_set,
      OrdMap.set_comm hkey hk]
  · simp only [setString, OrdMap.get?_set_of_ne _ _ hg, OrdMap.get?_set_of_ne _ _ (Ne.symm hg)]
    rw [OrdMap.set_comm hgroup (Ne.symm hg)]

/-- Set keys, each a group and a name in it, one after another. -/
def setAll (file : KeyFile) (entries : List ((String × String) × String)) : KeyFile :=
  entries.foldl (fun file entry => file.setString entry.1.1 entry.1.2 entry.2) file

theorem setAll_append (file : KeyFile) (entries entries' : List ((String × String) × String)) :
    file.setAll (entries ++ entries') = (file.setAll entries).setAll entries' :=
  List.foldl_append

theorem setAll_setString {entries : List ((String × String) × String)} {u : String}
    (hvalue : file.value? group key = some u) (hnot : (group, key) ∉ entries.map Prod.fst)
    (v : String) : (file.setAll entries).setString group key v =
      (file.setString group key v).setAll entries := by
  induction entries generalizing file u with
  | nil => rfl
  | cons entry entries ih =>
    rw [List.map_cons, List.mem_cons, not_or] at hnot
    have hne : ¬ (entry.1.1 = group ∧ entry.1.2 = key) := fun h =>
      hnot.1 (Prod.ext h.1.symm h.2.symm)
    have hkept : (file.setString entry.1.1 entry.1.2 entry.2).value? group key = some u := by
      rw [value?_setString, if_neg fun h => hne ⟨h.1.symm, h.2.symm⟩, hvalue]
    show ((file.setString entry.1.1 entry.1.2 entry.2).setAll entries).setString group key v =
      ((file.setString group key v).setString entry.1.1 entry.1.2 entry.2).setAll entries
    rw [ih hkept hnot.2, setString_comm hvalue hne]

/-- Setting the same keys again leaves what setting them the second time alone gives. -/
theorem setAll_setAll {entries entries' : List ((String × String) × String)}
    (hkeys : entries'.map Prod.fst = entries.map Prod.fst)
    (hnodup : (entries.map Prod.fst).Nodup) (file : KeyFile) :
    (file.setAll entries).setAll entries' = file.setAll entries' := by
  induction entries generalizing file entries' with
  | nil =>
    rw [List.map_nil, List.map_eq_nil_iff] at hkeys
    rw [hkeys]
    rfl
  | cons entry entries ih =>
    obtain ⟨entry', rest, rfl, hentry, hrest⟩ := List.map_eq_cons_iff.mp hkeys
    rw [List.map_cons, List.nodup_cons] at hnodup
    have hset : (file.setString entry.1.1 entry.1.2 entry.2).value? entry.1.1 entry.1.2 =
        some entry.2 := by
      rw [value?_setString, if_pos ⟨rfl, rfl⟩]
    show (((file.setString entry.1.1 entry.1.2 entry.2).setAll entries).setString
      entry'.1.1 entry'.1.2 entry'.2).setAll rest =
        (file.setString entry'.1.1 entry'.1.2 entry'.2).setAll rest
    rw [hentry, setAll_setString hset hnodup.1, setString_setString, ih hrest hnodup.2]

end KeyFile

/-! ### Key files on disk -/

variable (codec : GKeyFile)

/-- `KeyFile::load`. -/
def KeyFile.load (path : Path) : FsM KeyFile := do
  let fs ← get
  match fs.content? path with
  | none => throw ⟨.keyFileError, s!"{path.toText}: not a regular file"⟩
  | some text =>
    match codec.load text with
    | none => throw ⟨.keyFileError, s!"{path.toText}: parse error"⟩
    | some file => return file

/-- The constructor: a path that does not exist gives an empty key file. -/
def KeyFile.«open» (path : Path) : FsM KeyFile := do
  let fs ← get
  if fs.exists path then KeyFile.load codec path else return ∅

/-- `KeyFile::save`. -/
def KeyFile.save (path : Path) (file : KeyFile) : FsM Unit := do
  let fs ← get
  match fs.write path (codec.toData file) with
  | .ok fs' => set fs'
  | .error code => throw (.filesystem code path.toText)

/-- `KeyFile::loadData`. -/
def KeyFile.loadData (data : String) : Except Exn KeyFile :=
  match codec.load data with
  | none => .error ⟨.keyFileError, "parse error"⟩
  | some file => .ok file

/-- The key file a path holds, when it holds one. -/
def keyFileAt (fs : FS) (path : Path) : Option KeyFile := (fs.content? path).bind codec.load

variable {codec}

theorem KeyFile.load_ok_iff {path : Path} {fs fs' : FS} {file : KeyFile} :
    KeyFile.load codec path fs = .ok file fs' ↔ keyFileAt codec fs path = some file ∧ fs' = fs := by
  unfold KeyFile.load keyFileAt
  simp only [bind_apply, get_apply]
  cases h : fs.content? path with
  | none => simp
  | some text =>
    simp only [Option.bind_some]
    cases codec.load text <;> simp [eq_comm]

theorem unchanged_load (path : Path) (fs : FS) : Unchanged (KeyFile.load codec path) fs := by
  unfold KeyFile.load
  refine unchanged_bind rfl fun fs' _ => ?_
  split
  · rfl
  · split <;> rfl

theorem unchanged_open (path : Path) (fs : FS) : Unchanged (KeyFile.open codec path) fs := by
  unfold KeyFile.open
  refine unchanged_bind rfl fun fs' _ => ?_
  split_ifs
  · exact unchanged_load path fs
  · rfl

theorem KeyFile.save_ok {path : Path} {fs fs' : FS} {file : KeyFile} {u : Unit}
    (h : KeyFile.save codec path file fs = .ok u fs') :
    fs' = fs.set path (.file (codec.toData file)) := by
  unfold KeyFile.save at h
  simp only [bind_apply, get_apply] at h
  cases hw : fs.write path (codec.toData file) with
  | ok t =>
    rw [hw] at h
    simp only [set_apply, EStateM.Result.ok.injEq] at h
    rw [← h.2]
    exact FS.write_ok hw
  | error code => rw [hw] at h; simp at h

/-- A path that holds a key file can be written again. -/
theorem KeyFile.save_of_keyFileAt {path : Path} {fs : FS} {old : KeyFile}
    (h : keyFileAt codec fs path = some old) (file : KeyFile) :
    ∃ fs', KeyFile.save codec path file fs = .ok () fs' := by
  obtain ⟨text, htext, -⟩ := Option.bind_eq_some_iff.mp h
  unfold KeyFile.save
  rw [bind_apply, get_apply]
  simp only [FS.write, FS.content?_eq_some.mp htext]
  exact ⟨_, rfl⟩

/-- What was saved at a path is what it holds. -/
theorem keyFileAt_set (fs : FS) (path q : Path) (file : KeyFile) :
    keyFileAt codec (fs.set path (.file (codec.toData file))) q =
      if q = path then some file else keyFileAt codec fs q := by
  unfold keyFileAt FS.content?
  rw [FS.get?_set]
  split_ifs with h
  · simp [codec.load_toData]
  · rfl

theorem exists_of_keyFileAt {fs : FS} {path : Path} {file : KeyFile}
    (h : keyFileAt codec fs path = some file) : fs.exists path := by
  obtain ⟨text, htext, -⟩ := Option.bind_eq_some_iff.mp h
  simp [FS.exists, FS.content?_eq_some.mp htext]

/-- Opening a path that holds a key file reads it. -/
theorem KeyFile.open_of_keyFileAt {fs : FS} {path : Path} {file : KeyFile}
    (h : keyFileAt codec fs path = some file) : KeyFile.open codec path fs = .ok file fs := by
  rw [KeyFile.open, bind_apply, get_apply]
  dsimp only
  rw [if_pos (exists_of_keyFileAt h)]
  exact KeyFile.load_ok_iff.mpr ⟨h, rfl⟩

theorem keyFileAt_congr {fs fs' : FS} {path : Path} (h : fs'.get? path = fs.get? path) :
    keyFileAt codec fs' path = keyFileAt codec fs path := by
  simp only [keyFileAt, FS.content?, h]

end Cloyster
