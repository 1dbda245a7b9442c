import Cloyster.Lib.OrdMap
import Cloyster.Lib.Text

/-! A file system of regular files and directories, with the operations of
`std::filesystem` and of file streams that programs use on it. In which order a
directory is listed is left open: an order of names is part of the file system and no
operation changes it, so a theorem about every file system is one about every such order. -/

namespace Cloyster.Lib

/-- The components of an absolute path. -/
abbrev Path := List String

namespace Path

def filename (p : Path) : String := p.getLast?.getD ""

def parent (p : Path) : Path := p.dropLast

def child (p : Path) (name : String) : Path := p ++ [name]

def toText (p : Path) : String := "/" ++ "/".intercalate p

@[simp] theorem filename_child (p : Path) (name : String) : (p.child name).filename = name := by
  simp [filename, child]

@[simp] theorem parent_child (p : Path) (name : String) : (p.child name).parent = p := by
  simp [parent, child]

theorem child_inj {p q : Path} {a b : String} : p.child a = q.child b ↔ p = q ∧ a = b := by
  constructor
  · intro h
    obtain ⟨hp, ha⟩ := List.append_inj' h rfl
    exact ⟨hp, by simpa using ha⟩
  · rintro ⟨rfl, rfl⟩; rfl

end Path

inductive Node where
  | file (content : String)
  | dir
  deriving DecidableEq

/-- The error conditions a caller can tell apart. -/
inductive Errc where
  | fileExists | noSuchFile | notADirectory | isADirectory | directoryNotEmpty
  deriving DecidableEq, Repr

/-- In which order the names of a directory are listed. Names that it does not tell apart are
listed as they were made. -/
structure ListingOrder where
  le : Path → String → String → Bool
  total : ∀ d a b, le d a b ∨ le d b a
  trans : ∀ d a b c, le d a b → le d b c → le d a c

/-- As the names were made. -/
def ListingOrder.creation : ListingOrder where
  le _ _ _ := true
  total _ _ _ := .inl rfl
  trans _ _ _ _ _ _ := rfl

structure FS where
  nodes : OrdMap Path Node
  order : ListingOrder := .creation

namespace FS

instance : EmptyCollection FS := ⟨{ nodes := ∅ }⟩

def keys (fs : FS) : List Path := fs.nodes.keys

def get? (fs : FS) (p : Path) : Option Node := fs.nodes.get? p

def set (fs : FS) (p : Path) (node : Node) : FS := { fs with nodes := fs.nodes.set p node }

def erase (fs : FS) (p : Path) : FS := { fs with nodes := fs.nodes.erase p }

theorem get?_set (fs : FS) (p q : Path) (node : Node) :
    (fs.set p node).get? q = if q = p then some node else fs.get? q := OrdMap.get?_set _ _ _ _

@[simp] theorem get?_set_self (fs : FS) (p : Path) (node : Node) :
    (fs.set p node).get? p = some node := OrdMap.get?_set_self _ _ _

theorem get?_set_of_ne (fs : FS) {p q : Path} (node : Node) (h : q ≠ p) :
    (fs.set p node).get? q = fs.get? q := OrdMap.get?_set_of_ne _ _ h

theorem set_of_get? {fs : FS} {p : Path} {node : Node} (h : fs.get? p = some node) :
    fs.set p node = fs := by
  rw [set, OrdMap.set_of_get? h]

theorem set_set (fs : FS) (p : Path) (node node' : Node) :
    (fs.set p node).set p node' = fs.set p node' := by
  rw [set, set, set, OrdMap.set_set]

theorem get?_erase (fs : FS) (p q : Path) :
    (fs.erase p).get? q = if q = p then none else fs.get? q := OrdMap.get?_erase _ _ _

theorem get?_eq_none_iff (fs : FS) (p : Path) : fs.get? p = none ↔ p ∉ fs.keys :=
  OrdMap.get?_eq_none_iff _ _

theorem exists_get?_of_mem {fs : FS} {p : Path} (h : p ∈ fs.keys) : ∃ node, fs.get? p = some node :=
  OrdMap.exists_get?_of_mem h

theorem mem_keys_of_get? {fs : FS} {p : Path} {node : Node} (h : fs.get? p = some node) :
    p ∈ fs.keys := OrdMap.mem_keys_of_get? h

theorem keys_set (fs : FS) (p : Path) (node : Node) :
    (fs.set p node).keys = if p ∈ fs.keys then fs.keys else fs.keys ++ [p] := by
  have hkeys := OrdMap.keys_set fs.nodes p node
  split_ifs with h
  · exact hkeys.trans (if_pos h)
  · exact hkeys.trans (if_neg h)

def isDir (fs : FS) (p : Path) : Bool := p = [] ∨ fs.get? p = some .dir

def isRegular (fs : FS) (p : Path) : Bool :=
  match fs.get? p with
  | some (.file _) => true
  | _ => false

def «exists» (fs : FS) (p : Path) : Bool := p = [] ∨ (fs.get? p).isSome

def content? (fs : FS) (p : Path) : Option String :=
  match fs.get? p with
  | some (.file s) => some s
  | _ => none

/-- The names in a directory as they were made. -/
def created (fs : FS) (d : Path) : List String :=
  (fs.keys.filter fun p => p ≠ [] ∧ Path.parent p = d).map Path.filename

/-- The names in a directory as they are listed. -/
def children (fs : FS) (d : Path) : List String :=
  (fs.created d).insertionSort fun a b => fs.order.le d a b

def readdir (fs : FS) (d : Path) : Except Errc (List String) :=
  if fs.isDir d then .ok (fs.children d)
  else if fs.exists d then .error .notADirectory
  else .error .noSuchFile

/-- Open an output stream in append mode: a missing file is created. -/
def openAppend (fs : FS) (p : Path) : Except Errc FS :=
  match fs.get? p with
  | some (.file _) => .ok fs
  | some .dir => .error .isADirectory
  | none => if p ≠ [] ∧ fs.isDir p.parent then .ok (fs.set p (.file "")) else .error .noSuchFile

/-- Replace the content of a file, creating it when it is missing. -/
def write (fs : FS) (p : Path) (content : String) : Except Errc FS :=
  match fs.get? p with
  | some (.file _) => .ok (fs.set p (.file content))
  | some .dir => .error .isADirectory
  | none =>
    if p ≠ [] ∧ fs.isDir p.parent then .ok (fs.set p (.file content)) else .error .noSuchFile

/-- Create a directory and its missing ancestors. -/
def createDirectories (fs : FS) (p : Path) : Except Errc FS :=
  if p.inits.any fs.isRegular then .error .notADirectory
  else .ok (p.inits.tail.foldl (fun fs q => if fs.exists q then fs else fs.set q .dir) fs)

/-- Remove a file or an empty directory. -/
def remove (fs : FS) (p : Path) : Except Errc FS :=
  if fs.isDir p ∧ (p = [] ∨ fs.children p ≠ []) then .error .directoryNotEmpty
  else .ok (fs.erase p)

def removeAll (fs : FS) (p : Path) : FS :=
  { fs with nodes := fs.nodes.filterKeys fun q => !p.isPrefixOf q }

/-- `std::filesystem::copy` of a regular file without options. -/
def copy (fs : FS) (source dest : Path) : Except Errc FS :=
  match fs.get? source with
  | none => .error .noSuchFile
  | some .dir => .error .isADirectory
  | some (.file s) =>
    let target := if fs.isDir dest then dest.child source.filename else dest
    if fs.exists target then .error .fileExists else fs.write target s

theorem mem_children {fs : FS} {d : Path} {name : String} :
    name ∈ fs.children d ↔ ∃ node, fs.get? (d.child name) = some node := by
  rw [children, List.mem_insertionSort]
  simp only [created, List.mem_map, List.mem_filter]
  constructor
  · rintro ⟨p, ⟨hp, hd⟩, rfl⟩
    simp only [decide_eq_true_eq] at hd
    have he : d.child p.filename = p := by
      rw [← hd.2]
      simp only [Path.child, Path.parent, Path.filename]
      rw [List.getLast?_eq_some_getLast hd.1, Option.getD_some, List.dropLast_append_getLast]
    rw [he]
    exact exists_get?_of_mem hp
  · rintro ⟨node, h⟩
    refine ⟨d.child name, ⟨mem_keys_of_get? h, ?_⟩, Path.filename_child d name⟩
    simp [Path.child, Path.parent]

theorem isRegular_iff {fs : FS} {p : Path} : fs.isRegular p ↔ ∃ s, fs.get? p = some (.file s) := by
  unfold isRegular
  split <;> simp_all

theorem content?_eq_some {fs : FS} {p : Path} {s : String} :
    fs.content? p = some s ↔ fs.get? p = some (.file s) := by
  unfold content?
  split <;> simp_all

theorem isRegular_eq (fs : FS) (p : Path) : fs.isRegular p = (fs.content? p).isSome := by
  unfold isRegular content?
  split <;> simp

/-- A file takes the place of a file or of nothing, so what is a directory stays the same. -/
theorem isDir_set_file {fs : FS} {p : Path} (text : String) (hp : fs.isDir p = false) (q : Path) :
    isDir (fs.set p (.file text)) q = fs.isDir q := by
  by_cases hq : q = p
  · subst hq
    have hroot : q ≠ [] := by
      rintro rfl
      exact absurd hp (by simp [isDir])
    rw [hp]
    simp [isDir, hroot]
  · simp only [isDir, get?_set_of_ne _ _ hq]

theorem isRegular_set_file {fs : FS} {p : Path} (text : String) (q : Path) :
    isRegular (fs.set p (.file text)) q ↔ q = p ∨ fs.isRegular q := by
  by_cases hq : q = p
  · subst hq
    simp [isRegular]
  · simp [isRegular, get?_set_of_ne _ _ hq, hq]

theorem get?_removeAll (fs : FS) (p q : Path) :
    (fs.removeAll p).get? q = if p <+: q then none else fs.get? q := by
  rw [get?, removeAll, OrdMap.get?_filterKeys, ← get?]
  by_cases h : p <+: q <;> simp [h]

theorem removeAll_of_forall {fs : FS} {p : Path} (h : ∀ q ∈ fs.keys, ¬ p <+: q) :
    fs.removeAll p = fs := by
  rw [removeAll, OrdMap.filterKeys_of_forall fun q hq => ?_]
  simpa [← Bool.not_eq_true, List.isPrefixOf_iff_prefix] using h q hq

theorem created_set_of_parent_ne {fs : FS} {d p : Path} (node : Node) (h : p.parent ≠ d) :
    (fs.set p node).created d = fs.created d := by
  unfold created
  rw [keys_set]
  split_ifs with hp
  · rfl
  · have hnew : [p].filter (fun q => decide (q ≠ [] ∧ Path.parent q = d)) = [] := by simp [h]
    rw [List.filter_append, hnew, List.append_nil]

theorem children_set_of_parent_ne {fs : FS} {d p : Path} (node : Node) (h : p.parent ≠ d) :
    (fs.set p node).children d = fs.children d := by
  rw [children, created_set_of_parent_ne node h]
  rfl

/-- A path that is new is made last. -/
theorem created_set_prefix (fs : FS) (p : Path) (node : Node) (d : Path) :
    fs.created d <+: (fs.set p node).created d := by
  unfold created
  rw [keys_set]
  split_ifs
  · exact List.prefix_rfl
  · rw [List.filter_append, List.map_append]
    exact List.prefix_append _ _

theorem nodup_created (fs : FS) (d : Path) : (fs.created d).Nodup := by
  refine List.Nodup.map_on ?_ (fs.nodes.keys_nodup.filter _)
  intro p hp q hq h
  obtain ⟨-, hp⟩ := List.mem_filter.mp hp
  obtain ⟨-, hq⟩ := List.mem_filter.mp hq
  simp only [decide_eq_true_eq] at hp hq
  have hchild : ∀ r : Path, r ≠ [] → r = r.parent.child r.filename := by
    intro r hr
    simp only [Path.child, Path.parent, Path.filename]
    rw [List.getLast?_eq_some_getLast hr, Option.getD_some, List.dropLast_append_getLast]
  rw [hchild p hp.1, hchild q hq.1, hp.2, hq.2, h]

theorem perm_children (fs : FS) (d : Path) : (fs.children d).Perm (fs.created d) :=
  List.perm_insertionSort _ _

theorem nodup_children (fs : FS) (d : Path) : (fs.children d).Nodup :=
  (fs.perm_children d).nodup_iff.mpr (fs.nodup_created d)

/-- Of two names the one that was made first is listed first, unless the order has it the other
way. -/
theorem sublist_children {fs : FS} {d : Path} {a b : String} (h : [a, b].Sublist (fs.created d))
    (hle : fs.order.le d a b) : [a, b].Sublist (fs.children d) :=
  List.pair_sublist_insertionSort (r := fun a b => fs.order.le d a b) hle h

theorem le_of_sublist_children {fs : FS} {d : Path} {a b : String}
    (h : [a, b].Sublist (fs.children d)) : fs.order.le d a b := by
  have : Std.Total fun a b => fs.order.le d a b := ⟨fs.order.total d⟩
  have : IsTrans String fun a b => fs.order.le d a b := ⟨fs.order.trans d⟩
  have hsorted := List.pairwise_insertionSort (fun a b => fs.order.le d a b) (fs.created d)
  have hpair := hsorted.sublist h
  simpa using hpair

/-- Two states in which a directory holds the same. -/
structure SameListing (d : Path) (fs fs' : FS) : Prop where
  children : fs'.children d = fs.children d
  get? : ∀ name, fs'.get? (d.child name) = fs.get? (d.child name)
  isDir : fs'.isDir d = fs.isDir d

theorem SameListing.refl (d : Path) (fs : FS) : SameListing d fs fs := ⟨rfl, fun _ => rfl, rfl⟩

theorem SameListing.trans {d : Path} {fs fs' fs'' : FS} (h : SameListing d fs fs')
    (h' : SameListing d fs' fs'') : SameListing d fs fs'' :=
  ⟨h'.children.trans h.children, fun name => (h'.get? name).trans (h.get? name),
    h'.isDir.trans h.isDir⟩

theorem SameListing.isRegular {d : Path} {fs fs' : FS} (h : SameListing d fs fs') (name : String) :
    fs'.isRegular (d.child name) = fs.isRegular (d.child name) := by
  simp only [FS.isRegular, h.get? name]

theorem sameListing_set {d p : Path} (fs : FS) (node : Node) (hparent : p.parent ≠ d)
    (hne : p ≠ d) : SameListing d fs (fs.set p node) := by
  refine ⟨children_set_of_parent_ne node hparent, fun name => ?_, ?_⟩
  · refine get?_set_of_ne _ _ fun h => hparent ?_
    rw [← h, Path.parent_child]
  · simp only [FS.isDir, get?_set_of_ne fs node (Ne.symm hne)]

/-- Making a directory adds the missing ancestors and nothing else. -/
theorem get?_createDirectories {fs fs' : FS} {p : Path} (h : fs.createDirectories p = .ok fs')
    (q : Path) :
    fs'.get? q = if q ∈ p.inits.tail ∧ fs.exists q = false then some .dir else fs.get? q := by
  unfold createDirectories at h
  split_ifs at h with hfile
  obtain rfl := Except.ok.inj h
  clear h hfile
  have hne : ∀ r ∈ p.inits.tail, r ≠ [] := by
    intro r hr
    cases p with
    | nil => exact absurd hr List.not_mem_nil
    | cons a p =>
      rw [List.inits_cons, List.tail_cons, List.mem_map] at hr
      obtain ⟨s, -, rfl⟩ := hr
      exact List.cons_ne_nil a s
  revert hne
  generalize p.inits.tail = ancestors
  intro hne
  induction ancestors generalizing fs with
  | nil => simp
  | cons r ancestors ih =>
    rw [List.forall_mem_cons] at hne
    rw [List.foldl_cons, ih hne.2]
    by_cases hr : fs.exists r
    · rw [if_pos hr]
      by_cases hq : q = r
      · subst hq; simp [hr]
      · simp [hq]
    · rw [if_neg hr]
      by_cases hq : q = r
      · subst hq
        have hfree : fs.get? q = none := by
          simp only [FS.exists, hne.1, false_or, decide_eq_true_eq] at hr
          simpa using hr
        simp [FS.exists, hne.1, hfree]
      · simp [hq, FS.exists, get?_set]

theorem exists_createDirectories {fs fs' : FS} {p : Path} (h : fs.createDirectories p = .ok fs') :
    fs'.exists p := by
  cases p with
  | nil => rfl
  | cons a p =>
    have hmem : a :: p ∈ (a :: p).inits.tail := by simp
    have hget := get?_createDirectories h (a :: p)
    cases he : fs.exists (a :: p) with
    | false =>
      rw [if_pos ⟨hmem, he⟩] at hget
      simp [FS.exists, hget]
    | true =>
      rw [if_neg (by simp [he])] at hget
      rw [FS.exists, hget, ← FS.exists, he]

/-- The directory and the ones above it are there then, and no other is new. -/
theorem isDir_createDirectories {fs fs' : FS} {p : Path} (h : fs.createDirectories p = .ok fs')
    (q : Path) : fs'.isDir q ↔ fs.isDir q ∨ q <+: p := by
  have hget := get?_createDirectories h q
  have hmem : q ∈ p.inits.tail ↔ q <+: p ∧ q ≠ [] := by
    cases p with
    | nil => simp
    | cons a p =>
      rw [← List.mem_inits, List.inits_cons, List.tail_cons, List.mem_cons]
      constructor
      · intro hq
        obtain ⟨r, -, rfl⟩ := List.mem_map.mp hq
        exact ⟨.inr hq, List.cons_ne_nil _ _⟩
      · exact fun ⟨hq, hne⟩ => hq.resolve_left hne
  have hplain : q <+: p → fs.isRegular q = false := by
    intro hq
    unfold createDirectories at h
    split_ifs at h with hfile
    rw [Bool.not_eq_true, List.any_eq_false] at hfile
    exact Bool.eq_false_iff.mpr (hfile q ((List.mem_inits _ _).mpr hq))
  by_cases hroot : q = []
  · simp [isDir, hroot]
  by_cases hq : q <+: p
  · refine iff_of_true ?_ (.inr hq)
    cases hnode : fs.get? q with
    | none =>
      rw [if_pos ⟨hmem.mpr ⟨hq, hroot⟩, by simp [FS.exists, hroot, hnode]⟩] at hget
      simp [isDir, hget]
    | some node =>
      rw [if_neg (by simp [FS.exists, hnode]), hnode] at hget
      cases node with
      | dir => simp [isDir, hget]
      | file text =>
        have hregular : fs.isRegular q := isRegular_iff.mpr ⟨text, hnode⟩
        rw [hplain hq] at hregular
        exact absurd hregular (by simp)
  · rw [if_neg fun hm => hq (hmem.mp hm.1).1] at hget
    simp [isDir, hget, hq]

theorem sameListing_createDirectories {d p : Path} {fs fs' : FS}
    (h : fs.createDirectories p = .ok fs') (hparent : ∀ q ∈ p.inits.tail, Path.parent q ≠ d ∧ q ≠ d) :
    SameListing d fs fs' := by
  unfold createDirectories at h
  split_ifs at h with hfile
  obtain rfl := Except.ok.inj h
  clear h hfile
  revert hparent
  generalize p.inits.tail = ancestors
  intro hparent
  induction ancestors generalizing fs with
  | nil => exact SameListing.refl d fs
  | cons r ancestors ih =>
    rw [List.forall_mem_cons] at hparent
    rw [List.foldl_cons]
    refine SameListing.trans ?_ (ih hparent.2)
    split_ifs
    · exact SameListing.refl d fs
    · exact sameListing_set fs .dir hparent.1.1 hparent.1.2

theorem order_createDirectories {fs fs' : FS} {p : Path} (h : fs.createDirectories p = .ok fs') :
    fs'.order = fs.order := by
  unfold createDirectories at h
  split_ifs at h with hfile
  obtain rfl := Except.ok.inj h
  clear h hfile
  generalize p.inits.tail = ancestors
  induction ancestors generalizing fs with
  | nil => rfl
  | cons q ancestors ih =>
    rw [List.foldl_cons, ih]
    split_ifs <;> rfl

/-- A write sets one file and leaves every other path alone. -/
theorem write_ok {fs fs' : FS} {p : Path} {s : String} (h : fs.write p s = .ok fs') :
    fs' = fs.set p (.file s) := by
  unfold write at h
  split at h
  · simpa using h.symm
  · simp at h
  · split_ifs at h
    simpa using h.symm

/-- The path is a file, or missing from a directory. -/
def Writable (fs : FS) (p : Path) : Prop :=
  fs.isRegular p ∨ fs.get? p = none ∧ p ≠ [] ∧ fs.isDir p.parent

theorem write_returns_iff {fs : FS} {p : Path} (s : String) :
    (∃ fs', fs.write p s = .ok fs') ↔ fs.Writable p := by
  unfold write Writable isRegular
  cases fs.get? p with
  | none => by_cases h : p ≠ [] ∧ fs.isDir p.parent <;> simp [h]
  | some node => cases node <;> simp

theorem not_dir_of_writable {fs : FS} {p : Path} (h : fs.Writable p) :
    fs.get? p ≠ some .dir := by
  rcases h with h | ⟨h, -⟩
  · obtain ⟨s, hs⟩ := isRegular_iff.mp h
    rw [hs]
    simp
  · rw [h]
    simp

/-- Writing one file leaves the others writable. -/
theorem Writable.set {fs : FS} {p q : Path} (h : fs.Writable p) (hq : fs.Writable q)
    (s : String) : FS.Writable (fs.set q (.file s)) p := by
  unfold Writable isRegular isDir at h ⊢
  rw [get?_set, get?_set]
  by_cases hp : p = q
  · simp [hp]
  · rw [if_neg hp]
    refine h.imp_right fun h => ⟨h.1, h.2.1, ?_⟩
    have hparent := h.2.2
    simp only [decide_eq_true_eq] at hparent ⊢
    refine hparent.imp_right fun hdir => ?_
    rw [if_neg, hdir]
    rintro rfl
    exact not_dir_of_writable hq hdir

theorem copy_ok {fs fs' : FS} {src dst : Path} (h : fs.copy src dst = .ok fs') :
    ∃ s, fs.get? src = some (.file s) ∧
      fs' = fs.set (if fs.isDir dst then dst.child src.filename else dst) (.file s) ∧
      fs.get? (if fs.isDir dst then dst.child src.filename else dst) = none := by
  unfold copy at h
  split at h
  · simp at h
  · simp at h
  · rename_i s hs
    refine ⟨s, hs, ?_⟩
    simp only at h
    generalize (if fs.isDir dst then dst.child src.filename else dst) = target at h ⊢
    split_ifs at h with he
    simp only [FS.exists, decide_eq_true_eq, not_or, Option.not_isSome_iff_eq_none] at he
    exact ⟨write_ok h, he.2⟩

end FS

end Cloyster.Lib
