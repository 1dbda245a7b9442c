import Cloyster.Functions
import Cloyster.Lib.Ini

/-! Changing a value in a configuration file. The file is read as settings in sections, the
value is set, and the file is written again. That the file could not be read is logged, and
then it is written all the same. -/

namespace Cloyster

open Lib

namespace Ptree

def data : Ptree → String
  | .node data _ => data

def children : Ptree → List (String × Ptree)
  | .node _ children => children

/-- `ptree::empty`, which does not look at the data. -/
def isEmpty (tree : Ptree) : Bool := tree.children.isEmpty

def settings (tree : Ptree) : List Ini.Setting :=
  (tree.children.filter (·.2.isEmpty)).map fun c => (c.1, c.2.data)

def sections (tree : Ptree) : List Ini.Section :=
  (tree.children.filter (!·.2.isEmpty)).map fun c => (c.1, c.2.settings)

def document (tree : Ptree) : Ini.Document := ⟨tree.settings, tree.sections⟩

/-- Settings, and sections with settings. -/
structure WellFormed (tree : Ptree) : Prop where
  data : tree.data = ""
  depth : ∀ c ∈ tree.children, ¬ c.2.isEmpty →
    c.2.data = "" ∧ ∀ d ∈ c.2.children, d.2.isEmpty
  document : tree.document.WellFormed

end Ptree

/-- What Boost does for a tree that is settings and sections: it reads nothing else, and reads
back what it has written. -/
structure IniFormat.Lawful (ini : IniFormat) : Prop where
  read : ∀ text tree, ini.read text = some tree → tree.WellFormed
  empty : (ini.read "").isSome
  write : ∀ tree, tree.WellFormed → ∃ text tree', ini.write tree = (text, true) ∧
    ini.read text = some tree' ∧ tree'.document = tree.document
  setting : ∀ key value,
    ini.write (.node "" [(key, .node value [])]) = (key ++ "=" ++ value ++ "\n", true)
  root : ∀ data, data ≠ "" → ini.write (.node data []) = ("", false)

section

variable (ini : IniFormat) (opts : Options) (filename : Path) (key value : String) (fs : FS)

/-- What changing a value promises. -/
structure ChangesValue : Prop where
  parsed : ∀ content tree, fs.content? filename = some content → ini.read content = some tree →
    key ∉ tree.document.sections.map Prod.fst →
    ∃ fs' content' tree', changeValueInConfigurationFile opts ini filename key value fs = .ok () fs' ∧
      fs'.content? filename = some content' ∧ ini.read content' = some tree' ∧
      ∀ name k, tree'.document.value? name k =
        if name = none ∧ k = key then some value else tree.document.value? name k
  malformed : ∀ content, fs.content? filename = some content → ini.read content = none →
    (finalState (changeValueInConfigurationFile opts ini filename key value fs)).content? filename =
      some content

end

variable {ini : IniFormat} {opts : Options} {filename : Path} {key value content : String} {fs : FS}

/-! ### Putting a value -/

namespace Ptree

theorem wellFormed_empty : empty.WellFormed where
  data := rfl
  depth := by simp [empty, children]
  document := ⟨⟨nofun, nofun, .nil⟩, nofun, .nil⟩

theorem put_nil {tree : Ptree} (h : tree.isEmpty) (value : String) :
    tree.put [] value = node value [] := by
  obtain ⟨data, children⟩ := tree
  obtain rfl : children = [] := List.isEmpty_iff.mp h
  rfl

/-- No section is called like the key. -/
theorem isEmpty_of_name {cs : List (String × Ptree)} {c : String × Ptree} {data : String}
    (h : key ∉ (node data cs).sections.map Prod.fst) (hc : c ∈ cs) (hkey : c.1 = key) :
    c.2.isEmpty := by
  by_contra hne
  refine h (List.mem_map.mpr ⟨(c.1, c.2.settings), List.mem_map.mpr ⟨c, ?_, rfl⟩, hkey⟩)
  exact List.mem_filter.mpr ⟨hc, by simpa using hne⟩

/-- The sections stay, and the settings get the value. -/
theorem filter_upsert {cs : List (String × Ptree)}
    (h : ∀ c ∈ cs, c.1 = key → c.2.isEmpty) (value : String) :
    (upsert key (put [] value) cs).filter (!·.2.isEmpty) = cs.filter (!·.2.isEmpty) ∧
      ((upsert key (put [] value) cs).filter (·.2.isEmpty)).map (fun c => (c.1, c.2.data)) =
        Ini.setSetting key value ((cs.filter (·.2.isEmpty)).map fun c => (c.1, c.2.data)) := by
  induction cs with
  | nil => exact ⟨rfl, rfl⟩
  | cons c cs ih =>
    rw [List.forall_mem_cons] at h
    obtain ⟨ihsections, ihsettings⟩ := ih h.2
    have hnew : (node value []).isEmpty := rfl
    unfold upsert
    by_cases hc : c.1 = key
    · have hempty := h.1 hc
      rw [if_pos hc, put_nil hempty]
      constructor
      · simp [hempty, hnew]
      · simp [hempty, hnew, Ini.setSetting, hc, data]
    · rw [if_neg hc]
      by_cases hempty : c.2.isEmpty
      · constructor
        · simpa [hempty] using ihsections
        · simpa [hempty, Ini.setSetting, hc] using ihsettings
      · constructor
        · simpa [hempty] using ihsections
        · simpa [hempty] using ihsettings

theorem document_put {tree : Ptree} (h : key ∉ tree.document.sections.map Prod.fst)
    (value : String) : (tree.put [key] value).document = tree.document.set key value := by
  obtain ⟨data, cs⟩ := tree
  obtain ⟨hsections, hsettings⟩ :=
    filter_upsert (fun c hc hkey => isEmpty_of_name h hc hkey) value
  rw [Ini.Document.set, document, document, settings, sections, sections]
  exact congrArg₂ Ini.Document.mk hsettings (congrArg _ hsections)

theorem wellFormed_put {tree : Ptree} (h : tree.WellFormed) (hkey : Ini.PlainKey key)
    (hvalue : Ini.PlainValue value) (hname : key ∉ tree.document.sections.map Prod.fst) :
    (tree.put [key] value).WellFormed where
  data := by
    obtain ⟨data, cs⟩ := tree
    exact h.data
  depth := by
    obtain ⟨data, cs⟩ := tree
    intro c hc hne
    have hsections := (filter_upsert (fun c hc hkey => isEmpty_of_name hname hc hkey) value).1
    have hmem : c ∈ cs.filter (!·.2.isEmpty) := by
      rw [← hsections]
      exact List.mem_filter.mpr ⟨hc, by simpa using hne⟩
    exact h.depth c (List.mem_filter.mp hmem).1 hne
  document := by
    rw [document_put hname]
    exact Ini.wellFormed_set h.document hkey hvalue hname

end Ptree

/-! ### The format of Boost -/

namespace Ptree

def ofSetting (s : Ini.Setting) : String × Ptree := (s.1, node s.2 [])

def ofDocument (doc : Ini.Document) : Ptree :=
  node "" (doc.settings.map ofSetting ++
    doc.sections.map fun s => (s.1, node "" (s.2.map ofSetting)))

/-- A setting that has settings of its own is an error. -/
def writeSettings : List (String × Ptree) → String × Bool
  | [] => ("", true)
  | c :: cs =>
    if c.2.isEmpty then
      let rest := writeSettings cs
      (c.1 ++ "=" ++ c.2.data ++ "\n" ++ rest.1, rest.2)
    else ("", false)

def writeSections : List (String × Ptree) → String × Bool
  | [] => ("", true)
  | c :: cs =>
    if ¬ (c.2.children.map Prod.fst).Nodup ∨ c.2.data ≠ "" then ("", false)
    else
      let settings := writeSettings c.2.children
      let rest := if settings.2 then writeSections cs else ("", false)
      ("[" ++ c.1 ++ "]\n" ++ settings.1 ++ rest.1, rest.2)

/-- The settings of no section are written first. -/
def write (tree : Ptree) : String × Bool :=
  if tree.data ≠ "" ∨ ¬ (tree.children.map Prod.fst).Nodup then ("", false)
  else
    let settings := writeSettings (tree.children.filter (·.2.isEmpty))
    let sections := writeSections (tree.children.filter (!·.2.isEmpty))
    (settings.1 ++ sections.1, sections.2)

end Ptree

/-- What `read_ini` and `write_ini` do. -/
def IniFormat.boost : IniFormat where
  read text := (Ini.parse text.toList).map Ptree.ofDocument
  write := Ptree.write

namespace Ptree

theorem isEmpty_of_mem_ofSettings {settings : List Ini.Setting} {c : String × Ptree}
    (h : c ∈ settings.map ofSetting) : c.2.isEmpty := by
  obtain ⟨s, -, rfl⟩ := List.mem_map.mp h
  rfl

theorem settings_ofSettings (settings : List Ini.Setting) :
    (node "" (settings.map ofSetting)).settings = settings := by
  have hall : (settings.map ofSetting).filter (·.2.isEmpty) = settings.map ofSetting :=
    List.filter_eq_self.mpr fun c hc => isEmpty_of_mem_ofSettings hc
  rw [Ptree.settings, children, hall, List.map_map]
  exact List.map_id _

theorem filter_ofDocument {doc : Ini.Document} (h : ∀ s ∈ doc.sections, s.2 ≠ []) :
    (ofDocument doc).children.filter (·.2.isEmpty) = doc.settings.map ofSetting ∧
      (ofDocument doc).children.filter (!·.2.isEmpty) =
        doc.sections.map fun s => (s.1, node "" (s.2.map ofSetting)) := by
  have hsections : ∀ c ∈ doc.sections.map fun s => (s.1, node "" (s.2.map ofSetting)),
      c.2.isEmpty = false := by
    intro c hc
    obtain ⟨s, hs, rfl⟩ := List.mem_map.mp hc
    exact List.isEmpty_eq_false_iff.mpr (List.map_eq_nil_iff.not.mpr (h s hs))
  constructor
  · rw [ofDocument, children, List.filter_append, List.filter_eq_self.mpr fun c hc =>
      isEmpty_of_mem_ofSettings hc, List.filter_eq_nil_iff.mpr fun c hc => by simp [hsections c hc],
      List.append_nil]
  · rw [ofDocument, children, List.filter_append, List.filter_eq_nil_iff.mpr fun c hc => by
      simp [isEmpty_of_mem_ofSettings hc], List.nil_append,
      List.filter_eq_self.mpr fun c hc => by simp [hsections c hc]]

theorem document_ofDocument {doc : Ini.Document} (h : ∀ s ∈ doc.sections, s.2 ≠ []) :
    (ofDocument doc).document = doc := by
  obtain ⟨hsettings, hsections⟩ := filter_ofDocument h
  have hnested (s : Ini.Section) : (s.1, (node "" (s.2.map ofSetting)).settings) = s := by
    rw [settings_ofSettings]
  rw [document, settings, sections, hsettings, hsections, List.map_map, List.map_map]
  congr 1
  · exact List.map_id _
  · exact (List.map_congr_left fun s _ => hnested s).trans (List.map_id _)

theorem wellFormed_ofDocument {doc : Ini.Document} (h : doc.WellFormed) :
    (ofDocument doc).WellFormed where
  data := rfl
  depth c hc hne := by
    rcases List.mem_append.mp hc with hc | hc
    · exact absurd (isEmpty_of_mem_ofSettings hc) hne
    · obtain ⟨s, -, rfl⟩ := List.mem_map.mp hc
      exact ⟨rfl, fun d hd => isEmpty_of_mem_ofSettings hd⟩
  document := by rwa [document_ofDocument fun s hs => (h.sections s hs).2.1]

theorem writeSettings_eq {cs : List (String × Ptree)} (h : ∀ c ∈ cs, c.2.isEmpty) :
    writeSettings cs = (String.ofList (Lines.terminated '\n'
      ((cs.map fun c => (c.1, c.2.data)).map Ini.settingLine)), true) := by
  induction cs with
  | nil => rfl
  | cons c cs ih =>
    rw [List.forall_mem_cons] at h
    rw [writeSettings, if_pos h.1, ih h.2]
    refine Prod.ext (String.toList_inj.mp ?_) rfl
    simp [Ini.settingLine]

theorem settings_of_isEmpty {tree : Ptree} (h : ∀ d ∈ tree.children, d.2.isEmpty) :
    tree.settings = tree.children.map fun d => (d.1, d.2.data) := by
  rw [settings, List.filter_eq_self.mpr h]

theorem writeSections_eq {cs : List (String × Ptree)}
    (h : ∀ c ∈ cs, c.2.data = "" ∧ (∀ d ∈ c.2.children, d.2.isEmpty) ∧
      (c.2.settings.map Prod.fst).Nodup) :
    writeSections cs = (String.ofList (Lines.terminated '\n'
      ((cs.map fun c => (c.1, c.2.settings)).flatMap
        fun s => Ini.headerLine s.1 :: s.2.map Ini.settingLine)), true) := by
  induction cs with
  | nil => rfl
  | cons c cs ih =>
    rw [List.forall_mem_cons] at h
    obtain ⟨⟨hdata, hleaves, hnodup⟩, hrest⟩ := h
    have hsettings := settings_of_isEmpty hleaves
    have hnames : (c.2.children.map Prod.fst).Nodup := by
      rw [hsettings, List.map_map] at hnodup
      exact hnodup
    rw [writeSections, if_neg (by simp [hnames, hdata]), writeSettings_eq hleaves, ih hrest]
    refine Prod.ext (String.toList_inj.mp ?_) rfl
    simp [Ini.headerLine, hsettings]

theorem write_eq {tree : Ptree} (h : tree.WellFormed) :
    tree.write = (String.ofList (Ini.print tree.document), true) := by
  have hnames : (tree.children.map Prod.fst).Nodup := by
    have hperm := (List.filter_append_perm (·.2.isEmpty) tree.children).map Prod.fst
    rw [← hperm.nodup_iff]
    have hdoc := h.document.names
    rw [Ini.Document.names, document, settings, sections, List.map_map, List.map_map] at hdoc
    rw [List.map_append]
    exact hdoc
  have hsections : ∀ c ∈ tree.children.filter (!·.2.isEmpty), c.2.data = "" ∧
      (∀ d ∈ c.2.children, d.2.isEmpty) ∧ (c.2.settings.map Prod.fst).Nodup := by
    intro c hc
    obtain ⟨hmem, hne⟩ := List.mem_filter.mp hc
    obtain ⟨hdata, hleaves⟩ := h.depth c hmem (by simpa using hne)
    exact ⟨hdata, hleaves,
      (h.document.sections (c.1, c.2.settings) (List.mem_map.mpr ⟨c, hc, rfl⟩)).2.2.nodup⟩
  have hsettings : ∀ c ∈ tree.children.filter (·.2.isEmpty), c.2.isEmpty := fun c hc =>
    (List.mem_filter.mp hc).2
  rw [write, if_neg (by simp [h.data, hnames]), writeSettings_eq hsettings,
    writeSections_eq hsections]
  refine Prod.ext (String.toList_inj.mp ?_) rfl
  simp only [String.toList_append, String.toList_ofList, Ini.print, Ini.Document.lines,
    Lines.terminated_append]
  rfl

end Ptree

theorem lawful_boost : IniFormat.boost.Lawful where
  read text tree h := by
    obtain ⟨doc, hdoc, rfl⟩ := Option.map_eq_some_iff.mp h
    exact Ptree.wellFormed_ofDocument (Ini.parse_wellFormed hdoc)
  empty := by decide +kernel
  write tree h := by
    have hdoc : (Ptree.ofDocument tree.document).document = tree.document :=
      Ptree.document_ofDocument fun s hs => (h.document.sections s hs).2.1
    refine ⟨_, Ptree.ofDocument tree.document, Ptree.write_eq h, ?_, hdoc⟩
    dsimp only [IniFormat.boost]
    rw [String.toList_ofList, Ini.parse_print h.document, Option.map_some]
  setting key value := by
    refine Prod.ext (String.toList_inj.mp ?_) rfl
    simp [IniFormat.boost, Ptree.write, Ptree.data, Ptree.children, Ptree.isEmpty,
      Ptree.writeSettings, Ptree.writeSections]
  root data h := if_pos (.inl h)

/-! ### What is written -/

/-- The tree that is written. -/
def putValue (ini : IniFormat) (content key value : String) : Ptree :=
  ((ini.read content).getD .empty).put (if key = "" then [] else [key]) value

/-- The file gets what is written of the tree, as far as that goes. -/
theorem changeValue_apply (hdry : opts.dryRun = false) (hdots : '.' ∉ key.toList)
    (hfile : fs.content? filename = some content) {text : String} {complete : Bool}
    (hwrite : ini.write (putValue ini content key value) = (text, complete)) :
    (complete = true → changeValueInConfigurationFile opts ini filename key value fs =
        .ok () (fs.set filename (.file text))) ∧
      finalState (changeValueInConfigurationFile opts ini filename key value fs) =
        fs.set filename (.file text) := by
  have hfragments : (if key = "" then [] else (key.toList.splitOn '.').map String.ofList) =
      if key = "" then [] else [key] := by
    rw [List.splitOn_eq_singleton hdots, List.map_singleton, String.ofList_toList]
  have hopen : fs.write filename text = .ok (fs.set filename (.file text)) := by
    rw [FS.write, FS.content?_eq_some.mp hfile]
  rw [putValue] at hwrite
  simp only [changeValueInConfigurationFile, hfragments, hdry, bind_apply, get_apply, hfile,
    Option.bind_some, Bool.false_eq_true, if_false, hwrite, hopen, set_apply]
  cases complete with
  | true => exact ⟨fun _ => rfl, rfl⟩
  | false => exact ⟨fun h => absurd h (by decide), rfl⟩

theorem content?_set (fs : FS) (filename : Path) (text : String) :
    FS.content? (fs.set filename (.file text)) filename = some text :=
  FS.content?_eq_some.mpr (FS.get?_set_self _ _ _)

/-- A file that does not parse is replaced by the one setting, or emptied. -/
theorem putValue_of_malformed (hini : ini.Lawful) (hread : ini.read content = none)
    (key value : String) : ∃ text complete,
      ini.write (putValue ini content key value) = (text, complete) ∧
        (text = content ↔ key ≠ "" ∧ content = key ++ "=" ++ value ++ "\n") := by
  rw [putValue, hread, Option.getD_none]
  by_cases hkey : key = ""
  · rw [if_pos hkey]
    -- whatever is written then can be read
    have hreads : ∃ text complete, ini.write (.node value []) = (text, complete) ∧
        (ini.read text).isSome := by
      by_cases hvalue : value = ""
      · obtain ⟨text, tree', hwrite, htext, -⟩ := hini.write (.node value [])
          (hvalue ▸ Ptree.wellFormed_empty)
        exact ⟨text, true, hwrite, by rw [htext]; rfl⟩
      · exact ⟨"", false, hini.root value hvalue, hini.empty⟩
    obtain ⟨text, complete, hwrite, htext⟩ := hreads
    refine ⟨text, complete, hwrite, iff_of_false ?_ fun h => h.1 hkey⟩
    rintro rfl
    rw [hread] at htext
    cases htext
  · rw [if_neg hkey]
    refine ⟨_, true, hini.setting key value, ?_⟩
    rw [eq_comm]
    exact ⟨fun h => ⟨hkey, h⟩, fun h => h.2⟩

/-! ### When the promise is kept -/

/-- A file that parses, with a key and a value that are read back, or with a section that is named
like the key; or one that does not parse, but is the new setting already. -/
def Changeable (ini : IniFormat) (content key value : String) : Prop :=
  (∀ tree ∈ ini.read content, key ∈ tree.document.sections.map Prod.fst ∨
    Ini.PlainKey key ∧ Ini.PlainValue value) ∧
  (ini.read content = none → key ≠ "" ∧ content = key ++ "=" ++ value ++ "\n")

instance (ini : IniFormat) (content key value : String) :
    Decidable (Changeable ini content key value) :=
  inferInstanceAs (Decidable (_ ∧ _))

theorem changesValue_iff (ini : IniFormat) (hini : ini.Lawful) (opts : Options)
    (hdry : opts.dryRun = false) (filename : Path) (key value content : String)
    (hdots : '.' ∉ key.toList) (fs : FS) (hfile : fs.content? filename = some content) :
    ChangesValue ini opts filename key value fs ↔ Changeable ini content key value := by
  cases hread : ini.read content with
  | none =>
    obtain ⟨text, complete, hwrite, hsame⟩ := putValue_of_malformed hini hread key value
    obtain ⟨-, hfinal⟩ := changeValue_apply hdry hdots hfile hwrite
    have hcond : Changeable ini content key value ↔ text = content := by
      simp [Changeable, hread, hsame]
    rw [hcond]
    constructor
    · intro h
      have hleft := h.malformed content hfile hread
      rw [hfinal, content?_set] at hleft
      exact Option.some.inj hleft
    · rintro rfl
      constructor
      · intro found tree hfound htree
        obtain rfl := Option.some.inj (hfile.symm.trans hfound)
        rw [hread] at htree
        cases htree
      · intro found hfound _
        obtain rfl := Option.some.inj (hfile.symm.trans hfound)
        rw [hfinal, content?_set]
  | some tree =>
    have hcond : Changeable ini content key value ↔
        key ∈ tree.document.sections.map Prod.fst ∨ Ini.PlainKey key ∧ Ini.PlainValue value := by
      simp [Changeable, hread]
    rw [hcond]
    constructor
    · intro h
      by_cases hname : key ∈ tree.document.sections.map Prod.fst
      · exact .inl hname
      · obtain ⟨fs', content', tree', -, -, hread', hvalues⟩ := h.parsed content tree hfile hread hname
        have hvalue := hvalues none key
        rw [if_pos ⟨rfl, rfl⟩] at hvalue
        exact .inr (Ini.plain_of_value? (hini.read _ _ hread').document hvalue)
    · intro h
      constructor
      · intro found tree₁ hfound htree hname
        obtain rfl := Option.some.inj (hfile.symm.trans hfound)
        obtain rfl := Option.some.inj (hread.symm.trans htree)
        obtain ⟨hkey, hvalue⟩ := h.resolve_left hname
        have hput : putValue ini content key value = tree.put [key] value := by
          rw [putValue, hread, Option.getD_some, if_neg hkey.nonempty]
        obtain ⟨text, tree', hwrite, hread', hdoc⟩ := hini.write _
          (Ptree.wellFormed_put (hini.read _ _ hread) hkey hvalue hname)
        rw [← hput] at hwrite
        refine ⟨_, text, tree', (changeValue_apply hdry hdots hfile hwrite).1 rfl, content?_set _ _ _,
          hread', fun name k => ?_⟩
        rw [hdoc, Ptree.document_put hname, Ini.value?_set]
      · intro found hfound hnone
        obtain rfl := Option.some.inj (hfile.symm.trans hfound)
        rw [hread] at hnone
        cases hnone

/-- The file that tells whether SELinux is on. -/
def selinuxFile (content : String) : FS :=
  ((((∅ : FS).set ["etc"] .dir).set ["etc", "sysconfig"] .dir).set ["etc", "sysconfig", "selinux"]
    (.file content))

theorem changesValue_iff_selinux :
    ChangesValue .boost {} ["etc", "sysconfig", "selinux"] "SELINUX" "disabled"
      (selinuxFile "# the mode\nSELINUX = enforcing\nSELINUXTYPE=targeted\n") :=
  (changesValue_iff .boost lawful_boost {} rfl _ _ _
    "# the mode\nSELINUX = enforcing\nSELINUXTYPE=targeted\n" (by decide) _ (by decide +kernel)).mpr
      ⟨fun _ _ => .inr ⟨by decide +kernel, by decide +kernel⟩, fun h => absurd h (by decide +kernel)⟩

/-- A line without an equals sign, and the rest of the file is lost. -/
theorem not_changesValue_selinux :
    ¬ ChangesValue .boost {} ["etc", "sysconfig", "selinux"] "SELINUX" "disabled"
      (selinuxFile "SELINUX enforcing\nSELINUXTYPE=targeted\n") := by
  intro h
  have hleft := h.malformed "SELINUX enforcing\nSELINUXTYPE=targeted\n" (by decide +kernel)
    (by decide +kernel)
  have hwritten : (finalState (changeValueInConfigurationFile {} .boost
      ["etc", "sysconfig", "selinux"] "SELINUX" "disabled"
      (selinuxFile "SELINUX enforcing\nSELINUXTYPE=targeted\n"))).content?
        ["etc", "sysconfig", "selinux"] = some "SELINUX=disabled\n" := by decide +kernel
  rw [hwritten] at hleft
  exact absurd hleft (by decide)

end Cloyster
