import Cloyster.Lib.Lines
import Cloyster.Lib.Text

/-! A text format for settings: `key=value` lines, first those of no section and then those
under `[section]` headers, with comments and blank lines between them. Blanks around keys and
values are not part of them, and no name is used twice. Sections without settings are dropped.
What is read is well formed, and whatever is well formed survives being printed and read. -/

namespace Cloyster.Lib.Ini

/-! ### Trimming -/

def trim (cs : List Char) : List Char := (cs.dropWhile Text.isSpace).rdropWhile Text.isSpace

/-- No blanks at the ends. -/
structure Trimmed (cs : List Char) : Prop where
  head : ∀ c ∈ cs.head?, ¬ Text.isSpace c
  last : ∀ c ∈ cs.getLast?, ¬ Text.isSpace c

theorem trim_of_trimmed {cs : List Char} (h : Trimmed cs) : trim cs = cs := by
  have hhead : cs.dropWhile Text.isSpace = cs := by
    rw [List.dropWhile_eq_self_iff]
    intro hlen
    exact h.head _ (by simp [List.head?_eq_getElem?, hlen])
  rw [trim, hhead, List.rdropWhile_eq_self_iff]
  intro hne
  exact h.last _ (List.getLast?_eq_some_getLast hne)

theorem trimmed_trim (cs : List Char) : Trimmed (trim cs) := by
  constructor
  · intro c hc
    rw [trim, Option.mem_def] at hc
    have hprefix := List.rdropWhile_prefix Text.isSpace (l := cs.dropWhile Text.isSpace)
    have hne : (cs.dropWhile Text.isSpace).rdropWhile Text.isSpace ≠ [] := by
      intro hnil
      rw [hnil] at hc
      cases hc
    obtain ⟨rest, hrest⟩ := hprefix
    have hhead : (cs.dropWhile Text.isSpace).head? = some c := by
      rw [← hrest, List.head?_append_of_ne_nil _ hne, hc]
    have hnot := List.head?_dropWhile_not Text.isSpace cs
    rw [hhead] at hnot
    simpa using hnot
  · intro c hc
    rw [Option.mem_def, List.getLast?_eq_some_iff] at hc
    obtain ⟨front, hfront⟩ := hc
    have hne : trim cs ≠ [] := by
      rw [hfront]
      exact List.append_ne_nil_of_right_ne_nil _ (List.cons_ne_nil _ _)
    have hlast := List.rdropWhile_last_not Text.isSpace (cs.dropWhile Text.isSpace) hne
    have hc : (trim cs).getLast hne = c := by simp [hfront]
    rwa [← hc]

instance (cs : List Char) : Decidable (Trimmed cs) :=
  decidable_of_iff (trim cs = cs) ⟨fun h => h ▸ trimmed_trim cs, trim_of_trimmed⟩

theorem mem_of_mem_trim {cs : List Char} {c : Char} (h : c ∈ trim cs) : c ∈ cs :=
  (List.dropWhile_sublist _).subset ((List.rdropWhile_prefix Text.isSpace _).subset h)

/-- What starts with no blank still starts with the same. -/
theorem head?_trim_cons {c : Char} (hc : ¬ Text.isSpace c) (cs : List Char) :
    (trim (c :: cs)).head? = some c := by
  have hdrop : (c :: cs).dropWhile Text.isSpace = c :: cs := List.dropWhile_cons_of_neg hc
  have hne : (c :: cs).rdropWhile Text.isSpace ≠ [] := by
    rw [ne_eq, List.rdropWhile_eq_nil_iff]
    exact fun hall => hc (hall c List.mem_cons_self)
  obtain ⟨rest, hrest⟩ := List.rdropWhile_prefix Text.isSpace (c :: cs)
  rw [trim, hdrop, ← List.head?_append_of_ne_nil _ hne, hrest, List.head?_cons]

/-! ### Documents -/

abbrev Setting := String × String

abbrev Section := String × List Setting

structure Document where
  settings : List Setting := []
  sections : List Section := []
  deriving DecidableEq

def Document.names (doc : Document) : List String :=
  doc.settings.map Prod.fst ++ doc.sections.map Prod.fst

/-- The value of a setting, of a section or of none. -/
def Document.value? (doc : Document) : Option String → String → Option String
  | none, key => doc.settings.lookup key
  | some name, key => (doc.sections.lookup name).bind fun settings => settings.lookup key

/-- A key that is read back from a line of its own. -/
structure PlainKey (key : String) : Prop where
  nonempty : key ≠ ""
  trimmed : Trimmed key.toList
  noBreak : '\n' ∉ key.toList
  noEquals : '=' ∉ key.toList
  first : ∀ c ∈ key.toList.head?, c ∉ [';', '#', '[']

structure PlainValue (value : String) : Prop where
  trimmed : Trimmed value.toList
  noBreak : '\n' ∉ value.toList

structure PlainName (name : String) : Prop where
  trimmed : Trimmed name.toList
  noBreak : '\n' ∉ name.toList
  noBracket : ']' ∉ name.toList

-- over the option: characters are finite in number, and the search would go through them all
instance (key : String) : Decidable (PlainKey key) :=
  decidable_of_iff (key ≠ "" ∧ Trimmed key.toList ∧ '\n' ∉ key.toList ∧ '=' ∉ key.toList ∧
      key.toList.head?.all (· ∉ [';', '#', '[']))
    ⟨fun ⟨hne, htrimmed, hbreak, hequals, hfirst⟩ => ⟨hne, htrimmed, hbreak, hequals,
        by simpa [Option.all_eq_true] using hfirst⟩,
      fun h => ⟨h.nonempty, h.trimmed, h.noBreak, h.noEquals,
        by simpa [Option.all_eq_true] using h.first⟩⟩

instance (value : String) : Decidable (PlainValue value) :=
  decidable_of_iff (Trimmed value.toList ∧ '\n' ∉ value.toList)
    ⟨fun h => ⟨h.1, h.2⟩, fun h => ⟨h.trimmed, h.noBreak⟩⟩

/-- The settings of one section, or of none. -/
structure PlainSettings (settings : List Setting) : Prop where
  keys : ∀ s ∈ settings, PlainKey s.1
  values : ∀ s ∈ settings, PlainValue s.2
  nodup : (settings.map Prod.fst).Nodup

structure Document.WellFormed (doc : Document) : Prop where
  settings : PlainSettings doc.settings
  sections : ∀ s ∈ doc.sections, PlainName s.1 ∧ s.2 ≠ [] ∧ PlainSettings s.2
  names : doc.names.Nodup

/-! ### Setting a value -/

def setSetting (key value : String) : List Setting → List Setting
  | [] => [(key, value)]
  | s :: settings =>
    if s.1 = key then (key, value) :: settings else s :: setSetting key value settings

/-- Set a value of no section. -/
def Document.set (doc : Document) (key value : String) : Document :=
  { doc with settings := setSetting key value doc.settings }

theorem lookup_setSetting (settings : List Setting) (key value k : String) :
    (setSetting key value settings).lookup k =
      if k = key then some value else settings.lookup k := by
  induction settings with
  | nil => simp [setSetting]
  | cons s settings ih =>
    obtain ⟨key', value'⟩ := s
    unfold setSetting
    split_ifs with hkey hk hk
    · obtain rfl : k = key := hk
      rw [List.lookup_cons_self]
    · obtain rfl : key' = key := hkey
      rw [List.lookup_cons, List.lookup_cons, beq_eq_false_iff_ne.mpr hk]
    · obtain rfl : k = key := hk
      rw [List.lookup_cons, beq_eq_false_iff_ne.mpr (Ne.symm hkey), ih, if_pos rfl]
    · rw [List.lookup_cons, List.lookup_cons, ih, if_neg hk]

theorem value?_set (doc : Document) (key value : String) (name : Option String) (k : String) :
    (doc.set key value).value? name k =
      if name = none ∧ k = key then some value else doc.value? name k := by
  cases name with
  | none => simp [Document.value?, Document.set, lookup_setSetting]
  | some name => simp [Document.value?, Document.set]

theorem keys_setSetting (settings : List Setting) (key value : String) :
    (setSetting key value settings).map Prod.fst =
      if key ∈ settings.map Prod.fst then settings.map Prod.fst
      else settings.map Prod.fst ++ [key] := by
  induction settings with
  | nil => rfl
  | cons s settings ih =>
    unfold setSetting
    by_cases hs : s.1 = key
    · simp [hs]
    · rw [if_neg hs, List.map_cons, ih]
      simp only [List.map_cons, List.mem_cons, Ne.symm hs, false_or]
      split_ifs <;> rfl

theorem mem_setSetting {settings : List Setting} {key value : String} {s : Setting}
    (h : s ∈ setSetting key value settings) : s = (key, value) ∨ s ∈ settings := by
  induction settings with
  | nil => exact .inl (List.mem_singleton.mp h)
  | cons t settings ih =>
    unfold setSetting at h
    split_ifs at h
    · exact (List.mem_cons.mp h).imp_right (List.mem_cons_of_mem _)
    · rcases List.mem_cons.mp h with rfl | h
      · exact .inr List.mem_cons_self
      · exact (ih h).imp_right (List.mem_cons_of_mem _)

theorem wellFormed_set {doc : Document} {key value : String} (h : doc.WellFormed)
    (hkey : PlainKey key) (hvalue : PlainValue value) (hname : key ∉ doc.sections.map Prod.fst) :
    (doc.set key value).WellFormed := by
  have hnames := h.names
  have hkeys : (doc.set key value).settings.map Prod.fst =
      if key ∈ doc.settings.map Prod.fst then doc.settings.map Prod.fst
      else doc.settings.map Prod.fst ++ [key] := keys_setSetting doc.settings key value
  refine ⟨⟨fun s hs => ?_, fun s hs => ?_, ?_⟩, h.sections, ?_⟩
  · rcases mem_setSetting hs with rfl | hs
    · exact hkey
    · exact h.settings.keys s hs
  · rcases mem_setSetting hs with rfl | hs
    · exact hvalue
    · exact h.settings.values s hs
  · rw [hkeys]
    split_ifs with hmem
    · exact h.settings.nodup
    · rw [← List.concat_eq_append, List.nodup_concat]
      exact ⟨hmem, h.settings.nodup⟩
  · rw [Document.names, hkeys]
    split_ifs with hmem
    · exact hnames
    · rw [List.append_assoc, List.singleton_append, List.nodup_middle, List.nodup_cons,
        List.mem_append, not_or]
      exact ⟨⟨hmem, hname⟩, hnames⟩

/-- Whatever has a value has a plain key, and the value is plain. -/
theorem plain_of_value? {doc : Document} {key value : String} (h : doc.WellFormed)
    (hvalue : doc.value? none key = some value) : PlainKey key ∧ PlainValue value := by
  obtain ⟨before, after, hsplit, -⟩ := List.lookup_eq_some_iff.mp hvalue
  have hmem : (key, value) ∈ doc.settings := by
    rw [hsplit]
    exact List.mem_append_right _ List.mem_cons_self
  exact ⟨h.settings.keys _ hmem, h.settings.values _ hmem⟩

/-! ### Lines -/

inductive Line where
  | blank
  | header (name : String)
  | setting (key value : String)
  deriving DecidableEq

def readLine (line : List Char) : Option Line :=
  match trim line with
  | [] => some .blank
  | c :: cs =>
    if c = ';' ∨ c = '#' then some .blank
    else if c = '[' then
      if ']' ∈ cs then some (.header (String.ofList (trim (cs.takeWhile (· ≠ ']')))))
      else none
    else if c ≠ '=' ∧ '=' ∈ cs then
      some (.setting (String.ofList (trim ((c :: cs).takeWhile (· ≠ '='))))
        (String.ofList (trim ((c :: cs).dropWhile (· ≠ '=')).tail)))
    else none

/-- The sections that have ended, and the one that goes on. -/
structure Reading where
  settings : List Setting := []
  sections : List Section := []
  current : Option Section := none

/-- A section that has no settings is dropped when it ends. -/
def Reading.document (r : Reading) : Document :=
  ⟨r.settings, r.sections ++ (r.current.filter (·.2 ≠ [])).toList⟩

def addSetting (settings : List Setting) (key value : String) : Option (List Setting) :=
  if key ∈ settings.map Prod.fst then none else some (settings ++ [(key, value)])

def addLine (r : Reading) : Line → Option Reading
  | .blank => some r
  | .header name =>
    if name ∈ r.document.names then none
    else some ⟨r.document.settings, r.document.sections, some (name, [])⟩
  | .setting key value =>
    match r.current with
    | none => (addSetting r.settings key value).map fun settings => { r with settings }
    | some (name, settings) =>
      (addSetting settings key value).map fun settings => { r with current := some (name, settings) }

def step (r : Reading) (line : List Char) : Option Reading := (readLine line).bind (addLine r)

def parse (text : List Char) : Option Document :=
  ((text.splitOn '\n').foldlM step {}).map Reading.document

/-! ### What is read is well formed -/

theorem trim_takeWhile {p : Char → Bool} {cs : List Char} {c : Char}
    (h : c ∈ trim (cs.takeWhile p)) : c ∈ cs ∧ p c :=
  ⟨(List.takeWhile_sublist _).subset (mem_of_mem_trim h),
    List.mem_takeWhile_imp (mem_of_mem_trim h)⟩

/-- A line read from a text without line breaks. -/
def Line.Plain : Line → Prop
  | .blank => True
  | .header name => PlainName name
  | .setting key value => PlainKey key ∧ PlainValue value

theorem readLine_plain {cs : List Char} {line : Line} (hcs : '\n' ∉ cs)
    (h : readLine cs = some line) : line.Plain := by
  have hbreak {p : Char → Bool} {l : List Char} (hl : ∀ c ∈ l, c ∈ trim cs) :
      '\n' ∉ trim (l.takeWhile p) :=
    fun hmem => hcs (mem_of_mem_trim (hl _ (trim_takeWhile hmem).1))
  have hhead := (trimmed_trim cs).head
  unfold readLine at h
  cases htrim : trim cs with
  | nil =>
    rw [htrim] at h
    obtain rfl := Option.some.inj h
    trivial
  | cons c rest =>
    rw [htrim] at h hbreak hhead
    have hc : ¬ Text.isSpace c := hhead c rfl
    dsimp only at h
    split_ifs at h with hcomment hheader hclosed hsetting
    · obtain rfl := Option.some.inj h
      trivial
    · obtain rfl := Option.some.inj h
      constructor
      · rw [String.toList_ofList]
        exact trimmed_trim _
      · rw [String.toList_ofList]
        exact hbreak fun c hmem => List.mem_cons_of_mem _ hmem
      · rw [String.toList_ofList]
        intro hmem
        simpa using (trim_takeWhile hmem).2
    · obtain rfl := Option.some.inj h
      have hkey : (c :: rest).takeWhile (· ≠ '=') = c :: rest.takeWhile (· ≠ '=') :=
        List.takeWhile_cons_of_pos (by simpa using hsetting.1)
      have hfirst := head?_trim_cons hc (rest.takeWhile (· ≠ '='))
      rw [← hkey] at hfirst
      refine ⟨⟨?_, ?_, ?_, ?_, ?_⟩, ?_, ?_⟩
      · intro hempty
        rw [← String.toList_eq_nil_iff, String.toList_ofList] at hempty
        rw [hempty] at hfirst
        cases hfirst
      · rw [String.toList_ofList]
        exact trimmed_trim _
      · rw [String.toList_ofList]
        exact hbreak fun c hmem => hmem
      · rw [String.toList_ofList]
        intro hmem
        simpa using (trim_takeWhile hmem).2
      · rw [String.toList_ofList, hfirst]
        rintro d hd
        obtain rfl := Option.some.inj hd
        grind
      · rw [String.toList_ofList]
        exact trimmed_trim _
      · rw [String.toList_ofList]
        intro hmem
        have hafter := List.mem_of_mem_tail (mem_of_mem_trim hmem)
        have hline := (List.dropWhile_sublist _).subset hafter
        rw [← htrim] at hline
        exact hcs (mem_of_mem_trim hline)

/-- What holds between two lines. -/
structure Reading.Valid (r : Reading) : Prop where
  settings : PlainSettings r.settings
  sections : ∀ s ∈ r.sections, PlainName s.1 ∧ s.2 ≠ [] ∧ PlainSettings s.2
  current : ∀ s ∈ r.current, PlainName s.1 ∧ PlainSettings s.2
  names : (r.settings.map Prod.fst ++ (r.sections ++ r.current.toList).map Prod.fst).Nodup
  started : r.current = none → r.sections = []

theorem wellFormed_document {r : Reading} (h : r.Valid) : r.document.WellFormed := by
  have hsub : (r.current.filter (·.2 ≠ [])).toList.Sublist r.current.toList := by
    cases r.current with
    | none => exact .refl _
    | some s => by_cases hs : s.2 = [] <;> simp [Option.filter, hs]
  refine ⟨h.settings, fun s hs => ?_, ?_⟩
  · rcases List.mem_append.mp hs with hs | hs
    · exact h.sections s hs
    · have hcurrent : s ∈ r.current ∧ s.2 ≠ [] := by simpa using hs
      exact ⟨(h.current s hcurrent.1).1, hcurrent.2, (h.current s hcurrent.1).2⟩
  · refine h.names.sublist ?_
    exact (List.Sublist.refl _).append (((List.Sublist.refl _).append hsub).map _)

theorem plain_addSetting {settings settings' : List Setting} {key value : String}
    (h : PlainSettings settings) (hkey : PlainKey key) (hvalue : PlainValue value)
    (hadd : addSetting settings key value = some settings') : PlainSettings settings' := by
  unfold addSetting at hadd
  split_ifs at hadd with hnew
  obtain rfl := Option.some.inj hadd
  constructor
  · rw [List.forall_mem_append, List.forall_mem_singleton]
    exact ⟨h.keys, hkey⟩
  · rw [List.forall_mem_append, List.forall_mem_singleton]
    exact ⟨h.values, hvalue⟩
  · rw [List.map_append, List.map_singleton, ← List.concat_eq_append, List.nodup_concat]
    exact ⟨hnew, h.nodup⟩

theorem addLine_valid {r r' : Reading} {line : Line} (hr : r.Valid) (hline : line.Plain)
    (h : addLine r line = some r') : r'.Valid := by
  cases line with
  | blank =>
    obtain rfl := Option.some.inj h
    exact hr
  | header name =>
    simp only [addLine] at h
    split_ifs at h with hnew
    obtain rfl := Option.some.inj h
    have hdoc := wellFormed_document hr
    refine ⟨hdoc.settings, hdoc.sections, ?_, ?_, by simp⟩
    · rintro s hs
      obtain rfl := Option.some.inj hs
      exact ⟨hline, by simp, by simp, by simp⟩
    · rw [Option.toList_some, List.map_append, ← List.append_assoc, List.map_singleton,
        ← List.concat_eq_append, List.nodup_concat]
      exact ⟨hnew, hdoc.names⟩
  | setting key value =>
    obtain ⟨hkey, hvalue⟩ := hline
    simp only [addLine] at h
    cases hcurrent : r.current with
    | none =>
      rw [hcurrent] at h
      obtain ⟨settings, hadd, rfl⟩ := Option.map_eq_some_iff.mp h
      have hplain := plain_addSetting hr.settings hkey hvalue hadd
      refine ⟨hplain, hr.sections, by simp, ?_, fun _ => hr.started hcurrent⟩
      simpa [hr.started hcurrent, hcurrent] using hplain.nodup
    | some s =>
      rw [hcurrent] at h
      obtain ⟨settings, hadd, rfl⟩ := Option.map_eq_some_iff.mp h
      have hs := hr.current s hcurrent
      refine ⟨hr.settings, hr.sections, ?_, ?_, by simp⟩
      · rintro s' hs'
        obtain rfl := Option.some.inj hs'
        exact ⟨hs.1, plain_addSetting hs.2 hkey hvalue hadd⟩
      · simpa [hcurrent] using hr.names

theorem foldlM_step_valid {lines : List (List Char)} {r r' : Reading} (hr : r.Valid)
    (hlines : ∀ line ∈ lines, '\n' ∉ line) (h : lines.foldlM step r = some r') : r'.Valid := by
  induction lines generalizing r with
  | nil =>
    obtain rfl := Option.some.inj h
    exact hr
  | cons line lines ih =>
    rw [List.forall_mem_cons] at hlines
    rw [List.foldlM_cons, Option.bind_eq_bind, Option.bind_eq_some_iff] at h
    obtain ⟨r₁, hstep, hrest⟩ := h
    obtain ⟨read, hread, hadd⟩ := Option.bind_eq_some_iff.mp hstep
    exact ih (addLine_valid hr (readLine_plain hlines.1 hread) hadd) hlines.2 hrest

theorem parse_wellFormed {text : List Char} {doc : Document} (h : parse text = some doc) :
    doc.WellFormed := by
  obtain ⟨r, hr, rfl⟩ := Option.map_eq_some_iff.mp h
  have hempty : Reading.Valid {} :=
    ⟨⟨by simp, by simp, by simp⟩, by simp, by simp, by simp, fun _ => rfl⟩
  exact wellFormed_document
    (foldlM_step_valid hempty (fun _ hline => Lines.not_mem_of_mem_splitOn hline) hr)

/-! ### Printing -/

def settingLine (s : Setting) : List Char := s.1.toList ++ '=' :: s.2.toList

def headerLine (name : String) : List Char := '[' :: name.toList ++ [']']

def Document.lines (doc : Document) : List (List Char) :=
  doc.settings.map settingLine ++
    doc.sections.flatMap fun s => headerLine s.1 :: s.2.map settingLine

def print (doc : Document) : List Char := Lines.terminated '\n' doc.lines

theorem trimmed_settingLine {s : Setting} (hkey : PlainKey s.1) (hvalue : PlainValue s.2) :
    Trimmed (settingLine s) := by
  have hne : s.1.toList ≠ [] := by
    rw [ne_eq, String.toList_eq_nil_iff]
    exact hkey.nonempty
  constructor
  · intro c hc
    rw [settingLine, List.head?_append_of_ne_nil _ hne] at hc
    exact hkey.trimmed.head c hc
  · intro c hc
    rw [settingLine, List.getLast?_append_of_ne_nil _ (List.cons_ne_nil _ _)] at hc
    by_cases hempty : s.2.toList = []
    · rw [hempty] at hc
      obtain rfl : '=' = c := by simpa using hc
      decide
    · rw [List.getLast?_cons_of_ne_nil hempty] at hc
      exact hvalue.trimmed.last c hc

theorem readLine_settingLine {s : Setting} (hkey : PlainKey s.1) (hvalue : PlainValue s.2) :
    readLine (settingLine s) = some (.setting s.1 s.2) := by
  have htrim := trim_of_trimmed (trimmed_settingLine hkey hvalue)
  have htake : (settingLine s).takeWhile (· ≠ '=') = s.1.toList :=
    Lines.takeWhile_append_cons hkey.noEquals _
  have hdrop : ((settingLine s).dropWhile (· ≠ '=')).tail = s.2.toList := by
    rw [settingLine, Lines.dropWhile_append_cons hkey.noEquals, List.tail_cons]
  unfold readLine
  rw [htrim]
  cases hchars : s.1.toList with
  | nil => exact absurd (String.toList_eq_nil_iff.mp hchars) hkey.nonempty
  | cons c cs =>
    have hline : settingLine s = c :: (cs ++ '=' :: s.2.toList) := by
      rw [settingLine, hchars, List.cons_append]
    have hfirst : c ∉ [';', '#', '['] := hkey.first c (by rw [hchars]; rfl)
    have hequals : c ≠ '=' :=
      ne_of_mem_of_not_mem (by rw [hchars]; exact List.mem_cons_self) hkey.noEquals
    have hmem : '=' ∈ cs ++ '=' :: s.2.toList := by simp
    rw [hline] at htake hdrop ⊢
    dsimp only
    rw [if_neg (by grind), if_neg (by grind), if_pos ⟨hequals, hmem⟩, htake, hdrop,
      trim_of_trimmed hkey.trimmed, trim_of_trimmed hvalue.trimmed, String.ofList_toList,
      String.ofList_toList]

theorem readLine_headerLine {name : String} (hname : PlainName name) :
    readLine (headerLine name) = some (.header name) := by
  have htrimmed : Trimmed (headerLine name) := by
    constructor
    · intro c hc
      obtain rfl : '[' = c := by simpa [headerLine] using hc
      decide
    · intro c hc
      rw [headerLine, List.getLast?_append_of_ne_nil _ (List.cons_ne_nil _ _)] at hc
      obtain rfl : ']' = c := by simpa using hc
      decide
  have htake : (name.toList ++ [']']).takeWhile (· ≠ ']') = name.toList :=
    Lines.takeWhile_append_cons hname.noBracket []
  unfold readLine
  rw [trim_of_trimmed htrimmed, headerLine, List.cons_append]
  dsimp only
  rw [if_neg (by decide), if_pos rfl, if_pos (by simp), htake, trim_of_trimmed hname.trimmed,
    String.ofList_toList]

/-- Settings are read into whatever holds those before them. -/
theorem foldlM_settings (into : List Setting → Reading) (before settings : List Setting)
    (hinto : ∀ settings key value,
      addLine (into settings) (.setting key value) = (addSetting settings key value).map into)
    (h : PlainSettings (before ++ settings)) :
    (settings.map settingLine).foldlM step (into before) = some (into (before ++ settings)) := by
  induction settings generalizing before with
  | nil => rw [List.append_nil]; rfl
  | cons s settings ih =>
    have hread := readLine_settingLine (h.keys s (by simp)) (h.values s (by simp))
    have hnew : s.1 ∉ before.map Prod.fst := by
      have hnodup := h.nodup
      rw [List.map_append, List.map_cons, List.nodup_middle, List.nodup_cons, List.mem_append] at hnodup
      exact fun hmem => hnodup.1 (.inl hmem)
    have hstep : step (into before) (settingLine s) = some (into (before ++ [s])) := by
      rw [step, hread, Option.bind_some, hinto, addSetting, if_neg hnew]
      rfl
    have hrest := ih (before ++ [s]) (by rwa [List.append_assoc])
    rw [List.append_assoc, List.singleton_append] at hrest
    rw [List.map_cons, List.foldlM_cons, hstep]
    exact hrest

theorem foldlM_sections {r : Reading} {sections : List Section}
    (hsections : ∀ s ∈ sections, PlainName s.1 ∧ s.2 ≠ [] ∧ PlainSettings s.2)
    (hnames : (r.document.names ++ sections.map Prod.fst).Nodup) :
    ∃ r', (sections.flatMap fun s => headerLine s.1 :: s.2.map settingLine).foldlM step r =
        some r' ∧
      r'.document = ⟨r.document.settings, r.document.sections ++ sections⟩ := by
  induction sections generalizing r with
  | nil => exact ⟨r, rfl, by rw [List.append_nil]⟩
  | cons s sections ih =>
    obtain ⟨name, settings⟩ := s
    rw [List.forall_mem_cons] at hsections
    obtain ⟨⟨hname, hne, hplain⟩, hrest⟩ := hsections
    have hnew : name ∉ r.document.names := by
      rw [List.map_cons, List.nodup_middle, List.nodup_cons, List.mem_append] at hnames
      exact fun hmem => hnames.1 (.inl hmem)
    have hheader : step r (headerLine name) =
        some ⟨r.document.settings, r.document.sections, some (name, [])⟩ := by
      rw [step, readLine_headerLine hname, Option.bind_some, addLine, if_neg hnew]
    have hsettings := foldlM_settings (fun settings =>
      ⟨r.document.settings, r.document.sections, some (name, settings)⟩) [] settings
        (fun _ _ _ => rfl) hplain
    have hdocument : Reading.document
        ⟨r.document.settings, r.document.sections, some (name, settings)⟩ =
          ⟨r.document.settings, r.document.sections ++ [(name, settings)]⟩ := by
      simp [Reading.document, Option.filter, hne]
    obtain ⟨r', hfold, hr'⟩ := ih (r := ⟨_, _, some (name, settings)⟩) hrest (by
      rw [hdocument]
      simpa [Document.names] using hnames)
    refine ⟨r', ?_, ?_⟩
    · rw [List.flatMap_cons, List.cons_append, List.foldlM_cons, hheader, Option.bind_eq_bind,
        Option.bind_some, List.foldlM_append, hsettings]
      exact hfold
    · rw [hr', hdocument, List.append_assoc, List.singleton_append]

theorem newline_not_mem_settingLine {s : Setting} (hkey : PlainKey s.1)
    (hvalue : PlainValue s.2) : '\n' ∉ settingLine s := by
  rw [settingLine, List.mem_append, List.mem_cons]
  rintro (h | h | h)
  · exact hkey.noBreak h
  · exact absurd h (by decide)
  · exact hvalue.noBreak h

theorem newline_not_mem_lines {doc : Document} (h : doc.WellFormed) :
    ∀ line ∈ doc.lines, '\n' ∉ line := by
  have hsettings {settings : List Setting} (hplain : PlainSettings settings) :
      ∀ line ∈ settings.map settingLine, '\n' ∉ line := by
    intro line hline
    obtain ⟨s, hs, rfl⟩ := List.mem_map.mp hline
    exact newline_not_mem_settingLine (hplain.keys s hs) (hplain.values s hs)
  intro line hline
  rcases List.mem_append.mp hline with hline | hline
  · exact hsettings h.settings line hline
  · obtain ⟨s, hs, hline⟩ := List.mem_flatMap.mp hline
    obtain ⟨hname, -, hplain⟩ := h.sections s hs
    rcases List.mem_cons.mp hline with rfl | hline
    · simp [headerLine, hname.noBreak]
    · exact hsettings hplain line hline

theorem parse_print {doc : Document} (h : doc.WellFormed) : parse (print doc) = some doc := by
  have hsettings := foldlM_settings (fun settings => ⟨settings, [], none⟩) [] doc.settings
    (fun _ _ _ => rfl) h.settings
  obtain ⟨r, hsections, hr⟩ := foldlM_sections (r := ⟨doc.settings, [], none⟩) h.sections
    (by simpa [Reading.document, Document.names] using h.names)
  have hsplit : (print doc).splitOn '\n' = doc.lines ++ [[]] := by
    have hsplit := Lines.splitOn_terminated_append (newline_not_mem_lines h)
      (List.not_mem_nil (a := '\n'))
    rwa [List.append_nil] at hsplit
  have hfold : doc.lines.foldlM step {} = some r := by
    rw [Document.lines, List.foldlM_append]
    change ((doc.settings.map settingLine).foldlM step ⟨[], [], none⟩).bind _ = _
    rw [hsettings]
    exact hsections
  -- the last line is what follows the last line break
  have hlast : [[]].foldlM step r = some r := rfl
  rw [parse, hsplit, List.foldlM_append, hfold, Option.bind_eq_bind, Option.bind_some, hlast,
    Option.map_some, hr]
  rfl

end Cloyster.Lib.Ini
