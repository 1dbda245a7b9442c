import Cloyster.Lib.Lines
import Cloyster.Lib.OrdMap

/-! A text format for key files: `[group]` headers, `key=value` lines, blank lines
between groups, comments after `#`, and GLib's escapes in values. Characters
that could not be read back from a group name or a key are escaped as well, so
every key file survives being written and read. -/

namespace Cloyster.Lib.KeyFileText

/-! ### Escapes -/

/-- The letter after the backslash. -/
def code (c : Char) : Char :=
  if c = '\n' then 'n' else if c = '\t' then 't' else if c = '\r' then 'r'
  else if c = ' ' then 's' else if c = '=' then 'e' else if c = '[' then 'o'
  else if c = '#' then 'h' else c

def uncode (c : Char) : Option Char :=
  if c = 'n' then some '\n' else if c = 't' then some '\t' else if c = 'r' then some '\r'
  else if c = 's' then some ' ' else if c = 'e' then some '=' else if c = 'o' then some '['
  else if c = 'h' then some '#' else if c = '\\' then some '\\' else none

/-- The characters that have an escape. -/
def escapable : List Char := ['\\', '\n', '\t', '\r', ' ', '=', '[', '#']

def groupSpecials : List Char := ['\\', '\n']

def keySpecials : List Char := ['\\', '\n', '=', '[', '#']

def valueSpecials : List Char := ['\\', '\n', '\r']

def escapeChar (specials : List Char) (c : Char) : List Char :=
  if c ∈ specials then ['\\', code c] else [c]

def escape (specials l : List Char) : List Char := l.flatMap (escapeChar specials)

def unescape : List Char → Option (List Char)
  | [] => some []
  | '\\' :: e :: cs => do return (← uncode e) :: (← unescape cs)
  | ['\\'] => none
  | c :: cs => do return c :: (← unescape cs)

def isBlank (c : Char) : Bool := c == ' ' || c == '\t'

/-- Leading blanks are escaped, so that reading may skip blanks after the `=`. -/
def escapeValue (l : List Char) : List Char :=
  escape escapable (l.takeWhile isBlank) ++ escape valueSpecials (l.dropWhile isBlank)

theorem unescape_cons {c : Char} (h : c ≠ '\\') (cs : List Char) :
    unescape (c :: cs) = (unescape cs).map (c :: ·) := by
  rw [unescape.eq_4 c cs (fun _ _ hc _ => h hc) (fun hc _ => h hc)]
  cases unescape cs <;> rfl

theorem uncode_code {c : Char} (h : c ∈ escapable) : uncode (code c) = some c := by
  have hall : (escapable.all fun c => uncode (code c) == some c) = true := by decide
  exact beq_iff_eq.mp (List.all_eq_true.mp hall c h)

/-- One escaped character is read back as itself. -/
theorem unescape_escapeChar {specials : List Char} (hsub : ∀ c ∈ specials, c ∈ escapable)
    (hback : '\\' ∈ specials) (c : Char) (rest : List Char) :
    unescape (escapeChar specials c ++ rest) = (unescape rest).map (c :: ·) := by
  unfold escapeChar
  split_ifs with h
  · change (do return (← uncode (code c)) :: (← unescape rest)) = _
    rw [uncode_code (hsub c h)]
    cases unescape rest <;> rfl
  · have hc : c ≠ '\\' := fun he => h (he ▸ hback)
    exact unescape_cons hc rest

theorem unescape_escape_append {specials : List Char} (hsub : ∀ c ∈ specials, c ∈ escapable)
    (hback : '\\' ∈ specials) (l rest : List Char) :
    unescape (escape specials l ++ rest) = (unescape rest).map (l ++ ·) := by
  induction l with
  | nil => simp [escape]
  | cons c l ih =>
    have hstep := unescape_escapeChar hsub hback c (escape specials l ++ rest)
    rw [escape, List.flatMap_cons, List.append_assoc, ← escape, hstep, ih, Option.map_map]
    rfl

theorem unescape_escape {specials : List Char} (hsub : ∀ c ∈ specials, c ∈ escapable)
    (hback : '\\' ∈ specials) (l : List Char) : unescape (escape specials l) = some l := by
  have h := unescape_escape_append hsub hback l []
  simpa [unescape] using h

theorem groupSpecials_sub : ∀ c ∈ groupSpecials, c ∈ escapable := by
  simp [groupSpecials, escapable]

theorem keySpecials_sub : ∀ c ∈ keySpecials, c ∈ escapable := by
  simp [keySpecials, escapable]

theorem valueSpecials_sub : ∀ c ∈ valueSpecials, c ∈ escapable := by
  simp [valueSpecials, escapable]

theorem unescape_escapeValue (l : List Char) : unescape (escapeValue l) = some l := by
  rw [escapeValue, unescape_escape_append (fun _ h => h) (by decide),
    unescape_escape valueSpecials_sub (by decide), Option.map_some, List.takeWhile_append_dropWhile]

/-- The letters of the escapes are not special. -/
theorem code_not_special {c d : Char} (hc : c ∈ escapable) (hd : d ∈ escapable) (h : c ≠ '\\') :
    c ≠ code d := by
  have hall : (escapable.all fun c => escapable.all fun d => c == '\\' || c != code d) = true := by
    decide
  have hcd := List.all_eq_true.mp (List.all_eq_true.mp hall c hc) d hd
  simpa [h] using hcd

/-- A special character never appears in escaped text, the backslash apart. -/
theorem not_mem_escape {specials : List Char} (hsub : ∀ c ∈ specials, c ∈ escapable) {c : Char}
    (hc : c ∈ specials) (hback : c ≠ '\\') (l : List Char) : c ∉ escape specials l := by
  intro h
  obtain ⟨d, -, hd⟩ := List.mem_flatMap.mp h
  unfold escapeChar at hd
  split_ifs at hd with hs
  · rcases List.mem_cons.mp hd with rfl | hd
    · exact hback rfl
    · exact code_not_special (hsub c hc) (hsub d hs) hback (List.mem_singleton.mp hd)
  · obtain rfl := List.mem_singleton.mp hd
    exact hs hc

theorem newline_not_mem_escapeValue (l : List Char) : '\n' ∉ escapeValue l := by
  rw [escapeValue, List.mem_append, not_or]
  exact ⟨not_mem_escape (fun _ h => h) (by decide) (by decide) _,
    not_mem_escape valueSpecials_sub (by decide) (by decide) _⟩

theorem head?_escape {specials l : List Char} {c : Char} (h : (escape specials l).head? = some c) :
    c = '\\' ∨ l.head? = some c ∧ c ∉ specials := by
  cases l with
  | nil => simp [escape] at h
  | cons d l =>
    rw [escape, List.flatMap_cons] at h
    unfold escapeChar at h
    split_ifs at h with hd
    · exact Or.inl (by simpa using h.symm)
    · obtain rfl : d = c := by simpa using h
      exact Or.inr ⟨rfl, hd⟩

/-- An escaped value does not start with a blank. -/
theorem dropWhile_escapeValue (l : List Char) :
    (escapeValue l).dropWhile isBlank = escapeValue l := by
  rw [List.dropWhile_eq_self_iff]
  intro hlen hblank
  have hhead : (escapeValue l).head? = some (escapeValue l)[0] := by
    rw [List.head?_eq_getElem?, List.getElem?_eq_getElem hlen]
  generalize (escapeValue l)[0] = c at hhead hblank
  have hc : c = ' ' ∨ c = '\t' := by simpa [isBlank] using hblank
  rw [escapeValue, List.head?_append] at hhead
  cases hfirst : (escape escapable (l.takeWhile isBlank)).head? with
  | some d =>
    obtain rfl : d = c := by simpa [hfirst] using hhead
    rcases head?_escape hfirst with rfl | ⟨-, hd⟩
    · simp at hc
    · rcases hc with rfl | rfl <;> exact hd (by decide)
  | none =>
    rw [hfirst, Option.none_or] at hhead
    rcases head?_escape hhead with rfl | ⟨hd, -⟩
    · simp at hc
    · have hnot := List.head?_dropWhile_not isBlank l
      rw [hd] at hnot
      simp [hblank] at hnot

/-! ### Lines -/

def splitLines : List Char → List (List Char)
  | [] => [[]]
  | c :: cs =>
    if c = '\n' then [] :: splitLines cs
    else
      match splitLines cs with
      | line :: lines => (c :: line) :: lines
      | [] => [[c]]

def joinLines (lines : List (List Char)) : List Char := lines.flatMap (· ++ ['\n'])

theorem splitLines_append {line : List Char} (h : '\n' ∉ line) (rest : List Char) :
    splitLines (line ++ '\n' :: rest) = line :: splitLines rest := by
  induction line with
  | nil => simp [splitLines]
  | cons c line ih =>
    rw [List.mem_cons, not_or] at h
    rw [List.cons_append, splitLines, if_neg (Ne.symm h.1), ih h.2]

theorem splitLines_joinLines {lines : List (List Char)} (h : ∀ line ∈ lines, '\n' ∉ line) :
    splitLines (joinLines lines) = lines ++ [[]] := by
  induction lines with
  | nil => rfl
  | cons line lines ih =>
    rw [List.forall_mem_cons] at h
    rw [joinLines, List.flatMap_cons, List.append_assoc, List.singleton_append,
      splitLines_append h.1, ← joinLines, ih h.2, List.cons_append]

/-! ### Writing -/

def keyLine (entry : String × String) : List Char :=
  escape keySpecials entry.1.toList ++ '=' :: escapeValue entry.2.toList

def headerLine (group : String) : List Char :=
  '[' :: (escape groupSpecials group.toList ++ [']'])

def groupLines (group : String × OrdMap String String) : List (List Char) :=
  headerLine group.1 :: group.2.entries.map keyLine

/-- The lines of a file; groups are separated by a blank line. -/
def fileLines : List (String × OrdMap String String) → List (List Char)
  | [] => []
  | [group] => groupLines group
  | group :: groups => groupLines group ++ [] :: fileLines groups

def render (file : OrdMap String (OrdMap String String)) : String :=
  String.ofList (joinLines (fileLines file.entries))

/-! ### Reading -/

def readString (l : List Char) : Option String := (unescape l).map String.ofList

def readKeyLine (line : List Char) : Option (String × String) := do
  let key ← readString (line.takeWhile (· ≠ '='))
  let value ← readString (((line.dropWhile (· ≠ '=')).drop 1).dropWhile isBlank)
  return (key, value)

/-- The entries before the first header, and the groups after it. -/
def readLines :
    List (List Char) → Option (List (String × String) × List (String × List (String × String)))
  | [] => some ([], [])
  | line :: lines => do
    let (entries, groups) ← readLines lines
    if line.head? = none ∨ line.head? = some '#' then return (entries, groups)
    else if line.head? = some '[' then
      return ([], (← readString (line.drop 1).dropLast, entries) :: groups)
    else return ((← readKeyLine line) :: entries, groups)

/-- Groups of one name are merged; a key outside any group is an error. -/
def parse (text : String) : Option (OrdMap String (OrdMap String String)) := do
  let (entries, groups) ← readLines (splitLines text.toList)
  if entries ≠ [] then none
  else
    return groups.foldl (fun file group => file.set group.1
      (group.2.foldl (fun keys e => keys.set e.1 e.2) ((file.get? group.1).getD ∅))) ∅

/-! ### What is refused -/

/-- Neither blank nor a comment nor a header. -/
def IsKeyLine (line : List Char) : Prop :=
  ¬ (line.head? = none ∨ line.head? = some '#') ∧ line.head? ≠ some '['

theorem readLines_key_first {comments : List (List Char)} {line : List Char}
    (hcomments : ∀ l ∈ comments, l.head? = none ∨ l.head? = some '#') (hline : IsKeyLine line)
    (lines : List (List Char)) {entries : List (String × String)}
    {groups : List (String × List (String × String))}
    (h : readLines (comments ++ line :: lines) = some (entries, groups)) : entries ≠ [] := by
  induction comments generalizing groups with
  | nil =>
    rw [List.nil_append, readLines] at h
    obtain ⟨⟨before, after⟩, -, h⟩ := Option.bind_eq_some_iff.mp h
    simp only [if_neg hline.1, if_neg hline.2] at h
    obtain ⟨entry, -, h⟩ := Option.bind_eq_some_iff.mp h
    obtain ⟨rfl, -⟩ := Prod.mk.inj (Option.some.inj h)
    exact List.cons_ne_nil _ _
  | cons comment comments ih =>
    rw [List.forall_mem_cons] at hcomments
    rw [List.cons_append, readLines] at h
    obtain ⟨⟨before, after⟩, hread, h⟩ := Option.bind_eq_some_iff.mp h
    simp only [if_pos hcomments.1] at h
    obtain ⟨rfl, rfl⟩ := Prod.mk.inj (Option.some.inj h)
    exact ih hcomments.2 hread

/-- A key before the first header is an error. -/
theorem parse_key_first {comments : List (List Char)} {line rest : List Char} {text : String}
    (hcomments : ∀ l ∈ comments, '\n' ∉ l ∧ (l.head? = none ∨ l.head? = some '#'))
    (hline : IsKeyLine line) (hbreak : '\n' ∉ line)
    (htext : text.toList = joinLines comments ++ (line ++ '\n' :: rest)) : parse text = none := by
  have hsplit : splitLines text.toList = comments ++ line :: splitLines rest := by
    rw [htext]
    clear htext
    induction comments with
    | nil => exact splitLines_append hbreak rest
    | cons comment comments ih =>
      rw [List.forall_mem_cons] at hcomments
      rw [joinLines, List.flatMap_cons, List.append_assoc, List.append_assoc, List.singleton_append,
        splitLines_append hcomments.1.1, ← joinLines, ih hcomments.2, List.cons_append]
  rw [parse, hsplit]
  cases hread : readLines (comments ++ line :: splitLines rest) with
  | none => rfl
  | some read =>
    obtain ⟨entries, groups⟩ := read
    have hne := readLines_key_first (fun l hl => (hcomments l hl).2) hline _ hread
    simp [hne]

/-! ### What is written is read back -/

theorem readString_escape {specials : List Char} (hsub : ∀ c ∈ specials, c ∈ escapable)
    (hback : '\\' ∈ specials) (s : String) : readString (escape specials s.toList) = some s := by
  rw [readString, unescape_escape hsub hback, Option.map_some, String.ofList_toList]

theorem readKeyLine_keyLine (entry : String × String) :
    readKeyLine (keyLine entry) = some entry := by
  have hkey : '=' ∉ escape keySpecials entry.1.toList :=
    not_mem_escape keySpecials_sub (by decide) (by decide) _
  have htake : (keyLine entry).takeWhile (· ≠ '=') = escape keySpecials entry.1.toList :=
    Lines.takeWhile_append_cons hkey _
  have hdrop : (keyLine entry).dropWhile (· ≠ '=') = '=' :: escapeValue entry.2.toList :=
    Lines.dropWhile_append_cons hkey _
  have hvalue : readString (escapeValue entry.2.toList) = some entry.2 := by
    rw [readString, unescape_escapeValue, Option.map_some, String.ofList_toList]
  rw [readKeyLine, htake, hdrop, List.drop_one, List.tail_cons, dropWhile_escapeValue,
    readString_escape keySpecials_sub (by decide), hvalue]
  rfl

/-- A key line is neither blank nor a comment nor a header. -/
theorem head?_keyLine (entry : String × String) :
    ¬ ((keyLine entry).head? = none ∨ (keyLine entry).head? = some '#') ∧
      (keyLine entry).head? ≠ some '[' := by
  have hspecial : ∀ c ∈ ['#', '['], (keyLine entry).head? ≠ some c := by
    intro c hc hhead
    have hc' : c ∈ keySpecials ∧ c ≠ '\\' ∧ c ≠ '=' := by
      rcases List.mem_pair.mp hc with rfl | rfl <;> decide
    rw [keyLine, List.head?_append, List.head?_cons] at hhead
    cases hfirst : (escape keySpecials entry.1.toList).head? with
    | some d =>
      obtain rfl : d = c := by simpa [hfirst] using hhead
      rcases head?_escape hfirst with h | ⟨-, h⟩
      · exact hc'.2.1 h
      · exact h hc'.1
    | none =>
      obtain rfl : '=' = c := by simpa [hfirst] using hhead
      exact hc'.2.2 rfl
  refine ⟨?_, hspecial '[' (by simp)⟩
  rintro (hnone | hhash)
  · simp [keyLine] at hnone
  · exact hspecial '#' (by simp) hhash

theorem readLines_keyLines (entries : List (String × String)) {rest : List (List Char)}
    {before : List (String × String)} {groups : List (String × List (String × String))}
    (h : readLines rest = some (before, groups)) :
    readLines (entries.map keyLine ++ rest) = some (entries ++ before, groups) := by
  induction entries with
  | nil => exact h
  | cons entry entries ih =>
    obtain ⟨hblank, hheader⟩ := head?_keyLine entry
    rw [List.map_cons, List.cons_append, readLines, ih]
    simp only [Option.bind_eq_bind, Option.bind_some, if_neg hblank, if_neg hheader,
      readKeyLine_keyLine]
    rfl

theorem readLines_groupLines (group : String × OrdMap String String) {rest : List (List Char)}
    {groups : List (String × List (String × String))} (h : readLines rest = some ([], groups)) :
    readLines (groupLines group ++ rest) =
      some ([], (group.1, group.2.entries) :: groups) := by
  have hname : readString ((headerLine group.1).drop 1).dropLast = some group.1 := by
    rw [headerLine, List.drop_one, List.tail_cons, List.dropLast_concat]
    exact readString_escape groupSpecials_sub (by decide) _
  rw [groupLines, List.cons_append, readLines, readLines_keyLines _ h, List.append_nil]
  simp only [Option.bind_eq_bind, Option.bind_some, hname]
  rfl

theorem fileLines_cons_cons (group next : String × OrdMap String String)
    (groups : List (String × OrdMap String String)) :
    fileLines (group :: next :: groups) =
      groupLines group ++ [] :: fileLines (next :: groups) := rfl

theorem readLines_fileLines (groups : List (String × OrdMap String String)) :
    readLines (fileLines groups ++ [[]]) =
      some ([], groups.map fun group => (group.1, group.2.entries)) := by
  have hend : readLines [[]] = some ([], []) := rfl
  induction groups with
  | nil => exact hend
  | cons group groups ih =>
    cases groups with
    | nil => exact readLines_groupLines group hend
    | cons next groups =>
      have hblank : readLines ([] :: (fileLines (next :: groups) ++ [[]])) =
          some ([], (next :: groups).map fun group => (group.1, group.2.entries)) := by
        rw [readLines, ih]
        rfl
      rw [fileLines_cons_cons, List.append_assoc, List.cons_append]
      exact readLines_groupLines group hblank

theorem newline_not_mem_fileLines (groups : List (String × OrdMap String String)) :
    ∀ line ∈ fileLines groups, '\n' ∉ line := by
  have hgroup : ∀ group, ∀ line ∈ groupLines group, '\n' ∉ line := by
    intro group line hline
    rcases List.mem_cons.mp hline with rfl | hline
    · simp only [headerLine, List.mem_cons, List.mem_append, List.not_mem_nil, or_false,
        Char.reduceEq, false_or]
      exact not_mem_escape groupSpecials_sub (by decide) (by decide) _
    · obtain ⟨entry, -, rfl⟩ := List.mem_map.mp hline
      rw [keyLine, List.mem_append, List.mem_cons, not_or, not_or]
      exact ⟨not_mem_escape keySpecials_sub (by decide) (by decide) _, by decide,
        newline_not_mem_escapeValue _⟩
  induction groups with
  | nil => intro line hline; exact absurd hline List.not_mem_nil
  | cons group groups ih =>
    cases groups with
    | nil => exact hgroup group
    | cons next groups =>
      intro line hline
      rw [fileLines_cons_cons, List.mem_append, List.mem_cons] at hline
      rcases hline with hline | rfl | hline
      · exact hgroup group line hline
      · exact List.not_mem_nil
      · exact ih line hline

/-- Merging distinct groups into an empty file gives the groups. -/
theorem foldl_groups (groups : List (String × OrdMap String String))
    {file : OrdMap String (OrdMap String String)}
    (h : (file.keys ++ groups.map Prod.fst).Nodup) :
    (groups.map fun group => (group.1, group.2.entries)).foldl (fun file group => file.set group.1
      (group.2.foldl (fun keys e => keys.set e.1 e.2) ((file.get? group.1).getD ∅))) file =
      groups.foldl (fun file group => file.set group.1 group.2) file := by
  induction groups generalizing file with
  | nil => rfl
  | cons group groups ih =>
    have hnew : group.1 ∉ file.keys := by
      intro hm
      exact (List.nodup_append.mp h).2.2 group.1 hm group.1 (by simp) rfl
    have hkeys : (file.set group.1 group.2).keys = file.keys ++ [group.1] := by
      rw [OrdMap.keys_set, if_neg hnew]
    rw [List.map_cons, List.foldl_cons, List.foldl_cons,
      (OrdMap.get?_eq_none_iff file group.1).mpr hnew, Option.getD_none,
      OrdMap.foldl_set_entries, ih (by simpa [hkeys] using h)]

/-- A key file is read back as it was written. -/
theorem parse_render (file : OrdMap String (OrdMap String String)) :
    parse (render file) = some file := by
  rw [parse, render, String.toList_ofList,
    splitLines_joinLines (newline_not_mem_fileLines file.entries), readLines_fileLines]
  have hkeys : ((∅ : OrdMap String (OrdMap String String)).keys ++
      file.entries.map Prod.fst).Nodup := file.nodup
  have hmerge := foldl_groups file.entries hkeys
  simp only [Option.bind_eq_bind, Option.bind_some, hmerge, OrdMap.foldl_set_entries]
  rfl

end Cloyster.Lib.KeyFileText
