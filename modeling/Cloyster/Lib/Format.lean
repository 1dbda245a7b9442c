import Cloyster.Lib.Text

/-! The format strings of the `fmt` library with string arguments. A template is
scanned once, character by character, into literal characters and replacement
fields; a mistake in it becomes a last segment that throws when it is reached,
so the first mistake in reading order is the one reported. Whether formatting
succeeds depends on the template and on the names of the arguments and never on
their values. What a format specification does to a string is a parameter; a
specification cannot contain a nested field here, since that would have to be
an integer. -/

namespace Cloyster.Lib.Format

inductive FormatError where
  | invalidFormatString | unmatchedBrace | argumentNotFound
  | cannotSwitchToAutomatic | cannotSwitchToManual
  deriving DecidableEq, Repr

def FormatError.what : FormatError → String
  | .invalidFormatString => "invalid format string"
  | .unmatchedBrace => "unmatched '\x7d' in format string"
  | .argumentNotFound => "argument not found"
  | .cannotSwitchToAutomatic => "cannot switch from manual to automatic argument indexing"
  | .cannotSwitchToManual => "cannot switch from automatic to manual argument indexing"

/-- How a replacement field names its argument. -/
inductive ArgId where
  | auto
  | index (n : ℕ)
  | name (s : List Char)
  deriving DecidableEq, Repr

inductive Segment where
  | text (c : Char)
  | field (id : ArgId) (spec : List Char)
  | bad (e : FormatError)
  deriving DecidableEq, Repr

/-- Where the scanner stands: in text, after a `}`, in the name of a field (with
the characters read so far, last one first), or in its specification. -/
inductive Scan where
  | text
  | closed
  | field (read : List Char)
  | spec (id : ArgId) (read : List Char)

def isNameStart (c : Char) : Bool := c.isAlpha || c == '_'

def argId : List Char → Option ArgId
  | [] => some .auto
  | c :: cs =>
    if c.isDigit then
      if (c ≠ '0' ∨ cs = []) ∧ cs.all Char.isDigit then some (.index (Text.digitsValue (c :: cs)))
      else none
    else if isNameStart c ∧ cs.all (fun d => isNameStart d || d.isDigit) then
      some (.name (c :: cs))
    else none

def scan : Scan → List Char → List Segment
  | .text, [] => []
  | .text, c :: cs =>
    if c = '{' then scan (.field []) cs
    else if c = '}' then scan .closed cs
    else .text c :: scan .text cs
  | .closed, [] => [.bad .unmatchedBrace]
  | .closed, c :: cs => if c = '}' then .text '}' :: scan .text cs else [.bad .unmatchedBrace]
  | .field _, [] => [.bad .invalidFormatString]
  | .field read, c :: cs =>
    if c = '{' then
      if read = [] then .text '{' :: scan .text cs else [.bad .invalidFormatString]
    else if c = '}' then
      match argId read.reverse with
      | some id => .field id [] :: scan .text cs
      | none => [.bad .invalidFormatString]
    else if c = ':' then
      match argId read.reverse with
      | some id => scan (.spec id []) cs
      | none => [.bad .invalidFormatString]
    else scan (.field (c :: read)) cs
  | .spec _ _, [] => [.bad .invalidFormatString]
  | .spec id read, c :: cs =>
    if c = '{' then [.bad .invalidFormatString]
    else if c = '}' then .field id read.reverse :: scan .text cs
    else scan (.spec id (c :: read)) cs

/-- Arguments in order, each with its name. -/
abbrev Args := List (List Char × String)

/-- The argument a field names. `next` is the number of automatic fields so far,
or `none` once a field has been named or numbered. -/
def resolve (args : Args) (next : Option ℕ) :
    ArgId → Except FormatError (String × Option ℕ)
  | .auto =>
    match next with
    | none => .error .cannotSwitchToAutomatic
    | some n =>
      match args[n]? with
      | some a => .ok (a.2, some (n + 1))
      | none => .error .argumentNotFound
  | .index i =>
    if next = none ∨ next = some 0 then
      match args[i]? with
      | some a => .ok (a.2, none)
      | none => .error .argumentNotFound
    else .error .cannotSwitchToManual
  | .name s =>
    match args.lookup s with
    | some v => .ok (v, none)
    | none => .error .argumentNotFound

variable (specs : List Char → Option (String → String))

def applySpec (spec : List Char) (value : String) : Except FormatError String :=
  if spec = [] then .ok value
  else
    match specs spec with
    | some f => .ok (f value)
    | none => .error .invalidFormatString

def render (args : Args) : Option ℕ → List Segment → Except FormatError (List Char)
  | _, [] => .ok []
  | next, .text c :: segs => do return c :: (← render args next segs)
  | next, .field id spec :: segs => do
    let (value, next) ← resolve args next id
    let shown ← applySpec specs spec value
    return shown.toList ++ (← render args next segs)
  | _, .bad e :: _ => .error e

/-- `fmt::format(fmt::runtime(template), args...)`. -/
def format (args : Args) (template : String) : Except FormatError String := do
  return String.ofList (← render specs args (some 0) (scan .text template.toList))

variable {specs}

theorem lookup_isSome_congr {args args' : Args} (h : args.map Prod.fst = args'.map Prod.fst)
    (s : List Char) : (args.lookup s).isSome = (args'.lookup s).isSome := by
  induction args generalizing args' with
  | nil =>
    have he : args' = [] := by simpa using h.symm
    rw [he]
  | cons a args ih =>
    cases args' with
    | nil => simp at h
    | cons b args' =>
      simp only [List.map_cons, List.cons.injEq] at h
      rw [List.lookup_cons, List.lookup_cons, h.1]
      by_cases hs : s == b.1
      · rw [hs]; rfl
      · rw [Bool.not_eq_true] at hs
        rw [hs]
        exact ih h.2

theorem getElem?_isSome_congr {args args' : Args}
    (h : args.map Prod.fst = args'.map Prod.fst) (n : ℕ) :
    (args[n]?).isSome = (args'[n]?).isSome := by
  have hlen : args.length = args'.length := by simpa using congrArg List.length h
  rcases lt_or_ge n args.length with hn | hn
  · rw [List.getElem?_eq_getElem hn, List.getElem?_eq_getElem (hlen ▸ hn)]
    rfl
  · rw [List.getElem?_eq_none hn, List.getElem?_eq_none (hlen ▸ hn)]

/-- A field is found, with the same count, whatever the values are. -/
theorem resolve_congr {args args' : Args} (h : args.map Prod.fst = args'.map Prod.fst)
    (next : Option ℕ) (id : ArgId) :
    (resolve args next id).map Prod.snd = (resolve args' next id).map Prod.snd := by
  cases id with
  | auto =>
    cases next with
    | none => rfl
    | some n =>
      have hn := getElem?_isSome_congr h n
      simp only [resolve]
      cases hx : args[n]? <;> cases hy : args'[n]? <;> simp_all [Except.map]
  | index i =>
    have hn := getElem?_isSome_congr h i
    simp only [resolve]
    split_ifs
    · cases hx : args[i]? <;> cases hy : args'[i]? <;> simp_all [Except.map]
    · rfl
  | name s =>
    have hn := lookup_isSome_congr h s
    simp only [resolve]
    cases hx : args.lookup s <;> cases hy : args'.lookup s <;> simp_all [Except.map]

theorem applySpec_congr (specs : List Char → Option (String → String)) (spec : List Char) (v v' : String) :
    (applySpec specs spec v).isOk = (applySpec specs spec v').isOk := by
  unfold applySpec
  split_ifs
  · rfl
  · cases specs spec <;> rfl

/-- A last step that cannot fail does not matter. -/
theorem isOk_bind_pure {ε α β : Type} (x : Except ε α) (g : α → β) :
    (x >>= fun a => pure (g a)).isOk = x.isOk := by
  cases x <;> rfl

/-- Rendering succeeds or fails whatever the values are. -/
theorem render_isOk_congr {args args' : Args} (h : args.map Prod.fst = args'.map Prod.fst)
    (segs : List Segment) (next : Option ℕ) :
    (render specs args next segs).isOk = (render specs args' next segs).isOk := by
  induction segs generalizing next with
  | nil => rfl
  | cons seg segs ih =>
    cases seg with
    | text c => rw [render, render, isOk_bind_pure, isOk_bind_pure, ih]
    | bad e => rfl
    | field id spec =>
      have hres := resolve_congr h next id
      rw [render, render]
      cases hx : resolve args next id with
      | error e =>
        cases hy : resolve args' next id with
        | error e' => rfl
        | ok r' => rw [hx, hy] at hres; simp [Except.map] at hres
      | ok r =>
        cases hy : resolve args' next id with
        | error e' => rw [hx, hy] at hres; simp [Except.map] at hres
        | ok r' =>
          obtain ⟨v, n⟩ := r
          obtain ⟨v', n'⟩ := r'
          obtain rfl : n = n' := by simpa [hx, hy, Except.map] using hres
          have hspec := applySpec_congr specs spec v v'
          change (applySpec specs spec v >>= fun shown => render specs args n segs >>=
              fun rest => pure (shown.toList ++ rest)).isOk =
            (applySpec specs spec v' >>= fun shown => render specs args' n segs >>=
              fun rest => pure (shown.toList ++ rest)).isOk
          cases hs : applySpec specs spec v with
          | error e =>
            cases hs' : applySpec specs spec v' with
            | error e' => rfl
            | ok w' => rw [hs, hs'] at hspec; exact absurd hspec (by simp [Except.toBool])
          | ok w =>
            cases hs' : applySpec specs spec v' with
            | error e' => rw [hs, hs'] at hspec; exact absurd hspec (by simp [Except.toBool])
            | ok w' =>
              have hw := isOk_bind_pure (render specs args n segs) (w.toList ++ ·)
              have hw' := isOk_bind_pure (render specs args' n segs) (w'.toList ++ ·)
              exact hw.trans ((ih n).trans hw'.symm)

/-- Whether a template formats depends on the argument names only. -/
theorem format_isOk_congr {args args' : Args} (h : args.map Prod.fst = args'.map Prod.fst)
    (template : String) : (format specs args template).isOk = (format specs args' template).isOk := by
  rw [format, format, isOk_bind_pure, isOk_bind_pure, render_isOk_congr h]

/-- A segment without a format specification. -/
def Segment.plain : Segment → Bool
  | .field _ spec => spec.isEmpty
  | _ => true

/-- A template without specifications needs none to be known. -/
theorem render_of_plain (specs specs' : List Char → Option (String → String)) (args : Args)
    {segs : List Segment} (h : segs.all Segment.plain) (next : Option ℕ) :
    render specs args next segs = render specs' args next segs := by
  induction segs generalizing next with
  | nil => rfl
  | cons seg segs ih =>
    rw [List.all_cons, Bool.and_eq_true] at h
    obtain ⟨hseg, hsegs⟩ := h
    cases seg with
    | text c => simp only [render, ih hsegs]
    | bad e => rfl
    | field id spec =>
      obtain rfl : spec = [] := by simpa [Segment.plain] using hseg
      simp only [render, applySpec, if_true, ih hsegs]

theorem format_of_plain (specs specs' : List Char → Option (String → String)) (args : Args)
    {template : String} (h : (scan .text template.toList).all Segment.plain) :
    format specs args template = format specs' args template := by
  rw [format, format, render_of_plain specs specs' args h]

/-! ### The end of what is rendered -/

theorem render_append {args : Args} {l r : List Segment} {next : Option ℕ} {out : List Char}
    (h : render specs args next (l ++ r) = .ok out) :
    ∃ next' rest, render specs args next' r = .ok rest ∧ rest <:+ out := by
  induction l generalizing next out with
  | nil => exact ⟨next, out, h, List.suffix_rfl⟩
  | cons seg l ih =>
    cases seg with
    | text c =>
      rw [List.cons_append, render] at h
      cases hrest : render specs args next (l ++ r) with
      | error e => rw [hrest] at h; exact absurd h (by simp [bind, Except.bind])
      | ok out' =>
        rw [hrest] at h
        obtain rfl : c :: out' = out := Except.ok.inj h
        obtain ⟨next', rest, hr, hsuffix⟩ := ih hrest
        exact ⟨next', rest, hr, hsuffix.trans (List.suffix_cons c out')⟩
    | field id spec =>
      rw [List.cons_append, render] at h
      cases hvalue : resolve args next id with
      | error e => rw [hvalue] at h; exact absurd h (by simp [bind, Except.bind])
      | ok value =>
        rw [hvalue] at h
        simp only [bind, Except.bind] at h
        cases hshown : applySpec specs spec value.1 with
        | error e => rw [hshown] at h; exact absurd h (by simp)
        | ok shown =>
          rw [hshown] at h
          dsimp only at h
          cases hrest : render specs args value.2 (l ++ r) with
          | error e => rw [hrest] at h; exact absurd h (by simp)
          | ok out' =>
            rw [hrest] at h
            obtain rfl : shown.toList ++ out' = out := Except.ok.inj h
            obtain ⟨next', rest, hr, hsuffix⟩ := ih hrest
            exact ⟨next', rest, hr, hsuffix.trans (List.suffix_append _ out')⟩
    | bad e => exact absurd h (by simp [render])

/-- The last segments of a template make the end of the text. -/
theorem format_suffix {args : Args} {template s : String} {r : List Segment}
    (hr : r <:+ scan .text template.toList) (h : format specs args template = .ok s) :
    ∃ next rest, render specs args next r = .ok rest ∧ rest <:+ s.toList := by
  obtain ⟨l, hl⟩ := hr
  rw [format, ← hl] at h
  cases hout : render specs args (some 0) (l ++ r) with
  | error e => rw [hout] at h; exact absurd h (by simp [bind, Except.bind])
  | ok out =>
    rw [hout] at h
    obtain rfl : String.ofList out = s := Except.ok.inj h
    rw [String.toList_ofList]
    exact render_append hout

theorem render_texts (args : Args) (next : Option ℕ) (cs : List Char) :
    render specs args next (cs.map .text) = .ok cs := by
  induction cs with
  | nil => rfl
  | cons c cs ih =>
    rw [List.map_cons, render, ih]
    rfl

/-- Characters at the end of a template are the end of the text. -/
theorem format_ends_texts {args : Args} {template s : String} {l : List Char}
    (hl : l.map .text <:+ scan .text template.toList) (h : format specs args template = .ok s) :
    l <:+ s.toList := by
  obtain ⟨next, rest, hrest, hsuffix⟩ := format_suffix hl h
  rw [render_texts] at hrest
  obtain rfl := Except.ok.inj hrest
  exact hsuffix

/-- So is the value of a field before them. -/
theorem format_ends_field {args : Args} {template s : String} {name l : List Char}
    (hl : .field (.name name) [] :: l.map .text <:+ scan .text template.toList)
    (h : format specs args template = .ok s) :
    ∃ value, args.lookup name = some value ∧ value.toList ++ l <:+ s.toList := by
  obtain ⟨next, rest, hrest, hsuffix⟩ := format_suffix hl h
  rw [render, resolve] at hrest
  cases hvalue : args.lookup name with
  | none =>
    rw [hvalue] at hrest
    cases hrest
  | some value =>
    simp only [hvalue, applySpec, if_true, render_texts, bind, Except.bind] at hrest
    obtain rfl := Except.ok.inj hrest
    exact ⟨value, rfl, hsuffix⟩

/-- A character outside the fields is in the text. -/
theorem mem_format {args : Args} {template s : String} {c : Char}
    (hc : .text c ∈ scan .text template.toList) (h : format specs args template = .ok s) :
    c ∈ s.toList := by
  obtain ⟨l, r, hsplit⟩ := List.append_of_mem hc
  obtain ⟨next, rest, hrest, hsuffix⟩ := format_suffix ⟨l, hsplit.symm⟩ h
  rw [render] at hrest
  cases hout : render specs args next r with
  | error e => rw [hout] at hrest; exact absurd hrest (by simp [bind, Except.bind])
  | ok out =>
    rw [hout] at hrest
    obtain rfl : c :: out = rest := Except.ok.inj hrest
    exact hsuffix.subset List.mem_cons_self

example : format (fun _ => none) [(['a'], "x")] "{a}+{{}}" = .ok "x+{}" := by decide +kernel

end Cloyster.Lib.Format
