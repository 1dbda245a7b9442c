import Mathlib

/-! The string and number routines of the C++ standard library and of Boost's
string algorithms that the program calls: searching, stripping, splitting at
runs of separators, file name extensions, and the decimal conversions with
their two ways to fail. -/

namespace Cloyster.Lib.Text

def startsWith (s pre : String) : Bool := pre.toList.isPrefixOf s.toList

def endsWith (s suf : String) : Bool := suf.toList.isSuffixOf s.toList

/-- `std::string::find` finds `sub` somewhere in `s`. -/
def contains (s sub : String) : Bool := decide (sub.toList <:+: s.toList)

def lower (s : String) : String := String.ofList (s.toList.map Char.toLower)

/-- Cut the longest tail made of the characters of `trailing`. -/
def rstrip (s trailing : String) : String :=
  String.ofList (s.toList.rdropWhile (· ∈ trailing.toList))

/-- `s.substr(s.find_first_of(c) + 1)`: all of `s` when there is no `c`. -/
def afterFirst (c : Char) (s : String) : String :=
  if c ∈ s.toList then String.ofList (s.toList.dropWhile (· ≠ c)).tail else s

/-- The last component of a path. -/
def filename (path : String) : String :=
  String.ofList (path.toList.reverse.takeWhile (· ≠ '/')).reverse

/-- The number of bytes. -/
def size (s : String) : ℕ := (s.toList.map Char.utf8Size).sum

theorem startsWith_singleton (s : String) (c : Char) :
    startsWith s (String.singleton c) ↔ s.toList.head? = some c := by
  rw [startsWith, String.toList_singleton]
  cases s.toList with
  | nil => simp
  | cons d ds =>
    show (c == d && [].isPrefixOf ds) = true ↔ some d = some c
    rw [List.isPrefixOf_nil_left, Bool.and_true, beq_iff_eq, Option.some_inj]
    exact eq_comm

theorem endsWith_singleton (s : String) (c : Char) :
    endsWith s (String.singleton c) ↔ s.toList.getLast? = some c := by
  rw [endsWith, String.toList_singleton, List.isSuffixOf_iff_suffix]
  constructor
  · rintro ⟨ds, hds⟩
    rw [← hds]
    simp
  · intro h
    obtain ⟨ds, hds⟩ := List.getLast?_eq_some_iff.mp h
    exact ⟨ds, hds.symm⟩

/-- What is cut is made of the characters of `trailing`. -/
theorem exists_rstrip_append (s trailing : String) :
    ∃ cut, (rstrip s trailing).toList ++ cut = s.toList ∧ ∀ c ∈ cut, c ∈ trailing.toList := by
  refine ⟨s.toList.rtakeWhile (· ∈ trailing.toList), ?_, fun c hc => ?_⟩
  · rw [rstrip, String.toList_ofList, List.rdropWhile_append_rtakeWhile]
  · simpa using List.mem_rtakeWhile_imp hc

/-- What is left ends with none of them. -/
theorem not_mem_of_rstrip_eq_append {s trailing : String} {l : List Char} {c : Char}
    (h : (rstrip s trailing).toList = l ++ [c]) : c ∉ trailing.toList := by
  rw [rstrip, String.toList_ofList] at h
  have hne : s.toList.rdropWhile (· ∈ trailing.toList) ≠ [] := by simp [h]
  have hlast := List.rdropWhile_last_not (· ∈ trailing.toList) s.toList hne
  simpa [h] using hlast

/-- At most `n` characters are left exactly when all from there on can be cut. -/
theorem length_rstrip_le_iff {s trailing : String} {n : ℕ} :
    (rstrip s trailing).toList.length ≤ n ↔ ∀ c ∈ s.toList.drop n, c ∈ trailing.toList := by
  obtain ⟨cut, hcut, htrailing⟩ := exists_rstrip_append s trailing
  rw [← hcut, List.drop_append]
  constructor
  · intro hle c hc
    rw [List.drop_of_length_le hle, List.nil_append] at hc
    exact htrailing c (List.mem_of_mem_drop hc)
  · intro hdrop
    by_contra hlt
    rcases List.eq_nil_or_concat' (rstrip s trailing).toList with hnil | ⟨kept, c, hkept⟩
    · simp [hnil] at hlt
    · rw [hkept, List.length_append, List.length_singleton] at hlt
      refine not_mem_of_rstrip_eq_append hkept (hdrop c (List.mem_append_left _ ?_))
      rw [hkept, List.drop_append_of_le_length (by omega)]
      simp

/-- One slash is cut when something else stands before it. -/
theorem getLast?_rstrip {s trailing : String} {c d : Char} (h : [c, d] <:+ s.toList)
    (hc : c ∉ trailing.toList) (hd : d ∈ trailing.toList) :
    (rstrip s trailing).toList.getLast? = some c := by
  obtain ⟨l, hl⟩ := h
  rw [rstrip, String.toList_ofList, ← hl, List.append_cons]
  rw [List.rdropWhile_concat_pos _ _ _ (by simpa using hd),
    List.rdropWhile_concat_neg _ _ _ (by simpa using hc), List.getLast?_append_of_ne_nil _ (by simp)]
  rfl

theorem length_toList_le_size (s : String) : s.toList.length ≤ size s := by
  unfold size
  induction s.toList with
  | nil => simp
  | cons c cs ih =>
    have hpos : 0 < c.utf8Size := Char.utf8Size_pos c
    rw [List.map_cons, List.sum_cons, List.length_cons]
    omega

/-- Characters of one byte are counted as they are. -/
theorem size_of_forall {s : String} (h : ∀ c ∈ s.toList, c.utf8Size = 1) :
    size s = s.toList.length := by
  rw [size, List.map_congr_left h, List.map_const', List.sum_replicate, smul_eq_mul, mul_one]

@[simp] theorem toList_lower (s : String) : (lower s).toList = s.toList.map Char.toLower :=
  String.toList_ofList

theorem utf8Size_toLower (c : Char) : c.toLower.utf8Size = c.utf8Size := by
  unfold Char.toLower
  split_ifs with h
  · have hlt : c.val + 32 ≤ 127 := by grind
    have hle : c.val ≤ 127 := by grind
    simp [Char.utf8Size, hlt, hle]
  · rfl

theorem toLower_toLower (c : Char) : c.toLower.toLower = c.toLower := by
  unfold Char.toLower
  grind

@[simp] theorem size_lower (s : String) : size (lower s) = size s := by
  rw [size, toList_lower, List.map_map]
  exact congrArg List.sum (List.map_congr_left fun c _ => utf8Size_toLower c)

@[simp] theorem lower_lower (s : String) : lower (lower s) = lower s := by
  rw [lower, toList_lower, List.map_map]
  exact congrArg String.ofList (List.map_congr_left fun c _ => toLower_toLower c)

/-- The regular expression `^[class]+$`. -/
def matchesClass (s : String) (cls : Char → Bool) : Bool := s.toList ≠ [] && s.toList.all cls

/-- A regular expression that is a sequence of character classes. -/
def matchesClasses : List (Char → Bool) → List Char → Bool
  | [], [] => true
  | cls :: classes, c :: cs => cls c && matchesClasses classes cs
  | _, _ => false

/-- What matches still does after a change of letters that every class allows. -/
theorem matchesClasses_map {f : Char → Char} {classes : List (Char → Bool)} {cs : List Char}
    (hf : ∀ cls ∈ classes, ∀ c, cls c → cls (f c)) (h : matchesClasses classes cs) :
    matchesClasses classes (cs.map f) := by
  induction classes generalizing cs with
  | nil =>
    cases cs with
    | nil => rfl
    | cons c cs => exact absurd h (by simp [matchesClasses])
  | cons cls classes ih =>
    cases cs with
    | nil => exact absurd h (by simp [matchesClasses])
    | cons c cs =>
      rw [List.forall_mem_cons] at hf
      rw [matchesClasses, Bool.and_eq_true] at h
      rw [List.map_cons, matchesClasses, Bool.and_eq_true]
      exact ⟨hf.1 c h.1, ih hf.2 h.2⟩

/-! ### Splitting -/

/-- Split at runs of separators, as `boost::split` does with
`token_compress_on`: a run at either end leaves an empty token there. -/
def splitCompress (sep : Char → Bool) : List Char → List (List Char)
  | [] => [[]]
  | c :: cs =>
    if sep c then
      match cs with
      -- only the last separator of a run makes a boundary
      | d :: _ => if sep d then splitCompress sep cs else [] :: splitCompress sep cs
      | [] => [[], []]
    else
      match splitCompress sep cs with
      | t :: ts => (c :: t) :: ts
      | [] => [[c]]

def split (s seps : String) : List String :=
  (splitCompress (· ∈ seps.toList) s.toList).map String.ofList

/-! ### File names -/

/-- `std::filesystem::path::extension` of a file name: from the last period on,
unless that period is the first character. -/
def extension (name : String) : String :=
  if name = "." ∨ name = ".." then ""
  else
    match name.toList.reverse.dropWhile (· ≠ '.') with
    | [] => ""
    | [_] => ""
    | _ :: _ :: _ => String.ofList ('.' :: (name.toList.reverse.takeWhile (· ≠ '.')).reverse)

example : extension "epel.repo" = ".repo" := by decide
example : extension ".repo" = "" := by decide

/-! ### Numbers -/

inductive NumError where
  | invalidArgument | outOfRange
  deriving DecidableEq, Repr

def isSpace (c : Char) : Bool := c ∈ [' ', '\t', '\n', '\r', '\x0b', '\x0c']

def digitsValue (ds : List Char) : ℕ := ds.foldl (fun n c => 10 * n + (c.toNat - '0'.toNat)) 0

/-- The sign and the magnitude of the numeral a string starts with, after blanks. -/
def leadingNumeral (s : String) : Option (Bool × ℕ) :=
  let body := s.toList.dropWhile isSpace
  let (neg, rest) := match body with
    | '-' :: r => (true, r)
    | '+' :: r => (false, r)
    | r => (false, r)
  let ds := rest.takeWhile Char.isDigit
  if ds = [] then none else some (neg, digitsValue ds)

/-- `std::stoi` with a 32-bit `int`. -/
def stoi (s : String) : Except NumError ℤ :=
  match leadingNumeral s with
  | none => .error .invalidArgument
  | some (neg, n) =>
    let v : ℤ := if neg then -n else n
    if -2 ^ 31 ≤ v ∧ v < 2 ^ 31 then .ok v else .error .outOfRange

/-- `std::stoul` with a 64-bit `unsigned long`: a minus sign negates modulo `2 ^ 64`. -/
def stoul (s : String) : Except NumError ℕ :=
  match leadingNumeral s with
  | none => .error .invalidArgument
  | some (neg, n) =>
    if n < 2 ^ 64 then .ok (if neg then (2 ^ 64 - n) % 2 ^ 64 else n) else .error .outOfRange

example : stoul "-1" = .ok (2 ^ 64 - 1) := by decide

/-- `fmt`'s `{:0>{}}` of a natural number. -/
def zeroPad (n width : ℕ) : String :=
  String.ofList ((toString n).toList.leftpad width '0')

end Cloyster.Lib.Text
