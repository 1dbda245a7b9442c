import Cloyster.Lib.InputStream

/-! What a command writes, read line by line while it runs and collected when it has ended.
The proxy keeps a flag beside the bits of its stream. The reader of a line clears the flag when
the stream had nothing more, and its caller then sets the flag again to what it found before
reading. -/

namespace Cloyster.Services

open Lib Lib.Lines

/-- A `std::string` as its bytes. -/
abbrev Bytes := List UInt8

def newline : UInt8 := 10

structure CommandProxy where
  valid : Bool := false
  pipe_stream : InputStream UInt8
  deriving DecidableEq

namespace CommandProxy

/-- What is read once the stream is good. A failed read clears the flag. -/
def linecheck (chr : UInt8) : StateM CommandProxy Bytes := fun proxy =>
  match proxy.pipe_stream.getline chr with
  | (some line, pipe) => (line, { proxy with pipe_stream := pipe })
  | (none, pipe) => ([], { proxy with valid := false, pipe_stream := pipe })

def retrieveLine (linecheck : StateM CommandProxy Bytes) :
    StateM CommandProxy (Bool × Option Bytes) := do
  if (← get).pipe_stream.good then return (true, some (← linecheck))
  return ((← get).pipe_stream.good, none)

def getUntil (chr : UInt8) : StateM CommandProxy (Option Bytes) := do
  if !(← get).valid then return none
  let (new_valid, out_line) ← retrieveLine (linecheck chr)
  modify fun proxy => { proxy with valid := new_valid }
  return out_line

def getline : StateM CommandProxy (Option Bytes) := do
  if !(← get).valid then return none
  let (new_valid, out_line) ← retrieveLine (linecheck newline)
  modify fun proxy => { proxy with valid := new_valid }
  return out_line

/-- The proxy of a command that was started and writes these bytes. -/
def opened (bytes : Bytes) : CommandProxy := ⟨true, ⟨bytes, false, false⟩⟩

theorem getline_eq_getUntil : getline = getUntil newline := rfl

variable {chr : UInt8} {l r : Bytes}

/-! ### One call -/

theorem getUntil_good {input : Bytes} {line : Option Bytes} {pipe : InputStream UInt8}
    (h : InputStream.getline chr ⟨input, false, false⟩ = (line, pipe)) :
    getUntil chr (opened input) = (some (line.getD []), ⟨true, pipe⟩) := by
  have hlinecheck : (linecheck chr (opened input)).1 = line.getD [] ∧
      (linecheck chr (opened input)).2.pipe_stream = pipe := by
    simp only [linecheck, opened, h]
    cases line <;> exact ⟨rfl, rfl⟩
  obtain ⟨hline, hpipe⟩ := hlinecheck
  change (some (linecheck chr (opened input)).1,
    { (linecheck chr (opened input)).2 with valid := true }) = _
  rw [hline, ← hpipe]

theorem getUntil_separator (hl : chr ∉ l) (r : Bytes) :
    getUntil chr (opened (l ++ chr :: r)) = (some l, opened r) :=
  getUntil_good (InputStream.getline_separator hl r)

/-- The stream has ended: nothing is given, now and ever after. -/
theorem yields_ended {pipe : InputStream UInt8} (h : pipe.good = false) :
    Yields (getUntil chr) ⟨true, pipe⟩ [] := by
  have hfirst : getUntil chr ⟨true, pipe⟩ = (none, ⟨false, pipe⟩) := by
    simp [getUntil, retrieveLine, h, bind, StateT.bind, get, getThe, MonadStateOf.get, StateT.get,
      modify, modifyGet, MonadStateOf.modifyGet, StateT.modifyGet, pure, StateT.pure]
  exact yields_of_none hfirst (yields_nil rfl)

/-! ### All calls -/

/-- What follows the last separator is given as a line even when it is empty. -/
theorem yields_rest (hr : chr ∉ r) : Yields (getUntil chr) (opened r) [r] := by
  by_cases hne : r = []
  · subst hne
    exact yields_cons (getUntil_good (InputStream.getline_nil chr)) (yields_ended rfl)
  · exact yields_cons (getUntil_good (InputStream.getline_last hr hne)) (yields_ended rfl)

theorem yields_splitOn (chr : UInt8) (bytes : Bytes) :
    Yields (getUntil chr) (opened bytes) (bytes.splitOn chr) := by
  induction bytes using lines_induction chr with
  | last r hr =>
    rw [List.splitOn_eq_singleton hr]
    exact yields_rest hr
  | line l bytes hl ih =>
    rw [List.splitOn_append_cons_self_of_not_mem hl]
    exact yields_cons (getUntil_separator hl bytes) ih

theorem yields_lines_iff (chr : UInt8) (bytes : Bytes) :
    Yields (getUntil chr) (opened bytes) (lines chr bytes) ↔ rest chr bytes ≠ [] := by
  have hyields := yields_splitOn chr bytes
  rw [← complete_append_rest chr bytes] at hyields
  rw [lines]
  constructor
  · intro h hnil
    have heq := h.eq hyields
    simp [hnil] at heq
  · intro hne
    rwa [if_neg hne]

/-- Every line and nothing after the last is given exactly when the command wrote something and
did not end it with the separator. -/
theorem reads_lines_iff (bytes : Bytes) :
    ((∀ n, answer getline (opened bytes) n = (lines newline bytes)[n]?) ↔
      bytes ≠ [] ∧ bytes.getLast? ≠ some newline) ∧
    ∀ chr, (∀ n, answer (getUntil chr) (opened bytes) n = (lines chr bytes)[n]?) ↔
      bytes ≠ [] ∧ bytes.getLast? ≠ some chr := by
  have hall : ∀ chr, (∀ n, answer (getUntil chr) (opened bytes) n = (lines chr bytes)[n]?) ↔
      bytes ≠ [] ∧ bytes.getLast? ≠ some chr := by
    intro chr
    rw [← not_or, ← rest_eq_nil_iff]
    exact yields_lines_iff chr bytes
  exact ⟨hall newline, hall⟩

/-- A command that writes `a` and ends the line: an empty line is given after it. -/
theorem not_reads_lines_terminated :
    ¬ ∀ n, answer getline (opened [97, newline]) n = (lines newline [97, newline])[n]? := by
  intro h
  exact absurd (h 1) (by decide)

end CommandProxy

/-! ### The output of a command that has ended -/

/-- The loop of `runCommand`. -/
def collect (pipe_stream : InputStream UInt8) : List Bytes :=
  if pipe_stream.failbit then []
  else match _h : pipe_stream.getline newline with
    | (some line, pipe) => line :: collect pipe
    | (none, _) => []
termination_by pipe_stream.input.length
decreasing_by exact InputStream.length_input_lt _h

theorem collect_of_some {s t : InputStream UInt8} {line : Bytes} (hgood : s.failbit = false)
    (h : s.getline newline = (some line, t)) : collect s = line :: collect t := by
  rw [collect, if_neg (by simp [hgood])]
  split
  · rename_i line' pipe h'
    rw [h'] at h
    obtain ⟨hline, rfl⟩ := Prod.mk.inj h
    rw [Option.some.inj hline]
  · rename_i h'
    rw [h'] at h
    cases (Prod.mk.inj h).1

theorem collect_of_none {s t : InputStream UInt8} (h : s.getline newline = (none, t)) :
    collect s = [] := by
  rw [collect]
  split_ifs
  · rfl
  · split
    · rename_i line' pipe h'
      rw [h'] at h
      cases (Prod.mk.inj h).1
    · rfl

/-- The loop that tests the stream after each read gives the lines and no more. -/
theorem collect_eq_lines (bytes : Bytes) :
    collect ⟨bytes, false, false⟩ = lines newline bytes := by
  induction bytes using lines_induction newline with
  | last r hr =>
    rw [lines_of_not_mem hr]
    by_cases hne : r = []
    · subst hne
      exact collect_of_none (InputStream.getline_nil newline)
    · rw [if_neg hne, collect_of_some rfl (InputStream.getline_last hr hne),
        collect_of_none (t := ⟨[], true, true⟩) rfl]
  | line l bytes hl ih =>
    rw [collect_of_some rfl (InputStream.getline_separator hl bytes), ih, lines_append_cons hl]

end Cloyster.Services
