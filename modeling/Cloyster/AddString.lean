import Cloyster.Functions
import Cloyster.Lib.Lines

/-! Adding lines to a configuration file. The text is looked for anywhere in the file, so
the end of a longer line or a line that is commented out counts as the first line, and what
is appended goes on from a last line that has not ended. -/

namespace Cloyster

open Lib

/-- A text of whole lines. -/
structure Block where
  lines : List (List Char)
  noBreak : ∀ l ∈ lines, '\n' ∉ l

def Block.text (block : Block) : String := String.ofList (Lines.terminated '\n' block.lines)

/-- The characters of a file, none when it is missing. -/
def fileText (fs : FS) (filename : Path) : List Char := ((fs.content? filename).getD "").toList

/-- What adding a block to a file promises. -/
structure AddsLines (opts : Options) (filename : Path) (block : Block) (fs fs' : FS) : Prop where
  kept : ∀ l ∈ Lines.lines '\n' (fileText fs filename),
    l ∈ Lines.lines '\n' (fileText fs' filename)
  added : ∀ l ∈ block.lines, l ∈ Lines.complete '\n' (fileText fs' filename)
  again : addStringToFile opts filename block.text fs' = .ok () fs'

/-- A file that the block can be added to. Where the block occurs already, its first line must
be a line. Where it does not, the file must have ended its last line, or that line and the
first one of the block must be there anyway. -/
def Fits (cs : List Char) (block : Block) : Prop :=
  match block.lines with
  | [] => True
  | l :: ls =>
    if Lines.terminated '\n' block.lines <:+: cs then l ∈ Lines.complete '\n' cs
    else Lines.rest '\n' cs = [] ∨
      (l = [] ∨ Lines.rest '\n' cs ∈ Lines.complete '\n' cs ++ ls) ∧
        l ∈ Lines.complete '\n' cs ++ ls

variable {opts : Options} {filename : Path} {fs opened : FS}

/-! ### One call -/

theorem contains_text_iff {block : Block} :
    Text.contains ((fs.content? filename).getD "") block.text ↔
      Lines.terminated '\n' block.lines <:+: fileText fs filename := by
  rw [Text.contains, decide_eq_true_iff, Block.text, String.toList_ofList, fileText]

theorem addStringToFile_of_contained (opts : Options) {block : Block}
    (h : Lines.terminated '\n' block.lines <:+: fileText fs filename) :
    addStringToFile opts filename block.text fs = .ok () fs := by
  rw [addStringToFile, bind_apply, get_apply]
  dsimp only
  rw [if_pos (contains_text_iff.mpr h)]
  rfl

theorem addStringToFile_of_not_contained {block : Block} (hdry : opts.dryRun = false)
    (hopen : fs.openAppend filename = .ok opened)
    (h : ¬ Lines.terminated '\n' block.lines <:+: fileText fs filename) :
    ∃ fs', addStringToFile opts filename block.text fs = .ok () fs' ∧
      fileText fs' filename = fileText fs filename ++ Lines.terminated '\n' block.lines := by
  refine ⟨opened.set filename (.file ((fs.content? filename).getD "" ++ block.text)), ?_, ?_⟩
  · rw [addStringToFile, bind_apply, get_apply]
    dsimp only
    rw [if_neg (contains_text_iff.not.mpr h)]
    simp [hopen, hdry]
  · have hcontent : FS.content? (opened.set filename (.file ((fs.content? filename).getD "" ++
        block.text))) filename = some ((fs.content? filename).getD "" ++ block.text) :=
      FS.content?_eq_some.mpr (FS.get?_set_self _ _ _)
    rw [fileText, hcontent, Option.getD_some, String.toList_append, Block.text,
      String.toList_ofList, fileText]

/-- Whatever is added is in the file then. -/
theorem addStringToFile_contains {string : String} {fs' : FS} {u : Unit}
    (hdry : opts.dryRun = false) (h : addStringToFile opts filename string fs = .ok u fs') :
    Text.contains ((fs'.content? filename).getD "") string := by
  rw [addStringToFile, bind_apply, get_apply] at h
  dsimp only at h
  by_cases hthere : Text.contains ((fs.content? filename).getD "") string
  · rw [if_pos hthere] at h
    obtain ⟨-, rfl⟩ := EStateM.Result.ok.inj h
    exact hthere
  rw [if_neg hthere] at h
  cases hopen : fs.openAppend filename with
  | error code =>
    rw [hopen] at h
    simp [hdry] at h
  | ok opened =>
    have hset : FS.content? (opened.set filename (.file ((fs.content? filename).getD "" ++
        string))) filename = some ((fs.content? filename).getD "" ++ string) :=
      FS.content?_eq_some.mpr (FS.get?_set_self _ _ _)
    simp only [hopen, hdry, bind_apply, set_apply, Bool.false_eq_true, if_false] at h
    obtain ⟨-, rfl⟩ := EStateM.Result.ok.inj h
    rw [hset, Option.getD_some, Text.contains, decide_eq_true_iff, String.toList_append]
    exact (List.suffix_append _ _).isInfix

/-! ### What becomes of the lines -/

/-- A block that occurs already. -/
theorem addsLines_of_contained (opts : Options) {block : Block}
    (h : Lines.terminated '\n' block.lines <:+: fileText fs filename) :
    AddsLines opts filename block fs fs ↔ Fits (fileText fs filename) block := by
  have hblock := block.noBreak
  have hagain := addStringToFile_of_contained opts h
  unfold Fits
  cases hlines : block.lines with
  | nil =>
    refine iff_of_true ⟨fun _ hl => hl, ?_, hagain⟩ trivial
    simp [hlines]
  | cons l ls =>
    rw [hlines] at h hblock
    rw [List.forall_mem_cons] at hblock
    dsimp only
    rw [if_pos h]
    constructor
    · intro hadds
      exact hadds.added l (by simp [hlines])
    · intro hl
      refine ⟨fun _ hl => hl, ?_, hagain⟩
      rw [hlines, List.forall_mem_cons]
      exact ⟨hl, Lines.mem_complete_of_contained hblock.1 hblock.2 h⟩

/-- A block that is appended. -/
theorem addsLines_of_not_contained (opts : Options) {block : Block} {fs' : FS}
    (h : ¬ Lines.terminated '\n' block.lines <:+: fileText fs filename)
    (htext : fileText fs' filename =
      fileText fs filename ++ Lines.terminated '\n' block.lines) :
    AddsLines opts filename block fs fs' ↔ Fits (fileText fs filename) block := by
  have hblock := block.noBreak
  have hagain : Lines.terminated '\n' block.lines <:+: fileText fs' filename := by
    rw [htext]
    exact (List.suffix_append _ _).isInfix
  unfold Fits
  cases hlines : block.lines with
  | nil =>
    rw [hlines] at h
    exact absurd List.nil_infix h
  | cons l ls =>
    rw [hlines] at h htext hblock
    rw [List.forall_mem_cons] at hblock
    have hcomplete := Lines.complete_append (fileText fs filename) hblock.1 hblock.2
    have hrest := Lines.rest_append (fileText fs filename) hblock.1 hblock.2
    rw [← htext] at hcomplete hrest
    dsimp only
    rw [if_neg h]
    have hlines' : Lines.lines '\n' (fileText fs' filename) =
        Lines.complete '\n' (fileText fs filename) ++
          (Lines.rest '\n' (fileText fs filename) ++ l) :: ls := by
      rw [Lines.lines, hrest, if_pos rfl, List.append_nil, hcomplete]
    constructor
    · intro hadds
      by_cases hended : Lines.rest '\n' (fileText fs filename) = []
      · exact .inl hended
      have hkept := hadds.kept (Lines.rest '\n' (fileText fs filename)) (by
        rw [Lines.lines, if_neg hended]
        exact List.mem_append_right _ List.mem_cons_self)
      have hadded := hadds.added l (by rw [hlines]; exact List.mem_cons_self)
      rw [hlines', List.mem_append, List.mem_cons] at hkept
      rw [hcomplete, List.mem_append, List.mem_cons] at hadded
      refine .inr ⟨?_, ?_⟩
      · rcases hkept with hkept | hsame | hkept
        · exact .inr (List.mem_append_left _ hkept)
        · exact .inl (List.append_right_eq_self.mp hsame.symm)
        · exact .inr (List.mem_append_right _ hkept)
      · rcases hadded with hadded | hsame | hadded
        · exact List.mem_append_left _ hadded
        · exact absurd (List.append_left_eq_self.mp hsame.symm) hended
        · exact List.mem_append_right _ hadded
    · intro hfits
      refine ⟨fun m hm => ?_, ?_, addStringToFile_of_contained opts hagain⟩
      · rw [hlines', List.mem_append, List.mem_cons]
        rw [Lines.lines, List.mem_append] at hm
        rcases hm with hm | hm
        · exact .inl hm
        split_ifs at hm with hended
        · exact absurd hm List.not_mem_nil
        · -- the line that has not ended has to be there anyway
          obtain rfl := List.mem_singleton.mp hm
          rcases hfits with hfits | ⟨rfl | hfits, -⟩
          · exact absurd hfits hended
          · rw [List.append_nil]
            exact .inr (.inl rfl)
          · exact (List.mem_append.mp hfits).imp_right .inr
      · rw [hlines, hcomplete, List.forall_mem_cons]
        refine ⟨?_, fun m hm => List.mem_append_right _ (List.mem_cons_of_mem _ hm)⟩
        rw [List.mem_append, List.mem_cons]
        rcases hfits with hfits | ⟨-, hfits⟩
        · rw [hfits, List.nil_append]
          exact .inr (.inl rfl)
        · exact (List.mem_append.mp hfits).imp_right .inr

/-- Every file that can be written, with every block. -/
theorem addsLines_iff (hdry : opts.dryRun = false) (hopen : fs.openAppend filename = .ok opened)
    (block : Block) :
    (∃ fs', addStringToFile opts filename block.text fs = .ok () fs' ∧
        AddsLines opts filename block fs fs') ↔ Fits (fileText fs filename) block := by
  by_cases hcontained : Lines.terminated '\n' block.lines <:+: fileText fs filename
  · rw [← addsLines_of_contained opts hcontained]
    constructor
    · rintro ⟨fs', hrun, hadds⟩
      rw [addStringToFile_of_contained opts hcontained] at hrun
      obtain ⟨-, rfl⟩ := EStateM.Result.ok.inj hrun
      exact hadds
    · intro hadds
      exact ⟨fs, addStringToFile_of_contained opts hcontained, hadds⟩
  · obtain ⟨fs', hrun, htext⟩ := addStringToFile_of_not_contained hdry hopen hcontained
    rw [← addsLines_of_not_contained opts hcontained htext]
    constructor
    · rintro ⟨fs'', hrun', hadds⟩
      rw [hrun] at hrun'
      obtain ⟨-, rfl⟩ := EStateM.Result.ok.inj hrun'
      exact hadds
    · intro hadds
      exact ⟨fs', hrun, hadds⟩

/-- A file system with this one file in `/etc`. -/
def etcFile (name content : String) : FS :=
  (FS.set ∅ ["etc"] .dir).set ["etc", name] (.file content)

def stratumBlock : Block := ⟨["local stratum 10".toList], by decide⟩

theorem addsLines_iff_stratum :
    ∃ fs', addStringToFile {} ["etc", "chrony.conf"] stratumBlock.text
        (etcFile "chrony.conf" "makestep 1.0 3\n") = .ok () fs' ∧
      AddsLines {} ["etc", "chrony.conf"] stratumBlock (etcFile "chrony.conf" "makestep 1.0 3\n")
        fs' :=
  (addsLines_iff rfl rfl stratumBlock).mpr (.inl (by decide))

/-- A line that is commented out counts as there; and a file that has not ended its last line
loses it. -/
theorem not_addsLines :
    (¬ ∃ fs', addStringToFile {} ["etc", "chrony.conf"] stratumBlock.text
        (etcFile "chrony.conf" "#local stratum 10\n") = .ok () fs' ∧
      AddsLines {} ["etc", "chrony.conf"] stratumBlock
        (etcFile "chrony.conf" "#local stratum 10\n") fs') ∧
    ¬ ∃ fs', addStringToFile {} ["etc", "chrony.conf"] stratumBlock.text
        (etcFile "chrony.conf" "makestep 1.0 3") = .ok () fs' ∧
      AddsLines {} ["etc", "chrony.conf"] stratumBlock (etcFile "chrony.conf" "makestep 1.0 3")
        fs' := by
  constructor
  · rintro ⟨fs', hrun, hadds⟩
    obtain ⟨-, rfl⟩ := EStateM.Result.ok.inj hrun
    have hline := hadds.added "local stratum 10".toList (by decide)
    exact absurd hline (by decide +kernel)
  · rintro ⟨fs', hrun, hadds⟩
    obtain ⟨-, rfl⟩ := EStateM.Result.ok.inj hrun
    have hline := hadds.kept "makestep 1.0 3".toList (by decide +kernel)
    exact absurd hline (by decide +kernel)

end Cloyster
