import Cloyster.Models.AnswerFile
import Cloyster.Functions
import Cloyster.Lib.Lines

/-! The master file of Postfix. Its lines are read one by one, the local delivery agent is
commented out, and the lines are written back one after another: without the line breaks,
which reading took away. -/

namespace Cloyster.Postfix

open Lib

/-- The lines that `getline` gives until the stream is used up. After a line break at the end
there is one more, which is empty. -/
def getLines (content : String) : List String :=
  (content.toList.splitOn '\n').map String.ofList

def maybeDisableLocalOnMasterFile (line : String) : String :=
  let linedata := Text.split line "\t "
  if linedata.headD "" = "local" then "#" ++ line else line

/-- One round of the loop. -/
def changeMasterLine (profile : Profile) (line : String) : String :=
  if line.toList.head? ≠ some '#' ∧ profile ≠ .Local then maybeDisableLocalOnMasterFile line
  else line

/-- A stream that cannot be opened is not noticed, neither for reading nor for writing. -/
def changeMasterFile (profile : Profile) (masterFile : Path) : FsM Unit := do
  let fs ← get
  let lines := match fs.content? masterFile with
    | some content => (getLines content).map (changeMasterLine profile)
    | none => []
  match fs.write masterFile (String.join lines) with
  | .ok fs' => set fs'
  | .error _ => return

/-! ### What is promised -/

/-- Blanks in a line of the master file. -/
def isBlank (c : Char) : Bool := c = '\t' ∨ c = ' '

/-- The line of a service whose name is `local`. -/
def IsLocal (line : String) : Prop :=
  line.toList.head? ≠ some '#' ∧ line.toList.takeWhile (fun c => !isBlank c) = "local".toList

instance (line : String) : Decidable (IsLocal line) := inferInstanceAs (Decidable (_ ∧ _))

/-- The line with its service disabled, if mail is not delivered locally. -/
def disabledLine (profile : Profile) (line : String) : String :=
  if profile ≠ .Local ∧ IsLocal line then "#" ++ line else line

/-- The lines are those of before, but for the disabled ones, and stay as they are. -/
structure RewritesMaster (profile : Profile) (masterFile : Path) (content : String) (fs' : FS) :
    Prop where
  lines : ∃ content', fs'.content? masterFile = some content' ∧
    getLines content' = (getLines content).map (disabledLine profile)
  localProfile : profile = .Local → fs'.content? masterFile = some content
  again : changeMasterFile profile masterFile fs' = .ok () fs'

/-! ### The lines -/

variable {profile : Profile} {masterFile : Path} {content : String} {fs : FS}

/-- The first piece goes up to the first separator. -/
theorem head?_splitCompress (sep : Char → Bool) (cs : List Char) :
    (Text.splitCompress sep cs).head? = some (cs.takeWhile fun c => !sep c) := by
  induction cs with
  | nil => rfl
  | cons c cs ih =>
    by_cases hc : sep c
    · rw [List.takeWhile_cons_of_neg (by simp [hc])]
      cases cs with
      | nil => simp [Text.splitCompress, hc]
      | cons d cs =>
        by_cases hd : sep d
        · rw [List.takeWhile_cons_of_neg (by simp [hd])] at ih
          simpa [Text.splitCompress, hc, hd] using ih
        · simp [Text.splitCompress, hc, hd]
    · rw [List.takeWhile_cons_of_pos (by simp [hc])]
      cases hsplit : Text.splitCompress sep cs with
      | nil =>
        rw [hsplit] at ih
        exact absurd ih (by simp)
      | cons t ts =>
        rw [hsplit] at ih
        obtain rfl := Option.some.inj ih
        simp [Text.splitCompress, hc, hsplit]

/-- The first token of a line is what the service is called. -/
theorem maybeDisable_eq (line : String) : maybeDisableLocalOnMasterFile line =
    if line.toList.takeWhile (fun c => !isBlank c) = "local".toList then "#" ++ line else line := by
  have hseps : (fun c => decide (c ∈ "\t ".toList)) = isBlank := by
    funext c
    simp [isBlank]
  have hhead : (Text.split line "\t ").headD "" =
      String.ofList (line.toList.takeWhile fun c => !isBlank c) := by
    rw [Text.split, hseps, List.headD_eq_head?_getD, List.head?_map, head?_splitCompress]
    rfl
  unfold maybeDisableLocalOnMasterFile
  dsimp only
  rw [hhead]
  congr 1
  rw [← String.toList_inj, String.toList_ofList]

theorem changeMasterLine_eq (profile : Profile) : changeMasterLine profile = disabledLine profile := by
  funext line
  unfold changeMasterLine disabledLine IsLocal
  rw [maybeDisable_eq]
  split_ifs <;> tauto

theorem disabledLine_idem (profile : Profile) (line : String) :
    disabledLine profile (disabledLine profile line) = disabledLine profile line := by
  unfold disabledLine
  split_ifs with h h'
  · -- the line starts with a number sign by now
    exact absurd (show some '#' = some '#' from rfl) (by simpa using h'.2.1)
  · rfl
  · rfl

theorem getLines_of_not_mem (h : '\n' ∉ content.toList) : getLines content = [content] := by
  rw [getLines, List.splitOn_eq_singleton h, List.map_singleton, String.ofList_toList]

theorem join_singleton (s : String) : String.join [s] = s := by
  rw [← String.toList_inj, String.toList_join, List.flatMap_singleton]

theorem not_mem_of_length (h : (getLines content).length = 1) : '\n' ∉ content.toList := by
  intro hmem
  obtain ⟨front, back, hsplit⟩ := List.append_of_mem hmem
  have hfront := List.length_pos_iff.mpr (List.splitOn_ne_nil '\n' front)
  have hback := List.length_pos_iff.mpr (List.splitOn_ne_nil '\n' back)
  rw [getLines, hsplit, List.splitOn_append_cons_self, List.length_map, List.length_append] at h
  omega

/-- What is written has no line break. -/
theorem not_mem_join : '\n' ∉ (String.join ((getLines content).map (disabledLine profile))).toList := by
  rw [String.toList_join]
  intro hmem
  obtain ⟨written, hwritten, hbreak⟩ := List.mem_flatMap.mp hmem
  obtain ⟨line, hline, rfl⟩ := List.mem_map.mp hwritten
  obtain ⟨cs, hcs, rfl⟩ := List.mem_map.mp hline
  have hread : '\n' ∉ cs := Lines.not_mem_of_mem_splitOn hcs
  unfold disabledLine at hbreak
  split_ifs at hbreak
  · rw [String.toList_append, List.mem_append] at hbreak
    rcases hbreak with hbreak | hbreak
    · exact absurd hbreak (by decide)
    · rw [String.toList_ofList] at hbreak
      exact hread hbreak
  · rw [String.toList_ofList] at hbreak
    exact hread hbreak

/-! ### The file -/

theorem changeMasterFile_apply (profile : Profile) (hfile : fs.content? masterFile = some content) :
    changeMasterFile profile masterFile fs = .ok () (fs.set masterFile
      (.file (String.join ((getLines content).map (disabledLine profile))))) := by
  have hnode := FS.content?_eq_some.mp hfile
  rw [changeMasterFile, bind_apply, get_apply]
  dsimp only
  rw [hfile, changeMasterLine_eq]
  simp [FS.write, hnode]

/-- For every profile, exactly the files without a line break keep their lines. -/
theorem rewritesMaster_iff (profile : Profile) (hfile : fs.content? masterFile = some content) :
    (∃ fs', changeMasterFile profile masterFile fs = .ok () fs' ∧
        RewritesMaster profile masterFile content fs') ↔ '\n' ∉ content.toList := by
  have hrun := changeMasterFile_apply profile hfile
  constructor
  · rintro ⟨fs', hrun', hrewrites⟩
    rw [hrun] at hrun'
    obtain ⟨-, rfl⟩ := EStateM.Result.ok.inj hrun'
    obtain ⟨content', hcontent', hlines⟩ := hrewrites.lines
    rw [FS.content?_eq_some, FS.get?_set_self] at hcontent'
    obtain rfl := Node.file.inj (Option.some.inj hcontent')
    rw [getLines_of_not_mem not_mem_join] at hlines
    apply not_mem_of_length
    rw [← List.length_map (disabledLine profile), ← hlines]
    rfl
  · intro hbreak
    have hjoin : String.join ((getLines content).map (disabledLine profile)) =
        disabledLine profile content := by
      rw [getLines_of_not_mem hbreak, List.map_singleton, join_singleton]
    have hbreak' : '\n' ∉ (disabledLine profile content).toList := by
      rw [← hjoin]
      exact not_mem_join
    rw [hjoin] at hrun
    have hwritten : FS.content? (fs.set masterFile (.file (disabledLine profile content)))
        masterFile = some (disabledLine profile content) :=
      FS.content?_eq_some.mpr (FS.get?_set_self _ _ _)
    refine ⟨_, hrun, ⟨_, hwritten, ?_⟩, ?_, ?_⟩
    · rw [getLines_of_not_mem hbreak, getLines_of_not_mem hbreak', List.map_singleton]
    · rintro rfl
      rw [hwritten, disabledLine, if_neg (by simp)]
    · rw [changeMasterFile_apply profile hwritten, getLines_of_not_mem hbreak', List.map_singleton,
        join_singleton, disabledLine_idem,
        FS.set_of_get? (FS.content?_eq_some.mp hwritten)]

/-- The service of local delivery and the one after it. -/
def twoServices : String := "local unix - n n - - local\nvirtual unix - n n - - virtual\n"

theorem rewritesMaster_iff_oneLine :
    ∃ fs', changeMasterFile .Relay ["master.cf"]
      { nodes := ⟨[(["master.cf"], .file "local unix")], by decide⟩ } =
        .ok () fs' ∧ RewritesMaster .Relay ["master.cf"] "local unix" fs' :=
  (rewritesMaster_iff .Relay rfl).mpr (by decide)

/-- Two services become one line, with the local profile too. -/
theorem not_rewritesMaster :
    (¬ ∃ fs', changeMasterFile .Relay ["master.cf"]
      { nodes := ⟨[(["master.cf"], .file twoServices)], by decide⟩ } =
        .ok () fs' ∧ RewritesMaster .Relay ["master.cf"] twoServices fs') ∧
    ¬ ∃ fs', changeMasterFile .Local ["master.cf"]
      { nodes := ⟨[(["master.cf"], .file twoServices)], by decide⟩ } =
        .ok () fs' ∧ RewritesMaster .Local ["master.cf"] twoServices fs' := by
  constructor
  · rintro ⟨fs', hrun, hrewrites⟩
    obtain ⟨content', hcontent', hlines⟩ := hrewrites.lines
    rw [changeMasterFile_apply .Relay rfl] at hrun
    obtain ⟨-, rfl⟩ := EStateM.Result.ok.inj hrun
    obtain rfl := Option.some.inj hcontent'
    exact absurd hlines (by decide +kernel)
  · rintro ⟨fs', hrun, hrewrites⟩
    have hcontent := hrewrites.localProfile rfl
    rw [changeMasterFile_apply .Local rfl] at hrun
    obtain ⟨-, rfl⟩ := EStateM.Result.ok.inj hrun
    exact absurd hcontent (by decide +kernel)

end Cloyster.Postfix
