import Cloyster.Models.Load

/-! An answer file object that is told to load another file. The path it is given is stored, and
the key file object reads the path it was made with; and the nodes of a load come after those
of the load before. -/

namespace Cloyster.AnswerFile

open Lib

/-- The object: the path it was given last, the path of its key file, and what is loaded. -/
structure Loaded where
  path : Path
  keyfilePath : Path
  state : AnswerFile := {}

variable (codec : GKeyFile) (boost : Boost) (opts : Options)

/-- What a load that throws has stored by then is not followed. -/
def loadFile (path : Path) (object : Loaded) : FsM Loaded := do
  let keyfile ← KeyFile.load codec object.keyfilePath
  let state ← liftExcept (loadOptions boost opts keyfile object.state)
  return { object with path, state }

/-- The constructor. Making the key file object reads the file for the first time. -/
def construct (path : Path) : FsM Loaded := do
  let _ ← KeyFile.open codec path
  loadFile codec boost opts path { path, keyfilePath := path }

/-- An object made from `first` and then told to load `second` holds what a new object made
from `second` holds. -/
def Reloads (first second : Path) (fs : FS) : Prop :=
  ∃ object reloaded fresh,
    construct codec boost opts first fs = .ok object fs ∧
      loadFile codec boost opts second object fs = .ok reloaded fs ∧
      construct codec boost opts second fs = .ok fresh fs ∧
      reloaded.state = fresh.state

/-- Two files whose sections say the same, but for the nodes, where the second file names those
of the first file twice over. -/
structure SaysTwice (boost : Boost) (file file' : KeyFile) : Prop where
  external : sectionNetwork boost file' "network_external" {} =
    sectionNetwork boost file "network_external" {}
  management : sectionNetwork boost file' "network_management" {} =
    sectionNetwork boost file "network_management" {}
  application :
    (if file'.hasGroup "network_application" then
        sectionNetwork boost file' "network_application" {} else {}) =
      if file.hasGroup "network_application" then
        sectionNetwork boost file "network_application" {} else {}
  information : sectionInformation file' = sectionInformation file
  time : sectionTime file' = sectionTime file
  hostname : sectionHostname file' = sectionHostname file
  system : sectionSystem file' {} = sectionSystem file {}
  generic : sectionNode boost file' "node" = sectionNode boost file "node"
  nodes : (nodeSections boost file').map (nodeOf boost file') =
    (nodeSections boost file).map (nodeOf boost file) ++
      (nodeSections boost file).map (nodeOf boost file)
  mail : (if file'.hasGroup "postfix" then sectionPostfix file' {} else {}) =
    if file.hasGroup "postfix" then sectionPostfix file {} else {}
  ofed : (if keyText file' "ofed" "kind" = "" then {} else sectionOFED file') =
    if keyText file "ofed" "kind" = "" then {} else sectionOFED file

variable {codec boost opts} {file file' : KeyFile} {first second : Path} {fs : FS}

/-! ### Loading over what was loaded -/

theorem sectionNetwork_twice (sectionName : String) (network : AFNetwork) :
    sectionNetwork boost file sectionName (sectionNetwork boost file sectionName network) =
      sectionNetwork boost file sectionName network := by
  simp only [sectionNetwork, ← Option.or_assoc, Option.or_self]

theorem sectionSystem_twice (system : AFSystem) :
    sectionSystem file (sectionSystem file system) = sectionSystem file system := by
  unfold sectionSystem
  cases sectionDistro? file <;> rfl

theorem sectionSMTP_twice (smtp : Option AFSMTP) (profile : Postfix.Profile) :
    sectionSMTP file (sectionSMTP file smtp profile) profile = sectionSMTP file smtp profile := by
  cases profile <;> rfl

theorem sectionPostfix_twice (settings : AFPostfix) :
    sectionPostfix file (sectionPostfix file settings) = sectionPostfix file settings := by
  unfold sectionPostfix
  cases sectionProfile? file with
  | none => rfl
  | some profile => simp only [Option.elim_some, sectionSMTP_twice]

/-- A file loaded twice leaves what one load leaves, with every node there twice. -/
theorem loaded_loaded (boost : Boost) (file : KeyFile) :
    loaded boost file (loaded boost file {}) =
      { loaded boost file {} with
        nodes := {
          generic := some (sectionNode boost file "node")
          nodes := (nodeSections boost file).map (nodeOf boost file) ++
            (nodeSections boost file).map (nodeOf boost file) } } := by
  have happlication : (if file.hasGroup "network_application" then
      sectionNetwork boost file "network_application"
        (loaded boost file {}).application else (loaded boost file {}).application) =
      (loaded boost file {}).application := by
    by_cases hgroup : file.hasGroup "network_application"
    · simp only [loaded, hgroup, if_true, sectionNetwork_twice]
    · simp only [loaded, hgroup, if_false, Bool.false_eq_true]
  have hmail : (if file.hasGroup "postfix" then
      sectionPostfix file (loaded boost file {}).postfixSettings
        else (loaded boost file {}).postfixSettings) =
      (loaded boost file {}).postfixSettings := by
    by_cases hgroup : file.hasGroup "postfix"
    · simp only [loaded, hgroup, if_true, sectionPostfix_twice]
    · simp only [loaded, hgroup, if_false, Bool.false_eq_true]
  have hofed : (if keyText file "ofed" "kind" = "" then (loaded boost file {}).ofed
      else sectionOFED file) = (loaded boost file {}).ofed := by
    simp only [loaded]
    split_ifs <;> rfl
  conv_lhs => rw [loaded, happlication, hmail, hofed]
  simp only [loaded, sectionNetwork_twice, sectionSystem_twice, List.nil_append]

/-! ### Loading from a path -/

theorem loadFile_returns {object : Loaded} (hfile : keyFileAt codec fs object.keyfilePath = some file)
    (hloadable : FileLoadable boost opts file) (path : Path) :
    loadFile codec boost opts path object fs =
      .ok { object with path, state := loaded boost file object.state } fs := by
  have hload : liftExcept (loadOptions boost opts file object.state) fs =
      .ok (loaded boost file object.state) fs :=
    liftExcept_ok_iff.mpr ⟨loadOptions_ok_iff.mpr ⟨hloadable, rfl⟩, rfl⟩
  rw [loadFile, bind_of_ok (KeyFile.load_ok_iff.mpr ⟨hfile, rfl⟩), bind_of_ok hload]
  rfl

theorem construct_returns (hfile : keyFileAt codec fs first = some file)
    (hloadable : FileLoadable boost opts file) :
    construct codec boost opts first fs =
      .ok { path := first, keyfilePath := first, state := loaded boost file {} } fs := by
  rw [construct, bind_of_ok (KeyFile.open_of_keyFileAt hfile), loadFile_returns hfile hloadable]

theorem reloads_iff_loaded (hfirst : keyFileAt codec fs first = some file)
    (hsecond : keyFileAt codec fs second = some file') (hloadable : FileLoadable boost opts file)
    (hloadable' : FileLoadable boost opts file') :
    Reloads codec boost opts first second fs ↔
      loaded boost file (loaded boost file {}) = loaded boost file' {} := by
  rw [Reloads, construct_returns hfirst hloadable, construct_returns hsecond hloadable']
  constructor
  · rintro ⟨object, reloaded, fresh, hconstruct, hload, hfresh, hstate⟩
    obtain ⟨rfl, -⟩ := EStateM.Result.ok.inj hconstruct
    obtain ⟨rfl, -⟩ := EStateM.Result.ok.inj hfresh
    rw [loadFile_returns hfirst hloadable] at hload
    obtain ⟨rfl, -⟩ := EStateM.Result.ok.inj hload
    exact hstate
  · intro hstate
    exact ⟨_, _, _, rfl, loadFile_returns hfirst hloadable second, rfl, hstate⟩

/-- Loading a second file gives what a new object gives exactly when the second file says what
the first says, with the nodes of the first twice over. -/
theorem reloads_iff (hfirst : keyFileAt codec fs first = some file)
    (hsecond : keyFileAt codec fs second = some file') (hloadable : FileLoadable boost opts file)
    (hloadable' : FileLoadable boost opts file') :
    Reloads codec boost opts first second fs ↔ SaysTwice boost file file' := by
  rw [reloads_iff_loaded hfirst hsecond hloadable hloadable', loaded_loaded]
  constructor
  · intro h
    simp only [loaded, List.nil_append, AnswerFile.mk.injEq, AFNodes.mk.injEq] at h
    obtain ⟨hexternal, hmanagement, happlication, -, hinformation, htime, hhostname, hsystem,
      ⟨hgeneric, hnodes⟩, hmail, hofed⟩ := h
    exact ⟨hexternal.symm, hmanagement.symm, happlication.symm, hinformation.symm, htime.symm,
      hhostname.symm, hsystem.symm, (Option.some.inj hgeneric).symm, hnodes.symm, hmail.symm,
      hofed.symm⟩
  · intro h
    simp only [loaded, List.nil_append, h.external, h.management, h.application, h.information,
      h.time, h.hostname, h.system, h.generic, h.nodes, h.mail, h.ofed]

/-- Loading the same file again keeps what was loaded when it names no nodes, and only then. -/
theorem reloads_same_iff (hfile : keyFileAt codec fs first = some file)
    (hloadable : FileLoadable boost opts file) :
    Reloads codec boost opts first first fs ↔ nodeSections boost file = [] := by
  rw [reloads_iff_loaded hfile hfile hloadable hloadable, loaded_loaded]
  constructor
  · intro h
    have hlength := congrArg (fun af => af.nodes.nodes.length) h
    simp only [loaded, List.nil_append, List.length_append, List.length_map] at hlength
    exact List.length_eq_zero_iff.mp (by omega)
  · intro h
    simp [loaded, h]

/-- The sample's sections with the section `ofed`. -/
def ofedFile (groups : List (String × List (String × String))) : KeyFile :=
  .ofGroups (groups ++ [("ofed", [("kind", "mellanox"), ("version", "latest")])])

/-- A disk with one file on it. -/
def disk (file : KeyFile) : FS :=
  (∅ : FS).set ["answerfile.ini"] (.file (GKeyFile.text.toData file))

theorem keyFileAt_disk (file : KeyFile) :
    keyFileAt .text (disk file) ["answerfile.ini"] = some file := by
  rw [disk, keyFileAt_set, if_pos rfl]

/-- Two files on it. -/
def disks (file file' : KeyFile) : FS :=
  (disk file).set ["second.ini"] (.file (GKeyFile.text.toData file'))

/-- The node of the sample under another name that is read as the same number. -/
def nodeAgain : String × List (String × String) :=
  ("node.01", [("hostname", "foo"), ("mac_address", "ca:fe:de:ad:be:ef"),
    ("bmc_address", "10.0.0.2")])

/-- A file with one node, and a second one that names the node twice. -/
theorem reloads_iff_twice :
    Reloads .text .digits {} ["answerfile.ini"] ["second.ini"]
      (disks (ofedFile sampleGroups) (ofedFile (sampleGroups ++ [nodeAgain]))) := by
  have hfirst : keyFileAt .text (disks (ofedFile sampleGroups)
      (ofedFile (sampleGroups ++ [nodeAgain]))) ["answerfile.ini"] =
        some (ofedFile sampleGroups) := by
    rw [disks, keyFileAt_set, if_neg (by decide), keyFileAt_disk]
  have hsecond : keyFileAt .text (disks (ofedFile sampleGroups)
      (ofedFile (sampleGroups ++ [nodeAgain]))) ["second.ini"] =
        some (ofedFile (sampleGroups ++ [nodeAgain])) := by
    rw [disks, keyFileAt_set, if_pos rfl]
  have hloadable : FileLoadable .digits {} (ofedFile sampleGroups) :=
    fileLoadable_of_sections (by decide +kernel) ⟨fun h => absurd h (by decide +kernel),
      fun h => absurd h (by decide +kernel), fun h => absurd h (by decide +kernel),
      fun _ => by decide +kernel⟩ (by decide +kernel)
  have hloadable' : FileLoadable .digits {} (ofedFile (sampleGroups ++ [nodeAgain])) :=
    fileLoadable_of_sections (by decide +kernel) ⟨fun h => absurd h (by decide +kernel),
      fun h => absurd h (by decide +kernel), fun h => absurd h (by decide +kernel),
      fun _ => by decide +kernel⟩ (by decide +kernel)
  refine (reloads_iff hfirst hsecond hloadable hloadable').mpr ?_
  exact ⟨by decide +kernel, by decide +kernel, by decide +kernel, by decide +kernel,
    by decide +kernel, by decide +kernel, by decide +kernel, by decide +kernel, by decide +kernel,
    by decide +kernel, by decide +kernel⟩

/-- An answer file with one node loaded again: the node is there twice. -/
theorem not_reloads_sample :
    FileLoadable .digits {} (ofedFile sampleGroups) ∧
      ¬ Reloads .text .digits {} ["answerfile.ini"] ["answerfile.ini"]
        (disk (ofedFile sampleGroups)) := by
  have hloadable : FileLoadable .digits {} (ofedFile sampleGroups) :=
    fileLoadable_of_sections (by decide +kernel) ⟨fun h => absurd h (by decide +kernel),
      fun h => absurd h (by decide +kernel), fun h => absurd h (by decide +kernel),
      fun _ => by decide +kernel⟩ (by decide +kernel)
  refine ⟨hloadable, fun h => ?_⟩
  have hnodes := (reloads_same_iff (keyFileAt_disk _) hloadable).mp h
  exact absurd hnodes (by decide +kernel)

end Cloyster.AnswerFile
