import Cloyster.Lib.Guarded
import Cloyster.Services.Script
import Cloyster.Services.XCAT

/-! The two scripts of the NFS service and what running them does to the files they edit. A line
is appended unless its key is found in the file. Most lines have their own key; the lines for
the two automount maps do not, so they are appended at each run. -/

namespace Cloyster.Services

open Lib Models

/-- One call on a builder. -/
inductive ScriptStep where
  | addCommand (command : String)
  | addNewLine
  | addPackage (pkg : String)
  | enableService (service : String)
  | addLineToFile (path key line : String)

def ScriptStep.addTo (builder : ScriptBuilder) : ScriptStep → ScriptBuilder
  | .addCommand command => builder.addCommand command
  | .addNewLine => builder.addNewLine
  | .addPackage pkg => builder.addPackage pkg
  | .enableService service => builder.enableService service
  | .addLineToFile path key line => builder.addLineToFile path key line

def ScriptBuilder.build (steps : List ScriptStep) : ScriptBuilder :=
  steps.foldl ScriptStep.addTo .new

namespace NFS

def installSteps : List ScriptStep :=
  [ .addNewLine,
    .addCommand "# Variables",
    .addCommand "HEADNODE=$(hostname -s)",
    .addNewLine,
    .addCommand "# install packages",
    .addPackage "nfs-utils",
    .addNewLine,
    .addCommand "# Add exports to /etc/exports",
    .addLineToFile "/etc/exports" "/home"
      "/home *(rw,no_subtree_check,fsid=10,no_root_squash)",
    .addLineToFile "/etc/exports" "/opt/ohpc/pub"
      "/opt/ohpc/pub *(ro,no_subtree_check,fsid=11)",
    .addLineToFile "/etc/exports" "/tftpboot"
      "/tftpboot *(rw,no_root_squash,sync,no_subtree_check)",
    .addLineToFile "/etc/exports" "/install"
      "/install *(rw,no_root_squash,sync,no_subtree_check)",
    .addNewLine,
    .enableService "rpcbind nfs-server",
    .addCommand "exportfs -a",
    .addNewLine,
    .addCommand ("# Update firewall rules\n" ++
      "if systemctl is-enabled --quiet firewalld.service; then\n" ++
      "    firewall-cmd --permanent --add-service={nfs,mountd,rpc-bind}\n" ++
      "    firewall-cmd --reload\nfi") ]

def installScript : ScriptBuilder := .build installSteps

/-- The repository's own test. -/
example : installScript.toString = "\n".intercalate
    [ "#!/bin/bash -xeu",
      "",
      "# Variables",
      "HEADNODE=$(hostname -s)",
      "",
      "# install packages",
      "dnf install -y nfs-utils",
      "",
      "# Add exports to /etc/exports",
      "grep -q \"/home\" \"/etc/exports\" || \\\n" ++
        "  echo \"/home *(rw,no_subtree_check,fsid=10,no_root_squash)\" >> \"/etc/exports\"",
      "grep -q \"/opt/ohpc/pub\" \"/etc/exports\" || \\\n" ++
        "  echo \"/opt/ohpc/pub *(ro,no_subtree_check,fsid=11)\" >> \"/etc/exports\"",
      "grep -q \"/tftpboot\" \"/etc/exports\" || \\\n" ++
        "  echo \"/tftpboot *(rw,no_root_squash,sync,no_subtree_check)\" >> \"/etc/exports\"",
      "grep -q \"/install\" \"/etc/exports\" || \\\n" ++
        "  echo \"/install *(rw,no_root_squash,sync,no_subtree_check)\" >> \"/etc/exports\"",
      "",
      "systemctl enable --now rpcbind nfs-server",
      "exportfs -a",
      "",
      "# Update firewall rules\nif systemctl is-enabled --quiet firewalld.service; then\n" ++
        "    firewall-cmd --permanent --add-service={nfs,mountd,rpc-bind}\n" ++
        "    firewall-cmd --reload\nfi" ] :=
  congrArg (String.intercalate "\n") (by decide +kernel)

def imageInstallSteps (args : XCAT.ImageInstallArgs) : List ScriptStep :=
  [ .addNewLine,
    .addCommand "# Define variables (for shell script execution)",
    .addCommand s!"IMAGE=\"{args.imageName}\"",
    .addCommand s!"ROOTFS=\"{args.rootfs}\"",
    .addCommand s!"POSTINSTALL=\"{args.postinstall}\"",
    .addCommand s!"PKGLIST=\"{args.pkglist}\"",
    .addCommand "HEADNODE=$(hostname -s)",
    .addNewLine,
    .addCommand "# Add autofs commands to postinstall",
    .addLineToFile "${POSTINSTALL}" "autofs"
      "chroot \\${IMG_ROOTIMGDIR} systemctl enable autofs",
    .addCommand "chmod +x \"${POSTINSTALL}\"",
    .addNewLine,
    .addCommand "# Add required packages to the image",
    .addLineToFile "${PKGLIST}" "nfs-utils" "nfs-utils",
    .addLineToFile "${PKGLIST}" "autofs" "autofs",
    .addNewLine,
    .addCommand "# Configure autofs",
    .addLineToFile "${ROOTFS}/etc/auto.master" "/home" "/home   /etc/auto.home",
    .addLineToFile "${ROOTFS}/etc/auto.master" "/opt/ohpc/pub"
      "/opt/ohpc/pub   /etc/auto.ohpc",
    .addNewLine,
    .addLineToFile "${ROOTFS}/etc/auto.home" "home-map"
      "* -fstype=nfs,rw,no_subtree_check,no_root_squash ${HEADNODE}:/home/&",
    .addNewLine,
    .addLineToFile "${ROOTFS}/etc/auto.ohpc" "ohpc-map"
      "* -fstype=nfs,ro,no_subtree_check ${HEADNODE}:/opt/ohpc/pub/&",
    .addNewLine,
    .addCommand "# Create mount points",
    .addCommand "mkdir -p ${ROOTFS}/home ${ROOTFS}/opt/ohpc/pub || :",
    .addNewLine,
    .addCommand "# Update xCAT configuration",
    .addCommand "chdef -t osimage ${IMAGE} postinstall=\"${POSTINSTALL}\"" ]

def imageInstallScript (args : XCAT.ImageInstallArgs) : ScriptBuilder :=
  .build (imageInstallSteps args)

/-- The arguments of the repository's own test. -/
def netbootCompute : XCAT.ImageInstallArgs where
  imageName := "rocky9.5-x86_64-netboot-compute"
  rootfs := "/install/netboot/rocky9.5/x86_64/compute/rootimg"
  postinstall := "/install/custom/netboot/compute.postinstall"
  pkglist := "/install/custom/netboot/compute.otherpkglist"

example : (imageInstallScript netbootCompute).toString = "\n".intercalate
    [ "#!/bin/bash -xeu",
      "",
      "# Define variables (for shell script execution)",
      "IMAGE=\"rocky9.5-x86_64-netboot-compute\"",
      "ROOTFS=\"/install/netboot/rocky9.5/x86_64/compute/rootimg\"",
      "POSTINSTALL=\"/install/custom/netboot/compute.postinstall\"",
      "PKGLIST=\"/install/custom/netboot/compute.otherpkglist\"",
      "HEADNODE=$(hostname -s)",
      "",
      "# Add autofs commands to postinstall",
      "grep -q \"autofs\" \"${POSTINSTALL}\" || \\\n" ++
        "  echo \"chroot \\${IMG_ROOTIMGDIR} systemctl enable autofs\" >> \"${POSTINSTALL}\"",
      "chmod +x \"${POSTINSTALL}\"",
      "",
      "# Add required packages to the image",
      "grep -q \"nfs-utils\" \"${PKGLIST}\" || \\\n  echo \"nfs-utils\" >> \"${PKGLIST}\"",
      "grep -q \"autofs\" \"${PKGLIST}\" || \\\n  echo \"autofs\" >> \"${PKGLIST}\"",
      "",
      "# Configure autofs",
      "grep -q \"/home\" \"${ROOTFS}/etc/auto.master\" || \\\n" ++
        "  echo \"/home   /etc/auto.home\" >> \"${ROOTFS}/etc/auto.master\"",
      "grep -q \"/opt/ohpc/pub\" \"${ROOTFS}/etc/auto.master\" || \\\n" ++
        "  echo \"/opt/ohpc/pub   /etc/auto.ohpc\" >> \"${ROOTFS}/etc/auto.master\"",
      "",
      "grep -q \"home-map\" \"${ROOTFS}/etc/auto.home\" || \\\n" ++
        "  echo \"* -fstype=nfs,rw,no_subtree_check,no_root_squash ${HEADNODE}:/home/&\"" ++
        " >> \"${ROOTFS}/etc/auto.home\"",
      "",
      "grep -q \"ohpc-map\" \"${ROOTFS}/etc/auto.ohpc\" || \\\n" ++
        "  echo \"* -fstype=nfs,ro,no_subtree_check ${HEADNODE}:/opt/ohpc/pub/&\"" ++
        " >> \"${ROOTFS}/etc/auto.ohpc\"",
      "",
      "# Create mount points",
      "mkdir -p ${ROOTFS}/home ${ROOTFS}/opt/ohpc/pub || :",
      "",
      "# Update xCAT configuration",
      "chdef -t osimage ${IMAGE} postinstall=\"${POSTINSTALL}\"" ] :=
  congrArg (String.intercalate "\n") (by decide +kernel)

/-! ### What the scripts do to files -/

/-- A text in double quotes as the shell reads it. Inside a name its characters so far are
kept. -/
def expandChars (env : String → String) : Option (List Char) → List Char → List Char
  | _, [] => []
  | none, '\\' :: '$' :: cs => '$' :: expandChars env none cs
  | none, '$' :: '{' :: cs => expandChars env (some []) cs
  | none, c :: cs => c :: expandChars env none cs
  | some name, c :: cs =>
    if c = '}' then (env (String.ofList name)).toList ++ expandChars env none cs
    else expandChars env (some (name ++ [c])) cs

def expand (env : String → String) (text : String) : List Char :=
  expandChars env none text.toList

/-- What `hostname -s` prints is the only variable that the first script sets. -/
def installEnv (hostname : String) (name : String) : String :=
  if name = "HEADNODE" then hostname else ""

def imageInstallEnv (args : XCAT.ImageInstallArgs) (hostname : String) (name : String) :
    String :=
  if name = "IMAGE" then args.imageName
  else if name = "ROOTFS" then args.rootfs
  else if name = "POSTINSTALL" then args.postinstall
  else if name = "PKGLIST" then args.pkglist
  else if name = "HEADNODE" then hostname
  else ""

variable {κ : Type*} [DecidableEq κ] (locate : List Char → κ)

/-- The lines that are added to files. What file a path leads to is a parameter, as two paths
may lead to one file. -/
def edits (env : String → String) (steps : List ScriptStep) : List (Guarded.Step κ Char) :=
  steps.filterMap fun
    | .addLineToFile path key line => some
      { file := locate (expand env path), key := expand env key, line := expand env line }
    | _ => none

/-- The contents of the files after a run. A file that is missing has none. -/
def runInstall (hostname : String) (files : κ → List Char) : κ → List Char :=
  Guarded.run '\n' (edits locate (installEnv hostname) installSteps) files

def runImageInstall (args : XCAT.ImageInstallArgs) (hostname : String)
    (files : κ → List Char) : κ → List Char :=
  Guarded.run '\n' (edits locate (imageInstallEnv args hostname) (imageInstallSteps args)) files

/-- Running either script twice leaves the files as running it once does. -/
structure RerunsAlone (args : XCAT.ImageInstallArgs) (hostname : String)
    (files : κ → List Char) : Prop where
  installScript : runInstall locate hostname (runInstall locate hostname files) =
    runInstall locate hostname files
  imageInstallScript :
    runImageInstall locate args hostname (runImageInstall locate args hostname files) =
      runImageInstall locate args hostname files

variable {locate} {args : XCAT.ImageInstallArgs} {hostname : String} {files : κ → List Char}
  {key : List Char}

/-! ### The lines with their keys -/

omit [DecidableEq κ] in
theorem edits_installSteps : edits locate (installEnv hostname) installSteps =
    let exports := locate "/etc/exports".toList
    [ ⟨exports, "/home".toList,
        "/home *(rw,no_subtree_check,fsid=10,no_root_squash)".toList⟩,
      ⟨exports, "/opt/ohpc/pub".toList,
        "/opt/ohpc/pub *(ro,no_subtree_check,fsid=11)".toList⟩,
      ⟨exports, "/tftpboot".toList,
        "/tftpboot *(rw,no_root_squash,sync,no_subtree_check)".toList⟩,
      ⟨exports, "/install".toList,
        "/install *(rw,no_root_squash,sync,no_subtree_check)".toList⟩ ] := (rfl)

/-- The first lines that customize the image. They do not depend on the host. -/
def keyedEdits (locate : List Char → κ) (env : String → String) : List (Guarded.Step κ Char) :=
  let postinstall := locate (expand env "${POSTINSTALL}")
  let pkglist := locate (expand env "${PKGLIST}")
  let autoMaster := locate (expand env "${ROOTFS}/etc/auto.master")
  [ ⟨postinstall, "autofs".toList, "chroot ${IMG_ROOTIMGDIR} systemctl enable autofs".toList⟩,
    ⟨pkglist, "nfs-utils".toList, "nfs-utils".toList⟩,
    ⟨pkglist, "autofs".toList, "autofs".toList⟩,
    ⟨autoMaster, "/home".toList, "/home   /etc/auto.home".toList⟩,
    ⟨autoMaster, "/opt/ohpc/pub".toList, "/opt/ohpc/pub   /etc/auto.ohpc".toList⟩ ]

def homeEdit (locate : List Char → κ) (env : String → String) : Guarded.Step κ Char where
  file := locate (expand env "${ROOTFS}/etc/auto.home")
  key := "home-map".toList
  line := expand env "* -fstype=nfs,rw,no_subtree_check,no_root_squash ${HEADNODE}:/home/&"

def ohpcEdit (locate : List Char → κ) (env : String → String) : Guarded.Step κ Char where
  file := locate (expand env "${ROOTFS}/etc/auto.ohpc")
  key := "ohpc-map".toList
  line := expand env "* -fstype=nfs,ro,no_subtree_check ${HEADNODE}:/opt/ohpc/pub/&"

omit [DecidableEq κ] in
theorem edits_imageInstallSteps (locate : List Char → κ) (args : XCAT.ImageInstallArgs)
    (env : String → String) :
    edits locate env (imageInstallSteps args) =
      keyedEdits locate env ++ [homeEdit locate env, ohpcEdit locate env] := (rfl)

/-- The line has the key. -/
def SelfKeyed (key line : List Char) : Prop := '\n' ∉ key ∧ key ≠ [] ∧ key <:+: line

instance (key line : List Char) : Decidable (SelfKeyed key line) :=
  inferInstanceAs (Decidable (_ ∧ _ ∧ _))

omit [DecidableEq κ] in
theorem selfKeyed_installSteps :
    ∀ step ∈ edits locate (installEnv hostname) installSteps, SelfKeyed step.key step.line := by
  rw [edits_installSteps]
  simp only [List.forall_mem_cons]
  refine ⟨?_, ?_, ?_, ?_, by simp⟩ <;> decide

omit [DecidableEq κ] in
theorem selfKeyed_keyedEdits {env : String → String} :
    ∀ step ∈ keyedEdits locate env, SelfKeyed step.key step.line := by
  simp only [keyedEdits, List.forall_mem_cons]
  refine ⟨?_, ?_, ?_, ?_, ?_, by simp⟩ <;> decide

/-! ### The lines of the two maps -/

theorem expand_homeEdit (env : String → String) :
    expand env "* -fstype=nfs,rw,no_subtree_check,no_root_squash ${HEADNODE}:/home/&" =
      '*' :: (" -fstype=nfs,rw,no_subtree_check,no_root_squash".toList ++
        ' ' :: ((env "HEADNODE").toList ++ ':' :: "/home/&".toList)) := by
  simp [expand, expandChars]

theorem expand_ohpcEdit (env : String → String) :
    expand env "* -fstype=nfs,ro,no_subtree_check ${HEADNODE}:/opt/ohpc/pub/&" =
      '*' :: (" -fstype=nfs,ro,no_subtree_check".toList ++
        ' ' :: ((env "HEADNODE").toList ++ ':' :: "/opt/ohpc/pub/&".toList)) := by
  simp [expand, expandChars]

theorem infix_mapLine_iff {options host path : List Char} (hspace : ' ' ∉ key) (hcolon : ':' ∉ key)
    (hoptions : ¬ key <:+: options) (hpath : ¬ key <:+: path) :
    key <:+: options ++ ' ' :: (host ++ ':' :: path) ↔ key <:+: host := by
  rw [Guarded.infix_append_cons_iff hspace, Guarded.infix_append_cons_iff hcolon]
  tauto

/-- The keys of the two maps. -/
def IsMapKey (key : List Char) : Prop := key = "home-map".toList ∨ key = "ohpc-map".toList

omit [DecidableEq κ] in
theorem infix_homeEdit_iff (locate : List Char → κ) (hkey : IsMapKey key)
    (env : String → String) :
    key <:+: (homeEdit locate env).line ↔ key <:+: (env "HEADNODE").toList := by
  rw [homeEdit, expand_homeEdit, ← List.cons_append]
  rcases hkey with rfl | rfl <;>
    exact infix_mapLine_iff (by decide) (by decide) (by decide) (by decide)

omit [DecidableEq κ] in
theorem infix_ohpcEdit_iff (locate : List Char → κ) (hkey : IsMapKey key)
    (env : String → String) :
    key <:+: (ohpcEdit locate env).line ↔ key <:+: (env "HEADNODE").toList := by
  rw [ohpcEdit, expand_ohpcEdit, ← List.cons_append]
  rcases hkey with rfl | rfl <;>
    exact infix_mapLine_iff (by decide) (by decide) (by decide) (by decide)

omit [DecidableEq κ] in
/-- No line brings the key of a map in, unless the name of the host has it. -/
theorem foreign_edits (hkey : IsMapKey key) {env : String → String}
    (hhost : ¬ key <:+: (env "HEADNODE").toList) :
    ∀ step ∈ edits locate env (imageInstallSteps args),
      Guarded.Foreign key (step.line ++ ['\n']) := by
  have hbreak : '\n' ∉ key := by rcases hkey with rfl | rfl <;> decide
  have hstar : '*' ∉ key := by rcases hkey with rfl | rfl <;> decide
  have hline {line : List Char} (hnot : ¬ key <:+: line) : ¬ key <:+: line ++ ['\n'] := by
    rw [Guarded.infix_append_cons_iff hbreak, not_or]
    refine ⟨hnot, ?_⟩
    rcases hkey with rfl | rfl <;> decide
  rw [edits_imageInstallSteps]
  simp only [List.forall_mem_append, List.forall_mem_cons]
  refine ⟨?_, ?_, ?_, by simp⟩
  · simp only [keyedEdits, List.forall_mem_cons]
    rcases hkey with rfl | rfl <;> refine ⟨?_, ?_, ?_, ?_, ?_, by simp⟩ <;> decide
  · have hnot := hline (mt (infix_homeEdit_iff locate hkey env).mp hhost)
    rw [homeEdit, expand_homeEdit] at hnot ⊢
    exact Guarded.foreign_cons hstar hnot
  · have hnot := hline (mt (infix_ohpcEdit_iff locate hkey env).mp hhost)
    rw [ohpcEdit, expand_ohpcEdit] at hnot ⊢
    exact Guarded.foreign_cons hstar hnot

/-- The key of a map is found after a run when it was before or the name of the host has it. -/
theorem found_run_map_iff {env : String → String} {step : Guarded.Step κ Char}
    (files : κ → List Char) (hmem : step ∈ edits locate env (imageInstallSteps args))
    (hkey : IsMapKey step.key)
    (hline : step.key <:+: step.line ↔ step.key <:+: (env "HEADNODE").toList) :
    Guarded.Found '\n' step.key
        (Guarded.run '\n' (edits locate env (imageInstallSteps args)) files step.file) ↔
      Guarded.Found '\n' step.key (files step.file) ∨ step.key <:+: (env "HEADNODE").toList := by
  have hbreak : '\n' ∉ step.key := by rcases hkey with h | h <;> rw [h] <;> decide
  have hne : step.key ≠ [] := by rcases hkey with h | h <;> rw [h] <;> decide
  by_cases hhost : step.key <:+: (env "HEADNODE").toList
  · exact iff_of_true (Guarded.found_run_of_mem hbreak hne (hline.mpr hhost) hmem files)
      (Or.inr hhost)
  · rw [Guarded.found_run_iff_of_foreign hbreak hne (foreign_edits hkey hhost), or_iff_left hhost]

/-! ### Running the scripts again -/

/-- The first script adds nothing when it is run again. -/
theorem runInstall_runInstall (locate : List Char → κ) (hostname : String)
    (files : κ → List Char) :
    runInstall locate hostname (runInstall locate hostname files) =
      runInstall locate hostname files := by
  refine Guarded.run_eq_self_iff.mpr fun step hmem => ?_
  obtain ⟨hbreak, hne, hline⟩ := selfKeyed_installSteps step hmem
  exact Guarded.found_run_of_mem hbreak hne hline hmem files

/-- The key of a map is in its file, or in the name of the host, which the line for it has. -/
def MapFound (locate : List Char → κ) (args : XCAT.ImageInstallArgs) (hostname : String)
    (files : κ → List Char) (path key : String) : Prop :=
  Guarded.Found '\n' key.toList (files (locate (args.rootfs.toList ++ path.toList))) ∨
    key.toList <:+: hostname.toList

theorem runImageInstall_runImageInstall_iff :
    runImageInstall locate args hostname (runImageInstall locate args hostname files) =
        runImageInstall locate args hostname files ↔
      MapFound locate args hostname files "/etc/auto.home" "home-map" ∧
        MapFound locate args hostname files "/etc/auto.ohpc" "ohpc-map" := by
  let env := imageInstallEnv args hostname
  have hsteps := edits_imageInstallSteps locate args env
  have hkeyed : ∀ step ∈ keyedEdits locate env,
      Guarded.Found '\n' step.key (runImageInstall locate args hostname files step.file) := by
    intro step hmem
    obtain ⟨hbreak, hne, hline⟩ := selfKeyed_keyedEdits step hmem
    refine Guarded.found_run_of_mem hbreak hne hline ?_ files
    rw [hsteps]
    exact List.mem_append_left _ hmem
  have hmem : ∀ step ∈ [homeEdit locate env, ohpcEdit locate env],
      step ∈ edits locate env (imageInstallSteps args) := by
    intro step hstep
    rw [hsteps]
    exact List.mem_append_right _ hstep
  have hhome := found_run_map_iff files (hmem (homeEdit locate env) (by simp)) (Or.inl rfl)
    (infix_homeEdit_iff locate (Or.inl rfl) env)
  have hohpc := found_run_map_iff files (hmem (ohpcEdit locate env) (by simp)) (Or.inr rfl)
    (infix_ohpcEdit_iff locate (Or.inr rfl) env)
  refine Guarded.run_eq_self_iff.trans ?_
  rw [hsteps, List.forall_mem_append, and_iff_right hkeyed, List.forall_mem_cons,
    List.forall_mem_singleton]
  exact and_congr hhome hohpc

/-- Both scripts can be run again exactly when both maps have their keys already or get them
from the name of the host. -/
theorem rerunsAlone_iff (locate : List Char → κ) (args : XCAT.ImageInstallArgs)
    (hostname : String) (files : κ → List Char) :
    RerunsAlone locate args hostname files ↔
      MapFound locate args hostname files "/etc/auto.home" "home-map" ∧
        MapFound locate args hostname files "/etc/auto.ohpc" "ohpc-map" := by
  rw [← runImageInstall_runImageInstall_iff]
  constructor
  · exact fun h => h.imageInstallScript
  · exact fun h => ⟨runInstall_runInstall locate hostname files, h⟩

/-- Empty files. The second run appends the line of the first map again. -/
theorem not_rerunsAlone_empty : ¬ RerunsAlone id netbootCompute "headnode" fun _ => [] := by
  intro h
  obtain ⟨hhome, -⟩ := runImageInstall_runImageInstall_iff.mp h.imageInstallScript
  exact absurd hhome (by unfold MapFound; decide +kernel)

end NFS

end Cloyster.Services
