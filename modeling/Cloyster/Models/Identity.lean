import Cloyster.Lib.Lines
import Cloyster.Models.Profiles

/-! The names of the headnode. The domain is not stored: it is read back from the full
name by cutting at the first period, so hostname, full name and domain fit together
only as long as the hostname has no period and is what the full name starts with. -/

namespace Cloyster.Models.Cluster

open Lib

/-! ### Cutting at the first period -/

theorem toList_fullName (hostname domainName : String) :
    (fullName hostname domainName).toList = hostname.toList ++ '.' :: domainName.toList := by
  simp [fullName]

theorem afterFirst_fullName {hostname : String} (h : '.' ∉ hostname.toList) (domainName : String) :
    Text.afterFirst '.' (fullName hostname domainName) = domainName := by
  have hmem : '.' ∈ (fullName hostname domainName).toList := by simp [toList_fullName]
  have hdrop : (fullName hostname domainName).toList.dropWhile (· ≠ '.') =
      '.' :: domainName.toList := by
    rw [toList_fullName, Lines.dropWhile_append_cons h]
  rw [Text.afterFirst, if_pos hmem, hdrop, List.tail_cons, String.ofList_toList]

/-- A period in the hostname leaves part of the hostname in the domain. -/
theorem afterFirst_fullName_of_mem {hostname : String} (h : '.' ∈ hostname.toList)
    (domainName : String) :
    Text.afterFirst '.' (fullName hostname domainName) =
      fullName (Text.afterFirst '.' hostname) domainName := by
  have hmem : '.' ∈ (fullName hostname domainName).toList := by simp [toList_fullName]
  have hne : (hostname.toList.dropWhile (· ≠ '.')) ≠ [] := by
    rw [ne_eq, List.dropWhile_eq_nil_iff]
    intro hall
    simpa using hall '.' h
  have hdrop : (fullName hostname domainName).toList.dropWhile (· ≠ '.') =
      hostname.toList.dropWhile (· ≠ '.') ++ '.' :: domainName.toList := by
    rw [toList_fullName, List.dropWhile_append, if_neg (by simpa using hne)]
  apply String.toList_inj.mp
  rw [Text.afterFirst, if_pos hmem, hdrop, List.tail_append_of_ne_nil hne, String.toList_ofList,
    toList_fullName, Text.afterFirst, if_pos h, String.toList_ofList]

theorem afterFirst_fullName_ne {hostname : String} (h : '.' ∈ hostname.toList)
    (domainName : String) :
    Text.afterFirst '.' (fullName hostname domainName) ≠ domainName := by
  intro heq
  rw [afterFirst_fullName_of_mem h] at heq
  have hlength := congrArg (fun s : String => s.toList.length) heq
  simp only [toList_fullName, List.length_append, List.length_cons] at hlength
  omega

/-! ### Consistency -/

/-- The full name is the hostname and the domain that is read back from it. -/
def Consistent (cluster : Cluster) : Prop :=
  cluster.headnode.fqdn = fullName cluster.headnode.hostname cluster.getDomainName

variable {boost : Boost} {opts : Options} {host : Host} {file : KeyFile} {c c' : Cluster} {u : Unit}

theorem consistent_iff :
    Consistent c ↔ '.' ∉ c.headnode.hostname.toList ∧
      ∃ domainName, c.headnode.fqdn = fullName c.headnode.hostname domainName := by
  unfold Consistent getDomainName
  constructor
  · intro h
    refine ⟨fun hdot => ?_, _, h⟩
    have hcut := afterFirst_fullName_ne hdot (Text.afterFirst '.' c.headnode.fqdn)
    rw [← h] at hcut
    exact hcut rfl
  · rintro ⟨hdot, domainName, hfqdn⟩
    rw [hfqdn, afterFirst_fullName hdot]

theorem discoverNames_spec (nodename : String) :
    '.' ∉ (discoverNames nodename).1.toList ∧
      ∃ domainName, (discoverNames nodename).2 = fullName (discoverNames nodename).1 domainName := by
  have hlocal (hostname : String) :
      hostname ++ ".localdomain" = fullName hostname "localdomain" := by
    rw [fullName, String.append_assoc]
    rfl
  unfold discoverNames
  by_cases hempty : nodename = ""
  · subst hempty
    exact ⟨by decide, "localdomain", by decide⟩
  by_cases hdot : '.' ∈ nodename.toList
  · obtain ⟨pre, rest, hsplit, hpre⟩ := List.eq_append_cons_of_mem hdot
    have hparts : nodename.toList.splitOn '.' = pre :: rest.splitOn '.' := by
      rw [hsplit, List.splitOn_append_cons_self_of_not_mem hpre]
    have hname : nodename = fullName (String.ofList pre) (String.ofList rest) := by
      apply String.toList_inj.mp
      rw [toList_fullName, hsplit, String.toList_ofList, String.toList_ofList]
    simp only [hparts, hempty, if_false, List.map_cons, List.headD_cons, String.toList_ofList]
    refine ⟨hpre, ?_⟩
    split_ifs
    · exact ⟨_, hname⟩
    · exact ⟨"localdomain", hlocal _⟩
  · have hparts : nodename.toList.splitOn '.' = [nodename.toList] := List.splitOn_eq_singleton hdot
    simp only [hparts, hempty, if_false, List.map_singleton, List.headD_cons, String.ofList_toList]
    exact ⟨hdot, "localdomain", hlocal nodename⟩

theorem consistent_construct (h : construct host = .ok c) : Consistent c := by
  simp only [construct, except_bind_ok_iff] at h
  obtain ⟨os, -, h⟩ := h
  obtain rfl := Except.ok.inj h
  exact consistent_iff.mpr (discoverNames_spec host.nodename)

/-! ### What `fillData` does to the names -/

theorem fillData_names (h : fillData boost opts host file c = .ok u c') :
    c'.headnode.hostname = AnswerFile.keyText file "hostname" "hostname" ∧
      c'.headnode.fqdn = identityFQDN (AnswerFile.sectionHostname file) := by
  simp only [fillData, bind_ok_iff, liftExcept_ok_iff, AnswerFile.loadOptions_ok_iff] at h
  obtain ⟨_, c, ⟨⟨-, rfl⟩, rfl⟩, hfill⟩ := h
  obtain ⟨_, _, _, c₁, c₂, -, -, hprepared, hconnect, hcompleted⟩ := fill_ok hfill
  have hkept : unwired c₂ = unwired c₁ := keeps_connectAll _ _ _ _ _ _ hconnect
  have hhostname : c₂.headnode.hostname = c₁.headnode.hostname :=
    congrArg (·.headnode.hostname) hkept
  have hfqdn : c₂.headnode.fqdn = c₁.headnode.fqdn := congrArg (·.headnode.fqdn) hkept
  constructor
  · rw [hcompleted.hostname, hhostname, hprepared.hostname]
    rfl
  · rw [hcompleted.fqdn, hfqdn, hprepared.fqdn]
    rfl

/-! ### Runs -/

/-- The calls that write a name of the headnode. -/
inductive Step where
  | setHostname (hostname : String)
  | setDomainName (domainName : String)
  | fillData (host : Host) (file : KeyFile)

def Step.run (boost : Boost) (opts : Options) : Step → ClusterM Unit
  | .setHostname hostname => Cluster.setHostname hostname
  | .setDomainName domainName => Cluster.setDomainName domainName
  | .fillData host file => Cluster.fillData boost opts host file

/-- One call that returns, with the cluster before and after it. -/
structure Transition where
  before : Cluster
  step : Step
  after : Cluster

/-- The calls are made one after the other, and each returns. -/
inductive Run (boost : Boost) (opts : Options) : Cluster → List Transition → Prop where
  | nil (c : Cluster) : Run boost opts c []
  | cons {c c' : Cluster} {step : Step} {u : Unit} {trace : List Transition} :
    step.run boost opts c = .ok u c' → Run boost opts c' trace →
      Run boost opts c (⟨c, step, c'⟩ :: trace)

/-- The names agree, and after `fillData` they are those of the answer file. -/
structure Right (t : Transition) : Prop where
  consistent : Consistent t.after
  established : ∀ host file, t.step = .fillData host file →
    t.after.headnode.hostname = AnswerFile.keyText file "hostname" "hostname" ∧
      t.after.getDomainName = AnswerFile.keyText file "hostname" "domain_name"

/-- A hostname without a period, with which the full name starts already. -/
def Meets (t : Transition) : Prop :=
  match t.step with
  | .setHostname hostname => '.' ∉ hostname.toList ∧
      ∃ domainName, t.before.headnode.fqdn = fullName hostname domainName
  | .setDomainName _ => True
  | .fillData _ file => '.' ∉ (AnswerFile.keyText file "hostname" "hostname").toList

theorem right_iff_meets {step : Step} (hc : Consistent c) (h : step.run boost opts c = .ok u c') :
    Right ⟨c, step, c'⟩ ↔ Meets ⟨c, step, c'⟩ := by
  cases step with
  | setHostname hostname =>
    obtain rfl := modify_ok_iff.mp h
    constructor
    · intro hright
      exact consistent_iff.mp hright.consistent
    · intro hmeets
      exact ⟨consistent_iff.mpr hmeets, by simp⟩
  | setDomainName domainName =>
    obtain ⟨-, rfl⟩ := EStateM.Result.ok.inj h
    have hdot := (consistent_iff.mp hc).1
    refine iff_of_true ⟨?_, by simp⟩ trivial
    exact consistent_iff.mpr ⟨hdot, domainName, rfl⟩
  | fillData host file =>
    obtain ⟨hhostname, hfqdn⟩ := fillData_names h
    constructor
    · intro hright
      have hdot := (consistent_iff.mp hright.consistent).1
      rw [hhostname] at hdot
      exact hdot
    · intro hdot
      have hname : c'.headnode.fqdn = fullName (AnswerFile.keyText file "hostname" "hostname")
          (AnswerFile.keyText file "hostname" "domain_name") := by
        have hcut := afterFirst_fullName hdot (AnswerFile.keyText file "hostname" "domain_name")
        exact hfqdn.trans (congrArg (fullName _) hcut)
      have hdomain : c'.getDomainName = AnswerFile.keyText file "hostname" "domain_name" := by
        rw [getDomainName, hname, afterFirst_fullName hdot]
      refine ⟨?_, ?_⟩
      · rw [Consistent, hdomain, hname, hhostname]
      · rintro host' file' heq
        obtain ⟨-, rfl⟩ := Step.fillData.inj heq
        exact ⟨hhostname, hdomain⟩

/-- As long as the names agree at the start, they agree at every step exactly when every
step does its part. -/
theorem right_run_iff {trace : List Transition} (hrun : Run boost opts c trace)
    (hc : Consistent c) : (∀ t ∈ trace, Right t) ↔ ∀ t ∈ trace, Meets t := by
  induction hrun with
  | nil c => simp
  | cons hstep _ ih =>
    rw [List.forall_mem_cons, List.forall_mem_cons]
    constructor
    · rintro ⟨hright, hrest⟩
      exact ⟨(right_iff_meets hc hstep).mp hright, (ih hright.consistent).mp hrest⟩
    · rintro ⟨hmeets, hrest⟩
      have hright := (right_iff_meets hc hstep).mpr hmeets
      exact ⟨hright, (ih hright.consistent).mpr hrest⟩

/-- Every run of a new cluster. -/
theorem identity_iff {trace : List Transition} (hnew : construct host = .ok c)
    (hrun : Run boost opts c trace) :
    (Consistent c ∧ ∀ t ∈ trace, Right t) ↔ ∀ t ∈ trace, Meets t := by
  have hc := consistent_construct hnew
  rw [right_run_iff hrun hc]
  exact and_iff_right hc

/-- The cluster of the sample host, as it is constructed. -/
def newCluster : Cluster :=
  { headnode := { hostname := "machine", fqdn := "machine.example.org", os := {} } }

theorem identity_iff_fillData :
    ∃ c, fillData .digits {} sampleHost (sampleFile []) newCluster = .ok () c ∧ Consistent c := by
  have hreturns : (outcome (fillData .digits {} sampleHost (sampleFile []) newCluster)).isOk := by
    decide +kernel
  obtain ⟨u, hu⟩ := isOk_iff.mp hreturns
  obtain ⟨c, hc⟩ := outcome_ok_iff.mp hu
  have hrun : Run .digits {} newCluster [⟨newCluster, .fillData sampleHost (sampleFile []), c⟩] :=
    .cons hc (.nil c)
  have hnew : construct sampleHost = .ok newCluster := by decide +kernel
  have hdot : '.' ∉ (AnswerFile.keyText (sampleFile []) "hostname" "hostname").toList := by
    decide +kernel
  have hall := ((identity_iff hnew hrun).mpr (by simpa [Meets] using hdot)).2
  exact ⟨c, hc, (hall _ List.mem_cons_self).consistent⟩

/-- A new hostname does not reach the full name. -/
theorem not_identity_setHostname :
    construct sampleHost = .ok newCluster ∧
      ∃ c, Run .digits {} newCluster [⟨newCluster, .setHostname "other", c⟩] ∧ ¬ Consistent c := by
  refine ⟨by decide +kernel, { newCluster with headnode.hostname := "other" },
    .cons rfl (.nil _), ?_⟩
  unfold Consistent
  decide +kernel

end Cloyster.Models.Cluster
