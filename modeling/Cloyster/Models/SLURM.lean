import Cloyster.Lib.Directives
import Cloyster.Services.OSService

/-! The server of the queue system. Its configuration file is made anew from a template at each
installation, and the declarations of the nodes are its last lines. -/

namespace Cloyster

open Lib Models Services Directives

namespace Models.SLURM

/-! ### The configuration file -/

def nodeDeclaration (node : Node) : String :=
  s!"NodeName={node.hostname} Sockets={node.cpu.sockets} " ++
    s!"CoresPerSocket={node.cpu.coresPerSocket} " ++
    s!"ThreadsPerCore={node.cpu.threadsPerCore} State=UNKNOWN"

/-- The lines of the template that nothing is put into. -/
def confSettings : List String :=
  ["#ControlAddr=", "#BackupController=", "#BackupAddr=", "SlurmUser=slurm", "#SlurmdUser=root",
    "SlurmctldPort=6817", "SlurmdPort=6818", "AuthType=auth/munge", "#JobCredentialPrivateKey=",
    "#JobCredentialPublicCertificate=", "StateSaveLocation=/var/spool/slurmctld",
    "SlurmdSpoolDir=/var/spool/slurmd", "SwitchType=switch/none", "MpiDefault=none",
    "SlurmctldPidFile=/var/run/slurmctld.pid", "SlurmdPidFile=/var/run/slurmd.pid",
    "ProctrackType=proctrack/pgid", "#PluginDir=", "#FirstJobId=", "#MaxJobCount=",
    "#PlugStackConfig=", "#PropagatePrioProcess=", "#PropagateResourceLimits=",
    "#PropagateResourceLimitsExcept=", "#Prolog=", "#Epilog=", "#SrunProlog=", "#SrunEpilog=",
    "#TaskProlog=", "#TaskEpilog=", "#TaskPlugin=", "#TrackWCKey=no", "#TreeWidth=50", "#TmpFS=",
    "#UsePAM=", "# TIMERS", "SlurmctldTimeout=300", "SlurmdTimeout=300", "InactiveLimit=0",
    "MinJobAge=300", "KillWait=30", "Waittime=0", "# SCHEDULING", "SchedulerType=sched/backfill",
    "#SchedulerAuth=", "SelectType=select/cons_tres", "SelectTypeParameters=CR_Core",
    "#PriorityType=priority/multifactor", "#PriorityDecayHalfLife=14-0",
    "#PriorityUsageResetPeriod=14-0", "#PriorityWeightFairshare=100000", "#PriorityWeightAge=1000",
    "#PriorityWeightPartition=10000", "#PriorityWeightJobSize=1000", "#PriorityMaxAge=1-0",
    "# LOGGING", "SlurmctldDebug=info", "SlurmctldLogFile=/var/log/slurmctld.log",
    "SlurmdDebug=info", "SlurmdLogFile=/var/log/slurmd.log", "#JobCompType=jobcomp/none",
    "#JobCompLoc=", "# ACCOUNTING", "#JobAcctGatherType=jobacct_gather/linux",
    "#JobAcctGatherFrequency=30", "#AccountingStorageType=accounting_storage/slurmdbd",
    "#AccountingStorageHost=", "#AccountingStorageLoc=", "#AccountingStoragePass=",
    "#AccountingStorageUser=", "# COMPUTE NODES", "# OpenHPC default configuration",
    "TaskPlugin=task/affinity", "PropagateResourceLimitsExcept=MEMLOCK",
    "JobCompType=jobcomp/filetxt", "Epilog=/etc/slurm/slurm.epilog.clean",
    "#NodeName=c[1-4] Sockets=2 CoresPerSocket=8 ThreadsPerCore=2 State=UNKNOWN",
    "#PartitionName=normal Nodes=c[1-4] Default=YES MaxTime=24:00:00 State=UP Oversubscribe=EXCLUSIVE",
    "SlurmctldParameters=enable_configless", "#ReturnToService=1", "# CloysterHPC changes",
    "ReturnToService=2"]

/-- The lines before the nodes. -/
def confHead (clusterName controlMachine partitionName : String) : List String :=
  ["# CloysterHPC generated file", "", s!"ClusterName={clusterName}",
    s!"ControlMachine={controlMachine}"] ++ confSettings ++
    [s!"PartitionName={partitionName} Nodes=ALL Default=YES MaxTime=INFINITE State=UP " ++
      "Oversubscribe=EXCLUSIVE"]

def conf (cluster : Installation) (slurm : SLURM) : String :=
  String.join ((confHead cluster.name cluster.headnode.fqdn slurm.defaultQueue).map (· ++ "\n")) ++
    "\n".intercalate (cluster.nodes.map nodeDeclaration) ++ "\n"

def configurationFile : Path := ["etc", "slurm", "slurm.conf"]

/-! ### Reading it back -/

def nodeSettings (node : Node) : List Setting :=
  [("NodeName", node.hostname), ("Sockets", toString node.cpu.sockets),
    ("CoresPerSocket", toString node.cpu.coresPerSocket),
    ("ThreadsPerCore", toString node.cpu.threadsPerCore), ("State", "UNKNOWN")]

def partitionSettings (partitionName : String) : List Setting :=
  [("PartitionName", partitionName), ("Nodes", "ALL"), ("Default", "YES"),
    ("MaxTime", "INFINITE"), ("State", "UP"), ("Oversubscribe", "EXCLUSIVE")]

/-- What the server is told, directive by directive. -/
def confDirectives (cluster : Installation) (slurm : SLURM) : List (List Setting) :=
  [[("ClusterName", cluster.name)], [("ControlMachine", cluster.headnode.fqdn)]] ++
    ((confSettings.filter fun l => l.toList.head? ≠ some '#').map fun l => [setting l]) ++
    [partitionSettings slurm.defaultQueue] ++ cluster.nodes.map nodeSettings

/-- The names that the program puts in can stand in the file. -/
structure BareNames (c : Installation) (slurm : SLURM) : Prop where
  cluster : Bare c.name
  machine : Bare c.headnode.fqdn
  queue : Bare slurm.defaultQueue
  nodes : ∀ node ∈ c.nodes, Bare node.hostname

variable {cluster : Installation} {slurm : SLURM}

theorem nodeDeclaration_eq (node : Node) : nodeDeclaration node = line (nodeSettings node) := by
  rw [← String.toList_inj]
  simp [nodeDeclaration, line, nodeSettings, format, toString]

theorem plain_nodeSettings {node : Node} (h : Bare node.hostname) :
    ∀ s ∈ nodeSettings node, Plain s := by
  simp only [nodeSettings, List.forall_mem_cons]
  exact ⟨plain_pair (by decide) h, plain_pair (by decide) (bare_numeral _),
    plain_pair (by decide) (bare_numeral _), plain_pair (by decide) (bare_numeral _), by decide,
    fun s hs => absurd hs List.not_mem_nil⟩

theorem plain_partitionSettings {partitionName : String} (h : Bare partitionName) :
    ∀ s ∈ partitionSettings partitionName, Plain s := by
  simp only [partitionSettings, List.forall_mem_cons]
  exact ⟨plain_pair (by decide) h, by decide, by decide, by decide, by decide, by decide,
    fun s hs => absurd hs List.not_mem_nil⟩

/-- All lines. Without nodes there is an empty one in their place. -/
def confLines (cluster : Installation) (slurm : SLURM) : List String :=
  confHead cluster.name cluster.headnode.fqdn slurm.defaultQueue ++
    (if cluster.nodes = [] then [""] else cluster.nodes.map nodeDeclaration)

theorem conf_eq (cluster : Installation) (slurm : SLURM) : conf cluster slurm =
    String.ofList (Lines.terminated '\n' ((confLines cluster slurm).map String.toList)) := by
  have hhead := toList_join_lines
    (confHead cluster.name cluster.headnode.fqdn slurm.defaultQueue)
  have hnodes : ("\n".intercalate (cluster.nodes.map nodeDeclaration) ++ "\n").toList =
      Lines.terminated '\n' ((if cluster.nodes = [] then [""]
        else cluster.nodes.map nodeDeclaration).map String.toList) := by
    split_ifs with hnil
    · rw [hnil]
      rfl
    · exact toList_intercalate_lines (by simpa using hnil)
  rw [← String.toList_inj, conf, String.append_assoc, String.toList_append, hhead, hnodes,
    confLines, List.map_append, Lines.terminated_append, String.toList_ofList]

/-- A line of the template is a comment or one setting, and none is about a node. -/
structure FixedLine (l : List Char) : Prop where
  unbroken : '\n' ∉ l
  setting : l.head? ≠ some '#' → '=' ∈ l ∧ (∀ c ∈ l, c ∉ [' ', '\t', '\n', '#']) ∧
    l.takeWhile (· ≠ '=') ≠ "NodeName".toList

instance (l : List Char) : Decidable (FixedLine l) :=
  have : Decidable (∀ c ∈ l, c ∉ [' ', '\t', '\n', '#']) := List.decidableBAll _ _
  decidable_of_iff ('\n' ∉ l ∧ (l.head? ≠ some '#' → '=' ∈ l ∧
      (∀ c ∈ l, c ∉ [' ', '\t', '\n', '#']) ∧ l.takeWhile (· ≠ '=') ≠ "NodeName".toList))
    ⟨fun h => ⟨h.1, h.2⟩, fun h => ⟨h.unbroken, h.setting⟩⟩

theorem fixedLine_confSettings : ∀ l ∈ confSettings, FixedLine l.toList := by decide +kernel

theorem settings_confSettings : (confSettings.map fun l => settings l.toList).filter (· ≠ []) =
    (confSettings.filter fun l => l.toList.head? ≠ some '#').map fun l => [setting l] := by
  have hall := fixedLine_confSettings
  generalize confSettings = ls at hall ⊢
  induction ls with
  | nil => rfl
  | cons l ls ih =>
    rw [List.forall_mem_cons] at hall
    by_cases hcomment : l.toList.head? = some '#'
    · obtain ⟨r, hr⟩ : ∃ r, l.toList = '#' :: r := by
        cases hl : l.toList with
        | nil =>
          rw [hl] at hcomment
          exact absurd hcomment (by simp)
        | cons c r =>
          rw [hl, List.head?_cons, Option.some_inj] at hcomment
          exact ⟨r, by rw [hcomment]⟩
      rw [List.map_cons, hr, settings_comment, List.filter_cons_of_neg (by simp),
        List.filter_cons_of_neg (by simp [hr]), ih hall.2]
    · obtain ⟨hcut, hbare, -⟩ := hall.1.setting hcomment
      have hsettings : settings l.toList = [setting l] := by
        conv_lhs => rw [← format_setting hcut]
        exact settings_single (plain_setting hbare)
      rw [List.map_cons, hsettings, List.filter_cons_of_pos (by simp),
        List.filter_cons_of_pos (by simpa using hcomment), List.map_cons, ih hall.2]

theorem settings_nodes (h : ∀ node ∈ cluster.nodes, Bare node.hostname) :
    ((if cluster.nodes = [] then [""] else cluster.nodes.map nodeDeclaration).map
      fun l => settings l.toList).filter (· ≠ []) = cluster.nodes.map nodeSettings := by
  split_ifs with hnil
  · rw [hnil]
    decide
  · rw [List.map_map, List.filter_eq_self.mpr]
    · refine List.map_congr_left fun node hnode => ?_
      rw [Function.comp_apply, nodeDeclaration_eq]
      exact settings_line (by simp [nodeSettings]) (plain_nodeSettings (h node hnode))
    · intro l hl
      obtain ⟨node, hnode, rfl⟩ := List.mem_map.mp hl
      rw [Function.comp_apply, nodeDeclaration_eq,
        settings_line (by simp [nodeSettings]) (plain_nodeSettings (h node hnode))]
      exact decide_eq_true (by simp [nodeSettings])

theorem partition_eq (partitionName : String) :
    s!"PartitionName={partitionName} Nodes=ALL Default=YES MaxTime=INFINITE State=UP " ++
      "Oversubscribe=EXCLUSIVE" = line (partitionSettings partitionName) := by
  rw [← String.toList_inj]
  simp [line, partitionSettings, format, toString]

/-- The two settings that are alone on their lines. -/
theorem clusterName_eq (name : String) : s!"ClusterName={name}" = line [("ClusterName", name)] := by
  rw [← String.toList_inj]
  simp [line, format, toString]

theorem controlMachine_eq (name : String) :
    s!"ControlMachine={name}" = line [("ControlMachine", name)] := by
  rw [← String.toList_inj]
  simp [line, format, toString]

theorem plain_single {key value : String} (hkey : Bare key ∧ '=' ∉ key.toList) (h : Bare value) :
    ∀ s ∈ [(key, value)], Plain s := List.forall_mem_singleton.mpr (plain_pair hkey h)

/-- A name that can stand in the file breaks no line. -/
theorem not_mem_confLines (h : BareNames cluster slurm) :
    ∀ l ∈ (confLines cluster slurm).map String.toList, '\n' ∉ l := by
  intro l hl
  obtain ⟨text, htext, rfl⟩ := List.mem_map.mp hl
  rw [confLines, confHead, partition_eq, clusterName_eq, controlMachine_eq] at htext
  simp only [List.mem_append, List.mem_cons, List.not_mem_nil, or_false] at htext
  obtain (((rfl | rfl | rfl | rfl) | hfixed) | rfl) | hnode := htext
  · decide
  · decide
  · exact (not_mem_line (plain_single (by decide) h.cluster)).2
  · exact (not_mem_line (plain_single (by decide) h.machine)).2
  · exact (fixedLine_confSettings text hfixed).unbroken
  · exact (not_mem_line (plain_partitionSettings h.queue)).2
  · split_ifs at hnode with hnil
    · rw [List.mem_singleton.mp hnode]
      decide
    · obtain ⟨node, hmem, rfl⟩ := List.mem_map.mp hnode
      rw [nodeDeclaration_eq]
      exact (not_mem_line (plain_nodeSettings (h.nodes node hmem))).2

theorem directives_conf (h : BareNames cluster slurm) :
    directives (conf cluster slurm) = confDirectives cluster slurm := by
  have hname : settings (line [("ClusterName", cluster.name)]).toList =
      [("ClusterName", cluster.name)] :=
    settings_line (by simp) (plain_single (by decide) h.cluster)
  have hmachine : settings (line [("ControlMachine", cluster.headnode.fqdn)]).toList =
      [("ControlMachine", cluster.headnode.fqdn)] :=
    settings_line (by simp) (plain_single (by decide) h.machine)
  have hpartition : settings (line (partitionSettings slurm.defaultQueue)).toList =
      partitionSettings slurm.defaultQueue :=
    settings_line (by simp [partitionSettings]) (plain_partitionSettings h.queue)
  have hcomment : settings "# CloysterHPC generated file".toList = [] := settings_comment _
  have hempty : settings "".toList = [] := settings_nil
  have hfirst (l m : List Setting) (hl : l ≠ []) (hm : m ≠ []) :
      [[], [], l, m].filter (· ≠ []) = [l, m] := by simp [hl, hm]
  have hsingle (l : List Setting) (hl : l ≠ []) : [l].filter (· ≠ []) = [l] := by simp [hl]
  rw [conf_eq, directives_terminated (not_mem_confLines h), List.map_map, confLines, confHead,
    partition_eq, clusterName_eq, controlMachine_eq]
  simp only [List.map_append, List.filter_append, List.map_cons, List.map_nil, Function.comp_def,
    hname, hmachine, hcomment, hempty, hpartition, settings_nodes h.nodes,
    settings_confSettings, confDirectives]
  rw [hfirst _ _ (by simp) (by simp), hsingle _ (by simp [partitionSettings])]

/-- The nodes are the directives that start with `NodeName`. -/
theorem declared_conf (h : BareNames cluster slurm) :
    declared (conf cluster slurm) "NodeName" = cluster.nodes.map nodeSettings := by
  have hfixed : ((confSettings.filter fun l => l.toList.head? ≠ some '#').map
      fun l => [setting l]).filter
        (fun directive => directive.head?.map Prod.fst = some "NodeName") = [] := by
    refine List.filter_eq_nil_iff.mpr fun directive hmem => ?_
    obtain ⟨l, hl, rfl⟩ := List.mem_map.mp hmem
    obtain ⟨hl, hcomment⟩ := List.mem_filter.mp hl
    have hkey := ((fixedLine_confSettings l hl).setting (by simpa using hcomment)).2.2
    simpa [setting, ← String.toList_inj] using hkey
  have hhead : [[("ClusterName", cluster.name)], [("ControlMachine", cluster.headnode.fqdn)]].filter
      (fun directive => directive.head?.map Prod.fst = some "NodeName") = [] := by
    simp
  have hpartition : [partitionSettings slurm.defaultQueue].filter
      (fun directive => directive.head?.map Prod.fst = some "NodeName") = [] := by
    simp [partitionSettings]
  have hnodes : (cluster.nodes.map nodeSettings).filter
      (fun directive => directive.head?.map Prod.fst = some "NodeName") =
        cluster.nodes.map nodeSettings := by
    refine List.filter_eq_self.mpr fun directive hmem => ?_
    obtain ⟨node, -, rfl⟩ := List.mem_map.mp hmem
    simp [nodeSettings]
  rw [declared, directives_conf h, confDirectives, List.filter_append, List.filter_append,
    List.filter_append, hhead, hfixed, hpartition, hnodes]
  rfl

end Models.SLURM

namespace Engine.SLURM

open Models.SLURM

variable (site : Site)

def installServer : EngineM Unit := do
  let _ ← ELOSService.install site "ohpc-slurm-server"

def configureServer (slurm : SLURM) : EngineM Unit := do
  remove site configurationFile
  makeDirectory site configurationFile.parent
  addString site configurationFile (conf site.cluster slurm)

def enableServer : EngineM Unit := do
  let _ ← ELOSService.enableService site "munge"
  let _ ← ELOSService.enableService site "slurmctld"

def startServer : EngineM Unit := do
  let _ ← ELOSService.startService site "munge"
  let _ ← ELOSService.startService site "slurmctld"

end Engine.SLURM

end Cloyster
