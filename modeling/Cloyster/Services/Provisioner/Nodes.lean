import Cloyster.Lib.Work
import Cloyster.Services.Provisioner.Steps

/-! Registering the nodes, against the list of commands that it is meant to give. What a run gives
is a first part of that list, and when a node cannot be defined nothing but definitions. -/

namespace Cloyster.Engine.XCAT

open Lib Models Services

variable {site : Site} {n : String}

/-! ### Giving commands -/

/-- The log has grown by the commands, with any codes. -/
def giving : Work System String where
  Done cmds s t := ∃ events, t.log = s.log ++ events ∧
    List.Forall₂ (fun cmd e => ∃ code, e = Event.command cmd code) cmds events
  nil s := ⟨[], (List.append_nil _).symm, .nil⟩
  append := by
    rintro l m s t u ⟨events, ht, hl⟩ ⟨events', hu, hm⟩
    exact ⟨events ++ events', by rw [hu, ht, List.append_assoc], List.rel_append hl hm⟩

/-- What the image is called. -/
def CalledAs (n : String) (s : System) : Prop := s.image.osimage = n

theorem through_onOSImage {l : List String} {f : String → EngineM Unit}
    (h : giving.Through (CalledAs n) l (f n)) :
    giving.Through (CalledAs n) l (onOSImage f) := by
  intro s hs
  have hrun : onOSImage f s = f n s := by
    rw [onOSImage, bind_apply, get_apply]
    dsimp only
    rw [hs]
  rw [hrun]
  exact h s hs

theorem through_perform (cmd : String) :
    giving.Through (CalledAs n) [cmd] (perform site cmd) := by
  intro s hs
  rw [perform, bind_apply, get_apply]
  dsimp only
  rw [bind_apply]
  cases hanswer : site.env.command s.log s.fs cmd with
  | ok reply => exact ⟨hs, 1, ⟨[_], rfl, .cons ⟨_, rfl⟩ .nil⟩, fun _ _ _ => le_rfl⟩
  | error e => exact ⟨hs, 0, giving.nil s, fun _ _ h => absurd h (by simp [plain])⟩

section

variable (hlive : site.opts.dryRun = false)

include hlive

theorem through_command (cmd : String) :
    giving.Through (CalledAs n) [cmd] (command site cmd) := by
  have hrun : command site cmd = perform site cmd >>= fun _ => pure () := by
    rw [command, executeCommand, hlive, if_neg (by simp), bind_assoc]
    rfl
  rw [hrun]
  exact Work.through_bind_nil (through_perform cmd) fun _ => Work.through_pure _

theorem through_checkCommand (cmd : String) :
    giving.Through (CalledAs n) [cmd] (checkCommand site cmd) := by
  have hrun : checkCommand site cmd = perform site cmd >>= fun reply =>
      refuseIf (reply.code ≠ 0) (failed cmd) := by
    rw [checkCommand, hlive, if_neg (by simp)]
  rw [hrun]
  refine Work.through_bind_nil (through_perform cmd) fun reply => ?_
  unfold refuseIf
  split_ifs
  · exact Work.through_throw _ []
  · exact Work.through_pure _

end

/-! ### The nodes -/

variable (site) in
/-- The definition of a node, if there is one. -/
def definitionOf (node : Models.Node) : Except Exn String :=
  Models.XCAT.addNode site.cluster.toCluster site.env.text node

/-- A node that cannot be defined ends the run. -/
theorem through_addNode (hlive : site.opts.dryRun = false) (node : Models.Node) :
    giving.Through (CalledAs n) (definitionOf site node).toOption.toList (addNode site node) := by
  unfold addNode definitionOf
  cases Models.XCAT.addNode site.cluster.toCluster site.env.text node with
  | ok cmd => exact through_command hlive cmd
  | error e => exact Work.through_throw _ _

theorem flatMap_definitions {nodes : List Models.Node} {cmds : List String}
    (h : nodes.mapM (definitionOf site) = .ok cmds) :
    nodes.flatMap (fun node => (definitionOf site node).toOption.toList) = cmds := by
  have hall := mapM_ok_iff.mp h
  induction hall with
  | nil => rfl
  | cons hnode _ ih =>
    rw [List.flatMap_cons, hnode, ih (mapM_ok_iff.mpr ‹_›)]
    rfl

theorem definitionOf_of_addNode {node : Models.Node} {s t : System} {u : Unit}
    (h : addNode site node s = .ok u t) : ∃ cmd, definitionOf site node = .ok cmd := by
  obtain ⟨cmd, r, hcmd, -⟩ := bind_ok_iff.mp h
  unfold definitionOf
  cases hdef : Models.XCAT.addNode site.cluster.toCluster site.env.text node with
  | ok cmd' => exact ⟨cmd', rfl⟩
  | error e =>
    rw [hdef] at hcmd
    exact absurd hcmd (by simp [plain])

/-- A loop that returns has defined all nodes. -/
theorem mapM_of_forM {s t : System} {u : PUnit}
    (h : (site.cluster.nodes.forM fun node => addNode site node) s = .ok u t) :
    ∃ cmds, site.cluster.nodes.mapM (definitionOf site) = .ok cmds := by
  generalize site.cluster.nodes = nodes at h ⊢
  induction nodes generalizing s with
  | nil => exact ⟨[], rfl⟩
  | cons node nodes ih =>
    obtain ⟨v, r, hfirst, hrest⟩ := bind_ok_iff.mp h
    obtain ⟨cmds, hcmds⟩ := ih hrest
    obtain ⟨cmd, hcmd⟩ := definitionOf_of_addNode hfirst
    exact ⟨cmd :: cmds, mapM_ok_iff.mpr (.cons hcmd (mapM_ok_iff.mp hcmds))⟩

theorem through_nodes (hlive : site.opts.dryRun = false) :
    giving.Through (CalledAs n)
      (site.cluster.nodes.flatMap fun node => (definitionOf site node).toOption.toList)
      (site.cluster.nodes.forM fun node => addNode site node) :=
  Work.through_forM fun node _ => through_addNode hlive node

/-- What the loop gives are definitions of nodes. -/
theorem exists_node_of_mem {cmd : String}
    (h : cmd ∈ site.cluster.nodes.flatMap fun node => (definitionOf site node).toOption.toList) :
    ∃ node ∈ site.cluster.nodes, definitionOf site node = .ok cmd := by
  obtain ⟨node, hnode, hmem⟩ := List.mem_flatMap.mp h
  refine ⟨node, hnode, ?_⟩
  cases hdef : definitionOf site node with
  | ok cmd' =>
    rw [hdef] at hmem
    rw [List.mem_singleton.mp hmem]
  | error e =>
    rw [hdef] at hmem
    exact absurd hmem List.not_mem_nil

/-- With a node that cannot be defined the loop throws. -/
theorem forM_addNode_ne_ok {e : Exn} {image : Models.XCAT.Image}
    (h : Models.XCAT.addNodes site.cluster.toCluster site.env.text image = .error e)
    (s : System) (u : PUnit) (t : System) :
    (site.cluster.nodes.forM fun node => addNode site node) s ≠ .ok u t := by
  intro hloop
  obtain ⟨definitions, hdefinitions⟩ := mapM_of_forM hloop
  have hdefinitions' : site.cluster.nodes.mapM
      (Models.XCAT.addNode site.cluster.toCluster site.env.text) = .ok definitions :=
    hdefinitions
  rw [Models.XCAT.addNodes, hdefinitions'] at h
  exact absurd h (by simp [bind, Except.bind, pure, Except.pure])

theorem through_addNodes (hlive : site.opts.dryRun = false) {definitions : List String}
    (h : site.cluster.nodes.mapM (definitionOf site) = .ok definitions) :
    giving.Through (CalledAs n) (definitions ++ ["makehosts", "makedhcp -n", "makedns -n",
      "makegocons", s!"nodeset compute osimage={n}"]) (addNodes site) := by
  have hnodes := through_nodes (n := n) hlive
  rw [flatMap_definitions h] at hnodes
  have hassign : giving.Through (CalledAs n) [s!"nodeset compute osimage={n}"]
      (setNodesImage site) :=
    through_onOSImage (f := fun image => checkCommand site s!"nodeset compute osimage={image}")
      (through_checkCommand hlive _)
  refine Work.through_bind hnodes fun _ => ?_
  refine Work.through_bind (l := ["makehosts"]) (through_command hlive _) fun _ => ?_
  refine Work.through_bind (l := ["makedhcp -n"]) (through_command hlive _) fun _ => ?_
  refine Work.through_bind (l := ["makedns -n"]) (through_command hlive _) fun _ => ?_
  refine Work.through_bind (l := ["makegocons"]) (through_command hlive _) fun _ => ?_
  exact hassign

/-- When all nodes can be defined a run gives a first part of the commands in their order, and all
of them if it returns. Otherwise it throws and has given definitions only. -/
theorem addNodes_refines (hlive : site.opts.dryRun = false) (s : System) :
    (∀ cmds, Models.XCAT.addNodes site.cluster.toCluster site.env.text s.image.toImage = .ok cmds →
      ∃ k, giving.Done (cmds.take k) s (finalState (addNodes site s)) ∧
        ∀ u t, addNodes site s = .ok u t → cmds.length ≤ k) ∧
    (∀ e, Models.XCAT.addNodes site.cluster.toCluster site.env.text s.image.toImage = .error e →
      (∀ u t, addNodes site s ≠ .ok u t) ∧
        ∃ cmds, giving.Done cmds s (finalState (addNodes site s)) ∧
          ∀ cmd ∈ cmds, ∃ node ∈ site.cluster.nodes, definitionOf site node = .ok cmd) := by
  have hcalled : CalledAs s.image.osimage s := rfl
  refine ⟨fun cmds hcmds => ?_, fun e he => ?_⟩
  · obtain ⟨definitions, hdefinitions, hrest⟩ := except_bind_ok_iff.mp hcmds
    obtain rfl := Except.ok.inj hrest
    exact (through_addNodes hlive hdefinitions s hcalled).2
  · obtain ⟨-, k, hdone, -⟩ := through_nodes (n := s.image.osimage) hlive s hcalled
    cases hloop : (site.cluster.nodes.forM fun node => addNode site node) s with
    | ok u t => exact absurd hloop (forM_addNode_ne_ok he s u t)
    | error e t =>
      have hall : addNodes site s = .error e t := bind_of_error hloop _
      rw [hall]
      rw [hloop] at hdone
      refine ⟨fun u t' h => absurd h (by simp), _, hdone, fun cmd hcmd => ?_⟩
      exact exists_node_of_mem (List.mem_of_mem_take hcmd)

theorem addNodes_refines_one : ∃ k, giving.Done
    (["mkdef -f -t node n01 arch=x86_64 ip=10.0.0.2 mac=52:54:00:12:34:56 groups=compute,all " ++
      "netboot=xnba ", "makehosts", "makedhcp -n", "makedns -n", "makegocons",
      "nodeset compute osimage="].take k)
    { fs := onlyPasswd } (finalState (addNodes oneSite { fs := onlyPasswd })) := by
  obtain ⟨k, hdone, -⟩ := (@addNodes_refines oneSite rfl { fs := onlyPasswd }).1 _ rfl
  exact ⟨k, hdone⟩

end Cloyster.Engine.XCAT
