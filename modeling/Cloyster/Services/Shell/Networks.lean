import Cloyster.Engine.Ordered
import Cloyster.Services.Shell.Runs

/-! The connections of the headnode. One that is there is left alone, as is the external one: no
command that changes a connection comes before the answer that there is none of its name. -/

namespace Cloyster.Engine.Shell

open Lib Models Services

variable {site : Site}

/-! ### Commands about a connection -/

/-- How the commands start that delete a connection or add one. -/
def changing (profile : Network.Profile) : List String :=
  ["nmcli connection delete \"" ++ NamedEnum.name profile ++ "\"",
    "nmcli connection add con-name " ++ NamedEnum.name profile ++ " "]

/-- The event changes the connection of the profile. -/
def Changes (e : Event) (profile : Network.Profile) : Prop :=
  ∃ text code, e = .command text code ∧ ∃ start ∈ changing profile, Text.startsWith text start

/-- NetworkManager has no connection of the profile, which is not the external one. -/
def Absent (profile : Network.Profile) (e : Event) : Prop :=
  profile ≠ .External ∧
    ∃ code ≠ 0, e = .command s!"nmcli connection show {NamedEnum.name profile}" code

/-- A connection is changed after the answer that there is none. -/
def connectionPlan : Plan System Event Network.Profile := logPlan Absent Changes

/-- Two texts of which neither starts the other. -/
def Apart (l r : String) : Prop := ¬ l.toList <+: r.toList ∧ ¬ r.toList <+: l.toList

instance (l r : String) : Decidable (Apart l r) := inferInstanceAs (Decidable (_ ∧ _))

theorem not_startsWith {text l start : String} (h : Apart l start) (hl : Text.startsWith text l) :
    ¬ Text.startsWith text start := by
  rw [Text.startsWith, List.isPrefixOf_iff_prefix] at hl ⊢
  intro hstart
  obtain hprefix | hprefix := List.prefix_or_prefix_of_prefix hl hstart
  · exact h.1 hprefix
  · exact h.2 hprefix

theorem startsWith_append {l start : String} (h : Text.startsWith l start) (r : String) :
    Text.startsWith (l ++ r) start := by
  rw [Text.startsWith, List.isPrefixOf_iff_prefix] at h ⊢
  rw [String.toList_append]
  exact h.trans (List.prefix_append _ _)

theorem startsWith_self (l : String) : Text.startsWith l l := by
  rw [Text.startsWith, List.isPrefixOf_iff_prefix]

theorem not_changes {text l : String} {profile : Network.Profile}
    (h : ∀ start ∈ changing profile, Apart l start) (hl : Text.startsWith text l) (code : ℤ) :
    ¬ Changes (.command text code) profile := by
  rintro ⟨text', code', heq, start, hstart, hstarts⟩
  obtain ⟨rfl, -⟩ := Event.command.inj heq
  exact not_startsWith (h start hstart) hl hstarts

theorem changing_nmcli (profile : Network.Profile) :
    ∀ start ∈ changing profile, ' ' ∈ start.toList ∧ programOf start = "nmcli" := by
  cases profile <;> decide +kernel

theorem word_of_changes {e : Event} {profile : Network.Profile} (h : Changes e profile) :
    e.word = "nmcli" := by
  obtain ⟨text, code, rfl, start, hstart, hstarts⟩ := h
  obtain ⟨r, hr⟩ := List.isPrefixOf_iff_prefix.mp hstarts
  obtain ⟨hblank, hword⟩ := changing_nmcli profile start hstart
  have htext : text = start ++ String.ofList r := by
    rw [← String.toList_inj, String.toList_append, String.toList_ofList, hr]
  rw [Event.word, htext]
  exact programOf_eq hblank hword _

theorem apart_device (profile : Network.Profile) :
    ∀ start ∈ changing profile, Apart "nmcli device " start := by
  cases profile <;> decide +kernel

theorem apart_show (profile : Network.Profile) :
    ∀ start ∈ changing profile, Apart "nmcli connection show " start := by
  cases profile <;> decide +kernel

/-- A connection is deleted and added under the name of its own profile. -/
theorem apart_changing {profile profile' : Network.Profile} (h : profile ≠ profile') :
    ∀ start ∈ changing profile, ∀ start' ∈ changing profile', Apart start start' := by
  cases profile <;> cases profile' <;> first | exact absurd rfl h | decide +kernel

theorem eq_of_changes {profile profile' : Network.Profile} {text start : String} {code : ℤ}
    (hstart : start ∈ changing profile) (hl : Text.startsWith text start)
    (h : Changes (.command text code) profile') : profile' = profile := by
  by_contra hne
  exact not_changes (apart_changing (Ne.symm hne) start hstart) hl code h

/-! ### One connection -/

/-- There were answers for the profiles. -/
abbrev Answered (profiles : List Network.Profile) (s : System) : Prop :=
  True ∧ connectionPlan.Knows profiles s

theorem addConnection_startsWith {connection : Connection} {network : Network}
    {interface add : String} (h : addConnection site connection network interface = .ok add) :
    Text.startsWith add
      ("nmcli connection add con-name " ++ NamedEnum.name network.profile ++ " ") := by
  obtain ⟨length, -, hadd⟩ := except_bind_ok_iff.mp h
  have hblank : " ifname ".toList = " ".toList ++ "ifname ".toList := by decide
  rw [Text.startsWith, List.isPrefixOf_iff_prefix, ← Except.ok.inj hadd]
  simp only [toString, String.toList_append, hblank, List.append_assoc, List.prefix_append_right_inj]
  exact List.prefix_append _ _

section

variable (hlive : site.opts.dryRun = false) {profile : Network.Profile}

include hlive

/-- Commands that may be given once there was the answer for the profile. -/
theorem orderly_change {cmd : String}
    (h : ∀ code profile', Changes (.command cmd code) profile' → profile' = profile) :
    connectionPlan.Orderly (Answered [profile]) (command site cmd) fun _ => Answered [profile] :=
  Plan.orderly_post (orderly_give (I := fun _ => True) hlive fun code profile' hchanges =>
    List.mem_singleton.mpr (h code profile' hchanges)) fun _ _ hs => hs.1

theorem orderly_device {cmd : String} (h : Text.startsWith cmd "nmcli device ") :
    connectionPlan.Orderly (Answered [profile]) (command site cmd) fun _ => Answered [profile] :=
  orderly_change hlive fun code profile' hchanges =>
    absurd hchanges (not_changes (apart_device profile') h code)

theorem orderly_connectionExists (hinternal : profile ≠ .External) :
    connectionPlan.Orderly (Answered []) (connectionExists site (NamedEnum.name profile))
      fun there s => Answered [] s ∧ (there = false → Answered [profile] s) := by
  have hshow (code : ℤ) (profile' : Network.Profile) : ¬ Changes
      (.command s!"nmcli connection show {NamedEnum.name profile}" code) profile' :=
    not_changes (apart_show profile') (startsWith_append (startsWith_self _) _) code
  unfold connectionExists
  refine Plan.orderly_ite (fun hdry => absurd (hlive.symm.trans hdry) (by simp)) fun _ => ?_
  refine Plan.orderly_bind (orderly_execute (I := fun _ => True) hlive fun code profile' hchanges =>
    absurd hchanges (hshow code profile')) fun code => Plan.orderly_pure ?_
  rintro s ⟨hs, hmem⟩
  refine ⟨hs, fun hcode => ⟨trivial, fun profile' hprofile => ?_⟩⟩
  obtain rfl := List.mem_singleton.mp hprofile
  exact ⟨_, hmem, hinternal, code, of_decide_eq_false hcode, rfl⟩

theorem orderly_makeConnection (connection : Connection) (network : Network) (interface : String) :
    connectionPlan.Orderly (Answered [network.profile])
      (makeConnection site connection network interface) fun _ => Answered [network.profile] := by
  have hdelete : connectionPlan.Orderly (Answered [network.profile])
      (deleteConnectionIfExists site (NamedEnum.name network.profile))
      fun _ => Answered [network.profile] :=
    orderly_change hlive fun code profile' hchanges =>
      eq_of_changes (List.mem_cons_self ..) (startsWith_self _) hchanges
  have hdevice (cmd : String) (h : Text.startsWith cmd "nmcli device ") :
      connectionPlan.Orderly (Answered [network.profile]) (command site cmd)
        fun _ => Answered [network.profile] := orderly_device hlive h
  have hset (r : String) : Text.startsWith ("nmcli device set " ++ r) "nmcli device " :=
    startsWith_append (by decide) r
  refine Plan.orderly_bind hdelete fun _ => ?_
  refine Plan.orderly_bind (hdevice _ (startsWith_append (hset _) _)) fun _ => ?_
  refine Plan.orderly_bind (hdevice _ (startsWith_append (hset _) _)) fun _ => ?_
  refine orderly_plain fun add hadd => Plan.orderly_bind ?_ fun _ => hdevice _ ?_
  · exact orderly_change hlive fun code profile' hchanges => eq_of_changes
      (List.mem_cons_of_mem _ (List.mem_cons_self ..)) (addConnection_startsWith hadd) hchanges
  · exact startsWith_append (by decide) _

/-- The external connection and one that is there are left alone. -/
theorem orderly_configureNetwork (connection : Connection) :
    connectionPlan.Orderly (Answered []) (configureNetwork site connection)
      fun _ => Answered [] := by
  refine orderly_plain fun network _ => ?_
  refine Plan.orderly_ite (fun _ => Plan.orderly_pure fun s hs => hs) fun hinternal => ?_
  refine orderly_plain fun interface _ => ?_
  refine Plan.orderly_bind (orderly_connectionExists hlive hinternal) fun there => ?_
  refine Plan.orderly_ite (fun _ => Plan.orderly_pure fun s hs => hs.1) fun hthere => ?_
  have hthere' : there = false := Bool.eq_false_iff.mpr hthere
  refine Plan.orderly_pre (Plan.orderly_post
    (orderly_makeConnection hlive connection network interface) ?_) fun s hs => hs.2 hthere'
  exact fun _ s hs => ⟨trivial, hs.2.mono (List.nil_subset _)⟩

/-! ### The run -/

omit hlive in
/-- Programs without commands of NetworkManager. -/
theorem orderly_elsewhere {α : Type} {scope : Scope} {x : EngineM α} (h : Confined site scope x)
    (hwords : "nmcli" ∉ scope.words) :
    connectionPlan.Orderly (Answered []) x fun _ => Answered [] :=
  orderly_of_confined (I := fun _ => True) h (.inr fun _ => trivial) fun _ he _ hchanges =>
    absurd (word_of_changes hchanges ▸ he) hwords

theorem orderly_configureNetworks (connections : List Connection) :
    connectionPlan.Orderly (Answered []) (configureNetworks site connections)
      fun _ => Answered [] := by
  have henable : Confined site { words := ["systemctl"] }
      (ELOSService.enableService site "NetworkManager") :=
    ELOSService.confined_systemctl _ _ (by decide)
  have hdns : Confined site { words := ["systemctl"], files := [dnsFile] }
      (disableNetworkManagerDNSOverride site) :=
    confined_disableNetworkManagerDNSOverride (by decide) (by decide)
  refine Plan.orderly_bind (orderly_elsewhere henable (by decide)) fun _ => ?_
  refine Plan.orderly_bind ?_ fun _ => orderly_elsewhere hdns (by decide)
  exact Plan.orderly_forM fun connection _ => orderly_configureNetwork hlive connection

end

/-- The scope of all tasks but the one about the networks. -/
def elsewhere : Scope := { footprint with words := footprint.words.filter (· ≠ "nmcli") }

theorem orderly_runAll_elsewhere {tasks : List (Task site)}
    (h : ∀ task ∈ tasks, task.footprint.Within elsewhere) :
    connectionPlan.Orderly (Answered []) (runAll tasks) fun _ => Answered [] :=
  orderly_elsewhere (confined_runAll h) (by decide)

end Cloyster.Engine.Shell
