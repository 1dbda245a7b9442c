import Cloyster.Models.Filled

/-! The network sections of an answer file against the networks and connections of the
filled cluster: a section that is there leads to one network and one connection with
its values, and one that is missing to none. -/

namespace Cloyster.Models

open Lib

def networkSection : Network.Profile → String
  | .External => "network_external"
  | .Management => "network_management"
  | .Service => "network_service"
  | .Application => "network_application"

namespace Cluster

/-- The network and the connection that stand at `i` and `k` are the only ones of the
profile, and have the values of its section. -/
structure Describes (boost : Boost) (file : KeyFile) (profile : Network.Profile) (c : Cluster)
    (i k : ℕ) (network : Network) (connection : Connection) : Prop where
  networkAt : c.networks[i]? = some network ∧ network.profile = profile
  oneNetwork : ∀ (j : ℕ) (n : Network), c.networks[j]? = some n → n.profile = profile → j = i
  connectionAt : c.headnode.connections[k]? = some connection ∧ connection.network = i
  oneConnection : ∀ (j : ℕ) (d : Connection),
    c.headnode.connections[j]? = some d → d.network = i → j = k
  interface : connection.interface = file.value? (networkSection profile) "interface"
  mac : connection.mac = (file.value? (networkSection profile) "mac_address").map Text.lower
  address : ∀ s ip, file.value? (networkSection profile) "ip_address" = some s →
    boost.makeAddress s = some ip → connection.address = ip ∧ LiesIn ip network

/-- What a section that is there or missing leads to. -/
structure Describable (boost : Boost) (file : KeyFile) (c : Cluster) (profile : Network.Profile) :
    Prop where
  present : file.hasGroup (networkSection profile) →
    ∃ i k network connection, Describes boost file profile c i k network connection
  absent : ¬ file.hasGroup (networkSection profile) →
    (∀ n ∈ c.networks, n.profile ≠ profile) ∧
      ∀ d ∈ c.headnode.connections, ∀ n, c.networks[d.network]? = some n → n.profile ≠ profile

variable {boost : Boost} {opts : Options} {host : Host} {file : KeyFile} {c c' : Cluster}
  {profile : Network.Profile}

theorem getNetworkField_loaded (hservice : profile ≠ .Service)
    (hgroup : file.hasGroup (networkSection profile)) :
    getNetworkField (AnswerFile.loaded boost file {}) profile =
      AnswerFile.sectionNetwork boost file (networkSection profile) {} := by
  cases profile with
  | External => rfl
  | Management => rfl
  | Service => exact absurd rfl hservice
  | Application => exact if_pos hgroup

theorem mem_profilesOf_iff (hloadable : AnswerFile.FileLoadable boost opts file) :
    profile ∈ profilesOf (AnswerFile.loaded boost file {}) ↔
      profile ≠ .Service ∧ file.hasGroup (networkSection profile) := by
  have hgroup {sectionName : String} (h : AnswerFile.NetworkLoadable boost file sectionName) :
      file.hasGroup sectionName := by
    obtain ⟨s, hs⟩ := Option.isSome_iff_exists.mp h.interface
    exact KeyFile.hasGroup_of_value? hs
  have hexternal := hgroup hloadable.external
  have hmanagement := hgroup hloadable.management
  have happlication : (AnswerFile.loaded boost file {}).application.con_interface.isSome ↔
      file.hasGroup "network_application" := by
    have hfield : (AnswerFile.loaded boost file {}).application =
        if file.hasGroup "network_application" then
          AnswerFile.sectionNetwork boost file "network_application" {}
        else {} := rfl
    rw [hfield]
    by_cases h : file.hasGroup "network_application"
    · rw [if_pos h]
      exact iff_of_true (hloadable.application h).interface h
    · rw [if_neg h]
      exact iff_of_false (by decide) h
  have hmem : profile ∈ profilesOf (AnswerFile.loaded boost file {}) ↔
      profile = .Management ∨ profile = .External ∨
        profile = .Application ∧ file.hasGroup "network_application" := by
    unfold profilesOf
    split_ifs with h
    · simp [happlication.mp h]
    · simp [mt happlication.mpr h]
  rw [hmem]
  cases profile with
  | External => simp [networkSection, hexternal]
  | Management => simp [networkSection, hmanagement]
  | Service => simp
  | Application => simp [networkSection]

theorem mem_profiles {profiles : List Network.Profile} {af : AnswerFile}
    (hwired : Wired af profiles c) :
    profile ∈ profiles ↔ ∃ (i : ℕ) (network : Network),
      c.networks[i]? = some network ∧ network.profile = profile := by
  rw [← hwired.profiles, List.mem_map]
  constructor
  · rintro ⟨network, hmem, hprofile⟩
    obtain ⟨i, hi⟩ := List.mem_iff_getElem?.mp hmem
    exact ⟨i, network, hi, hprofile⟩
  · rintro ⟨i, network, hi, hprofile⟩
    exact ⟨network, List.mem_of_getElem? hi, hprofile⟩

theorem nodup_profilesOf (af : AnswerFile) : (profilesOf af).Nodup := by
  unfold profilesOf
  split_ifs <;> decide

theorem storedMAC_keyText {sectionName : String}
    (h : file.value? sectionName "mac_address" ≠ some "") :
    storedMAC (some (AnswerFile.keyText file sectionName "mac_address")) =
      (file.value? sectionName "mac_address").map Text.lower := by
  unfold AnswerFile.keyText
  cases hmac : file.value? sectionName "mac_address" with
  | none => rfl
  | some s =>
    rw [hmac] at h
    have hne : s ≠ "" := fun hs => h (by rw [hs])
    simp [storedMAC, hne]

/-- The section of a profile that is there, found again in the wired cluster. -/
theorem describes_of_wired {af : AnswerFile} {i : ℕ} {network : Network} {connection : Connection}
    (hwired : Wired af (profilesOf af) c) (hnetwork : c.networks[i]? = some network)
    (hprofile : network.profile = profile)
    (hconnection : c.headnode.connections[i]? = some connection)
    (hfield : getNetworkField af profile =
      AnswerFile.sectionNetwork boost file (networkSection profile) {})
    (hmac : file.value? (networkSection profile) "mac_address" ≠ some "") :
    Describes boost file profile c i i network connection := by
  have hlinks := hwired.links i network connection hnetwork hconnection
  rw [hprofile, hfield] at hlinks
  refine ⟨⟨hnetwork, hprofile⟩, ?_, ⟨hconnection, hwired.position i connection hconnection⟩, ?_,
    hlinks.interface, hlinks.mac.trans (storedMAC_keyText hmac), ?_⟩
  · intro j n hn hn'
    have hnodup : (c.networks.map (·.profile)).Nodup := hwired.profiles ▸ nodup_profilesOf af
    have hj : (c.networks.map (·.profile))[j]? = some profile := by
      rw [List.getElem?_map, hn, Option.map_some, hn']
    have hi : (c.networks.map (·.profile))[i]? = some profile := by
      rw [List.getElem?_map, hnetwork, Option.map_some, hprofile]
    have hlt : j < (c.networks.map (·.profile)).length := (List.getElem?_eq_some_iff.mp hj).1
    exact (List.getElem?_inj hlt hnodup).mp (hj.trans hi.symm)
  · intro j d hd hposition
    exact (hwired.position j d hd).symm.trans hposition
  · intro s ip hs hip
    have haddress : connection.address = ip := by
      apply hlinks.address
      simp [AnswerFile.sectionNetwork, AnswerFile.keyAddress?, hs, hip]
    exact ⟨haddress, haddress ▸ hlinks.lies⟩

/-- After `fillData` on a new cluster, the sections and the networks agree exactly when
there is no service section and no empty MAC address. -/
theorem describable_fillNew_iff (h : fillNew boost opts host file = .ok c') :
    (∀ profile, Describable boost file c' profile) ↔
      ¬ file.hasGroup "network_service" ∧
        ∀ profile, file.value? (networkSection profile) "mac_address" ≠ some "" := by
  obtain ⟨c, u, hnew, hloadable, hfill⟩ := fillNew_ok h
  have hwired := wired_fill (fresh_construct hnew) rfl hfill
  have hprofiles (profile : Network.Profile) :
      (profile ≠ .Service ∧ file.hasGroup (networkSection profile)) ↔
        ∃ (i : ℕ) (network : Network),
          c'.networks[i]? = some network ∧ network.profile = profile :=
    (mem_profilesOf_iff hloadable).symm.trans (mem_profiles hwired)
  constructor
  · intro hdescribable
    have hservice : ¬ file.hasGroup "network_service" := by
      intro hgroup
      obtain ⟨i, k, network, connection, hdescribes⟩ := (hdescribable .Service).present hgroup
      exact ((hprofiles .Service).mpr ⟨i, network, hdescribes.networkAt⟩).1 rfl
    refine ⟨hservice, fun profile hempty => ?_⟩
    have hgroup := KeyFile.hasGroup_of_value? hempty
    obtain ⟨i, k, network, connection, hdescribes⟩ := (hdescribable profile).present hgroup
    have hne : profile ≠ .Service := ((hprofiles profile).mpr ⟨i, network, hdescribes.networkAt⟩).1
    -- an empty text is no MAC address, and no connection has it
    have hposition := hwired.position k connection hdescribes.connectionAt.1
    rw [hdescribes.connectionAt.2] at hposition
    subst hposition
    have hlinks := hwired.links i network connection hdescribes.networkAt.1 hdescribes.connectionAt.1
    have hmac := hlinks.mac
    rw [hdescribes.networkAt.2, getNetworkField_loaded hne hgroup, hdescribes.mac, hempty] at hmac
    have htext : AnswerFile.keyText file (networkSection profile) "mac_address" = "" := by
      rw [AnswerFile.keyText, hempty, Option.getD_some]
    change _ = storedMAC (some (AnswerFile.keyText file (networkSection profile) "mac_address"))
      at hmac
    rw [htext] at hmac
    exact absurd hmac (by decide)
  · rintro ⟨hservice, hmacs⟩ profile
    constructor
    · intro hgroup
      have hne : profile ≠ .Service := by
        rintro rfl
        exact hservice hgroup
      obtain ⟨i, network, hnetwork, hprofile⟩ := (hprofiles profile).mp ⟨hne, hgroup⟩
      have hlt : i < c'.headnode.connections.length := by
        rw [hwired.length]
        exact (List.getElem?_eq_some_iff.mp hnetwork).1
      exact ⟨i, i, network, c'.headnode.connections[i], describes_of_wired hwired hnetwork hprofile
        (List.getElem?_eq_getElem hlt) (getNetworkField_loaded hne hgroup) (hmacs profile)⟩
    · intro hgroup
      have hnone : ∀ (i : ℕ) (network : Network), c'.networks[i]? = some network →
          network.profile ≠ profile :=
        fun i network hi hprofile => hgroup ((hprofiles profile).mpr ⟨i, network, hi, hprofile⟩).2
      refine ⟨fun n hn => ?_, fun d _ n hn => hnone d.network n hn⟩
      obtain ⟨i, hi⟩ := List.mem_iff_getElem?.mp hn
      exact hnone i n hi

def sampleHost : Host where
  nodename := "machine.example.org"
  ifaddrs := .ok [
    { name := "lo", addr := some (.inet 0x7f000001) },
    { name := "eth1", addr := some (.inet 0xc0a81419), netmask := some (.inet 0xffffff00) },
    { name := "eth2", addr := some (.inet 0xac1a1e0a), netmask := some (.inet 0xffffff00) },
    { name := "eth3", addr := some (.inet 0x0a000001), netmask := some (.inet 0xff000000) }]
  resolvers := some [0x08080808]
  pathExists := fun path => path == "/opt/iso/rhel-9.3-x86_64-dvd.iso"

def sampleFile (more : List (String × List (String × String))) : KeyFile :=
  .ofGroups (AnswerFile.sampleGroups ++
    [("ofed", [("kind", "mellanox"), ("version", "latest")])] ++ more)

theorem describable_fillNew_iff_sample :
    ∃ c, fillNew .digits {} sampleHost (sampleFile []) = .ok c ∧
      ∀ profile, Describable .digits (sampleFile []) c profile := by
  have hreturns : (fillNew .digits {} sampleHost (sampleFile [])).isOk := by decide +kernel
  obtain ⟨c, hc⟩ := isOk_iff.mp hreturns
  refine ⟨c, hc, (describable_fillNew_iff hc).mpr ⟨by decide +kernel, ?_⟩⟩
  rintro (_ | _ | _ | _) <;> decide +kernel

def serviceFile : KeyFile :=
  sampleFile [("network_service", [("interface", "eth3"), ("ip_address", "10.0.0.1"),
    ("subnet_mask", "255.0.0.0"), ("domain_name", "service.example.com")])]

/-- A service network is asked for and not made. -/
theorem not_describable_service :
    ∃ c, fillNew .digits {} sampleHost serviceFile = .ok c ∧
      ¬ Describable .digits serviceFile c .Service := by
  have hprofiles : (fillNew .digits {} sampleHost serviceFile).map
      (fun c => c.networks.map (·.profile)) = .ok [.Management, .External] := by decide +kernel
  cases hfill : fillNew .digits {} sampleHost serviceFile with
  | error e =>
    rw [hfill] at hprofiles
    exact absurd hprofiles (by simp [Except.map])
  | ok c =>
    rw [hfill] at hprofiles
    have hmap : c.networks.map (·.profile) = [.Management, .External] := Except.ok.inj hprofiles
    refine ⟨c, rfl, fun hdescribable => ?_⟩
    obtain ⟨i, k, network, connection, hdescribes⟩ := hdescribable.present (by decide +kernel)
    have hmem : Network.Profile.Service ∈ c.networks.map (·.profile) :=
      List.mem_map.mpr ⟨network, List.mem_of_getElem? hdescribes.networkAt.1,
        hdescribes.networkAt.2⟩
    rw [hmap] at hmem
    exact absurd hmem (by decide)

end Cluster

end Cloyster.Models
