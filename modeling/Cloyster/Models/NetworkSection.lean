import Cloyster.Lib.Tokens
import Cloyster.Models.Dump
import Cloyster.Models.Mask

/-! A network section written back. Every value that was loaded is written as a text that
loads to it again, the list of nameservers too: whatever separated its entries, loading
leaves tokens, and tokens come back from the one way in which they are joined. -/

namespace Cloyster.AnswerFile

open Lib

variable {boost : Boost} {network network' : AFNetwork} {file : KeyFile} {sectionName : String}

/-! ### What loading leaves -/

/-- What holds of the values that are there, from the fresh network on. -/
structure WellRead (boost : Boost) (network : AFNetwork) : Prop where
  ip_address : ∀ a ∈ network.con_ip_addr, boost.makeAddress (boost.toString a) = some a
  subnet_mask : ∀ a ∈ network.subnet_mask, boost.makeAddress (boost.toString a) = some a
  gateway : ∀ a ∈ network.gateway, boost.makeAddress (boost.toString a) = some a
  nameservers : ∀ servers ∈ network.nameservers,
    Text.IsTokens (· ∈ ", ".toList) (servers.map String.toList)

/-- What holds after a load. -/
structure Reloadable (boost : Boost) (network : AFNetwork) : Prop extends
    WellRead boost network where
  interface : network.con_interface.isSome
  mac_address : network.con_mac_addr.isSome
  domain_name : network.domain_name.isSome

theorem wellRead_fresh : WellRead boost {} := by
  constructor <;> exact fun _ h => absurd h (by simp)

/-- An address that was read over an older one. -/
theorem forall_mem_or {α : Type} {p : α → Prop} {o o' : Option α} (h : ∀ a ∈ o, p a)
    (h' : ∀ a ∈ o', p a) : ∀ a ∈ o.or o', p a := by
  intro a ha
  rcases Option.or_eq_some_iff.mp ha with ha | ⟨-, ha⟩
  · exact h a ha
  · exact h' a ha

theorem reloadable_loadNetwork
    (hboost : ∀ s a, boost.makeAddress s = some a → boost.makeAddress (boost.toString a) = some a)
    (h : WellRead boost network)
    (hload : loadNetwork boost file sectionName network = .ok network') :
    Reloadable boost network' := by
  obtain ⟨hloadable, rfl⟩ := loadNetwork_ok_iff.mp hload
  have haddress (key : String) : ∀ a ∈ keyAddress? boost file sectionName key,
      boost.makeAddress (boost.toString a) = some a := by
    intro a ha
    obtain ⟨s, -, hs⟩ := Option.bind_eq_some_iff.mp ha
    exact hboost s a hs
  refine ⟨⟨?_, ?_, ?_, ?_⟩, hloadable.interface, rfl, rfl⟩
  · exact forall_mem_or (haddress "ip_address") h.ip_address
  · exact forall_mem_or (haddress "subnet_mask") h.subnet_mask
  · exact forall_mem_or (haddress "gateway") h.gateway
  · refine forall_mem_or ?_ h.nameservers
    intro servers hservers
    obtain ⟨s, -, rfl⟩ := Option.map_eq_some_iff.mp hservers
    exact Text.isTokens_split s ", "

/-! ### What dumping writes -/

theorem setStringIfSome_apply (group key : String) (value : Option String) (file : KeyFile) :
    setStringIfSome group key value file = .ok () (file.setStringOpt group key value) := by
  cases value <;> rfl

/-- The names joined, where there are any. -/
def joinedNameservers (network : AFNetwork) : Option String :=
  (network.nameservers.filter (· ≠ [])).map (", ".intercalate ·)

/-- The section says what the network says. -/
structure Says (boost : Boost) (network : AFNetwork) (sectionName : String) (file : KeyFile) :
    Prop where
  interface : file.value? sectionName "interface" = network.con_interface
  ip_address : file.value? sectionName "ip_address" = network.con_ip_addr.map boost.toString
  mac_address : file.value? sectionName "mac_address" = network.con_mac_addr
  subnet_mask : file.value? sectionName "subnet_mask" = network.subnet_mask.map boost.toString
  domain_name : file.value? sectionName "domain_name" = network.domain_name
  gateway : file.value? sectionName "gateway" = network.gateway.map boost.toString
  nameservers : file.value? sectionName "nameservers" = joinedNameservers network

theorem dumpNetwork_empty (boost : Boost) (network : AFNetwork) (sectionName : String) :
    ∃ file, dumpNetwork boost network sectionName ∅ = .ok () file ∧
      Says boost network sectionName file := by
  simp only [dumpNetwork, bind_apply, setStringIfSome_apply]
  refine ⟨_, rfl, ?_⟩
  constructor <;> simp [KeyFile.value?_setStringOpt, joinedNameservers]

/-! ### Back again -/

theorem split_joinedNameservers (h : WellRead boost network) :
    (joinedNameservers network).map (Text.split · ", ") = network.nameservers := by
  unfold joinedNameservers
  cases hservers : network.nameservers with
  | none => rfl
  | some servers =>
    have htokens := h.nameservers servers hservers
    have hne : servers ≠ [] := by
      rintro rfl
      exact htokens
    rw [Option.filter_some, if_pos (by simpa using hne), Option.map_some, Option.map_some,
      Text.split_join (by decide) (fun _ hc => hc) htokens]

theorem bind_makeAddress {o : Option Address}
    (h : ∀ a ∈ o, boost.makeAddress (boost.toString a) = some a) :
    (o.map boost.toString).bind boost.makeAddress = o := by
  cases o with
  | none => rfl
  | some a => exact h a rfl

theorem loadNetwork_of_says (h : Reloadable boost network)
    (hsection : Says boost network sectionName file) :
    loadNetwork boost file sectionName {} = .ok network := by
  have haddress {key : String} {o : Option Address}
      (hkey : file.value? sectionName key = o.map boost.toString)
      (ho : ∀ a ∈ o, boost.makeAddress (boost.toString a) = some a) :
      AddressOk boost file sectionName key ∧ keyAddress? boost file sectionName key = o := by
    refine ⟨fun s hs => ?_, by rw [keyAddress?, hkey, bind_makeAddress ho]⟩
    rw [hkey] at hs
    obtain ⟨a, ha, rfl⟩ := Option.map_eq_some_iff.mp hs
    rw [ho a ha]
    rfl
  obtain ⟨hipOk, hip⟩ := haddress hsection.ip_address h.ip_address
  obtain ⟨hmaskOk, hmask⟩ := haddress hsection.subnet_mask h.subnet_mask
  obtain ⟨hgatewayOk, hgateway⟩ := haddress hsection.gateway h.gateway
  have hinterface := h.interface
  obtain ⟨mac, hmac⟩ := Option.isSome_iff_exists.mp h.mac_address
  obtain ⟨domain, hdomain⟩ := Option.isSome_iff_exists.mp h.domain_name
  rw [loadNetwork_ok_iff]
  refine ⟨⟨by rwa [hsection.interface], hipOk, hmaskOk, hgatewayOk⟩, ?_⟩
  rw [sectionNetwork, hip, hmask, hgateway, hsection.interface, hsection.nameservers,
    split_joinedNameservers h.toWellRead, keyText, keyText, hsection.mac_address, hsection.domain_name,
    hmac, hdomain]
  simp only [Option.or_none, Option.getD_some]
  rw [← hmac, ← hdomain]

/-- Sections loaded one over the other, from the fresh network on. -/
def loadNetworks (boost : Boost) (loads : List (KeyFile × String)) (network : AFNetwork) :
    Except Exn AFNetwork :=
  loads.foldlM (fun network load => loadNetwork boost load.1 load.2 network) network

theorem reloadable_loadNetworks
    (hboost : ∀ s a, boost.makeAddress s = some a → boost.makeAddress (boost.toString a) = some a)
    {loads : List (KeyFile × String)} (hne : loads ≠ []) (h : WellRead boost network)
    (hloads : loadNetworks boost loads network = .ok network') : Reloadable boost network' := by
  induction loads generalizing network with
  | nil => exact absurd rfl hne
  | cons load loads ih =>
    rw [loadNetworks, List.foldlM_cons, except_bind_ok_iff] at hloads
    obtain ⟨network₁, hload, hrest⟩ := hloads
    have h₁ := reloadable_loadNetwork hboost h hload
    cases loads with
    | nil =>
      obtain rfl := Except.ok.inj hrest
      exact h₁
    | cons load' loads => exact ih (List.cons_ne_nil _ _) h₁.toWellRead hrest

/-- Whatever sections the network was loaded from, it is dumped into a section that loads to
it. -/
theorem loadNetwork_dumpNetwork
    (hboost : ∀ s a, boost.makeAddress s = some a → boost.makeAddress (boost.toString a) = some a)
    {loads : List (KeyFile × String)} (hne : loads ≠ [])
    (hloads : loadNetworks boost loads {} = .ok network) (sectionName : String) :
    ∃ file, dumpNetwork boost network sectionName ∅ = .ok () file ∧
      loadNetwork boost file sectionName {} = .ok network := by
  have h := reloadable_loadNetworks hboost hne wellRead_fresh hloads
  obtain ⟨file, hdump, hsection⟩ := dumpNetwork_empty boost network sectionName
  exact ⟨file, hdump, loadNetwork_of_says h hsection⟩

/-- Nameservers with blanks and commas around them. -/
def spacedSection : KeyFile :=
  .ofGroups [("network_external", [("interface", "eth1"), ("ip_address", "10.0.0.1"),
    ("nameservers", " ,10.0.0.2 ,, 10.0.0.3,")])]

theorem loadNetwork_dumpNetwork_spaced :
    ∃ network, loadNetwork .digits spacedSection "network_external" {} = .ok network ∧
      network.nameservers = some ["", "10.0.0.2", "10.0.0.3", ""] ∧
      ∃ file, dumpNetwork .digits network "network_management" ∅ = .ok () file ∧
        loadNetwork .digits file "network_management" {} = .ok network := by
  refine ⟨sectionNetwork .digits spacedSection "network_external" {}, by decide +kernel,
    by decide +kernel, ?_⟩
  refine loadNetwork_dumpNetwork ?_ (List.cons_ne_nil (spacedSection, "network_external") [])
    (by decide +kernel) "network_management"
  intro s a h
  exact AddressText.makeAddress_toString h

end Cloyster.AnswerFile
