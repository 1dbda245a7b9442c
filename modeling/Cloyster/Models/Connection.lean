import Cloyster.Models.Network

/-! Connections of a machine to a network. A connection points at its network, of
which it reads the type when an MTU is set: a network is named by its position, and
the type is handed to the functions that look at it. -/

namespace Cloyster

open Lib

structure Connection where
  network : ℕ
  interface : Option String := none
  mac : Option String := none
  address : Address := .unset
  mtu : UInt16 := 1500
  hostname : String := ""
  fqdn : String := ""
  deriving DecidableEq

namespace Connection

abbrev ConnectionM := EStateM Exn Connection

def setInterface (host : Host) (interface : String) : ConnectionM Unit := do
  refuseIf (interface = "lo") (.runtimeError "Cannot use the loopback interface")
  let ifaddr ← liftExcept
    (Network.getifaddrs host fun e => s!"Cannot get interface: {e}\n")
  refuseIf (¬ ∃ ifa ∈ ifaddr, ifa.addr.isSome ∧ ifa.name = interface)
    (.runtimeError s!"Cannot find network interface {interface}")
  modify fun connection => { connection with interface := some interface }

/-! ### MAC addresses -/

/-- `[0-9A-Fa-f]`. -/
def isHexDigit (c : Char) : Bool :=
  c.isDigit || ('A' ≤ c && c ≤ 'F') || ('a' ≤ c && c ≤ 'f')

/-- `[:-]`. -/
def isMacSeparator (c : Char) : Bool := c = ':' || c = '-'

/-- `(?:[0-9A-Fa-f]{2}[:-]){5}[0-9A-Fa-f]{2}`. -/
def macPattern : List (Char → Bool) :=
  (List.replicate 5 [isHexDigit, isHexDigit, isMacSeparator]).flatten ++ [isHexDigit, isHexDigit]

/-- `[0-9a-fA-F]{4}\.[0-9a-fA-F]{4}\.[0-9a-fA-F]{4}`. -/
def ciscoMacPattern : List (Char → Bool) :=
  let group := List.replicate 4 isHexDigit
  group ++ [(· == '.')] ++ group ++ [(· == '.')] ++ group

def validateMAC (address : String) : Except String Bool :=
  if Text.size address ≠ 12 ∧ Text.size address ≠ 14 ∧ Text.size address ≠ 17 then
    .error "Invalid MAC address size"
  else if Text.matchesClasses macPattern address.toList ∨
      Text.matchesClasses ciscoMacPattern address.toList then .ok true
  else .error "Invalid MAC address format"

def hexValue (c : Char) : ℕ :=
  if c.isDigit then c.toNat - '0'.toNat
  else if 'A' ≤ c && c ≤ 'F' then c.toNat - 'A'.toNat + 10
  else c.toNat - 'a'.toNat + 10

/-- The 48 bits that a MAC address is written for, in any of the notations. -/
def macBits (mac : String) : BitVec 48 :=
  BitVec.ofNat 48 ((mac.toList.filter isHexDigit).foldl (fun n c => 16 * n + hexValue c) 0)

example : macBits "CAFE.DEAD.BEEF" = macBits "ca:fe:de:ad:be:ef" := by decide +kernel

def setMAC (mac : String) : ConnectionM Unit :=
  match validateMAC mac with
  | .ok _ => modify fun connection => { connection with mac := some (Text.lower mac) }
  | .error message => throw (.runtimeError message)

/-! ### The other setters -/

variable (text : AddressText)

def setAddress (ip : Address) : ConnectionM Unit := do
  refuseIf (ip = .unset) (.runtimeError "IP address cannot be 0.0.0.0")
  modify fun connection => { connection with address := ip }

def setAddressText (ip : String) : ConnectionM Unit :=
  Network.withAddress text ip "Invalid IP address" setAddress

/-- Its body is a comment. -/
def incrementAddress (_increment : ℕ) : ConnectionM Unit := pure ()

/-- `[A-Za-z0-9-]`. -/
def isHostnameChar (c : Char) : Bool := c.isAlphanum || c = '-'

def setHostname (hostname : String) : ConnectionM Unit := do
  refuseIf (Text.size hostname > 63)
    ⟨.rangeError, "Hostname cannot be bigger than 64 characters"⟩
  refuseIf (Text.startsWith hostname "-" ∨ Text.endsWith hostname "-")
    (.runtimeError "Hostname cannot start or end with dashes")
  refuseIf (Text.matchesClass hostname Char.isDigit)
    (.runtimeError "Hostname has only digits")
  refuseIf (!Text.matchesClass hostname isHostnameChar)
    (.runtimeError "Invalid character on hostname")
  modify fun connection => { connection with hostname }

def setFQDN (fqdn : String) : ConnectionM Unit := do
  refuseIf (Text.size fqdn > 255)
    (.runtimeError "Full qualified domain name cannot exceed 255 characters")
  modify fun connection => { connection with fqdn }

/-- The least MTU on a network of each type. -/
def minimumMTU : Network.LinkType → UInt16
  | .Ethernet => 1280
  | .Infiniband => 2044

def setMTU (type : Network.LinkType) (mtu : UInt16) : ConnectionM Unit := do
  refuseIf (mtu < minimumMTU type) (.runtimeError <| match type with
    | .Ethernet => "Ethernet MTU size must be higher or equal to 1280"
    | .Infiniband => "Infiniband MTU size must be higher or equal to 2044")
  modify fun connection => { connection with mtu }

/-! ### Constructors -/

/-- The last step of both constructors. -/
def raiseMTU (type : Network.LinkType) : ConnectionM Unit :=
  if type = .Infiniband then setMTU type 2044 else pure ()

def construct (network : ℕ) (type : Network.LinkType) : Except Exn Connection :=
  exec (raiseMTU type) { network }

def constructWith (host : Host) (network : ℕ) (type : Network.LinkType)
    (interface mac : Option String) (ip : String) : Except Exn Connection :=
  exec (do
    interface.forM (setInterface host)
    mac.forM setMAC
    setAddressText text ip
    raiseMTU type) { network }

def fetchAddress (host : Host) (interface : String) : Except Exn Address := do
  let ifaddrs ← Network.getifaddrs host fun e => s!"Cannot get interfaces: {e}"
  return Network.firstInet interface IfAddr.addr ifaddrs

/-! ### What the setters leave -/

variable {text} {connection connection' : Connection}

/-- What a hostname that is accepted looks like. -/
structure ValidHostname (hostname : String) : Prop where
  length : hostname.length ≤ 63
  chars : ∀ c ∈ hostname.toList, c.isAlphanum ∨ c = '-'
  notDigits : ¬ hostname.toList.all Char.isDigit
  hyphens : hostname.toList.head? ≠ some '-' ∧ hostname.toList.getLast? ≠ some '-'

/-- What a MAC address that is stored looks like. -/
structure ValidMAC (mac : String) : Prop where
  lowerCase : Text.lower mac = mac
  accepted : validateMAC mac = .ok true

theorem isHexDigit_toLower {c : Char} (h : isHexDigit c) : isHexDigit c.toLower := by
  unfold Char.toLower
  split_ifs with hupper
  · have hlower : 97 ≤ c.val + 32 ∧ c.val + 32 ≤ 102 := by
      simp only [isHexDigit, Char.isDigit, Char.le_def] at h
      grind
    simp only [isHexDigit, Char.isDigit, Char.le_def]
    grind
  · exact h

theorem isHexDigit_of_toLower {c : Char} (h : isHexDigit c.toLower) : isHexDigit c := by
  unfold Char.toLower at h
  split_ifs at h with hupper
  · simp only [isHexDigit, Char.isDigit, Char.le_def] at h ⊢
    grind
  · exact h

theorem hexValue_toLower {c : Char} (h : isHexDigit c) : hexValue c.toLower = hexValue c := by
  unfold Char.toLower
  split_ifs with hupper
  · have hle : c.val.toNat ≤ 90 := UInt32.le_iff_toNat_le.mp hupper.2
    have hadd : (c.val + 32).toNat = c.val.toNat + 32 := by
      have hsum : (c.val + 32).toNat = (c.val.toNat + 32) % 2 ^ 32 := UInt32.toNat_add c.val 32
      omega
    simp only [isHexDigit, Char.isDigit, Char.le_def] at h
    unfold hexValue
    simp only [Char.isDigit, Char.le_def, Char.toNat]
    grind
  · rfl

/-- Upper case and lower case are the same digits. -/
theorem macBits_lower (mac : String) : macBits (Text.lower mac) = macBits mac := by
  have hfilter : (mac.toList.map Char.toLower).filter isHexDigit =
      (mac.toList.filter isHexDigit).map Char.toLower := by
    rw [List.filter_map]
    congr 1
    apply List.filter_congr
    intro c _
    rw [Function.comp_apply, Bool.eq_iff_iff]
    exact ⟨isHexDigit_of_toLower, isHexDigit_toLower⟩
  have hfold : ∀ (cs : List Char) (n : ℕ), (∀ c ∈ cs, isHexDigit c) →
      (cs.map Char.toLower).foldl (fun n c => 16 * n + hexValue c) n =
        cs.foldl (fun n c => 16 * n + hexValue c) n := by
    intro cs
    induction cs with
    | nil => simp
    | cons c cs ih =>
      intro n hall
      rw [List.forall_mem_cons] at hall
      rw [List.map_cons, List.foldl_cons, List.foldl_cons, hexValue_toLower hall.1]
      exact ih _ hall.2
  rw [macBits, Text.toList_lower, hfilter, hfold]
  · rfl
  · intro c hc
    exact (List.mem_filter.mp hc).2

theorem isMacSeparator_toLower {c : Char} (h : isMacSeparator c) : isMacSeparator c.toLower := by
  have hc : c = ':' ∨ c = '-' := by simpa [isMacSeparator] using h
  obtain rfl | rfl := hc <;> rfl

theorem macPattern_toLower : ∀ cls ∈ macPattern, ∀ c, cls c → cls c.toLower := by
  intro cls hcls c hc
  have hmem : cls = isHexDigit ∨ cls = isMacSeparator := by
    simp only [macPattern, List.mem_append, List.mem_flatten, List.mem_replicate] at hcls
    grind
  obtain rfl | rfl := hmem
  · exact isHexDigit_toLower hc
  · exact isMacSeparator_toLower hc

theorem ciscoMacPattern_toLower : ∀ cls ∈ ciscoMacPattern, ∀ c, cls c → cls c.toLower := by
  intro cls hcls c hc
  have hmem : cls = isHexDigit ∨ cls = (· == '.') := by
    simp only [ciscoMacPattern, List.mem_append, List.mem_replicate, List.mem_singleton] at hcls
    grind
  obtain rfl | rfl := hmem
  · exact isHexDigit_toLower hc
  · obtain rfl : c = '.' := by simpa using hc
    rfl

theorem validMAC_lower {mac : String} {b : Bool} (h : validateMAC mac = .ok b) :
    ValidMAC (Text.lower mac) := by
  refine ⟨Text.lower_lower mac, ?_⟩
  unfold validateMAC at h ⊢
  rw [Text.size_lower]
  split_ifs at h with hsize hmatch
  rw [if_neg hsize, if_pos]
  rw [Text.toList_lower]
  exact hmatch.imp (Text.matchesClasses_map macPattern_toLower)
    (Text.matchesClasses_map ciscoMacPattern_toLower)

theorem setMAC_ok {mac : String} {u : Unit} (h : setMAC mac connection = .ok u connection') :
    ValidMAC (Text.lower mac) ∧ { connection with mac := some (Text.lower mac) } = connection' := by
  unfold setMAC at h
  cases hmac : validateMAC mac with
  | ok b =>
    simp only [hmac, modify_ok_iff] at h
    exact ⟨validMAC_lower hmac, h⟩
  | error message =>
    simp only [hmac, throw_apply] at h
    exact absurd h (by simp)

theorem setInterface_ok {host : Host} {interface : String} {u : Unit}
    (h : setInterface host interface connection = .ok u connection') :
    { connection with interface := some interface } = connection' := by
  simp only [setInterface, bind_ok_iff, refuseIf_ok_iff, liftExcept_ok_iff, modify_ok_iff] at h
  obtain ⟨_, _, ⟨-, rfl⟩, _, _, ⟨-, rfl⟩, _, _, ⟨-, rfl⟩, hset⟩ := h
  exact hset

theorem setAddress_ok_iff {ip : Address} {u : Unit} :
    setAddress ip connection = .ok u connection' ↔
      ip ≠ .unset ∧ { connection with address := ip } = connection' :=
  refuseIf_modify_ok_iff

theorem setFQDN_ok_iff {fqdn : String} {u : Unit} :
    setFQDN fqdn connection = .ok u connection' ↔
      ¬ Text.size fqdn > 255 ∧ { connection with fqdn := fqdn } = connection' :=
  refuseIf_modify_ok_iff

theorem setMTU_ok_iff {type : Network.LinkType} {mtu : UInt16} {u : Unit} :
    setMTU type mtu connection = .ok u connection' ↔
      minimumMTU type ≤ mtu ∧ { connection with mtu := mtu } = connection' :=
  refuseIf_modify_ok_iff.trans (and_congr_left fun _ => UInt16.not_lt)

theorem setHostname_ok {hostname : String} {u : Unit}
    (h : setHostname hostname connection = .ok u connection') :
    ValidHostname hostname ∧ { connection with hostname := hostname } = connection' := by
  simp only [setHostname, bind_ok_iff, refuseIf_ok_iff, modify_ok_iff] at h
  obtain ⟨_, _, ⟨hlong, rfl⟩, _, _, ⟨hhyphen, rfl⟩, _, _, ⟨hdigits, rfl⟩, _, _, ⟨hchars, rfl⟩,
    hset⟩ := h
  rw [not_or] at hhyphen
  have hsize := Text.length_toList_le_size hostname
  rw [String.length_toList] at hsize
  have hmatch : Text.matchesClass hostname isHostnameChar := by simpa using hchars
  rw [Text.matchesClass, Bool.and_eq_true] at hmatch
  refine ⟨⟨by omega, ?_, ?_, ?_, ?_⟩, hset⟩
  · intro c hc
    have hchar := List.all_eq_true.mp hmatch.2 c hc
    simpa [isHostnameChar] using hchar
  · intro hall
    exact hdigits (by rw [Text.matchesClass, hall, hmatch.1]; rfl)
  · intro hhead
    exact hhyphen.1 ((Text.startsWith_singleton hostname '-').mpr hhead)
  · intro hlast
    exact hhyphen.2 ((Text.endsWith_singleton hostname '-').mpr hlast)

end Connection

end Cloyster
