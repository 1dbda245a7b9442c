import Cloyster.Lib.PrefixMask
import Cloyster.Models.Network

/-! Subnet masks. A mask is accepted when its text is one of the 33 keys of `cidr`;
these are the dotted quads of the words made of ones and then zeros, and no other
address prints as one of them, because a dotted quad can be read back and the text
of an IPv6 address has a colon. The network of an address keeps the top bits. -/

namespace Cloyster

open Lib PrefixMask

namespace Address

/-! ### Dotted quads -/

/-- The digits of the four bytes, from the highest on. -/
def quadDigits (bits : BitVec 32) : List (List Char) :=
  [24, 16, 8, 0].map fun shift => Nat.toDigits 10 ((bits >>> shift).toNat % 256)

theorem isDigit_of_mem_quadDigits {bits : BitVec 32} {digits : List Char}
    (h : digits ∈ quadDigits bits) : ∀ c ∈ digits, c.isDigit := by
  intro c hc
  obtain ⟨shift, -, rfl⟩ := List.mem_map.mp h
  exact Nat.isDigit_of_mem_toDigits (by omega) (by omega) hc

theorem toList_dottedQuad (bits : BitVec 32) :
    (dottedQuad bits).toList = ['.'].intercalate (quadDigits bits) := by
  simp [dottedQuad, quadDigits, Nat.toString_eq_repr, Nat.toList_repr]

theorem splitOn_dottedQuad (bits : BitVec 32) :
    (dottedQuad bits).toList.splitOn '.' = quadDigits bits := by
  rw [toList_dottedQuad, List.splitOn_intercalate]
  · intro digits hm hdot
    exact absurd (isDigit_of_mem_quadDigits hm '.' hdot) (by decide)
  · simp [quadDigits]

/-- No two addresses are printed alike. -/
theorem dottedQuad_inj {a b : BitVec 32} : dottedQuad a = dottedQuad b ↔ a = b := by
  refine ⟨fun h => ?_, congrArg dottedQuad⟩
  have hbytes : quadDigits a = quadDigits b := by
    rw [← splitOn_dottedQuad, ← splitOn_dottedQuad, h]
  have hdigits {m n : ℕ} (hmn : Nat.toDigits 10 m = Nat.toDigits 10 n) : m = n := by
    apply Nat.repr_injective
    apply String.toList_inj.mp
    rw [Nat.toList_repr, Nat.toList_repr, hmn]
  simp only [quadDigits, List.map_cons, List.map_nil, List.cons.injEq, and_true] at hbytes
  have h₁ := hdigits hbytes.1
  have h₂ := hdigits hbytes.2.1
  have h₃ := hdigits hbytes.2.2.1
  have h₄ := hdigits hbytes.2.2.2
  simp only [BitVec.toNat_ushiftRight, Nat.shiftRight_eq_div_pow] at h₁ h₂ h₃ h₄
  have ha := a.isLt
  have hb := b.isLt
  apply BitVec.eq_of_toNat_eq
  omega

/-- A dotted quad is read as the address it was printed from. -/
theorem makeAddress_dottedQuad (bits : BitVec 32) :
    AddressText.dottedQuads.makeAddress (dottedQuad bits) = some (.v4 bits) := by
  have hoctet : ∀ n < 256, AddressText.octet? (String.ofList (Nat.toDigits 10 n)) = some n := by
    decide +kernel
  have hbyte (shift : ℕ) : AddressText.octet?
      (String.ofList (Nat.toDigits 10 ((bits >>> shift).toNat % 256))) =
        some ((bits >>> shift).toNat % 256) := hoctet _ (by omega)
  simp only [AddressText.dottedQuads, splitOn_dottedQuad, quadDigits, List.map_cons, List.map_nil,
    Function.comp_apply, hbyte]
  congr 2
  apply BitVec.eq_of_toNat_eq
  simp only [BitVec.toNat_ofNat, BitVec.toNat_ushiftRight, Nat.shiftRight_eq_div_pow]
  have hbits := bits.isLt
  omega

theorem colon_notMem_dottedQuad (bits : BitVec 32) : ':' ∉ (dottedQuad bits).toList := by
  have hdigits : ∀ digits ∈ quadDigits bits, ':' ∉ digits := by
    intro digits hm hcolon
    exact absurd (isDigit_of_mem_quadDigits hm ':' hcolon) (by decide)
  rw [toList_dottedQuad]
  simpa [quadDigits, List.intercalate_cons_cons] using hdigits

/-- The bytes of a word in the other order, as `inet_aton` leaves them. -/
def networkOrder (bits : BitVec 32) : BitVec 32 :=
  bits.extractLsb' 0 8 ++ bits.extractLsb' 8 8 ++ bits.extractLsb' 16 8 ++ bits.extractLsb' 24 8

/-- It does not matter in which byte order two words are combined. -/
theorem networkOrder_and (a b : BitVec 32) :
    networkOrder a &&& networkOrder b = networkOrder (a &&& b) := by
  simp only [networkOrder, BitVec.extractLsb'_and, ← BitVec.and_append]

end Address

/-- What is read as an address prints as a text that is read as it. -/
theorem AddressText.makeAddress_toString {s : String} {a : Address}
    (h : dottedQuads.makeAddress s = some a) :
    dottedQuads.makeAddress (dottedQuads.toString a) = some a := by
  cases a with
  | v4 bits =>
    rw [AddressText.toString]
    exact Address.makeAddress_dottedQuad bits
  | v6 bits scopeId =>
    rw [dottedQuads] at h
    dsimp only at h
    split at h
    · simp only [Option.some.injEq, reduceCtorEq] at h
    · simp only [reduceCtorEq] at h

namespace Network

/-! ### The masks that are accepted -/

theorem cidr_eq :
    cidr = (List.range 33).map fun p => (Address.dottedQuad (mask 32 p), p) := by
  decide +kernel

theorem lookup_cidr {p : ℕ} (hp : p ≤ 32) :
    cidr.lookup (Address.dottedQuad (mask 32 p)) = some p := by
  have hall : ∀ q < 33, cidr.lookup (Address.dottedQuad (mask 32 q)) = some q := by decide +kernel
  exact hall p (by omega)

/-- The keys of the table are the texts of the masks. -/
theorem mem_cidr_iff {s : String} :
    s ∈ cidr.map Prod.fst ↔ ∃ p ≤ 32, Address.dottedQuad (mask 32 p) = s := by
  rw [cidr_eq, List.map_map, List.mem_map]
  apply exists_congr
  intro p
  rw [List.mem_range, Nat.lt_succ_iff]
  rfl

/-- An IPv4 address of ones and then zeros. -/
def IsMask (m : Address) (p : ℕ) : Prop := ∃ bits, m = .v4 bits ∧ OnesThenZeros bits p

variable {text : AddressText} {network network' : Network} {m : Address} {p : ℕ}

theorem isMask_iff : IsMask m p ↔ p ≤ 32 ∧ m = .v4 (mask 32 p) := by
  unfold IsMask
  constructor
  · rintro ⟨bits, rfl, h⟩
    obtain ⟨hp, rfl⟩ := onesThenZeros_iff.mp h
    exact ⟨hp, rfl⟩
  · rintro ⟨hp, rfl⟩
    exact ⟨_, rfl, onesThenZeros_iff.mpr ⟨hp, rfl⟩⟩

/-- What the text of an address has to be for the mask to be accepted. -/
theorem toString_mem_cidr_iff (hv6 : ∀ bits scopeId, ':' ∈ (text.v6ToString bits scopeId).toList) :
    text.toString m ∈ cidr.map Prod.fst ↔ ∃ p, IsMask m p := by
  rw [mem_cidr_iff]
  apply exists_congr
  intro p
  rw [isMask_iff]
  apply and_congr_right
  intro _
  cases m with
  | v4 bits =>
    show Address.dottedQuad (mask 32 p) = Address.dottedQuad bits ↔ _
    rw [Address.dottedQuad_inj, Address.v4.injEq, eq_comm]
  | v6 bits scopeId =>
    have hne : Address.dottedQuad (mask 32 p) ≠ text.toString (.v6 bits scopeId) := by
      intro heq
      apply Address.colon_notMem_dottedQuad (mask 32 p)
      rw [heq]
      exact hv6 bits scopeId
    simp [hne]

/-! ### The network of an address -/

theorem isUnspecified_mask (hp : 1 ≤ p) (hle : p ≤ 32) :
    (Address.v4 (mask 32 p)).isUnspecified = false := by
  have hzero : mask 32 0 = 0 := by decide
  have hne : mask 32 p ≠ mask 32 0 := by
    rw [ne_eq, mask_inj hle (by omega)]
    omega
  rw [hzero] at hne
  simpa [Address.isUnspecified] using hne

theorem calculateAddress_mask (hp : 1 ≤ p) (hle : p ≤ 32) (hmask : network.subnetMask = .v4 (mask 32 p))
    (a : Address) : network.calculateAddress a = .ok (.v4 (a.inetAton &&& mask 32 p)) := by
  rw [calculateAddress, hmask, isUnspecified_mask hp hle]
  rfl

/-- The source combines the words as `inet_aton` leaves them, lowest byte first. -/
theorem networkOrder_calculateAddress {a : Address} {b : BitVec 32}
    (h : network.calculateAddress a = .ok (.v4 b)) :
    Address.networkOrder b =
      Address.networkOrder a.inetAton &&& Address.networkOrder network.subnetMask.inetAton := by
  unfold calculateAddress at h
  split_ifs at h
  obtain rfl := Address.v4.inj (Except.ok.inj h)
  rw [Address.networkOrder_and]

/-- What `calculateAddress` computes under a mask of `p` ones. -/
structure CalculatesNetwork (network : Network) (p : ℕ) : Prop where
  value : ∀ a : BitVec 32, ∃ b : BitVec 32, network.calculateAddress (.v4 a) = .ok (.v4 b) ∧
    b.toNat = a.toNat / 2 ^ (32 - p) * 2 ^ (32 - p)
  idempotent : ∀ a b, network.calculateAddress a = .ok b → network.calculateAddress b = .ok b
  agree : ∀ a b : BitVec 32,
    network.calculateAddress (.v4 a) = network.calculateAddress (.v4 b) ↔
      ∀ i < p, a.getMsbD i = b.getMsbD i

theorem calculatesNetwork (hp : 1 ≤ p) (hle : p ≤ 32)
    (hmask : network.subnetMask = .v4 (mask 32 p)) : CalculatesNetwork network p := by
  have hcalc := calculateAddress_mask hp hle hmask
  constructor
  · intro a
    exact ⟨_, hcalc (.v4 a), toNat_and_mask a p⟩
  · intro a b h
    rw [hcalc] at h ⊢
    obtain rfl := Except.ok.inj h
    rw [Address.inetAton, and_mask_idem]
  · intro a b
    rw [hcalc, hcalc, Except.ok.injEq, Address.v4.injEq]
    exact and_mask_inj hle

/-- Every address: it is accepted as a mask exactly when it is one, its text then maps
to the number of ones, and the addresses under it are cut after that many bits. -/
theorem setSubnetMask_iff (text : AddressText)
    (hv6 : ∀ bits scopeId, ':' ∈ (text.v6ToString bits scopeId).toList) (network : Network)
    (m : Address) :
    ((∃ network', setSubnetMask text m network = .ok () network') ↔ ∃ p, IsMask m p) ∧
      ∀ p network', IsMask m p → setSubnetMask text m network = .ok () network' →
        cidr.lookup (text.toString m) = some p ∧ (1 ≤ p → CalculatesNetwork network' p) := by
  simp only [setSubnetMask_ok_iff, toString_mem_cidr_iff hv6]
  constructor
  · constructor
    · rintro ⟨network', hp, -⟩
      exact hp
    · intro hp
      exact ⟨_, hp, rfl⟩
  · rintro p network' hm ⟨-, rfl⟩
    obtain ⟨hle, rfl⟩ := isMask_iff.mp hm
    exact ⟨lookup_cidr hle, fun hp => calculatesNetwork hp hle rfl⟩

theorem setSubnetMask_iff_dottedQuads :
    ∃ network', setSubnetMask .dottedQuads (.v4 0xffffff00) {} = .ok () network' ∧
      CalculatesNetwork network' 24 := by
  have hm : IsMask (.v4 0xffffff00) 24 := isMask_iff.mpr ⟨by decide, by decide⟩
  obtain ⟨haccepts, hcalculates⟩ := setSubnetMask_iff .dottedQuads
    (fun _ _ => by simp [AddressText.dottedQuads]) {} (.v4 0xffffff00)
  obtain ⟨network', h⟩ := haccepts.mpr ⟨24, hm⟩
  exact ⟨network', h, (hcalculates 24 network' hm h).2 (by decide)⟩

end Network

end Cloyster
