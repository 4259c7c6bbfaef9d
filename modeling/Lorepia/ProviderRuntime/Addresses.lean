import Mathlib
import Lorepia.Lib.Tx
import Lorepia.ProviderRuntime.Framing

/-!
# Public addresses (`endpoint.rs`:96–111, 337–367)

The answers of a name lookup are pinned if every one of them is public. An IPv6 address is
judged by its segments, unless it is an IPv4-mapped one, which is judged as the IPv4 address in it.

Blocks of IPv6 addresses are given here by the number their first bits make (`InBlock`), and the
tests of the code are compared with the blocks they stand for.
-/

namespace Lorepia.ProviderRuntime

structure Ipv4Addr where
  a : UInt8
  b : UInt8
  c : UInt8
  d : UInt8
  deriving DecidableEq

/-- An IPv6 address as the number of its bits. -/
structure Ipv6Addr where
  bits : BitVec 128
  deriving DecidableEq

inductive IpAddr where
  | v4 (address : Ipv4Addr)
  | v6 (address : Ipv6Addr)
  deriving DecidableEq

structure SocketAddr where
  ip : IpAddr
  port : Nat
  deriving DecidableEq

def Ipv4Addr.toNat (address : Ipv4Addr) : Nat :=
  ((address.a.toNat * 256 + address.b.toNat) * 256 + address.c.toNat) * 256 + address.d.toNat

namespace Ipv6Addr

def octet (address : Ipv6Addr) (i : Nat) : UInt8 := UInt8.ofNat (address.bits.toNat / 2 ^ (120 - 8 * i))

def segment (address : Ipv6Addr) (i : Nat) : UInt16 :=
  UInt16.ofNat (address.bits.toNat / 2 ^ (112 - 16 * i))

/-- `Ipv6Addr::to_ipv4_mapped`. -/
def toIpv4Mapped (address : Ipv6Addr) : Option Ipv4Addr :=
  if (List.range 10).all (address.octet · = 0) = true ∧ address.octet 10 = 0xff ∧ address.octet 11 = 0xff then
    some ⟨address.octet 12, address.octet 13, address.octet 14, address.octet 15⟩
  else none

end Ipv6Addr

def isPublicV4 (address : Ipv4Addr) : Bool :=
  let { a, b, c, .. } := address
  !(a = 0
    || a = 10
    || a = 127
    || (a = 100 && (64 ≤ b && b ≤ 127))
    || (a = 169 && b = 254)
    || (a = 172 && (16 ≤ b && b ≤ 31))
    || (a = 192 && b = 0 && c = 0)
    || (a = 192 && b = 0 && c = 2)
    || (a = 192 && b = 88 && c = 99)
    || (a = 192 && b = 168)
    || (a = 198 && (b = 18 || b = 19))
    || (a = 198 && b = 51 && c = 100)
    || (a = 203 && b = 0 && c = 113)
    || 224 ≤ a)

def isPublicIp : IpAddr → Bool
  | .v4 address => isPublicV4 address
  | .v6 address =>
    match address.toIpv4Mapped with
    | some mapped => isPublicV4 mapped
    | none =>
      let globallyRouted := address.segment 0 &&& 0xe000 = 0x2000
      let documentation := address.segment 0 = 0x2001 ∧ address.segment 1 = 0x0db8
      let benchmarking := address.segment 0 = 0x2001 ∧ address.segment 1 = 0x0002 ∧ address.segment 2 = 0
      globallyRouted ∧ ¬ documentation ∧ ¬ benchmarking

/-! ## The answers of a lookup -/

/-- The place of an address in the order of `SocketAddr`. -/
def SocketAddr.key (address : SocketAddr) : Nat :=
  (match address.ip with
    | .v4 ip => ip.toNat
    | .v6 ip => 2 ^ 32 + ip.bits.toNat) * 2 ^ 16 + address.port

/-- `BTreeSet::insert`. -/
def insertAddress (address : SocketAddr) : List SocketAddr → List SocketAddr
  | [] => [address]
  | other :: rest =>
    if address = other then other :: rest
    else if address.key < other.key then address :: other :: rest
    else other :: insertAddress address rest

def nonPublicDnsResult : RuntimeError :=
  ⟨.unsafeEndpoint, "NON_PUBLIC_DNS_RESULT",
    "every endpoint DNS result must be a globally routable public address"⟩

/-- The loop over the answers. -/
def pinAddresses (port : Nat) : List IpAddr → List SocketAddr → Result (List SocketAddr)
  | [], addresses => .ok addresses
  | address :: rest, addresses => do
    ensure (isPublicIp address = true) nonPublicDnsResult
    pinAddresses port rest (insertAddress ⟨address, port⟩ addresses)

theorem mem_insertAddress {address other : SocketAddr} {addresses : List SocketAddr} :
    other ∈ insertAddress address addresses ↔ other = address ∨ other ∈ addresses := by
  induction addresses with
  | nil => simp [insertAddress]
  | cons next rest ih =>
    unfold insertAddress
    split
    · next heq =>
      subst heq
      simp
    · split
      · simp
      · rw [List.mem_cons, ih, List.mem_cons]
        tauto

theorem pinAddresses_ok {port : Nat} {answers : List IpAddr} {addresses pinned : List SocketAddr}
    (h : pinAddresses port answers addresses = .ok pinned) :
    (∀ answer ∈ answers, isPublicIp answer = true) ∧
      ∀ address, address ∈ pinned ↔ address ∈ addresses ∨ ∃ answer ∈ answers, address = ⟨answer, port⟩ := by
  induction answers generalizing addresses with
  | nil =>
    cases h
    simp
  | cons answer rest ih =>
    obtain ⟨_, hpublic, h⟩ := except_bind_ok.mp h
    obtain ⟨hrest, hpinned⟩ := ih h
    refine ⟨List.forall_mem_cons.mpr ⟨ensure_ok.mp hpublic, hrest⟩, fun address => ?_⟩
    rw [hpinned, mem_insertAddress]
    simp only [List.mem_cons, exists_eq_or_imp]
    tauto

/-! ## Blocks -/

namespace Ipv6Addr

/-- The first `length` bits of the address make the number `network`. -/
def InBlock (address : Ipv6Addr) (network length : Nat) : Prop :=
  address.bits.toNat / 2 ^ (128 - length) = network

instance (address : Ipv6Addr) (network length : Nat) : Decidable (address.InBlock network length) :=
  inferInstanceAs (Decidable (_ = _))

abbrev GloballyRouted (address : Ipv6Addr) : Prop := address.InBlock 1 3

abbrev Documentation (address : Ipv6Addr) : Prop := address.InBlock 0x20010db8 32

abbrev Benchmarking (address : Ipv6Addr) : Prop := address.InBlock 0x200100020000 48

abbrev Mapped (address : Ipv6Addr) : Prop := address.InBlock 0xffff 96

abbrev SixToFour (address : Ipv6Addr) : Prop := address.InBlock 0x2002 16

/-- The IPv4 address in the four octets from `i` on. -/
def inner (address : Ipv6Addr) (i : Nat) : Ipv4Addr :=
  ⟨address.octet i, address.octet (i + 1), address.octet (i + 2), address.octet (i + 3)⟩

variable {address : Ipv6Addr}

theorem octet_eq_iff {i : Nat} {b : UInt8} :
    address.octet i = b ↔ address.bits.toNat / 2 ^ (120 - 8 * i) % 256 = b.toNat := by
  rw [octet, ← UInt8.toNat_inj, UInt8.toNat_ofNat']

theorem segment_eq_iff {i : Nat} {n : UInt16} :
    address.segment i = n ↔ address.bits.toNat / 2 ^ (112 - 16 * i) % 65536 = n.toNat := by
  rw [segment, ← UInt16.toNat_inj, UInt16.toNat_ofNat']

theorem toIpv4Mapped_eq :
    address.toIpv4Mapped = if address.Mapped then some (address.inner 12) else none := by
  have hlt := address.bits.isLt
  have hiff : ((List.range 10).all (address.octet · = 0) = true ∧ address.octet 10 = 0xff ∧
      address.octet 11 = 0xff) ↔ address.Mapped := by
    have hff : (0xff : UInt8).toNat = 255 := rfl
    have hz : (0 : UInt8).toNat = 0 := rfl
    simp only [List.all_eq_true, List.mem_range, decide_eq_true_eq, octet_eq_iff, InBlock, hff, hz]
    constructor
    · rintro ⟨hzero, h10, h11⟩
      have h0 := hzero 0 (by omega)
      have h1 := hzero 1 (by omega)
      have h2 := hzero 2 (by omega)
      have h3 := hzero 3 (by omega)
      have h4 := hzero 4 (by omega)
      have h5 := hzero 5 (by omega)
      have h6 := hzero 6 (by omega)
      have h7 := hzero 7 (by omega)
      have h8 := hzero 8 (by omega)
      have h9 := hzero 9 (by omega)
      clear hzero
      norm_num at *
      omega
    · intro h
      norm_num at h ⊢
      refine ⟨fun i hi => ?_, ?_, ?_⟩
      · interval_cases i <;> norm_num <;> omega
      · omega
      · omega
  rw [toIpv4Mapped]
  simp only [hiff]
  rfl

theorem and_mask_iff (n : UInt16) : n &&& 0xe000 = 0x2000 ↔ n.toNat / 2 ^ 13 = 1 := by
  rw [← UInt16.toBitVec_inj, UInt16.toBitVec_and, ← UInt16.toNat_toBitVec]
  generalize n.toBitVec = x
  show x &&& (7#3 ++ 0#13) = 1#3 ++ 0#13 ↔ _
  have hsplit : x = x.extractLsb' 13 3 ++ x.extractLsb' 0 13 := by
    refine BitVec.eq_of_getLsbD_eq fun i hi => ?_
    rw [BitVec.getLsbD_append, BitVec.getLsbD_extractLsb', BitVec.getLsbD_extractLsb']
    by_cases hlow : i < 13
    · simp [hlow]
    · have hi13 : 13 + (i - 13) = i := by omega
      have hi3 : i - 13 < 3 := by omega
      simp [hlow, hi13, hi3]
  have htop : (x.extractLsb' 13 3).toNat = x.toNat / 2 ^ 13 := by
    rw [BitVec.extractLsb'_toNat, Nat.shiftRight_eq_div_pow, Nat.mod_eq_of_lt]
    have := x.isLt
    omega
  rw [← htop]
  generalize x.extractLsb' 13 3 = top at hsplit ⊢
  generalize x.extractLsb' 0 13 = low at hsplit ⊢
  subst hsplit
  rw [BitVec.and_append, BitVec.and_zero]
  clear htop
  revert top
  decide

theorem isPublicIp_mapped (h : address.Mapped) :
    isPublicIp (.v6 address) = isPublicV4 (address.inner 12) := by
  simp only [isPublicIp, toIpv4Mapped_eq, if_pos h]

/-- The tests of the code on an address that is not mapped are those of the blocks. -/
theorem isPublicIp_v6 (h : ¬ address.Mapped) : isPublicIp (.v6 address) = true ↔
    address.GloballyRouted ∧ ¬ address.Documentation ∧ ¬ address.Benchmarking := by
  have hlt := address.bits.isLt
  have hrouted : address.segment 0 &&& 0xe000 = 0x2000 ↔ address.GloballyRouted := by
    simp only [and_mask_iff, segment, UInt16.toNat_ofNat', InBlock]
    norm_num
    omega
  have h2001 : (0x2001 : UInt16).toNat = 0x2001 := rfl
  have hdb8 : (0x0db8 : UInt16).toNat = 0x0db8 := rfl
  have h2 : (0x0002 : UInt16).toNat = 2 := rfl
  have h0 : (0 : UInt16).toNat = 0 := rfl
  have hdocumentation :
      (address.segment 0 = 0x2001 ∧ address.segment 1 = 0x0db8) ↔ address.Documentation := by
    simp only [segment_eq_iff, h2001, hdb8, InBlock]
    norm_num
    omega
  have hbenchmarking : (address.segment 0 = 0x2001 ∧ address.segment 1 = 0x0002 ∧ address.segment 2 = 0) ↔
      address.Benchmarking := by
    simp only [segment_eq_iff, h2001, h2, h0, InBlock]
    norm_num
    omega
  simp only [isPublicIp, toIpv4Mapped_eq, if_neg h, decide_eq_true_eq, hrouted, hdocumentation,
    hbenchmarking]

theorem Mapped.not_globallyRouted (h : address.Mapped) : ¬ address.GloballyRouted := by
  have hlt := address.bits.isLt
  simp only [InBlock] at h ⊢
  norm_num at h ⊢
  omega

end Ipv6Addr

/-! ## What pinned addresses guarantee -/

/-- No pinned address is, or holds as a mapped or a 6to4 address, an IPv4 address that the guard
refuses, and a pinned IPv6 address that is not a mapped one is globally routed. -/
structure Guarded (pinned : List SocketAddr) : Prop where
  own : ∀ address port, ⟨.v4 address, port⟩ ∈ pinned → isPublicIp (.v4 address) = true
  mapped : ∀ address port, ⟨.v6 address, port⟩ ∈ pinned → address.Mapped →
    isPublicIp (.v4 (address.inner 12)) = true
  sixToFour : ∀ address port, ⟨.v6 address, port⟩ ∈ pinned → address.SixToFour →
    isPublicIp (.v4 (address.inner 2)) = true
  routed : ∀ address port, ⟨.v6 address, port⟩ ∈ pinned → ¬ address.Mapped →
    address.GloballyRouted ∧ ¬ address.Documentation ∧ ¬ address.Benchmarking

def IpAddr.HoldsRefused : IpAddr → Prop
  | .v4 _ => False
  | .v6 address => address.SixToFour ∧ isPublicIp (.v4 (address.inner 2)) = false

def IpAddr.IsMapped : IpAddr → Prop
  | .v4 _ => False
  | .v6 address => address.Mapped

section

variable {port : Nat} {answers : List IpAddr} {pinned : List SocketAddr}

theorem mem_pinned (h : pinAddresses port answers [] = .ok pinned) {address : SocketAddr} :
    address ∈ pinned ↔ address.ip ∈ answers ∧ address.port = port := by
  rw [(pinAddresses_ok h).2]
  constructor
  · rintro (hnone | ⟨answer, hanswer, rfl⟩)
    · cases hnone
    · exact ⟨hanswer, rfl⟩
  · rintro ⟨hanswer, rfl⟩
    exact .inr ⟨address.ip, hanswer, rfl⟩

/-- The guard overlooks the 6to4 addresses, and nothing else. -/
theorem guarded_iff (h : pinAddresses port answers [] = .ok pinned) :
    Guarded pinned ↔ ∀ answer ∈ answers, ¬ answer.HoldsRefused := by
  have hpublic := (pinAddresses_ok h).1
  constructor
  · intro hguarded answer hanswer hrefused
    cases answer with
    | v4 address => exact hrefused
    | v6 address =>
      have hinner := hguarded.sixToFour address port ((mem_pinned h).mpr ⟨hanswer, rfl⟩) hrefused.1
      rw [hrefused.2] at hinner
      cases hinner
  · intro hnone
    refine ⟨fun address p hmem => ?_, fun address p hmem hmapped => ?_, fun address p hmem hsix => ?_,
      fun address p hmem hmapped => ?_⟩
    all_goals have hanswer := ((mem_pinned h).mp hmem).1
    · exact hpublic _ hanswer
    · have hv6 := hpublic _ hanswer
      rwa [Ipv6Addr.isPublicIp_mapped hmapped] at hv6
    · have hholds := hnone _ hanswer
      by_contra hrefused
      exact hholds ⟨hsix, Bool.eq_false_iff.mpr hrefused⟩
    · exact (Ipv6Addr.isPublicIp_v6 hmapped).mp (hpublic _ hanswer)

/-- Mapped addresses are pinned, though they are outside the globally routed block. -/
theorem routed_iff (h : pinAddresses port answers [] = .ok pinned) :
    (∀ address p, ⟨.v6 address, p⟩ ∈ pinned →
        address.GloballyRouted ∧ ¬ address.Documentation ∧ ¬ address.Benchmarking) ↔
      ∀ answer ∈ answers, ¬ answer.IsMapped := by
  have hpublic := (pinAddresses_ok h).1
  constructor
  · intro hrouted answer hanswer hmapped
    cases answer with
    | v4 address => exact hmapped
    | v6 address =>
      exact Ipv6Addr.Mapped.not_globallyRouted hmapped
        (hrouted address port ((mem_pinned h).mpr ⟨hanswer, rfl⟩)).1
  · intro hnone address p hmem
    have hanswer := ((mem_pinned h).mp hmem).1
    exact (Ipv6Addr.isPublicIp_v6 (hnone _ hanswer)).mp (hpublic _ hanswer)

end

end Lorepia.ProviderRuntime
