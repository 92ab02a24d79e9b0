import KeepAfloat.Library.Checks
import KeepAfloat.Library.Keyed
import KeepAfloat.Store.State

/-! Normalisation of the VIP list. Entries are rewritten and checked one after the other, each
binding is compared with the one recorded for its address, and the rewritten list is sorted
and loses its repetitions. -/

namespace KeepAfloat

open Std (ExtTreeMap)
open Checks (require bind_eq_ok pure_eq_ok require_eq_ok)

namespace IpAddr

/-- The IPv4 address inside an IPv4-mapped IPv6 address. -/
def toIpv4Mapped (bits : BitVec 128) : Option (BitVec 32) :=
  if bits.toNat / 2 ^ 32 = 0xFFFF then some (bits.setWidth 32) else none

def isIpv4 : IpAddr → Bool
  | v4 _ => true
  | v6 _ => false

def isIpv4Mapped : IpAddr → Bool
  | v4 _ => false
  | v6 bits => (toIpv4Mapped bits).isSome

def isUnspecified : IpAddr → Bool
  | v4 bits => bits = 0
  | v6 bits => bits = 0

def isMulticast : IpAddr → Bool
  | v4 bits => bits.toNat / 2 ^ 28 = 0xE
  | v6 bits => bits.toNat / 2 ^ 120 = 0xFF

def isLoopback : IpAddr → Bool
  | v4 bits => bits.toNat / 2 ^ 24 = 127
  | v6 bits => bits = 1

end IpAddr

structure VipConfig where
  address : VipAddr
  interface : String
  vlan : Option Nat
  deriving DecidableEq, Repr

/-- The checks of the VIP list, with what their messages report. -/
inductive VipRejected where
  | mappedPrefix (index : Nat)
  | notUnicastHost (index : Nat)
  | prefixRange (index max : Nat)
  | broadcast (index : Nat)
  | subnetAddress (index : Nat)
  | interfaceName (index : Nat)
  | vlanRange (index : Nat) (address : IpAddr) (vlan : Nat)
  | dottedInterface (index : Nat) (interface : String)
  | conflict (address : IpAddr)
  deriving DecidableEq, Repr

/-- Unicode white space. -/
def isWhitespace (char : Char) : Bool :=
  (9 ≤ char.toNat && char.toNat ≤ 13) || (0x2000 ≤ char.toNat && char.toNat ≤ 0x200A) ||
    char.toNat ∈ [0x20, 0x85, 0xA0, 0x1680, 0x2028, 0x2029, 0x202F, 0x205F, 0x3000]

/-- Unicode control characters. -/
def isControl (char : Char) : Bool :=
  char.toNat ≤ 0x1F || (0x7F ≤ char.toNat && char.toNat ≤ 0x9F)

def validateInterface (name : String) (index : Nat) : Except VipRejected Unit :=
  require (name ≠ "" && name.utf8ByteSize ≤ 15 && name ∉ [".", ".."] &&
    !name.toList.any fun char => isWhitespace char || isControl char || char == '/' || char == ':')
    (.interfaceName index)

namespace VipConfig

/-- The interface that the address is bound to. -/
def effectiveInterface (vip : VipConfig) : String :=
  match vip.vlan with
  | some vlan => vip.interface ++ "." ++ toString vlan
  | none => vip.interface

/-- Rewrite an IPv4-mapped address. -/
def rewriteMapped (index : Nat) (vip : VipConfig) : Except VipRejected VipConfig :=
  match vip.address.addr with
  | .v4 _ => pure vip
  | .v6 bits =>
      match IpAddr.toIpv4Mapped bits with
      | none => pure vip
      | some ipv4 => do
          require (97 ≤ vip.address.prefixLen && vip.address.prefixLen ≤ 128) (.mappedPrefix index)
          pure { vip with address := ⟨.v4 ipv4, vip.address.prefixLen - 96⟩ }

/-- The address is that of a host in its network. -/
def checkHost (index : Nat) (address : VipAddr) : Except VipRejected Unit := do
  require (!address.addr.isUnspecified && !address.addr.isMulticast && !address.addr.isLoopback)
    (.notUnicastHost index)
  let max := if address.addr.isIpv4 then 32 else 128
  require (1 ≤ address.prefixLen && address.prefixLen ≤ max) (.prefixRange index max)
  match address.addr with
  | .v6 _ => pure ()
  | .v4 bits => do
      require (bits ≠ BitVec.allOnes 32) (.broadcast index)
      if address.prefixLen < 31 then
        let hostMask := BitVec.allOnes 32 >>> address.prefixLen
        let host := bits &&& hostMask
        require (host ≠ 0 && host ≠ hostMask) (.subnetAddress index)

def checkInterface (index : Nat) (vip : VipConfig) : Except VipRejected Unit := do
  validateInterface vip.interface index
  match vip.vlan with
  | none => pure ()
  | some vlan => do
      require (1 ≤ vlan && vlan ≤ 4094) (.vlanRange index vip.address.addr vlan)
      require (!vip.interface.toList.contains '.') (.dottedInterface index vip.interface)
  validateInterface vip.effectiveInterface index

/-- What entries of one address have to agree on. -/
def binding (vip : VipConfig) : Nat × String := (vip.address.prefixLen, vip.effectiveInterface)

/-- One entry of the loop: the bindings recorded so far and the rewritten entries. -/
def normalizeEntry (state : ExtTreeMap IpAddr (Nat × String) × List VipConfig)
    (entry : VipConfig × Nat) :
    Except VipRejected (ExtTreeMap IpAddr (Nat × String) × List VipConfig) := do
  let vip ← rewriteMapped entry.2 entry.1
  checkHost entry.2 vip.address
  checkInterface entry.2 vip
  require (state.1[vip.address.addr]?.all (· = vip.binding)) (.conflict vip.address.addr)
  pure (state.1.insert vip.address.addr vip.binding, state.2 ++ [vip])

end VipConfig

/-- Check and rewrite the entries, then sort them and keep one for each address. -/
def normalizeVips (vips : List VipConfig) : Except VipRejected (List VipConfig) := do
  let state ← vips.zipIdx.foldlM VipConfig.normalizeEntry (∅, [])
  pure (Keyed.dedupBy (fun vip => vip.address.addr)
    (Keyed.sortBy (fun vip => vip.address.addr) state.2))

/-- The table of addresses and effective interfaces. -/
def sortedVips (vips : List VipConfig) : List (VipAddr × String) :=
  vips.map fun vip => (vip.address, vip.effectiveInterface)

/-! ### What one entry has to satisfy -/

namespace VipConfig

/-- The rewritten entry. -/
def canonical (vip : VipConfig) : VipConfig :=
  match vip.address.addr with
  | .v4 _ => vip
  | .v6 bits =>
      match IpAddr.toIpv4Mapped bits with
      | none => vip
      | some ipv4 => { vip with address := ⟨.v4 ipv4, vip.address.prefixLen - 96⟩ }

/-- A mapped entry has the mask of an IPv4 network. -/
def MappedOk (vip : VipConfig) : Prop :=
  ∀ bits ipv4, vip.address.addr = .v6 bits → IpAddr.toIpv4Mapped bits = some ipv4 →
    97 ≤ vip.address.prefixLen ∧ vip.address.prefixLen ≤ 128

theorem rewriteMapped_eq_ok {index : Nat} {vip rewritten : VipConfig} :
    vip.rewriteMapped index = .ok rewritten ↔ vip.MappedOk ∧ rewritten = vip.canonical := by
  rw [rewriteMapped, canonical]
  cases hAddr : vip.address.addr with
  | v4 bits =>
      rw [pure_eq_ok, eq_comm, and_iff_right]
      simp [MappedOk, hAddr]
  | v6 bits =>
      cases hMapped : IpAddr.toIpv4Mapped bits with
      | none =>
          simp only [hMapped]
          rw [pure_eq_ok, eq_comm, and_iff_right]
          rintro other ipv4 hOther hSome
          cases hAddr.symm.trans hOther
          cases hMapped.symm.trans hSome
      | some ipv4 =>
          have hOk : vip.MappedOk ↔ 97 ≤ vip.address.prefixLen ∧ vip.address.prefixLen ≤ 128 :=
            ⟨fun h => h bits ipv4 hAddr hMapped, fun h _ _ _ _ => h⟩
          simp only [hMapped, bind_eq_ok, require_eq_ok, pure_eq_ok, exists_const, hOk,
            Bool.and_eq_true, decide_eq_true_eq]
          exact and_congr_right fun _ => eq_comm

theorem checkHost_index {index : Nat} {address : VipAddr} :
    checkHost index address = .ok () ↔ checkHost 0 address = .ok () := by
  simp only [checkHost, bind_eq_ok, require_eq_ok, exists_const]
  cases address.addr with
  | v6 bits => rfl
  | v4 bits =>
      by_cases hWide : address.prefixLen < 31
      · simp only [hWide, if_true, bind_eq_ok, require_eq_ok, exists_const]
      · simp only [hWide, if_false, bind_eq_ok, require_eq_ok, exists_const]

theorem checkInterface_index {index : Nat} {vip : VipConfig} :
    vip.checkInterface index = .ok () ↔ vip.checkInterface 0 = .ok () := by
  simp only [checkInterface, validateInterface, bind_eq_ok, require_eq_ok, exists_const]
  cases vip.vlan with
  | none => simp only [require_eq_ok]
  | some vlan => simp only [bind_eq_ok, require_eq_ok, exists_const]

/-- Every check passes. Where the entry stands in the list is only reported. -/
def Accepted (vip : VipConfig) : Prop :=
  vip.MappedOk ∧ checkHost 0 vip.canonical.address = .ok () ∧ checkInterface 0 vip.canonical = .ok ()

/-- An entry passes if its checks do and its binding is the one recorded for the address. -/
theorem normalizeEntry_eq_ok {state next : ExtTreeMap IpAddr (Nat × String) × List VipConfig}
    {vip : VipConfig} {index : Nat} :
    normalizeEntry state (vip, index) = .ok next ↔
      vip.Accepted ∧ (state.1[vip.canonical.address.addr]?.all (· = vip.canonical.binding)) = true ∧
        next = (state.1.insert vip.canonical.address.addr vip.canonical.binding,
          state.2 ++ [vip.canonical]) := by
  simp only [normalizeEntry, bind_eq_ok, rewriteMapped_eq_ok, require_eq_ok, pure_eq_ok, Accepted]
  constructor
  · rintro ⟨rewritten, ⟨hMapped, rfl⟩, ⟨⟩, hHost, ⟨⟩, hInterface, ⟨⟩, hAgrees, hNext⟩
    exact ⟨⟨hMapped, checkHost_index.mp hHost, checkInterface_index.mp hInterface⟩, hAgrees, hNext.symm⟩
  · rintro ⟨⟨hMapped, hHost, hInterface⟩, hAgrees, rfl⟩
    exact ⟨_, ⟨hMapped, rfl⟩, (), checkHost_index.mpr hHost, (), checkInterface_index.mpr hInterface,
      ⟨⟩, hAgrees, rfl⟩

end VipConfig

/-! ### The loop -/

/-- Entries of one address have one binding. -/
def Agreeing (vips : List VipConfig) : Prop :=
  ∀ first ∈ vips, ∀ second ∈ vips, first.address.addr = second.address.addr →
    first.binding = second.binding

/-- The bindings recorded are those of the entries done. -/
def Records (bindings : ExtTreeMap IpAddr (Nat × String)) (done : List VipConfig) : Prop :=
  ∀ (addr : IpAddr) (binding : Nat × String), bindings[addr]? = some binding ↔
    ∃ vip ∈ done, vip.address.addr = addr ∧ vip.binding = binding

namespace Agreeing

variable {done : List VipConfig} {vip : VipConfig} {bindings : ExtTreeMap IpAddr (Nat × String)}

/-- The comparison with the recorded binding decides whether the next entry agrees. -/
theorem concat_iff (h : Agreeing done) (hRecords : Records bindings done) :
    Agreeing (done ++ [vip]) ↔ bindings[vip.address.addr]?.all (· = vip.binding) = true := by
  rw [Option.all_eq_true]
  simp only [decide_eq_true_eq]
  constructor
  · intro hAll binding hBinding
    obtain ⟨known, hKnown, hAddr, rfl⟩ := (hRecords _ _).mp hBinding
    exact hAll known (List.mem_append_left _ hKnown) vip (by simp) hAddr
  · intro hSame
    have hKnown : ∀ known ∈ done, known.address.addr = vip.address.addr → known.binding = vip.binding :=
      fun known hMem hAddr => hSame known.binding ((hRecords _ _).mpr ⟨known, hMem, hAddr, rfl⟩)
    intro first hFirst second hSecond hAddr
    rw [List.mem_append, List.mem_singleton] at hFirst hSecond
    rcases hFirst with hFirst | rfl
    · rcases hSecond with hSecond | rfl
      · exact h first hFirst second hSecond hAddr
      · exact hKnown first hFirst hAddr
    · rcases hSecond with hSecond | rfl
      · exact (hKnown second hSecond hAddr.symm).symm
      · rfl

theorem records_insert (h : Agreeing (done ++ [vip])) (hRecords : Records bindings done) :
    Records (bindings.insert vip.address.addr vip.binding) (done ++ [vip]) := by
  intro addr binding
  simp only [ExtTreeMap.getElem?_insert, compare_eq_iff_eq, List.mem_append, List.mem_singleton]
  by_cases hAddr : vip.address.addr = addr
  · rw [if_pos hAddr]
    constructor
    · intro hBinding
      exact ⟨vip, Or.inr rfl, hAddr, Option.some.inj hBinding⟩
    · rintro ⟨known, hKnown, hSame, rfl⟩
      exact congrArg some (h vip (by simp) known (by simpa using hKnown) (hAddr.trans hSame.symm))
  · rw [if_neg hAddr, hRecords]
    constructor
    · rintro ⟨known, hKnown, hSame⟩
      exact ⟨known, Or.inl hKnown, hSame⟩
    · rintro ⟨known, hKnown | rfl, hSame⟩
      · exact ⟨known, hKnown, hSame⟩
      · exact absurd hSame.1 hAddr

end Agreeing

/-- The loop over the entries, from the bindings of the entries done. -/
theorem foldlM_normalizeEntry {vips done : List VipConfig} {start : Nat}
    {bindings : ExtTreeMap IpAddr (Nat × String)} (hAgreeing : Agreeing done)
    (hRecords : Records bindings done) {rewritten : List VipConfig} :
    (∃ last, (vips.zipIdx start).foldlM VipConfig.normalizeEntry (bindings, done) =
        .ok (last, rewritten)) ↔
      (∀ vip ∈ vips, vip.Accepted) ∧ rewritten = done ++ vips.map VipConfig.canonical ∧
        Agreeing rewritten := by
  induction vips generalizing done start bindings with
  | nil =>
      simp only [List.zipIdx_nil, List.foldlM_nil, pure_eq_ok, Prod.mk.injEq, exists_and_right,
        exists_eq', true_and, List.not_mem_nil, false_imp_iff, implies_true, List.map_nil,
        List.append_nil]
      constructor
      · rintro rfl
        exact ⟨rfl, hAgreeing⟩
      · rintro ⟨rfl, -⟩
        rfl
  | cons vip vips ih =>
      have hSplit : done ++ (vip :: vips).map VipConfig.canonical =
          (done ++ [vip.canonical]) ++ vips.map VipConfig.canonical := by simp
      simp only [List.zipIdx_cons, List.foldlM_cons, bind_eq_ok, VipConfig.normalizeEntry_eq_ok]
      rw [hSplit, List.forall_mem_cons]
      constructor
      · rintro ⟨last, next, ⟨hAccepted, hKnown, rfl⟩, hRest⟩
        have hNext := (hAgreeing.concat_iff hRecords).mpr hKnown
        obtain ⟨hAll, hRewritten⟩ := (ih hNext (hNext.records_insert hRecords)).mp ⟨last, hRest⟩
        exact ⟨⟨hAccepted, hAll⟩, hRewritten⟩
      · rintro ⟨⟨hAccepted, hAll⟩, hRewritten, hFinal⟩
        have hNext : Agreeing (done ++ [vip.canonical]) := by
          intro first hFirst second hSecond
          rw [hRewritten] at hFinal
          exact hFinal first (List.mem_append_left _ hFirst) second (List.mem_append_left _ hSecond)
        obtain ⟨last, hRest⟩ :=
          (ih hNext (hNext.records_insert hRecords)).mpr ⟨hAll, hRewritten, hFinal⟩
        exact ⟨last, _, ⟨hAccepted, (hAgreeing.concat_iff hRecords).mp hNext, rfl⟩, hRest⟩

theorem normalizeVips_eq_ok {vips result : List VipConfig} :
    normalizeVips vips = .ok result ↔ (∀ vip ∈ vips, vip.Accepted) ∧
      Agreeing (vips.map VipConfig.canonical) ∧
      result = Keyed.dedupBy (fun vip => vip.address.addr)
        (Keyed.sortBy (fun vip => vip.address.addr) (vips.map VipConfig.canonical)) := by
  have hNone : Agreeing [] := fun first hFirst => absurd hFirst List.not_mem_nil
  have hEmpty : Records ∅ [] := by simp [Records]
  simp only [normalizeVips, bind_eq_ok, pure_eq_ok]
  constructor
  · rintro ⟨⟨last, rewritten⟩, hLoop, rfl⟩
    obtain ⟨hAll, rfl, hAgreeing⟩ := (foldlM_normalizeEntry hNone hEmpty).mp ⟨last, hLoop⟩
    exact ⟨hAll, hAgreeing, rfl⟩
  · rintro ⟨hAll, hAgreeing, rfl⟩
    obtain ⟨last, hLoop⟩ := (foldlM_normalizeEntry hNone hEmpty).mpr ⟨hAll, rfl, hAgreeing⟩
    exact ⟨_, hLoop, rfl⟩

/-- What is kept is the rewritten form of an entry. -/
theorem mem_normalized {vips result : List VipConfig} (h : normalizeVips vips = .ok result)
    {vip : VipConfig} (hVip : vip ∈ result) :
    ∃ entry ∈ vips, entry.Accepted ∧ vip = entry.canonical := by
  obtain ⟨hAll, -, rfl⟩ := normalizeVips_eq_ok.mp h
  have hMem := (Keyed.perm_sortBy _ _).mem_iff.mp (Keyed.mem_of_mem_dedupBy _ hVip)
  obtain ⟨entry, hEntry, rfl⟩ := List.mem_map.mp hMem
  exact ⟨entry, hEntry, hAll entry hEntry, rfl⟩

/-! ### Rewritten entries -/

namespace VipConfig

theorem canonical_of_not_mapped {vip : VipConfig} (h : vip.address.addr.isIpv4Mapped = false) :
    vip.canonical = vip ∧ vip.MappedOk := by
  rw [canonical, MappedOk]
  cases hAddr : vip.address.addr with
  | v4 bits => simp
  | v6 bits =>
      rw [hAddr] at h
      have hNone : IpAddr.toIpv4Mapped bits = none := by simpa [IpAddr.isIpv4Mapped] using h
      refine ⟨by simp [hNone], fun other ipv4 hOther hSome => ?_⟩
      cases hOther
      cases hNone.symm.trans hSome

theorem canonical_of_mapped {vip : VipConfig} {bits : BitVec 128} {ipv4 : BitVec 32}
    (hAddr : vip.address.addr = .v6 bits) (hMapped : IpAddr.toIpv4Mapped bits = some ipv4) :
    vip.canonical = { vip with address := ⟨.v4 ipv4, vip.address.prefixLen - 96⟩ } := by
  simp only [canonical, hAddr, hMapped]

theorem canonical_not_mapped (vip : VipConfig) : vip.canonical.address.addr.isIpv4Mapped = false := by
  cases hMapped : vip.address.addr.isIpv4Mapped with
  | false => rw [(canonical_of_not_mapped hMapped).1, hMapped]
  | true =>
      cases hAddr : vip.address.addr with
      | v4 bits =>
          rw [hAddr] at hMapped
          cases hMapped
      | v6 bits =>
          rw [hAddr] at hMapped
          obtain ⟨ipv4, hSome⟩ := Option.isSome_iff_exists.mp hMapped
          rw [canonical_of_mapped hAddr hSome]
          rfl

/-- What is accepted is still accepted in its rewritten form. -/
theorem Accepted.canonical {vip : VipConfig} (h : vip.Accepted) : vip.canonical.Accepted := by
  obtain ⟨hSame, hMapped⟩ := canonical_of_not_mapped vip.canonical_not_mapped
  rw [Accepted, hSame]
  exact ⟨hMapped, h.2⟩

/-- Masks and interface names are short. -/
theorem Accepted.short {vip : VipConfig} (h : vip.Accepted) :
    vip.canonical.address.prefixLen ≤ 128 ∧
      vip.canonical.effectiveInterface.utf8ByteSize ≤ 15 := by
  obtain ⟨-, hHost, hInterface⟩ := h
  simp only [checkHost, bind_eq_ok, require_eq_ok, exists_const, Bool.and_eq_true,
    decide_eq_true_eq] at hHost
  obtain ⟨-, ⟨-, hMask⟩, -⟩ := hHost
  refine ⟨hMask.trans (by split <;> decide), ?_⟩
  rw [checkInterface] at hInterface
  cases hVlan : vip.canonical.vlan with
  | none =>
      simp only [hVlan, validateInterface, bind_eq_ok, require_eq_ok, exists_const,
        Bool.and_eq_true, decide_eq_true_eq] at hInterface
      exact hInterface.2.1.1.2
  | some vlan =>
      simp only [hVlan, validateInterface, bind_eq_ok, require_eq_ok, exists_const,
        Bool.and_eq_true, decide_eq_true_eq] at hInterface
      exact hInterface.2.2.2.1.1.2

end VipConfig

/-! ### Address blocks -/

/-- The IPv4-mapped address of an IPv4 address. -/
def IpAddr.mapIpv4 (bits : BitVec 32) : BitVec 128 := BitVec.ofNat 128 (0xFFFF * 2 ^ 32 + bits.toNat)

/-- The address agrees with the VIP on the bits of the mask. -/
def VipAddr.InBlock (vip : VipAddr) (addr : IpAddr) : Prop :=
  match vip.addr, addr with
  | .v4 own, .v4 bits => bits.toNat / 2 ^ (32 - vip.prefixLen) = own.toNat / 2 ^ (32 - vip.prefixLen)
  | .v6 own, .v6 bits => bits.toNat / 2 ^ (128 - vip.prefixLen) = own.toNat / 2 ^ (128 - vip.prefixLen)
  | _, _ => False

/-- The leading bits above and below the IPv4 boundary. -/
theorem div_pow_split (value : Nat) {k : Nat} (hk : k ≤ 32) :
    value / 2 ^ k = value / 2 ^ 32 * 2 ^ (32 - k) + value % 2 ^ 32 / 2 ^ k := by
  have hPow : 2 ^ 32 = 2 ^ k * 2 ^ (32 - k) := by rw [← pow_add, Nat.add_sub_cancel' hk]
  have hSplit := Nat.div_add_mod value (2 ^ 32)
  have hWhole : value = 2 ^ k * (2 ^ (32 - k) * (value / 2 ^ 32)) + value % 2 ^ 32 := by
    rw [← Nat.mul_assoc, ← hPow]
    exact hSplit.symm
  conv_lhs => rw [hWhole]
  rw [Nat.mul_add_div (by positivity), Nat.mul_comm]

/-- A mapped network is the IPv4 network inside it. -/
theorem inBlock_mapped {bits : BitVec 128} {ipv4 : BitVec 32} {prefixLen : Nat}
    (hMapped : IpAddr.toIpv4Mapped bits = some ipv4) (hFrom : 97 ≤ prefixLen) (hTo : prefixLen ≤ 128)
    (other : BitVec 128) :
    VipAddr.InBlock ⟨.v6 bits, prefixLen⟩ (.v6 other) ↔
      ∃ inner, other = IpAddr.mapIpv4 inner ∧
        VipAddr.InBlock ⟨.v4 ipv4, prefixLen - 96⟩ (.v4 inner) := by
  have hBits : bits.toNat / 2 ^ 32 = 0xFFFF ∧ ipv4.toNat = bits.toNat % 2 ^ 32 := by
    rw [IpAddr.toIpv4Mapped] at hMapped
    split at hMapped
    · next hHigh =>
        cases hMapped
        exact ⟨hHigh, BitVec.toNat_setWidth 32 bits⟩
    · cases hMapped
  have hShift : 32 - (prefixLen - 96) = 128 - prefixLen := by omega
  have hSmall : 128 - prefixLen ≤ 32 := by omega
  simp only [VipAddr.InBlock, hShift, hBits.2]
  generalize 128 - prefixLen = k at hSmall
  have hBitsSplit := div_pow_split bits.toNat hSmall
  have hOtherSplit := div_pow_split other.toNat hSmall
  constructor
  · intro hSame
    have hHigh : other.toNat / 2 ^ 32 = bits.toNat / 2 ^ 32 := by
      have hPow : 2 ^ 32 = 2 ^ k * 2 ^ (32 - k) := by rw [← pow_add, Nat.add_sub_cancel' hSmall]
      rw [hPow, ← Nat.div_div_eq_div_mul, ← Nat.div_div_eq_div_mul, hSame]
    refine ⟨other.setWidth 32, ?_, ?_⟩
    · apply BitVec.eq_of_toNat_eq
      rw [IpAddr.mapIpv4, BitVec.toNat_ofNat, BitVec.toNat_setWidth]
      omega
    · rw [BitVec.toNat_setWidth]
      rw [hSame, hBitsSplit, hHigh] at hOtherSplit
      omega
  · rintro ⟨inner, rfl, hSame⟩
    have hInner : (IpAddr.mapIpv4 inner).toNat = 0xFFFF * 2 ^ 32 + inner.toNat := by
      have hLt := inner.isLt
      rw [IpAddr.mapIpv4, BitVec.toNat_ofNat]
      omega
    have hLow : (IpAddr.mapIpv4 inner).toNat % 2 ^ 32 = inner.toNat := by
      have hLt := inner.isLt
      omega
    have hHigh : (IpAddr.mapIpv4 inner).toNat / 2 ^ 32 = bits.toNat / 2 ^ 32 := by
      have hLt := inner.isLt
      omega
    rw [hOtherSplit, hBitsSplit, hHigh, hLow, hSame]

/-! ### The table -/

section Table

variable {vips : List VipConfig}

theorem mem_sortedVips (hAgreeing : Agreeing (vips.map VipConfig.canonical))
    {entry : VipAddr × String} :
    entry ∈ sortedVips (Keyed.dedupBy (fun vip => vip.address.addr)
        (Keyed.sortBy (fun vip => vip.address.addr) (vips.map VipConfig.canonical))) ↔
      ∃ vip ∈ vips, (vip.canonical.address, vip.canonical.effectiveInterface) = entry := by
  have hSorted := Keyed.perm_sortBy (fun vip : VipConfig => vip.address.addr)
    (vips.map VipConfig.canonical)
  rw [sortedVips, List.mem_map]
  constructor
  · rintro ⟨kept, hKept, rfl⟩
    have hMem := hSorted.mem_iff.mp (Keyed.mem_of_mem_dedupBy _ hKept)
    obtain ⟨vip, hVip, rfl⟩ := List.mem_map.mp hMem
    exact ⟨vip, hVip, rfl⟩
  · rintro ⟨vip, hVip, rfl⟩
    have hOwn : vip.canonical ∈ vips.map VipConfig.canonical := List.mem_map_of_mem hVip
    obtain ⟨kept, hKept, hAddr⟩ := Keyed.exists_mem_dedupBy (fun vip : VipConfig => vip.address.addr)
      (hSorted.mem_iff.mpr hOwn)
    have hMem := hSorted.mem_iff.mp (Keyed.mem_of_mem_dedupBy _ hKept)
    obtain ⟨hPrefix, hInterface⟩ := Prod.mk.inj (hAgreeing kept hMem vip.canonical hOwn hAddr)
    refine ⟨kept, hKept, Prod.ext ?_ hInterface⟩
    exact congrArg₂ VipAddr.mk hAddr hPrefix

theorem pairwise_normalized (list : List VipConfig) :
    (Keyed.dedupBy (fun vip : VipConfig => vip.address.addr)
      (Keyed.sortBy (fun vip => vip.address.addr) list)).Pairwise
        fun first second => first.address.addr < second.address.addr :=
  Keyed.pairwise_dedupBy _ (Keyed.pairwise_sortBy _ list)

/-- Entries that another list repeats or reorders agree in it as well. -/
theorem Agreeing.congr {others : List VipConfig} (h : Agreeing (vips.map VipConfig.canonical))
    (hSame : ∀ vip, vip ∈ others ↔ vip ∈ vips) : Agreeing (others.map VipConfig.canonical) := by
  have hSubset : ∀ vip ∈ others.map VipConfig.canonical, vip ∈ vips.map VipConfig.canonical := by
    intro vip hVip
    obtain ⟨entry, hEntry, rfl⟩ := List.mem_map.mp hVip
    exact List.mem_map_of_mem ((hSame entry).mp hEntry)
  exact fun first hFirst second hSecond => h first (hSubset first hFirst) second (hSubset second hSecond)

theorem exists_normalized_congr {others : List VipConfig} (hSame : ∀ vip, vip ∈ others ↔ vip ∈ vips)
    (h : ∃ result, normalizeVips vips = .ok result) : ∃ result, normalizeVips others = .ok result := by
  obtain ⟨result, hResult⟩ := h
  obtain ⟨hAll, hAgreeing, -⟩ := normalizeVips_eq_ok.mp hResult
  exact ⟨_, normalizeVips_eq_ok.mpr
    ⟨fun vip hVip => hAll vip ((hSame vip).mp hVip), hAgreeing.congr hSame, rfl⟩⟩

/-- The table is determined by the set of entries. -/
theorem sortedVips_congr {others result result' : List VipConfig}
    (hSame : ∀ vip, vip ∈ others ↔ vip ∈ vips) (h : normalizeVips vips = .ok result)
    (h' : normalizeVips others = .ok result') : sortedVips result' = sortedVips result := by
  obtain ⟨-, hAgreeing, rfl⟩ := normalizeVips_eq_ok.mp h
  obtain ⟨-, hAgreeing', rfl⟩ := normalizeVips_eq_ok.mp h'
  refine Keyed.eq_of_mem_iff (fun entry => entry.1.addr) ?_ ?_ fun entry => ?_
  · exact List.pairwise_map.mpr (pairwise_normalized _)
  · exact List.pairwise_map.mpr (pairwise_normalized _)
  · rw [mem_sortedVips hAgreeing, mem_sortedVips hAgreeing']
    simp only [hSame]

theorem normalizeVips_idempotent {result : List VipConfig} (h : normalizeVips vips = .ok result) :
    normalizeVips result = .ok result := by
  obtain ⟨hAll, -, hResult⟩ := normalizeVips_eq_ok.mp h
  have hStrict : result.Pairwise fun first second => first.address.addr < second.address.addr :=
    hResult ▸ pairwise_normalized _
  have hEntries : ∀ vip ∈ result, vip.canonical = vip ∧ vip.Accepted := by
    intro vip hVip
    obtain ⟨entry, -, hAccepted, rfl⟩ := mem_normalized h hVip
    exact ⟨(VipConfig.canonical_of_not_mapped entry.canonical_not_mapped).1, hAccepted.canonical⟩
  have hMap : result.map VipConfig.canonical = result :=
    (List.map_congr_left fun vip hVip => (hEntries vip hVip).1).trans (List.map_id _)
  refine normalizeVips_eq_ok.mpr ⟨fun vip hVip => (hEntries vip hVip).2, ?_, ?_⟩
  · rw [hMap]
    have hNodup : (result.map fun vip => vip.address.addr).Nodup :=
      List.pairwise_map.mpr (hStrict.imp ne_of_lt)
    intro first hFirst second hSecond hAddr
    rw [List.inj_on_of_nodup_map hNodup hFirst hSecond hAddr]
  · rw [hMap, Keyed.dedupBy_sortBy _ hStrict]

end Table

/-- VIP normalisation is canonical: it depends on the set of entries alone, its result is a
table of addresses in canonical form, and it leaves such a table as it is. -/
theorem normalizeVips_canonical (vips : List VipConfig) :
    (∀ others : List VipConfig, (∀ vip, vip ∈ others ↔ vip ∈ vips) →
        ((∃ result, normalizeVips others = .ok result) ↔ ∃ result, normalizeVips vips = .ok result) ∧
        ∀ result result', normalizeVips vips = .ok result → normalizeVips others = .ok result' →
          sortedVips result' = sortedVips result) ∧
      ∀ result, normalizeVips vips = .ok result →
        (result.Pairwise fun first second => first.address.addr < second.address.addr) ∧
        (∀ vip ∈ result, vip.address.addr.isIpv4Mapped = false) ∧
        (∀ vip ∈ vips, ∀ bits ipv4, vip.address.addr = .v6 bits →
          IpAddr.toIpv4Mapped bits = some ipv4 →
          (∃ kept ∈ result, kept.address = ⟨.v4 ipv4, vip.address.prefixLen - 96⟩) ∧
            ∀ other, vip.address.InBlock (.v6 other) ↔ ∃ inner, other = IpAddr.mapIpv4 inner ∧
              VipAddr.InBlock ⟨.v4 ipv4, vip.address.prefixLen - 96⟩ (.v4 inner)) ∧
        normalizeVips result = .ok result := by
  refine ⟨fun others hSame => ⟨⟨?_, ?_⟩, ?_⟩, fun result hResult => ?_⟩
  · exact exists_normalized_congr fun vip => (hSame vip).symm
  · exact exists_normalized_congr hSame
  · exact fun result result' => sortedVips_congr hSame
  · obtain ⟨hAll, hAgreeing, hEq⟩ := normalizeVips_eq_ok.mp hResult
    refine ⟨hEq ▸ pairwise_normalized _, fun vip hVip => ?_, fun vip hVip bits ipv4 hAddr hMapped => ?_,
      normalizeVips_idempotent hResult⟩
    · rw [hEq] at hVip
      have hMem := (Keyed.perm_sortBy _ _).mem_iff.mp (Keyed.mem_of_mem_dedupBy _ hVip)
      obtain ⟨entry, -, rfl⟩ := List.mem_map.mp hMem
      exact entry.canonical_not_mapped
    · have hEntry := (mem_sortedVips hAgreeing).mpr ⟨vip, hVip, rfl⟩
      rw [← hEq, sortedVips, List.mem_map] at hEntry
      obtain ⟨kept, hKept, hSame⟩ := hEntry
      obtain ⟨hFrom, hTo⟩ := (hAll vip hVip).1 bits ipv4 hAddr hMapped
      have hOwn : vip.address = ⟨.v6 bits, vip.address.prefixLen⟩ := by rw [← hAddr]
      refine ⟨⟨kept, hKept, ?_⟩, fun other => ?_⟩
      · rw [(Prod.mk.inj hSame).1, VipConfig.canonical_of_mapped hAddr hMapped]
      · rw [hOwn]
        exact inBlock_mapped hMapped hFrom hTo other

/-- A mapped entry, its IPv4 form and a second VIP. -/
def mappedVips : List VipConfig :=
  [⟨⟨.v6 0xFFFF0A000001, 120⟩, "eth0", none⟩, ⟨⟨.v4 0x0A000001, 24⟩, "eth0", none⟩,
    ⟨⟨.v4 0x0A000002, 24⟩, "eth0", some 7⟩]

theorem normalizeVips_canonical_mapped :
    ∃ result result', normalizeVips mappedVips = .ok result ∧
      normalizeVips (mappedVips.reverse ++ mappedVips) = .ok result' ∧
      sortedVips result' = sortedVips result ∧ normalizeVips result = .ok result := by
  obtain ⟨hSet, hResult⟩ := normalizeVips_canonical mappedVips
  have hOk : ∃ result, normalizeVips mappedVips = .ok result :=
    ⟨[⟨⟨.v4 0x0A000001, 24⟩, "eth0", none⟩, ⟨⟨.v4 0x0A000002, 24⟩, "eth0", some 7⟩],
      by decide +kernel⟩
  obtain ⟨hSuccess, hTable⟩ := hSet (mappedVips.reverse ++ mappedVips) (by simp)
  obtain ⟨result', hOther⟩ := hSuccess.mpr hOk
  obtain ⟨result, hOwn⟩ := hOk
  exact ⟨result, result', hOwn, hOther, hTable result result' hOwn hOther, (hResult result hOwn).2.2.2⟩

end KeepAfloat
