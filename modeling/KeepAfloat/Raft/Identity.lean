import Mathlib

/-! Identities of the replicated system: exact boot replicas, IP addresses and
the log positions and memberships that openraft hands to the store. Byte arrays
are bit vectors read in big-endian order, so that their numeric order is the
order of the bytes. Ordered maps of the source are extensional tree maps and
ordered sets are finite sets. -/

namespace KeepAfloat

open Std (ExtTreeMap)

/-- A configured physical member and one exact volatile runtime. -/
structure ReplicaId where
  physicalId : Nat
  bootNonce : BitVec 256
  deriving DecidableEq, Repr

namespace ReplicaId

/-- Field order of the derived comparison: physical id first, then the nonce. -/
def orderKey (replica : ReplicaId) : ℕ ×ₗ ℕ :=
  toLex (replica.physicalId, replica.bootNonce.toNat)

theorem orderKey_injective : Function.Injective orderKey := by
  rintro ⟨physical, nonce⟩ ⟨physical', nonce'⟩ h
  simp only [orderKey, EmbeddingLike.apply_eq_iff_eq, Prod.mk.injEq] at h
  obtain ⟨rfl, hNonce⟩ := h
  rw [BitVec.eq_of_toNat_eq hNonce]

instance : LinearOrder ReplicaId := LinearOrder.lift' orderKey orderKey_injective

instance : Std.TransOrd ReplicaId := inferInstance

instance : Std.LawfulEqOrd ReplicaId := ⟨fun h => compare_eq_iff_eq.mp h⟩

end ReplicaId

/-- An IPv4 or IPv6 address. -/
inductive IpAddr where
  | v4 (bits : BitVec 32)
  | v6 (bits : BitVec 128)
  deriving DecidableEq, Repr

namespace IpAddr

/-- Every IPv4 address sorts before every IPv6 address. -/
def orderKey : IpAddr → Nat
  | .v4 bits => bits.toNat
  | .v6 bits => 2 ^ 32 + bits.toNat

theorem orderKey_injective : Function.Injective orderKey := by
  intro first second h
  cases first with
  | v4 a =>
      cases second with
      | v4 b => rw [BitVec.eq_of_toNat_eq h]
      | v6 b =>
          have hLt := a.isLt
          simp only [orderKey] at h
          omega
  | v6 a =>
      cases second with
      | v4 b =>
          have hLt := b.isLt
          simp only [orderKey] at h
          omega
      | v6 b =>
          have hBits : a.toNat = b.toNat := by simpa [orderKey] using h
          rw [BitVec.eq_of_toNat_eq hBits]

instance : LinearOrder IpAddr := LinearOrder.lift' orderKey orderKey_injective

instance : Std.TransOrd IpAddr := inferInstance

instance : Std.LawfulEqOrd IpAddr := ⟨fun h => compare_eq_iff_eq.mp h⟩

end IpAddr

/-- The term and the replica that led it. -/
structure LeaderId where
  term : Nat
  nodeId : ReplicaId
  deriving DecidableEq, Repr

/-- A log position together with the leader that created the entry there. -/
structure LogId where
  leaderId : LeaderId
  index : Nat
  deriving DecidableEq, Repr

/-- Position in the total order of log ids: leader first, then index. -/
def LogId.orderKey (log : LogId) : ℕ ×ₗ ReplicaId ×ₗ ℕ :=
  toLex (log.leaderId.term, toLex (log.leaderId.nodeId, log.index))

/-- A leader vote, committed once a quorum granted it. -/
structure Vote where
  leaderId : LeaderId
  committed : Bool
  deriving DecidableEq, Repr

/-- A member's transport address. -/
structure BasicNode where
  addr : String
  deriving DecidableEq, Repr

/-- A Raft membership: the voter sets of a stable (one set) or joint
configuration, and the address of every voter and learner. -/
structure Membership where
  configs : List (Finset ReplicaId)
  nodes : ExtTreeMap ReplicaId BasicNode
  deriving DecidableEq

namespace Membership

/-- The membership of a store that has applied none. -/
def default : Membership := ⟨[], ∅⟩

def getJointConfig (membership : Membership) : List (Finset ReplicaId) := membership.configs

/-- Voters of any of the joint configurations. -/
def voterIds (membership : Membership) : Finset ReplicaId :=
  membership.configs.foldr (· ∪ ·) ∅

/-- Every replica with an address, voter or not. -/
def nodeIds (membership : Membership) : Finset ReplicaId := membership.nodes.keys.toFinset

def learnerIds (membership : Membership) : Finset ReplicaId :=
  membership.nodeIds \ membership.voterIds

@[simp] theorem mem_nodeIds {membership : Membership} {replica : ReplicaId} :
    replica ∈ membership.nodeIds ↔ replica ∈ membership.nodes := by
  simp [nodeIds]

@[simp] theorem mem_learnerIds {membership : Membership} {replica : ReplicaId} :
    replica ∈ membership.learnerIds ↔
      replica ∈ membership.nodes ∧ replica ∉ membership.voterIds := by
  simp [learnerIds]

theorem mem_voterIds {membership : Membership} {replica : ReplicaId} :
    replica ∈ membership.voterIds ↔ ∃ config ∈ membership.configs, replica ∈ config := by
  unfold voterIds
  induction membership.configs with
  | nil => simp
  | cons config rest ih => simp [ih]

theorem voterIds_of_stable {membership : Membership} {voters : Finset ReplicaId}
    (h : membership.configs = [voters]) : membership.voterIds = voters := by
  simp [voterIds, h]

end Membership

/-- A membership and the log position that carried it. -/
structure StoredMembership where
  logId : Option LogId
  membership : Membership
  deriving DecidableEq

/-- The stored membership of a store that has applied none. -/
def StoredMembership.default : StoredMembership := ⟨none, Membership.default⟩

end KeepAfloat
