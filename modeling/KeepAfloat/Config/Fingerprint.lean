import KeepAfloat.Library.Framing
import KeepAfloat.Library.Hex
import KeepAfloat.Runtime.ConfigTiming
import KeepAfloat.Store.Delay

/-! The identity of every configuration input that can affect the cluster. The bytes that are
hashed determine these inputs, and the inputs determine the lifetimes of a process and what
its store does with any log. -/

namespace KeepAfloat.ConfigFile

open Checks (bind_eq_ok pure_eq_ok)
open Framing (Framed framed_of_length framed_word framed_number framed_counted)

/-! ### Canonical bytes -/

def fingerprintVersion : UInt8 := 1

def domainSeparator : List UInt8 := Hex.utf8 "keepafloatd-cluster-config"

def ipBytes : IpAddr → List UInt8
  | .v4 bits => 4 :: Bytes.ofWord bits
  | .v6 bits => 6 :: Bytes.ofWord bits

/-- Scope and flow select an endpoint even where address and port are the same. -/
def socketBytes : SocketAddr → List UInt8
  | .v4 ip port => ipBytes (.v4 ip) ++ Bytes.ofWord port
  | .v6 ip port flowinfo scopeId =>
      ipBytes (.v6 ip) ++ (Bytes.ofWord port ++ (Bytes.ofWord flowinfo ++ Bytes.ofWord scopeId))

def boolByte (value : Bool) : UInt8 := if value then 1 else 0

/-- A peer with its addresses parsed. -/
abbrev Endpoints := UInt64 × SocketAddr × SocketAddr

def endpointsBytes (peer : Endpoints) : List UInt8 :=
  Bytes.encode 8 peer.1.toNat ++ (socketBytes peer.2.1 ++ socketBytes peer.2.2)

def vipBytes (vip : VipAddr × String) : List UInt8 :=
  ipBytes vip.1.addr ++ (Bytes.encode 1 vip.1.prefixLen ++ Framing.counted 8 (Hex.utf8 vip.2))

inductive FingerprintRejected where
  | raftAddress (id : UInt64)
  | submitAddress (id : UInt64)
  deriving DecidableEq, Repr

def PeerConfig.endpoints (peer : PeerConfig) : Except FingerprintRejected Endpoints :=
  match peer.raftAddress, peer.clientSubmitAddress with
  | none, _ => .error (.raftAddress peer.id)
  | some _, none => .error (.submitAddress peer.id)
  | some raft, some submit => .ok (peer.id, raft.canonical, submit.canonical)

def sortedPeers (peers : List PeerConfig) : List PeerConfig :=
  Keyed.sortBy (fun peer => peer.id.toNat) peers

namespace Config

/-- The settings behind the tables. The failback delay is left out where nothing reads it. -/
def settingsBytes (cfg : Config) : List UInt8 :=
  Bytes.encode 8 cfg.health.intervalMs.toNat ++
    (Bytes.encode 8 cfg.health.effectiveStaleMissedProbes ++
    (Bytes.encode 8 cfg.raft.electionTimeoutMinMs.toNat ++
    (Bytes.encode 8 cfg.raft.electionTimeoutMaxMs.toNat ++
    (Bytes.encode 8 cfg.raft.heartbeatIntervalMs.toNat ++
    (Bytes.encode 4 cfg.maxFrameBytes.toNat ++
    (Bytes.encode 8 cfg.effectiveFailoverDelayTicks ++
    ([boolByte cfg.failback] ++
      Bytes.encode 8 (if cfg.failback then cfg.effectiveFailbackDelayTicks else 0))))))))

def canonicalBytes (cfg : Config) : Except FingerprintRejected (List UInt8) := do
  let peers ← (sortedPeers cfg.peers).mapM PeerConfig.endpoints
  let vips := sortedVips cfg.vips
  pure (Framing.counted 8 domainSeparator ++ ([fingerprintVersion] ++
    (Bytes.encode 8 peers.length ++ (peers.flatMap endpointsBytes ++
    (Bytes.encode 8 vips.length ++ (vips.flatMap vipBytes ++ cfg.settingsBytes))))))

def clusterConfigFingerprint (sha256 : List UInt8 → BitVec 256) (cfg : Config) :
    Except FingerprintRejected ClusterConfigFingerprint := do
  let bytes ← cfg.canonicalBytes
  pure ⟨fingerprintVersion.toBitVec, sha256 bytes⟩

/-- Agreement on every input that the cluster depends on. -/
structure Agrees (first second : Config) : Prop where
  peers : ∀ peer, peer ∈ first.peers ↔ peer ∈ second.peers
  vips : sortedVips first.vips = sortedVips second.vips
  interval : first.health.intervalMs = second.health.intervalMs
  stale : first.health.effectiveStaleMissedProbes = second.health.effectiveStaleMissedProbes
  raft : first.raft = second.raft
  maxFrameBytes : first.maxFrameBytes = second.maxFrameBytes
  failoverDelay : first.effectiveFailoverDelayTicks = second.effectiveFailoverDelayTicks
  failback : first.failback = second.failback
  failbackDelay : first.failback = true →
    first.effectiveFailbackDelayTicks = second.effectiveFailbackDelayTicks

end Config

/-! ### Unique reading -/

theorem framed_ip : Framed (fun _ => True) ipBytes := by
  intro first second _ _ rest rest' hBytes
  cases first with
  | v4 bits =>
      cases second with
      | v4 bits' =>
          obtain ⟨rfl, hRest⟩ := framed_word (by decide) trivial trivial (List.cons.inj hBytes).2
          exact ⟨rfl, hRest⟩
      | v6 bits' => exact absurd (List.cons.inj hBytes).1 (by decide)
  | v6 bits =>
      cases second with
      | v4 bits' => exact absurd (List.cons.inj hBytes).1 (by decide)
      | v6 bits' =>
          obtain ⟨rfl, hRest⟩ := framed_word (by decide) trivial trivial (List.cons.inj hBytes).2
          exact ⟨rfl, hRest⟩

theorem framed_socket : Framed (fun _ => True) socketBytes := by
  have hPort := framed_word (w := 16) (by decide)
  have hWord := framed_word (w := 32) (by decide)
  intro first second _ _ rest rest' hBytes
  cases first with
  | v4 ip port =>
      cases second with
      | v4 ip' port' =>
          rw [socketBytes, socketBytes, List.append_assoc, List.append_assoc] at hBytes
          obtain ⟨hIp, hPorts⟩ := framed_ip trivial trivial hBytes
          obtain ⟨rfl, hRest⟩ := hPort trivial trivial hPorts
          cases hIp
          exact ⟨rfl, hRest⟩
      | v6 ip' port' flowinfo scopeId => exact absurd (List.cons.inj hBytes).1 (by decide)
  | v6 ip port flowinfo scopeId =>
      cases second with
      | v4 ip' port' => exact absurd (List.cons.inj hBytes).1 (by decide)
      | v6 ip' port' flowinfo' scopeId' =>
          simp only [socketBytes, List.append_assoc] at hBytes
          obtain ⟨hIp, hPorts⟩ := framed_ip trivial trivial hBytes
          obtain ⟨rfl, hFlows⟩ := hPort trivial trivial hPorts
          obtain ⟨rfl, hScopes⟩ := hWord trivial trivial hFlows
          obtain ⟨rfl, hRest⟩ := hWord trivial trivial hScopes
          cases hIp
          exact ⟨rfl, hRest⟩

theorem framed_endpoints : Framed (fun _ => True) endpointsBytes := by
  have hId : Framed (fun _ => True) fun id : UInt64 => Bytes.encode 8 id.toNat := by
    intro first second _ _ rest rest' hBytes
    obtain ⟨hSame, hRest⟩ := framed_number 8 first.toNat_lt second.toNat_lt hBytes
    exact ⟨UInt64.toNat_inj.mp hSame, hRest⟩
  intro first second _ _ rest rest' hBytes
  exact hId.pair (framed_socket.pair framed_socket) ⟨trivial, trivial, trivial⟩
    ⟨trivial, trivial, trivial⟩ hBytes

/-- The mask fits a byte and the name of the interface has a length. -/
def VipFits (vip : VipAddr × String) : Prop :=
  vip.1.prefixLen < 256 ^ 1 ∧ (Hex.utf8 vip.2).length < 256 ^ 8

theorem framed_vip : Framed VipFits vipBytes := by
  have hText := (framed_counted 8).comap Hex.utf8_injective
  intro first second hFirst hSecond rest rest' hBytes
  obtain ⟨hSame, hRest⟩ := framed_ip.pair ((framed_number 1).pair hText)
    (x := (first.1.addr, first.1.prefixLen, first.2))
    (y := (second.1.addr, second.1.prefixLen, second.2))
    ⟨trivial, hFirst⟩ ⟨trivial, hSecond⟩ hBytes
  obtain ⟨⟨addr, prefixLen⟩, interface⟩ := first
  obtain ⟨⟨addr', prefixLen'⟩, interface'⟩ := second
  cases hSame
  exact ⟨rfl, hRest⟩

theorem effectiveStaleMissedProbes_lt (health : HealthConfig) :
    health.effectiveStaleMissedProbes < 256 ^ 8 := by
  rw [HealthConfig.effectiveStaleMissedProbes, Word64.maxWord]
  omega

theorem durationToProbeRoundsCeil_lt (durationSecs intervalMs : Nat) :
    durationToProbeRoundsCeil durationSecs intervalMs < 256 ^ 8 := by
  rw [durationToProbeRoundsCeil, Word64.maxWord]
  split <;> omega

namespace Config

theorem length_settingsBytes (cfg : Config) : cfg.settingsBytes.length = 61 := by
  simp [settingsBytes]

/-- The settings are read back one after the other. -/
theorem settingsBytes_inj {first second : Config} (h : first.settingsBytes = second.settingsBytes) :
    first.health.intervalMs = second.health.intervalMs ∧
      first.health.effectiveStaleMissedProbes = second.health.effectiveStaleMissedProbes ∧
      first.raft = second.raft ∧ first.maxFrameBytes = second.maxFrameBytes ∧
      first.effectiveFailoverDelayTicks = second.effectiveFailoverDelayTicks ∧
      first.failback = second.failback ∧ (first.failback = true →
        first.effectiveFailbackDelayTicks = second.effectiveFailbackDelayTicks) := by
  have hWord := framed_number 8
  have hBool : ∀ first second : Bool, boolByte first = boolByte second → first = second := by decide
  rw [settingsBytes, settingsBytes] at h
  obtain ⟨hInterval, h⟩ := hWord (UInt64.toNat_lt _) (UInt64.toNat_lt _) h
  obtain ⟨hStale, h⟩ :=
    hWord (effectiveStaleMissedProbes_lt _) (effectiveStaleMissedProbes_lt _) h
  obtain ⟨hMin, h⟩ := hWord (UInt64.toNat_lt _) (UInt64.toNat_lt _) h
  obtain ⟨hMax, h⟩ := hWord (UInt64.toNat_lt _) (UInt64.toNat_lt _) h
  obtain ⟨hHeartbeat, h⟩ := hWord (UInt64.toNat_lt _) (UInt64.toNat_lt _) h
  obtain ⟨hFrame, h⟩ := framed_number 4 (UInt32.toNat_lt _) (UInt32.toNat_lt _) h
  obtain ⟨hFailover, h⟩ :=
    hWord (durationToProbeRoundsCeil_lt _ _) (durationToProbeRoundsCeil_lt _ _) h
  obtain ⟨hByte, h⟩ := List.cons.inj h
  have hFailback := hBool _ _ hByte
  refine ⟨UInt64.toNat_inj.mp hInterval, hStale, ?_, UInt32.toNat_inj.mp hFrame, hFailover,
    hFailback, fun hOn => ?_⟩
  · exact RaftTuneConfig.ext (UInt64.toNat_inj.mp hMin) (UInt64.toNat_inj.mp hMax)
      (UInt64.toNat_inj.mp hHeartbeat)
  · rw [← hFailback, hOn, if_pos rfl, if_pos rfl] at h
    exact hWord.injective (durationToProbeRoundsCeil_lt _ _) (durationToProbeRoundsCeil_lt _ _) h

end Config

/-! ### Peers -/

namespace PeerConfig

/-- The parsed peer. -/
def resolved (peer : PeerConfig) : Endpoints :=
  (peer.id, (peer.raftAddress.map SocketAddr.canonical).getD (.v4 0 0),
    (peer.clientSubmitAddress.map SocketAddr.canonical).getD (.v4 0 0))

theorem endpoints_of_parses {peer : PeerConfig} (h : peer.Parses) :
    peer.endpoints = .ok peer.resolved := by
  obtain ⟨id, raft, submit⟩ := peer
  obtain ⟨hRaft, hSubmit⟩ := h
  obtain ⟨raft, rfl⟩ := Option.isSome_iff_exists.mp hRaft
  obtain ⟨submit, rfl⟩ := Option.isSome_iff_exists.mp hSubmit
  rfl

/-- A rewritten peer is what it was parsed to. -/
theorem eq_of_resolved {peer : PeerConfig} (h : peer.Parses) :
    peer.canonical = ⟨peer.canonical.resolved.1, some peer.canonical.resolved.2.1,
      some peer.canonical.resolved.2.2⟩ := by
  obtain ⟨id, raft, submit⟩ := peer
  obtain ⟨hRaft, hSubmit⟩ := h
  obtain ⟨raft, rfl⟩ := Option.isSome_iff_exists.mp hRaft
  obtain ⟨submit, rfl⟩ := Option.isSome_iff_exists.mp hSubmit
  simp only [canonical, resolved, Option.map_some, Option.getD_some, SocketAddr.canonical_canonical]

end PeerConfig

/-! ### Accepted configurations -/

namespace AcceptedConfig

/-- Every peer is the rewritten form of one that parses. -/
theorem peer_canonical (config : AcceptedConfig) {peer : PeerConfig} (h : peer ∈ config.cfg.peers) :
    ∃ entry : PeerConfig, entry.Parses ∧ peer = entry.canonical := by
  rw [config.normalized.peers] at h
  obtain ⟨entry, hEntry, rfl⟩ := List.mem_map.mp h
  exact ⟨entry, config.normalized.parses entry hEntry, rfl⟩

theorem mem_sortedPeers (config : AcceptedConfig) {peer : PeerConfig} :
    peer ∈ sortedPeers config.cfg.peers ↔ peer ∈ config.cfg.peers :=
  (Keyed.perm_sortBy _ _).mem_iff

/-- The sorted peers are strictly ascending. -/
theorem pairwise_sortedPeers (config : AcceptedConfig) :
    (sortedPeers config.cfg.peers).Pairwise fun first second => first.id.toNat < second.id.toNat := by
  refine Keyed.pairwise_sortBy_of_nodup _ ?_
  have hIds : (config.cfg.peers.map (·.id)).Nodup := by
    rw [config.normalized.ids]
    exact config.normalized.distinct
  have hNumbers := hIds.map (f := UInt64.toNat) fun _ _ h => UInt64.toNat_inj.mp h
  rwa [List.map_map] at hNumbers

/-- Sorted peers are determined by what they are parsed to. -/
theorem sortedPeers_eq {first second : AcceptedConfig}
    (h : (sortedPeers first.cfg.peers).map PeerConfig.resolved =
      (sortedPeers second.cfg.peers).map PeerConfig.resolved) :
    sortedPeers first.cfg.peers = sortedPeers second.cfg.peers := by
  have hRebuild : ∀ config : AcceptedConfig, sortedPeers config.cfg.peers =
      ((sortedPeers config.cfg.peers).map PeerConfig.resolved).map
        fun peer => ⟨peer.1, some peer.2.1, some peer.2.2⟩ := by
    intro config
    rw [List.map_map]
    refine ((List.map_congr_left fun peer hPeer => ?_).trans (List.map_id _)).symm
    obtain ⟨entry, hEntry, rfl⟩ := config.peer_canonical (config.mem_sortedPeers.mp hPeer)
    exact (PeerConfig.eq_of_resolved hEntry).symm
  rw [hRebuild first, h, ← hRebuild second]

/-- Ids are words, so that a roster without repetitions is counted by one. -/
theorem length_peers (config : AcceptedConfig) :
    0 < (sortedPeers config.cfg.peers).length ∧ (sortedPeers config.cfg.peers).length ≤ 2 ^ 64 := by
  have hLength : (sortedPeers config.cfg.peers).length = config.cfg.peers.length :=
    (Keyed.perm_sortBy _ _).length_eq
  constructor
  · rw [hLength, config.normalized.peers, List.length_map]
    exact List.length_pos_iff.mpr config.normalized.nonempty
  · have hNodup : ((sortedPeers config.cfg.peers).map (·.id.toNat)).Nodup :=
      List.pairwise_map.mpr (config.pairwise_sortedPeers.imp ne_of_lt)
    have hSubset : ((sortedPeers config.cfg.peers).map (·.id.toNat)).toFinset ⊆
        Finset.range (2 ^ 64) := by
      intro id hId
      obtain ⟨peer, -, rfl⟩ := List.mem_map.mp (List.mem_toFinset.mp hId)
      exact Finset.mem_range.mpr peer.id.toNat_lt
    have hCard := Finset.card_le_card hSubset
    rwa [List.toFinset_card_of_nodup hNodup, List.length_map, Finset.card_range] at hCard

/-- What an accepted configuration hashes. -/
theorem canonicalBytes_eq (config : AcceptedConfig) :
    config.cfg.canonicalBytes = .ok (Framing.counted 8 domainSeparator ++ ([fingerprintVersion] ++
      (Bytes.encode 8 (sortedPeers config.cfg.peers).length ++
      (((sortedPeers config.cfg.peers).map PeerConfig.resolved).flatMap endpointsBytes ++
      (Bytes.encode 8 (sortedVips config.cfg.vips).length ++
      ((sortedVips config.cfg.vips).flatMap vipBytes ++ config.cfg.settingsBytes)))))) := by
  have hPeers : (sortedPeers config.cfg.peers).mapM PeerConfig.endpoints =
      .ok ((sortedPeers config.cfg.peers).map PeerConfig.resolved) := by
    refine Checks.mapM_eq_ok fun peer hPeer => PeerConfig.endpoints_of_parses ?_
    obtain ⟨entry, ⟨hRaft, hSubmit⟩, rfl⟩ :=
      config.peer_canonical (config.mem_sortedPeers.mp hPeer)
    exact ⟨Option.isSome_map.trans hRaft, Option.isSome_map.trans hSubmit⟩
  rw [Config.canonicalBytes, hPeers, ← List.length_map (f := PeerConfig.resolved)]
  rfl

/-- Masks and interface names of the table fit their fields. -/
theorem vips_fit (config : AcceptedConfig) : ∀ vip ∈ sortedVips config.cfg.vips, VipFits vip := by
  intro vip hVip
  obtain ⟨kept, hKept, rfl⟩ := List.mem_map.mp hVip
  obtain ⟨entry, -, hAccepted, rfl⟩ := mem_normalized config.normalized.vips hKept
  obtain ⟨hMask, hName⟩ := hAccepted.short
  rw [VipFits, Hex.length_utf8]
  exact ⟨hMask.trans_lt (by decide), hName.trans_lt (by decide)⟩

/-- Equal bytes are read back as equal inputs. -/
theorem agrees_of_bytes {first second : AcceptedConfig}
    (h : first.cfg.canonicalBytes = second.cfg.canonicalBytes) : first.cfg.Agrees second.cfg := by
  rw [canonicalBytes_eq, canonicalBytes_eq, Except.ok.injEq] at h
  have hCounts := List.append_cancel_left (List.append_cancel_left h)
  obtain ⟨hCount, hPeers⟩ := List.append_inj hCounts (by rw [Bytes.length_encode, Bytes.length_encode])
  have hLength : (sortedPeers first.cfg.peers).length = (sortedPeers second.cfg.peers).length := by
    have hDecoded := congrArg Bytes.decode hCount
    rw [Bytes.decode_encode, Bytes.decode_encode] at hDecoded
    have hFirst := first.length_peers
    have hSecond := second.length_peers
    omega
  obtain ⟨hResolved, hVips⟩ := framed_endpoints.items
    (by rw [List.length_map, List.length_map, hLength]) (fun _ _ => trivial) (fun _ _ => trivial)
    hPeers
  have hSorted := sortedPeers_eq hResolved
  obtain ⟨-, hTable⟩ := List.append_inj hVips (by rw [Bytes.length_encode, Bytes.length_encode])
  obtain ⟨hEntries, hSettings⟩ := framed_vip.items_before (fun vip => by simp [vipBytes])
    first.vips_fit second.vips_fit
    (by rw [Config.length_settingsBytes, Config.length_settingsBytes]) hTable
  obtain ⟨hInterval, hStale, hRaft, hFrame, hFailover, hFailback, hDelay⟩ :=
    Config.settingsBytes_inj hSettings
  refine ⟨fun peer => ?_, hEntries, hInterval, hStale, hRaft, hFrame, hFailover, hFailback, hDelay⟩
  rw [← first.mem_sortedPeers, hSorted, second.mem_sortedPeers]

/-- Inputs that agree are written alike. -/
theorem bytes_of_agrees {first second : AcceptedConfig} (h : first.cfg.Agrees second.cfg) :
    first.cfg.canonicalBytes = second.cfg.canonicalBytes := by
  have hSorted : sortedPeers first.cfg.peers = sortedPeers second.cfg.peers := by
    refine Keyed.eq_of_mem_iff (fun peer : PeerConfig => peer.id.toNat) first.pairwise_sortedPeers
      second.pairwise_sortedPeers fun peer => ?_
    rw [first.mem_sortedPeers, h.peers, second.mem_sortedPeers]
  have hDelay : (if first.cfg.failback then first.cfg.effectiveFailbackDelayTicks else 0) =
      if second.cfg.failback then second.cfg.effectiveFailbackDelayTicks else 0 := by
    rw [← h.failback]
    split
    · rename_i hOn
      exact h.failbackDelay hOn
    · rfl
  have hSettings : first.cfg.settingsBytes = second.cfg.settingsBytes := by
    rw [Config.settingsBytes, Config.settingsBytes, hDelay, h.interval, h.stale, h.raft,
      h.maxFrameBytes, h.failoverDelay, h.failback]
  rw [canonicalBytes_eq, canonicalBytes_eq, hSorted, h.vips, hSettings]

/-- What is hashed and is neither a peer nor a VIP. -/
def settings (cfg : Config) : HealthConfig × RaftTuneConfig × UInt32 × UInt32 × Bool × UInt32 :=
  (cfg.health, cfg.raft, cfg.maxFrameBytes, cfg.failoverDelaySecs, cfg.failback,
    cfg.failbackDelaySecs)

/-- Files that differ in the order of peers and VIPs. -/
theorem agrees_of_perm {first second : AcceptedConfig}
    (hPeers : first.file.peers.Perm second.file.peers)
    (hVips : first.file.vips.Perm second.file.vips)
    (hRest : second.file = { first.file with
      peers := second.file.peers, vips := second.file.vips }) :
    first.cfg.Agrees second.cfg := by
  have hTable := sortedVips_congr (fun vip => hVips.mem_iff) second.normalized.vips
    first.normalized.vips
  have hMembers : ∀ peer, peer ∈ first.cfg.peers ↔ peer ∈ second.cfg.peers := by
    intro peer
    rw [first.normalized.peers, second.normalized.peers]
    exact (hPeers.map _).mem_iff
  have hKept : ∀ config : AcceptedConfig, settings config.cfg = settings config.file := by
    intro config
    rw [config.normalized.settings]
    rfl
  have hSettings : settings first.cfg = settings second.cfg := by
    rw [hKept first, hKept second, hRest]
    rfl
  simp only [settings, Prod.mk.injEq] at hSettings
  obtain ⟨hHealth, hRaft, hFrame, hFailover, hFailback, hDelay⟩ := hSettings
  refine ⟨hMembers, hTable, by rw [hHealth], by rw [hHealth], hRaft, hFrame, ?_, hFailback,
    fun _ => ?_⟩
  · rw [Config.effectiveFailoverDelayTicks, Config.effectiveFailoverDelayTicks, hHealth, hFailover]
  · rw [Config.effectiveFailbackDelayTicks, Config.effectiveFailbackDelayTicks, hHealth, hDelay]

/-! ### What the inputs determine -/

/-- The table that the store is started with. -/
def vipTable (config : AcceptedConfig) : VipTable where
  entries := sortedVips config.cfg.vips
  addrs_nodup := by
    obtain ⟨-, -, hVips⟩ := normalizeVips_eq_ok.mp config.normalized.vips
    have hStrict := pairwise_normalized (config.file.vips.map VipConfig.canonical)
    rw [← hVips] at hStrict
    rw [sortedVips, List.map_map]
    exact List.pairwise_map.mpr (hStrict.imp ne_of_lt)

/-- The constants that the store is started with. -/
def storeConfig (config : AcceptedConfig) : StoreConfig where
  vipList := config.vipTable
  staleMissedProbes := config.cfg.health.effectiveStaleMissedProbes
  failback := config.cfg.failback
  failbackDelayTicks := config.cfg.effectiveFailbackDelayTicks

/-- The peers of configurations that agree are as many. -/
theorem length_peers_eq {first second : AcceptedConfig} (h : first.cfg.Agrees second.cfg) :
    first.cfg.peers.length = second.cfg.peers.length := by
  have hNodup : ∀ config : AcceptedConfig, config.cfg.peers.Nodup := by
    intro config
    refine List.Nodup.of_map (·.id) ?_
    rw [config.normalized.ids]
    exact config.normalized.distinct
  exact ((List.perm_ext_iff_of_nodup (hNodup first) (hNodup second)).mpr h.peers).length_eq

/-- A hash that tells the two byte strings apart tells the configurations apart. -/
theorem clusterConfigFingerprint_eq_iff {first second : AcceptedConfig}
    {sha256 : List UInt8 → BitVec 256}
    (h : ∀ bytes bytes', first.cfg.canonicalBytes = .ok bytes → second.cfg.canonicalBytes = .ok bytes' →
      sha256 bytes = sha256 bytes' → bytes = bytes') :
    first.cfg.clusterConfigFingerprint sha256 = second.cfg.clusterConfigFingerprint sha256 ↔
      first.cfg.Agrees second.cfg := by
  constructor
  · intro hSame
    have hBytes := first.canonicalBytes_eq
    have hOther := second.canonicalBytes_eq
    simp only [Config.clusterConfigFingerprint, hBytes, hOther] at hSame
    refine agrees_of_bytes ?_
    rw [hBytes, hOther, h _ _ hBytes hOther
      (congrArg ClusterConfigFingerprint.digest (Except.ok.inj hSame))]
  · intro hAgrees
    rw [Config.clusterConfigFingerprint, Config.clusterConfigFingerprint, bytes_of_agrees hAgrees]

end AcceptedConfig

/-- The fingerprint is an identity of the inputs: it is always computed, equal bytes (and equal
hashes, unless the two byte strings collide) are agreement, the order in the file does not matter, and agreement fixes the lifetimes and the
replay of every log. -/
theorem fingerprint_identity (first second : AcceptedConfig) :
    ((∃ bytes, first.cfg.canonicalBytes = .ok bytes) ∧
      (first.cfg.canonicalBytes = second.cfg.canonicalBytes ↔ first.cfg.Agrees second.cfg) ∧
      ∀ sha256 : List UInt8 → BitVec 256,
        (∀ bytes bytes', first.cfg.canonicalBytes = .ok bytes →
          second.cfg.canonicalBytes = .ok bytes' → sha256 bytes = sha256 bytes' → bytes = bytes') →
        (first.cfg.clusterConfigFingerprint sha256 = second.cfg.clusterConfigFingerprint sha256 ↔
          first.cfg.Agrees second.cfg)) ∧
    (first.file.peers.Perm second.file.peers → first.file.vips.Perm second.file.vips →
      second.file = { first.file with peers := second.file.peers, vips := second.file.vips } →
      first.cfg.canonicalBytes = second.cfg.canonicalBytes) ∧
    (first.cfg.canonicalBytes = second.cfg.canonicalBytes →
      LeaseTiming.forConfig first.cfg first.cfg.vips.length =
        LeaseTiming.forConfig second.cfg second.cfg.vips.length ∧
      ∀ entries : List Entry,
        KafSnapshot.of (entries.foldl KafStorageState.step first.storeConfig.start) =
            KafSnapshot.of (entries.foldl KafStorageState.step second.storeConfig.start) ∧
          first.storeConfig.start.responses entries =
            second.storeConfig.start.responses entries) := by
  refine ⟨⟨⟨_, first.canonicalBytes_eq⟩,
    ⟨AcceptedConfig.agrees_of_bytes, AcceptedConfig.bytes_of_agrees⟩,
    fun _ => AcceptedConfig.clusterConfigFingerprint_eq_iff⟩, fun hPeers hVips hRest => ?_, fun hBytes => ?_⟩
  · exact AcceptedConfig.bytes_of_agrees (AcceptedConfig.agrees_of_perm hPeers hVips hRest)
  · have hAgrees := AcceptedConfig.agrees_of_bytes hBytes
    have hCount : first.cfg.vips.length = second.cfg.vips.length := by
      have hLength := congrArg List.length hAgrees.vips
      rwa [sortedVips, sortedVips, List.length_map, List.length_map] at hLength
    constructor
    · rw [hCount]
      exact LeaseTiming.forConfig_congr hAgrees.interval hAgrees.stale hAgrees.raft
        (AcceptedConfig.length_peers_eq hAgrees) _
    · have hTable : first.vipTable = second.vipTable := by
        simp only [AcceptedConfig.vipTable, hAgrees.vips]
      exact StoreConfig.replay_eq hTable hAgrees.stale hAgrees.failback hAgrees.failbackDelay

theorem reorderedNetwork_accepted :
    ({ networkConfig 3 with peers := (networkConfig 3).peers.reverse } : Config).normalize =
      .ok { networkConfig 3 with peers := (networkConfig 3).peers.reverse } := by
  decide +kernel

/-- The network with its peers in another order. -/
def reorderedNetwork : AcceptedConfig := ⟨_, _, reorderedNetwork_accepted⟩

/-- Another order in the file is another configuration with the same bytes. -/
theorem fingerprint_identity_reordered :
    acceptedNetwork.cfg.peers ≠ reorderedNetwork.cfg.peers ∧
      acceptedNetwork.cfg.canonicalBytes = reorderedNetwork.cfg.canonicalBytes :=
  ⟨by decide +kernel, (fingerprint_identity acceptedNetwork reorderedNetwork).2.1
    (List.reverse_perm _).symm (.refl _) rfl⟩

end KeepAfloat.ConfigFile
