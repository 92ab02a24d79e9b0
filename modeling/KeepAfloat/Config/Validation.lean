import KeepAfloat.Config.Vips
import KeepAfloat.Library.Word64

/-! The configuration of a node and its normalisation: the checks in the order in which they
are made, with addresses and the VIP list rewritten. An address text stands here for what it
parses to, so that writing a parsed address back and reading it again changes nothing. The records below
are those of the file; authorization works with the part of them that it reads. -/

namespace KeepAfloat.ConfigFile

open Checks (require bind_eq_ok pure_eq_ok mapError_eq_ok require_eq_ok)

inductive SocketAddr where
  | v4 (ip : BitVec 32) (port : BitVec 16)
  | v6 (ip : BitVec 128) (port : BitVec 16) (flowinfo scopeId : BitVec 32)
  deriving DecidableEq, Repr

namespace SocketAddr

def ip : SocketAddr → IpAddr
  | v4 ip _ => .v4 ip
  | v6 ip _ _ _ => .v6 ip

def isIpv4 (address : SocketAddr) : Bool := address.ip.isIpv4

/-- An IPv4-mapped socket and its IPv4 form are one kernel endpoint. -/
def canonical : SocketAddr → SocketAddr
  | v4 ip port => v4 ip port
  | v6 ip port flowinfo scopeId =>
      match IpAddr.toIpv4Mapped ip with
      | some mapped => v4 mapped port
      | none => v6 ip port flowinfo scopeId

theorem canonical_canonical (address : SocketAddr) :
    address.canonical.canonical = address.canonical := by
  cases address with
  | v4 ip port => rfl
  | v6 ip port flowinfo scopeId =>
      rw [canonical]
      cases hMapped : IpAddr.toIpv4Mapped ip with
      | some mapped => rfl
      | none => simp only [canonical, hMapped]

end SocketAddr

/-- An address text, as what it parses to. -/
abbrev AddressText := Option SocketAddr

structure PeerConfig where
  id : UInt64
  raftAddress : AddressText
  clientSubmitAddress : AddressText
  deriving DecidableEq

structure HealthConfig where
  command : List String
  intervalMs : UInt64
  timeoutMs : UInt64
  staleSecs : Option UInt64
  deriving DecidableEq

@[ext] structure RaftTuneConfig where
  electionTimeoutMinMs : UInt64
  electionTimeoutMaxMs : UInt64
  heartbeatIntervalMs : UInt64
  deriving DecidableEq

structure Config where
  nodeId : UInt64
  raftListen : AddressText
  clientSubmitListen : AddressText
  peers : List PeerConfig
  vips : List VipConfig
  health : HealthConfig
  raft : RaftTuneConfig
  clusterSecret : Option String
  clusterSecretFile : Option String
  maxFrameBytes : UInt32
  submitTimeoutMs : UInt64
  addressProtocol : UInt8
  failoverDelaySecs : UInt32
  failback : Bool
  failbackDelaySecs : UInt32
  deriving DecidableEq

inductive EndpointKind where
  | raftAddress
  | clientSubmitAddress
  deriving DecidableEq, Repr

inductive SocketField where
  | raftListen
  | clientSubmitListen
  | peer (id : UInt64) (kind : EndpointKind)
  deriving DecidableEq, Repr

/-- The checks of the configuration, with what their messages report. -/
inductive ConfigRejected where
  | peersEmpty
  | vipsEmpty
  | secretFileUnresolved
  | secretRequired
  | secretPlaceholder
  | secretLength
  | secretCharacters
  | commandEmpty
  | intervalZero
  | timeoutZero
  | timeoutLarge
  | electionMinZero
  | electionMaxZero
  | heartbeatZero
  | heartbeatAboveMin (heartbeat min : UInt64)
  | minAboveMax (min max : UInt64)
  | staleBelowInterval (stale intervalSecs : Nat)
  | timeoutAboveStale (timeout : UInt64) (staleMs : Nat)
  | duplicatePeer
  | nodeNotPeer
  | socketAddress (field : SocketField)
  | family (kind : EndpointKind)
  | unspecified (id : UInt64) (kind : EndpointKind)
  | sameEndpoints (id : UInt64)
  | endpointUsed (address : SocketAddr) (otherId : UInt64) (otherKind : EndpointKind)
      (id : UInt64) (kind : EndpointKind)
  | nodeNotPeerAfterValidation
  | listenMismatch (kind : EndpointKind) (listen : SocketAddr) (id : UInt64)
      (advertised : SocketAddr)
  | frameBelowMin
  | frameAboveMax
  | submitTimeoutZero
  | addressProtocolZero
  | vip (rejected : VipRejected)
  deriving DecidableEq, Repr

def parseSocketAddr (field : SocketField) (value : AddressText) :
    Except ConfigRejected SocketAddr :=
  match value with
  | some address => .ok address.canonical
  | none => .error (.socketAddress field)

namespace HealthConfig

/-- The probe interval in seconds, at least one. -/
def intervalSecs (health : HealthConfig) : Nat :=
  max (Word64.divCeil health.intervalMs.toNat 1000) 1

def effectiveStaleSecs (health : HealthConfig) : Nat :=
  match health.staleSecs with
  | some secs => secs.toNat
  | none => max (health.intervalSecs * 3) 3

def effectiveStaleMissedProbes (health : HealthConfig) : Nat :=
  max (min (health.effectiveStaleSecs * 1000 / max health.intervalMs.toNat 1) Word64.maxWord) 1

end HealthConfig

def durationToProbeRoundsCeil (durationSecs intervalMs : Nat) : Nat :=
  if durationSecs = 0 then 0
  else min (Word64.divCeil (durationSecs * 1000) (max intervalMs 1)) Word64.maxWord

/-- What the loop over the peers has checked and rewritten so far. -/
structure PeerScan where
  peers : List PeerConfig
  raftRosterIsIpv4 : Option Bool
  submitRosterIsIpv4 : Option Bool
  endpointOwners : List (SocketAddr × UInt64 × EndpointKind)

namespace PeerScan

/-- The first peer fixes the family of the roster. -/
def checkFamily (kind : EndpointKind) (expected : Option Bool) (address : SocketAddr) :
    Except ConfigRejected (Option Bool) :=
  match expected with
  | some isIpv4 => do
      require (isIpv4 = address.isIpv4) (.family kind)
      pure expected
  | none => pure (some address.isIpv4)

def claimEndpoint (id : UInt64) (kind : EndpointKind) (address : SocketAddr)
    (owners : List (SocketAddr × UInt64 × EndpointKind)) :
    Except ConfigRejected (List (SocketAddr × UInt64 × EndpointKind)) :=
  match owners.lookup address with
  | some (otherId, otherKind) => .error (.endpointUsed address otherId otherKind id kind)
  | none => pure (owners ++ [(address, id, kind)])

def normalizePeer (scan : PeerScan) (peer : PeerConfig) : Except ConfigRejected PeerScan := do
  let raftAddress ← parseSocketAddr (.peer peer.id .raftAddress) peer.raftAddress
  let clientSubmitAddress ←
    parseSocketAddr (.peer peer.id .clientSubmitAddress) peer.clientSubmitAddress
  let raftRosterIsIpv4 ← checkFamily .raftAddress scan.raftRosterIsIpv4 raftAddress
  let submitRosterIsIpv4 ←
    checkFamily .clientSubmitAddress scan.submitRosterIsIpv4 clientSubmitAddress
  require (!raftAddress.ip.isUnspecified) (.unspecified peer.id .raftAddress)
  require (!clientSubmitAddress.ip.isUnspecified) (.unspecified peer.id .clientSubmitAddress)
  require (raftAddress ≠ clientSubmitAddress) (.sameEndpoints peer.id)
  let owners ← claimEndpoint peer.id .raftAddress raftAddress scan.endpointOwners
  let owners ← claimEndpoint peer.id .clientSubmitAddress clientSubmitAddress owners
  pure {
    peers := scan.peers ++ [{ peer with
      raftAddress := some raftAddress, clientSubmitAddress := some clientSubmitAddress }]
    raftRosterIsIpv4 := raftRosterIsIpv4
    submitRosterIsIpv4 := submitRosterIsIpv4
    endpointOwners := owners }

end PeerScan

namespace Config

def insecureClusterSecretPlaceholder : String := "replace-me-with-a-random-32-byte-string"

def minSecretBytes : Nat := 32

def maxSecretBytes : Nat := 256

def maxRaftFrameBytes : Nat := 16 * 1024 * 1024

def getPeer (cfg : Config) (id : UInt64) : Option PeerConfig := cfg.peers.find? (·.id = id)

def effectiveFailbackDelayTicks (cfg : Config) : Nat :=
  durationToProbeRoundsCeil cfg.failbackDelaySecs.toNat cfg.health.intervalMs.toNat

def effectiveFailoverDelayTicks (cfg : Config) : Nat :=
  durationToProbeRoundsCeil cfg.failoverDelaySecs.toNat cfg.health.intervalMs.toNat

/-- The physical ids of the peers. -/
def physicalIds (cfg : Config) : Finset Nat := (cfg.peers.map (·.id.toNat)).toFinset

def validateSecret (cfg : Config) : Except ConfigRejected Unit := do
  require cfg.clusterSecretFile.isNone .secretFileUnresolved
  match cfg.clusterSecret with
  | none => .error .secretRequired
  | some secret => do
      require (secret ∉ [insecureClusterSecretPlaceholder, "lab-shared-secret-please-change"])
        .secretPlaceholder
      require (minSecretBytes ≤ secret.utf8ByteSize && secret.utf8ByteSize ≤ maxSecretBytes)
        .secretLength
      require (!secret.toList.any fun char => isWhitespace char || isControl char)
        .secretCharacters

/-- The probe command and its limit. -/
def checkHealth (health : HealthConfig) : Except ConfigRejected Unit := do
  require (health.command ≠ []) .commandEmpty
  require (0 < health.intervalMs) .intervalZero
  require (0 < health.timeoutMs) .timeoutZero
  require (health.timeoutMs.toNat ≤ Word64.satMul health.intervalMs.toNat 10) .timeoutLarge

def checkRaft (raft : RaftTuneConfig) : Except ConfigRejected Unit := do
  require (0 < raft.electionTimeoutMinMs) .electionMinZero
  require (0 < raft.electionTimeoutMaxMs) .electionMaxZero
  require (0 < raft.heartbeatIntervalMs) .heartbeatZero
  require (raft.heartbeatIntervalMs < raft.electionTimeoutMinMs)
    (.heartbeatAboveMin raft.heartbeatIntervalMs raft.electionTimeoutMinMs)
  require (raft.electionTimeoutMinMs < raft.electionTimeoutMaxMs)
    (.minAboveMax raft.electionTimeoutMinMs raft.electionTimeoutMaxMs)

/-- The stale window against the interval and the probe limit. -/
def checkStale (health : HealthConfig) : Except ConfigRejected Unit := do
  let stale := health.effectiveStaleSecs
  require (health.intervalSecs ≤ stale) (.staleBelowInterval stale health.intervalSecs)
  let staleMs := Word64.satMul health.intervalMs.toNat health.effectiveStaleMissedProbes
  require (health.timeoutMs.toNat < staleMs) (.timeoutAboveStale health.timeoutMs staleMs)

/-- The listen addresses of a node are those that its peer entry advertises. -/
def checkListen (cfg : Config) (raftListen clientSubmitListen : SocketAddr) :
    Except ConfigRejected Unit :=
  match cfg.getPeer cfg.nodeId with
  | none => .error .nodeNotPeerAfterValidation
  | some peer => do
      let raftAddress ← parseSocketAddr (.peer peer.id .raftAddress) peer.raftAddress
      let clientSubmitAddress ←
        parseSocketAddr (.peer peer.id .clientSubmitAddress) peer.clientSubmitAddress
      require (raftListen = raftAddress)
        (.listenMismatch .raftAddress raftListen cfg.nodeId raftAddress)
      require (clientSubmitListen = clientSubmitAddress)
        (.listenMismatch .clientSubmitAddress clientSubmitListen cfg.nodeId clientSubmitAddress)

def normalize (cfg : Config) : Except ConfigRejected Config := do
  require (cfg.peers ≠ []) .peersEmpty
  require (cfg.vips ≠ []) .vipsEmpty
  cfg.validateSecret
  checkHealth cfg.health
  checkRaft cfg.raft
  checkStale cfg.health
  require (cfg.peers.map (·.id)).Nodup .duplicatePeer
  require (cfg.peers.any (·.id = cfg.nodeId)) .nodeNotPeer
  let raftListen ← parseSocketAddr .raftListen cfg.raftListen
  let clientSubmitListen ← parseSocketAddr .clientSubmitListen cfg.clientSubmitListen
  let scan ← cfg.peers.foldlM PeerScan.normalizePeer ⟨[], none, none, []⟩
  let cfg := { cfg with
    raftListen := some raftListen
    clientSubmitListen := some clientSubmitListen
    peers := scan.peers }
  cfg.checkListen raftListen clientSubmitListen
  require (64 * 1024 ≤ cfg.maxFrameBytes.toNat) .frameBelowMin
  require (cfg.maxFrameBytes.toNat ≤ maxRaftFrameBytes) .frameAboveMax
  require (0 < cfg.submitTimeoutMs) .submitTimeoutZero
  require (0 < cfg.addressProtocol) .addressProtocolZero
  let vips ← (normalizeVips cfg.vips).mapError .vip
  pure { cfg with vips := vips }

end Config

/-! ### What an accepted configuration looks like -/

namespace PeerConfig

/-- The peer entry with its addresses rewritten. -/
def canonical (peer : PeerConfig) : PeerConfig :=
  { peer with
    raftAddress := peer.raftAddress.map SocketAddr.canonical
    clientSubmitAddress := peer.clientSubmitAddress.map SocketAddr.canonical }

/-- Both addresses parse. -/
def Parses (peer : PeerConfig) : Prop :=
  peer.raftAddress.isSome ∧ peer.clientSubmitAddress.isSome

end PeerConfig

theorem parseSocketAddr_eq_ok {field : SocketField} {value : AddressText} {address : SocketAddr} :
    parseSocketAddr field value = .ok address ↔ value.map SocketAddr.canonical = some address := by
  cases value <;> simp [parseSocketAddr]

namespace PeerScan

theorem normalizePeer_peers {scan result : PeerScan} {peer : PeerConfig}
    (h : scan.normalizePeer peer = .ok result) :
    result.peers = scan.peers ++ [peer.canonical] ∧ peer.Parses := by
  simp only [normalizePeer, bind_eq_ok, pure_eq_ok, parseSocketAddr_eq_ok] at h
  obtain ⟨raft, hRaft, submit, hSubmit, _, -, _, -, _, -, _, -, _, -, _, -, _, -, rfl⟩ := h
  refine ⟨by rw [PeerConfig.canonical, hRaft, hSubmit], ?_, ?_⟩
  · exact (Option.isSome_map (f := SocketAddr.canonical)).symm.trans (congrArg Option.isSome hRaft)
  · exact (Option.isSome_map (f := SocketAddr.canonical)).symm.trans
      (congrArg Option.isSome hSubmit)

theorem foldlM_normalizePeer {peers : List PeerConfig} {scan result : PeerScan}
    (h : peers.foldlM normalizePeer scan = .ok result) :
    result.peers = scan.peers ++ peers.map PeerConfig.canonical ∧ ∀ peer ∈ peers, peer.Parses := by
  induction peers generalizing scan with
  | nil =>
      obtain rfl : scan = result := by simpa using h
      simp
  | cons peer rest ih =>
      rw [List.foldlM_cons, bind_eq_ok] at h
      obtain ⟨next, hPeer, hRest⟩ := h
      obtain ⟨hPeers, hParses⟩ := normalizePeer_peers hPeer
      obtain ⟨hResult, hAll⟩ := ih hRest
      refine ⟨?_, List.forall_mem_cons.mpr ⟨hParses, hAll⟩⟩
      rw [hResult, hPeers, List.map_cons, List.append_assoc, List.singleton_append]

end PeerScan

namespace Config

/-- What normalisation does to a configuration that it accepts. -/
structure Normalized (cfg result : Config) : Prop where
  nonempty : cfg.peers ≠ []
  peers : result.peers = cfg.peers.map PeerConfig.canonical
  parses : ∀ peer ∈ cfg.peers, peer.Parses
  distinct : (cfg.peers.map (·.id)).Nodup
  vips : normalizeVips cfg.vips = .ok result.vips
  election : 0 < cfg.raft.electionTimeoutMinMs
  settings : result = { cfg with
    raftListen := result.raftListen
    clientSubmitListen := result.clientSubmitListen
    peers := result.peers
    vips := result.vips }

theorem normalize_normalized {cfg result : Config} (h : cfg.normalize = .ok result) :
    cfg.Normalized result := by
  simp only [normalize, checkRaft, bind_eq_ok, pure_eq_ok, mapError_eq_ok, require_eq_ok,
    exists_const] at h
  obtain ⟨hSome, -, _, -, _, -, ⟨hElection, -⟩, _, -, hDistinct, -, raft, -, submit, -, scan, hScan,
    _, -, -, -, -, -, vips, hVips, rfl⟩ := h
  obtain ⟨hPeers, hParses⟩ := PeerScan.foldlM_normalizePeer hScan
  exact ⟨of_decide_eq_true hSome, hPeers, hParses, of_decide_eq_true hDistinct, hVips,
    of_decide_eq_true hElection, rfl⟩

theorem Normalized.ids {cfg result : Config} (h : cfg.Normalized result) :
    result.peers.map (·.id) = cfg.peers.map (·.id) := by
  rw [h.peers, List.map_map]
  rfl

end Config

/-- A configuration that normalisation has accepted. -/
structure AcceptedConfig where
  file : Config
  cfg : Config
  accepted : file.normalize = .ok cfg

theorem AcceptedConfig.normalized (config : AcceptedConfig) : config.file.Normalized config.cfg :=
  Config.normalize_normalized config.accepted

/-- A cluster of `count` peers on one network. -/
def networkConfig (count : Nat) : Config where
  nodeId := 1
  raftListen := some (.v4 0x0A000001 7000)
  clientSubmitListen := some (.v4 0x0A000001 7001)
  peers := (List.range count).map fun index =>
    ⟨.ofNat (index + 1), some (.v4 (0x0A000001 + .ofNat 32 index) 7000),
      some (.v4 (0x0A000001 + .ofNat 32 index) 7001)⟩
  vips := [⟨⟨.v4 0x0A000101, 24⟩, "eth0", none⟩]
  health := ⟨["/bin/true"], 1000, 500, none⟩
  raft := ⟨400, 800, 250⟩
  clusterSecret := some "one-network-shared-key-0123456789"
  clusterSecretFile := none
  maxFrameBytes := 4194304
  submitTimeoutMs := 2000
  addressProtocol := 246
  failoverDelaySecs := 0
  failback := true
  failbackDelaySecs := 10

theorem networkConfig_accepted : (networkConfig 3).normalize = .ok (networkConfig 3) := by
  decide +kernel

/-- Three peers that normalisation accepts as they are. -/
def acceptedNetwork : AcceptedConfig := ⟨networkConfig 3, networkConfig 3, networkConfig_accepted⟩

end KeepAfloat.ConfigFile
