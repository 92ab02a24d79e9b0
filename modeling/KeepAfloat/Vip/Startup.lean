import KeepAfloat.Vip.Ownership

/-! Startup reclamation of the addresses left behind by a previous process. Each target is
deleted with one prefix from one interface. A delete that fails is accepted if the address is on
no interface, and a delete that succeeds is not looked at again. -/

/-! ### Changes of the kernel -/

namespace KeepAfloat.Ownership

def Link.detach (link : Link) (target : Target) : Link :=
  if link.name = target.2 then
    { link with addresses := link.addresses.filter fun attached => attached.vip ≠ target.1 }
  else link

def Kernel.detach (kernel : Kernel) (target : Target) : Kernel :=
  { kernel with links := kernel.links.map fun link => link.detach target }

/-- `ip addr del` -/
def Kernel.deleteAddress (kernel : Kernel) (target : Target) : Option Kernel :=
  if target ∈ kernel.attachments then some (kernel.detach target) else none

/-- `ip addr show to` -/
def Kernel.present (kernel : Kernel) (address : IpAddr) : Bool :=
  kernel.attachments.any fun target => target.1.addr == address

/-- `ip route del` -/
def Kernel.deleteRoute (kernel : Kernel) (route : Route) : Option Kernel :=
  if route ∈ kernel.routes then
    some { kernel with routes := kernel.routes.filter fun other => other ≠ route }
  else none

theorem mem_attachments {kernel : Kernel} {target : Target} :
    target ∈ kernel.attachments ↔ ∃ link ∈ kernel.links, ∃ attached ∈ link.addresses,
      attached.vip = target.1 ∧ link.name = target.2 := by
  simp only [Kernel.attachments, Kernel.entries, List.mem_map, List.mem_flatMap]
  constructor
  · rintro ⟨_, ⟨link, hLink, attached, hAttached, rfl⟩, rfl⟩
    exact ⟨link, hLink, attached, hAttached, rfl, rfl⟩
  · rintro ⟨link, hLink, attached, hAttached, hVip, hName⟩
    exact ⟨_, ⟨link, hLink, attached, hAttached, rfl⟩, Prod.ext hVip hName⟩

theorem Kernel.present_iff {kernel : Kernel} {address : IpAddr} :
    kernel.present address = true ↔ ∃ target ∈ kernel.attachments, target.1.addr = address := by
  simp [Kernel.present]

/-- A delete takes the named attachment and nothing else. -/
theorem mem_attachments_detach {kernel : Kernel} {target other : Target} :
    other ∈ (kernel.detach target).attachments ↔
      other ∈ kernel.attachments ∧ other ≠ target := by
  have hLink : ∀ (link : Link) (attached : Attached),
      (attached ∈ (link.detach target).addresses ∧ attached.vip = other.1 ∧
        (link.detach target).name = other.2) ↔
      (attached ∈ link.addresses ∧ attached.vip = other.1 ∧ link.name = other.2) ∧
        other ≠ target := by
    intro link attached
    rw [Link.detach, Ne, Prod.ext_iff]
    by_cases hName : link.name = target.2
    · simp only [hName, if_true, List.mem_filter, decide_eq_true_eq]
      constructor
      · rintro ⟨⟨hMem, hVip⟩, hOther, hInterface⟩
        exact ⟨⟨hMem, hOther, hInterface⟩, fun hSame => hVip (hOther.trans hSame.1)⟩
      · rintro ⟨⟨hMem, hOther, hInterface⟩, hApart⟩
        exact ⟨⟨hMem, fun hVip => hApart ⟨hOther.symm.trans hVip, hInterface.symm⟩⟩, hOther,
          hInterface⟩
    · simp only [hName, if_false]
      constructor
      · rintro ⟨hMem, hOther, hInterface⟩
        exact ⟨⟨hMem, hOther, hInterface⟩, fun hSame => hName (hInterface.trans hSame.2)⟩
      · exact And.left
  simp only [mem_attachments, Kernel.detach, List.mem_map, exists_exists_and_eq_and, hLink]
  constructor
  · rintro ⟨link, hMem, attached, hAttached, hApart⟩
    exact ⟨⟨link, hMem, attached, hAttached⟩, hApart⟩
  · rintro ⟨⟨link, hMem, attached, hAttached⟩, hApart⟩
    exact ⟨link, hMem, attached, hAttached, hApart⟩

end KeepAfloat.Ownership

namespace KeepAfloat.Startup

open Std (ExtTreeMap)
open Checks (require demand bind_eq_ok pure_eq_ok require_eq_ok demand_eq_ok)
open Ownership

/-! ### Commands -/

/-- How a command ends: as the kernel answers it, with a failure status and no effect, or with
an error of the spawn or of the deadline. -/
inductive CommandFate where
  | answered
  | refused
  | failed
  deriving DecidableEq

/-- The fates of the commands in the order in which they are run. -/
structure Runner where
  format : Format
  fate : Nat → CommandFate

structure Host where
  kernel : Kernel
  commands : Nat

inductive CleanupError where
  | discoverySpawn (subject : String)
  | discoveryStatus (subject : String)
  | discovery (reason : DiscoveryError)
  | deleteSpawn (target : Target)
  | probeSpawn (address : IpAddr)
  | probeStatus (address : IpAddr)
  | stillPresent (address : IpAddr)
  | markerSpawn (address : IpAddr)
  | markerProbeSpawn (address : IpAddr)
  | markerProbeStatus (address : IpAddr)
  | markerProbe (address : IpAddr) (reason : DiscoveryError)
  | markerPresent (address : IpAddr)
  deriving DecidableEq

def Host.ran (host : Host) (kernel : Kernel) : Host := ⟨kernel, host.commands + 1⟩

namespace Runner

/-- A command that changes the kernel, with the success of its exit. -/
def status (runner : Runner) (host : Host) (effect : Kernel → Option Kernel) (spawn : CleanupError) :
    Except CleanupError (Bool × Host) :=
  match runner.fate host.commands with
  | .answered =>
      match effect host.kernel with
      | some kernel => pure (true, host.ran kernel)
      | none => pure (false, host.ran host.kernel)
  | .refused => pure (false, host.ran host.kernel)
  | .failed => throw spawn

/-- A command that reads the kernel, with its output if it exits with success. -/
def output {Answer : Type} (runner : Runner) (host : Host) (read : Kernel → Answer)
    (spawn : CleanupError) : Except CleanupError (Option Answer × Host) :=
  match runner.fate host.commands with
  | .answered => pure (some (read host.kernel), host.ran host.kernel)
  | .refused => pure (none, host.ran host.kernel)
  | .failed => throw spawn

end Runner

/-! ### The cleanup -/

section Cleanup

variable (runner : Runner) (addressProtocol : UInt8)

def discoverOwnedAddresses (host : Host) : Except CleanupError (OwnershipDiscovery × Host) := do
  let (addresses, host) ← runner.output host (Kernel.addrShow runner.format)
    (.discoverySpawn "addresses")
  let (ipv4, host) ← runner.output host (Kernel.routeShow runner.format false)
    (.discoverySpawn "IPv4 marker routes")
  let (ipv6, host) ← runner.output host (Kernel.routeShow runner.format true)
    (.discoverySpawn "IPv6 marker routes")
  let addresses ← demand addresses (.discoveryStatus "addresses")
  let ipv4 ← demand ipv4 (.discoveryStatus "IPv4 marker routes")
  let ipv6 ← demand ipv6 (.discoveryStatus "IPv6 marker routes")
  let found ← (parseOwnershipDiscovery addresses ipv4 ipv6 addressProtocol).mapError .discovery
  pure (found, host)

def ensureFailedDeleteIsAbsent (address : IpAddr) (host : Host) : Except CleanupError Host := do
  let (probe, host) ← runner.output host (·.present address) (.probeSpawn address)
  let present ← demand probe (.probeStatus address)
  require (!present) (.stillPresent address)
  pure host

def verifyDeleteResult (address : IpAddr) (success : Bool) (host : Host) :
    Except CleanupError Host :=
  if success then pure host else ensureFailedDeleteIsAbsent runner address host

def reclaim (host : Host) (target : Target) : Except CleanupError Host := do
  let (success, host) ← runner.status host (·.deleteAddress target) (.deleteSpawn target)
  verifyDeleteResult runner target.1.addr success host

def ensureFailedMarkerDeleteIsAbsent (address : IpAddr) (host : Host) :
    Except CleanupError Host := do
  let (probe, host) ← runner.output host (Kernel.routeShow runner.format (!address.isIpv4))
    (.markerProbeSpawn address)
  let routes ← demand probe (.markerProbeStatus address)
  let markers ← (parseMarkerRoutes routes addressProtocol (!address.isIpv4)).mapError
    (.markerProbe address)
  require (address ∉ markers) (.markerPresent address)
  pure host

def deleteMarker (host : Host) (address : IpAddr) : Except CleanupError Host := do
  let (success, host) ← runner.status host
    (·.deleteRoute (markerRoute addressProtocol address)) (.markerSpawn address)
  if success then pure host
  else ensureFailedMarkerDeleteIsAbsent runner addressProtocol address host

def startupCleanup (dryRun : Bool) (vips : List Target) (kernel : Kernel) :
    Except CleanupError Host :=
  if dryRun then pure ⟨kernel, 0⟩
  else do
    let (found, host) ← discoverOwnedAddresses runner addressProtocol ⟨kernel, 0⟩
    let host ← (mergeCleanupTargets vips found.addresses).foldlM (reclaim runner) host
    found.markerRoutes.foldlM (deleteMarker runner addressProtocol) host

end Cleanup

/-! ### What a step does to the kernel -/

/-- A target that a cleanup gets past: it is attached, or its address is on no interface. -/
def Reclaimable (kernel : Kernel) (target : Target) : Prop :=
  target ∈ kernel.attachments ∨ ∀ other ∈ kernel.attachments, other.1.addr ≠ target.1.addr

/-- The target is gone, and nothing else has changed. -/
structure Reclaims (target : Target) (before after : Kernel) : Prop where
  reclaimable : Reclaimable before target
  attachments : ∀ other, other ∈ after.attachments ↔ other ∈ before.attachments ∧ other ≠ target
  routes : after.routes = before.routes

theorem reclaims_detach {kernel : Kernel} {target : Target} (h : target ∈ kernel.attachments) :
    Reclaims target kernel (kernel.detach target) :=
  ⟨.inl h, fun _ => mem_attachments_detach, rfl⟩

theorem reclaims_absent {kernel : Kernel} {target : Target}
    (h : ∀ other ∈ kernel.attachments, other.1.addr ≠ target.1.addr) :
    Reclaims target kernel kernel where
  reclaimable := .inr h
  attachments _ := ⟨fun hOther => ⟨hOther, fun hSame => h _ hOther (hSame ▸ rfl)⟩, And.left⟩
  routes := rfl

/-- Routes are taken away, and the addresses are left alone. -/
structure Unmarks (before after : Host) : Prop where
  attachments : after.kernel.attachments = before.kernel.attachments
  routes : after.kernel.routes ⊆ before.kernel.routes

theorem Unmarks.of_eq {before after : Host} (h : after.kernel = before.kernel) :
    Unmarks before after := by
  constructor
  · rw [h]
  · rw [h]
    exact List.Subset.refl _

theorem Unmarks.trans {first second third : Host} (hFirst : Unmarks first second)
    (hSecond : Unmarks second third) : Unmarks first third :=
  ⟨hSecond.attachments.trans hFirst.attachments,
    List.Subset.trans hSecond.routes hFirst.routes⟩

section Steps

variable {runner : Runner} {addressProtocol : UInt8} {host after : Host}

theorem status_cases {effect : Kernel → Option Kernel} {spawn : CleanupError} {success : Bool}
    (h : runner.status host effect spawn = .ok (success, after)) :
    (success = true ∧ effect host.kernel = some after.kernel) ∨
      (success = false ∧ after.kernel = host.kernel) := by
  rw [Runner.status] at h
  split at h
  · split at h
    · next kernel hEffect =>
        cases h
        exact .inl ⟨rfl, hEffect⟩
    · cases h
      exact .inr ⟨rfl, rfl⟩
  · cases h
    exact .inr ⟨rfl, rfl⟩
  · cases h

theorem output_cases {Answer : Type} {read : Kernel → Answer} {spawn : CleanupError}
    {answer : Option Answer} (h : runner.output host read spawn = .ok (answer, after)) :
    after.kernel = host.kernel ∧ (answer = some (read host.kernel) ∨ answer = none) := by
  rw [Runner.output] at h
  split at h
  · cases h
    exact ⟨rfl, .inl rfl⟩
  · cases h
    exact ⟨rfl, .inr rfl⟩
  · cases h

theorem reclaim_spec {target : Target} (h : reclaim runner host target = .ok after) :
    Reclaims target host.kernel after.kernel := by
  rw [reclaim, bind_eq_ok] at h
  obtain ⟨⟨success, next⟩, hStatus, hVerify⟩ := h
  rcases status_cases hStatus with ⟨rfl, hEffect⟩ | ⟨rfl, hSame⟩
  · simp only [verifyDeleteResult, if_true, pure_eq_ok] at hVerify
    subst hVerify
    rw [Kernel.deleteAddress] at hEffect
    split at hEffect
    · next hMem =>
        rw [← Option.some.inj hEffect]
        exact reclaims_detach hMem
    · cases hEffect
  · simp only [verifyDeleteResult, Bool.false_eq_true, if_false, ensureFailedDeleteIsAbsent,
      bind_eq_ok, demand_eq_ok, require_eq_ok, pure_eq_ok] at hVerify
    obtain ⟨⟨probe, last⟩, hProbe, present, rfl, -, hAbsent, rfl⟩ := hVerify
    obtain ⟨hKernel, hAnswer | hAnswer⟩ := output_cases hProbe
    · rw [hKernel.trans hSame]
      refine reclaims_absent fun other hOther hAddress => ?_
      have hPresent : host.kernel.present target.1.addr = true :=
        Kernel.present_iff.mpr ⟨other, hOther, hAddress⟩
      rw [← hSame] at hPresent
      rw [Option.some.inj hAnswer, hPresent] at hAbsent
      cases hAbsent
    · cases hAnswer

theorem markerRoute_ownedBy (address : IpAddr) :
    (markerRoute addressProtocol address).OwnedBy addressProtocol := by
  have hSmall := addressProtocol.toNat_lt
  refine ⟨?_, rfl⟩
  simp only [markerRoute, markerRouteTable, markerRouteTableBase, UInt32.toNat_ofNat']
  omega

theorem eq_markerRoute {routes : List Route} (hMarks : MarksOnly addressProtocol routes)
    {route : Route} (hRoute : route ∈ routes) (hOwned : route.OwnedBy addressProtocol) :
    route = markerRoute addressProtocol route.address := by
  obtain ⟨hThrow, hHost⟩ := hMarks route hRoute hOwned
  have hTable : route.table = (markerRoute addressProtocol route.address).table :=
    UInt32.toNat_inj.mp (hOwned.1.trans (markerRoute_ownedBy route.address).1.symm)
  rcases route with ⟨address, prefixLen, table, protocol, kind⟩
  simp only [markerRoute, Route.mk.injEq, true_and] at hTable ⊢
  exact ⟨hHost, hTable, hOwned.2, hThrow⟩

/-- A marker that is deleted is gone. -/
theorem deleteMarker_spec {address : IpAddr}
    (h : deleteMarker runner addressProtocol host address = .ok after) :
    Unmarks host after ∧ markerRoute addressProtocol address ∉ after.kernel.routes := by
  rw [deleteMarker, bind_eq_ok] at h
  obtain ⟨⟨success, next⟩, hStatus, hVerify⟩ := h
  rcases status_cases hStatus with ⟨rfl, hEffect⟩ | ⟨rfl, hSame⟩
  · simp only [if_true, pure_eq_ok] at hVerify
    subst hVerify
    rw [Kernel.deleteRoute] at hEffect
    split at hEffect
    · have hKernel := (Option.some.inj hEffect).symm
      refine ⟨⟨?_, ?_⟩, ?_⟩
      · rw [hKernel]
        rfl
      · rw [hKernel]
        exact List.filter_subset_self _
      · rw [hKernel]
        simp
    · cases hEffect
  · simp only [Bool.false_eq_true, if_false, ensureFailedMarkerDeleteIsAbsent, bind_eq_ok,
      demand_eq_ok, require_eq_ok, pure_eq_ok, Checks.mapError_eq_ok, decide_eq_true_eq] at hVerify
    obtain ⟨⟨probe, last⟩, hProbe, routes, rfl, markers, hParse, -, hAbsent, rfl⟩ := hVerify
    obtain ⟨hKernel, hAnswer | hAnswer⟩ := output_cases hProbe
    · have hLast := hKernel.trans hSame
      refine ⟨Unmarks.of_eq hLast, ?_⟩
      rw [hLast]
      intro hMarker
      rw [Option.some.inj hAnswer, hSame, Kernel.parseMarkerRoutes_routeShow] at hParse
      refine hAbsent ((mem_of_parse runner.format addressProtocol
        (fun route hRoute => (host.kernel.mem_family.mp hRoute).2) hParse.2 address).mpr ?_)
      exact ⟨_, host.kernel.mem_family.mpr ⟨hMarker, rfl⟩, markerRoute_ownedBy address, rfl⟩
    · cases hAnswer

theorem discoverOwnedAddresses_spec {found : OwnershipDiscovery}
    (h : discoverOwnedAddresses runner addressProtocol host = .ok (found, after)) :
    after.kernel = host.kernel ∧ host.kernel.discover runner.format addressProtocol = .ok found := by
  simp only [discoverOwnedAddresses, bind_eq_ok, demand_eq_ok, Checks.mapError_eq_ok, pure_eq_ok,
    Prod.mk.injEq] at h
  obtain ⟨⟨_, first⟩, hAddresses, ⟨_, second⟩, hIpv4, ⟨_, third⟩, hIpv6, addresses, rfl, ipv4, rfl,
    ipv6, rfl, _, hParse, rfl, rfl⟩ := h
  obtain ⟨hFirst, hListed⟩ := output_cases hAddresses
  obtain ⟨hSecond, hRoutes4⟩ := output_cases hIpv4
  obtain ⟨hThird, hRoutes6⟩ := output_cases hIpv6
  have hSecondHost := hSecond.trans hFirst
  refine ⟨hThird.trans hSecondHost, ?_⟩
  rcases hListed with hListed | hListed
  · rcases hRoutes4 with hRoutes4 | hRoutes4
    · rcases hRoutes6 with hRoutes6 | hRoutes6
      · cases hListed
        cases hRoutes4
        cases hRoutes6
        rw [hFirst, hSecondHost] at hParse
        exact hParse
      · cases hRoutes6
    · cases hRoutes4
  · cases hListed

end Steps

/-! ### The targets -/

section Targets

variable (configured discovered : List Target)

theorem mergeCleanupTargets_eq :
    mergeCleanupTargets configured discovered =
      ((configured ++ discovered).foldl store ∅).values := by
  rw [mergeCleanupTargets, List.foldl_append]

variable {configured discovered}

theorem mem_mergeCleanupTargets {target : Target} :
    target ∈ mergeCleanupTargets configured discovered ↔
      ((configured ++ discovered).foldl store ∅)[target.key]? = some target := by
  rw [mergeCleanupTargets_eq, Maps.mem_values]
  constructor
  · rintro ⟨key, hFound⟩
    obtain ⟨-, rfl⟩ := (indexes_foldl_store _).sound hFound
    exact hFound
  · exact fun hFound => ⟨_, hFound⟩

theorem exists_mem_merge {target : Target} (h : target ∈ configured ++ discovered) :
    ∃ kept ∈ mergeCleanupTargets configured discovered, kept.key = target.key := by
  obtain ⟨kept, hKept⟩ := (indexes_foldl_store (configured ++ discovered)).complete h
  obtain ⟨-, hKey⟩ := (indexes_foldl_store _).sound hKept
  exact ⟨kept, mem_mergeCleanupTargets.mpr (hKey ▸ hKept), hKey⟩

/-- Discovery has the last word. -/
theorem mem_discovered_of_merge {kept target : Target}
    (h : kept ∈ mergeCleanupTargets configured discovered) (hTarget : target ∈ discovered)
    (hKey : kept.key = target.key) : kept ∈ discovered := by
  rw [mem_mergeCleanupTargets, List.foldl_append, getElem?_foldl_store] at h
  have hSome : (discovered.reverse.find? fun other => other.key = kept.key).isSome := by
    rw [List.find?_isSome]
    exact ⟨target, List.mem_reverse.mpr hTarget, decide_eq_true hKey.symm⟩
  obtain ⟨found, hFound⟩ := Option.isSome_iff_exists.mp hSome
  rw [hFound, Option.some_or] at h
  cases h
  exact List.mem_reverse.mp (List.mem_of_find?_eq_some hFound)

theorem pairwise_merge :
    (mergeCleanupTargets configured discovered).Pairwise fun first second =>
      first.key < second.key := by
  rw [mergeCleanupTargets_eq, Maps.values_eq, List.pairwise_map]
  refine ExtTreeMap.ordered_keys_toList.imp_of_mem ?_
  intro first second hFirst hSecond hLt
  rw [ExtTreeMap.mem_toList_iff_getElem?_eq_some] at hFirst hSecond
  rw [((indexes_foldl_store _).sound hFirst).2, ((indexes_foldl_store _).sound hSecond).2]
  exact compare_lt_iff_lt.mp hLt

end Targets

/-! ### The targets in their turn -/

/-- Each target is attached, or what is attached of its address are targets before it. -/
def InTurn (targets : List Target) (kernel : Kernel) : Prop :=
  ∀ target ∈ targets, target ∈ kernel.attachments ∨
    ∀ other ∈ kernel.attachments, other.1.addr = target.1.addr →
      other ∈ targets ∧ other.key < target.key

section Turns

variable {runner : Runner} {targets : List Target}
  (hSorted : targets.Pairwise fun first second => first.key < second.key)

theorem inTurn_cons {target : Target} {kernel next : Kernel}
    (hSorted : (target :: targets).Pairwise fun first second => first.key < second.key)
    (hNext : ∀ other, other ∈ next.attachments ↔ other ∈ kernel.attachments ∧ other ≠ target) :
    InTurn (target :: targets) kernel ↔ Reclaimable kernel target ∧ InTurn targets next := by
  have hFirst := (List.pairwise_cons.mp hSorted).1
  rw [InTurn, List.forall_mem_cons]
  refine and_congr (or_congr_right (forall₂_congr fun other _ => imp_congr_right fun _ => ?_))
    (forall₂_congr fun later hLater => or_congr ?_ ⟨fun h other hOther hAddress => ?_,
      fun h other hOther hAddress => ?_⟩)
  · rw [iff_false, List.mem_cons]
    rintro ⟨rfl | hRest, hBefore⟩
    · exact lt_irrefl _ hBefore
    · exact lt_asymm hBefore (hFirst other hRest)
  · rw [hNext, iff_self_and]
    exact fun _ hSame => lt_irrefl _ (hSame ▸ hFirst later hLater)
  · obtain ⟨hThere, hOthers⟩ := (hNext other).mp hOther
    obtain ⟨hMem, hBefore⟩ := h other hThere hAddress
    exact ⟨(List.mem_cons.mp hMem).resolve_left hOthers, hBefore⟩
  · by_cases hSame : other = target
    · exact ⟨hSame ▸ List.mem_cons_self, hSame ▸ hFirst later hLater⟩
    · obtain ⟨hMem, hBefore⟩ := h other ((hNext other).mpr ⟨hOther, hSame⟩) hAddress
      exact ⟨List.mem_cons_of_mem _ hMem, hBefore⟩

include hSorted

/-- A cleanup takes its targets and nothing else. -/
theorem foldlM_reclaim_spec {host after : Host}
    (h : targets.foldlM (reclaim runner) host = .ok after) :
    InTurn targets host.kernel ∧ after.kernel.routes = host.kernel.routes ∧
      ∀ other, other ∈ after.kernel.attachments ↔
        other ∈ host.kernel.attachments ∧ other ∉ targets := by
  induction targets generalizing host with
  | nil =>
      cases h
      exact ⟨fun _ hTarget => (nomatch hTarget), rfl, fun _ => by simp⟩
  | cons target rest ih =>
      rw [List.foldlM_cons, bind_eq_ok] at h
      obtain ⟨next, hNext, hRest⟩ := h
      have hStep := reclaim_spec hNext
      obtain ⟨hTurn, hRoutes, hLeft⟩ := ih (List.pairwise_cons.mp hSorted).2 hRest
      refine ⟨(inTurn_cons hSorted hStep.attachments).mpr ⟨hStep.reclaimable, hTurn⟩,
        hRoutes.trans hStep.routes, fun other => ?_⟩
      rw [hLeft, hStep.attachments, List.mem_cons, not_or, and_assoc]

end Turns

/-! ### What a cleanup that succeeds leaves -/

section Runs

variable {runner : Runner} {addressProtocol : UInt8} {vips : List Target} {kernel : Kernel}

/-- What a cleanup that succeeds has done: it took the targets that were attached, and the
markers. -/
structure Cleaned (format : Format) (addressProtocol : UInt8) (vips : List Target)
    (kernel : Kernel) (found : OwnershipDiscovery) (host : Host) : Prop where
  discovers : kernel.discover format addressProtocol = .ok found
  inTurn : InTurn (mergeCleanupTargets vips found.addresses) kernel
  attachments : ∀ other, other ∈ host.kernel.attachments ↔
    other ∈ kernel.attachments ∧ other ∉ mergeCleanupTargets vips found.addresses
  unmarked : ∀ route ∈ host.kernel.routes, ¬ route.OwnedBy addressProtocol

theorem exists_cleaned {host : Host}
    (h : startupCleanup runner addressProtocol false vips kernel = .ok host) :
    ∃ found, Cleaned runner.format addressProtocol vips kernel found host := by
  simp only [startupCleanup, Bool.false_eq_true, if_false, bind_eq_ok] at h
  obtain ⟨⟨found, start⟩, hFound, reclaimed, hReclaimed, hMarkers⟩ := h
  obtain ⟨hStart, hDiscover⟩ := discoverOwnedAddresses_spec hFound
  obtain rfl : start.kernel = kernel := hStart
  obtain ⟨hTurn, hSame, hLeft⟩ := foldlM_reclaim_spec pairwise_merge hReclaimed
  obtain ⟨hUnmarks, hMarker⟩ := Checks.foldlM_visits (fun _ => Unmarks.of_eq rfl) Unmarks.trans
    (fun _ hStep => (deleteMarker_spec hStep).1) hMarkers
  have hFinds := (start.kernel.discover_spec runner.format addressProtocol hDiscover).2
  refine ⟨found, hDiscover, hTurn, fun other => ?_, fun route hRoute hOwned => ?_⟩
  · rw [hUnmarks.attachments, hLeft]
  · have hBefore := hUnmarks.routes hRoute
    rw [hSame] at hBefore
    obtain ⟨before, after, hStep, -, hAfter⟩ := hMarker route.address
      ((hFinds.routes _).mpr ⟨route, hBefore, hOwned, rfl⟩)
    have hGone := (deleteMarker_spec hStep).2
    rw [← eq_markerRoute hFinds.inert hBefore hOwned] at hGone
    exact hGone (hAfter.routes hRoute)

/-! ### When a cleanup succeeds -/

section Answered

variable (hFate : ∀ command, runner.fate command = .answered)

include hFate

theorem status_answered (host : Host) (effect : Kernel → Option Kernel) (spawn : CleanupError) :
    runner.status host effect spawn =
      .ok ((effect host.kernel).isSome, host.ran ((effect host.kernel).getD host.kernel)) := by
  rw [Runner.status, hFate]
  cases effect host.kernel <;> rfl

theorem output_answered {Answer : Type} (host : Host) (read : Kernel → Answer)
    (spawn : CleanupError) :
    runner.output host read spawn = .ok (some (read host.kernel), host.ran host.kernel) := by
  rw [Runner.output, hFate]
  rfl

theorem exists_reclaim {host : Host} {target : Target} (h : Reclaimable host.kernel target) :
    ∃ after, reclaim runner host target = .ok after := by
  rw [reclaim, status_answered hFate]
  by_cases hThere : target ∈ host.kernel.attachments
  · simp only [Kernel.deleteAddress, hThere, if_true]
    exact ⟨_, rfl⟩
  · have hAbsent : host.kernel.present target.1.addr = false := by
      rw [← Bool.not_eq_true, Kernel.present_iff]
      rintro ⟨other, hOther, hAddress⟩
      exact h.resolve_left hThere other hOther hAddress
    simp only [Kernel.deleteAddress, hThere, if_false, bind, Except.bind, Option.isSome_none,
      Option.getD_none, verifyDeleteResult, Bool.false_eq_true, ensureFailedDeleteIsAbsent,
      output_answered hFate, Host.ran, hAbsent]
    exact ⟨_, rfl⟩

theorem exists_foldlM_reclaim {targets : List Target} {host : Host}
    (hSorted : targets.Pairwise fun first second => first.key < second.key)
    (hTurn : InTurn targets host.kernel) :
    ∃ after, targets.foldlM (reclaim runner) host = .ok after := by
  induction targets generalizing host with
  | nil => exact ⟨host, rfl⟩
  | cons target rest ih =>
      obtain ⟨hHead, -⟩ := (inTurn_cons hSorted fun _ => mem_attachments_detach).mp hTurn
      obtain ⟨next, hNext⟩ := exists_reclaim hFate hHead
      obtain ⟨-, hRest⟩ := (inTurn_cons hSorted (reclaim_spec hNext).attachments).mp hTurn
      obtain ⟨last, hLast⟩ := ih (List.pairwise_cons.mp hSorted).2 hRest
      exact ⟨last, by rw [List.foldlM_cons, hNext]; exact hLast⟩

/-- Markers that are there are deleted one after the other. -/
theorem exists_foldlM_deleteMarker {addresses : List IpAddr} {host : Host}
    (hDistinct : addresses.Nodup)
    (hThere : ∀ address ∈ addresses, markerRoute addressProtocol address ∈ host.kernel.routes) :
    ∃ after, addresses.foldlM (deleteMarker runner addressProtocol) host = .ok after := by
  induction addresses generalizing host with
  | nil => exact ⟨host, rfl⟩
  | cons address rest ih =>
      obtain ⟨hApart, hRest⟩ := List.nodup_cons.mp hDistinct
      let routes := host.kernel.routes.filter fun route => route ≠ markerRoute addressProtocol address
      have hFirst : deleteMarker runner addressProtocol host address =
          .ok (host.ran { host.kernel with routes := routes }) := by
        rw [deleteMarker, status_answered hFate]
        simp only [Kernel.deleteRoute, hThere address List.mem_cons_self, if_true]
        rfl
      have hLater : ∀ other ∈ rest, markerRoute addressProtocol other ∈
          (host.ran { host.kernel with routes := routes }).kernel.routes := by
        intro other hOther
        refine List.mem_filter.mpr ⟨hThere other (List.mem_cons_of_mem _ hOther), ?_⟩
        rw [decide_eq_true_eq]
        intro hSame
        have hAddress : other = address := congrArg Route.address hSame
        exact hApart (hAddress ▸ hOther)
      obtain ⟨last, hLast⟩ := ih hRest hLater
      exact ⟨last, by rw [List.foldlM_cons, hFirst]; exact hLast⟩

/-- With commands that work, a cleanup succeeds if discovery does and the targets come in their
turn. -/
theorem exists_startupCleanup {found : OwnershipDiscovery}
    (hDiscover : kernel.discover runner.format addressProtocol = .ok found)
    (hTurn : InTurn (mergeCleanupTargets vips found.addresses) kernel) :
    ∃ host, startupCleanup runner addressProtocol false vips kernel = .ok host := by
  have hFinds := (kernel.discover_spec runner.format addressProtocol hDiscover).2
  have hFound : discoverOwnedAddresses runner addressProtocol ⟨kernel, 0⟩ =
      .ok (found, ⟨kernel, 3⟩) := by
    rw [Kernel.discover] at hDiscover
    simp only [discoverOwnedAddresses, output_answered hFate, bind, Except.bind, demand, Host.ran,
      hDiscover, Checks.mapError_ok]
    rfl
  have hStart : InTurn (mergeCleanupTargets vips found.addresses) (⟨kernel, 3⟩ : Host).kernel := hTurn
  obtain ⟨reclaimed, hReclaimed⟩ := exists_foldlM_reclaim hFate pairwise_merge hStart
  have hSame := (foldlM_reclaim_spec pairwise_merge hReclaimed).2.1
  have hThere : ∀ address ∈ found.markerRoutes,
      markerRoute addressProtocol address ∈ reclaimed.kernel.routes := by
    intro address hAddress
    obtain ⟨route, hRoute, hOwned, rfl⟩ := (hFinds.routes address).mp hAddress
    rw [hSame, ← eq_markerRoute hFinds.inert hRoute hOwned]
    exact hRoute
  obtain ⟨host, hHost⟩ := exists_foldlM_deleteMarker hFate hFinds.distinct hThere
  refine ⟨host, ?_⟩
  simp only [startupCleanup, Bool.false_eq_true, if_false, hFound, bind, Except.bind]
  rw [hReclaimed]
  exact hHost

end Answered

/-! ### Soundness -/

/-- The address is configured on its interface, or it belongs to the instance. -/
def Covered (addressProtocol : UInt8) (vips : List Target) (kernel : Kernel) (target : Target) :
    Prop :=
  (∃ vip ∈ vips, vip.key = target.key) ∨ kernel.Marked addressProtocol target.1.addr

/-- Every attached address that is configured or marked is a crash orphan: it is marked, and it
has one prefix on one interface. -/
structure CrashOrphans (addressProtocol : UInt8) (vips : List Target) (kernel : Kernel) : Prop where
  marked : ∀ target ∈ kernel.attachments,
    (∃ vip ∈ vips, vip.1.addr = target.1.addr) → kernel.Marked addressProtocol target.1.addr
  single : ∀ first ∈ kernel.attachments, ∀ second ∈ kernel.attachments,
    first.1.addr = second.1.addr → kernel.Marked addressProtocol first.1.addr → first = second
  inert : MarksOnly addressProtocol kernel.routes

namespace CrashOrphans

variable (h : CrashOrphans addressProtocol vips kernel) {found : OwnershipDiscovery}
  (hFinds : Discovers kernel addressProtocol found)

include h

include hFinds

/-- An orphan is a target. -/
theorem mem_targets {target : Target} (hTarget : target ∈ kernel.attachments)
    (hMarked : kernel.Marked addressProtocol target.1.addr) :
    target ∈ mergeCleanupTargets vips found.addresses := by
  have hSame : ∀ known ∈ found.addresses, known.key = target.key → known = target := by
    intro known hKnown hKey
    have hAddress : known.1.addr = target.1.addr := congrArg TargetKey.address hKey
    exact h.single known (hFinds.attached known hKnown).1 target hTarget hAddress
      (hAddress ▸ hMarked)
  obtain ⟨known, hKnown, hKey⟩ : ∃ known ∈ found.addresses, known.key = target.key := by
    rcases hMarked with hRoute | ⟨entry, hEntry, hProtocol, hAddress⟩
    · exact hFinds.marked target hTarget ((hFinds.routes _).mpr hRoute)
    · obtain rfl := h.single (entry.1.vip, entry.2) (List.mem_map_of_mem hEntry) target hTarget
        hAddress (.inr ⟨entry, hEntry, hProtocol, rfl⟩)
      exact hFinds.carrying _
        (List.mem_map_of_mem (List.mem_filter.mpr ⟨hEntry, decide_eq_true hProtocol⟩))
  obtain ⟨kept, hKept, hKeptKey⟩ := exists_mem_merge (List.mem_append_right vips hKnown)
  have hKeptKnown := mem_discovered_of_merge hKept hKnown hKeptKey
  rwa [hSame kept hKeptKnown (hKeptKey.trans hKey)] at hKept

/-- The targets come in their turn exactly if no configured interface sorts before the one that
the address is on. -/
theorem inTurn_iff :
    InTurn (mergeCleanupTargets vips found.addresses) kernel ↔
      ∀ vip ∈ vips, ∀ target ∈ kernel.attachments, target.1.addr = vip.1.addr →
        target.2 ≤ vip.2 := by
  constructor
  · intro hTurn vip hVip target hTarget hAddress
    obtain ⟨kept, hKept, hKey⟩ := exists_mem_merge (List.mem_append_left found.addresses hVip)
    have hSame : target.1.addr = kept.1.addr :=
      hAddress.trans (congrArg TargetKey.address hKey).symm
    have hInterface : kept.2 = vip.2 := congrArg TargetKey.interface hKey
    rw [← hInterface]
    rcases hTurn kept hKept with hThere | hBefore
    · have hMarked := h.marked target hTarget ⟨vip, hVip, hAddress.symm⟩
      rw [h.single target hTarget kept hThere hSame hMarked]
    · exact (TargetKey.interface_lt (hBefore target hTarget hSame).2 hSame).le
  · intro hOrder target hTarget
    by_cases hThere : target ∈ kernel.attachments
    · exact .inl hThere
    · refine .inr fun other hOther hAddress => ?_
      have hFrom := ((indexes_foldl_store _).sound (mem_mergeCleanupTargets.mp hTarget)).1
      have hVip : target ∈ vips := (List.mem_append.mp hFrom).resolve_right fun hKnown =>
        hThere (hFinds.attached target hKnown).1
      have hMem := h.mem_targets hFinds hOther
        (h.marked other hOther ⟨target, hVip, hAddress.symm⟩)
      refine ⟨hMem, lt_of_le_of_ne ?_ fun hKey => ?_⟩
      · exact TargetKey.le_of_interface_le hAddress (hOrder target hVip other hOther hAddress)
      · have hFirst := mem_mergeCleanupTargets.mp hMem
        rw [hKey, mem_mergeCleanupTargets.mp hTarget] at hFirst
        exact hThere (Option.some.inj hFirst ▸ hOther)

end CrashOrphans

/-- With commands that work, crash orphans and their markers are reclaimed exactly if no configured
interface sorts before the one that the address is on and the listings are captured whole. -/
theorem startup_cleanup_complete (hFate : ∀ command, runner.fate command = .answered)
    (hOrphans : CrashOrphans addressProtocol vips kernel) :
    (∃ host, startupCleanup runner addressProtocol false vips kernel = .ok host ∧
        (∀ target ∈ host.kernel.attachments, (∀ vip ∈ vips, vip.1.addr ≠ target.1.addr) ∧
          ¬ kernel.Marked addressProtocol target.1.addr) ∧
        ∀ route ∈ host.kernel.routes, ¬ route.OwnedBy addressProtocol) ↔
      runner.format.Fits kernel ∧
        ∀ vip ∈ vips, ∀ target ∈ kernel.attachments, target.1.addr = vip.1.addr →
          target.2 ≤ vip.2 := by
  constructor
  · rintro ⟨host, hHost, -⟩
    obtain ⟨found, hCleaned⟩ := exists_cleaned hHost
    obtain ⟨hFits, hFinds⟩ := kernel.discover_spec _ _ hCleaned.discovers
    exact ⟨hFits, (hOrphans.inTurn_iff hFinds).mp hCleaned.inTurn⟩
  · rintro ⟨hFits, hOrder⟩
    obtain ⟨found, hDiscover⟩ := kernel.exists_discover runner.format addressProtocol hFits
      hOrphans.inert fun first hFirst second hSecond hAddress hMarked =>
        congrArg Prod.snd (hOrphans.single first hFirst second hSecond hAddress hMarked)
    have hFinds := (kernel.discover_spec _ _ hDiscover).2
    obtain ⟨host, hHost⟩ := exists_startupCleanup hFate hDiscover
      ((hOrphans.inTurn_iff hFinds).mpr hOrder)
    obtain ⟨other, hCleaned⟩ := exists_cleaned hHost
    cases hDiscover.symm.trans hCleaned.discovers
    refine ⟨host, hHost, fun target hTarget => ?_, hCleaned.unmarked⟩
    obtain ⟨hThere, hOther⟩ := (hCleaned.attachments target).mp hTarget
    have hMarked : ¬ kernel.Marked addressProtocol target.1.addr :=
      fun hMarked => hOther (hOrphans.mem_targets hFinds hThere hMarked)
    exact ⟨fun vip hVip hAddress => hMarked (hOrphans.marked target hThere ⟨vip, hVip, hAddress⟩),
      hMarked⟩

end Runs

/-! ### Two prefixes, and an earlier interface -/

/-- Numbers printed as JSON numbers. -/
def plainFormat : Format where
  addrBytes kernel := 512 * (kernel.links.length + kernel.entries.length)
  routeBytes ipv6 kernel := 256 * (kernel.family ipv6).length
  number value := .number (some value)
  protocol := by
    intro value own
    have hSmall : value.toNat ≤ 255 := Nat.le_of_lt_succ value.toNat_lt
    simp [isKeepafloatdProtocol, demand, Option.filter, hSmall, bind, Except.bind, pure, Except.pure,
      ← UInt8.toNat_inj, beq_eq_decide]
  table _ := rfl
  kind := by
    intro value
    simp [isThrowRoute, ← UInt8.toNat_inj, beq_eq_decide]

def plainRunner : Runner := ⟨plainFormat, fun _ => .answered⟩

/-- 10.0.0.5 -/
def orphan (prefixLen : Nat) : VipAddr := ⟨.v4 0x0A000005, prefixLen⟩

/-- A crash orphan with its marker. -/
def marooned (interface : String) (hNamed : interface ≠ "") : Kernel where
  links := [⟨interface, hNamed, [⟨orphan 24, none, by decide⟩]⟩]
  routes := [markerRoute 246 (orphan 24).addr]

theorem marooned_crashOrphans (interface : String) (hNamed : interface ≠ "") (vips : List Target) :
    CrashOrphans 246 vips (marooned interface hNamed) := by
  have hOnly : (marooned interface hNamed).attachments = [(orphan 24, interface)] := rfl
  refine ⟨?_, ?_, ?_⟩
  · intro target hTarget _
    rw [hOnly, List.mem_singleton] at hTarget
    subst hTarget
    exact .inl ⟨_, List.mem_singleton_self _, markerRoute_ownedBy _, rfl⟩
  · intro first hFirst second hSecond _ _
    rw [hOnly, List.mem_singleton] at hFirst hSecond
    rw [hFirst, hSecond]
  · intro route hRoute _
    rw [List.mem_singleton.mp hRoute]
    exact ⟨rfl, rfl⟩

/-- The configured interface comes first, its delete fails, and the probe finds the orphan that
was still to be deleted. -/
theorem startup_cleanup_aborts :
    CrashOrphans 246 [(orphan 24, "eth0")] (marooned "eth1" (by decide)) ∧
      (∀ command, plainRunner.fate command = .answered) ∧
      startupCleanup plainRunner 246 false [(orphan 24, "eth0")] (marooned "eth1" (by decide)) =
        .error (.stillPresent (orphan 24).addr) := by
  have hRun : (startupCleanup plainRunner 246 false [(orphan 24, "eth0")]
      (marooned "eth1" (by decide))).map (fun host => host.kernel) =
        .error (.stillPresent (orphan 24).addr) := by decide +kernel
  exact ⟨marooned_crashOrphans _ _ _, fun _ => rfl, Checks.map_eq_error.mp hRun⟩

theorem plainRunner_answers (command : Nat) : plainRunner.fate command = .answered := rfl

theorem marooned_order : ∀ vip ∈ [(orphan 16, "eth1")],
    ∀ target ∈ (marooned "eth0" (by decide)).attachments,
      target.1.addr = vip.1.addr → target.2 ≤ vip.2 := by
  decide +kernel

theorem plainFormat_fits : plainRunner.format.Fits (marooned "eth0" (by decide)) := by
  constructor
  · decide
  · decide

theorem startup_cleanup_complete_moved :
    ∃ host, startupCleanup plainRunner 246 false [(orphan 16, "eth1")]
        (marooned "eth0" (by decide)) = .ok host ∧
      ∀ route ∈ host.kernel.routes, ¬ route.OwnedBy 246 := by
  have hOrphans := marooned_crashOrphans "eth0" (by decide) [(orphan 16, "eth1")]
  obtain ⟨host, hHost, -, hRoutes⟩ :=
    (startup_cleanup_complete plainRunner_answers hOrphans).mpr ⟨plainFormat_fits, marooned_order⟩
  exact ⟨host, hHost, hRoutes⟩

end KeepAfloat.Startup
