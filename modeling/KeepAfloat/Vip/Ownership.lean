import KeepAfloat.Config.Vips
import KeepAfloat.Library.Hex
import KeepAfloat.Library.Maps

/-! Discovery of the addresses that a previous process left on the host. The listings of the
kernel are read as decoded JSON records, where a text stands for what it parses to and a text
that is cut short stands for nothing. An address belongs to this instance if it carries the
instance's protocol or if the instance's route table has a marker route for it. -/

namespace KeepAfloat.Ownership

open Std (ExtTreeMap)
open Checks (require demand bind_eq_ok pure_eq_ok require_eq_ok demand_eq_ok)

/-! ### Records of the listings -/

/-- A JSON value. A number that is not an unsigned integer is kept as `none`. -/
inductive Value where
  | number (value : Option Nat)
  | string (text : String)
  | other
  deriving DecidableEq

structure AddressInfo where
  family : Option String
  localAddress : Option (Option IpAddr)
  prefixLen : Option Nat
  protocol : Option Value

structure InterfaceAddresses where
  ifname : String
  addrInfo : List AddressInfo

/-- A destination: the text before its slash, and the text behind it if there is one. -/
structure Destination where
  address : Option IpAddr
  prefixLen : Option (Option Nat)

structure MarkerRouteInfo where
  dst : Option Destination
  table : Option Value
  protocol : Option Value
  routeType : Option Value

inductive DiscoveryError where
  | addressJson
  | routeJson
  | emptyInterface
  | protocolRange
  | protocolType
  | missingIdentity
  | addressText
  | inconsistentFamily (address : IpAddr) (family : String)
  | invalidPrefix (address : IpAddr) (prefixLen : Nat)
  | tableNumber
  | tableType
  | missingDestination
  | notThrow
  | destinationText
  | destinationFamily (address : IpAddr)
  | destinationPrefix (address : IpAddr)
  | notHost (address : IpAddr)
  | multipleInterfaces (address : IpAddr)
  deriving DecidableEq

/-- Parse an unsigned decimal number of the given width. -/
def parseDecimal (bits : Nat) (text : List UInt8) : Option Nat :=
  let digits := if text.head? = some 43 then text.tail else text
  let next (value : Nat) (byte : UInt8) : Option Nat :=
    if 48 ≤ byte.toNat ∧ byte.toNat ≤ 57 then some (value * 10 + (byte.toNat - 48)) else none
  if digits = [] then none else (digits.foldlM next 0).filter (· < 2 ^ bits)

/-- Hexadecimal behind `0x`, decimal otherwise. -/
def parseNumber (bits : Nat) (text : String) : Option Nat :=
  let bytes := Hex.utf8 text
  let hex := if bytes.take 2 = [48, 120] then Hex.fromStrRadix bits (bytes.drop 2) else none
  hex.or (parseDecimal bits bytes)

def isKeepafloatdProtocol (protocol : Option Value) (addressProtocol : UInt8) :
    Except DiscoveryError Bool :=
  match protocol with
  | none => pure false
  | some (.number number) => do
      let value ← demand (number.filter (· ≤ 255)) .protocolRange
      pure (value == addressProtocol.toNat)
  | some (.string text) => pure (parseNumber 8 text == some addressProtocol.toNat)
  | some .other => throw .protocolType

def numericKernelValue (value : Option Value) : Except DiscoveryError (Option Nat) :=
  match value with
  | none => pure none
  | some (.number number) => some <$> demand number .tableNumber
  | some (.string text) => some <$> demand (parseNumber 64 text) .tableNumber
  | some .other => throw .tableType

def isThrowRoute : Option Value → Bool
  | some (.number number) => number == some 9
  | some (.string text) => text == "throw" || text == "9"
  | _ => false

/-! ### Reading the listings -/

/-- Address first, then the interface. -/
structure TargetKey where
  address : IpAddr
  interface : String
  deriving DecidableEq

namespace TargetKey

def orderKey (key : TargetKey) : IpAddr ×ₗ String := toLex (key.address, key.interface)

theorem orderKey_injective : Function.Injective orderKey := by
  rintro ⟨address, interface⟩ ⟨_, _⟩ h
  cases toLex_inj.mp h
  rfl

instance : LinearOrder TargetKey := LinearOrder.lift' orderKey orderKey_injective

instance : Std.LawfulEqOrd TargetKey := ⟨fun h => compare_eq_iff_eq.mp h⟩

theorem le_of_interface_le {first second : TargetKey} (hAddress : first.address = second.address)
    (h : first.interface ≤ second.interface) : first ≤ second := by
  change orderKey first ≤ orderKey second
  rw [orderKey, orderKey, Prod.Lex.toLex_le_toLex, hAddress]
  exact .inr ⟨rfl, h⟩

theorem interface_lt {first second : TargetKey} (h : first < second)
    (hAddress : first.address = second.address) : first.interface < second.interface := by
  have hKeys : orderKey first < orderKey second := h
  rw [orderKey, orderKey, Prod.Lex.toLex_lt_toLex, hAddress] at hKeys
  exact (hKeys.resolve_left (lt_irrefl _)).2

end TargetKey

/-- An address with its prefix on an interface. -/
abbrev Target := VipAddr × String

def Target.key (target : Target) : TargetKey := ⟨target.1.addr, target.2⟩

abbrev AddressInventory := ExtTreeMap TargetKey Target

def maxPrefix (address : IpAddr) : Nat := if address.isIpv4 then 32 else 128

def familyOf (address : IpAddr) : String := if address.isIpv4 then "inet" else "inet6"

/-- All addresses, and those that carry the protocol. -/
def addInfo (addressProtocol : UInt8) (ifname : String)
    (inventory : AddressInventory × AddressInventory) (info : AddressInfo) :
    Except DiscoveryError (AddressInventory × AddressInventory) := do
  let marked ← isKeepafloatdProtocol info.protocol addressProtocol
  match info.localAddress, info.family, info.prefixLen with
  | some text, some family, some prefixLen => do
      let address ← demand text .addressText
      require (family == familyOf address) (.inconsistentFamily address family)
      require (prefixLen ≤ maxPrefix address) (.invalidPrefix address prefixLen)
      let target : Target := (⟨address, prefixLen⟩, ifname)
      pure (inventory.1.insert target.key target,
        if marked then inventory.2.insert target.key target else inventory.2)
  | _, _, _ => do
      require (!marked) .missingIdentity
      pure inventory

def addInterface (addressProtocol : UInt8) (inventory : AddressInventory × AddressInventory)
    (interface : InterfaceAddresses) :
    Except DiscoveryError (AddressInventory × AddressInventory) := do
  require (interface.ifname ≠ "") .emptyInterface
  interface.addrInfo.foldlM (addInfo addressProtocol interface.ifname) inventory

def parseAddressInventory (json : Option (List InterfaceAddresses)) (addressProtocol : UInt8) :
    Except DiscoveryError (AddressInventory × AddressInventory) := do
  let interfaces ← demand json .addressJson
  interfaces.foldlM (addInterface addressProtocol) (∅, ∅)

def markerRouteTableBase : Nat := 10000

def markerRouteTable (addressProtocol : UInt8) : Nat := markerRouteTableBase + addressProtocol.toNat

/-- The destination of a marker route. -/
def markedDestination (route : MarkerRouteInfo) (ipv6 : Bool) : Except DiscoveryError IpAddr := do
  let destination ← demand route.dst .missingDestination
  require (isThrowRoute route.routeType) .notThrow
  let address ← demand destination.address .destinationText
  require ((!address.isIpv4) == ipv6) (.destinationFamily address)
  match destination.prefixLen with
  | none => pure address
  | some text => do
      let prefixLen ← demand text (.destinationPrefix address)
      require (prefixLen == if ipv6 then 128 else 32) (.notHost address)
      pure address

def addRoute (addressProtocol : UInt8) (ipv6 : Bool) (marked : Finset IpAddr)
    (route : MarkerRouteInfo) : Except DiscoveryError (Finset IpAddr) := do
  let table ← numericKernelValue route.table
  if table ≠ some (markerRouteTable addressProtocol) then pure marked
  else do
    let owned ← isKeepafloatdProtocol route.protocol addressProtocol
    if !owned then pure marked
    else do
      let address ← markedDestination route ipv6
      pure (insert address marked)

def parseMarkerRoutes (json : Option (List MarkerRouteInfo)) (addressProtocol : UInt8)
    (ipv6 : Bool) : Except DiscoveryError (List IpAddr) := do
  let routes ← demand json .routeJson
  let marked ← routes.foldlM (addRoute addressProtocol ipv6) ∅
  pure (marked.sort (· ≤ ·))

structure OwnershipDiscovery where
  addresses : List Target
  markerRoutes : List IpAddr

/-- An address with a marker route belongs to this instance, whatever protocol it carries. -/
def addMarked (addresses owned : AddressInventory) (address : IpAddr) :
    Except DiscoveryError AddressInventory :=
  match addresses.toList.filter fun entry => entry.1.address == address with
  | [] => pure owned
  | [entry] => pure (owned.insert entry.1 entry.2)
  | _ => throw (.multipleInterfaces address)

def parseOwnershipDiscovery (addressJson : Option (List InterfaceAddresses))
    (ipv4RouteJson ipv6RouteJson : Option (List MarkerRouteInfo)) (addressProtocol : UInt8) :
    Except DiscoveryError OwnershipDiscovery := do
  let inventory ← parseAddressInventory addressJson addressProtocol
  let ipv4 ← parseMarkerRoutes ipv4RouteJson addressProtocol false
  let ipv6 ← parseMarkerRoutes ipv6RouteJson addressProtocol true
  let markerRoutes := Keyed.dedupBy id (Keyed.sortBy id (ipv4 ++ ipv6))
  let owned ← markerRoutes.foldlM (addMarked inventory.1) inventory.2
  pure ⟨owned.values, markerRoutes⟩

def store (inventory : AddressInventory) (target : Target) : AddressInventory :=
  inventory.insert target.key target

/-- What discovery found replaces what the configuration says of the same address and
interface. -/
def mergeCleanupTargets (configured discovered : List Target) : List Target :=
  (discovered.foldl store (configured.foldl store ∅)).values

/-! ### The kernel and its listings -/

/-- An address of an interface, with the protocol that it was added with. -/
structure Attached where
  vip : VipAddr
  protocol : Option UInt8
  valid : vip.prefixLen ≤ maxPrefix vip.addr
  deriving DecidableEq

structure Link where
  name : String
  named : name ≠ ""
  addresses : List Attached
  deriving DecidableEq

/-- A route to a network or a host. The numbers of its type and table have a fixed width. -/
structure Route where
  address : IpAddr
  prefixLen : Nat
  table : UInt32
  protocol : UInt8
  kind : UInt8
  deriving DecidableEq

structure Kernel where
  links : List Link
  routes : List Route
  deriving DecidableEq

/-- How the listings are printed: a number in any form that is read back, and the length of the
text of each listing up to its closing bracket. -/
structure Format where
  addrBytes : Kernel → Nat
  routeBytes : Bool → Kernel → Nat
  number : Nat → Value
  protocol : ∀ value own : UInt8,
    isKeepafloatdProtocol (some (number value.toNat)) own = .ok (value == own)
  table : ∀ value : UInt32, numericKernelValue (some (number value.toNat)) = .ok (some value.toNat)
  kind : ∀ value : UInt8, isThrowRoute (some (number value.toNat)) = (value == 9)

def Attached.render (format : Format) (attached : Attached) : AddressInfo where
  family := some (familyOf attached.vip.addr)
  localAddress := some (some attached.vip.addr)
  prefixLen := some attached.vip.prefixLen
  protocol := attached.protocol.map fun protocol => format.number protocol.toNat

def Link.render (format : Format) (link : Link) : InterfaceAddresses where
  ifname := link.name
  addrInfo := link.addresses.map (Attached.render format)

/-- A default route names no address, and a host route no prefix. -/
def Route.destination (route : Route) : Destination :=
  if route.prefixLen = 0 then ⟨none, none⟩
  else if route.prefixLen = maxPrefix route.address then ⟨some route.address, none⟩
  else ⟨some route.address, some (some route.prefixLen)⟩

def Route.render (format : Format) (route : Route) : MarkerRouteInfo where
  dst := some route.destination
  table := some (format.number route.table.toNat)
  protocol := some (format.number route.protocol.toNat)
  routeType := some (format.number route.kind.toNat)

def maxOutputBytes : Nat := 64 * 1024

/-- The output of a command up to the capture limit. A listing that is cut is no JSON text. -/
def captured {Listing : Type} (bytes : Nat) (listing : Listing) : Option Listing :=
  if bytes ≤ maxOutputBytes then some listing else none

namespace Kernel

/-- `ip -j addr show` -/
def addrShow (format : Format) (kernel : Kernel) : Option (List InterfaceAddresses) :=
  captured (format.addrBytes kernel) (kernel.links.map (Link.render format))

def family (ipv6 : Bool) (kernel : Kernel) : List Route :=
  kernel.routes.filter fun route => (!route.address.isIpv4) == ipv6

/-- `ip -j route show table all` for one family -/
def routeShow (format : Format) (ipv6 : Bool) (kernel : Kernel) : Option (List MarkerRouteInfo) :=
  captured (format.routeBytes ipv6 kernel) ((kernel.family ipv6).map (Route.render format))

/-- The addresses in the order of the listing. -/
def entries (kernel : Kernel) : List (Attached × String) :=
  kernel.links.flatMap fun link => link.addresses.map fun attached => (attached, link.name)

def attachments (kernel : Kernel) : List Target :=
  kernel.entries.map fun entry => (entry.1.vip, entry.2)

end Kernel

/-- The listings are captured whole. -/
structure Format.Fits (format : Format) (kernel : Kernel) : Prop where
  addresses : format.addrBytes kernel ≤ maxOutputBytes
  routes : ∀ ipv6, format.routeBytes ipv6 kernel ≤ maxOutputBytes

/-- The route is in the table of the instance with its protocol. -/
def Route.OwnedBy (route : Route) (addressProtocol : UInt8) : Prop :=
  route.table.toNat = markerRouteTable addressProtocol ∧ route.protocol = addressProtocol

instance (route : Route) (addressProtocol : UInt8) : Decidable (route.OwnedBy addressProtocol) :=
  inferInstanceAs (Decidable (_ ∧ _))

/-- The route that marks an address. -/
def markerRoute (addressProtocol : UInt8) (address : IpAddr) : Route where
  address := address
  prefixLen := maxPrefix address
  table := UInt32.ofNat (markerRouteTable addressProtocol)
  protocol := addressProtocol
  kind := 9

/-- The address has a marker route or carries the protocol on some interface. -/
def Kernel.Marked (kernel : Kernel) (addressProtocol : UInt8) (address : IpAddr) : Prop :=
  (∃ route ∈ kernel.routes, route.OwnedBy addressProtocol ∧ route.address = address) ∨
    ∃ entry ∈ kernel.entries, entry.1.protocol = some addressProtocol ∧ entry.1.vip.addr = address

/-! ### Inventories -/

/-- The inventory has an entry for the key of each target, and no others. -/
structure Indexes (inventory : AddressInventory) (targets : List Target) : Prop where
  sound : ∀ {key target}, inventory[key]? = some target → target ∈ targets ∧ target.key = key
  complete : ∀ {target}, target ∈ targets → ∃ kept, inventory[target.key]? = some kept

theorem getElem?_foldl_store (targets : List Target) (inventory : AddressInventory)
    (key : TargetKey) :
    (targets.foldl store inventory)[key]? =
      (targets.reverse.find? fun target => target.key = key).or inventory[key]? := by
  have hLast := Maps.getElem?_foldl_insert Target.key id targets inventory key
  rw [Option.map_id] at hLast
  exact hLast

theorem indexes_foldl_store (targets : List Target) : Indexes (targets.foldl store ∅) targets where
  sound := by
    intro key target h
    rw [getElem?_foldl_store, ExtTreeMap.getElem?_empty, Option.or_none] at h
    have hKey := List.find?_some h
    exact ⟨List.mem_reverse.mp (List.mem_of_find?_eq_some h), of_decide_eq_true hKey⟩
  complete := by
    intro target h
    rw [getElem?_foldl_store, ExtTreeMap.getElem?_empty, Option.or_none, ← Option.isSome_iff_exists,
      List.find?_isSome]
    exact ⟨target, List.mem_reverse.mpr h, decide_eq_true rfl⟩

theorem mem_foldl_store {targets : List Target} {key : TargetKey} :
    key ∈ targets.foldl store ∅ ↔ ∃ target ∈ targets, target.key = key := by
  have hIndex := indexes_foldl_store targets
  rw [ExtTreeMap.mem_iff_isSome_getElem?, Option.isSome_iff_exists]
  refine ⟨fun ⟨target, hFound⟩ => ⟨target, hIndex.sound hFound⟩, ?_⟩
  rintro ⟨target, hTarget, rfl⟩
  exact hIndex.complete hTarget

/-- The targets whose addresses carry the protocol. -/
def Kernel.carrying (kernel : Kernel) (addressProtocol : UInt8) : List Target :=
  (kernel.entries.filter fun entry => entry.1.protocol = some addressProtocol).map
    fun entry => (entry.1.vip, entry.2)

section Listing

/-- What is read from a captured listing. -/
theorem decode_captured {Listing Result : Type} {bytes : Nat} {listing : Listing}
    {reason : DiscoveryError} {next : Listing → Except DiscoveryError Result} {result : Result} :
    (demand (captured bytes listing) reason >>= next) = .ok result ↔
      bytes ≤ maxOutputBytes ∧ next listing = .ok result := by
  rw [bind_eq_ok]
  simp only [demand_eq_ok, captured, Option.ite_none_right_eq_some, Option.some.injEq]
  constructor
  · rintro ⟨_, ⟨hBytes, rfl⟩, hNext⟩
    exact ⟨hBytes, hNext⟩
  · rintro ⟨hBytes, hNext⟩
    exact ⟨listing, ⟨hBytes, rfl⟩, hNext⟩

variable (format : Format) (addressProtocol : UInt8)

theorem isKeepafloatdProtocol_render (protocol : Option UInt8) :
    isKeepafloatdProtocol (protocol.map fun protocol => format.number protocol.toNat)
      addressProtocol = .ok (decide (protocol = some addressProtocol)) := by
  cases protocol with
  | none => rfl
  | some value =>
      rw [Option.map_some, format.protocol]
      simp [beq_eq_decide]

theorem addInfo_render (ifname : String) (inventory : AddressInventory × AddressInventory)
    (attached : Attached) :
    addInfo addressProtocol ifname inventory (attached.render format) =
      .ok (store inventory.1 (attached.vip, ifname),
        if attached.protocol = some addressProtocol then store inventory.2 (attached.vip, ifname)
        else inventory.2) := by
  have hMarked := isKeepafloatdProtocol_render format addressProtocol attached.protocol
  simp only [addInfo, Attached.render, hMarked, bind, Except.bind, demand, beq_self_eq_true,
    require, attached.valid, decide_true, if_true, decide_eq_true_eq]
  rfl

/-- The inventory and the owned addresses of a kernel's listing. -/
theorem parseAddressInventory_addrShow (kernel : Kernel)
    {inventory : AddressInventory × AddressInventory} :
    parseAddressInventory (kernel.addrShow format) addressProtocol = .ok inventory ↔
      format.addrBytes kernel ≤ maxOutputBytes ∧
        (kernel.attachments.foldl store ∅, (kernel.carrying addressProtocol).foldl store ∅) =
          inventory := by
  let next (inventory : AddressInventory × AddressInventory) (entry : Attached × String) :=
    (store inventory.1 (entry.1.vip, entry.2),
      if entry.1.protocol = some addressProtocol then store inventory.2 (entry.1.vip, entry.2)
      else inventory.2)
  have hLink : ∀ (inventory : AddressInventory × AddressInventory) (link : Link),
      addInterface addressProtocol inventory (link.render format) =
        .ok ((link.addresses.map fun attached => (attached, link.name)).foldl next inventory) := by
    intro inventory link
    rw [addInterface, Link.render, List.foldlM_map, List.foldl_map]
    simp only [require, link.named, ne_eq, not_false_eq_true, decide_true, if_true, bind,
      Except.bind]
    exact Checks.foldlM_eq_ok
      (fun state attached _ => addInfo_render format addressProtocol link.name state attached) _
  have hLinks : (kernel.links.map (Link.render format)).foldlM (addInterface addressProtocol)
      (∅, ∅) = .ok (kernel.entries.foldl next (∅, ∅)) := by
    rw [List.foldlM_map, Kernel.entries, List.foldl_flatMap]
    exact Checks.foldlM_eq_ok (fun state link _ => hLink state link) _
  have hPair : ∀ (entries : List (Attached × String)) (first second : AddressInventory),
      entries.foldl next (first, second) =
        ((entries.map fun entry => (entry.1.vip, entry.2)).foldl store first,
          ((entries.filter fun entry => entry.1.protocol = some addressProtocol).map
            fun entry => (entry.1.vip, entry.2)).foldl store second) := by
    intro entries
    induction entries with
    | nil => intro first second; rfl
    | cons entry rest ih =>
        intro first second
        rw [List.foldl_cons, ih]
        by_cases hMarked : entry.1.protocol = some addressProtocol
        · simp [hMarked]
        · simp [hMarked]
  rw [parseAddressInventory, Kernel.addrShow, decode_captured, hLinks, hPair, Kernel.attachments,
    Kernel.carrying, Except.ok.injEq]

/-! ### Marker routes -/

theorem maxPrefix_pos (address : IpAddr) : 0 < maxPrefix address := by
  rw [maxPrefix]
  split <;> decide

theorem markedDestination_render {route : Route} {ipv6 : Bool} {address : IpAddr}
    (hFamily : (!route.address.isIpv4) = ipv6) :
    markedDestination (route.render format) ipv6 = .ok address ↔
      route.kind = 9 ∧ route.prefixLen = maxPrefix route.address ∧ route.address = address := by
  subst hFamily
  have hPositive := maxPrefix_pos route.address
  have hHost : (if route.address.isIpv4 = false then 128 else 32) = maxPrefix route.address := by
    cases h : route.address.isIpv4 <;> simp [maxPrefix, h]
  simp only [markedDestination, Route.render, bind_eq_ok, demand_eq_ok, require_eq_ok,
    format.kind, beq_iff_eq, Option.some.injEq, exists_eq_left', exists_const, Route.destination]
  by_cases hDefault : route.prefixLen = 0
  · simp [hDefault, hPositive.ne]
  · by_cases hFull : route.prefixLen = maxPrefix route.address
    · simp [hFull, hPositive.ne']
    · simp [hDefault, hFull, hHost]

theorem addRoute_render (route : Route) (ipv6 : Bool) (marked : Finset IpAddr) :
    addRoute addressProtocol ipv6 marked (route.render format) =
      if route.OwnedBy addressProtocol then
        (insert · marked) <$> markedDestination (route.render format) ipv6
      else .ok marked := by
  have hTable : numericKernelValue (route.render format).table = .ok (some route.table.toNat) :=
    format.table route.table
  have hProtocol : isKeepafloatdProtocol (route.render format).protocol addressProtocol =
      .ok (route.protocol == addressProtocol) := format.protocol route.protocol addressProtocol
  rw [addRoute, hTable]
  by_cases hOwn : route.table.toNat = markerRouteTable addressProtocol
  · by_cases hOwner : route.protocol = addressProtocol
    · simp [Route.OwnedBy, hOwn, hOwner, hProtocol, bind, Except.bind, pure, Except.pure,
        Functor.map, Except.map]
    · simp [Route.OwnedBy, hOwn, hOwner, hProtocol, bind, Except.bind, pure, Except.pure]
  · simp [Route.OwnedBy, hOwn, bind, Except.bind, pure, Except.pure]

/-- Every route of the instance is a marker route. -/
def MarksOnly (routes : List Route) : Prop :=
  ∀ route ∈ routes, route.OwnedBy addressProtocol →
    route.kind = 9 ∧ route.prefixLen = maxPrefix route.address

section Family

variable {ipv6 : Bool} {routes : List Route}
  (hFamily : ∀ route ∈ routes, (!route.address.isIpv4) = ipv6)

include hFamily

theorem MarksOnly.of_parse {list : List IpAddr}
    (h : parseMarkerRoutes (some (routes.map (Route.render format))) addressProtocol ipv6 =
      .ok list) : MarksOnly addressProtocol routes := by
  intro route hRoute hOwned
  simp only [parseMarkerRoutes, bind_eq_ok, demand_eq_ok, Option.some.injEq, exists_eq_left'] at h
  obtain ⟨marked, hFold, -⟩ := h
  obtain ⟨-, hVisits⟩ := Checks.foldlM_visits (fun _ => trivial) (fun _ _ => trivial)
    (fun _ _ => trivial) hFold
  obtain ⟨before, after, hStep, -, -⟩ := hVisits _ (List.mem_map_of_mem hRoute)
  rw [addRoute_render, if_pos hOwned, Checks.map_eq_ok] at hStep
  obtain ⟨address, hAddress, -⟩ := hStep
  rw [markedDestination_render format (hFamily route hRoute)] at hAddress
  exact ⟨hAddress.1, hAddress.2.1⟩

/-- A table of marker routes is read as the set of their addresses. -/
theorem MarksOnly.exists_parse (hMarks : MarksOnly addressProtocol routes) :
    ∃ list, parseMarkerRoutes (some (routes.map (Route.render format))) addressProtocol ipv6 =
        .ok list ∧
      ∀ address, address ∈ list ↔
        ∃ route ∈ routes, route.OwnedBy addressProtocol ∧ route.address = address := by
  let next (marked : Finset IpAddr) (route : Route) :=
    if route.OwnedBy addressProtocol then insert route.address marked else marked
  have hFold : (routes.map (Route.render format)).foldlM (addRoute addressProtocol ipv6) ∅ =
      .ok (routes.foldl next ∅) := by
    rw [List.foldlM_map]
    refine Checks.foldlM_eq_ok (fun marked route hRoute => ?_) _
    rw [addRoute_render]
    by_cases hOwned : route.OwnedBy addressProtocol
    · obtain ⟨hThrow, hHost⟩ := hMarks route hRoute hOwned
      have hAddress := (markedDestination_render format (hFamily route hRoute)).mpr
        ⟨hThrow, hHost, rfl⟩
      simp only [hOwned, if_true, hAddress, next]
      rfl
    · simp [hOwned, next]
  have hMem : ∀ (list : List Route) (marked : Finset IpAddr) (address : IpAddr),
      address ∈ list.foldl next marked ↔ address ∈ marked ∨
        ∃ route ∈ list, route.OwnedBy addressProtocol ∧ route.address = address := by
    intro list
    induction list with
    | nil => simp
    | cons route rest ih =>
        intro marked address
        rw [List.foldl_cons, ih, List.exists_mem_cons_iff]
        by_cases hOwned : route.OwnedBy addressProtocol
        · simp [next, hOwned, eq_comm, or_assoc, or_left_comm]
        · simp [next, hOwned]
  refine ⟨(routes.foldl next ∅).sort (· ≤ ·), ?_, ?_⟩
  · simp only [parseMarkerRoutes, demand, bind, Except.bind, pure, Except.pure] at hFold ⊢
    rw [hFold]
  · intro address
    rw [Finset.mem_sort, hMem]
    simp

theorem mem_of_parse {list : List IpAddr}
    (h : parseMarkerRoutes (some (routes.map (Route.render format))) addressProtocol ipv6 = .ok list)
    (address : IpAddr) :
    address ∈ list ↔
      ∃ route ∈ routes, route.OwnedBy addressProtocol ∧ route.address = address := by
  have hMarks := MarksOnly.of_parse format addressProtocol hFamily h
  obtain ⟨other, hOther, hMem⟩ := hMarks.exists_parse format addressProtocol hFamily
  cases h.symm.trans hOther
  exact hMem address

end Family

end Listing

/-! ### Discovery -/

/-- The entries of one address. -/
theorem mem_matching {addresses : AddressInventory} {address : IpAddr} {key : TargetKey}
    {target : Target} :
    (key, target) ∈ addresses.toList.filter (fun entry => entry.1.address == address) ↔
      addresses[key]? = some target ∧ key.address = address := by
  rw [List.mem_filter, ExtTreeMap.mem_toList_iff_getElem?_eq_some, beq_iff_eq]

/-- Entries of the given addresses are added from the inventory, and none is lost. -/
structure Extends (addresses : AddressInventory) (markers : List IpAddr)
    (owned after : AddressInventory) : Prop where
  keeps : ∀ {key : TargetKey}, key ∈ owned → key ∈ after
  sound : ∀ {key : TargetKey} {target : Target}, after[key]? = some target →
    owned[key]? = some target ∨ addresses[key]? = some target ∧ key.address ∈ markers

theorem Extends.refl (addresses : AddressInventory) (markers : List IpAddr)
    (owned : AddressInventory) : Extends addresses markers owned owned :=
  ⟨id, Or.inl⟩

theorem Extends.trans {addresses : AddressInventory} {markers : List IpAddr}
    {first second third : AddressInventory} (hFirst : Extends addresses markers first second)
    (hSecond : Extends addresses markers second third) : Extends addresses markers first third where
  keeps h := hSecond.keeps (hFirst.keeps h)
  sound h := (hSecond.sound h).elim hFirst.sound Or.inr

theorem addMarked_spec {addresses owned after : AddressInventory} {address : IpAddr}
    {markers : List IpAddr} (hMarker : address ∈ markers)
    (h : addMarked addresses owned address = .ok after) :
    Extends addresses markers owned after ∧
      ∀ key ∈ addresses, key.address = address → key ∈ after := by
  rw [addMarked] at h
  have hMatch := @mem_matching addresses address
  split at h
  · next hNone =>
      rw [pure_eq_ok] at h
      subst h
      refine ⟨Extends.refl addresses markers owned, ?_⟩
      intro key hKey hAddress
      have hMem := hMatch.mpr ⟨ExtTreeMap.getElem?_eq_some_getElem hKey, hAddress⟩
      rw [hNone] at hMem
      cases hMem
  · next entry hOne =>
      rw [pure_eq_ok] at h
      subst h
      have hEntry : (entry.1, entry.2) ∈ [entry] := List.mem_singleton_self entry
      rw [← hOne, hMatch] at hEntry
      refine ⟨⟨fun hKey => ExtTreeMap.mem_insert.mpr (.inr hKey), ?_⟩, ?_⟩
      · intro key target hTarget
        rw [ExtTreeMap.getElem?_insert] at hTarget
        split at hTarget
        · next hSame =>
            rw [compare_eq_iff_eq] at hSame
            subst hSame
            exact .inr ⟨Option.some.inj hTarget ▸ hEntry.1, hEntry.2 ▸ hMarker⟩
        · exact .inl hTarget
      · intro key hKey hAddress
        have hMem := hMatch.mpr ⟨ExtTreeMap.getElem?_eq_some_getElem hKey, hAddress⟩
        rw [hOne, List.mem_singleton] at hMem
        rw [← hMem]
        exact ExtTreeMap.mem_insert_self
  · cases h

/-- An address with one entry can be taken. -/
theorem exists_addMarked {addresses : AddressInventory} {address : IpAddr}
    (h : ∀ first ∈ addresses, ∀ second ∈ addresses, first.address = address →
      second.address = address → first = second) (owned : AddressInventory) :
    ∃ after, addMarked addresses owned address = .ok after := by
  have hDistinct := (ExtTreeMap.distinct_keys_toList (t := addresses)).filter
    fun entry => entry.1.address == address
  have hKey : ∀ entry ∈ addresses.toList.filter (fun entry => entry.1.address == address),
      entry.1 ∈ addresses ∧ entry.1.address = address := by
    intro entry hEntry
    obtain ⟨hFound, hAddress⟩ := mem_matching.mp hEntry
    exact ⟨ExtTreeMap.mem_iff_isSome_getElem?.mpr (Option.isSome_of_eq_some hFound), hAddress⟩
  rw [addMarked]
  cases hList : addresses.toList.filter fun entry => entry.1.address == address with
  | nil => exact ⟨owned, rfl⟩
  | cons first rest =>
      cases rest with
      | nil => exact ⟨_, rfl⟩
      | cons second rest =>
          rw [hList] at hDistinct hKey
          obtain ⟨hFirst, hFirstAddress⟩ := hKey first (by simp)
          obtain ⟨hSecond, hSecondAddress⟩ := hKey second (by simp)
          have hSame := h first.1 hFirst second.1 hSecond hFirstAddress hSecondAddress
          have hApart := List.rel_of_pairwise_cons hDistinct (List.mem_cons_self)
          exact absurd (compare_eq_iff_eq.mpr hSame) hApart

/-- What discovery finds: attached addresses of the instance only, an entry for every address of the instance
on every interface, and the addresses of the marker routes. -/
structure Discovers (kernel : Kernel) (addressProtocol : UInt8) (found : OwnershipDiscovery) :
    Prop where
  attached : ∀ target ∈ found.addresses,
    target ∈ kernel.attachments ∧ kernel.Marked addressProtocol target.1.addr
  carrying : ∀ target ∈ kernel.carrying addressProtocol,
    ∃ kept ∈ found.addresses, kept.key = target.key
  marked : ∀ target ∈ kernel.attachments, target.1.addr ∈ found.markerRoutes →
    ∃ kept ∈ found.addresses, kept.key = target.key
  routes : ∀ address, address ∈ found.markerRoutes ↔
    ∃ route ∈ kernel.routes, route.OwnedBy addressProtocol ∧ route.address = address
  distinct : found.markerRoutes.Nodup
  inert : MarksOnly addressProtocol kernel.routes

section Kernels

variable (format : Format) (addressProtocol : UInt8) (kernel : Kernel)

/-- The listings of a kernel, read by discovery. -/
def Kernel.discover : Except DiscoveryError OwnershipDiscovery :=
  parseOwnershipDiscovery (kernel.addrShow format) (kernel.routeShow format false)
    (kernel.routeShow format true) addressProtocol

theorem mem_markerRoutes {ipv4 ipv6 : List IpAddr} {address : IpAddr} :
    address ∈ Keyed.dedupBy id (Keyed.sortBy id (ipv4 ++ ipv6)) ↔ address ∈ ipv4 ∨ address ∈ ipv6 := by
  rw [← List.mem_append, ← (Keyed.perm_sortBy id (ipv4 ++ ipv6)).mem_iff]
  refine ⟨Keyed.mem_of_mem_dedupBy id, fun hMem => ?_⟩
  obtain ⟨kept, hKept, rfl⟩ := Keyed.exists_mem_dedupBy id hMem
  exact hKept

theorem Kernel.mem_family {ipv6 : Bool} {route : Route} :
    route ∈ kernel.family ipv6 ↔ route ∈ kernel.routes ∧ (!route.address.isIpv4) = ipv6 := by
  rw [Kernel.family, List.mem_filter, beq_iff_eq]

theorem Kernel.parseMarkerRoutes_routeShow {ipv6 : Bool} {list : List IpAddr} :
    parseMarkerRoutes (kernel.routeShow format ipv6) addressProtocol ipv6 = .ok list ↔
      format.routeBytes ipv6 kernel ≤ maxOutputBytes ∧
        parseMarkerRoutes (some ((kernel.family ipv6).map (Route.render format))) addressProtocol
          ipv6 = .ok list := by
  rw [parseMarkerRoutes, Kernel.routeShow, decode_captured]
  rfl

theorem Kernel.discover_spec {found : OwnershipDiscovery}
    (h : kernel.discover format addressProtocol = .ok found) :
    format.Fits kernel ∧ Discovers kernel addressProtocol found := by
  simp only [Kernel.discover, parseOwnershipDiscovery, parseAddressInventory_addrShow,
    Kernel.parseMarkerRoutes_routeShow, bind_eq_ok, pure_eq_ok] at h
  obtain ⟨_, ⟨hFits, rfl⟩, ipv4, ⟨hFits4, hIpv4⟩, ipv6, ⟨hFits6, hIpv6⟩, owned, hOwned, rfl⟩ := h
  have hAddresses := indexes_foldl_store kernel.attachments
  have hCarrying := indexes_foldl_store (kernel.carrying addressProtocol)
  have hFamily : ∀ ipv6, ∀ route ∈ kernel.family ipv6, (!route.address.isIpv4) = ipv6 :=
    fun _ _ hRoute => (kernel.mem_family.mp hRoute).2
  obtain ⟨hExtends, hVisits⟩ := Checks.foldlM_visits (Extends.refl _ _) Extends.trans
    (fun hMarker hStep => (addMarked_spec hMarker hStep).1) hOwned
  have hRoutes : ∀ address, address ∈ Keyed.dedupBy id (Keyed.sortBy id (ipv4 ++ ipv6)) ↔
      ∃ route ∈ kernel.routes, route.OwnedBy addressProtocol ∧ route.address = address := by
    intro address
    rw [mem_markerRoutes, mem_of_parse format addressProtocol (hFamily false) hIpv4,
      mem_of_parse format addressProtocol (hFamily true) hIpv6]
    simp only [Kernel.mem_family]
    constructor
    · rintro (⟨route, hRoute, hOwns⟩ | ⟨route, hRoute, hOwns⟩)
      · exact ⟨route, hRoute.1, hOwns⟩
      · exact ⟨route, hRoute.1, hOwns⟩
    · rintro ⟨route, hRoute, hOwns⟩
      cases hIs : (!route.address.isIpv4) with
      | false => exact .inl ⟨route, ⟨hRoute, hIs⟩, hOwns⟩
      | true => exact .inr ⟨route, ⟨hRoute, hIs⟩, hOwns⟩
  have hAttached : ∀ {key target}, owned[key]? = some target →
      target.key = key ∧ target ∈ kernel.attachments ∧
        kernel.Marked addressProtocol target.1.addr := by
    intro key target hFound
    rcases hExtends.sound hFound with hCarried | ⟨hListed, hMarker⟩
    · obtain ⟨hMem, hKey⟩ := hCarrying.sound hCarried
      rw [Kernel.carrying, List.mem_map] at hMem
      obtain ⟨entry, hEntry, rfl⟩ := hMem
      rw [List.mem_filter, decide_eq_true_eq] at hEntry
      exact ⟨hKey, List.mem_map_of_mem hEntry.1, .inr ⟨entry, hEntry.1, hEntry.2, rfl⟩⟩
    · obtain ⟨hMem, rfl⟩ := hAddresses.sound hListed
      exact ⟨rfl, hMem, .inl ((hRoutes target.1.addr).mp hMarker)⟩
  have hKept : ∀ {key}, key ∈ owned → ∃ kept ∈ owned.values, kept.key = key := by
    intro key hKey
    have hFound := ExtTreeMap.getElem?_eq_some_getElem hKey
    exact ⟨_, Maps.mem_values.mpr ⟨key, hFound⟩, (hAttached hFound).1⟩
  have hDistinct : (Keyed.dedupBy id (Keyed.sortBy id (ipv4 ++ ipv6))).Nodup :=
    (Keyed.pairwise_dedupBy id (Keyed.pairwise_sortBy id _)).imp ne_of_lt
  refine ⟨⟨hFits, Bool.forall_bool.mpr ⟨hFits4, hFits6⟩⟩, ?_, ?_, ?_, hRoutes, hDistinct, ?_⟩
  · intro target hTarget
    obtain ⟨key, hFound⟩ := Maps.mem_values.mp hTarget
    exact (hAttached hFound).2
  · intro target hTarget
    exact hKept (hExtends.keeps (mem_foldl_store.mpr ⟨target, hTarget, rfl⟩))
  · intro target hTarget hMarked
    obtain ⟨before, after, hStep, -, hAfter⟩ := hVisits _ hMarked
    have hKey := (addMarked_spec hMarked hStep).2 target.key (mem_foldl_store.mpr ⟨target, hTarget, rfl⟩) rfl
    exact hKept (hAfter.keeps hKey)
  · intro route hRoute
    have hMarks : ∀ ipv6, MarksOnly addressProtocol (kernel.family ipv6) := by
      intro ipv6
      cases ipv6 with
      | false => exact MarksOnly.of_parse format addressProtocol (hFamily false) hIpv4
      | true => exact MarksOnly.of_parse format addressProtocol (hFamily true) hIpv6
    exact hMarks _ route (kernel.mem_family.mpr ⟨hRoute, rfl⟩)

/-- Discovery succeeds if the listings are captured whole, the table of the instance holds marker
routes only and each marked address is on one interface. -/
theorem Kernel.exists_discover (hFits : format.Fits kernel) (hMarks : MarksOnly addressProtocol kernel.routes)
    (hSingle : ∀ first ∈ kernel.attachments, ∀ second ∈ kernel.attachments,
      first.1.addr = second.1.addr → kernel.Marked addressProtocol first.1.addr →
      first.2 = second.2) :
    ∃ found, kernel.discover format addressProtocol = .ok found := by
  have hFamily : ∀ ipv6, ∃ list,
      parseMarkerRoutes (kernel.routeShow format ipv6) addressProtocol ipv6 = .ok list ∧
        ∀ address ∈ list, kernel.Marked addressProtocol address := by
    intro ipv6
    have hOnly : MarksOnly addressProtocol (kernel.family ipv6) :=
      fun route hRoute => hMarks route (kernel.mem_family.mp hRoute).1
    obtain ⟨list, hParse, hMem⟩ := hOnly.exists_parse format addressProtocol
      fun route hRoute => (kernel.mem_family.mp hRoute).2
    refine ⟨list, (kernel.parseMarkerRoutes_routeShow format addressProtocol).mpr
      ⟨hFits.routes ipv6, hParse⟩, fun address hAddress => .inl ?_⟩
    obtain ⟨route, hRoute, hOwns⟩ := (hMem address).mp hAddress
    exact ⟨route, (kernel.mem_family.mp hRoute).1, hOwns⟩
  obtain ⟨ipv4, hIpv4, hMarked4⟩ := hFamily false
  obtain ⟨ipv6, hIpv6, hMarked6⟩ := hFamily true
  have hTaken : ∀ address ∈ Keyed.dedupBy id (Keyed.sortBy id (ipv4 ++ ipv6)), ∀ owned,
      ∃ after, addMarked (kernel.attachments.foldl store ∅) owned address = .ok after := by
    intro address hAddress owned
    refine exists_addMarked ?_ owned
    rintro first hFirst second hSecond rfl hSame
    obtain ⟨one, hOne, rfl⟩ := mem_foldl_store.mp hFirst
    obtain ⟨other, hOther, rfl⟩ := mem_foldl_store.mp hSecond
    have hMarked := (mem_markerRoutes.mp hAddress).elim (hMarked4 _) (hMarked6 _)
    have hInterface := hSingle one hOne other hOther hSame.symm hMarked
    rw [Target.key, Target.key, hInterface]
    exact congrArg (TargetKey.mk · other.2) hSame.symm
  obtain ⟨owned, hOwned⟩ := Checks.exists_foldlM_eq_ok hTaken
    ((kernel.carrying addressProtocol).foldl store ∅)
  refine ⟨⟨owned.values, Keyed.dedupBy id (Keyed.sortBy id (ipv4 ++ ipv6))⟩, ?_⟩
  have hInventory := (parseAddressInventory_addrShow format addressProtocol kernel).mpr
    ⟨hFits.addresses, rfl⟩
  simp only [Kernel.discover, parseOwnershipDiscovery, hInventory, hIpv4, hIpv6, bind, Except.bind]
  rw [hOwned]
  rfl

end Kernels

end KeepAfloat.Ownership
