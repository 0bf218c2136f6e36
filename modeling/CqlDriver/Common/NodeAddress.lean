import Mathlib.Data.List.Induction
import CqlDriver.Common.Exception

/-!
# The address of a node

The configuration of a node has the name of its host and the socket address that the name stands
for. A name that is an IPv4 address fixes the socket address; another name is resolved when a
connection is made, and the result is kept for some time.

A name that is an IPv6 address is refused. That is found out after the name was written, while the
socket address stays what it was: it is still the one of the host before.

## Main definitions

* `InetAddresses` — which names are addresses
* `NodeConfigurationData.setAddress`, `NodeConfigurationData.getIpAddress`,
  `NodeConfigurationData.updateIpAddress` — the functions of a configuration
* `AddressHistory` — a configuration, and the socket addresses that were given for its host
* `AddressBelongs` — the socket addresses belong to the hosts

## Main results

* `addressBelongs_iff` — exactly when no new name is an IPv6 address
-/

namespace CqlDriver

/-- The class of seastar for addresses, and its socket addresses. -/
structure InetAddresses (InetAddress SocketAddress : Type) where
  /-- The constructor; it throws `std::invalid_argument` when the name is not an address. -/
  inetAddress : List Char → Option InetAddress
  /-- `in_family() == family::INET`. -/
  isInet : InetAddress → Bool
  /-- `socket_address(ipv4_addr(inetAddress, port))`. -/
  socketAddress : InetAddress → UInt16 → SocketAddress
  /-- A default constructed socket address. -/
  noAddress : SocketAddress

/-- The data of a configuration that its addresses depend on. -/
structure NodeConfigurationData (SocketAddress : Type) where
  address : List Char × UInt16
  ipAddress : SocketAddress
  ipAddressIsResolved : Bool
  ipAddressIsFixed : Bool
  /-- In nanoseconds. -/
  ipAddressUpdatedTime : Int64

variable {InetAddress SocketAddress : Type} {net : InetAddresses InetAddress SocketAddress}

namespace NodeConfigurationData

/-- `NodeConfigurationData()`. -/
def init (net : InetAddresses InetAddress SocketAddress) : NodeConfigurationData SocketAddress where
  address := ([], 0)
  ipAddress := net.noAddress
  ipAddressIsResolved := false
  ipAddressIsFixed := false
  ipAddressUpdatedTime := 0

/-- Set the hostname and the port of this node. -/
def setAddress (net : InetAddresses InetAddress SocketAddress)
    (data : NodeConfigurationData SocketAddress) (hostname : List Char) (port : UInt16) :
    NodeConfigurationData SocketAddress × Except Exception Unit :=
  let data := { data with address := (hostname, port) }
  match net.inetAddress hostname with
  | some inetAddress =>
    if net.isInet inetAddress then
      ({ data with
          ipAddress := net.socketAddress inetAddress port
          ipAddressIsResolved := true
          ipAddressIsFixed := true }, .ok ())
    else
      -- not a `std::invalid_argument`, so it leaves the function
      (data, .error ⟨.notImplemented, "ipv6 address isn't supported yet"⟩)
  | none =>
    ({ data with
        ipAddressIsResolved := false
        ipAddressIsFixed := false
        ipAddressUpdatedTime := 0 }, .ok ())

/-- Get the resolved ip address, if it is available and not expired. Addresses are kept for a time
in milliseconds. -/
def getIpAddress (data : NodeConfigurationData SocketAddress) (dnsCacheTime now : Int64) :
    Option SocketAddress :=
  if data.ipAddressIsResolved ∧
      (data.ipAddressIsFixed ∨ now - data.ipAddressUpdatedTime ≤ dnsCacheTime * 1000000) then
    some data.ipAddress
  else none

/-- Update the resolved ip address. -/
def updateIpAddress (data : NodeConfigurationData SocketAddress) (ipAddress : SocketAddress)
    (now : Int64) : NodeConfigurationData SocketAddress × Except Exception Unit :=
  if data.ipAddressIsFixed then
    (data, .error (logicException "should not update a fixed ip address"))
  else
    ({ data with
        ipAddress := ipAddress
        ipAddressIsResolved := true
        ipAddressUpdatedTime := now }, .ok ())

end NodeConfigurationData

/-! ## Runs -/

/-- A call that changes a configuration. -/
inductive AddressCall (SocketAddress : Type)
  | setAddress (hostname : List Char) (port : UInt16)
  | updateIpAddress (ipAddress : SocketAddress) (now : Int64)

/-- A configuration, and the socket addresses that it took after its host was set. -/
structure AddressHistory (SocketAddress : Type) where
  data : NodeConfigurationData SocketAddress
  given : List SocketAddress

namespace AddressHistory

def start (net : InetAddresses InetAddress SocketAddress) : AddressHistory SocketAddress :=
  ⟨.init net, []⟩

def step (net : InetAddresses InetAddress SocketAddress) (history : AddressHistory SocketAddress) :
    AddressCall SocketAddress → AddressHistory SocketAddress
  | .setAddress hostname port =>
    match history.data.setAddress net hostname port with
    | (data, .ok _) => ⟨data, []⟩
    -- the host was set as well if it is another one
    | (data, .error _) => ⟨data, if data.address = history.data.address then history.given else []⟩
  | .updateIpAddress ipAddress now =>
    match history.data.updateIpAddress ipAddress now with
    | (data, .ok _) => ⟨data, ipAddress :: history.given⟩
    | (data, .error _) => ⟨data, history.given⟩

/-- The history that calls leave. -/
def after (net : InetAddresses InetAddress SocketAddress)
    (calls : List (AddressCall SocketAddress)) : AddressHistory SocketAddress :=
  calls.foldl (step net) (start net)

theorem after_append (calls : List (AddressCall SocketAddress)) (call : AddressCall SocketAddress) :
    after net (calls ++ [call]) = step net (after net calls) call := by
  simp [after]

end AddressHistory

open AddressHistory (after start step)

/-- The socket address is the one of a name that is an IPv4 address. -/
def IsLiteral (net : InetAddresses InetAddress SocketAddress) (address : List Char × UInt16)
    (ipAddress : SocketAddress) : Prop :=
  ∃ inetAddress, net.inetAddress address.1 = some inetAddress ∧ net.isInet inetAddress ∧
    ipAddress = net.socketAddress inetAddress address.2

/-- Calls keep the addresses of a configuration together. -/
structure AddressBelongs (net : InetAddresses InetAddress SocketAddress)
    (calls : List (AddressCall SocketAddress)) : Prop where
  /-- A call of `setAddress` that throws leaves the configuration as it was. -/
  throwing : ∀ before hostname port ex, before ++ [.setAddress hostname port] <+: calls →
    ((after net before).data.setAddress net hostname port).2 = .error ex →
    ((after net before).data.setAddress net hostname port).1 = (after net before).data
  /-- A socket address is the one of the host, or was given for the host. -/
  resolved : ∀ before dnsCacheTime now ipAddress, before <+: calls →
    (after net before).data.getIpAddress dnsCacheTime now = some ipAddress →
    IsLiteral net (after net before).data.address ipAddress ∨ ipAddress ∈ (after net before).given

/-- The name is an IPv6 address. -/
def IsInet6 (net : InetAddresses InetAddress SocketAddress) (hostname : List Char) : Prop :=
  ∃ inetAddress, net.inetAddress hostname = some inetAddress ∧ net.isInet inetAddress = false

/-- Hosts are set to IPv6 addresses only where they are these already. -/
def SetsNoInet6 (net : InetAddresses InetAddress SocketAddress)
    (calls : List (AddressCall SocketAddress)) : Prop :=
  ∀ before hostname port, before ++ [.setAddress hostname port] <+: calls →
    IsInet6 net hostname → (after net before).data.address = (hostname, port)

/-! ## One call -/

section Call

variable {data : NodeConfigurationData SocketAddress} {hostname : List Char} {port : UInt16}

/-- What a call of `setAddress` does. -/
inductive SetAddressCase (net : InetAddresses InetAddress SocketAddress)
    (data : NodeConfigurationData SocketAddress) (hostname : List Char) (port : UInt16) :
    NodeConfigurationData SocketAddress × Except Exception Unit → Prop
  | fixed (ipAddress : SocketAddress) (h : IsLiteral net (hostname, port) ipAddress) :
    SetAddressCase net data hostname port
      (⟨(hostname, port), ipAddress, true, true, data.ipAddressUpdatedTime⟩, .ok ())
  | inet6 (h : IsInet6 net hostname) : SetAddressCase net data hostname port
      ({ data with address := (hostname, port) },
        .error ⟨.notImplemented, "ipv6 address isn't supported yet"⟩)
  | name : SetAddressCase net data hostname port
      (⟨(hostname, port), data.ipAddress, false, false, 0⟩, .ok ())

theorem setAddress_cases (net : InetAddresses InetAddress SocketAddress)
    (data : NodeConfigurationData SocketAddress) (hostname : List Char) (port : UInt16) :
    SetAddressCase net data hostname port (data.setAddress net hostname port) := by
  rw [NodeConfigurationData.setAddress]
  cases hparse : net.inetAddress hostname with
  | none => exact .name
  | some inetAddress =>
    by_cases hinet : net.isInet inetAddress
    · simp only [hinet, if_true]
      exact .fixed _ ⟨inetAddress, hparse, hinet, rfl⟩
    · simp only [hinet]
      exact .inet6 ⟨inetAddress, hparse, by simpa using hinet⟩

/-- Exactly the IPv6 addresses are refused. -/
theorem setAddress_eq_error_iff : (∃ ex, (data.setAddress net hostname port).2 = .error ex) ↔
    IsInet6 net hostname := by
  constructor
  · rintro ⟨ex, hex⟩
    cases hparse : net.inetAddress hostname with
    | none =>
      rw [NodeConfigurationData.setAddress, hparse] at hex
      cases hex
    | some inetAddress =>
      refine ⟨inetAddress, hparse, ?_⟩
      by_contra hinet
      rw [NodeConfigurationData.setAddress, hparse] at hex
      simp [hinet] at hex
  · rintro ⟨inetAddress, hparse, hinet⟩
    rw [NodeConfigurationData.setAddress, hparse]
    simp [hinet]

/-- A refused name stays. -/
theorem setAddress_of_inet6 (h : IsInet6 net hostname) :
    (data.setAddress net hostname port).1 = { data with address := (hostname, port) } := by
  obtain ⟨inetAddress, hparse, hinet⟩ := h
  rw [NodeConfigurationData.setAddress, hparse]
  simp [hinet]

/-- The configuration is as it was only if it had this name. -/
theorem setAddress_unchanged_iff (h : IsInet6 net hostname) :
    (data.setAddress net hostname port).1 = data ↔ data.address = (hostname, port) := by
  rw [setAddress_of_inet6 h]
  constructor
  · intro hsame
    rw [← hsame]
  · intro haddress
    rw [← haddress]

end Call

/-! ## The invariant -/

/-- A fixed socket address is the one of the host, another one was given for the host. -/
structure AddressInvariant (net : InetAddresses InetAddress SocketAddress)
    (history : AddressHistory SocketAddress) : Prop where
  fixed : history.data.ipAddressIsFixed → IsLiteral net history.data.address history.data.ipAddress
  given : history.data.ipAddressIsFixed = false → history.data.ipAddressIsResolved →
    history.data.ipAddress ∈ history.given

namespace AddressInvariant

variable {history : AddressHistory SocketAddress} {hostname : List Char} {port : UInt16}

theorem start : AddressInvariant net (start net) where
  fixed h := by cases h
  given _ h := by cases h

theorem setAddress (h : AddressInvariant net history)
    (hname : IsInet6 net hostname → history.data.address = (hostname, port)) :
    AddressInvariant net (step net history (.setAddress hostname port)) := by
  have hcases := setAddress_cases net history.data hostname port
  rw [step]
  generalize history.data.setAddress net hostname port = result at hcases
  cases hcases with
  | fixed ipAddress hliteral =>
    -- the address was written together with its name
    constructor
    · exact fun _ => hliteral
    · intro hfixed
      cases hfixed
  | name =>
    -- nothing is resolved yet
    constructor
    · intro hfixed
      cases hfixed
    · intro _ hresolved
      cases hresolved
  | inet6 hinet6 =>
    -- nothing changes
    have haddress := hname hinet6
    simp only [haddress, if_true]
    rw [← haddress]
    exact h

theorem updateIpAddress (h : AddressInvariant net history) (ipAddress : SocketAddress)
    (now : Int64) : AddressInvariant net (step net history (.updateIpAddress ipAddress now)) := by
  rw [step, NodeConfigurationData.updateIpAddress]
  cases hfixed : history.data.ipAddressIsFixed with
  | true => exact h
  | false =>
    constructor
    · intro hfixed
      cases hfixed
    · exact fun _ _ => List.mem_cons_self

/-- The invariant holds along a run that sets no other IPv6 address. -/
theorem after {calls before : List (AddressCall SocketAddress)} (hsafe : SetsNoInet6 net calls)
    (hpre : before <+: calls) : AddressInvariant net (after net before) := by
  induction before using List.reverseRecOn with
  | nil => exact start
  | append_singleton before call ih =>
    have hbefore := ih ((List.prefix_append before [call]).trans hpre)
    rw [AddressHistory.after_append]
    cases call with
    | setAddress hostname port => exact hbefore.setAddress (hsafe before hostname port hpre)
    | updateIpAddress ipAddress now => exact hbefore.updateIpAddress ipAddress now

/-- The socket address that is found. -/
theorem resolved (h : AddressInvariant net history) {dnsCacheTime now : Int64}
    {ipAddress : SocketAddress}
    (hfound : history.data.getIpAddress dnsCacheTime now = some ipAddress) :
    IsLiteral net history.data.address ipAddress ∨ ipAddress ∈ history.given := by
  rw [NodeConfigurationData.getIpAddress] at hfound
  split at hfound
  next hresolved =>
    obtain rfl := Option.some.inj hfound
    by_cases hfixed : history.data.ipAddressIsFixed
    · exact Or.inl (h.fixed hfixed)
    · exact Or.inr (h.given (by simpa using hfixed) hresolved.1)
  · cases hfound

end AddressInvariant

/-! ## All runs -/

/-- The addresses belong together exactly in the runs that set no other IPv6 address. -/
theorem addressBelongs_iff (net : InetAddresses InetAddress SocketAddress)
    (calls : List (AddressCall SocketAddress)) :
    AddressBelongs net calls ↔ SetsNoInet6 net calls := by
  constructor
  · intro hbelongs before hostname port hpre hinet6
    obtain ⟨ex, hex⟩ := setAddress_eq_error_iff.mpr hinet6
    exact (setAddress_unchanged_iff hinet6).mp
      (hbelongs.throwing before hostname port ex hpre hex)
  · intro hsafe
    constructor
    · intro before hostname port ex hpre hex
      have hinet6 := setAddress_eq_error_iff.mp ⟨ex, hex⟩
      exact (setAddress_unchanged_iff hinet6).mpr (hsafe before hostname port hpre hinet6)
    · intro before dnsCacheTime now ipAddress hpre hfound
      exact (AddressInvariant.after hsafe hpre).resolved hfound

/-- Two names that are addresses. -/
def loopback : InetAddresses (BitVec 32 ⊕ BitVec 128) (Option (BitVec 32 × UInt16)) where
  inetAddress hostname :=
    if hostname = "127.0.0.1".toList then some (.inl 0x7f000001)
    else if hostname = "::1".toList then some (.inr 1)
    else none
  isInet := Sum.isLeft
  socketAddress inetAddress port := inetAddress.getLeft?.map fun address => (address, port)
  noAddress := none

/-- After `::1` was refused, it is the name of the node, and the connections go to 127.0.0.1. -/
theorem not_addressBelongs_inet6 : ¬ AddressBelongs loopback
    [.setAddress "127.0.0.1".toList 9042, .setAddress "::1".toList 9042] := by
  intro hbelongs
  have hresolved := hbelongs.resolved _ 0 0 (some (0x7f000001, 9042)) (List.prefix_refl _)
    (by decide)
  rcases hresolved with ⟨inetAddress, hparse, hinet, _⟩ | hgiven
  · obtain rfl : Sum.inr 1 = inetAddress := Option.some.inj hparse
    cases hinet
  · cases hgiven

end CqlDriver
