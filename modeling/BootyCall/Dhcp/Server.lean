import BootyCall.Core.Config
import BootyCall.Core.State
import BootyCall.Tftp.Wire

namespace BootyCall.Dhcp.Server

open BootyCall.Core Mac State Tftp.Wire

def archBiosX86 : UInt16 := 0
def archArm64 : UInt16 := 11

/-- The codes for which the DHCP library has the names `Architecture::X64` and
`Architecture::BC`. -/
structure ArchCodes where
  x64 : UInt16
  bc : UInt16

abbrev Ipv4Addr := Vector UInt8 4

def unspecified : Ipv4Addr := Vector.replicate 4 0

def ipString (ip : Ipv4Addr) : String :=
  ".".intercalate (ip.toList.map fun b ↦ toString b.toNat)

inductive MessageType
  | discover
  | request
  | inform
  | offer
  | ack
  | other
  deriving DecidableEq

/-- The fields of a DHCP message that the server reads, and the codes of the library that has
decoded it. -/
structure Message where
  codes : ArchCodes
  chaddr : Bytes
  ciaddr : Ipv4Addr
  classIdentifier : Option Bytes
  architecture : Option UInt16
  msgType : Option MessageType

structure Reply where
  msgType : MessageType
  nextServer : Ipv4Addr
  bootfileName : String

def isPxeClient (request : Message) : Bool :=
  match request.classIdentifier with
  | some bytes => decide (asBytes "PXEClient" <:+: bytes)
  | none => false

def selectDefaultBootloader (server : ServerConfig) (arch : Option UInt16) : String :=
  if arch = some archArm64 then server.defaultBootloaderArm64
  else if arch = some archBiosX86 then server.defaultBootloaderBios
  else server.defaultBootloaderAmd64

def archStr (codes : ArchCodes) (arch : Option UInt16) : String :=
  match arch with
  | some a =>
    if a = codes.x64 then "x86_64"
    else if a = codes.bc then "BC (x86_64)"
    else if a = archArm64 then "aarch64"
    else if a = archBiosX86 then "x86 (BIOS)"
    else "other"
  | none => "unknown"

def bootloaderPath (config : Config) (mac : String) (arch : Option UInt16) : String :=
  match (config.findHost mac).bind HostConfig.bootloader with
  | some overridePath => overridePath
  | none => selectDefaultBootloader config.server arch

def responseType (request : Message) : Option MessageType :=
  match request.msgType with
  | some .discover => some .offer
  | some .request | some .inform => some .ack
  | _ => none

def clientIp (src : Option Ipv4Addr) (request : Message) : Ipv4Addr :=
  if request.ciaddr = unspecified then src.getD unspecified else request.ciaddr

def clientMac (request : Message) : Option String :=
  if h : 6 ≤ request.chaddr.length then
    if isPxeClient request ∧ (responseType request).isSome then
      some (formatMac ⟨(request.chaddr.take 6).toArray, by simpa using h⟩)
    else none
  else none

def hostUpdate (config : Config) (src : Option Ipv4Addr) (request : Message) (mac : String) :
    HostUpdate where
  name := (config.findHost mac).map HostConfig.name
  ip := some (ipString (clientIp src request))
  arch := some (archStr request.codes request.architecture)

/-- One round of `run_dhcp_server`; `ourIp` is the address resolved for this client. -/
def onMessage (config : Config) (now : SystemTime) (src : Option Ipv4Addr) (ourIp : Ipv4Addr)
    (request : Message) (store : StateStore) : StateStore × Option Reply :=
  match clientMac request, responseType request with
  | some mac, some msgType =>
    let path := bootloaderPath config mac request.architecture
    let arch := archStr request.codes request.architecture
    let store := store.updateHostStatus now mac .polling (hostUpdate config src request mac)
    (store.logEvent now "INFO" (some mac)
        ("Serving PXE redirection (Bootloader: " ++ path ++ ", Next-Server: " ++ ipString ourIp ++
          ") for " ++ arch),
      some { msgType, nextServer := ourIp, bootfileName := path })
  | _, _ => (store, none)

theorem onMessage_hosts (config : Config) (now : SystemTime) (src : Option Ipv4Addr)
    (ourIp : Ipv4Addr) (request : Message) (store : StateStore) :
    (onMessage config now src ourIp request store).1.hosts =
      match clientMac request with
      | some mac =>
        (store.updateHostStatus now mac .polling (hostUpdate config src request mac)).hosts
      | none => store.hosts := by
  rw [onMessage]
  cases hmac : clientMac request with
  | none => rfl
  | some mac =>
    have hreply : (responseType request).isSome = true := by
      rw [clientMac] at hmac
      split at hmac
      · split at hmac
        · next h => exact h.2
        · contradiction
      · contradiction
    obtain ⟨msgType, hm⟩ := Option.isSome_iff_exists.mp hreply
    simp only [hm, StateStore.logEvent_hosts]

end BootyCall.Dhcp.Server
