import BootyCall.Core.Config
import BootyCall.Core.State
import BootyCall.Tftp.Request

namespace BootyCall.Tftp.Listener

open BootyCall.Core Path State Wire Request

def listenBufLen : ℕ := 1500

structure Job where
  request : RrqRequest
  filePath : PathBuf
  mac : Option String
  deriving DecidableEq

/-- What the listener does with one datagram. A refused path is answered from a fresh socket. -/
inductive Reaction
  | ignored
  | reply (packet : Bytes)
  | refused (packet : Bytes)
  | start (job : Job)
  deriving DecidableEq

variable (config : Config) (fs : FileSystem) (hosts : List HostState)

def hostByIp (clientIp : String) : Option HostState :=
  hosts.find? fun h ↦ h.clientIp == some clientIp

def isDefaultRequest (filename : String) : Bool :=
  filename == config.server.defaultBootloaderAmd64 ||
    filename == config.server.defaultBootloaderArm64

def customBootloader (host : HostState) : Option String :=
  (config.findHost host.mac).bind HostConfig.bootloader

def finalFilename (host : Option HostState) (filename : String) : String :=
  match host.bind (customBootloader config) with
  | some custom => if isDefaultRequest config filename then custom else filename
  | none => filename

def resolvedFilePath (clientIp filename : String) : Option PathBuf :=
  safeJoin fs config.server.tftpRoot (finalFilename config (hostByIp hosts clientIp) filename)

def handleRrq (clientIp : String) (request : RrqRequest) : Reaction :=
  match resolvedFilePath config fs hosts clientIp request.filename with
  | none => .refused (makeErrorPacket 2 "Access violation (path traversal)")
  | some filePath =>
    .start { request, filePath, mac := (hostByIp hosts clientIp).map HostState.mac }

/-- One round of `run_tftp_server_with_limit`, up to the point where a transfer is set up. -/
def onPacket (clientIp : String) (datagram : Bytes) : Reaction :=
  let packet := datagram.take listenBufLen
  match opcode packet with
  | none => .ignored
  | some op =>
    if op = opRrq then
      match parseRrq packet with
      | none => .ignored
      | some request => handleRrq config fs hosts clientIp request
    else if op = opWrq then
      .reply (makeErrorPacket 4 "Illegal TFTP operation (WRQ not supported)")
    else .reply (makeErrorPacket 4 "Illegal TFTP operation")

variable {config fs hosts}

theorem hostByIp_some {clientIp : String} {h : HostState}
    (hh : hostByIp hosts clientIp = some h) : h ∈ hosts ∧ h.clientIp = some clientIp :=
  ⟨List.mem_of_find?_eq_some hh, by simpa using List.find?_some hh⟩

theorem handleRrq_start {clientIp : String} {request : RrqRequest} {job : Job}
    (h : handleRrq config fs hosts clientIp request = .start job) :
    job.request = request ∧
      resolvedFilePath config fs hosts clientIp request.filename = some job.filePath ∧
      job.mac = (hostByIp hosts clientIp).map HostState.mac := by
  unfold handleRrq at h
  split at h
  · cases h
  · next filePath hpath =>
    obtain rfl := Reaction.start.inj h
    exact ⟨rfl, hpath, rfl⟩

theorem onPacket_start {clientIp : String} {datagram : Bytes} {job : Job}
    (h : onPacket config fs hosts clientIp datagram = .start job) :
    parseRrq (datagram.take listenBufLen) = some job.request ∧
      resolvedFilePath config fs hosts clientIp job.request.filename = some job.filePath ∧
      job.mac = (hostByIp hosts clientIp).map HostState.mac := by
  simp only [onPacket] at h
  split at h
  · cases h
  · split at h
    · split at h
      · cases h
      · next request hparse =>
        obtain ⟨rfl, hpath, hmac⟩ := handleRrq_start h
        exact ⟨hparse, hpath, hmac⟩
    · split at h <;> cases h

end BootyCall.Tftp.Listener
