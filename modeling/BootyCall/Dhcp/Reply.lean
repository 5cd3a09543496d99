import BootyCall.Dhcp.Server
import BootyCall.Lib.Dotted

namespace BootyCall.Dhcp.Reply

open BootyCall.Core Mac State Tftp.Wire Server Lib.Dotted Lib.Net

def dhcpServerPort : UInt16 := 67
def dhcpClientPort : UInt16 := 68
def pxeProxyPort : UInt16 := 4011

def broadcast : Ipv4Addr := Vector.replicate 4 255

inductive IpAddr
  | v4 (ip : Ipv4Addr)
  | v6 (ip : Vector UInt8 16)
  deriving DecidableEq

def IpAddr.isUnspecified : IpAddr → Bool
  | .v4 ip => decide (ip = unspecified)
  | .v6 ip => decide (ip = Vector.replicate 16 0)

structure SocketAddr where
  ip : IpAddr
  port : UInt16
  deriving DecidableEq

structure Request extends Message where
  xid : UInt32
  flags : UInt16
  giaddr : Ipv4Addr
  clientIdentifier : Option Bytes

def Request.broadcastFlag (r : Request) : Bool := decide (0x8000 ≤ r.flags)

/-- The address the system would send from to a target, and the one the socket is bound to. -/
structure Network where
  getLocalIpForTarget : Ipv4Addr → Option Ipv4Addr
  localAddr : Option SocketAddr

def Network.getDefaultLocalIp (net : Network) : Ipv4Addr :=
  (net.getLocalIpForTarget #v[8, 8, 8, 8]).getD #v[127, 0, 0, 1]

def Network.resolveLocalIp (net : Network) (request : Request) : Ipv4Addr :=
  let target (ip : Ipv4Addr) := if ip = unspecified then none else net.getLocalIpForTarget ip
  let own := match net.localAddr with
    | some ⟨.v4 ip, _⟩ => if ip = unspecified then none else some ip
    | _ => none
  (target request.ciaddr <|> target request.giaddr <|> own).getD net.getDefaultLocalIp

def chooseReplyDest (localPort : UInt16) (srcAddr : SocketAddr) (giaddr ciaddr : Ipv4Addr)
    (broadcastFlag : Bool) : SocketAddr :=
  let clientPort := if srcAddr.port = pxeProxyPort then pxeProxyPort else dhcpClientPort
  if broadcastFlag ∧ giaddr = unspecified then ⟨.v4 broadcast, clientPort⟩
  else if localPort ≠ dhcpServerPort then srcAddr
  else if giaddr ≠ unspecified then ⟨.v4 giaddr, dhcpServerPort⟩
  else if ciaddr ≠ unspecified then ⟨.v4 ciaddr, dhcpClientPort⟩
  else if !srcAddr.ip.isUnspecified then srcAddr
  else ⟨.v4 broadcast, clientPort⟩

inductive Opcode
  | bootRequest
  | bootReply

structure ReplyMessage where
  opcode : Opcode
  xid : UInt32
  flags : UInt16
  ciaddr : Ipv4Addr
  yiaddr : Ipv4Addr
  siaddr : Ipv4Addr
  giaddr : Ipv4Addr
  chaddr : Bytes
  msgType : MessageType
  serverIdentifier : Ipv4Addr
  classIdentifier : Bytes
  tftpServerName : Bytes
  bootfileName : Bytes
  clientIdentifier : Option Bytes

def craft (request : Request) (msgType : MessageType) (ourIp : Ipv4Addr) (path : String) :
    ReplyMessage where
  opcode := .bootReply
  xid := request.xid
  flags := request.flags
  ciaddr := request.ciaddr
  yiaddr := unspecified
  siaddr := ourIp
  giaddr := request.giaddr
  chaddr := request.chaddr
  msgType := msgType
  serverIdentifier := ourIp
  classIdentifier := asBytes "PXEClient"
  tftpServerName := asBytes (ipString ourIp)
  bootfileName := asBytes path
  clientIdentifier := request.clientIdentifier

inductive Received
  | failed
  | undecodable
  | message (srcAddr : SocketAddr) (request : Request)

structure Round where
  config : Config
  now : SystemTime
  network : Network
  received : Received

def IpAddr.toV4 : IpAddr → Option Ipv4Addr
  | .v4 ip => some ip
  | .v6 _ => none

/-- The store, and the reply with its destination; the steering is that of `onMessage`. -/
def serve (r : Round) (store : StateStore) : StateStore × Option (SocketAddr × ReplyMessage) :=
  match r.received with
  | .failed | .undecodable => (store, none)
  | .message srcAddr request =>
    let ourIp := r.network.resolveLocalIp request
    let (store, answer) :=
      onMessage r.config r.now srcAddr.ip.toV4 ourIp request.toMessage store
    let localPort := (r.network.localAddr.map SocketAddr.port).getD 0
    (store, answer.map fun a ↦
      (chooseReplyDest localPort srcAddr request.giaddr request.ciaddr request.broadcastFlag,
        craft request a.msgType ourIp a.bootfileName))

/-- The loop; `encode` fails where a reply cannot be encoded, and a datagram that cannot be sent is
lost like any other. -/
def run (encode : ReplyMessage → Option Bytes) (store : StateStore) (rounds : List Round) :
    StateStore × List (SocketAddr × Bytes) :=
  rounds.foldl (fun s r ↦
    let (store, reply) := serve r s.1
    (store, s.2 ++ (reply.bind fun p ↦ (encode p.2).map fun bytes ↦ (p.1, bytes)).toList))
    (store, [])

/-- Who asks: its address if it has one, the port it listens on, and the relay it is behind. -/
structure Station where
  addr : Option Ipv4Addr
  port : UInt16
  relay : Option Ipv4Addr
  addr_specified : addr ≠ some unspecified
  relay_specified : relay ≠ some unspecified

/-- How a datagram of the station arrives: from the relay, which says where it listens, or from the
station itself, which gives its address as `ciaddr` or leaves that out. -/
def Sends (station : Station) (srcAddr : SocketAddr) (request : Request) : Prop :=
  match station.relay with
  | some relay => request.giaddr = relay
  | none => request.giaddr = unspecified ∧
    (request.ciaddr = unspecified ∨ station.addr = some request.ciaddr) ∧
    srcAddr = ⟨.v4 (station.addr.getD unspecified), station.port⟩

/-- The relay takes what is sent to it; without one the station takes what is sent to everybody, and
to its address once it has one. -/
def Hears (station : Station) (dest : SocketAddr) : Prop :=
  match station.relay with
  | some relay => dest = ⟨.v4 relay, dhcpServerPort⟩
  | none => dest.port = station.port ∧
    (dest.ip = .v4 broadcast ∨ ∃ addr, station.addr = some addr ∧ dest.ip = .v4 addr)

/-- Behind a relay from port 67 on, and from another port if the relay has sent from where it
listens. Else on one of the two ports of a client where the reply is a broadcast, on the one where
it is sent to the address in the request, and with an address where it is sent back. -/
def Reached (localPort : UInt16) (station : Station) (srcAddr : SocketAddr) (request : Request) :
    Prop :=
  match station.relay with
  | some relay => localPort = dhcpServerPort ∨ srcAddr = ⟨.v4 relay, dhcpServerPort⟩
  | none =>
    if request.broadcastFlag ∨ localPort = dhcpServerPort ∧ station.addr = none then
      station.port = dhcpClientPort ∨ station.port = pxeProxyPort
    else if localPort = dhcpServerPort ∧ request.ciaddr ≠ unspecified then
      station.port = dhcpClientPort
    else station.addr.isSome = true

structure Answers (config : Config) (mac : String) (ourIp : Ipv4Addr) (request : Request)
    (reply : ReplyMessage) : Prop where
  opcode : reply.opcode = .bootReply
  echo : reply.xid = request.xid ∧ reply.flags = request.flags ∧ reply.ciaddr = request.ciaddr ∧
    reply.giaddr = request.giaddr ∧ reply.chaddr = request.chaddr ∧
    reply.clientIdentifier = request.clientIdentifier
  unassigned : reply.yiaddr = unspecified
  kind : request.msgType = some .discover ∧ reply.msgType = .offer ∨
    (request.msgType = some .request ∨ request.msgType = some .inform) ∧ reply.msgType = .ack
  server : reply.siaddr = ourIp ∧ reply.serverIdentifier = ourIp ∧
    ∃ text, reply.tftpServerName = asBytes text ∧
      readIpv4Addr text.toList = some (ourIp.toList.map UInt8.toNat, [])
  file : reply.bootfileName = asBytes (bootloaderPath config mac request.architecture)

def sent (encode : ReplyMessage → Option Bytes) (r : Round) : List (SocketAddr × Bytes) :=
  ((serve r {}).2.bind fun p ↦ (encode p.2).map fun bytes ↦ (p.1, bytes)).toList

/-- A client of the service is answered once, if the reply can be encoded, and hears the answer
exactly if it can be reached; nobody else is. -/
def Answered (encode : ReplyMessage → Option Bytes) (r : Round)
    (answer : List (SocketAddr × Bytes)) : Prop :=
  match r.received with
  | .failed | .undecodable => answer = []
  | .message srcAddr request =>
    match clientMac request.toMessage with
    | none => answer = []
    | some mac => ∃ dest reply,
      Answers r.config mac (r.network.resolveLocalIp request) request reply ∧
        answer = ((encode reply).map fun bytes ↦ (dest, bytes)).toList ∧
        ∀ station, Sends station srcAddr request →
          (Hears station dest ↔
            Reached ((r.network.localAddr.map SocketAddr.port).getD 0) station srcAddr request)

variable {station : Station} {srcAddr : SocketAddr} {request : Request} {localPort : UInt16}

theorem clientPort_eq_iff (port : UInt16) :
    (if port = pxeProxyPort then pxeProxyPort else dhcpClientPort) = port ↔
      port = dhcpClientPort ∨ port = pxeProxyPort := by
  split
  · next h => exact iff_of_true h.symm (.inr h)
  · next h => exact ⟨fun h' ↦ .inl h'.symm, fun h' ↦ (h'.resolve_right h).symm⟩

theorem chooseReplyDest_relay {relay : Ipv4Addr} (h : relay ≠ unspecified) (ciaddr : Ipv4Addr)
    (flag : Bool) : chooseReplyDest localPort srcAddr relay ciaddr flag =
      if localPort = dhcpServerPort then ⟨.v4 relay, dhcpServerPort⟩ else srcAddr := by
  rw [chooseReplyDest, if_neg fun h' ↦ h h'.2, if_pos h]
  by_cases hport : localPort = dhcpServerPort
  · rw [if_neg (not_not.mpr hport), if_pos hport]
  · rw [if_pos hport, if_neg hport]

theorem chooseReplyDest_direct (addr : Option Ipv4Addr) (haddr : addr ≠ some unspecified)
    {ciaddr : Ipv4Addr} (hciaddr : ciaddr = unspecified ∨ addr = some ciaddr) (port : UInt16)
    (flag : Bool) :
    chooseReplyDest localPort ⟨.v4 (addr.getD unspecified), port⟩ unspecified ciaddr flag =
      if flag ∨ localPort = dhcpServerPort ∧ addr = none then
        ⟨.v4 broadcast, if port = pxeProxyPort then pxeProxyPort else dhcpClientPort⟩
      else if localPort = dhcpServerPort ∧ ciaddr ≠ unspecified then
        ⟨.v4 (addr.getD unspecified), dhcpClientPort⟩
      else ⟨.v4 (addr.getD unspecified), port⟩ := by
  cases flag with
  | true => simp [chooseReplyDest]
  | false =>
    by_cases hport : localPort = dhcpServerPort
    · cases addr with
      | none =>
        obtain rfl : ciaddr = unspecified := by simpa using hciaddr
        simp [chooseReplyDest, hport, IpAddr.isUnspecified]
      | some ip =>
        have hip : ip ≠ unspecified := fun h ↦ haddr (congrArg some h)
        by_cases hgiven : ciaddr = unspecified
        · simp [chooseReplyDest, hport, hgiven, hip, IpAddr.isUnspecified]
        · obtain rfl : ip = ciaddr := by simpa [hgiven] using hciaddr
          simp [chooseReplyDest, hport, hip]
    · simp [chooseReplyDest, hport]

theorem heard_iff (h : Sends station srcAddr request) :
    Hears station (chooseReplyDest localPort srcAddr request.giaddr request.ciaddr
      request.broadcastFlag) ↔ Reached localPort station srcAddr request := by
  rw [Sends] at h
  rw [Hears, Reached]
  cases hrelay : station.relay with
  | some relay =>
    rw [hrelay] at h
    have hspecified : relay ≠ unspecified := by
      rintro rfl
      exact station.relay_specified hrelay
    rw [show request.giaddr = relay from h, chooseReplyDest_relay hspecified]
    by_cases hport : localPort = dhcpServerPort
    · simp [hport]
    · simp [hport]
  | none =>
    rw [hrelay] at h
    obtain ⟨hgiaddr, hciaddr, rfl⟩ := h
    rw [hgiaddr, chooseReplyDest_direct _ station.addr_specified hciaddr]
    dsimp only
    split
    · simp only [clientPort_eq_iff, true_or, and_true]
    · next hunicast =>
      have hbroadcast : unspecified ≠ broadcast := by decide
      split
      · next hsent =>
        obtain ⟨ip, hip⟩ : ∃ ip, station.addr = some ip :=
          ⟨_, hciaddr.resolve_left hsent.2⟩
        simp [hip, eq_comm]
      · cases hip : station.addr with
        | none => simp [hbroadcast]
        | some ip => simp

theorem dotted_succ (i : ℕ) (octets : List ℕ) : dotted (i + 1) octets = dotted 1 octets := by
  induction octets generalizing i with
  | nil => rfl
  | cons n octets ih => simp [dotted, ih (i + 1), ih 1]

theorem dotted_intercalate (n : ℕ) (octets : List ℕ) :
    (".".intercalate ((n :: octets).map toString)).toList = dotted 0 (n :: octets) := by
  induction octets generalizing n with
  | nil => simp [dotted]
  | cons m octets ih =>
    have hrest := ih m
    simp only [List.map_cons] at hrest
    simp only [List.map_cons, String.intercalate_cons_cons, String.toList_append, hrest]
    simp [dotted, dotted_succ 1]

theorem readIpv4Addr_ipString (ip : Ipv4Addr) :
    readIpv4Addr (ipString ip).toList = some (ip.toList.map UInt8.toNat, []) := by
  have hlength : (ip.toList.map UInt8.toNat).length = 4 := by simp
  have hbytes : ∀ n ∈ ip.toList.map UInt8.toNat, n < 256 := by
    intro n hn
    obtain ⟨b, -, rfl⟩ := List.mem_map.mp hn
    exact b.toNat_lt
  have htext : (ipString ip).toList = dotted 0 (ip.toList.map UInt8.toNat) := by
    rw [ipString]
    have hmap : ip.toList.map (fun b ↦ toString b.toNat) =
        (ip.toList.map UInt8.toNat).map toString := by simp
    rw [hmap]
    cases hoctets : ip.toList.map UInt8.toNat with
    | nil => rfl
    | cons n octets => exact dotted_intercalate n octets
  have hread := readOctets_dotted hbytes 0
  rw [hlength] at hread
  rw [htext, readIpv4Addr]
  exact hread

theorem onMessage_answer (config : Config) (now : SystemTime) (src : Option Ipv4Addr)
    (ourIp : Ipv4Addr) (message : Message) (store : StateStore) :
    (onMessage config now src ourIp message store).2 =
      (clientMac message).bind fun mac ↦ (responseType message).map fun msgType ↦
        ⟨msgType, ourIp, bootloaderPath config mac message.architecture⟩ := by
  rw [onMessage]
  cases clientMac message with
  | none => rfl
  | some mac => cases responseType message <;> rfl

theorem serve_reply (r : Round) (store store' : StateStore) :
    (serve r store).2 = (serve r store').2 := by
  rw [serve, serve]
  split
  · rfl
  · rfl
  · simp only [onMessage_answer]

theorem run_sent (encode : ReplyMessage → Option Bytes) (store : StateStore)
    (rounds : List Round) : (run encode store rounds).2 = rounds.flatMap (sent encode) := by
  induction rounds using List.reverseRecOn with
  | nil => rfl
  | append_singleton rounds r ih =>
    rw [List.flatMap_append, ← ih, run, List.foldl_append, ← run]
    simp only [List.foldl_cons, List.foldl_nil, List.flatMap_cons, List.flatMap_nil,
      List.append_nil, sent, serve_reply r _ {}]

theorem responseType_of_clientMac {message : Message} {mac : String}
    (h : clientMac message = some mac) : ∃ msgType, responseType message = some msgType := by
  rw [clientMac] at h
  split at h
  · split at h
    · next hpxe => exact Option.isSome_iff_exists.mp hpxe.2
    · cases h
  · cases h

theorem kind_of_responseType {message : Message} {msgType : MessageType}
    (h : responseType message = some msgType) :
    message.msgType = some .discover ∧ msgType = .offer ∨
      (message.msgType = some .request ∨ message.msgType = some .inform) ∧ msgType = .ack := by
  rw [responseType] at h
  split at h
  · next hdiscover => exact .inl ⟨hdiscover, (Option.some.inj h).symm⟩
  · next hrequest => exact .inr ⟨.inl hrequest, (Option.some.inj h).symm⟩
  · next hinform => exact .inr ⟨.inr hinform, (Option.some.inj h).symm⟩
  · cases h

theorem answers_craft (config : Config) (mac : String) (ourIp : Ipv4Addr) {msgType : MessageType}
    (h : responseType request.toMessage = some msgType) :
    Answers config mac ourIp request
      (craft request msgType ourIp (bootloaderPath config mac request.architecture)) where
  opcode := rfl
  echo := ⟨rfl, rfl, rfl, rfl, rfl, rfl⟩
  unassigned := rfl
  kind := kind_of_responseType h
  server := ⟨rfl, rfl, ipString ourIp, rfl, readIpv4Addr_ipString ourIp⟩
  file := rfl

theorem answered_sent (encode : ReplyMessage → Option Bytes) (r : Round) :
    Answered encode r (sent encode r) := by
  rw [Answered, sent, serve]
  cases r.received with
  | failed => rfl
  | undecodable => rfl
  | message srcAddr request =>
    simp only [onMessage_answer]
    cases hmac : clientMac request.toMessage with
    | none => rfl
    | some mac =>
      obtain ⟨msgType, hkind⟩ := responseType_of_clientMac hmac
      refine ⟨_, _, answers_craft r.config mac (r.network.resolveLocalIp request) hkind, ?_,
        fun station hsends ↦ heard_iff hsends⟩
      rw [hkind]
      rfl

/-- Over any run of the loop, each message of a client and nothing else is answered, once and in
order, by a reply that its sender hears exactly if it can be reached. -/
theorem answered_and_heard (encode : ReplyMessage → Option Bytes) (store : StateStore)
    (rounds : List Round) :
    ∃ answers, List.Forall₂ (Answered encode) rounds answers ∧
      (run encode store rounds).2 = answers.flatten := by
  refine ⟨rounds.map (sent encode), ?_, ?_⟩
  · rw [List.forall₂_map_right_iff, List.forall₂_same]
    intro r _
    exact answered_sent encode r
  · rw [run_sent, List.flatMap_def]

end BootyCall.Dhcp.Reply
