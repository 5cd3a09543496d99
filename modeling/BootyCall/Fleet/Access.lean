import BootyCall.Fleet.Assignment
import BootyCall.Http.Api

namespace BootyCall.Fleet.Access

open BootyCall.Core Mac Path State Http.Server Http.Scripts Http.Api Servers Assignment

/-- The routes of the HTTP server; those left out neither read the token nor touch the store. -/
inductive Request
  | poll (segment : String)
  | override (body : Except StatusCode OverrideRequest)
  | status (hosts : List HostState)
  | logs
  | other

inductive Traffic
  | dhcp (now : SystemTime) (src : Option Dhcp.Server.Ipv4Addr) (ourIp : Dhcp.Server.Ipv4Addr)
      (request : Dhcp.Server.Message)
  | rrq (fs : FileSystem) (hosts : List HostState) (now : SystemTime) (clientIp : String)
      (datagram : Tftp.Wire.Bytes)
  | transfer (now : SystemTime) (i : ℕ) (a : Tftp.Handling.Answer)
  | sweep (now : SystemTime) (maxIdleSecs : ℕ)
  | http (now : SystemTime) (clientIp : String) (headers : HeaderMap) (request : Request)

inductive Answer
  | refused (status : StatusCode)
  | assigned
  | status (hosts : List HostState) (configs : List HostConfig)
  | logs (events : List LogEvent)

namespace Request

def Protected : Request → Prop
  | .override _ | .status _ | .logs => True
  | .poll _ | .other => False

def WellFormed : Request → Prop
  | .override body => ∃ payload, body = .ok payload
  | _ => True

end Request

variable (sha256 : List UInt8 → Vector UInt8 32) (config : Config)

def event : Traffic → Option Event
  | .dhcp now src ourIp request => some (.dhcp config now src ourIp request)
  | .rrq fs hosts now clientIp datagram => some (.rrq config fs hosts now clientIp datagram)
  | .transfer now i a => some (.transfer now i a)
  | .sweep now maxIdleSecs => some (.sweep now maxIdleSecs)
  | .http now clientIp headers (.poll segment) =>
    some (.poll (some (bootTemplate (hostHeader (headers.lookup "host")))) config now clientIp
      segment)
  | .http now _ headers (.override (.ok payload)) =>
    some (.override (checkApiToken sha256 config headers).isOk config now payload.mac
      payload.target)
  | .http _ _ _ _ => none

def next (s : World) (t : Traffic) : World :=
  match event sha256 config t with
  | some e => s.step e
  | none => s

def answer (s : World) (now : SystemTime) (headers : HeaderMap) : Request → Option Answer
  | .override body =>
    match (apiOverrideHandler sha256 config now headers body s.store).2 with
    | .error status => some (.refused status)
    | .ok () => some .assigned
  | .status hosts =>
    match apiStatusHandler sha256 config headers hosts with
    | .error status => some (.refused status)
    | .ok (hosts, configs) => some (.status hosts configs)
  | .logs =>
    match apiLogsHandler sha256 config headers s.store with
    | .error status => some (.refused status)
    | .ok events => some (.logs events)
  | .poll _ | .other => none

def run (s : World) (ts : List Traffic) : World := ts.foldl (next sha256 config) s

/-- The first `X-API-Token` header, if there is one, is not the token. -/
def Unauthenticated (token : String) : Traffic → Prop
  | .http _ _ headers _ => headers.lookup "x-api-token" ≠ some (bytes token)
  | _ => True

def CollisionFree (token : String) : Traffic → Prop
  | .http _ _ headers _ => sha256 (bytes (provided headers)) = sha256 (bytes token) →
      bytes (provided headers) = bytes token
  | _ => True

def EvictedIn (k : String) : World → List Traffic → Prop
  | _, [] => False
  | s, t :: ts =>
    ((s.store.hosts.lookup k).isSome ∧ (next sha256 config s t).store.hosts.lookup k = none) ∨
      EvictedIn k (next sha256 config s t) ts

variable {sha256 config} {s : World} {k token : String}

theorem step_refused (now : SystemTime) (mac target : String) :
    s.step (.override false config now mac target) = s := by
  simp only [World.step, World.storeAfter, World.sessionsAfter, World.writeOf, World.note,
    apiOverride, Bool.false_and, Bool.false_eq_true, if_false]

theorem not_overrides {t : Traffic} {e : Event} (he : event sha256 config t = some e)
    (hcheck : ∀ now clientIp headers request, t = .http now clientIp headers request →
      checkApiToken sha256 config headers = .error unauthorized) : ¬Overrides s k e := by
  rintro ⟨authorized, config', now, mac, target, rfl, -, hok⟩
  cases t with
  | http now' clientIp headers request =>
    have hrefused := hcheck now' clientIp headers request rfl
    cases request with
    | override body =>
      cases body with
      | error status => cases he
      | ok payload =>
        simp only [event, hrefused, Option.some.injEq, Event.override.injEq] at he
        obtain ⟨rfl, -⟩ := he
        simp [apiOverride, Except.isOk, Except.toBool] at hok
    | _ => cases he
  | _ => cases he

theorem assignedTarget_next {t : Traffic}
    (hcheck : ∀ now clientIp headers request, t = .http now clientIp headers request →
      checkApiToken sha256 config headers = .error unauthorized) {host : HostState}
    (hk : (next sha256 config s t).store.hosts.lookup k = some host) :
    host.assignedTarget = (s.store.hosts.lookup k).bind HostState.assignedTarget := by
  rw [next] at hk
  cases he : event sha256 config t with
  | none =>
    simp only [he] at hk
    rw [hk, Option.bind_some]
  | some e =>
    simp only [he] at hk
    exact assignedTarget_step (not_overrides he hcheck) hk

theorem protected_refused {now : SystemTime} {clientIp : String} {headers : HeaderMap}
    {request : Request} (hprotected : request.Protected)
    (hcheck : checkApiToken sha256 config headers = .error unauthorized) :
    next sha256 config s (.http now clientIp headers request) = s ∧
      ∃ status, answer sha256 config s now headers request = some (.refused status) ∧
        (request.WellFormed → status = unauthorized) := by
  cases request with
  | override body =>
    cases body with
    | error status =>
      refine ⟨rfl, status, rfl, ?_⟩
      rintro ⟨_, h⟩
      cases h
    | ok payload =>
      refine ⟨?_, unauthorized, ?_, fun _ ↦ rfl⟩
      · simp only [next, event, hcheck]
        exact step_refused now payload.mac payload.target
      · simp only [answer, apiOverrideHandler, hcheck]
  | status hosts =>
    exact ⟨rfl, unauthorized, by simp only [answer, apiStatusHandler, hcheck], fun _ ↦ rfl⟩
  | logs => exact ⟨rfl, unauthorized, by simp only [answer, apiLogsHandler, hcheck], fun _ ↦ rfl⟩
  | poll segment => exact absurd hprotected id
  | other => exact absurd hprotected id

theorem assignedTarget_run {ts : List Traffic}
    (hcheck : ∀ t ∈ ts, ∀ now clientIp headers request, t = .http now clientIp headers request →
      checkApiToken sha256 config headers = .error unauthorized) {host : HostState}
    (hk : (run sha256 config s ts).store.hosts.lookup k = some host) :
    host.assignedTarget = (s.store.hosts.lookup k).bind HostState.assignedTarget ∨
      host.assignedTarget = none ∧ EvictedIn sha256 config k s ts := by
  induction ts generalizing s with
  | nil =>
    left
    rw [show s.store.hosts.lookup k = some host from hk, Option.bind_some]
  | cons t ts ih =>
    obtain ⟨ht, hts⟩ := List.forall_mem_cons.mp hcheck
    rcases ih hts hk with hsame | ⟨hnone, hevicted⟩
    · cases hmid : (next sha256 config s t).store.hosts.lookup k with
      | some host' =>
        left
        rw [hsame, hmid, Option.bind_some]
        exact assignedTarget_next ht hmid
      | none =>
        rw [hmid, Option.bind_none] at hsame
        cases hbefore : s.store.hosts.lookup k with
        | none => exact .inl hsame
        | some host' =>
          exact .inr ⟨hsame, .inl ⟨by rw [hbefore, Option.isSome_some], hmid⟩⟩
    · exact .inr ⟨hnone, .inr hevicted⟩

/-- Traffic without the token leaves every tracked host with the target it had, or with none once
it was evicted, and learns nothing from the protected endpoints. -/
theorem traffic_cannot_steer (printable : Char → Bool) (fromStr : String → Option Config)
    (content : Option String) (config : Config)
    (hload : Config.load printable fromStr content = .ok config) (token : String)
    (htoken : config.server.apiToken = some token) (sha256 : List UInt8 → Vector UInt8 32)
    (s : World) (ts : List Traffic) (hunauth : ∀ t ∈ ts, Unauthenticated token t)
    (hdigest : ∀ t ∈ ts, CollisionFree sha256 token t) :
    (∀ k host, (run sha256 config s ts).store.hosts.lookup k = some host →
      host.assignedTarget = (s.store.hosts.lookup k).bind HostState.assignedTarget ∨
        host.assignedTarget = none ∧ EvictedIn sha256 config k s ts) ∧
    ∀ now clientIp headers request, .http now clientIp headers request ∈ ts → request.Protected →
      ∀ w : World, next sha256 config w (.http now clientIp headers request) = w ∧
        ∃ status, answer sha256 config w now headers request = some (.refused status) ∧
          (request.WellFormed → status = 401) := by
  obtain ⟨_, _, _, _, _, hvalid⟩ := (Config.load_ok printable).mp hload
  have hne : token ≠ "" := fun h ↦ hvalid.apiToken (h ▸ htoken)
  have hcheck : ∀ t ∈ ts, ∀ now clientIp headers request,
      t = .http now clientIp headers request →
        checkApiToken sha256 config headers = .error unauthorized := by
    rintro t ht now clientIp headers request rfl
    exact checkApiToken_refused htoken hne (hunauth _ ht) (hdigest _ ht)
  exact ⟨fun k host hk ↦ assignedTarget_run hcheck hk,
    fun now clientIp headers request ht hprotected w ↦
      protected_refused hprotected (hcheck _ ht now clientIp headers request rfl)⟩

def lockedConfig : Config :=
  { labConfig with server := { labConfig.server with apiToken := some "super-secret" } }

def lockedYaml : String :=
  Config.serverYaml "/srv" "ipxe.efi" "arm64.efi" ++ "  api_token: super-secret\nhosts:\n" ++
    Config.hostYaml "aa:bb:cc:dd:ee:ff" "rack" "/img" ++ "    cmdline: quiet\n"

/-- SHA-256 on the empty token and on the configured one. -/
def sampleSha256 (a : List UInt8) : Vector UInt8 32 :=
  if a = [] then
    #v[
      0xe3, 0xb0, 0xc4, 0x42, 0x98, 0xfc, 0x1c, 0x14, 0x9a, 0xfb, 0xf4, 0xc8, 0x99, 0x6f, 0xb9,
      0x24, 0x27, 0xae, 0x41, 0xe4, 0x64, 0x9b, 0x93, 0x4c, 0xa4, 0x95, 0x99, 0x1b, 0x78, 0x52,
      0xb8, 0x55]
  else if a = bytes "super-secret" then
    #v[
      0xae, 0xc8, 0x08, 0x48, 0x45, 0xb4, 0x1a, 0x69, 0x52, 0xd4, 0x6c, 0xba, 0xa1, 0xc9, 0xb7,
      0x98, 0x65, 0x94, 0x87, 0xff, 0xd1, 0x33, 0x79, 0x6d, 0x95, 0xd0, 0x5b, 0xa4, 0x5d, 0x90,
      0x96, 0xc2]
  else Vector.replicate 32 0

def intrusion : Traffic :=
  .http 1 "10.0.0.66" [] (.override (.ok ⟨"02:00:00:00:00:01", "rack"⟩))

theorem traffic_cannot_steer_intruder :
    next sampleSha256 lockedConfig guest intrusion = guest ∧
      ∃ status, answer sampleSha256 lockedConfig guest 1 []
        (.override (.ok ⟨"02:00:00:00:00:01", "rack"⟩)) = some (.refused status) := by
  have hunauth : ∀ t ∈ [intrusion], Unauthenticated "super-secret" t := by
    rw [List.forall_mem_singleton]
    exact fun h ↦ nomatch h
  have hdigest : ∀ t ∈ [intrusion], CollisionFree sampleSha256 "super-secret" t := by
    rw [List.forall_mem_singleton]
    exact fun h ↦ absurd h (by decide)
  have h := (traffic_cannot_steer (fun _ ↦ true) (Config.reads lockedYaml lockedConfig)
    (some lockedYaml) lockedConfig (Config.load_reads _ _ _) "super-secret" rfl sampleSha256 guest
    [intrusion] hunauth hdigest).2 1 "10.0.0.66" [] (.override (.ok ⟨"02:00:00:00:00:01", "rack"⟩)) List.mem_cons_self trivial
    guest
  obtain ⟨hsame, status, hanswer, -⟩ := h
  exact ⟨hsame, status, hanswer⟩

end BootyCall.Fleet.Access
