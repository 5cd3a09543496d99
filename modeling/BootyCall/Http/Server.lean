import BootyCall.Core.Config
import BootyCall.Core.State

namespace BootyCall.Http.Server

open BootyCall.Core Mac State

inductive PollOutcome
  | boot (script cacheMac : String)
  | renderFailed
  | poll
  deriving DecidableEq

/-- The compiled boot template: what it renders for a host configuration and, for an override,
the MAC that boots in its place. -/
abbrev BootTemplate := HostConfig → Option String → Option String

def rendered (template : BootTemplate) (host : HostConfig) (targetOf : Option String) :
    PollOutcome :=
  match template host targetOf with
  | some script => .boot script host.mac
  | none => .renderFailed

def assignedTarget (config : Config) (store : StateStore) (mac : String) : Option HostConfig := do
  let hs ← store.getHost mac
  let target ← hs.assignedTarget
  config.hosts.find? fun h ↦ h.name == target

def decidePollOutcome (template : BootTemplate) (config : Config) (store : StateStore)
    (mac : String) : PollOutcome :=
  match config.findHost mac with
  | some host => rendered template host none
  | none =>
    match assignedTarget config store mac with
    | some target => rendered template target (some mac)
    | none => .poll

def PollOutcome.status : PollOutcome → HostStatus
  | .boot _ _ => .booting
  | .renderFailed => .failed
  | .poll => .polling

def recordPoll (now : SystemTime) (clientIp mac : String) (outcome : PollOutcome)
    (store : StateStore) : StateStore :=
  match outcome with
  | .boot _ cacheMac =>
    (store.updateHostStatus now mac .booting { ip := some clientIp }).logEvent now "INFO"
      (some mac)
      ("Serving boot execution script for target (mapped cache MAC: " ++ cacheMac ++ ")")
  | .renderFailed =>
    (store.updateHostStatus now mac .failed { ip := some clientIp }).logEvent now "ERROR"
      (some mac) "Boot script render failed"
  | .poll => store.updateHostStatus now mac .polling { ip := some clientIp }

/-- `poll_handler`: a malformed MAC and a missing template leave the store alone. -/
def poll (template : Option BootTemplate) (config : Config) (now : SystemTime)
    (clientIp segment : String) (store : StateStore) : StateStore × Option PollOutcome :=
  let mac := normalizeMac segment
  if isValidMac mac then
    match template with
    | some template =>
      let outcome := decidePollOutcome template config store mac
      (recordPoll now clientIp mac outcome store, some outcome)
    | none => (store, none)
  else (store, none)

/-- `api_override_handler`, once the token of the request has been checked. -/
def apiOverride (authorized : Bool) (config : Config) (now : SystemTime) (mac target : String)
    (store : StateStore) : StateStore × Bool :=
  let mac := normalizeMac mac
  if authorized && isValidMac mac && config.hosts.any (·.name == target) then
    ((store.updateHostStatus now mac .polling { target := some target }).logEvent now "INFO"
      (some mac) ("Assigned manual override target: " ++ target), true)
  else (store, false)

theorem recordPoll_hosts (now : SystemTime) (clientIp mac : String) (outcome : PollOutcome)
    (store : StateStore) :
    (recordPoll now clientIp mac outcome store).hosts =
      (store.updateHostStatus now mac outcome.status { ip := some clientIp }).hosts := by
  cases outcome <;> simp only [recordPoll, StateStore.logEvent_hosts, PollOutcome.status]

theorem poll_hosts (template : Option BootTemplate) (config : Config) (now : SystemTime)
    (clientIp segment : String) (store : StateStore) :
    (poll template config now clientIp segment store).1.hosts =
      match (poll template config now clientIp segment store).2 with
      | some outcome =>
        (store.updateHostStatus now (normalizeMac segment) outcome.status
          { ip := some clientIp }).hosts
      | none => store.hosts := by
  simp only [poll]
  split
  · cases template with
    | none => rfl
    | some template => exact recordPoll_hosts ..
  · rfl

theorem apiOverride_ok {authorized : Bool} {config : Config} {now : SystemTime}
    {mac target : String} {store : StateStore}
    (h : (apiOverride authorized config now mac target store).2 = true) :
    isValidMac (normalizeMac mac) = true ∧ config.hosts.any (·.name == target) = true := by
  rw [apiOverride] at h
  split at h
  · next hcond =>
    rw [Bool.and_eq_true, Bool.and_eq_true] at hcond
    exact ⟨hcond.1.2, hcond.2⟩
  · cases h

theorem apiOverride_hosts (authorized : Bool) (config : Config) (now : SystemTime)
    (mac target : String) (store : StateStore) :
    (apiOverride authorized config now mac target store).1.hosts =
      if (apiOverride authorized config now mac target store).2 then
        (store.updateHostStatus now (normalizeMac mac) .polling { target := some target }).hosts
      else store.hosts := by
  simp only [apiOverride]
  split <;> simp

end BootyCall.Http.Server
