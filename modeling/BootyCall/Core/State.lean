import BootyCall.Core.Mac
import Mathlib.Data.List.AList

namespace BootyCall.Core.State

open Mac

def maxTrackedHosts : ℕ := 4096
def maxLogs : ℕ := 200

/-- Clock readings in nanoseconds. -/
abbrev SystemTime := ℤ

inductive HostStatus
  | polling
  | booting
  | completed
  | failed
  deriving DecidableEq

structure HostState where
  mac : String
  name : Option String
  status : HostStatus
  assignedTarget : Option String
  lastSeen : SystemTime
  clientIp : Option String
  architecture : Option String
  deriving DecidableEq

structure LogEvent where
  timestamp : SystemTime
  level : String
  mac : Option String
  message : String
  deriving DecidableEq

/-- The hosts by their MAC, and the ring of log events, oldest first. -/
structure StateStore where
  hosts : AList (fun _ : String ↦ HostState) := ∅
  logs : List LogEvent := []

structure HostUpdate where
  name : Option String := none
  target : Option String := none
  ip : Option String := none
  arch : Option String := none

namespace HostState

def fresh (now : SystemTime) (mac : String) (status : HostStatus) : HostState where
  mac := mac
  name := none
  status := status
  assignedTarget := none
  lastSeen := now
  clientIp := none
  architecture := none

def update (h : HostState) (now : SystemTime) (status : HostStatus) (u : HostUpdate) :
    HostState :=
  { h with
    status := status
    lastSeen := now
    name := u.name <|> h.name
    assignedTarget := u.target <|> h.assignedTarget
    clientIp := u.ip <|> h.clientIp
    architecture := u.arch <|> h.architecture }

end HostState

namespace StateStore

variable (s : StateStore)

def drops (mac : String) : Bool :=
  (s.hosts.lookup (normalizeMac mac)).isNone && decide (maxTrackedHosts ≤ s.hosts.entries.length)

def updateHostStatus (now : SystemTime) (mac : String) (status : HostStatus) (u : HostUpdate) :
    StateStore :=
  if s.drops mac then s
  else
    let normalized := normalizeMac mac
    let entry := (s.hosts.lookup normalized).getD (.fresh now normalized status)
    { s with hosts := s.hosts.insert normalized (entry.update now status u) }

def getHost (mac : String) : Option HostState := s.hosts.lookup (normalizeMac mac)

/-- The hosts in one of the orders an iteration over the map can take. -/
def IsListing (hosts : List HostState) : Prop :=
  hosts.Perm (s.hosts.entries.map Sigma.snd)

def logEvent (now : SystemTime) (level : String) (mac : Option String) (message : String) :
    StateStore :=
  let logs := s.logs ++ [⟨now, level, mac.map normalizeMac, message⟩]
  { s with logs := logs.drop (logs.length - maxLogs) }

@[simp]
theorem logEvent_hosts (now : SystemTime) (level : String) (mac : Option String)
    (message : String) : (s.logEvent now level mac message).hosts = s.hosts := by
  simp only [logEvent]

theorem logEvent_logs (now : SystemTime) (level : String) (mac : Option String)
    (message : String) :
    (s.logEvent now level mac message).logs =
      let logs : List LogEvent := s.logs ++ [⟨now, level, mac.map normalizeMac, message⟩]
      logs.drop (logs.length - maxLogs) := by
  simp only [logEvent]

def listLogs : List LogEvent := s.logs

/-- `duration_since` fails for a host seen after `now`, and such a host is kept. -/
def fresh (now : SystemTime) (maxIdleSecs : ℕ) (h : HostState) : Bool :=
  decide (h.lastSeen ≤ now → (now - h.lastSeen) / 1000000000 < maxIdleSecs)

def cleanStaleHosts (now : SystemTime) (maxIdleSecs : ℕ) : StateStore :=
  { s with
    hosts := ⟨s.hosts.entries.filter fun e ↦ fresh now maxIdleSecs e.2,
      s.hosts.nodupKeys.sublist List.filter_sublist⟩ }

variable {s}

theorem mem_entries_iff {k : String} {h : HostState} :
    (⟨k, h⟩ : (_ : String) × HostState) ∈ s.hosts.entries ↔ s.hosts.lookup k = some h :=
  AList.mem_lookup_iff.symm

theorem lookup_updateHostStatus (now : SystemTime) (mac : String) (status : HostStatus)
    (u : HostUpdate) (k : String) :
    (s.updateHostStatus now mac status u).hosts.lookup k =
      if k = normalizeMac mac ∧ s.drops mac = false then
        some (((s.hosts.lookup k).getD (.fresh now k status)).update now status u)
      else s.hosts.lookup k := by
  rw [updateHostStatus]
  by_cases hdrop : s.drops mac = true
  · simp [hdrop]
  · rw [if_neg hdrop]
    by_cases hk : k = normalizeMac mac
    · subst hk
      simp [AList.lookup_insert, hdrop]
    · simp [AList.lookup_insert_ne hk, hk]

@[simp]
theorem updateHostStatus_logs (now : SystemTime) (mac : String) (status : HostStatus)
    (u : HostUpdate) : (s.updateHostStatus now mac status u).logs = s.logs := by
  rw [updateHostStatus]
  split <;> rfl

@[simp]
theorem cleanStaleHosts_logs (now : SystemTime) (maxIdleSecs : ℕ) :
    (s.cleanStaleHosts now maxIdleSecs).logs = s.logs := rfl

theorem lookup_cleanStaleHosts (now : SystemTime) (maxIdleSecs : ℕ) (k : String) :
    (s.cleanStaleHosts now maxIdleSecs).hosts.lookup k =
      (s.hosts.lookup k).filter (fresh now maxIdleSecs) := by
  ext h
  rw [← mem_entries_iff, Option.filter_eq_some_iff, ← mem_entries_iff]
  simp [cleanStaleHosts]

theorem drops_of_lookup {mac : String} {h : HostState}
    (hk : s.hosts.lookup (normalizeMac mac) = some h) : s.drops mac = false := by
  simp [drops, hk]

def Keyed (s : StateStore) : Prop :=
  ∀ k h, s.hosts.lookup k = some h → h.mac = k ∧ normalizeMac k = k

theorem keyed_init : Keyed {} := fun k h hk ↦ by simp at hk

theorem keyed_updateHostStatus (hs : s.Keyed) (now : SystemTime) (mac : String)
    (status : HostStatus) (u : HostUpdate) : (s.updateHostStatus now mac status u).Keyed := by
  intro k h hk
  rw [lookup_updateHostStatus] at hk
  split at hk
  · next hnew =>
    obtain rfl := Option.some.inj hk
    refine ⟨?_, by rw [hnew.1, normalizeMac_idem]⟩
    cases hold : s.hosts.lookup k with
    | none => rfl
    | some h => exact (hs k h hold).1
  · exact hs k h hk

theorem keyed_cleanStaleHosts (hs : s.Keyed) (now : SystemTime) (maxIdleSecs : ℕ) :
    (s.cleanStaleHosts now maxIdleSecs).Keyed := by
  intro k h hk
  rw [lookup_cleanStaleHosts] at hk
  exact hs k h (Option.filter_eq_some_iff.mp hk).1

theorem mem_listing {hosts : List HostState} (hs : s.Keyed) (hl : s.IsListing hosts)
    {h : HostState} : h ∈ hosts ↔ s.hosts.lookup h.mac = some h := by
  rw [hl.mem_iff, List.mem_map]
  constructor
  · rintro ⟨⟨k, h'⟩, hmem, rfl⟩
    have hk := mem_entries_iff.mp hmem
    rwa [(hs k h' hk).1]
  · exact fun hk ↦ ⟨⟨h.mac, h⟩, mem_entries_iff.mpr hk, rfl⟩

end StateStore

end BootyCall.Core.State
