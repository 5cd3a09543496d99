import BootyCall.Dhcp.Server
import BootyCall.Http.Server
import BootyCall.Tftp.Handling

namespace BootyCall.Fleet.Servers

open BootyCall.Core Mac Path State Tftp.Wire Tftp.Listener Tftp.Handling

structure Write where
  source : Option ℕ
  mac : String
  status : HostStatus
  fields : HostUpdate

/-- The servers over their shared store. The accepted requests are kept oldest first, and so are
the addresses that were recorded and the statuses that were written. -/
structure World where
  store : StateStore := {}
  sessions : List Session := []
  recorded : List (String × String) := []
  written : List (String × Option ℕ × HostStatus) := []

inductive Event
  | dhcp (config : Config) (now : SystemTime) (src : Option Dhcp.Server.Ipv4Addr)
      (ourIp : Dhcp.Server.Ipv4Addr) (request : Dhcp.Server.Message)
  | poll (template : Option Http.Server.BootTemplate) (config : Config) (now : SystemTime)
      (clientIp segment : String)
  | override (authorized : Bool) (config : Config) (now : SystemTime) (mac target : String)
  | rrq (config : Config) (fs : FileSystem) (hosts : List HostState) (now : SystemTime)
      (clientIp : String) (datagram : Bytes)
  | transfer (now : SystemTime) (i : ℕ) (a : Answer)
  | sweep (now : SystemTime) (maxIdleSecs : ℕ)

abbrev TftpMark := ℕ × String × Mark

def applyMark (now : SystemTime) (mark : Option TftpMark) (store : StateStore) : StateStore :=
  match mark with
  | some (_, mac, m) =>
    (store.updateHostStatus now mac m.status {}).logEvent now m.level (some mac) m.message
  | none => store

namespace World

variable (s : World)

def startMark (reaction : Reaction) : Option TftpMark :=
  match reaction with
  | .start job => job.mac.map fun mac ↦ (s.sessions.length, mac, bootingMark job)
  | _ => none

def stepMark (i : ℕ) (a : Answer) : Option TftpMark := do
  let session ← s.sessions[i]?
  let mac ← session.job.mac
  let m ← (react session.job.request session.stage a).mark
  some (i, mac, m)

def storeAfter : Event → StateStore
  | .dhcp config now src ourIp request =>
    (Dhcp.Server.onMessage config now src ourIp request s.store).1
  | .poll template config now clientIp segment =>
    (Http.Server.poll template config now clientIp segment s.store).1
  | .override authorized config now mac target =>
    (Http.Server.apiOverride authorized config now mac target s.store).1
  | .rrq config fs hosts now clientIp datagram =>
    applyMark now (s.startMark (onPacket config fs hosts clientIp datagram)) s.store
  | .transfer now i a => applyMark now (s.stepMark i a) s.store
  | .sweep now maxIdleSecs => s.store.cleanStaleHosts now maxIdleSecs

def sessionsAfter : Event → List Session
  | .rrq config fs hosts _ clientIp datagram =>
    match onPacket config fs hosts clientIp datagram with
    | .start job => s.sessions ++ [start job]
    | _ => s.sessions
  | .transfer _ i a => s.sessions.modify i (step · a)
  | _ => s.sessions

def markWrite (m : TftpMark) : Write := ⟨some m.1, m.2.1, m.2.2.status, {}⟩

def writeOf : Event → Option Write
  | .dhcp config _ src _ request =>
    (Dhcp.Server.clientMac request).map fun mac ↦
      ⟨none, mac, .polling, Dhcp.Server.hostUpdate config src request mac⟩
  | .poll template config now clientIp segment =>
    (Http.Server.poll template config now clientIp segment s.store).2.map fun outcome ↦
      ⟨none, normalizeMac segment, outcome.status, { ip := some clientIp }⟩
  | .override authorized config now mac target =>
    if (Http.Server.apiOverride authorized config now mac target s.store).2 then
      some ⟨none, normalizeMac mac, .polling, { target := some target }⟩
    else none
  | .rrq config fs hosts _ clientIp datagram =>
    (s.startMark (onPacket config fs hosts clientIp datagram)).map markWrite
  | .transfer _ i a => (s.stepMark i a).map markWrite
  | .sweep _ _ => none

def note (w : Option Write) : List (String × String) × List (String × Option ℕ × HostStatus) :=
  match w with
  | none => (s.recorded, s.written)
  | some w =>
    if s.store.drops w.mac then (s.recorded, s.written)
    else
      (s.recorded ++ (w.fields.ip.map fun x ↦ (normalizeMac w.mac, x)).toList,
        s.written ++ [(normalizeMac w.mac, w.source, w.status)])

def step (e : Event) : World where
  store := s.storeAfter e
  sessions := s.sessionsAfter e
  recorded := (s.note (s.writeOf e)).1
  written := (s.note (s.writeOf e)).2

/-- A listing is what an iteration over the map yields at that moment, in any order. -/
def Fits : Event → Prop
  | .rrq _ _ hosts _ _ _ => s.store.IsListing hosts
  | _ => True

end World

inductive Reachable : World → Prop
  | init : Reachable {}
  | step {s : World} (h : Reachable s) (e : Event) (fits : s.Fits e) : Reachable (s.step e)

variable {s : World}

theorem applyMark_hosts (now : SystemTime) (mark : Option TftpMark) (store : StateStore) :
    (applyMark now mark store).hosts =
      match mark.map World.markWrite with
      | some w => (store.updateHostStatus now w.mac w.status w.fields).hosts
      | none => store.hosts := by
  rcases mark with _ | ⟨i, mac, m⟩
  · rfl
  · simp only [applyMark, StateStore.logEvent_hosts, Option.map_some, World.markWrite]

def Event.now : Event → SystemTime
  | .dhcp _ now _ _ _ | .poll _ _ now _ _ | .override _ _ now _ _ | .rrq _ _ _ now _ _
  | .transfer now _ _ | .sweep now _ => now

theorem hosts_step (s : World) (e : Event) :
    (s.step e).store.hosts =
      match e, s.writeOf e with
      | .sweep now maxIdleSecs, _ => (s.store.cleanStaleHosts now maxIdleSecs).hosts
      | _, some w => (s.store.updateHostStatus e.now w.mac w.status w.fields).hosts
      | _, none => s.store.hosts := by
  cases e with
  | dhcp config now src ourIp request =>
    simp only [World.step, World.storeAfter, World.writeOf, Event.now,
      Dhcp.Server.onMessage_hosts]
    cases Dhcp.Server.clientMac request <;> simp only [Option.map_none, Option.map_some]
  | poll template config now clientIp segment =>
    simp only [World.step, World.storeAfter, World.writeOf, Event.now, Http.Server.poll_hosts]
    cases (Http.Server.poll template config now clientIp segment s.store).2 <;>
      simp only [Option.map_none, Option.map_some]
  | override authorized config now mac target =>
    simp only [World.step, World.storeAfter, World.writeOf, Event.now,
      Http.Server.apiOverride_hosts]
    cases (Http.Server.apiOverride authorized config now mac target s.store).2 <;>
      simp only [Bool.false_eq_true, if_true, if_false]
  | rrq config fs hosts now clientIp datagram =>
    simp only [World.step, World.storeAfter, World.writeOf, Event.now, applyMark_hosts]
    cases Option.map World.markWrite _ <;> simp only
  | transfer now i a =>
    simp only [World.step, World.storeAfter, World.writeOf, Event.now, applyMark_hosts]
    cases Option.map World.markWrite _ <;> simp only
  | sweep now maxIdleSecs => simp only [World.step, World.storeAfter]

/-- Where the entry of a host comes from after an event: from before, or from a write for it. -/
inductive Change (s : World) (e : Event) (k : String) (h : HostState) : Prop
  | kept (hk : s.store.hosts.lookup k = some h)
      (hw : ∀ w, s.writeOf e = some w → normalizeMac w.mac ≠ k)
  | updated (w : Write) (hw : s.writeOf e = some w) (hk : normalizeMac w.mac = k)
      (hd : s.store.drops w.mac = false)
      (hh : h = ((s.store.hosts.lookup k).getD (.fresh e.now k w.status)).update e.now w.status
        w.fields)

theorem change_of_lookup {e : Event} {k : String} {h : HostState}
    (hk : (s.step e).store.hosts.lookup k = some h) : Change s e k h := by
  rw [hosts_step] at hk
  split at hk
  · next now maxIdleSecs hw =>
    rw [StateStore.lookup_cleanStaleHosts] at hk
    exact .kept (Option.filter_eq_some_iff.mp hk).1 (by simp [World.writeOf])
  · next w hne hw =>
    rw [StateStore.lookup_updateHostStatus] at hk
    split at hk
    · next hcond => exact .updated w hw hcond.1.symm hcond.2 (Option.some.inj hk).symm
    · next hcond =>
      refine .kept hk fun w' hw' hkey ↦ hcond ?_
      obtain rfl : w = w' := Option.some.inj (hw.symm.trans hw')
      exact ⟨hkey.symm, StateStore.drops_of_lookup (hkey ▸ hk)⟩
  · next hne hw => exact .kept hk (by simp [hw])

theorem keyed_reachable (h : Reachable s) : s.store.Keyed := by
  induction h with
  | init => exact StateStore.keyed_init
  | @step s _ e _ ih =>
    intro k h hk
    rw [hosts_step] at hk
    split at hk
    · exact StateStore.keyed_cleanStaleHosts ih _ _ k h hk
    · exact StateStore.keyed_updateHostStatus ih _ _ _ _ k h hk
    · exact ih k h hk

theorem note_of_write {e : Event} {w : Write} (hw : s.writeOf e = some w)
    (hd : s.store.drops w.mac = false) :
    (s.step e).recorded =
        s.recorded ++ (w.fields.ip.map fun x ↦ (normalizeMac w.mac, x)).toList ∧
      (s.step e).written = s.written ++ [(normalizeMac w.mac, w.source, w.status)] := by
  simp [World.step, hw, World.note, hd]

theorem note_step (s : World) (e : Event) :
    ((s.step e).recorded = s.recorded ∧ (s.step e).written = s.written) ∨
      ∃ w, s.writeOf e = some w ∧ s.store.drops w.mac = false := by
  cases hw : s.writeOf e with
  | none => exact .inl (by simp [World.step, hw, World.note])
  | some w =>
    cases hd : s.store.drops w.mac with
    | false => exact .inr ⟨w, rfl, hd⟩
    | true => exact .inl (by simp [World.step, hw, World.note, hd])

end BootyCall.Fleet.Servers
