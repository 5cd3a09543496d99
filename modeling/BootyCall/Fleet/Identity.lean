import BootyCall.Fleet.Attribution
import BootyCall.Http.Lookup

namespace BootyCall.Fleet.Identity

open BootyCall.Core Mac Path State Spelling Tftp.Listener Tftp.Handling Servers

def Names (entry : LogEvent) : Prop := ∃ mac, entry.mac = some mac ∧ isValidMac mac = true

/-- Every host, in the store, in the log and behind a transfer, goes by a canonical MAC. -/
structure Canonical (s : World) : Prop where
  hosts : ∀ k host, s.store.hosts.lookup k = some host → isValidMac k = true
  logs : ∀ entry ∈ s.store.logs, Names entry
  jobs : ∀ session ∈ s.sessions, ∀ mac ∈ session.job.mac, isValidMac mac = true

variable {s : World} {e : Event}

theorem startMark_some {reaction : Reaction} {mark : TftpMark}
    (h : s.startMark reaction = some mark) :
    ∃ job mac, reaction = .start job ∧ job.mac = some mac ∧
      mark = (s.sessions.length, mac, bootingMark job) := by
  cases reaction with
  | start job =>
    obtain ⟨mac, hmac, rfl⟩ := Option.map_eq_some_iff.mp h
    exact ⟨job, mac, rfl, hmac, rfl⟩
  | _ => cases h

theorem stepMark_some {i : ℕ} {a : Answer} {mark : TftpMark} (h : s.stepMark i a = some mark) :
    ∃ session mac m, s.sessions[i]? = some session ∧ session.job.mac = some mac ∧
      (react session.job.request session.stage a).mark = some m ∧ mark = (i, mac, m) := by
  obtain ⟨session, hsession, h⟩ := Option.bind_eq_some_iff.mp h
  obtain ⟨mac, hmac, h⟩ := Option.bind_eq_some_iff.mp h
  obtain ⟨m, hm, h⟩ := Option.bind_eq_some_iff.mp h
  exact ⟨session, mac, m, hsession, hmac, hm, (Option.some.inj h).symm⟩

theorem clientMac_some {request : Dhcp.Server.Message} {mac : String}
    (h : Dhcp.Server.clientMac request = some mac) :
    ∃ bytes : Vector UInt8 6, request.chaddr.take 6 = bytes.toList ∧ mac = formatMac bytes := by
  rw [Dhcp.Server.clientMac] at h
  split at h
  · split at h
    · exact ⟨_, rfl, (Option.some.inj h).symm⟩
    · cases h
  · cases h

theorem isValidMac_clientMac {request : Dhcp.Server.Message} {mac : String}
    (h : Dhcp.Server.clientMac request = some mac) : isValidMac mac = true := by
  obtain ⟨bytes, -, rfl⟩ := clientMac_some h
  exact isValidMac_formatMac bytes

theorem poll_some {template : Option Http.Server.BootTemplate} {config : Config}
    {now : SystemTime} {clientIp segment : String} {store : StateStore}
    {outcome : Http.Server.PollOutcome}
    (h : (Http.Server.poll template config now clientIp segment store).2 = some outcome) :
    isValidMac (normalizeMac segment) = true := by
  simp only [Http.Server.poll] at h
  split at h
  · next hmac => exact hmac
  · cases h

theorem mac_of_start (h : Reachable s) (hs : Canonical s) {config : Config} {fs : FileSystem}
    {hosts : List HostState} {clientIp : String} {datagram : Tftp.Wire.Bytes} {job : Job}
    (hl : s.store.IsListing hosts)
    (hjob : onPacket config fs hosts clientIp datagram = .start job) :
    ∀ mac ∈ job.mac, isValidMac mac = true := by
  obtain ⟨-, -, hmac⟩ := onPacket_start hjob
  intro mac hm
  rw [hmac, Option.mem_map] at hm
  obtain ⟨host, hhost, rfl⟩ := hm
  exact hs.hosts _ host (Attribution.hostByIp_tracked h hl hhost).1

def CanonicalMark (mark : Option TftpMark) : Prop :=
  ∀ i mac m, mark = some (i, mac, m) → isValidMac mac = true

theorem canonicalMark_start (h : Reachable s) (hs : Canonical s) {config : Config}
    {fs : FileSystem} {hosts : List HostState} {clientIp : String} {datagram : Tftp.Wire.Bytes}
    (hl : s.store.IsListing hosts) :
    CanonicalMark (s.startMark (onPacket config fs hosts clientIp datagram)) := by
  intro i mac m hmark
  obtain ⟨job, mac', hjob, hmac, heq⟩ := startMark_some hmark
  obtain ⟨-, rfl, -⟩ : i = s.sessions.length ∧ mac = mac' ∧ m = bootingMark job := by
    simpa using heq
  exact mac_of_start h hs hl hjob mac hmac

theorem canonicalMark_step (hs : Canonical s) (i : ℕ) (a : Answer) :
    CanonicalMark (s.stepMark i a) := by
  intro i' mac m hmark
  obtain ⟨session, mac', m', hsession, hmac, -, heq⟩ := stepMark_some hmark
  obtain ⟨-, rfl, -⟩ : i' = i ∧ mac = mac' ∧ m = m' := by simpa using heq
  exact hs.jobs session (List.mem_of_getElem? hsession) mac hmac

theorem writeMac_mark {mark : Option TftpMark} (h : CanonicalMark mark) {w : Write}
    (hw : mark.map World.markWrite = some w) : isValidMac w.mac = true := by
  obtain ⟨⟨i, mac, m⟩, hmark, rfl⟩ := Option.map_eq_some_iff.mp hw
  exact h i mac m hmark

theorem mac_of_write (h : Reachable s) (hs : Canonical s) (fits : s.Fits e) {w : Write}
    (hw : s.writeOf e = some w) : isValidMac w.mac = true := by
  cases e with
  | dhcp config now src ourIp request =>
    rw [World.writeOf] at hw
    obtain ⟨mac, hmac, rfl⟩ := Option.map_eq_some_iff.mp hw
    exact isValidMac_clientMac hmac
  | poll template config now clientIp segment =>
    rw [World.writeOf] at hw
    obtain ⟨outcome, hpoll, rfl⟩ := Option.map_eq_some_iff.mp hw
    exact poll_some hpoll
  | override authorized config now mac target =>
    simp only [World.writeOf] at hw
    split at hw
    · next hok =>
      obtain rfl := Option.some.inj hw
      exact (Http.Server.apiOverride_ok hok).1
    · cases hw
  | rrq config fs hosts now clientIp datagram =>
    exact writeMac_mark (canonicalMark_start h hs fits) hw
  | transfer now i a => exact writeMac_mark (canonicalMark_step hs i a) hw
  | sweep now maxIdleSecs => cases hw

theorem hosts_step_canonical (h : Reachable s) (hs : Canonical s) (fits : s.Fits e) {k : String}
    {host : HostState} (hk : (s.step e).store.hosts.lookup k = some host) :
    isValidMac k = true := by
  cases change_of_lookup hk with
  | kept hk' _ => exact hs.hosts k host hk'
  | updated w hw hkey _ _ =>
    have hmac := mac_of_write h hs fits hw
    rwa [← hkey, normalizeMac_of_isValidMac hmac]

theorem names_logEvent {store : StateStore} (h : ∀ entry ∈ store.logs, Names entry)
    (now : SystemTime) (level : String) {mac : String} (message : String)
    (hmac : isValidMac mac = true) :
    ∀ entry ∈ (store.logEvent now level (some mac) message).logs, Names entry := by
  intro entry hentry
  rw [StateStore.logEvent_logs] at hentry
  rcases List.mem_append.mp (List.mem_of_mem_drop hentry) with hentry | hentry
  · exact h entry hentry
  · obtain rfl := List.mem_singleton.mp hentry
    refine ⟨mac, ?_, hmac⟩
    rw [Option.map_some, normalizeMac_of_isValidMac hmac]

theorem names_applyMark {store : StateStore} (h : ∀ entry ∈ store.logs, Names entry)
    (now : SystemTime) {mark : Option TftpMark} (hmark : CanonicalMark mark) :
    ∀ entry ∈ (applyMark now mark store).logs, Names entry := by
  cases mark with
  | none => exact h
  | some mark =>
    obtain ⟨i, mac, m⟩ := mark
    exact names_logEvent (by simpa using h) now _ _ (hmark i mac m rfl)

theorem names_step (h : Reachable s) (hs : Canonical s) (fits : s.Fits e) :
    ∀ entry ∈ (s.step e).store.logs, Names entry := by
  have hlogs {now : SystemTime} {mac : String} {status : HostStatus} {u : HostUpdate} :
      ∀ entry ∈ (s.store.updateHostStatus now mac status u).logs, Names entry := by
    simpa using hs.logs
  cases e with
  | dhcp config now src ourIp request =>
    simp only [World.step, World.storeAfter, Dhcp.Server.onMessage]
    split
    · next mac msgType hmac _ =>
      exact names_logEvent hlogs now _ _ (isValidMac_clientMac hmac)
    · exact hs.logs
  | poll template config now clientIp segment =>
    simp only [World.step, World.storeAfter, Http.Server.poll]
    split
    · next hmac =>
      cases template with
      | none => exact hs.logs
      | some template =>
        dsimp only
        cases Http.Server.decidePollOutcome template config s.store (normalizeMac segment) with
        | boot script cacheMac => exact names_logEvent hlogs now _ _ hmac
        | renderFailed => exact names_logEvent hlogs now _ _ hmac
        | poll => exact hlogs
    · exact hs.logs
  | override authorized config now mac target =>
    simp only [World.step, World.storeAfter, Http.Server.apiOverride]
    split
    · next hcond =>
      rw [Bool.and_eq_true, Bool.and_eq_true] at hcond
      exact names_logEvent hlogs now _ _ hcond.1.2
    · exact hs.logs
  | rrq config fs hosts now clientIp datagram =>
    exact names_applyMark hs.logs now (canonicalMark_start h hs fits)
  | transfer now i a => exact names_applyMark hs.logs now (canonicalMark_step hs i a)
  | sweep now maxIdleSecs => exact hs.logs

theorem jobs_step (h : Reachable s) (hs : Canonical s) (fits : s.Fits e) :
    ∀ session ∈ (s.step e).sessions, ∀ mac ∈ session.job.mac, isValidMac mac = true := by
  intro session hsession
  cases e with
  | rrq config fs hosts now clientIp datagram =>
    simp only [World.step, World.sessionsAfter] at hsession
    split at hsession
    · next job hjob =>
      rcases List.mem_append.mp hsession with hsession | hsession
      · exact hs.jobs session hsession
      · obtain rfl := List.mem_singleton.mp hsession
        exact mac_of_start h hs fits hjob
    · exact hs.jobs session hsession
  | transfer now i a =>
    obtain ⟨j, hj⟩ := List.mem_iff_getElem?.mp hsession
    simp only [World.step, World.sessionsAfter, List.getElem?_modify] at hj
    obtain ⟨session', hsession', rfl⟩ := Option.map_eq_some_iff.mp hj
    have hjobs := hs.jobs session' (List.mem_of_getElem? hsession')
    split
    · exact hjobs
    · exact hjobs
  | _ =>
    simp only [World.step, World.sessionsAfter] at hsession
    exact hs.jobs session hsession

theorem canonical_reachable (h : Reachable s) : Canonical s := by
  induction h with
  | init =>
    refine ⟨?_, ?_, ?_⟩
    · intro k host hk
      simp at hk
    · exact fun entry hentry ↦ nomatch hentry
    · exact fun session hsession ↦ nomatch hsession
  | step h e fits ih =>
    exact ⟨fun k host hk ↦ hosts_step_canonical h ih fits hk, names_step h ih fits,
      jobs_step h ih fits⟩

/-- Whichever of two texts names a client, every part of the program takes it for the same one. -/
structure SameClient (s t : String) : Prop where
  findHost : ∀ config : Config, config.findHost s = config.findHost t
  getHost : ∀ store : StateStore, store.getHost s = store.getHost t
  update : ∀ (store : StateStore) now status u,
    store.updateHostStatus now s status u = store.updateHostStatus now t status u
  log : ∀ (store : StateStore) now level message,
    store.logEvent now level (some s) message = store.logEvent now level (some t) message
  poll : ∀ template config now clientIp store,
    Http.Server.poll template config now clientIp s store =
      Http.Server.poll template config now clientIp t store
  override : ∀ authorized config now target store,
    Http.Server.apiOverride authorized config now s target store =
      Http.Server.apiOverride authorized config now t target store

theorem sameClient_of_normalizeMac {a b : String} (h : normalizeMac a = normalizeMac b) :
    SameClient a b where
  findHost := fun config ↦ by rw [Config.findHost, Config.findHost, h]
  getHost := fun store ↦ by rw [StateStore.getHost, StateStore.getHost, h]
  update := fun store now status u ↦ by
    rw [StateStore.updateHostStatus, StateStore.updateHostStatus, StateStore.drops,
      StateStore.drops, h]
  log := fun store now level message ↦ by simp only [StateStore.logEvent, Option.map_some, h]
  poll := fun template config now clientIp store ↦ by simp only [Http.Server.poll, h]
  override := fun authorized config now target store ↦ by
    simp only [Http.Server.apiOverride, h]

theorem normalizeMac_of_spells {bytes : Vector UInt8 6} {mac : String} (h : Spells bytes mac) :
    normalizeMac mac = normalizeMac (formatMac bytes) := by
  rw [normalizeMac_of_isValidMac (isValidMac_formatMac bytes), normalizeMac_iff.mpr h]

/-- A hardware address has one canonical MAC, to which each of its spellings is normalised, and
clients go by it in the replies of the DHCP server, in requests, in the configuration and in the
store. A text that is no MAC changes nothing. -/
theorem one_identity :
    (∀ mac, isValidMac mac = true ↔ ∃ bytes, mac = formatMac bytes) ∧
    Function.Injective formatMac ∧
    (∀ mac, normalizeMac (normalizeMac mac) = normalizeMac mac) ∧
    (∀ bytes mac, Spells bytes mac →
      normalizeMac mac = formatMac bytes ∧ SameClient mac (formatMac bytes)) ∧
    (∀ request mac, Dhcp.Server.clientMac request = some mac →
      ∃ bytes : Vector UInt8 6, request.chaddr.take 6 = bytes.toList ∧ mac = formatMac bytes) ∧
    (∀ printable fromStr text raw config, fromStr text = some raw →
      Config.load printable fromStr (some text) = .ok config →
      ∀ h ∈ raw.hosts, ∃ bytes, Spells bytes h.mac ∧
        config.findHost (formatMac bytes) = some { h with mac := formatMac bytes }) ∧
    (∀ mac, isValidMac (normalizeMac mac) = false → ∀ config now store,
      (∀ template clientIp, Http.Server.poll template config now clientIp mac store =
        (store, none)) ∧
      ∀ authorized target, Http.Server.apiOverride authorized config now mac target store =
        (store, false)) ∧
    ∀ s, Reachable s →
      (∀ k host, s.store.hosts.lookup k = some host →
        ∃ bytes, k = formatMac bytes ∧ host.mac = formatMac bytes) ∧
      ∀ entry ∈ s.store.logs, ∃ bytes, entry.mac = some (formatMac bytes) := by
  refine ⟨fun mac ↦ isValidMac_iff, formatMac_injective, normalizeMac_idem, ?_, ?_, ?_, ?_, ?_⟩
  · intro bytes mac h
    exact ⟨normalizeMac_iff.mpr h, sameClient_of_normalizeMac (normalizeMac_of_spells h)⟩
  · intro request mac h
    exact clientMac_some h
  · intro printable fromStr text raw config hraw hload h hh
    obtain ⟨-, hhosts⟩ := (Http.Lookup.load_isOk_iff hraw).mp ⟨config, hload⟩
    obtain ⟨_, raw', htext, hraw', rfl, -⟩ := (Config.load_ok printable).mp hload
    obtain rfl := Option.some.inj htext
    obtain rfl := Option.some.inj (hraw.symm.trans hraw')
    obtain ⟨bytes, hbytes⟩ := hhosts.macs h hh
    have hspells := normalizeMac_iff.mp hbytes
    refine ⟨bytes, hspells, ?_⟩
    rw [Http.Lookup.findHost_of_spelling hhosts hh (normalizeMac_of_spells hspells).symm,
      Http.Lookup.normalized, hbytes]
  · intro mac h config now store
    constructor
    · intro template clientIp
      simp only [Http.Server.poll, h, Bool.false_eq_true, if_false]
    · intro authorized target
      simp only [Http.Server.apiOverride, h, Bool.and_false, Bool.false_and, Bool.false_eq_true,
        if_false]
  · intro s h
    have hs := canonical_reachable h
    constructor
    · intro k host hk
      obtain ⟨bytes, rfl⟩ := isValidMac_iff.mp (hs.hosts k host hk)
      exact ⟨bytes, rfl, (keyed_reachable h _ host hk).1⟩
    · intro entry hentry
      obtain ⟨mac, hmac, hvalid⟩ := hs.logs entry hentry
      obtain ⟨bytes, rfl⟩ := isValidMac_iff.mp hvalid
      exact ⟨bytes, hmac⟩

theorem one_identity_mixed :
    SameClient " 52-54:00-AB:cd:Ef" (formatMac #v[0x52, 0x54, 0x00, 0xab, 0xcd, 0xef]) := by
  obtain ⟨-, -, -, hspelling, -⟩ := one_identity
  have hspace : ∀ c ∈ [' '] ++ ([] : List Char), isWhitespace c = true := by
    intro c hc
    rw [List.append_nil, List.mem_singleton] at hc
    rw [hc]
    decide
  refine (hspelling _ _ ⟨[' '], "52-54:00-AB:cd:Ef".toList, [], by decide, hspace, ?_⟩).2
  decide

end BootyCall.Fleet.Identity
