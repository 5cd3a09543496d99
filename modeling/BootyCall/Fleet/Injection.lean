import BootyCall.Fleet.Identity
import BootyCall.Fleet.LogTexts
import BootyCall.Fleet.Twins
import BootyCall.Http.Dashboard

namespace BootyCall.Fleet.Injection

open BootyCall.Core Mac Path State Lib.Markup Http.Dashboard Tftp.Listener Tftp.Handling Servers
  Identity LogTexts Twins

/-- What an event brings from outside into the store or the log has no less-than sign: a text of the
operator, a printed address, or the name in a request that is granted to a tracked host. -/
def Tame (s : World) : Event → Prop
  | .dhcp config _ _ _ request => ∀ mac, Dhcp.Server.clientMac request = some mac →
    (∀ host, config.findHost mac = some host → Clean host.name) ∧
      Clean (Dhcp.Server.bootloaderPath config mac request.architecture)
  | .poll template config now clientIp segment => ∀ outcome,
    (Http.Server.poll template config now clientIp segment s.store).2 = some outcome →
      Clean clientIp ∧ ∀ script cacheMac, outcome = .boot script cacheMac → Clean cacheMac
  | .override authorized config now mac target =>
    (Http.Server.apiOverride authorized config now mac target s.store).2 = true → Clean target
  | .rrq config fs hosts _ clientIp datagram => ∀ job,
    onPacket config fs hosts clientIp datagram = .start job → job.mac.isSome = true →
      CleanConfig config ∧ CleanNames fs ∧ Clean job.request.filename
  | .transfer _ _ _ | .sweep _ _ => True

inductive TameRun : World → Prop
  | init : TameRun {}
  | step {s : World} (h : TameRun s) (e : Event) (fits : s.Fits e) (tame : Tame s e) :
    TameRun (s.step e)

structure CleanWrite (w : Write) : Prop where
  mac : isValidMac w.mac = true
  name : ∀ t ∈ w.fields.name, Clean t
  target : ∀ t ∈ w.fields.target, Clean t
  ip : ∀ t ∈ w.fields.ip, Clean t
  arch : ∀ t ∈ w.fields.arch, Clean t

structure CleanLog (entry : LogEvent) : Prop where
  clean : CleanEntry entry
  host : ∃ mac, entry.mac = some mac ∧ isValidMac mac = true

structure Inv (s : World) : Prop where
  hosts : ∀ k host, s.store.hosts.lookup k = some host →
    isValidMac host.mac = true ∧ CleanHost host
  logs : ∀ entry ∈ s.store.logs, CleanLog entry
  jobs : ∀ session ∈ s.sessions, ∀ mac ∈ session.job.mac, isValidMac mac = true

variable {s : World}

theorem TameRun.reachable (h : TameRun s) : Reachable s := by
  induction h with
  | init => exact .init
  | step _ e fits _ ih => exact .step ih e fits

theorem cleanLog_logEvent {store : StateStore} (h : ∀ entry ∈ store.logs, CleanLog entry)
    (now : SystemTime) {level mac message : String} (hmac : isValidMac mac = true)
    (hlevel : Clean level) (hmessage : Clean message) :
    ∀ entry ∈ (store.logEvent now level (some mac) message).logs, CleanLog entry := by
  intro entry hentry
  rw [StateStore.logEvent_logs] at hentry
  rcases List.mem_append.mp (List.mem_of_mem_drop hentry) with hentry | hentry
  · exact h entry hentry
  · obtain rfl := List.mem_singleton.mp hentry
    have hsame : (some mac).map normalizeMac = some mac := by
      rw [Option.map_some, normalizeMac_of_isValidMac hmac]
    refine ⟨⟨hlevel, ?_, hmessage⟩, mac, hsame, hmac⟩
    intro mac' hmac'
    rw [hsame, Option.mem_some_iff] at hmac'
    exact hmac' ▸ clean_of_isValidMac hmac

section Step

variable {e : Event}

def CleanTftpMark (mark : Option TftpMark) : Prop :=
  ∀ i mac m, mark = some (i, mac, m) → isValidMac mac = true ∧ CleanMark m

theorem cleanTftpMark_start (h : Reachable s) {config : Config} {fs : FileSystem}
    {hosts : List HostState} {now : SystemTime} {clientIp : String}
    {datagram : Tftp.Wire.Bytes} (hl : s.store.IsListing hosts)
    (ht : Tame s (.rrq config fs hosts now clientIp datagram)) :
    CleanTftpMark (s.startMark (onPacket config fs hosts clientIp datagram)) := by
  intro i mac m hmark
  obtain ⟨job, mac', hjob, hmac, heq⟩ := startMark_some hmark
  obtain ⟨-, rfl, rfl⟩ : i = s.sessions.length ∧ mac = mac' ∧ m = bootingMark job := by
    simpa using heq
  refine ⟨mac_of_start h (canonical_reachable h) hl hjob mac hmac, ?_⟩
  obtain ⟨hconfig, hfs, hname⟩ := ht job hjob (by rw [hmac]; rfl)
  exact clean_bootingMark hconfig hfs hjob hname

theorem cleanTftpMark_step (hinv : Inv s) (i : ℕ) (a : Answer) :
    CleanTftpMark (s.stepMark i a) := by
  intro i' mac m hmark
  obtain ⟨session, mac', m', hsession, hmac, hm, heq⟩ := stepMark_some hmark
  obtain ⟨-, rfl, rfl⟩ : i' = i ∧ mac = mac' ∧ m = m' := by simpa using heq
  exact ⟨hinv.jobs session (List.mem_of_getElem? hsession) mac hmac, clean_react hm⟩

theorem cleanLog_applyMark {store : StateStore} (h : ∀ entry ∈ store.logs, CleanLog entry)
    (now : SystemTime) {mark : Option TftpMark} (hmark : CleanTftpMark mark) :
    ∀ entry ∈ (applyMark now mark store).logs, CleanLog entry := by
  cases mark with
  | none => exact h
  | some mark =>
    obtain ⟨i, mac, m⟩ := mark
    obtain ⟨hmac, hm⟩ := hmark i mac m rfl
    exact cleanLog_logEvent (by simpa using h) now hmac hm.level hm.message

theorem clean_none : ∀ t ∈ (none : Option String), Clean t := fun _ ht ↦ nomatch ht

theorem cleanWrite_mark {mark : Option TftpMark} (h : CleanTftpMark mark) {w : Write}
    (hw : mark.map World.markWrite = some w) : CleanWrite w := by
  obtain ⟨⟨i, mac, m⟩, hmark, rfl⟩ := Option.map_eq_some_iff.mp hw
  exact ⟨(h i mac m hmark).1, clean_none, clean_none, clean_none, clean_none⟩

theorem cleanWrite_step (h : Reachable s) (hinv : Inv s) (fits : s.Fits e) (ht : Tame s e)
    {w : Write} (hw : s.writeOf e = some w) : CleanWrite w := by
  cases e with
  | dhcp config now src ourIp request =>
    rw [World.writeOf] at hw
    obtain ⟨mac, hmac, rfl⟩ := Option.map_eq_some_iff.mp hw
    refine ⟨isValidMac_clientMac hmac, ?_, clean_none, ?_, ?_⟩
    · intro t hname
      obtain ⟨host, hfind, rfl⟩ := Option.mem_map.mp hname
      exact (ht mac hmac).1 host hfind
    · rintro t ⟨⟩
      exact clean_ipString _
    · rintro t ⟨⟩
      exact clean_archStr _ _
  | poll template config now clientIp segment =>
    rw [World.writeOf] at hw
    obtain ⟨outcome, hpoll, rfl⟩ := Option.map_eq_some_iff.mp hw
    refine ⟨poll_some hpoll, clean_none, clean_none, ?_, clean_none⟩
    rintro t ⟨⟩
    exact (ht outcome hpoll).1
  | override authorized config now mac target =>
    simp only [World.writeOf] at hw
    split at hw
    · next hok =>
      obtain rfl := Option.some.inj hw
      refine ⟨(Http.Server.apiOverride_ok hok).1, clean_none, ?_, clean_none, clean_none⟩
      rintro t ⟨⟩
      exact ht hok
    · cases hw
  | rrq config fs hosts now clientIp datagram =>
    exact cleanWrite_mark (cleanTftpMark_start h fits ht) hw
  | transfer now i a => exact cleanWrite_mark (cleanTftpMark_step hinv i a) hw
  | sweep now maxIdleSecs => cases hw

theorem cleanLog_step (h : Reachable s) (hinv : Inv s) (fits : s.Fits e) (ht : Tame s e) :
    ∀ entry ∈ (s.step e).store.logs, CleanLog entry := by
  have hlogs {now : SystemTime} {mac : String} {status : HostStatus} {u : HostUpdate} :
      ∀ entry ∈ (s.store.updateHostStatus now mac status u).logs, CleanLog entry := by
    simpa using hinv.logs
  cases e with
  | dhcp config now src ourIp request =>
    simp only [World.step, World.storeAfter, Dhcp.Server.onMessage]
    split
    · next mac msgType hmac _ =>
      apply cleanLog_logEvent hlogs now (isValidMac_clientMac hmac) clean_info
      have hpath := (ht mac hmac).2
      refine .append (.append (.append (.append (.append ?_ hpath) ?_) (clean_ipString ourIp)) ?_)
        (clean_archStr _ _) <;> decide
    · exact hinv.logs
  | poll template config now clientIp segment =>
    rw [Tame] at ht
    simp only [World.step, World.storeAfter, Http.Server.poll] at ht ⊢
    split
    · next hmac =>
      rw [if_pos hmac] at ht
      cases template with
      | none => exact hinv.logs
      | some template =>
        dsimp only at ht ⊢
        cases hout : Http.Server.decidePollOutcome template config s.store
            (normalizeMac segment) with
        | boot script cacheMac =>
          apply cleanLog_logEvent hlogs now hmac clean_info
          exact .append (.append (by decide) ((ht _ rfl).2 script cacheMac hout)) (by decide)
        | renderFailed => exact cleanLog_logEvent hlogs now hmac clean_error (by decide)
        | poll => exact hlogs
    · exact hinv.logs
  | override authorized config now mac target =>
    rw [Tame] at ht
    simp only [World.step, World.storeAfter, Http.Server.apiOverride] at ht ⊢
    split
    · next hcond =>
      rw [if_pos hcond] at ht
      rw [Bool.and_eq_true, Bool.and_eq_true] at hcond
      apply cleanLog_logEvent hlogs now hcond.1.2 clean_info
      exact .append (by decide) (ht rfl)
    · exact hinv.logs
  | rrq config fs hosts now clientIp datagram =>
    exact cleanLog_applyMark hinv.logs now (cleanTftpMark_start h fits ht)
  | transfer now i a => exact cleanLog_applyMark hinv.logs now (cleanTftpMark_step hinv i a)
  | sweep now maxIdleSecs => exact hinv.logs

theorem forall_mem_orElse {a b : Option String} (ha : ∀ t ∈ a, Clean t) (hb : ∀ t ∈ b, Clean t) :
    ∀ t ∈ (a <|> b), Clean t := by
  cases a with
  | none => exact hb
  | some s => exact ha

theorem hosts_step_clean (h : Reachable s) (hinv : Inv s) (fits : s.Fits e) (ht : Tame s e)
    {k : String} {host : HostState} (hk : (s.step e).store.hosts.lookup k = some host) :
    isValidMac host.mac = true ∧ CleanHost host := by
  cases change_of_lookup hk with
  | kept hk' _ => exact hinv.hosts k host hk'
  | updated w hw hkey hd hh =>
    subst hh
    have hclean := cleanWrite_step h hinv fits ht hw
    rw [normalizeMac_of_isValidMac hclean.mac] at hkey
    obtain ⟨hmac, hold⟩ : isValidMac
        ((s.store.hosts.lookup k).getD (.fresh e.now k w.status)).mac = true ∧
        CleanHost ((s.store.hosts.lookup k).getD (.fresh e.now k w.status)) := by
      cases hlookup : s.store.hosts.lookup k with
      | some old => exact hinv.hosts k old hlookup
      | none =>
        have hmac : isValidMac k = true := hkey ▸ hclean.mac
        exact ⟨hmac, clean_of_isValidMac hmac, clean_none, clean_none, clean_none, clean_none⟩
    refine ⟨hmac, hold.mac, ?_, ?_, ?_, ?_⟩
    · exact forall_mem_orElse hclean.name hold.name
    · exact forall_mem_orElse hclean.target hold.assignedTarget
    · exact forall_mem_orElse hclean.ip hold.clientIp
    · exact forall_mem_orElse hclean.arch hold.architecture

end Step

theorem inv_run (h : TameRun s) : Inv s := by
  induction h with
  | init =>
    refine ⟨?_, ?_, ?_⟩
    · intro k host hk
      simp at hk
    · exact fun entry hentry ↦ nomatch hentry
    · exact fun session hsession ↦ nomatch hsession
  | step hs e fits ht ih =>
    have h := hs.reachable
    exact ⟨fun k host hk ↦ hosts_step_clean h ih fits ht hk, cleanLog_step h ih fits ht,
      jobs_step h (canonical_reachable h) fits⟩

section Dashboard

variable {toLocaleTimeString : Option ℤ → String}

theorem Inv.host (hinv : Inv s) {hosts : List HostState} (hl : s.store.IsListing hosts) :
    ∀ host ∈ hosts, CleanHost host := by
  intro host hhost
  obtain ⟨⟨k, host'⟩, hentry, rfl⟩ := List.mem_map.mp (hl.mem_iff.mp hhost)
  exact (hinv.hosts k host' (StateStore.mem_entries_iff.mp hentry)).2

theorem tags_logs (hinv : Inv s) (htime : ∀ ms, Clean (toLocaleTimeString ms)) :
    tags (text (updateLogs toLocaleTimeString s.store.listLogs)) =
      logsTags s.store.logs.length := by
  apply tags_updateLogs htime
  · exact fun entry hentry ↦ (hinv.logs entry hentry).clean
  · intro entry hentry
    obtain ⟨mac, hmac, hvalid⟩ := (hinv.logs entry hentry).host
    have hne : mac ≠ "" := by
      rintro rfl
      exact absurd hvalid (by decide)
    simp [truthy, hmac, hne]

theorem message_mem {logs : List LogEvent} {entry : LogEvent} (h : entry ∈ logs) :
    .slot entry.message ∈ updateLogs toLocaleTimeString logs := by
  rw [updateLogs, if_neg (List.ne_nil_of_mem h)]
  apply List.mem_flatMap.mpr
  refine ⟨entry, List.mem_reverse.mpr h, ?_⟩
  simp [logEntry]

theorem mem_logEvent (store : StateStore) (now : SystemTime) (level : String)
    (mac : Option String) (message : String) :
    ⟨now, level, mac.map normalizeMac, message⟩ ∈
      (store.logEvent now level mac message).logs := by
  rw [StateStore.logEvent_logs]
  dsimp only
  rw [List.drop_append_of_le_length]
  · exact List.mem_append_right _ List.mem_cons_self
  · simp only [List.length_append, List.length_singleton, maxLogs]
    omega

end Dashboard

/-- Without a less-than sign in the names that are granted, the dashboard has the tags of its
templates only, and runs that differ in the names have the same. Any name that is granted to a
tracked host is put into the page as it is. -/
theorem names_bring_no_tags (toLocaleTimeString : Option ℤ → String)
    (htime : ∀ ms, Clean (toLocaleTimeString ms)) :
    (∀ s, TameRun s → ∀ hosts, s.store.IsListing hosts →
      (∀ p ∈ updateLogs toLocaleTimeString s.store.listLogs, p.Inert) ∧
      (∀ p ∈ updateStatus hosts, p.Inert)) ∧
    (∀ s s', TwinRun s s' → TameRun s → TameRun s' →
      ∀ hosts hosts', s.store.IsListing hosts → s'.store.IsListing hosts' →
        tags (text (updateLogs toLocaleTimeString s'.store.listLogs)) =
          tags (text (updateLogs toLocaleTimeString s.store.listLogs)) ∧
        tags (text (updateStatus hosts')) = tags (text (updateStatus hosts))) ∧
    ∀ (s : World) config fs hosts now clientIp datagram job,
      onPacket config fs hosts clientIp datagram = .start job → job.mac.isSome = true →
      ¬Clean job.request.filename →
        ∃ p ∈ updateLogs toLocaleTimeString
          (s.step (.rrq config fs hosts now clientIp datagram)).store.listLogs, ¬p.Inert := by
  refine ⟨?_, ?_, ?_⟩
  · intro s h hosts hl
    have hinv := inv_run h
    constructor
    · exact inert_updateLogs htime fun entry hentry ↦ (hinv.logs entry hentry).clean
    · exact inert_updateStatus (hinv.host hl)
  · intro s s' htwin h h' hosts hosts' hl hl'
    have hshape := sameShape_run htwin
    constructor
    · rw [tags_logs (inv_run h) htime, tags_logs (inv_run h') htime, hshape.logs]
    · rw [tags_updateStatus ((inv_run h).host hl), tags_updateStatus ((inv_run h').host hl'),
        hl.length_eq, hl'.length_eq, hshape.hosts]
  · intro s config fs hosts now clientIp datagram job hjob hmac hname
    obtain ⟨mac, hmac⟩ := Option.isSome_iff_exists.mp hmac
    have hmem := mem_logEvent (s.store.updateHostStatus now mac .booting {}) now "INFO"
      (some mac) (bootingMark job).message
    have hlogged : ⟨now, "INFO", (some mac).map normalizeMac, (bootingMark job).message⟩ ∈
        (s.step (.rrq config fs hosts now clientIp datagram)).store.listLogs := by
      simpa [World.step, World.storeAfter, hjob, World.startMark, hmac, applyMark, bootingMark,
        StateStore.listLogs] using hmem
    refine ⟨_, message_mem hlogged, ?_⟩
    intro hinert
    apply hname
    intro hlt
    apply hinert
    simp [bootingMark, hlt]

def clock (ms : Option ℤ) : String := if ms.isNone then "Invalid Date" else "1:00:00 AM"

def request (name : String) : Event :=
  .rrq Attribution.noHosts sample (Attribution.firstPoll.store.hosts.entries.map Sigma.snd) 0
    "10.0.0.5" (Tftp.Wire.makeRrqPacket name "octet" [])

def asks (name : String) : World := Attribution.firstPoll.step (request name)

theorem asks_reachable (name : String) : Reachable (asks name) :=
  .step Attribution.firstPoll_reachable _ (.refl _)

def started (name : String) : Job where
  request := { filename := name, mode := "octet" }
  filePath := .ofString ("/srv/" ++ name)
  mac := some "aa:bb:cc:00:00:01"

def Starts (name : String) : Prop :=
  onPacket Attribution.noHosts sample (Attribution.firstPoll.store.hosts.entries.map Sigma.snd)
    "10.0.0.5" (Tftp.Wire.makeRrqPacket name "octet" []) = .start (started name)

instance (name : String) : Decidable (Starts name) :=
  inferInstanceAs (Decidable (onPacket Attribution.noHosts sample
    (Attribution.firstPoll.store.hosts.entries.map Sigma.snd) "10.0.0.5"
    (Tftp.Wire.makeRrqPacket name "octet" []) = .start (started name)))

theorem asks_twins {name name' : String} (h : Starts name) (h' : Starts name') :
    TwinRun (asks name) (asks name') := by
  have hfirst : TwinRun Attribution.firstPoll Attribution.firstPoll :=
    .step .init (.same (Attribution.pollFrom "10.0.0.5" "aa:bb:cc:00:00:01")) trivial trivial
  exact .step hfirst (.renamed h h' rfl) (.refl _) (.refl _)

theorem cleanConfig_noHosts : CleanConfig Attribution.noHosts where
  bootloaders := by decide
  tftpRoot := by
    rw [CleanPath]
    decide

theorem asks_tame {name : String} (h : Starts name) (hname : Clean name) :
    TameRun (asks name) := by
  have hfirst : TameRun Attribution.firstPoll :=
    .step .init (Attribution.pollFrom "10.0.0.5" "aa:bb:cc:00:00:01") trivial
      (fun outcome houtcome ↦ ⟨by decide, fun script cacheMac hboot ↦ by
        subst hboot
        cases houtcome⟩)
  have hfs : CleanNames sample := by
    rw [CleanNames]
    decide
  refine .step hfirst _ (.refl _) fun job hjob _ ↦ ⟨cleanConfig_noHosts, hfs, ?_⟩
  obtain rfl := Reaction.start.inj (h.symm.trans hjob)
  exact hname

theorem names_bring_no_tags_renamed :
    tags (text (updateLogs clock (asks "c").store.listLogs)) =
      tags (text (updateLogs clock (asks "b").store.listLogs)) := by
  have htime : ∀ ms, Clean (clock ms) := by
    intro ms
    rw [clock]
    split <;> decide
  have hb : Starts "b" := by decide +kernel
  have hc : Starts "c" := by decide +kernel
  exact ((names_bring_no_tags clock htime).2.1 (asks "b") (asks "c") (asks_twins hb hc)
    (asks_tame hb (by decide)) (asks_tame hc (by decide)) _ _ (.refl _) (.refl _)).1

/-- A name in angle brackets becomes a tag of the page. -/
theorem markup_injected :
    Reachable (asks "b") ∧ Reachable (asks "<b>") ∧ TwinRun (asks "b") (asks "<b>") ∧
      tags (text (updateLogs clock (asks "<b>").store.listLogs)) ≠
        tags (text (updateLogs clock (asks "b").store.listLogs)) := by
  refine ⟨asks_reachable "b", asks_reachable "<b>", ?_, ?_⟩
  · exact asks_twins (by decide +kernel) (by decide +kernel)
  · decide +kernel

end BootyCall.Fleet.Injection
