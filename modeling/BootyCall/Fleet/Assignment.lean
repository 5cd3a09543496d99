import BootyCall.Fleet.Servers
import BootyCall.Http.Menu

namespace BootyCall.Fleet.Assignment

open BootyCall.Core Mac State Http.Server Http.Scripts Servers

variable {s : World} {k target : String}

/-- An override that the API answers with ok. -/
def Overrides (s : World) (k : String) (e : Event) : Prop :=
  ∃ authorized config now mac target, e = .override authorized config now mac target ∧
    normalizeMac mac = k ∧ (apiOverride authorized config now mac target s.store).2 = true

def Evicts (s : World) (k : String) (e : Event) : Prop :=
  (s.store.hosts.lookup k).isSome ∧ (s.step e).store.hosts.lookup k = none

/-- Traffic of any kind in which the host is not evicted and no override is made for it. -/
def Undisturbed (k : String) : World → List Event → Prop
  | _, [] => True
  | s, e :: es => ¬Overrides s k e ∧ ¬Evicts s k e ∧ Undisturbed k (s.step e) es

def run (s : World) (es : List Event) : World := es.foldl World.step s

theorem overrides_of_target {e : Event} {w : Write} (hw : s.writeOf e = some w)
    (ht : w.fields.target ≠ none) : Overrides s (normalizeMac w.mac) e := by
  cases e <;> simp only [World.writeOf] at hw
  case sweep => cases hw
  case dhcp config now src ourIp request =>
    obtain ⟨mac, -, rfl⟩ := Option.map_eq_some_iff.mp hw
    exact absurd rfl ht
  case poll template config now clientIp segment =>
    obtain ⟨outcome, -, rfl⟩ := Option.map_eq_some_iff.mp hw
    exact absurd rfl ht
  case override authorized config now mac target =>
    split at hw
    · next hok =>
      obtain rfl := Option.some.inj hw
      exact ⟨authorized, config, now, mac, target, rfl, (normalizeMac_idem mac).symm, hok⟩
    · cases hw
  case rrq config fs hosts now clientIp datagram =>
    obtain ⟨mark, -, rfl⟩ := Option.map_eq_some_iff.mp hw
    exact absurd rfl ht
  case transfer now i a =>
    obtain ⟨mark, -, rfl⟩ := Option.map_eq_some_iff.mp hw
    exact absurd rfl ht

theorem assignedTarget_step {e : Event} (hno : ¬Overrides s k e) {host : HostState}
    (hk : (s.step e).store.hosts.lookup k = some host) :
    host.assignedTarget = (s.store.hosts.lookup k).bind HostState.assignedTarget := by
  cases change_of_lookup hk with
  | kept hk' _ => rw [hk', Option.bind_some]
  | updated w hw hkey _ hh =>
    have ht : w.fields.target = none := by
      by_contra ht
      exact hno (hkey ▸ overrides_of_target hw ht)
    subst hh
    rw [HostState.update, ht]
    cases s.store.hosts.lookup k <;> rfl

def Assigned (s : World) (k target : String) : Prop :=
  (s.store.hosts.lookup k).bind HostState.assignedTarget = some target

theorem assigned_step {e : Event} (h : Assigned s k target) (hno : ¬Overrides s k e)
    (hkept : ¬Evicts s k e) : Assigned (s.step e) k target := by
  obtain ⟨host, hk, -⟩ := Option.bind_eq_some_iff.mp h
  cases hk' : (s.step e).store.hosts.lookup k with
  | none => exact absurd ⟨by rw [hk, Option.isSome_some], hk'⟩ hkept
  | some host' =>
    rw [Assigned, hk', Option.bind_some, assignedTarget_step hno hk']
    exact h

theorem assigned_run {es : List Event} (h : Assigned s k target) (hes : Undisturbed k s es) :
    Assigned (run s es) k target := by
  induction es generalizing s with
  | nil => exact h
  | cons e es ih =>
    obtain ⟨hno, hkept, hrest⟩ := hes
    exact ih (assigned_step h hno hkept) hrest

/-- Every poll for the MAC, in any spelling, is answered with the script of the host that has the
target's name. -/
def Boots (config : Config) (k target : String) (s : World) : Prop :=
  ∃ host ∈ config.hosts, host.name = target ∧
    (∀ other ∈ config.hosts, other.name = target → other = host) ∧
    ∀ header now clientIp segment, normalizeMac segment = k →
      (poll (some (bootTemplate (hostHeader header))) config now clientIp segment s.store).2 =
        some (.boot (bootScript (hostHeader header) host (some k)) host.mac)

theorem find_of_override {authorized : Bool} {config : Config} {now : SystemTime}
    {mac : String} {store : StateStore}
    (h : (apiOverride authorized config now mac target store).2 = true) :
    ∃ host, config.hosts.find? (fun h ↦ h.name == target) = some host := by
  apply Option.isSome_iff_exists.mp
  rw [List.find?_isSome]
  simpa using (apiOverride_ok h).2

theorem boots_of_assigned {config : Config} (hvalid : config.Valid) {mac : String}
    (hmac : isValidMac (normalizeMac mac) = true) (hnew : config.findHost mac = none)
    {host : HostConfig} (hfind : config.hosts.find? (fun h ↦ h.name == target) = some host)
    (h : Assigned s (normalizeMac mac) target) : Boots config (normalizeMac mac) target s := by
  have hname : host.name = target := by simpa using List.find?_some hfind
  have hmem := List.mem_of_find?_eq_some hfind
  refine ⟨host, hmem, hname, fun other hother heq ↦ ?_, fun header now clientIp segment hseg ↦ ?_⟩
  · exact List.inj_on_of_nodup_map hvalid.distinctNames hother hmem (heq.trans hname.symm)
  · have hne : some (normalizeMac mac) ≠ some "" := by
      intro hempty
      rw [Option.some.inj hempty] at hmac
      exact absurd hmac (by decide)
    have htarget : assignedTarget config s.store (normalizeMac mac) = some host := by
      obtain ⟨hs, hk, htarget⟩ := Option.bind_eq_some_iff.mp h
      have hget : s.store.getHost (normalizeMac mac) = some hs := by
        rw [StateStore.getHost, normalizeMac_idem]
        exact hk
      simp only [assignedTarget, hget, htarget, Option.bind_eq_bind, Option.bind_some, hfind]
    simp only [poll, hseg, hmac, if_true, decidePollOutcome, Config.findHost_normalizeMac, hnew,
      htarget, rendered, bootTemplate_eq _ _ hne]

theorem hosts_override {authorized : Bool} {config : Config} {now : SystemTime} {mac : String}
    (hok : (apiOverride authorized config now mac target s.store).2 = true) :
    (s.step (.override authorized config now mac target)).store.hosts =
      (s.store.updateHostStatus now (normalizeMac mac) .polling { target := some target }).hosts := by
  rw [hosts_step, World.writeOf, if_pos hok]
  rfl

theorem drops_normalizeMac (store : StateStore) (mac : String) :
    store.drops (normalizeMac mac) = store.drops mac := by
  rw [StateStore.drops, StateStore.drops, normalizeMac_idem]

theorem assigned_override {authorized : Bool} {config : Config} {now : SystemTime} {mac : String}
    (hok : (apiOverride authorized config now mac target s.store).2 = true)
    (hroom : s.store.drops mac = false) :
    Assigned (s.step (.override authorized config now mac target)) (normalizeMac mac) target := by
  rw [Assigned, hosts_override hok, StateStore.lookup_updateHostStatus, drops_normalizeMac,
    if_pos ⟨(normalizeMac_idem mac).symm, hroom⟩]
  rfl

theorem poll_lost_override {authorized : Bool} {config : Config} {now now' : SystemTime}
    {mac clientIp : String} {template : BootTemplate}
    (hok : (apiOverride authorized config now mac target s.store).2 = true)
    (hnew : config.findHost mac = none) (hdrop : s.store.drops mac = true) :
    (poll (some template) config now' clientIp mac
      (s.step (.override authorized config now mac target)).store).2 = some .poll := by
  have hget : (s.step (.override authorized config now mac target)).store.getHost
      (normalizeMac mac) = none := by
    rw [StateStore.getHost, hosts_override hok, StateStore.updateHostStatus, drops_normalizeMac,
      if_pos hdrop, normalizeMac_idem]
    simpa using (Bool.and_eq_true_iff.mp hdrop).1
  have hmac := (apiOverride_ok hok).1
  simp only [poll, hmac, if_true, decidePollOutcome, Config.findHost_normalizeMac, hnew,
    assignedTarget, hget, Option.bind_eq_bind, Option.bind_none]

/-- An accepted override steers every following poll for its MAC, whatever else happens, exactly
if the host was tracked already or there was room to track it. -/
theorem override_steers (printable : Char → Bool) (fromStr : String → Option Config)
    (content : Option String) (config : Config)
    (hload : Config.load printable fromStr content = .ok config) (s : World) (authorized : Bool)
    (now : SystemTime) (mac target : String) (hnew : config.findHost mac = none)
    (hok : (apiOverride authorized config now mac target s.store).2 = true) :
    (∀ es, Undisturbed (normalizeMac mac) (s.step (.override authorized config now mac target)) es →
      Boots config (normalizeMac mac) target
        (run (s.step (.override authorized config now mac target)) es)) ↔
      s.store.drops mac = false := by
  obtain ⟨_, _, _, _, _, hvalid⟩ := (Config.load_ok printable).mp hload
  have hmac := (apiOverride_ok hok).1
  obtain ⟨host, hfind⟩ := find_of_override hok
  constructor
  · intro h
    by_contra hfull
    have hdrop : s.store.drops mac = true := by simpa using hfull
    obtain ⟨_, -, -, -, hboot⟩ := h [] trivial
    have hlost := (hboot none 0 "" mac rfl).symm.trans (poll_lost_override hok hnew hdrop)
    cases Option.some.inj hlost
  · intro hroom es hes
    exact boots_of_assigned hvalid hmac hnew hfind
      (assigned_run (assigned_override hok hroom) hes)

def labConfig : Config := Http.Menu.rackConfig (some "quiet")

def guest : World :=
  ({} : World).step (.override true labConfig 0 "02-00-00-00-00-01" "rack")

theorem override_steers_guest :
    Boots labConfig "02:00:00:00:00:01" "rack" (run guest [.sweep 2 60]) := by
  have hno : ¬Overrides guest "02:00:00:00:00:01" (.sweep 2 60) := by
    rintro ⟨_, _, _, _, _, h, -⟩
    cases h
  have hkept : ¬Evicts guest "02:00:00:00:00:01" (.sweep 2 60) := by
    unfold Evicts
    decide
  exact (override_steers (fun _ ↦ true) (Config.reads Http.Menu.rackYaml labConfig)
    (some Http.Menu.rackYaml) labConfig (Config.load_reads _ _ _) {} true 0 "02-00-00-00-00-01"
    "rack" (by decide) (by decide)).mpr (by decide) _ ⟨hno, hkept, trivial⟩

def fleetMac (n : ℕ) : String :=
  formatMac #v[2, 0, 0, 0, UInt8.ofNat (n / 256), UInt8.ofNat (n % 256)]

def crowd : ℕ → World
  | 0 => {}
  | n + 1 =>
    (crowd n).step (.poll (some (bootTemplate "localhost:8080")) labConfig 0 "10.0.0.9" (fleetMac n))

theorem crowd_reachable (n : ℕ) : Reachable (crowd n) := by
  induction n with
  | zero => exact .init
  | succ n ih => exact .step ih _ trivial

theorem fleetMac_injective {m n : ℕ} (hm : m < 65536) (hn : n < 65536)
    (h : fleetMac m = fleetMac n) : m = n := by
  have hbytes := congrArg Vector.toList (formatMac_injective h)
  simp only [Vector.toList_mk, List.cons.injEq, true_and, and_true, ← UInt8.toNat_inj,
    UInt8.toNat_ofNat'] at hbytes
  omega

theorem normalizeMac_fleetMac (n : ℕ) : normalizeMac (fleetMac n) = fleetMac n :=
  normalizeMac_of_isValidMac (isValidMac_formatMac _)

theorem poll_crowd (n : ℕ) : ∃ outcome, (crowd n).writeOf
    (.poll (some (bootTemplate "localhost:8080")) labConfig 0 "10.0.0.9" (fleetMac n)) =
      some ⟨none, fleetMac n, outcome, { ip := some "10.0.0.9" }⟩ := by
  have hmac : isValidMac (fleetMac n) = true := isValidMac_formatMac _
  simp only [World.writeOf, poll, normalizeMac_fleetMac, hmac, if_true, Option.map_some]
  exact ⟨_, rfl⟩

theorem crowd_tracks {n : ℕ} (hn : n ≤ maxTrackedHosts) :
    (crowd n).store.hosts.entries.length = n ∧
      ∀ k ∈ (crowd n).store.hosts, ∃ m < n, k = fleetMac m := by
  induction n with
  | zero => exact ⟨rfl, fun k hk ↦ by cases hk⟩
  | succ n ih =>
    obtain ⟨hlen, hkeys⟩ := ih (Nat.le_of_succ_le hn)
    have hnew : fleetMac n ∉ (crowd n).store.hosts := by
      intro hmem
      obtain ⟨m, hm, hsame⟩ := hkeys _ hmem
      have hmax : maxTrackedHosts = 4096 := rfl
      have := fleetMac_injective (by omega) (by omega) hsame
      omega
    have hroom : (crowd n).store.drops (fleetMac n) = false := by
      simp only [StateStore.drops, hlen, Bool.and_eq_false_iff, decide_eq_false_iff_not]
      omega
    obtain ⟨outcome, hw⟩ := poll_crowd n
    have hhosts : ∃ entry, (crowd (n + 1)).store.hosts =
        (crowd n).store.hosts.insert (fleetMac n) entry := by
      rw [crowd, hosts_step, hw]
      simp only [StateStore.updateHostStatus, hroom, Bool.false_eq_true, if_false,
        normalizeMac_fleetMac]
      exact ⟨_, rfl⟩
    obtain ⟨entry, hhosts⟩ := hhosts
    rw [hhosts]
    refine ⟨?_, fun k hk ↦ ?_⟩
    · rw [AList.entries_insert_of_notMem hnew, List.length_cons, hlen]
    · rcases (AList.mem_insert _).mp hk with rfl | hk
      · exact ⟨n, Nat.lt_succ_self n, rfl⟩
      · obtain ⟨m, hm, rfl⟩ := hkeys k hk
        exact ⟨m, Nat.lt_succ_of_lt hm, rfl⟩

/-- With the store full, the API accepts an override and the host goes on polling. -/
theorem crowded_override_lost :
    Reachable (crowd 4096) ∧
      (apiOverride true labConfig 1 (fleetMac 4096) "rack" (crowd 4096).store).2 = true ∧
      (poll (some (bootTemplate (hostHeader none))) labConfig 2 "10.0.0.9" (fleetMac 4096)
        ((crowd 4096).step (.override true labConfig 1 (fleetMac 4096) "rack")).store).2 =
          some .poll := by
  have hok : (apiOverride true labConfig 1 (fleetMac 4096) "rack" (crowd 4096).store).2 = true := by
    have hmac : isValidMac (fleetMac 4096) = true := isValidMac_formatMac _
    have htarget : (labConfig.hosts.any fun h ↦ h.name == "rack") = true := by decide
    simp only [apiOverride, normalizeMac_fleetMac, hmac, htarget, Bool.and_self, if_true]
  have hdrop : (crowd 4096).store.drops (fleetMac 4096) = true := by
    obtain ⟨hlen, hkeys⟩ := crowd_tracks (n := 4096) le_rfl
    have hnew : fleetMac 4096 ∉ (crowd 4096).store.hosts := by
      intro hmem
      obtain ⟨m, hm, hsame⟩ := hkeys _ hmem
      have := fleetMac_injective (by omega) (by omega) hsame
      omega
    rw [StateStore.drops, normalizeMac_fleetMac, AList.lookup_eq_none.mpr hnew, hlen]
    rfl
  exact ⟨crowd_reachable 4096, hok, poll_lost_override hok (by decide) hdrop⟩

end BootyCall.Fleet.Assignment
