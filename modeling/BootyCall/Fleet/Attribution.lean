import BootyCall.Fleet.Servers

namespace BootyCall.Fleet.Attribution

open BootyCall.Core Mac Path State Tftp.Wire Tftp.Listener Servers

variable {s : World} {x : String}

def carries (s : World) (x k : String) : Bool :=
  (s.store.hosts.lookup k).any fun h ↦ h.clientIp == some x

def mostRecent (s : World) (x : String) : Option String :=
  (s.recorded.reverse.find? fun r ↦ r.2 == x && carries s x r.1).map Prod.fst

theorem carries_iff {k : String} :
    carries s x k = true ↔ ∃ h, s.store.hosts.lookup k = some h ∧ h.clientIp = some x := by
  simp [carries, Option.any_eq_true]

theorem recorded_step (s : World) (e : Event) : s.recorded ⊆ (s.step e).recorded := by
  rcases note_step s e with ⟨hr, -⟩ | ⟨w, hw, hd⟩
  · rw [hr]
    exact List.Subset.refl _
  · rw [(note_of_write hw hd).1]
    exact List.subset_append_left _ _

theorem recorded_of_carries (h : Reachable s) {k : String} {host : HostState}
    (hk : s.store.hosts.lookup k = some host) (hip : host.clientIp = some x) :
    (k, x) ∈ s.recorded := by
  induction h generalizing host with
  | init => simp at hk
  | @step s _ e _ ih =>
    cases change_of_lookup hk with
    | kept hk' _ => exact recorded_step s e (ih hk' hip)
    | updated w hw hkey hd hh =>
      subst hh
      cases hfield : w.fields.ip with
      | some y =>
        obtain rfl : y = x := by simpa [HostState.update, hfield] using hip
        rw [(note_of_write hw hd).1, hfield, hkey]
        exact List.mem_append_right _ (by simp)
      | none =>
        cases hold : s.store.hosts.lookup k with
        | none => simp [HostState.update, hfield, hold, HostState.fresh] at hip
        | some host =>
          have hip : host.clientIp = some x := by
            simpa [HostState.update, hfield, hold] using hip
          exact recorded_step s e (ih hold hip)

theorem mostRecent_isSome (h : Reachable s) {k : String} (hk : carries s x k = true) :
    ∃ m, mostRecent s x = some m := by
  obtain ⟨host, hlookup, hip⟩ := carries_iff.mp hk
  have hmem := recorded_of_carries h hlookup hip
  have hfind : (s.recorded.reverse.find? fun r ↦ r.2 == x && carries s x r.1).isSome = true :=
    List.find?_isSome.mpr ⟨_, List.mem_reverse.mpr hmem, by simp [hk]⟩
  obtain ⟨r, hr⟩ := Option.isSome_iff_exists.mp hfind
  exact ⟨r.1, by rw [mostRecent, hr]; rfl⟩

theorem hostByIp_tracked (h : Reachable s) {hosts : List HostState}
    (hl : s.store.IsListing hosts) {host : HostState} (hh : hostByIp hosts x = some host) :
    s.store.hosts.lookup host.mac = some host ∧ host.clientIp = some x := by
  obtain ⟨hmem, hip⟩ := hostByIp_some hh
  exact ⟨(StateStore.mem_listing (keyed_reachable h) hl).mp hmem, hip⟩

theorem hostByIp_isSome (h : Reachable s) {hosts : List HostState}
    (hl : s.store.IsListing hosts) {k : String} (hk : carries s x k = true) :
    ∃ host, hostByIp hosts x = some host := by
  obtain ⟨host, hlookup, hip⟩ := carries_iff.mp hk
  have hkey := (keyed_reachable h k host hlookup).1
  have hmem : host ∈ hosts :=
    (StateStore.mem_listing (keyed_reachable h) hl).mpr (by rw [hkey, hlookup])
  exact Option.isSome_iff_exists.mp
    (List.find?_isSome.mpr ⟨host, hmem, by simp [hip]⟩)

theorem exists_listing_first (h : Reachable s) {k : String} (hk : carries s x k = true) :
    ∃ hosts, s.store.IsListing hosts ∧ (hostByIp hosts x).map HostState.mac = some k := by
  obtain ⟨host, hlookup, hip⟩ := carries_iff.mp hk
  have hmem : host ∈ s.store.hosts.entries.map Sigma.snd :=
    List.mem_map.mpr ⟨_, StateStore.mem_entries_iff.mpr hlookup, rfl⟩
  refine ⟨_, (List.perm_cons_erase hmem).symm, ?_⟩
  rw [hostByIp, List.find?_cons_of_pos (by simp [hip])]
  exact congrArg some (keyed_reachable h k host hlookup).1

/-- A request from an address some tracked host carries is resolved to such a host, and to the
one for which the address was recorded last in every order of the map exactly when no other
tracked host still carries it. What is set up for the request is set up for the host it was
resolved to. -/
theorem attribution (s : World) (h : Reachable s) (x : String)
    (htracked : ∃ k host, s.store.hosts.lookup k = some host ∧ host.clientIp = some x) :
    (∀ hosts, s.store.IsListing hosts → ∃ host, hostByIp hosts x = some host ∧
      s.store.hosts.lookup host.mac = some host ∧ host.clientIp = some x ∧
      ∀ config fs datagram job, onPacket config fs hosts x datagram = .start job →
        job.mac = some host.mac ∧
        some job.filePath = safeJoin fs config.server.tftpRoot
          (finalFilename config (some host) job.request.filename)) ∧
    ∃ m, mostRecent s x = some m ∧
      ((∀ hosts, s.store.IsListing hosts → (hostByIp hosts x).map HostState.mac = some m) ↔
        ∀ k host, s.store.hosts.lookup k = some host → host.clientIp = some x → k = m) := by
  obtain ⟨k₀, host₀, hlookup₀, hip₀⟩ := htracked
  have hcarries := carries_iff.mpr ⟨host₀, hlookup₀, hip₀⟩
  constructor
  · intro hosts hl
    obtain ⟨host, hhost⟩ := hostByIp_isSome h hl hcarries
    obtain ⟨hlookup, hip⟩ := hostByIp_tracked h hl hhost
    refine ⟨host, hhost, hlookup, hip, fun config fs datagram job hjob ↦ ?_⟩
    obtain ⟨-, hpath, hmac⟩ := onPacket_start hjob
    rw [resolvedFilePath, hhost] at hpath
    rw [hhost] at hmac
    exact ⟨hmac, hpath.symm⟩
  · obtain ⟨m, hm⟩ := mostRecent_isSome h hcarries
    refine ⟨m, hm, fun hall k host hlookup hip ↦ ?_, fun honly hosts hl ↦ ?_⟩
    · obtain ⟨hosts, hl, hfirst⟩ := exists_listing_first h
        (carries_iff.mpr ⟨host, hlookup, hip⟩)
      exact Option.some.inj (hfirst.symm.trans (hall hosts hl))
    · obtain ⟨host, hhost⟩ := hostByIp_isSome h hl hcarries
      obtain ⟨hlookup, hip⟩ := hostByIp_tracked h hl hhost
      rw [hhost, Option.map_some, honly _ _ hlookup hip]

def noHosts : Config where
  server :=
    { httpBind := "0.0.0.0:8080"
      tftpBind := "0.0.0.0:69"
      tftpRoot := .ofString "/srv"
      proxyDhcpBind := "0.0.0.0:4011"
      defaultBootloaderAmd64 := "ipxe.efi"
      defaultBootloaderArm64 := "arm64.efi"
      defaultBootloaderBios := "undionly.kpxe" }
  hosts := []

def pollFrom (clientIp segment : String) : Event :=
  .poll (some fun _ _ ↦ none) noHosts 0 clientIp segment

def firstPoll : World := ({} : World).step (pollFrom "10.0.0.5" "aa:bb:cc:00:00:01")

def movedAddress : World := firstPoll.step (pollFrom "10.0.0.5" "aa:bb:cc:00:00:02")

theorem firstPoll_reachable : Reachable firstPoll := .step .init _ trivial

theorem attribution_firstPoll :
    ∃ m, mostRecent firstPoll "10.0.0.5" = some m ∧
      ((∀ hosts, firstPoll.store.IsListing hosts →
          (hostByIp hosts "10.0.0.5").map HostState.mac = some m) ↔
        ∀ k host, firstPoll.store.hosts.lookup k = some host →
          host.clientIp = some "10.0.0.5" → k = m) :=
  (attribution firstPoll firstPoll_reachable "10.0.0.5"
    ⟨"aa:bb:cc:00:00:01",
      { HostState.fresh 0 "aa:bb:cc:00:00:01" .polling with clientIp := some "10.0.0.5" },
      by decide, rfl⟩).2

/-- The host that held the address before can still be the one a request is attributed to. -/
theorem movedAddress_misattributed :
    Reachable movedAddress ∧
      movedAddress.store.IsListing (movedAddress.store.hosts.entries.map Sigma.snd).reverse ∧
      (hostByIp (movedAddress.store.hosts.entries.map Sigma.snd).reverse "10.0.0.5").map
        HostState.mac = some "aa:bb:cc:00:00:01" ∧
      mostRecent movedAddress "10.0.0.5" = some "aa:bb:cc:00:00:02" :=
  ⟨.step firstPoll_reachable _ trivial, List.reverse_perm _, by decide, by decide⟩

end BootyCall.Fleet.Attribution
