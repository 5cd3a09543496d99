import BootyCall.Fleet.Attribution

namespace BootyCall.Fleet.LastWriter

open BootyCall.Core Mac Path State Tftp.Wire Tftp.Listener Tftp.Handling Servers Attribution

variable {s : World} {k : String}

def lastWrite (s : World) (k : String) : Option (Option ℕ × HostStatus) :=
  (s.written.filter fun w ↦ w.1 == k).getLast?.map Prod.snd

def Writes (s : World) (k : String) (i : ℕ) (status : HostStatus) : Prop :=
  ∃ session, s.sessions[i]? = some session ∧ session.job.mac.map normalizeMac = some k ∧
    session.marks.getLast?.map Mark.status = some status

theorem lastWrite_step_of_write {e : Event} {w : Write} (hw : s.writeOf e = some w)
    (hd : s.store.drops w.mac = false) (hk : normalizeMac w.mac = k) :
    lastWrite (s.step e) k = some (w.source, w.status) := by
  rw [lastWrite, (note_of_write hw hd).2]
  simp [hk]

theorem lastWrite_step_of_ne {e : Event}
    (hw : ∀ w, s.writeOf e = some w → normalizeMac w.mac ≠ k) :
    lastWrite (s.step e) k = lastWrite s k := by
  rcases note_step s e with ⟨-, hwritten⟩ | ⟨w, hwrite, hd⟩
  · rw [lastWrite, hwritten, lastWrite]
  · rw [lastWrite, (note_of_write hwrite hd).2]
    simp [hw w hwrite, lastWrite]

theorem step_marks {session : Session} {a : Answer} {mac : String} {m : Mark}
    (hmac : session.job.mac = some mac)
    (hm : (react session.job.request session.stage a).mark = some m) :
    (step session a).marks = session.marks ++ [m] := by
  simp [step, hmac, hm]

theorem writes_of_write {e : Event} {w : Write} (hw : s.writeOf e = some w) {i : ℕ}
    (hi : w.source = some i) : Writes (s.step e) (normalizeMac w.mac) i w.status := by
  cases e <;> simp only [World.writeOf] at hw
  case sweep => cases hw
  case dhcp config now src ourIp request =>
    obtain ⟨mac, -, rfl⟩ := Option.map_eq_some_iff.mp hw
    cases hi
  case poll template config now clientIp segment =>
    obtain ⟨outcome, -, rfl⟩ := Option.map_eq_some_iff.mp hw
    cases hi
  case override authorized config now mac target =>
    split at hw
    · obtain rfl := Option.some.inj hw
      cases hi
    · contradiction
  case rrq config fs hosts now clientIp datagram =>
    obtain ⟨mark, hmark, rfl⟩ := Option.map_eq_some_iff.mp hw
    simp only [World.startMark] at hmark
    split at hmark
    · next job hjob =>
      obtain ⟨mac, hmac, rfl⟩ := Option.map_eq_some_iff.mp hmark
      obtain rfl := Option.some.inj hi
      refine ⟨start job, ?_, ?_, ?_⟩
      · simp [World.step, World.sessionsAfter, hjob]
      · simp [start, hmac, World.markWrite]
      · simp [start, hmac, World.markWrite]
    · contradiction
  case transfer now j a =>
    obtain ⟨mark, hmark, rfl⟩ := Option.map_eq_some_iff.mp hw
    simp only [World.stepMark, Option.bind_eq_bind, Option.bind_eq_some_iff] at hmark
    obtain ⟨session, hsession, mac, hmac, m, hm, hmark⟩ := hmark
    obtain rfl := Option.some.inj hmark
    obtain rfl := Option.some.inj hi
    refine ⟨step session a, ?_, ?_, ?_⟩
    · simp [World.step, World.sessionsAfter, hsession]
    · simp [step, hmac, World.markWrite]
    · simp [step_marks hmac hm, World.markWrite]

theorem writes_of_ne {e : Event} (hw : ∀ w, s.writeOf e = some w → normalizeMac w.mac ≠ k)
    {i : ℕ} {status : HostStatus} (h : Writes s k i status) : Writes (s.step e) k i status := by
  obtain ⟨session, hsession, hmac, hmark⟩ := h
  cases e with
  | rrq config fs hosts now clientIp datagram =>
    refine ⟨session, ?_, hmac, hmark⟩
    have hlt := (List.getElem?_eq_some_iff.mp hsession).1
    simp only [World.step, World.sessionsAfter]
    split
    · rw [List.getElem?_append_left hlt, hsession]
    · exact hsession
  | transfer now j a =>
    by_cases hij : i = j
    · subst hij
      have hnone : (react session.job.request session.stage a).mark = none := by
        by_contra hsome
        obtain ⟨m, hm⟩ := Option.ne_none_iff_exists'.mp hsome
        obtain ⟨mac, hmac', hk⟩ := Option.map_eq_some_iff.mp hmac
        have hwrite : s.writeOf (.transfer now i a) = some (World.markWrite (i, mac, m)) := by
          simp [World.writeOf, World.stepMark, hsession, hmac', hm]
        exact hw _ hwrite hk
      refine ⟨step session a, ?_, hmac, ?_⟩
      · simp [World.step, World.sessionsAfter, hsession]
      · simpa [step, hnone] using hmark
    · refine ⟨session, ?_, hmac, hmark⟩
      simp [World.step, World.sessionsAfter, Ne.symm hij, hsession]
  | _ =>
    refine ⟨session, ?_, hmac, hmark⟩
    simpa only [World.step, World.sessionsAfter] using hsession

theorem status_reachable (h : Reachable s) {host : HostState}
    (hk : s.store.hosts.lookup k = some host) :
    ∃ source, lastWrite s k = some (source, host.status) ∧
      ∀ i, source = some i → Writes s k i host.status := by
  induction h generalizing host with
  | init => simp at hk
  | @step s _ e _ ih =>
    cases change_of_lookup hk with
    | kept hk' hw =>
      obtain ⟨source, hlast, hwrites⟩ := ih hk'
      exact ⟨source, (lastWrite_step_of_ne hw).trans hlast,
        fun i hi ↦ writes_of_ne hw (hwrites i hi)⟩
    | updated w hw hkey hd hh =>
      subst hh hkey
      exact ⟨w.source, lastWrite_step_of_write hw hd rfl, fun i hi ↦ writes_of_write hw hi⟩

def Ended (s : World) (k : String) (i : ℕ) (status : HostStatus) : Prop :=
  ∃ session m, s.sessions[i]? = some session ∧ session.job.mac.map normalizeMac = some k ∧
    session.stage = .ended ∧ session.marks.getLast? = some m ∧ m.Terminal ∧ m.status = status

/-- The last writer wins: the recorded status of a tracked host is the last one written for it.
Once all its transfers have ended with a written outcome, and the last status was written for a
transfer, it is the outcome of that transfer. -/
theorem last_writer_wins (s : World) (h : Reachable s) (k : String) (host : HostState)
    (hk : s.store.hosts.lookup k = some host) :
    (∃ source, lastWrite s k = some (source, host.status)) ∧
    ((∀ i session, s.sessions[i]? = some session → session.job.mac.map normalizeMac = some k →
        ∃ status, Ended s k i status) →
      ∀ i status, lastWrite s k = some (some i, status) → Ended s k i host.status) := by
  obtain ⟨source, hlast, hwrites⟩ := status_reachable h hk
  refine ⟨⟨source, hlast⟩, fun hall i status hi ↦ ?_⟩
  obtain rfl : source = some i :=
    (Prod.mk.inj (Option.some.inj (hlast.symm.trans hi))).1
  obtain ⟨session, hsession, hmac, hmark⟩ := hwrites i rfl
  obtain ⟨status', session', m, hsession', hmac', hended, hm, hterm, hstatus⟩ :=
    hall i session hsession hmac
  obtain rfl : session = session' := Option.some.inj (hsession.symm.trans hsession')
  rw [hm] at hmark
  exact ⟨session, m, hsession, hmac, hended, hm, hterm, Option.some.inj hmark⟩

def request (s : World) : World :=
  s.step (.rrq noHosts sample (s.store.hosts.entries.map Sigma.snd) 0 "10.0.0.5"
    (makeRrqPacket "boot" "octet" []))

def answer (i : ℕ) (answers : List Answer) (s : World) : World :=
  answers.foldl (fun s a ↦ s.step (.transfer 0 i a)) s

theorem request_reachable (h : Reachable s) : Reachable (request s) :=
  .step h _ (List.Perm.refl _)

theorem answer_reachable (i : ℕ) (answers : List Answer) (h : Reachable s) :
    Reachable (answer i answers s) := by
  induction answers generalizing s with
  | nil => exact h
  | cons a answers ih => exact ih (.step h _ trivial)

/-- A host repeats its request, boots over the second transfer and aborts the first one. -/
def abandonedFirst : World :=
  answer 0 [{}, {}, {}, {}, {}, {}, { net := { recv := .packet (makeErrorPacket 0 "") } }]
    (answer 1 sampleAnswers (request (request firstPoll)))

theorem abandonedFirst_reachable : Reachable abandonedFirst :=
  answer_reachable 0 _ (answer_reachable 1 _ (request_reachable (request_reachable
    firstPoll_reachable)))

theorem last_writer_wins_abandoned :
    (∃ source, lastWrite abandonedFirst "aa:bb:cc:00:00:01" = some (source, .failed)) ∧
      Ended abandonedFirst "aa:bb:cc:00:00:01" 0 .failed := by
  have hstatus : (abandonedFirst.store.hosts.lookup "aa:bb:cc:00:00:01").map HostState.status =
      some .failed := by decide +kernel
  have hended : (abandonedFirst.sessions.all fun session ↦ decide (session.stage = .ended) &&
      session.marks.getLast?.any fun m ↦ decide m.Terminal) = true := by decide +kernel
  obtain ⟨host, hhost, hfailed⟩ := Option.map_eq_some_iff.mp hstatus
  have h := last_writer_wins abandonedFirst abandonedFirst_reachable _ host hhost
  rw [hfailed] at h
  refine ⟨h.1, h.2 (fun i session hsession hmac ↦ ?_) 0 .failed (by decide +kernel)⟩
  have hall := List.all_eq_true.mp hended session (List.mem_of_getElem? hsession)
  simp only [Bool.and_eq_true, decide_eq_true_eq, Option.any_eq_true] at hall
  obtain ⟨hstage, m, hm, hterm⟩ := hall
  exact ⟨m.status, session, m, hsession, hmac, hstage, hm, hterm, rfl⟩

/-- The most recently started transfer has completed, and the host is recorded as failed. -/
theorem abandonedFirst_overwrites :
    Reachable abandonedFirst ∧ abandonedFirst.sessions.length = 2 ∧
      (abandonedFirst.sessions.all fun session ↦ session.stage = .ended) = true ∧
      (abandonedFirst.sessions[1]?.bind fun session ↦ session.marks.getLast?).map Mark.status =
        some .completed ∧
      (abandonedFirst.store.hosts.lookup "aa:bb:cc:00:00:01").map HostState.status =
        some .failed ∧
      (abandonedFirst.written.all fun w ↦ w.2.1.isSome || w.2.2 = .polling) = true :=
  ⟨abandonedFirst_reachable, by decide +kernel, by decide +kernel, by decide +kernel,
    by decide +kernel, by decide +kernel⟩

end BootyCall.Fleet.LastWriter
