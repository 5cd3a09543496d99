import BootyCall.Core.StoreSpec

namespace BootyCall.Core.Activity

open Mac State StoreSpec

/-- A host seen after `now` does not count; ages are in nanoseconds. -/
def hasRecentActivity (s : StateStore) (now : SystemTime) (maxAge : ℕ) : Bool :=
  s.hosts.entries.any fun e ↦ decide (e.2.lastSeen ≤ now ∧ now - e.2.lastSeen ≤ maxAge)

def staleHostTtlSecs : ℕ := 300

def recentNanos : ℕ := 30 * 1000000000

def time : Op → SystemTime
  | .update now _ _ _ | .clean now _ | .log now _ _ _ => now

/-- A host's entry was updated at that time, under any spelling of its MAC. -/
def Touched (ops : List Op) (k : String) (t : SystemTime) : Prop :=
  ∃ before mac status fields after, ops = before ++ .update t mac status fields :: after ∧
    normalizeMac mac = k ∧ (run before).drops mac = false

def Sweeps (ops : List Op) : Prop := ∀ t n, .clean t n ∈ ops → n = staleHostTtlSecs

variable {ops : List Op} {op : Op} {k : String} {t now : SystemTime}

theorem run_concat (ops : List Op) (op : Op) : run (ops ++ [op]) = op.apply (run ops) := by
  rw [run, List.foldl_append]
  rfl

theorem Touched.concat (h : Touched ops k t) (op : Op) : Touched (ops ++ [op]) k t := by
  obtain ⟨before, mac, status, fields, after, rfl, hmac, hkeep⟩ := h
  exact ⟨before, mac, status, fields, after ++ [op], by simp, hmac, hkeep⟩

theorem touched_concat_iff : Touched (ops ++ [op]) k t ↔
    Touched ops k t ∨ ∃ mac status fields, op = .update t mac status fields ∧
      normalizeMac mac = k ∧ (run ops).drops mac = false := by
  constructor
  · rintro ⟨before, mac, status, fields, after, hsplit, hmac, hkeep⟩
    rcases List.eq_nil_or_concat after with rfl | ⟨after, last, rfl⟩
    · obtain ⟨rfl, hop⟩ := List.append_inj' hsplit rfl
      exact .inr ⟨mac, status, fields, List.singleton_inj.mp hop, hmac, hkeep⟩
    · rw [List.concat_eq_append, ← List.cons_append, ← List.append_assoc] at hsplit
      obtain ⟨rfl, -⟩ := List.append_inj' hsplit rfl
      exact .inl ⟨before, mac, status, fields, after, rfl, hmac, hkeep⟩
  · rintro (h | ⟨mac, status, fields, rfl, hmac, hkeep⟩)
    · exact h.concat op
    · exact ⟨ops, mac, status, fields, [], rfl, hmac, hkeep⟩

theorem touched_of_lookup {host : HostState} (h : (run ops).hosts.lookup k = some host) :
    Touched ops k host.lastSeen := by
  induction ops using List.reverseRecOn generalizing host with
  | nil => cases h
  | append_singleton ops op ih =>
    rw [run_concat] at h
    rw [touched_concat_iff]
    cases op with
    | update now mac status fields =>
      rw [Op.apply, StateStore.lookup_updateHostStatus] at h
      split at h
      · next hnew =>
        obtain rfl := Option.some.inj h
        exact .inr ⟨mac, status, fields, rfl, hnew.1.symm, hnew.2⟩
      · exact .inl (ih h)
    | clean now n =>
      rw [Op.apply, StateStore.lookup_cleanStaleHosts] at h
      exact .inl (ih (Option.filter_eq_some_iff.mp h).1)
    | log now level mac message =>
      rw [Op.apply, StateStore.logEvent_hosts] at h
      exact .inl (ih h)

theorem Touched.mem_times (h : Touched ops k t) : t ∈ ops.map time := by
  obtain ⟨before, mac, status, fields, after, rfl, -, -⟩ := h
  rw [List.map_append]
  exact List.mem_append_right _ List.mem_cons_self

theorem young {lastSeen sweep now t : ℤ} (hseen : t ≤ lastSeen) (hsweep : sweep ≤ now)
    (hrecent : now - t ≤ recentNanos) :
    lastSeen ≤ sweep → (sweep - lastSeen) / 1000000000 < staleHostTtlSecs := by
  intro _
  rw [recentNanos] at hrecent
  rw [staleHostTtlSecs]
  omega

/-- A host touched within the window is tracked, and seen since: its updates only make it younger,
and it is too young for the sweeps. -/
theorem tracked_of_touched (hclock : (ops.map time ++ [now]).Pairwise (· ≤ ·))
    (hsweeps : Sweeps ops) (htouched : Touched ops k t) (hrecent : now - t ≤ recentNanos) :
    ∃ host, (run ops).hosts.lookup k = some host ∧ t ≤ host.lastSeen := by
  induction ops using List.reverseRecOn with
  | nil =>
    obtain ⟨before, _, _, _, after, hsplit, -⟩ := htouched
    cases before <;> cases hsplit
  | append_singleton ops op ih =>
    rw [List.map_append, List.append_assoc, List.pairwise_append] at hclock
    obtain ⟨hops, hlast, hcross⟩ := hclock
    have hnow : time op ≤ now :=
      (List.pairwise_cons.mp hlast).1 now List.mem_cons_self
    have hsweeps' : Sweeps ops := fun t n hn ↦ hsweeps t n (List.mem_append_left _ hn)
    have hclock' : (ops.map time ++ [now]).Pairwise (· ≤ ·) := by
      refine List.pairwise_append.mpr ⟨hops, List.pairwise_singleton _ _, fun a ha b hb ↦ ?_⟩
      exact hcross a ha b (List.mem_cons_of_mem _ hb)
    rw [run_concat]
    rcases touched_concat_iff.mp htouched with hold | ⟨mac, status, fields, rfl, rfl, hkeep⟩
    · obtain ⟨host, hhost, hseen⟩ := ih hclock' hsweeps' hold
      have hlater : t ≤ time op := hcross t hold.mem_times _ List.mem_cons_self
      cases op with
      | update t' mac status fields =>
        rw [Op.apply, StateStore.lookup_updateHostStatus]
        split
        · exact ⟨_, rfl, hlater⟩
        · exact ⟨host, hhost, hseen⟩
      | clean t' n =>
        obtain rfl := hsweeps t' n (List.mem_append_right _ List.mem_cons_self)
        have hfresh : StateStore.fresh t' staleHostTtlSecs host = true :=
          decide_eq_true (young hseen hnow hrecent)
        rw [Op.apply, StateStore.lookup_cleanStaleHosts, hhost, Option.filter_some,
          if_pos hfresh]
        exact ⟨host, rfl, hseen⟩
      | log t' level mac message =>
        rw [Op.apply, StateStore.logEvent_hosts]
        exact ⟨host, hhost, hseen⟩
    · rw [Op.apply, StateStore.lookup_updateHostStatus, if_pos ⟨rfl, hkeep⟩]
      exact ⟨_, rfl, Int.le_refl t⟩

theorem hasRecentActivity_eq_true (s : StateStore) (now : SystemTime) (maxAge : ℕ) :
    hasRecentActivity s now maxAge = true ↔
      ∃ k host, s.hosts.lookup k = some host ∧ host.lastSeen ≤ now ∧
        now - host.lastSeen ≤ maxAge := by
  simp only [hasRecentActivity, List.any_eq_true, decide_eq_true_eq]
  constructor
  · rintro ⟨⟨k, host⟩, hmem, hage⟩
    exact ⟨k, host, StateStore.mem_entries_iff.mp hmem, hage⟩
  · rintro ⟨k, host, hlookup, hage⟩
    exact ⟨⟨k, host⟩, StateStore.mem_entries_iff.mpr hlookup, hage⟩

/-- The sweeps of the service never hide activity: however they fall, there is recent activity as
long as the last accepted update of some host is not older than the window. -/
theorem recent_iff (ops : List Op) (now : SystemTime)
    (hclock : (ops.map time ++ [now]).Pairwise (· ≤ ·)) (hsweeps : Sweeps ops) :
    hasRecentActivity (run ops) now recentNanos = true ↔
      ∃ k t, Touched ops k t ∧ now - t ≤ recentNanos := by
  rw [hasRecentActivity_eq_true]
  constructor
  · rintro ⟨k, host, hlookup, -, hage⟩
    exact ⟨k, host.lastSeen, touched_of_lookup hlookup, hage⟩
  · rintro ⟨k, t, htouched, hage⟩
    obtain ⟨host, hlookup, hseen⟩ := tracked_of_touched hclock hsweeps htouched hage
    have hpast := (List.pairwise_append.mp hclock).2.2 host.lastSeen
      (touched_of_lookup hlookup).mem_times now List.mem_cons_self
    exact ⟨k, host, hlookup, hpast, Int.le_trans (Int.sub_le_sub_left hseen now) hage⟩

theorem recent_iff_swept :
    hasRecentActivity (run [.update 0 "52-54-00-10-10-10" .polling {},
        .clean 20000000000 staleHostTtlSecs, .clean 30000000000 staleHostTtlSecs])
      30000000000 recentNanos = true ↔
      ∃ k t, Touched [.update 0 "52-54-00-10-10-10" .polling {},
          .clean 20000000000 staleHostTtlSecs, .clean 30000000000 staleHostTtlSecs] k t ∧
        30000000000 - t ≤ recentNanos := by
  apply recent_iff
  · decide
  · intro t n hmem
    simp only [List.mem_cons, reduceCtorEq, Op.clean.injEq, List.not_mem_nil, or_false,
      false_or] at hmem
    rcases hmem with h | h <;> exact h.2

end BootyCall.Core.Activity
