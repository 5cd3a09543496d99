import BootyCall.Core.State
import Mathlib.Data.Finset.Card

namespace BootyCall.Core.StoreSpec

open Mac State

inductive Op
  | update (now : SystemTime) (mac : String) (status : HostStatus) (fields : HostUpdate)
  | clean (now : SystemTime) (maxIdleSecs : ℕ)
  | log (now : SystemTime) (level : String) (mac : Option String) (message : String)

def Op.apply (s : StateStore) : Op → StateStore
  | update now mac status fields => s.updateHostStatus now mac status fields
  | clean now maxIdleSecs => s.cleanStaleHosts now maxIdleSecs
  | log now level mac message => s.logEvent now level mac message

def run (ops : List Op) : StateStore := ops.foldl Op.apply {}

structure Accepted where
  now : SystemTime
  status : HostStatus
  fields : HostUpdate

/-- The tracked MACs, and for each of them the updates accepted since its entry was created. -/
structure Spec where
  tracked : Finset String := ∅
  updates : String → List Accepted := fun _ ↦ []

def lastSome (f : HostUpdate → Option String) (us : List Accepted) : Option String :=
  us.reverse.findSome? fun u ↦ f u.fields

def record (mac : String) (us : List Accepted) : Option HostState :=
  us.getLast?.map fun last ↦
    { mac := mac
      name := lastSome HostUpdate.name us
      status := last.status
      assignedTarget := lastSome HostUpdate.target us
      lastSeen := last.now
      clientIp := lastSome HostUpdate.ip us
      architecture := lastSome HostUpdate.arch us }

def idle (now : SystemTime) (maxIdleSecs : ℕ) (lastSeen : SystemTime) : Bool :=
  decide (lastSeen ≤ now ∧ maxIdleSecs * 1000000000 ≤ now - lastSeen)

def Spec.step (a : Spec) : Op → Spec
  | .update now mac status fields =>
    let k := normalizeMac mac
    if k ∉ a.tracked ∧ maxTrackedHosts ≤ a.tracked.card then a
    else
      { tracked := insert k a.tracked
        updates := Function.update a.updates k
          ((if k ∈ a.tracked then a.updates k else []) ++ [⟨now, status, fields⟩]) }
  | .clean now maxIdleSecs =>
    { a with
      tracked := a.tracked.filter fun k ↦
        !(a.updates k).getLast?.any fun last ↦ idle now maxIdleSecs last.now }
  | .log _ _ _ _ => a

def spec (ops : List Op) : Spec := ops.foldl Spec.step {}

def Op.logged : Op → Option LogEvent
  | log now level mac message => some ⟨now, level, mac.map normalizeMac, message⟩
  | _ => none

variable {a : Spec} {s : StateStore}

theorem lastSome_concat (f : HostUpdate → Option String) (us : List Accepted) (u : Accepted) :
    lastSome f (us ++ [u]) = (f u.fields <|> lastSome f us) := by
  rw [lastSome, List.reverse_append, List.reverse_singleton, List.singleton_append,
    List.findSome?_cons, lastSome]
  cases f u.fields <;> rfl

theorem record_concat (mac : String) (us : List Accepted) (now : SystemTime)
    (status : HostStatus) (fields : HostUpdate) :
    record mac (us ++ [⟨now, status, fields⟩]) =
      some (((record mac us).getD (.fresh now mac status)).update now status fields) := by
  rw [record, List.getLast?_append, List.getLast?_singleton]
  simp only [Option.some_or, Option.map_some, lastSome_concat, HostState.update]
  cases hlast : us.getLast? with
  | none =>
    obtain rfl := List.getLast?_eq_none_iff.mp hlast
    rfl
  | some last => simp only [record, hlast, Option.map_some, Option.getD_some]

structure Refines (a : Spec) (s : StateStore) : Prop where
  lookup : ∀ k, s.hosts.lookup k = if k ∈ a.tracked then record k (a.updates k) else none
  updated : ∀ k ∈ a.tracked, a.updates k ≠ []
  normal : ∀ k ∈ a.tracked, normalizeMac k = k
  card_le : a.tracked.card ≤ maxTrackedHosts

theorem Refines.mem_keys (h : Refines a s) (k : String) : k ∈ s.hosts.keys ↔ k ∈ a.tracked := by
  rw [← AList.mem_keys, ← AList.lookup_isSome, h.lookup]
  by_cases hk : k ∈ a.tracked
  · have hne := h.updated k hk
    simp [hk, record, List.getLast?_isSome, hne]
  · simp [hk]

theorem Refines.length (h : Refines a s) : s.hosts.entries.length = a.tracked.card := by
  have hkeys : s.hosts.keys.toFinset = a.tracked := by
    ext k
    rw [List.mem_toFinset, h.mem_keys]
  rw [← hkeys, List.toFinset_card_of_nodup s.hosts.keys_nodup, AList.keys, List.keys,
    List.length_map]

theorem refines_init : Refines {} {} where
  lookup := fun k ↦ by simp
  updated := by simp
  normal := by simp
  card_le := Nat.zero_le _

theorem Refines.lookup_isNone (h : Refines a s) (k : String) :
    (s.hosts.lookup k).isNone = true ↔ k ∉ a.tracked := by
  rw [← h.mem_keys, ← AList.mem_keys, ← AList.lookup_isSome, Option.isNone_iff_eq_none,
    ← Option.not_isSome_iff_eq_none]

theorem Refines.drops (h : Refines a s) (mac : String) :
    s.drops mac = true ↔ normalizeMac mac ∉ a.tracked ∧ maxTrackedHosts ≤ a.tracked.card := by
  rw [StateStore.drops, Bool.and_eq_true, h.lookup_isNone, decide_eq_true_iff, h.length]

theorem Refines.update (h : Refines a s) (now : SystemTime) (mac : String) (status : HostStatus)
    (fields : HostUpdate) :
    Refines (a.step (.update now mac status fields)) (s.updateHostStatus now mac status fields) := by
  have hdrops := h.drops mac
  rw [Spec.step]
  split
  · next hdrop =>
    rw [StateStore.updateHostStatus, if_pos (hdrops.mpr hdrop)]
    exact h
  · next hkeep =>
    have hkeep' : s.drops mac = false := Bool.not_eq_true _ ▸ mt hdrops.mp hkeep
    refine ⟨fun k ↦ ?_, fun k hk ↦ ?_, fun k hk ↦ ?_, ?_⟩
    · rw [StateStore.lookup_updateHostStatus]
      by_cases hk : k = normalizeMac mac
      · subst hk
        rw [if_pos ⟨rfl, hkeep'⟩, if_pos (Finset.mem_insert_self _ _)]
        dsimp only
        rw [Function.update_self, record_concat, h.lookup]
        split <;> rfl
      · rw [if_neg fun hc ↦ hk hc.1, h.lookup]
        dsimp only
        rw [Function.update_of_ne hk]
        simp only [Finset.mem_insert, hk, false_or]
    · by_cases hk' : k = normalizeMac mac
      · subst hk'
        dsimp only
        rw [Function.update_self]
        exact List.append_ne_nil_of_right_ne_nil _ (List.cons_ne_nil _ _)
      · dsimp only
        rw [Function.update_of_ne hk']
        exact h.updated k ((Finset.mem_insert.mp hk).resolve_left hk')
    · rcases Finset.mem_insert.mp hk with rfl | hk
      · exact normalizeMac_idem mac
      · exact h.normal k hk
    · have hle := h.card_le
      by_cases hk : normalizeMac mac ∈ a.tracked
      · dsimp only
        rw [Finset.insert_eq_of_mem hk]
        exact hle
      · dsimp only
        rw [Finset.card_insert_of_notMem hk]
        exact Nat.not_le.mp fun hfull ↦ hkeep ⟨hk, hfull⟩

theorem fresh_iff (now : SystemTime) (maxIdleSecs : ℕ) (h : HostState) :
    StateStore.fresh now maxIdleSecs h = !idle now maxIdleSecs h.lastSeen := by
  rw [StateStore.fresh, idle, ← decide_not, decide_eq_decide, not_and, not_le]
  exact forall_congr' fun _ ↦ Int.ediv_lt_iff_lt_mul (by decide)

theorem Refines.clean (h : Refines a s) (now : SystemTime) (maxIdleSecs : ℕ) :
    Refines (a.step (.clean now maxIdleSecs)) (s.cleanStaleHosts now maxIdleSecs) where
  lookup k := by
    rw [StateStore.lookup_cleanStaleHosts, h.lookup, Spec.step]
    simp only [Finset.mem_filter]
    by_cases hk : k ∈ a.tracked
    · rw [if_pos hk, record]
      cases hlast : (a.updates k).getLast? with
      | none => simp
      | some last =>
        rw [Option.map_some, Option.filter_some, fresh_iff]
        simp [hk]
    · simp [hk]
  updated k hk := h.updated k (Finset.mem_filter.mp hk).1
  normal k hk := h.normal k (Finset.mem_filter.mp hk).1
  card_le := (Finset.card_filter_le _ _).trans h.card_le

theorem Refines.log (h : Refines a s) (now : SystemTime) (level : String) (mac : Option String)
    (message : String) : Refines a (s.logEvent now level mac message) where
  lookup k := by rw [StateStore.logEvent_hosts, h.lookup]
  updated := h.updated
  normal := h.normal
  card_le := h.card_le

theorem Refines.apply (h : Refines a s) (op : Op) : Refines (a.step op) (op.apply s) := by
  cases op with
  | update now mac status fields => exact h.update now mac status fields
  | clean now maxIdleSecs => exact h.clean now maxIdleSecs
  | log now level mac message => exact h.log now level mac message

theorem refines_run (ops : List Op) : Refines (spec ops) (run ops) := by
  induction ops using List.reverseRecOn with
  | nil => exact refines_init
  | append_singleton ops op ih =>
    rw [spec, run, List.foldl_append, List.foldl_append]
    exact ih.apply op

theorem drop_excess_concat {α : Type} (xs : List α) (x : α) (m : ℕ) :
    (xs.drop (xs.length - m) ++ [x]).drop ((xs.drop (xs.length - m) ++ [x]).length - m) =
      (xs ++ [x]).drop ((xs ++ [x]).length - m) := by
  have hle : xs.length - m ≤ xs.length := Nat.sub_le _ _
  rw [← List.drop_append_of_le_length hle, List.drop_drop]
  congr 1
  simp only [List.length_drop, List.length_append, List.length_singleton]
  omega

theorem logs_run (ops : List Op) :
    (run ops).logs = (ops.filterMap Op.logged).drop ((ops.filterMap Op.logged).length - maxLogs) := by
  induction ops using List.reverseRecOn with
  | nil => rfl
  | append_singleton ops op ih =>
    have hrun : run (ops ++ [op]) = op.apply (run ops) := by
      rw [run, List.foldl_append]
      rfl
    rw [hrun, List.filterMap_append]
    cases op with
    | update now mac status fields =>
      have hlog : [Op.update now mac status fields].filterMap Op.logged = [] := rfl
      rw [hlog, List.append_nil, Op.apply, StateStore.updateHostStatus_logs]
      exact ih
    | clean now maxIdleSecs =>
      have hlog : [Op.clean now maxIdleSecs].filterMap Op.logged = [] := rfl
      rw [hlog, List.append_nil, Op.apply, StateStore.cleanStaleHosts_logs]
      exact ih
    | log now level mac message =>
      have hlog : [Op.log now level mac message].filterMap Op.logged =
          [⟨now, level, mac.map normalizeMac, message⟩] := rfl
      rw [hlog, ← drop_excess_concat _ _ maxLogs, ← ih, Op.apply, StateStore.logEvent_logs]

/-- What the store shows of a history, and what one more call does to it. -/
structure Shows (a : Spec) (logged : List LogEvent) (s : StateStore) : Prop where
  length_le : s.hosts.entries.length ≤ maxTrackedHosts
  keyed : s.Keyed
  distinct : (s.hosts.entries.map fun e ↦ e.2.mac).Nodup
  getHost : ∀ mac, s.getHost mac =
    if normalizeMac mac ∈ a.tracked then
      record (normalizeMac mac) (a.updates (normalizeMac mac)) else none
  updated : ∀ k ∈ a.tracked, a.updates k ≠ []
  dropped : ∀ now mac status fields, s.getHost mac = none →
    s.hosts.entries.length = maxTrackedHosts → s.updateHostStatus now mac status fields = s
  created : ∀ now mac status fields, s.getHost mac = none →
    s.hosts.entries.length < maxTrackedHosts →
    (s.updateHostStatus now mac status fields).getHost mac =
      some ((HostState.fresh now (normalizeMac mac) status).update now status fields)
  applied : ∀ now mac status fields host, s.getHost mac = some host →
    (s.updateHostStatus now mac status fields).getHost mac = some (host.update now status fields)
  others : ∀ now mac status fields mac', normalizeMac mac' ≠ normalizeMac mac →
    (s.updateHostStatus now mac status fields).getHost mac' = s.getHost mac'
  cleaned : ∀ now maxIdleSecs mac, (s.cleanStaleHosts now maxIdleSecs).getHost mac =
    (s.getHost mac).filter fun host ↦ !idle now maxIdleSecs host.lastSeen
  logs : s.listLogs = logged.drop (logged.length - min logged.length maxLogs)

theorem Refines.keyed (h : Refines a s) : s.Keyed := by
  intro k host hk
  rw [h.lookup] at hk
  split at hk
  · next hmem =>
    obtain ⟨last, -, rfl⟩ := Option.map_eq_some_iff.mp hk
    exact ⟨rfl, h.normal k hmem⟩
  · contradiction

theorem macs_eq_keys (hs : s.Keyed) : (s.hosts.entries.map fun e ↦ e.2.mac) = s.hosts.keys := by
  refine List.map_congr_left fun e he ↦ ?_
  exact (hs e.1 e.2 (StateStore.mem_entries_iff.mp he)).1

/-- Every history of calls leaves the store showing exactly what its specification says. -/
theorem shows_run (ops : List Op) : Shows (spec ops) (ops.filterMap Op.logged) (run ops) := by
  have h := refines_run ops
  have hlogs := logs_run ops
  generalize run ops = s at h hlogs
  have hlength := h.length
  have hdrops (mac : String) (hnone : s.getHost mac = none) :
      s.drops mac = decide (maxTrackedHosts ≤ s.hosts.entries.length) := by
    rw [StateStore.getHost] at hnone
    rw [StateStore.drops, hnone, Option.isNone_none, Bool.true_and]
  refine
    { length_le := hlength ▸ h.card_le
      keyed := h.keyed
      distinct := ?_
      getHost := fun mac ↦ h.lookup (normalizeMac mac)
      updated := h.updated
      dropped := fun now mac status fields hnone hfull ↦ ?_
      created := fun now mac status fields hnone hroom ↦ ?_
      applied := fun now mac status fields host hhost ↦ ?_
      others := fun now mac status fields mac' hne ↦ ?_
      cleaned := fun now maxIdleSecs mac ↦ ?_
      logs := ?_ }
  · rw [macs_eq_keys h.keyed]
    exact s.hosts.keys_nodup
  · rw [StateStore.updateHostStatus, hdrops mac hnone, hfull]
    exact if_pos rfl
  · have hkeep : s.drops mac = false := by
      rw [hdrops mac hnone]
      exact decide_eq_false (Nat.not_le.mpr hroom)
    rw [StateStore.getHost] at hnone
    rw [StateStore.getHost, StateStore.lookup_updateHostStatus, if_pos ⟨rfl, hkeep⟩, hnone,
      Option.getD_none]
  · rw [StateStore.getHost] at hhost
    rw [StateStore.getHost, StateStore.lookup_updateHostStatus,
      if_pos ⟨rfl, StateStore.drops_of_lookup hhost⟩, hhost, Option.getD_some]
  · rw [StateStore.getHost, StateStore.lookup_updateHostStatus, if_neg fun hc ↦ hne hc.1]
    rfl
  · rw [StateStore.getHost, StateStore.lookup_cleanStaleHosts]
    exact congrArg (Option.filter · _) (funext (fresh_iff now maxIdleSecs))
  · have hmin (m : ℕ) : m - min m maxLogs = m - maxLogs := by omega
    rw [StateStore.listLogs, hlogs, hmin]

end BootyCall.Core.StoreSpec
