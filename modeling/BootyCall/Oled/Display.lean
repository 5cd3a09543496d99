import BootyCall.Oled.GpioLine
import Mathlib.Data.List.Pairwise

namespace BootyCall.Oled.Display

open GpioLine

inductive DisplayMode
  | screensaver
  | metrics
  deriving DecidableEq

def pageDuration : ℕ := secs 3
def screensaverTimeout : ℕ := secs 120

/-- The variables of the loop that decide what is displayed, and since when. -/
structure Pace where
  lastActivity : ℤ
  currentMode : DisplayMode
  pageIndex : ℕ
  lastPageFlip : ℤ
  lastSshCheck : ℤ
  activeSsh : Bool

structure Reading where
  now : ℤ
  sessions : ℕ
  activePxe : Bool
  activityRead : ℤ
  flipRead : ℤ

def Pace.new (activity flip check : ℤ) : Pace where
  lastActivity := activity
  currentMode := .metrics
  pageIndex := 0
  lastPageFlip := flip
  lastSshCheck := check - secs 10
  activeSsh := false

def Pace.checkSsh (p : Pace) (r : Reading) : Pace :=
  if secs 5 ≤ durationSince r.now p.lastSshCheck then
    { p with activeSsh := decide (0 < r.sessions), lastSshCheck := r.now }
  else p

def Pace.chooseMode (p : Pace) (r : Reading) : Pace :=
  if p.activeSsh || r.activePxe then { p with lastActivity := r.now, currentMode := .metrics }
  else if screensaverTimeout < durationSince r.activityRead p.lastActivity then
    { p with currentMode := .screensaver }
  else p

def Pace.flipPage (pages : ℕ) (p : Pace) (r : Reading) : Pace :=
  if p.currentMode = .metrics then
    if pageDuration < durationSince r.flipRead p.lastPageFlip then
      { p with pageIndex := (p.pageIndex + 1) % pages, lastPageFlip := r.now }
    else p
  else p

def Pace.tick (pages : ℕ) (p : Pace) (r : Reading) : Pace :=
  ((p.checkSsh r).chooseMode r).flipPage pages r

def run (pages : ℕ) (start : Pace) (rs : List Reading) : Pace := rs.foldl (Pace.tick pages) start

variable (pages : ℕ) (start : Pace)

def Reading.times (r : Reading) : List ℤ := [r.now, r.activityRead, r.flipRead]

def Active (before : List Reading) (r : Reading) : Prop :=
  ((run pages start (before ++ [r])).activeSsh || r.activePxe) = true

instance (before : List Reading) (r : Reading) : Decidable (Active pages start before r) :=
  inferInstanceAs (Decidable (_ = true))

/-- The times from which idling counts: the start and the active rounds. -/
def Activity (rs : List Reading) (t : ℤ) : Prop :=
  t = start.lastActivity ∨ ∃ before r after, rs = before ++ r :: after ∧
    Active pages start before r ∧ t = r.now

def Flips (before : List Reading) (r : Reading) : Prop :=
  (run pages start (before ++ [r])).currentMode = .metrics ∧
    (run pages start before).lastPageFlip + pageDuration < r.flipRead

instance (before : List Reading) (r : Reading) : Decidable (Flips pages start before r) :=
  inferInstanceAs (Decidable (_ ∧ _))

def flips (before : List Reading) : List Reading → ℕ
  | [] => 0
  | r :: rs => (if Flips pages start before r then 1 else 0) + flips (before ++ [r]) rs

/-- What all rounds keep to: sessions are as they were less than five seconds before, the
screensaver is on exactly if nothing was active for more than two minutes, and the pages take
turns, each for more than three seconds. -/
structure Paced (rs : List Reading) : Prop where
  sampled : ∀ before (r : Reading) after, rs = before ++ r :: after →
    ∃ q : Reading, q ∈ before ++ [r] ∧ r.now < q.now + secs 5 ∧
      (run pages start (before ++ [r])).activeSsh = decide (0 < q.sessions)
  mode : ∀ before (r : Reading) after, rs = before ++ r :: after →
    ((run pages start (before ++ [r])).currentMode = .screensaver ↔
      ¬Active pages start before r ∧
        ∀ t, Activity pages start before t → t + screensaverTimeout < r.activityRead)
  page : (run pages start rs).pageIndex = flips pages start [] rs % pages
  spaced : ∀ before (r : Reading) between (q : Reading) after,
    rs = before ++ r :: between ++ q :: after →
    Flips pages start before r → Flips pages start (before ++ r :: between) q →
      r.now + pageDuration < q.flipRead

variable {pages start} {p : Pace} {r : Reading} {rs : List Reading}

theorem run_concat (rs : List Reading) (r : Reading) :
    run pages start (rs ++ [r]) = (run pages start rs).tick pages r := by
  rw [run, List.foldl_append]
  rfl

theorem lt_durationSince {d : ℕ} {now earlier : ℤ} :
    d < durationSince now earlier ↔ earlier + d < now := by
  rw [durationSince]
  omega

theorem le_durationSince {d : ℕ} (h : 0 < d) {now earlier : ℤ} :
    d ≤ durationSince now earlier ↔ earlier + d ≤ now := by
  rw [durationSince]
  omega

theorem flipPage_eq (p : Pace) (r : Reading) : p.flipPage pages r =
    { p with
      pageIndex := (p.flipPage pages r).pageIndex
      lastPageFlip := (p.flipPage pages r).lastPageFlip } := by
  rw [Pace.flipPage]
  split
  · split <;> rfl
  · rfl

theorem chooseMode_eq (p : Pace) (r : Reading) : p.chooseMode r =
    { p with
      lastActivity := (p.chooseMode r).lastActivity
      currentMode := (p.chooseMode r).currentMode } := by
  rw [Pace.chooseMode]
  split
  · rfl
  · split <;> rfl

theorem checkSsh_eq (p : Pace) (r : Reading) : p.checkSsh r =
    { p with
      lastSshCheck := (p.checkSsh r).lastSshCheck
      activeSsh := (p.checkSsh r).activeSsh } := by
  rw [Pace.checkSsh]
  split <;> rfl

theorem tick_activeSsh : (p.tick pages r).activeSsh = (p.checkSsh r).activeSsh := by
  rw [Pace.tick, flipPage_eq, chooseMode_eq]

theorem tick_lastSshCheck : (p.tick pages r).lastSshCheck = (p.checkSsh r).lastSshCheck := by
  rw [Pace.tick, flipPage_eq, chooseMode_eq]

theorem tick_lastActivity : (p.tick pages r).lastActivity =
    if (p.tick pages r).activeSsh || r.activePxe then r.now else p.lastActivity := by
  have hssh : (p.checkSsh r).lastActivity = p.lastActivity := by rw [checkSsh_eq]
  rw [tick_activeSsh, Pace.tick, flipPage_eq, ← hssh, Pace.chooseMode]
  split
  · rfl
  · split <;> rfl

theorem tick_currentMode : (p.tick pages r).currentMode =
    if (p.tick pages r).activeSsh || r.activePxe then .metrics
    else if p.lastActivity + screensaverTimeout < r.activityRead then .screensaver
    else p.currentMode := by
  have hssh : (p.checkSsh r).lastActivity = p.lastActivity ∧
      (p.checkSsh r).currentMode = p.currentMode := by
    rw [checkSsh_eq]
    exact ⟨rfl, rfl⟩
  rw [tick_activeSsh, Pace.tick, flipPage_eq, ← hssh.1, ← hssh.2, Pace.chooseMode]
  simp only [lt_durationSince]
  split
  · rfl
  · split <;> rfl

theorem tick_page :
    (p.tick pages r).pageIndex =
        (if (p.tick pages r).currentMode = .metrics ∧ p.lastPageFlip + pageDuration < r.flipRead
          then (p.pageIndex + 1) % pages else p.pageIndex) ∧
      (p.tick pages r).lastPageFlip =
        if (p.tick pages r).currentMode = .metrics ∧ p.lastPageFlip + pageDuration < r.flipRead
          then r.now else p.lastPageFlip := by
  have hrest : ((p.checkSsh r).chooseMode r).pageIndex = p.pageIndex ∧
      ((p.checkSsh r).chooseMode r).lastPageFlip = p.lastPageFlip := by
    rw [chooseMode_eq, checkSsh_eq]
    exact ⟨rfl, rfl⟩
  rw [Pace.tick]
  generalize (p.checkSsh r).chooseMode r = q at hrest
  have hmode : (q.flipPage pages r).currentMode = q.currentMode := by rw [flipPage_eq]
  rw [hmode, ← hrest.1, ← hrest.2, Pace.flipPage]
  simp only [lt_durationSince]
  by_cases hmetrics : q.currentMode = .metrics
  · by_cases hdue : q.lastPageFlip + pageDuration < r.flipRead
    · simp [hmetrics, hdue]
    · simp [hmetrics, hdue]
  · simp [hmetrics]

theorem clock_concat {past : List ℤ}
    (h : (past ++ (rs ++ [r]).flatMap Reading.times).Pairwise (· ≤ ·)) :
    (past ++ rs.flatMap Reading.times).Pairwise (· ≤ ·) ∧
      (∀ t ∈ past ++ rs.flatMap Reading.times, t ≤ r.now) ∧
      r.now ≤ r.activityRead ∧ r.activityRead ≤ r.flipRead := by
  rw [List.flatMap_append, ← List.append_assoc, List.pairwise_append] at h
  obtain ⟨hbefore, hlast, hcross⟩ := h
  have hr : [r].flatMap Reading.times = [r.now, r.activityRead, r.flipRead] := rfl
  rw [hr] at hlast hcross
  obtain ⟨hnow, hrest⟩ := List.pairwise_cons.mp hlast
  refine ⟨hbefore, fun t ht ↦ hcross t ht _ List.mem_cons_self, hnow _ List.mem_cons_self, ?_⟩
  exact (List.pairwise_cons.mp hrest).1 _ List.mem_cons_self

theorem clock_initial {past : List ℤ} (rs rs' : List Reading)
    (h : (past ++ (rs ++ rs').flatMap Reading.times).Pairwise (· ≤ ·)) :
    (past ++ rs.flatMap Reading.times).Pairwise (· ≤ ·) := by
  rw [List.flatMap_append, ← List.append_assoc] at h
  exact (List.pairwise_append.mp h).1

/-- The last activity is the latest one, and a screensaver has been waited for. -/
structure Inv (pages : ℕ) (start : Pace) (past : List ℤ) (rs : List Reading) : Prop where
  seen : (run pages start rs).lastActivity ∈ past ++ rs.flatMap Reading.times
  mem : Activity pages start rs (run pages start rs).lastActivity
  latest : ∀ t, Activity pages start rs t → t ≤ (run pages start rs).lastActivity
  waited : (run pages start rs).currentMode = .screensaver →
    ∃ t ∈ past ++ rs.flatMap Reading.times,
      (run pages start rs).lastActivity + screensaverTimeout < t

theorem activity_concat {t : ℤ} : Activity pages start (rs ++ [r]) t ↔
    Activity pages start rs t ∨ Active pages start rs r ∧ t = r.now := by
  constructor
  · rintro (h | ⟨before, q, after, hsplit, hactive, ht⟩)
    · exact .inl (.inl h)
    · rcases List.eq_nil_or_concat after with rfl | ⟨after, last, rfl⟩
      · obtain ⟨rfl, hq⟩ := List.append_inj' hsplit rfl
        obtain rfl := List.singleton_inj.mp hq
        exact .inr ⟨hactive, ht⟩
      · rw [List.concat_eq_append, ← List.cons_append, ← List.append_assoc] at hsplit
        obtain ⟨rfl, -⟩ := List.append_inj' hsplit rfl
        exact .inl (.inr ⟨before, q, after, rfl, hactive, ht⟩)
  · rintro ((h | ⟨before, q, after, rfl, hactive, ht⟩) | ⟨hactive, ht⟩)
    · exact .inl h
    · exact .inr ⟨before, q, after ++ [r], by simp, hactive, ht⟩
    · exact .inr ⟨rs, r, [], rfl, hactive, ht⟩

theorem lastActivity_concat : (run pages start (rs ++ [r])).lastActivity =
    if Active pages start rs r then r.now else (run pages start rs).lastActivity := by
  have hlast : ((run pages start rs).tick pages r).lastActivity = _ := tick_lastActivity
  rw [← run_concat] at hlast
  exact hlast

section

variable {past : List ℤ}

theorem mode_concat (inv : Inv pages start past rs)
    (hread : ∀ t ∈ past ++ rs.flatMap Reading.times, t ≤ r.activityRead) :
    (run pages start (rs ++ [r])).currentMode = .screensaver ↔
      ¬Active pages start rs r ∧
        (run pages start rs).lastActivity + screensaverTimeout < r.activityRead := by
  rw [Active, run_concat, tick_currentMode]
  by_cases hactive : ((run pages start rs).tick pages r).activeSsh || r.activePxe
  · simp [hactive]
  · rw [if_neg hactive]
    by_cases hidle : (run pages start rs).lastActivity + screensaverTimeout < r.activityRead
    · simp [hactive, hidle]
    · rw [if_neg hidle]
      refine iff_of_false (fun hmode ↦ ?_) fun h ↦ hidle h.2
      obtain ⟨t, ht, hwaited⟩ := inv.waited hmode
      exact hidle (Int.lt_of_lt_of_le hwaited (hread t ht))

theorem inv_start (hstart : start.currentMode = .metrics) (hpast : start.lastActivity ∈ past) :
    Inv pages start past [] where
  seen := List.mem_append_left _ hpast
  mem := .inl rfl
  latest := by
    rintro t (rfl | ⟨before, q, after, hsplit, -⟩)
    · exact Int.le_refl _
    · cases before <;> cases hsplit
  waited := by
    intro hmode
    rw [run, List.foldl_nil, hstart] at hmode
    cases hmode

theorem inv_concat (inv : Inv pages start past rs)
    (hnow : ∀ t ∈ past ++ rs.flatMap Reading.times, t ≤ r.now) (hread : r.now ≤ r.activityRead) :
    Inv pages start past (rs ++ [r]) := by
  have hmode := mode_concat inv fun t ht ↦ Int.le_trans (hnow t ht) hread
  have htimes : past ++ (rs ++ [r]).flatMap Reading.times =
      (past ++ rs.flatMap Reading.times) ++ r.times := by
    simp
  by_cases hactive : Active pages start rs r
  · have hlast := lastActivity_concat.trans (if_pos hactive)
    constructor
    · rw [hlast, htimes]
      exact List.mem_append_right _ List.mem_cons_self
    · rw [hlast]
      exact activity_concat.mpr (.inr ⟨hactive, rfl⟩)
    · intro t ht
      rw [hlast]
      rcases activity_concat.mp ht with hold | ⟨-, rfl⟩
      · exact Int.le_trans (inv.latest t hold) (hnow _ inv.seen)
      · exact Int.le_refl _
    · intro hscreen
      exact absurd hactive (hmode.mp hscreen).1
  · have hlast := lastActivity_concat.trans (if_neg hactive)
    constructor
    · rw [hlast, htimes]
      exact List.mem_append_left _ inv.seen
    · rw [hlast]
      exact activity_concat.mpr (.inl inv.mem)
    · intro t ht
      rw [hlast]
      rcases activity_concat.mp ht with hold | ⟨hact, -⟩
      · exact inv.latest t hold
      · exact absurd hact hactive
    · intro hscreen
      rw [hlast, htimes]
      exact ⟨r.activityRead, List.mem_append_right _ (by simp [Reading.times]),
        (hmode.mp hscreen).2⟩

theorem inv_of_clock (hstart : start.currentMode = .metrics) (hpast : start.lastActivity ∈ past)
    (hclock : (past ++ rs.flatMap Reading.times).Pairwise (· ≤ ·)) :
    Inv pages start past rs := by
  induction rs using List.reverseRecOn with
  | nil => exact inv_start hstart hpast
  | append_singleton rs r ih =>
    obtain ⟨hbefore, hnow, hread, -⟩ := clock_concat hclock
    exact inv_concat (ih hbefore) hnow hread

end

theorem sampled_concat {check : ℤ} (hcheck : start.lastSshCheck = check - secs 10)
    (rs : List Reading) (r : Reading)
    (hclock : ([check] ++ (rs ++ [r]).flatMap Reading.times).Pairwise (· ≤ ·)) :
    ∃ q : Reading, q ∈ rs ++ [r] ∧ r.now < q.now + secs 5 ∧
      (run pages start (rs ++ [r])).lastSshCheck = q.now ∧
      (run pages start (rs ++ [r])).activeSsh = decide (0 < q.sessions) := by
  have hsecs : (0 : ℤ) < secs 5 ∧ (secs 5 : ℤ) ≤ secs 10 := by decide
  obtain ⟨hbefore, hnow, -⟩ := clock_concat hclock
  induction rs using List.reverseRecOn generalizing r with
  | nil =>
    have hdue : secs 5 ≤ durationSince r.now start.lastSshCheck := by
      rw [le_durationSince (by decide), hcheck]
      have hfirst := hnow check List.mem_cons_self
      omega
    rw [run_concat, tick_lastSshCheck, tick_activeSsh, Pace.checkSsh, run, List.foldl_nil,
      if_pos hdue]
    exact ⟨r, List.mem_singleton_self r, by omega, rfl, rfl⟩
  | append_singleton rs p ih =>
    obtain ⟨q, hq, -, hlast, hactive⟩ := ih p hbefore (clock_concat hbefore).1
      (clock_concat hbefore).2.1
    rw [run_concat (rs ++ [p]), tick_lastSshCheck, tick_activeSsh, Pace.checkSsh]
    by_cases hdue : secs 5 ≤ durationSince r.now (run pages start (rs ++ [p])).lastSshCheck
    · rw [if_pos hdue]
      exact ⟨r, by simp, by omega, rfl, rfl⟩
    · rw [if_neg hdue]
      rw [le_durationSince (by decide), hlast] at hdue
      exact ⟨q, List.mem_append_left _ hq, by omega, hlast, hactive⟩

theorem page_concat : (run pages start (rs ++ [r])).pageIndex =
      (if Flips pages start rs r then ((run pages start rs).pageIndex + 1) % pages
        else (run pages start rs).pageIndex) ∧
    (run pages start (rs ++ [r])).lastPageFlip =
      if Flips pages start rs r then r.now else (run pages start rs).lastPageFlip := by
  have hpage : ((run pages start rs).tick pages r).pageIndex = _ ∧ _ := tick_page
  rw [← run_concat] at hpage
  exact hpage

theorem flips_concat (before rs : List Reading) (r : Reading) :
    flips pages start before (rs ++ [r]) =
      flips pages start before rs + if Flips pages start (before ++ rs) r then 1 else 0 := by
  induction rs generalizing before with
  | nil => simp [flips]
  | cons q rs ih =>
    rw [List.cons_append, flips, flips, ih, List.append_assoc, List.singleton_append, Nat.add_assoc]

theorem pageIndex_eq (hstart : start.pageIndex = 0) (rs : List Reading) :
    (run pages start rs).pageIndex = flips pages start [] rs % pages := by
  induction rs using List.reverseRecOn with
  | nil => simp [run, flips, hstart]
  | append_singleton rs r ih =>
    rw [page_concat.1, flips_concat, ih, List.nil_append]
    by_cases hflips : Flips pages start rs r
    · rw [if_pos hflips, if_pos hflips, Nat.mod_add_mod]
    · rw [if_neg hflips, if_neg hflips, Nat.add_zero]

theorem le_lastPageFlip {t : ℤ} (rs rs' : List Reading)
    (h : t ≤ (run pages start rs).lastPageFlip) (hlater : ∀ q ∈ rs', t ≤ Reading.now q) :
    t ≤ (run pages start (rs ++ rs')).lastPageFlip := by
  induction rs' using List.reverseRecOn with
  | nil => rwa [List.append_nil]
  | append_singleton rs' q ih =>
    rw [← List.append_assoc, page_concat.2]
    split
    · exact hlater q (by simp)
    · exact ih fun u hu ↦ hlater u (List.mem_append_left _ hu)

/-- However sessions and hosts come and go, under a clock that does not go backwards. -/
theorem paced (pages : ℕ) (activity flip check : ℤ) (rs : List Reading)
    (hclock : ([activity, flip, check] ++ rs.flatMap Reading.times).Pairwise (· ≤ ·)) :
    Paced pages (Pace.new activity flip check) rs where
  sampled := by
    rintro before r after rfl
    rw [List.append_cons] at hclock
    have hcheck := (clock_initial _ _ hclock).sublist
      ((List.sublist_append_right [activity, flip] [check]).append_right _)
    obtain ⟨q, hq, hfresh, -, hactive⟩ :=
      @sampled_concat pages (.new activity flip check) check rfl before r hcheck
    exact ⟨q, hq, hfresh, hactive⟩
  mode := by
    rintro before r after rfl
    rw [List.append_cons] at hclock
    obtain ⟨hbefore, hnow, hread, -⟩ := clock_concat (clock_initial _ _ hclock)
    have inv : Inv pages (.new activity flip check) [activity, flip, check] before :=
      inv_of_clock rfl List.mem_cons_self hbefore
    rw [mode_concat inv fun t ht ↦ Int.le_trans (hnow t ht) hread]
    refine and_congr_right fun _ ↦ ⟨fun hidle t ht ↦ ?_, fun hidle ↦ hidle _ inv.mem⟩
    exact Int.lt_of_le_of_lt (Int.add_le_add_right (inv.latest t ht) _) hidle
  page := pageIndex_eq rfl rs
  spaced := by
    rintro before r between q after rfl hr hq
    have hlater : ∀ u ∈ between, r.now ≤ Reading.now u := by
      intro u hu
      obtain ⟨between, rest, rfl⟩ := List.mem_iff_append.mp hu
      have hsplit : before ++ r :: (between ++ u :: rest) ++ q :: after =
          before ++ r :: between ++ [u] ++ (rest ++ q :: after) := by simp
      rw [hsplit] at hclock
      obtain ⟨-, hnow, -⟩ := clock_concat (clock_initial _ _ hclock)
      exact hnow r.now (by simp [Reading.times])
    have hstart : r.now ≤ (run pages (Pace.new activity flip check)
        (before ++ [r])).lastPageFlip :=
      Int.le_of_eq (by rw [page_concat.2, if_pos hr])
    have hlast := le_lastPageFlip (before ++ [r]) between hstart hlater
    rw [List.append_assoc, List.singleton_append] at hlast
    exact Int.lt_of_le_of_lt (Int.add_le_add_right hlast _) hq.2

theorem paced_idle :
    Paced 8 (Pace.new 0 1 2)
      [⟨3, 1, false, 4, 5⟩, ⟨6000000000, 0, false, 6000000001, 6000000002⟩,
        ⟨130000000000, 0, false, 130000000001, 130000000002⟩] :=
  paced 8 0 1 2 _ (by decide)

end BootyCall.Oled.Display
