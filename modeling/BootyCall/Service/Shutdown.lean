import BootyCall.Lib.Runs
import BootyCall.Service.Progress

namespace BootyCall.Service.Lifecycle

open Led.Manager Lib.Runs Lib.WriteCache

variable {Request : Type}

/-- Without an error the process ends only for a signal, and with one only for a server that has
ended. -/
def Explained (events : List (Event Request)) : Outcome → Prop
  | .ok () => ∃ ok ending, .main ok ending ∈ events ∧ (ending = .interrupt ∨ ending = .terminate)
  | .error error => ∃ server how, .exit server how ∈ events ∧ error = server.error how

structure Accounted (events : List (Event Request)) (p : Process Request) : Prop where
  exited : ∀ server how, p.exited server = some how → .exit server how ∈ events
  outcome : ∀ outcome, p.main.stoppingWith outcome → Explained events outcome

/-- How the process ends: the managers have ended, and the panel is black. -/
structure ShutDown (setup : Setup Request) (events : List (Event Request)) (p : Process Request)
    (outcome : Outcome) : Prop where
  led : p.led.isSome = true ∧ ledOver p.led = true
  oled : p.oled = if setup.oledEnabled then .ended else .absent
  panel : setup.oledEnabled = true → setup.spawns = true → setup.shouldRun = true →
    ∃ s, p.loop = some (.stopped s) ∧ Blanked s
  outcome : Explained events outcome

def Written : Event Request → Prop
  | .led _ _ ok => ok = true
  | _ => True

/-- Boot blink has made its last write before the manager makes its first. -/
def BlinkFirst : Event Request → Process Request → Prop
  | .blink _ _, p => p.blink.pending ≠ [] → ∀ led, (p.leds led).last = none
  | _, _ => True

/-- What the manager has written of its last two writes. -/
def Finishing (p : Process Request) : Prop :=
  ∀ b ∈ p.led, b.stopped = true → ∃ done, done ++ b.pending = taskWrites b.state .shutdown ∧
    ∀ w ∈ done, (p.leds w.1).last = some w.2

/-- What others have left since a write of the manager is what it leaves at the end, too. -/
def Undone (p : Process Request) : Prop :=
  ∀ led, (p.leds led).last ≠ none → ∀ u, (p.leds led).left = some u → u = stopped led

variable {setup : Setup Request} {p : Process Request}

theorem setLed_last (leds : Leds) (path : LedPath) (value : UInt8) (ok : Bool) (led : LedPath) :
    (setLed leds path value ok led).last = (leds led).last := by
  rw [setLed]
  by_cases hpath : led = path
  · rw [hpath, Function.update_self, Cell.overwrite_last]
  · rw [Function.update_of_ne hpath]

theorem put_last (c : Cell UInt8) (v : UInt8) : (c.put v true).last = some v := by
  rw [Cell.put]
  split
  · next hskip => exact hskip
  · rfl

theorem setLedCached_last (leds : Leds) (path : LedPath) (value : UInt8) (led : LedPath) :
    (setLedCached leds path value true led).last =
      if led = path then some value else (leds led).last := by
  rw [setLedCached]
  split
  · next hpath => rw [hpath, Function.update_self, put_last]
  · next hpath => rw [Function.update_of_ne hpath]

theorem finishing_led (h : Finishing p) (active prefers : Bool) :
    Finishing (p.ledStep active prefers true) := by
  rw [Process.ledStep]
  split
  · exact h
  · next b hb =>
    split
    · next w rest hpending =>
      intro b' hb' hstopped
      obtain rfl := Option.some.inj hb'
      obtain ⟨done, hdone, hlast⟩ := h b hb hstopped
      rw [hpending] at hdone
      -- the two writes are to different LEDs
      have hnodup : ((done ++ w :: rest).map Prod.fst).Nodup := by
        rw [hdone]
        change [LedPath.white, LedPath.blue].Nodup
        decide
      refine ⟨done ++ [w], ?_, fun w' hw' ↦ ?_⟩
      · rw [List.append_assoc, Blinker.written, hpending]
        exact hdone
      · refine (setLedCached_last ..).trans ?_
        rcases List.mem_append.mp hw' with hw' | hw'
        · rw [List.map_append, List.nodup_append] at hnodup
          rw [if_neg (hnodup.2.2 w'.1 (List.mem_map_of_mem hw') w.1 List.mem_cons_self)]
          exact hlast w' hw'
        · rw [List.mem_singleton.mp hw', if_pos rfl]
    · split
      · exact h
      · next hstopped =>
        rw [Blinker.wake]
        split
        · intro b' hb' _
          obtain rfl := Option.some.inj hb'
          exact ⟨[], rfl, fun _ hw ↦ absurd hw List.not_mem_nil⟩
        · intro b' hb' hstopped'
          obtain rfl := Option.some.inj hb'
          exact absurd hstopped' hstopped

theorem Finishing.congr {p' : Process Request} (h : Finishing p) (hled : p'.led = p.led)
    (hlast : ∀ led, (p'.leds led).last = (p.leds led).last) : Finishing p' := by
  intro b hb hstopped
  obtain ⟨done, hdone, hwritten⟩ := h b (hled ▸ hb) hstopped
  refine ⟨done, hdone, fun w hw ↦ ?_⟩
  rw [hlast]
  exact hwritten w hw

theorem mainStep_leds (setup : Setup Request) (p : Process Request) (ok : Bool) (ending : Ending) :
    (p.mainStep setup ok ending).leds = p.leds ∧
      ((p.mainStep setup ok ending).led = p.led ∨
        (p.mainStep setup ok ending).led = some .new) := by
  rw [Process.mainStep]
  split
  · split <;> exact ⟨rfl, .inl rfl⟩
  · split
    · exact ⟨rfl, .inl rfl⟩
    · exact ⟨rfl, .inr rfl⟩
  · split <;> exact ⟨rfl, .inl rfl⟩
  · split <;> exact ⟨rfl, .inl rfl⟩
  · split <;> exact ⟨rfl, .inl rfl⟩
  · split <;> exact ⟨rfl, .inl rfl⟩
  · split <;> exact ⟨rfl, .inl rfl⟩
  · exact ⟨rfl, .inl rfl⟩
  · exact ⟨rfl, .inl rfl⟩

theorem blinkStep_last (p : Process Request) (prefers ok : Bool) (led : LedPath) :
    ((p.blinkStep prefers ok).leds led).last = (p.leds led).last := by
  rw [Process.blinkStep]
  split
  · exact setLed_last ..
  · split <;> rfl

theorem finishing_step (h : Finishing p) {e : Event Request} (he : Written e) :
    Finishing (step setup p e) := by
  unfold step
  split
  · exact h
  · cases e with
    | main ok ending =>
      obtain ⟨hleds, hled | hled⟩ := mainStep_leds setup p ok ending
      · exact h.congr hled fun led ↦ by simp only [hleds]
      · intro b hb hstopped
        simp only [hled] at hb
        obtain rfl := Option.some.inj hb
        cases hstopped
    | blink prefers ok =>
      obtain ⟨blink, stop, leds, hframe⟩ := blinkStep_frame p prefers ok
      have hlast := blinkStep_last p prefers ok
      simp only [hframe] at hlast ⊢
      exact h.congr rfl hlast
    | led active prefers ok =>
      obtain rfl : ok = true := he
      exact finishing_led h active prefers
    | oled =>
      obtain ⟨oled, oledShutdown, flag, hframe⟩ := oledStep_frame p
      simp only [hframe]
      exact h
    | render t device => exact h
    | exit server how =>
      obtain ⟨exited, hframe⟩ := exitStep_frame p server how
      simp only [hframe]
      exact h
    | hook w => exact h.congr rfl fun led ↦ setLed_last ..

theorem put_of_left {c : Cell UInt8} {v u : UInt8} {ok : Bool} (h : (c.put v ok).left = some u) :
    c.put v ok = c := by
  rw [Cell.put] at h ⊢
  split
  · rfl
  · next hskip =>
    rw [if_neg hskip] at h
    split at h
    · cases h
    · next hfailed => rw [if_neg hfailed]

theorem Undone.congr {p' : Process Request} (h : Undone p) (hleds : p'.leds = p.leds) :
    Undone p' := by
  intro led
  rw [hleds]
  exact h led

theorem undone_step (h : Undone p) {e : Event Request} (he : BlinkFirst e p) :
    Undone (step setup p e) := by
  unfold step
  split
  · exact h
  · cases e with
    | main ok ending => exact h.congr (mainStep_leds setup p ok ending).1
    | blink prefers ok =>
      by_cases hpending : p.blink.pending = []
      · refine h.congr ?_
        simp only [Process.blinkStep, hpending]
        split <;> rfl
      · intro led hlast
        rw [blinkStep_last] at hlast
        exact absurd (he hpending led) hlast
    | led active prefers ok =>
      simp only [Process.ledStep]
      split
      · exact h
      · split
        · next w rest hpending =>
          intro led hlast u hleft
          simp only [setLedCached] at hlast hleft
          by_cases hled : led = w.1
          · obtain rfl := hled
            rw [Function.update_self] at hlast hleft
            rw [put_of_left hleft] at hlast hleft
            exact h _ hlast u hleft
          · rw [Function.update_of_ne hled] at hlast hleft
            exact h led hlast u hleft
        · split <;> exact h
    | oled =>
      obtain ⟨oled, oledShutdown, flag, hframe⟩ := oledStep_frame p
      simp only [hframe]
      exact h
    | render t device => exact h
    | exit server how =>
      obtain ⟨exited, hframe⟩ := exitStep_frame p server how
      simp only [hframe]
      exact h
    | hook w =>
      intro led hlast u hleft
      dsimp only at hlast hleft
      rw [perform_apply] at hleft
      split at hleft
      · rw [Cell.overwrite, if_pos rfl] at hleft
        exact (Option.some.inj hleft).symm
      · rw [HookWrite.perform, setLed_last] at hlast
        exact h led hlast u hleft

theorem Explained.mono {events : List (Event Request)} {outcome : Outcome}
    (h : Explained events outcome) (e : Event Request) : Explained (events ++ [e]) outcome := by
  cases outcome with
  | ok =>
    obtain ⟨ok, ending, hmem, hsignal⟩ := h
    exact ⟨ok, ending, List.mem_append_left _ hmem, hsignal⟩
  | error error =>
    obtain ⟨server, how, hmem, herror⟩ := h
    exact ⟨server, how, List.mem_append_left _ hmem, herror⟩

theorem explained_outcome {events : List (Event Request)} (h : Accounted events p) {ok : Bool}
    {ending : Ending} {outcome : Outcome} (houtcome : p.outcome ending = some outcome) :
    Explained (events ++ [.main ok ending]) outcome := by
  cases ending with
  | interrupt =>
    obtain rfl := Option.some.inj houtcome
    exact ⟨ok, .interrupt, by simp, .inl rfl⟩
  | terminate =>
    obtain rfl := Option.some.inj houtcome
    exact ⟨ok, .terminate, by simp, .inr rfl⟩
  | server s =>
    obtain ⟨how, hexited, rfl⟩ := Option.map_eq_some_iff.mp houtcome
    exact ⟨s, how, List.mem_append_left _ (h.exited s how hexited), rfl⟩

theorem stoppingWith_stopping {stage : Stage} {outcome outcome' : Outcome} :
    (Main.stopping stage outcome).stoppingWith outcome' ↔ outcome' = outcome := by
  simp [Main.stoppingWith, eq_comm]

theorem stoppingWith_over {outcome outcome' : Outcome} :
    (Main.complete outcome).stoppingWith outcome' ↔ outcome' = outcome := by
  simp [Main.stoppingWith, eq_comm]

theorem accounted_main {events : List (Event Request)} (h : Accounted events p) (ok : Bool)
    (ending : Ending) :
    Accounted (events ++ [.main ok ending]) (p.mainStep setup ok ending) := by
  have hexited (server : Server) (how : Exit) (he : p.exited server = some how) :
      .exit server how ∈ events ++ [.main ok ending] :=
    List.mem_append_left _ (h.exited server how he)
  have hkept : Accounted (events ++ [.main ok ending]) p :=
    ⟨hexited, fun outcome hstop ↦ (h.outcome outcome hstop).mono _⟩
  have hnone {main : Main} (hno : ∀ outcome, ¬main.stoppingWith outcome) (outcome : Outcome)
      (hstop : main.stoppingWith outcome) : Explained (events ++ [.main ok ending]) outcome :=
    absurd hstop (hno outcome)
  have hsame {stage : Stage} {outcome : Outcome} (hmain : p.main = .stopping stage outcome) :
      Explained (events ++ [.main ok ending]) outcome :=
    (h.outcome outcome (.inl ⟨stage, hmain⟩)).mono _
  have hnext {stage stage' : Stage} {outcome : Outcome} (hmain : p.main = .stopping stage outcome)
      (outcome' : Outcome) (hstop : (Main.stopping stage' outcome).stoppingWith outcome') :
      Explained (events ++ [.main ok ending]) outcome' := by
    rw [stoppingWith_stopping.mp hstop]
    exact hsame hmain
  rw [Process.mainStep]
  split
  · split
    · exact ⟨hexited, hnone (by simp [Main.stoppingWith])⟩
    · exact ⟨hexited, hnone (by simp [Main.stoppingWith])⟩
  · split
    · exact hkept
    · exact ⟨hexited, hnone (by cases ok <;> simp [Main.stoppingWith])⟩
  · split
    · exact hkept
    · next outcome houtcome =>
      refine ⟨hexited, fun outcome' hstop ↦ ?_⟩
      rw [stoppingWith_stopping.mp hstop]
      exact explained_outcome h houtcome
  · next hmain =>
    split
    · exact hkept
    · exact ⟨hexited, hnext hmain⟩
  · next hmain =>
    split
    · exact hkept
    · exact ⟨hexited, hnext hmain⟩
  · next hmain =>
    split
    · exact ⟨hexited, hnext hmain⟩
    · exact hkept
  · next hmain =>
    split
    · refine ⟨hexited, fun outcome' hstop ↦ ?_⟩
      rw [stoppingWith_over.mp hstop]
      exact hsame hmain
    · exact hkept
  · exact hkept
  · exact hkept

theorem accounted_exit {events : List (Event Request)} (h : Accounted events p) (server : Server)
    (how : Exit) : Accounted (events ++ [.exit server how]) (p.exitStep server how) := by
  have houtcome (outcome : Outcome) (hstop : p.main.stoppingWith outcome) :
      Explained (events ++ [.exit server how]) outcome := (h.outcome outcome hstop).mono _
  have hexited (server' : Server) (how' : Exit) (he : p.exited server' = some how') :
      .exit server' how' ∈ events ++ [.exit server how] :=
    List.mem_append_left _ (h.exited server' how' he)
  rw [Process.exitStep]
  split
  · exact ⟨hexited, houtcome⟩
  · refine ⟨fun server' how' he ↦ ?_, houtcome⟩
    dsimp only at he
    split at he
    · next hserver =>
      obtain rfl := hserver
      cases hbefore : p.exited server' with
      | some how =>
        rw [hbefore] at he
        exact hexited server' how' (hbefore.trans he)
      | none =>
        rw [hbefore] at he
        obtain rfl := Option.some.inj he
        exact List.mem_append_right _ List.mem_cons_self
    · exact hexited server' how' he

theorem Accounted.congr {events : List (Event Request)} {p' : Process Request}
    (h : Accounted events p) (e : Event Request) (hmain : p'.main = p.main)
    (hexited : p'.exited = p.exited) : Accounted (events ++ [e]) p' where
  exited server how he := List.mem_append_left _ (h.exited server how (hexited ▸ he))
  outcome outcome hstop := (h.outcome outcome (hmain ▸ hstop)).mono e

theorem accounted_step {events : List (Event Request)} (h : Accounted events p)
    (e : Event Request) : Accounted (events ++ [e]) (step setup p e) := by
  unfold step
  split
  · exact h.congr e rfl rfl
  · cases e with
    | main ok ending => exact accounted_main h ok ending
    | blink prefers ok =>
      obtain ⟨blink, stop, leds, hframe⟩ := blinkStep_frame p prefers ok
      simp only [hframe]
      exact h.congr _ rfl rfl
    | led active prefers ok =>
      obtain ⟨led, ledShutdown, leds, hframe⟩ := ledStep_frame p active prefers ok
      simp only [hframe]
      exact h.congr _ rfl rfl
    | oled =>
      obtain ⟨oled, oledShutdown, flag, hframe⟩ := oledStep_frame p
      simp only [hframe]
      exact h.congr _ rfl rfl
    | render t device => exact h.congr _ rfl rfl
    | exit server how => exact accounted_exit h server how
    | hook w => exact h.congr _ rfl rfl

theorem accounted_run (setup : Setup Request) (file : LedPath → UInt8)
    (events : List (Event Request)) : Accounted events (run setup file events) := by
  induction events using List.reverseRecOn with
  | nil => exact ⟨nofun, by simp [run, start, Main.stoppingWith]⟩
  | append_singleton events e ih =>
    rw [run, List.foldl_append]
    exact accounted_step ih e

theorem shutDown_run {outcome : Outcome} {events : List (Event Request)} {file : LedPath → UInt8}
    (hover : (run setup file events).main = .complete outcome) :
    ShutDown setup events (run setup file events) outcome := by
  obtain ⟨hled, hdisplay⟩ := inv_run setup file events
  have hjoined := hdisplay.joined outcome hover
  have henabled := hdisplay.enabled (by rw [hover]; rfl)
  exact {
    led := ⟨hled.up (by rw [hover]; rfl), hled.joined (by rw [hover]; rfl)⟩
    oled := by
      rcases hjoined with holed | holed
      · rw [holed, henabled.mp holed]
        rfl
      · have henabled' : setup.oledEnabled = true := by
          by_contra hoff
          rw [henabled.mpr (Bool.eq_false_iff.mpr hoff)] at holed
          cases holed
        rw [holed, henabled']
        rfl
    panel := by
      intro he hs hr
      obtain ⟨l, hl⟩ := Option.isSome_iff_exists.mp (hdisplay.shown (by rw [hover]; rfl) he hs hr)
      rcases hdisplay.drawn l hl with ⟨ticks, rfl⟩ | ⟨-, s, rfl, hblanked⟩
      · have hended : (run setup file events).oled = .ended := by
          refine hjoined.resolve_left fun habsent ↦ ?_
          rw [henabled.mp habsent] at he
          cases he
        have hthread := hdisplay.ended hended
        rw [hl] at hthread
        cases hthread
      · exact ⟨s, hl, hblanked⟩
    outcome := (accounted_run setup file events).outcome outcome (.inr hover) }

theorem last_of_finishing (h : Finishing p) (hled : p.led.isSome = true)
    (hover : ledOver p.led = true) (led : LedPath) : (p.leds led).last = some (stopped led) := by
  obtain ⟨b, hb⟩ := Option.isSome_iff_exists.mp hled
  rw [hb] at hover
  obtain ⟨hstopped, hempty⟩ := Bool.and_eq_true_iff.mp hover
  obtain ⟨done, hdone, hlast⟩ := h b hb hstopped
  rw [List.isEmpty_iff.mp hempty, List.append_nil] at hdone
  subst hdone
  cases led with
  | white => exact hlast (.white, 255) List.mem_cons_self
  | blue => exact hlast (.blue, 0) (List.mem_cons_of_mem _ List.mem_cons_self)

theorem value_eq_iff {c : Cell UInt8} {v : UInt8} (h : c.last = some v) :
    c.value = v ↔ ∀ u, c.left = some u → u = v := by
  have hput : (c.put v true).value = v ↔ (c.last = some v → ∀ u, c.left = some u → u = v) :=
    Cell.put_value_iff fun _ ↦ rfl
  rw [Cell.put_skip h] at hput
  exact hput.trans ⟨fun hleft ↦ hleft h, fun hleft _ ↦ hleft⟩

/-- However the process is ended it leaves everything in order, and if no write of the LED manager
fails the LEDs are solid white, unless somebody else has left them otherwise; boot blink has not if
it was over before the manager's first write. -/
theorem left_clean (setup : Setup Request) (file : LedPath → UInt8)
    (events : List (Event Request)) (outcome : Outcome)
    (hover : (run setup file events).main = .complete outcome) :
    ShutDown setup events (run setup file events) outcome ∧
      ((∀ e ∈ events, Written e) →
        ((∀ led, ((run setup file events).leds led).value = stopped led) ↔
          ∀ led u, ((run setup file events).leds led).left = some u → u = stopped led) ∧
        (Throughout (step setup) (start Request file) events BlinkFirst →
          ∀ led, ((run setup file events).leds led).value = stopped led)) := by
  have hend := shutDown_run hover
  refine ⟨hend, fun hwritten ↦ ?_⟩
  have hfinishing : Finishing (run setup file events) :=
    Throughout.last Finishing (throughout_of_forall fun e he _ ↦ hwritten e he)
      (fun _ hb ↦ nomatch hb) fun _ _ hs he ↦ finishing_step hs he
  have hlast := last_of_finishing hfinishing hend.led.1 hend.led.2
  have hiff : (∀ led, ((run setup file events).leds led).value = stopped led) ↔
      ∀ led u, ((run setup file events).leds led).left = some u → u = stopped led :=
    forall_congr' fun led ↦ value_eq_iff (hlast led)
  refine ⟨hiff, fun hblink ↦ hiff.mpr fun led u hleft ↦ ?_⟩
  have hundone : Undone (run setup file events) :=
    Throughout.last Undone hblink (fun _ h ↦ absurd rfl h) fun _ _ hs he ↦ undone_step hs he
  exact hundone led (by rw [hlast led]; exact nofun) u hleft

theorem left_clean_tftp :
    ((run headless (fun _ ↦ 0) (upAndDown ++ (List.replicate 5 sampleTurn).flatten)).leds
        .white).value = 255 ∧
      ((run headless (fun _ ↦ 0) (upAndDown ++ (List.replicate 5 sampleTurn).flatten)).leds
        .blue).value = 0 := by
  have hover : (run headless (fun _ ↦ 0)
      (upAndDown ++ (List.replicate 5 sampleTurn).flatten)).main =
        .complete (.error ["TFTP server fatal error", "no socket"]) := rfl
  obtain ⟨-, hleds⟩ := left_clean headless (fun _ ↦ 0) _ _ hover
  have hclean := (hleds ?_).2 ?_
  · exact ⟨hclean .white, hclean .blue⟩
  · simp [upAndDown, sampleTurn, Written]
  · have hunwritten : ∀ led : LedPath, (Cell.fresh (0 : UInt8)).last = none := fun _ ↦ rfl
    simp only [upAndDown, List.cons_append, List.nil_append, throughout_cons]
    refine ⟨trivial, trivial, fun _ ↦ hunwritten, fun _ led ↦ ?_, fun _ led ↦ ?_, trivial, trivial,
      throughout_of_forall fun e he p ↦ ?_⟩
    · cases led <;> rfl
    · cases led <;> rfl
    · have hblink : ∀ prefers ok, e ≠ .blink prefers ok := by
        rintro prefers ok rfl
        simp [sampleTurn] at he
      cases e with
      | blink prefers ok => exact absurd rfl (hblink prefers ok)
      | _ => trivial

end BootyCall.Service.Lifecycle
