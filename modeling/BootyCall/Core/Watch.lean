import BootyCall.Core.Config
import Mathlib.Logic.Relation

namespace BootyCall.Core.Watch

open BootyCall.Core.Path

inductive EventKind
  | any
  | access
  | create
  | modify
  | remove
  | other
  deriving DecidableEq

structure NotifyEvent where
  kind : EventKind
  paths : List PathBuf

abbrev Message := Option NotifyEvent

def fileName (p : PathBuf) : Option OsString :=
  match p.components.getLast? with
  | some (.normal n) => some n
  | _ => none

def eventTargetsConfig (res : Message) (watchName : Option OsString) : Bool :=
  match res with
  | none => false
  | some event =>
    if event.kind = .modify ∨ event.kind = .create then
      match watchName with
      | none => true
      | some name => event.paths.any fun p ↦ decide (fileName p = some name)
    else false

/-- The event the watcher owes for a change: the file was modified or created, and its name is
among the paths. -/
def names (path : PathBuf) (res : Message) : Bool :=
  match res with
  | none => false
  | some event =>
    decide (event.kind = .modify ∨ event.kind = .create) &&
      event.paths.any fun p ↦ decide (fileName p = fileName path)

theorem targets_of_names {path : PathBuf} {res : Message} (h : names path res = true) :
    eventTargetsConfig res (fileName path) = true := by
  cases res with
  | none => exact h
  | some event =>
    rw [names, Bool.and_eq_true, decide_eq_true_eq] at h
    simp only [eventTargetsConfig, if_pos h.1]
    cases hname : fileName path with
    | none => rfl
    | some name => simpa only [hname] using h.2

inductive Outcome
  | applied (config : Config)
  | rejected (e : CoreError)
  | loadPanicked
  | callbackPanicked (config : Config)

namespace Outcome

def config : Outcome → Option Config
  | .applied config => some config
  | _ => none

def panicked : Outcome → Bool
  | .loadPanicked | .callbackPanicked _ => true
  | _ => false

def Fits (result : Except CoreError Config) : Outcome → Prop
  | .applied config | .callbackPanicked config => result = .ok config
  | .rejected e => result = .error e
  | .loadPanicked => True

end Outcome

/-- Where the reload thread stands; a reload remembers how many changes had been made when its
load was started. -/
inductive Phase
  | waiting
  | draining (dirty : Bool)
  | loading (started : ℕ)
  | calling (started : ℕ) (config : Config)
  | exited

def Phase.started : Phase → Option ℕ
  | .loading started | .calling started _ => some started
  | _ => none

/-- The file, the channel, the reload thread and the live configuration. `reported` says whether
an event naming the file was sent since its last change; the reloads are kept oldest first. -/
structure World where
  content : Option String
  changes : ℕ
  reported : Bool
  watcher : Bool
  queue : List Message
  phase : Phase
  live : Config
  reloads : List (ℕ × Outcome)

namespace World

def start (content : Option String) (initial : Config) : World where
  content := content
  changes := 0
  reported := true
  watcher := true
  queue := []
  phase := .waiting
  live := initial
  reloads := []

def finish (s : World) (started : ℕ) (o : Outcome) : World :=
  { s with
    phase := .waiting
    live := o.config.getD s.live
    reloads := s.reloads ++ [(started, o)] }

end World

section Run

variable (path : PathBuf) (printable : Char → Bool) (fromStr : String → Option Config)

/-- A load that no change of the file overlaps reads the text the file holds; one that a change
overlaps reads any text. The callback replaces the live configuration as its last action. -/
inductive Step : World → World → Prop
  | change (s : World) (content : Option String) :
      Step s { s with content := content, changes := s.changes + 1, reported := false }
  | notify (s : World) (m : Message) (hwatcher : s.watcher = true) :
      Step s { s with queue := s.queue ++ [m], reported := s.reported || names path m }
  | drop (s : World) : Step s { s with watcher := false }
  | recv (s : World) (m : Message) (rest : List Message) (hphase : s.phase = .waiting)
      (hqueue : s.queue = m :: rest) :
      Step s
        { s with queue := rest, phase := .draining (eventTargetsConfig m (fileName path)) }
  | recvMore (s : World) (dirty : Bool) (m : Message) (rest : List Message)
      (hphase : s.phase = .draining dirty) (hqueue : s.queue = m :: rest) :
      Step s
        { s with
          queue := rest
          phase := .draining (dirty || eventTargetsConfig m (fileName path)) }
  | disconnected (s : World) (hphase : s.phase = .waiting ∨ ∃ dirty, s.phase = .draining dirty)
      (hqueue : s.queue = []) (hwatcher : s.watcher = false) :
      Step s { s with phase := .exited }
  | clean (s : World) (hphase : s.phase = .draining false) : Step s { s with phase := .waiting }
  | reload (s : World) (hphase : s.phase = .draining true) :
      Step s { s with phase := .loading s.changes }
  | loaded (s : World) (started : ℕ) (text : Option String) (config : Config)
      (hphase : s.phase = .loading started) (htext : started = s.changes → text = s.content)
      (hload : Config.load printable fromStr text = .ok config) :
      Step s { s with phase := .calling started config }
  | rejected (s : World) (started : ℕ) (text : Option String) (e : CoreError)
      (hphase : s.phase = .loading started) (htext : started = s.changes → text = s.content)
      (hload : Config.load printable fromStr text = .error e) :
      Step s (s.finish started (.rejected e))
  | loadPanicked (s : World) (started : ℕ) (hphase : s.phase = .loading started) :
      Step s (s.finish started .loadPanicked)
  | applied (s : World) (started : ℕ) (config : Config)
      (hphase : s.phase = .calling started config) :
      Step s (s.finish started (.applied config))
  | callbackPanicked (s : World) (started : ℕ) (config : Config)
      (hphase : s.phase = .calling started config) :
      Step s (s.finish started (.callbackPanicked config))

/-- The last change is taken care of: an event for it is on its way to a reload, or the last
reload was started after it. -/
def Covered (s : World) : Prop :=
  (∃ m ∈ s.queue, eventTargetsConfig m (fileName path) = true) ∨ s.phase = .draining true ∨
    s.phase.started = some s.changes ∨ ∃ o, s.reloads.getLast? = some (s.changes, o)

structure Inv (initial : Config) (s : World) : Prop where
  alive : s.watcher = true → s.phase ≠ .exited
  live : s.live = (s.reloads.filterMap fun r ↦ r.2.config).getLast?.getD initial
  recent : ∀ r ∈ s.reloads, r.1 ≤ s.changes
  started : ∀ v, s.phase.started = some v → v ≤ s.changes ∧ ∀ r ∈ s.reloads, r.1 ≤ v
  called : ∀ config, s.phase = .calling s.changes config →
    Config.load printable fromStr s.content = .ok config
  fits : ∀ o, s.reloads.getLast? = some (s.changes, o) →
    o.Fits (Config.load printable fromStr s.content)
  covered : s.phase ≠ .exited → s.reported = true → 0 < s.changes → Covered path s

variable {path printable fromStr} {initial : Config} {s t : World}

theorem inv_start (content : Option String) :
    Inv path printable fromStr initial (.start content initial) where
  alive _ := Phase.noConfusion
  live := rfl
  recent _ h := by simp [World.start] at h
  started _ h := by simp [World.start, Phase.started] at h
  called _ h := by simp [World.start] at h
  fits _ h := by simp [World.start] at h
  covered _ _ h := by simp [World.start] at h

theorem inv_change (h : Inv path printable fromStr initial s) (content : Option String) :
    Inv path printable fromStr initial
      { s with content := content, changes := s.changes + 1, reported := false } where
  alive := h.alive
  live := h.live
  recent r hr := Nat.le_succ_of_le (h.recent r hr)
  started v hv := ⟨Nat.le_succ_of_le (h.started v hv).1, (h.started v hv).2⟩
  called config hphase := by
    have hle := (h.started (s.changes + 1) (by simp_all [Phase.started])).1
    omega
  fits o ho := by
    have hle := h.recent _ (List.mem_of_getLast? ho)
    dsimp only at hle
    omega
  covered _ hr := by simp at hr

theorem inv_phase (h : Inv path printable fromStr initial s) {phase : Phase}
    {queue : List Message} (hrun : s.phase ≠ .exited) (hstarted : phase.started = none)
    (halive : phase = .exited → s.watcher = false)
    (hcovered : phase ≠ .exited → Covered path s →
      Covered path { s with phase := phase, queue := queue }) :
    Inv path printable fromStr initial { s with phase := phase, queue := queue } where
  alive hw hp := by simp [halive hp] at hw
  live := h.live
  recent := h.recent
  started v hv := by simp [hstarted] at hv
  called config hphase := by
    dsimp only at hphase
    simp [hphase, Phase.started] at hstarted
  fits := h.fits
  covered hp hr hc := hcovered hp (h.covered hrun hr hc)

theorem covered_recv {m : Message} {rest : List Message} {dirty : Bool}
    (hphase : s.phase = .waiting ∧ dirty = false ∨ s.phase = .draining dirty)
    (hqueue : s.queue = m :: rest) (h : Covered path s) :
    Covered path
      { s with
        phase := .draining (dirty || eventTargetsConfig m (fileName path))
        queue := rest } := by
  have hstarted : s.phase.started = none := by
    rcases hphase with ⟨h, -⟩ | h <;> rw [h] <;> rfl
  rcases h with ⟨m', hmem, htargets⟩ | hdirty | hload | hlast
  · rw [hqueue, List.mem_cons] at hmem
    rcases hmem with rfl | hmem
    · exact .inr (.inl (by simp [htargets]))
    · exact .inl ⟨m', hmem, htargets⟩
  · refine .inr (.inl ?_)
    rcases hphase with ⟨h, -⟩ | h
    · simp [h] at hdirty
    · simp_all
  · simp [hstarted] at hload
  · exact .inr (.inr (.inr hlast))

theorem inv_finish (h : Inv path printable fromStr initial s) {started : ℕ} {o : Outcome}
    (hstarted : s.phase.started = some started)
    (hfits : started = s.changes → o.Fits (Config.load printable fromStr s.content)) :
    Inv path printable fromStr initial (s.finish started o) where
  alive _ := Phase.noConfusion
  live := by
    simp only [World.finish, List.filterMap_append, h.live]
    cases o <;> simp [Outcome.config]
  recent r hr := by
    rcases List.mem_append.mp hr with hr | hr
    · exact h.recent r hr
    · obtain rfl := List.mem_singleton.mp hr
      exact (h.started started hstarted).1
  started v hv := by simp [World.finish, Phase.started] at hv
  called config hphase := by simp [World.finish] at hphase
  fits o' ho := by
    simp only [World.finish, List.getLast?_append, List.getLast?_singleton, Option.some_or,
      Option.some.injEq, Prod.mk.injEq] at ho
    obtain ⟨hv, rfl⟩ := ho
    exact hfits hv
  covered _ hr hc := by
    have hrun : s.phase ≠ .exited := fun hp ↦ by simp [hp, Phase.started] at hstarted
    rcases h.covered hrun hr hc with hq | hdirty | hload | ⟨o', hlast⟩
    · exact .inl hq
    · simp [hdirty, Phase.started] at hstarted
    · refine .inr (.inr (.inr ⟨o, ?_⟩))
      obtain rfl : started = s.changes := Option.some.inj (hstarted.symm.trans hload)
      simp [World.finish]
    · -- An earlier reload was started after the last change, so this one was too.
      have hle := (h.started started hstarted).2 _ (List.mem_of_getLast? hlast)
      have hle' := (h.started started hstarted).1
      obtain rfl : started = s.changes := le_antisymm hle' hle
      exact .inr (.inr (.inr ⟨o, by simp [World.finish]⟩))

theorem inv_step (h : Inv path printable fromStr initial s)
    (hstep : Step path printable fromStr s t) : Inv path printable fromStr initial t := by
  cases hstep with
  | change content => exact inv_change h content
  | notify m hwatcher =>
    refine { h with covered := fun hrun hr hc ↦ ?_ }
    by_cases hold : s.reported = true
    · rcases h.covered hrun hold hc with ⟨m', hmem, htargets⟩ | hrest
      · exact .inl ⟨m', List.mem_append_left _ hmem, htargets⟩
      · exact .inr hrest
    · have hnames : names path m = true := by simpa [hold] using hr
      exact .inl ⟨m, List.mem_append_right _ (List.mem_singleton_self m),
        targets_of_names hnames⟩
  | drop => exact { h with alive := fun hw ↦ by simp at hw }
  | recv m rest hphase hqueue =>
    exact inv_phase h (by simp [hphase]) rfl Phase.noConfusion fun _ ↦
      covered_recv (.inl ⟨hphase, rfl⟩) hqueue
  | recvMore dirty m rest hphase hqueue =>
    exact inv_phase h (by simp [hphase]) rfl Phase.noConfusion fun _ ↦
      covered_recv (.inr hphase) hqueue
  | disconnected hphase hqueue hwatcher =>
    refine inv_phase h ?_ rfl (fun _ ↦ hwatcher) fun hp ↦ absurd rfl hp
    rcases hphase with hp | ⟨dirty, hp⟩ <;> simp [hp]
  | clean hphase =>
    refine inv_phase h (by simp [hphase]) rfl Phase.noConfusion fun _ hc ↦ ?_
    rcases hc with hq | hdirty | hload | hlast
    · exact .inl hq
    · simp [hphase] at hdirty
    · simp [hphase, Phase.started] at hload
    · exact .inr (.inr (.inr hlast))
  | reload hphase =>
    refine { h with
      alive := fun _ ↦ Phase.noConfusion
      started := fun v hv ↦ ?_
      called := fun config hc ↦ by simp at hc
      covered := fun _ _ _ ↦ .inr (.inr (.inl rfl)) }
    obtain rfl : s.changes = v := Option.some.inj hv
    exact ⟨le_rfl, h.recent⟩
  | loaded started text config hphase htext hload =>
    have hstarted : s.phase.started = some started := by rw [hphase, Phase.started]
    refine { h with
      alive := fun _ ↦ Phase.noConfusion
      started := fun v hv ↦ h.started v (hstarted.trans hv)
      called := fun config' hc ↦ ?_
      covered := fun _ hr hc ↦ ?_ }
    · obtain ⟨hv, rfl⟩ := Phase.calling.inj hc
      rw [← hload, htext hv]
    · rcases h.covered (by simp [hphase]) hr hc with hq | hdirty | hl | hlast
      · exact .inl hq
      · simp [hphase] at hdirty
      · exact .inr (.inr (.inl (hstarted.symm.trans hl)))
      · exact .inr (.inr (.inr hlast))
  | rejected started text e hphase htext hload =>
    refine inv_finish h (by rw [hphase, Phase.started]) fun hv ↦ ?_
    rw [← htext hv]
    exact hload
  | loadPanicked started hphase =>
    exact inv_finish h (by rw [hphase, Phase.started]) fun _ ↦ trivial
  | applied started config hphase =>
    exact inv_finish h (by rw [hphase, Phase.started]) fun hv ↦ h.called config (hv ▸ hphase)
  | callbackPanicked started config hphase =>
    exact inv_finish h (by rw [hphase, Phase.started]) fun hv ↦ h.called config (hv ▸ hphase)

theorem inv_run {content : Option String}
    (h : Relation.ReflTransGen (Step path printable fromStr) (.start content initial) s) :
    Inv path printable fromStr initial s := by
  induction h with
  | refl => exact inv_start content
  | tail _ hstep ih => exact inv_step ih hstep

theorem live_step (hstep : Step path printable fromStr s t) :
    t.live = s.live ∧ t.reloads = s.reloads ∨
      ∃ started o, t.reloads = s.reloads ++ [(started, o)] ∧ t.live = o.config.getD s.live := by
  cases hstep with
  | rejected started _ e => exact .inr ⟨started, .rejected e, rfl, rfl⟩
  | loadPanicked started => exact .inr ⟨started, .loadPanicked, rfl, rfl⟩
  | applied started config => exact .inr ⟨started, .applied config, rfl, rfl⟩
  | callbackPanicked started config => exact .inr ⟨started, .callbackPanicked config, rfl, rfl⟩
  | _ => exact .inl ⟨rfl, rfl⟩

theorem covered_idle (h : Covered path s) (hphase : s.phase = .waiting) (hqueue : s.queue = []) :
    ∃ o, s.reloads.getLast? = some (s.changes, o) := by
  rcases h with ⟨m, hmem, -⟩ | hdirty | hload | hlast
  · simp [hqueue] at hmem
  · simp [hphase] at hdirty
  · simp [hphase, Phase.started] at hload
  · exact hlast

end Run

/-- The thread outlives every fault while its watcher lives. Once it is idle and the last change
has been reported, the last reload was started after that change, and unless it panicked a valid
file is live; what is live is always what the last good reload applied. -/
theorem no_change_lost (path : PathBuf) (printable : Char → Bool)
    (fromStr : String → Option Config) (content : Option String) (initial : Config) (s : World)
    (h : Relation.ReflTransGen (Step path printable fromStr) (.start content initial) s) :
    (s.watcher = true → s.phase ≠ .exited) ∧
    (s.phase = .waiting → s.queue = [] → s.reported = true → 0 < s.changes →
      ∃ o, s.reloads.getLast? = some (s.changes, o) ∧
        o.Fits (Config.load printable fromStr s.content) ∧
        ∀ config, Config.load printable fromStr s.content = .ok config → o.panicked = false →
          s.live = config) ∧
    s.live = (s.reloads.filterMap fun r ↦ r.2.config).getLast?.getD initial ∧
    ∀ t, Step path printable fromStr s t →
      t.live = s.live ∧ t.reloads = s.reloads ∨
        ∃ started o, t.reloads = s.reloads ++ [(started, o)] ∧ t.live = o.config.getD s.live := by
  have hinv := inv_run h
  refine ⟨hinv.alive, fun hphase hqueue hreported hchanges ↦ ?_, hinv.live, fun t ↦ live_step⟩
  obtain ⟨o, hlast⟩ :=
    covered_idle (hinv.covered (by simp [hphase]) hreported hchanges) hphase hqueue
  have hfits := hinv.fits o hlast
  refine ⟨o, hlast, hfits, fun config hload hpanic ↦ ?_⟩
  cases o with
  | applied config' =>
    obtain rfl : config = config' := Except.ok.inj (hload.symm.trans hfits)
    obtain ⟨before, hsplit⟩ := List.getLast?_eq_some_iff.mp hlast
    rw [hinv.live, hsplit, List.filterMap_append]
    simp [Outcome.config]
  | rejected e => simp [Outcome.Fits, hload] at hfits
  | loadPanicked => simp [Outcome.panicked] at hpanic
  | callbackPanicked config' => simp [Outcome.panicked] at hpanic

def bootConfig (amd64 : String) : Config where
  server :=
    { httpBind := "0.0.0.0:8080"
      tftpBind := "0.0.0.0:69"
      tftpRoot := .ofString "./tftpboot"
      proxyDhcpBind := "0.0.0.0:4011"
      defaultBootloaderAmd64 := amd64
      defaultBootloaderArm64 := "boot/arm64/ipxe.efi" }
  hosts := []

def bootYaml (amd64 : String) : String :=
  Config.serverYaml "./tftpboot" amd64 "boot/arm64/ipxe.efi" ++ "hosts: []\n"

def edited : World :=
  { World.start (some (bootYaml "boot/x64/snp.efi")) (bootConfig "boot/x64/ipxe.efi") with
    changes := 1
    live := bootConfig "boot/x64/snp.efi"
    reloads := [(1, .applied (bootConfig "boot/x64/snp.efi"))] }

theorem no_change_lost_edited : edited.live = bootConfig "boot/x64/snp.efi" := by
  have hrun : Relation.ReflTransGen
      (Step (.ofString "bootycall.yaml") (fun _ ↦ true)
        (Config.reads (bootYaml "boot/x64/snp.efi") (bootConfig "boot/x64/snp.efi")))
      (.start (some (bootYaml "boot/x64/ipxe.efi")) (bootConfig "boot/x64/ipxe.efi")) edited :=
    .tail (.tail (.tail (.tail (.tail (.tail .refl
      (.change _ (some (bootYaml "boot/x64/snp.efi"))))
      (.notify _ (some ⟨.modify, [.ofString "./bootycall.yaml"]⟩) rfl)) (.recv _ _ _ rfl rfl))
      (.reload _ rfl)) (.loaded _ _ (some (bootYaml "boot/x64/snp.efi"))
        (bootConfig "boot/x64/snp.efi") rfl (fun _ ↦ rfl) (Config.load_reads _ _ _)))
      (.applied _ _ _ rfl)
  obtain ⟨o, hlast, -, hlive⟩ := (no_change_lost _ _ _ _ _ _ hrun).2.1 rfl rfl rfl Nat.zero_lt_one
  obtain rfl : Outcome.applied (bootConfig "boot/x64/snp.efi") = o :=
    (Prod.mk.inj (Option.some.inj hlast)).2
  exact hlive _ (Config.load_reads _ _ _) rfl

end BootyCall.Core.Watch
