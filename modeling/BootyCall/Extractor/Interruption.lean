import BootyCall.Extractor.Coherence

namespace BootyCall.Extractor.Interruption

open BootyCall.Core Lib.FileOps Copy Readers Metadata Cache Coherence

/-- One sync under the cap of its time. The process stops after that many file operations, or
the sync runs to its end. -/
structure Event where
  call : Call
  maxBytes : Option ℕ
  stop : Option ℕ

def Event.ops (event : Event) (serde : Serde) (images : Images) (dir : HostDir) :
    List (Op CacheFile UInt8) :=
  let ops := (event.call.sync serde images event.maxBytes dir).ops
  match event.stop with
  | none => ops
  | some k => ops.take k

/-- The host's directory, and whether an artifact was begun beside metadata that is still the one
from before. -/
structure State where
  dir : HostDir
  torn : Bool

def overwrites (dir : HostDir) (ops : List (Op CacheFile UInt8)) : Bool :=
  (dir .metadataJson).isSome && (written .kernel ops || written .initrd ops)

def State.after (s : State) (ops : List (Op CacheFile UInt8)) : State where
  dir := run s.dir ops
  torn := !touches .metadataJson ops && (s.torn || overwrites s.dir ops)

def play (serde : Serde) (images : Images) (s : State) (event : Event) : State :=
  s.after (event.ops serde images s.dir)

variable {serde : Serde} {images : Images} {caps : Option ℕ → Prop} {s : State} {event : Event}

theorem Event.ops_cut (event : Event) (serde : Serde) (images : Images) (dir : HostDir) :
    event.ops serde images dir <+: (event.call.sync serde images event.maxBytes dir).ops := by
  rw [Event.ops]
  cases event.stop with
  | none => exact List.prefix_rfl
  | some k => exact List.take_prefix _ _

theorem play_coherent (hcap : caps event.maxBytes)
    (h : s.torn = false → Coherent serde images caps s.dir)
    (htorn : (play serde images s event).torn = false) :
    Coherent serde images caps (play serde images s event).dir := by
  cases hmeta : touches .metadataJson (event.ops serde images s.dir) with
  | true => exact coherent_of_renewed hcap (event.ops_cut serde images s.dir) hmeta
  | false =>
    simp only [play, State.after, overwrites, hmeta, Bool.not_false, Bool.true_and,
      Bool.or_eq_false_iff, Bool.and_eq_false_iff] at htorn
    obtain ⟨hbefore, habsent | ⟨hkernel, hinitrd⟩⟩ := htorn
    · apply coherent_of_absent
      exact (run_of_untouched hmeta).trans (by simpa using habsent)
    · exact (h hbefore).run_of_unwritten hmeta hkernel hinitrd

theorem plays_coherent {events : List Event} (hcaps : ∀ event ∈ events, caps event.maxBytes)
    (h : s.torn = false → Coherent serde images caps s.dir)
    (htorn : (events.foldl (play serde images) s).torn = false) :
    Coherent serde images caps (events.foldl (play serde images) s).dir := by
  induction events generalizing s with
  | nil => exact h htorn
  | cons event events ih =>
    have hstep := play_coherent (hcaps event List.mem_cons_self) h
    exact ih (fun event' hmem ↦ hcaps event' (List.mem_cons_of_mem _ hmem)) hstep htorn

def capOf (events : List Event) (last : Option ℕ) (cap : Option ℕ) : Prop :=
  cap = last ∨ ∃ event ∈ events, event.maxBytes = cap

/-- In every run of syncs of a host that may stop between any two file operations, from a
directory without metadata: a later sync that returns `Ok` leaves the complete artifacts of the
current image with the current overrides, if it extracts them or if no interrupted sync has begun
to overwrite artifacts beside the metadata that is there. -/
theorem interrupted_syncs_serve (serde : Serde) (images : Images) (start : HostDir)
    (hstart : start .metadataJson = none) (events : List Event) (call : Call)
    (maxBytes : Option ℕ)
    (hok : (call.sync serde images maxBytes
      (events.foldl (play serde images) ⟨start, false⟩).dir).result = .ok ())
    (hwhole : (events.foldl (play serde images) ⟨start, false⟩).torn = false ∨
      ∀ key, currentKey call.host call.stat = .ok key →
        cacheValid serde (events.foldl (play serde images) ⟨start, false⟩).dir key = false) :
    Serves images (capOf events maxBytes) call
      (run (events.foldl (play serde images) ⟨start, false⟩).dir
        (call.sync serde images maxBytes
          (events.foldl (play serde images) ⟨start, false⟩).dir).ops) := by
  apply sync_serves (.inl rfl) hok
  intro key hkey hvalid
  rcases hwhole with htorn | hmiss
  · apply plays_coherent (fun event hmem ↦ .inr ⟨event, hmem, rfl⟩) _ htorn
    intro _
    exact coherent_of_absent hstart
  · rw [hmiss key hkey] at hvalid
    cases hvalid

section Sample

def sampleEvents : List Event :=
  [⟨sampleCall "/a" none, none, none⟩, ⟨sampleCall "/b" none, none, some 2⟩]

def sampleState (events : List Event) : State :=
  events.foldl (play prettyJson sampleImages) ⟨fun _ ↦ none, false⟩

def sampleSync (path : String) (events : List Event) : Extraction Unit :=
  (sampleCall path none).sync prettyJson sampleImages none (sampleState events).dir

theorem interrupted_syncs_serve_sample :
    let stopped := [⟨sampleCall "/a" none, none, none⟩, ⟨sampleCall "/b" none, none, some 9⟩]
    Serves sampleImages (capOf stopped none) (sampleCall "/a" none)
        (run (sampleState stopped).dir (sampleSync "/a" stopped).ops) ∧
      Serves sampleImages (capOf sampleEvents none) (sampleCall "/b" none)
        (run (sampleState sampleEvents).dir (sampleSync "/b" sampleEvents).ops) := by
  refine ⟨interrupted_syncs_serve prettyJson sampleImages _ rfl _ _ none (by decide +kernel)
      (.inl (by decide +kernel)),
    interrupted_syncs_serve prettyJson sampleImages _ rfl _ _ none (by decide +kernel) (.inr ?_)⟩
  intro key hkey
  cases hkey
  decide +kernel

/-- When the config goes back to the first image, its old metadata vouches for a piece of the
second image's kernel. -/
theorem truncated_kernel_hit : (sampleSync "/a" sampleEvents).result = .ok () ∧
    run (sampleState sampleEvents).dir (sampleSync "/a" sampleEvents).ops .kernel = some [5] ∧
    ¬ Serves sampleImages (· = none) (sampleCall "/a" none)
      (run (sampleState sampleEvents).dir (sampleSync "/a" sampleEvents).ops) := by
  have hkernel : run (sampleState sampleEvents).dir (sampleSync "/a" sampleEvents).ops .kernel =
      some [5] := by
    decide +kernel
  refine ⟨by decide +kernel, hkernel, ?_⟩
  rintro ⟨cap, key, kernel, initrd, rfl, hkey, ⟨-, hfresh, -⟩, hdir, -⟩
  cases hkey
  rw [hkernel] at hdir
  cases hdir
  exact absurd hfresh (by decide +kernel)

end Sample

end BootyCall.Extractor.Interruption
