import Mathlib.Data.List.Induction
import Mathlib.Data.Int.Notation
import Mathlib.Data.Nat.Notation
import Mathlib.Order.Basic

namespace BootyCall.Oled.GpioLine

def secs (n : ℕ) : ℕ := n * 1000000000

/-- Between two readings of the monotonic clock, in nanoseconds; zero if the first is not later. -/
def durationSince (now earlier : ℤ) : ℕ := (now - earlier).toNat

inductive Message
  | lineUnavailable (label : String)
  | lineAvailable (label : String)
  | framebufferAvailable
  | framebufferUnavailable
  | framebufferWriteFailed
  | shuttingDown
  deriving DecidableEq

def optionalHwRetryInterval : ℕ := secs 60

def optionalHwRetryDue (sinceLastAttempt : ℕ) : Bool :=
  decide (optionalHwRetryInterval ≤ sinceLastAttempt)

/-- `Request` is what holds the line open. -/
structure OptionalGpioLine (Request : Type) where
  request : Option Request
  lastAttempt : ℤ
  label : String

variable {Request : Type}

/-- The line and what is logged; `acquired` is the answer to the request that is made here. -/
def OptionalGpioLine.new (label : String) (acquired : Option Request) (now : ℤ) :
    OptionalGpioLine Request × List Message :=
  (⟨acquired, now, label⟩, if acquired.isNone then [.lineUnavailable label] else [])

/-- A poll, and whether it has called `acquire`; the answer `acquired` counts if it has. -/
def OptionalGpioLine.attempt (line : OptionalGpioLine Request) (now : ℤ)
    (acquired : Option Request) : (OptionalGpioLine Request × List Message) × Bool :=
  if line.request.isNone && optionalHwRetryDue (durationSince now line.lastAttempt) then
    (({ line with request := acquired, lastAttempt := now },
      if acquired.isSome then [.lineAvailable line.label] else []), true)
  else ((line, []), false)

def OptionalGpioLine.poll (line : OptionalGpioLine Request) (now : ℤ)
    (acquired : Option Request) : OptionalGpioLine Request × List Message :=
  (line.attempt now acquired).1

def OptionalGpioLine.pollAll (start : OptionalGpioLine Request × List Message)
    (polls : List (ℤ × Option Request)) : OptionalGpioLine Request × List Message :=
  polls.foldl (fun s p ↦ ((s.1.poll p.1 p.2).1, s.2 ++ (s.1.poll p.1 p.2).2)) start

def requestTimes (line : OptionalGpioLine Request) : List (ℤ × Option Request) → List ℤ
  | [] => []
  | p :: polls =>
    (if (line.attempt p.1 p.2).2 then [p.1] else []) ++ requestTimes (line.poll p.1 p.2).1 polls

def lineAfter (label : String) (acquired : Option Request) (now : ℤ)
    (polls : List (ℤ × Option Request)) : OptionalGpioLine Request × List Message :=
  OptionalGpioLine.pollAll (OptionalGpioLine.new label acquired now) polls

/-- What all rounds keep to after the line was first requested at `now`: it is never dropped,
requested no more than once in the retry interval but again when that is over, and logged when it is
missing at first and when it comes. -/
structure Disciplined (label : String) (acquired : Option Request) (now : ℤ)
    (polls : List (ℤ × Option Request)) : Prop where
  kept : ∀ before after, polls = before ++ after → ∀ r,
    (lineAfter label acquired now before).1.request = some r →
      (lineAfter label acquired now polls).1.request = some r
  spaced : (now :: requestTimes (OptionalGpioLine.new label acquired now).1 polls).Pairwise
    fun (earlier later : ℤ) ↦ earlier + optionalHwRetryInterval ≤ later
  prompt : ∀ before (p : ℤ × Option Request) after, polls = before ++ p :: after →
    (lineAfter label acquired now (before ++ [p])).1.request = none →
      ∃ attempt ∈ now :: requestTimes (OptionalGpioLine.new label acquired now).1 (before ++ [p]),
        p.1 < attempt + optionalHwRetryInterval
  logged : (lineAfter label acquired now polls).2 =
    if acquired.isNone then
      [.lineUnavailable label] ++
        if (lineAfter label acquired now polls).1.request.isSome then [.lineAvailable label] else []
    else []

variable {line : OptionalGpioLine Request} {now : ℤ}
  {acquired : Option Request}

def Requests (line : OptionalGpioLine Request) (now : ℤ) : Prop :=
  line.request = none ∧ optionalHwRetryInterval ≤ durationSince now line.lastAttempt

theorem attempt_requests (h : Requests line now) :
    line.attempt now acquired = (({ line with request := acquired, lastAttempt := now },
      if acquired.isSome then [.lineAvailable line.label] else []), true) := by
  rw [OptionalGpioLine.attempt, if_pos]
  simp [h.1, optionalHwRetryDue, h.2]

theorem attempt_idle (h : ¬Requests line now) :
    line.attempt now acquired = ((line, []), false) := by
  rw [OptionalGpioLine.attempt, if_neg]
  simpa [Requests, optionalHwRetryDue] using h

theorem poll_requests (h : Requests line now) :
    line.poll now acquired = ({ line with request := acquired, lastAttempt := now },
      if acquired.isSome then [.lineAvailable line.label] else []) :=
  congrArg Prod.fst (attempt_requests h)

theorem poll_idle (h : ¬Requests line now) : line.poll now acquired = (line, []) :=
  congrArg Prod.fst (attempt_idle h)

theorem poll_held {r : Request} (h : line.request = some r) :
    line.poll now acquired = (line, []) := by
  apply poll_idle
  intro hrequests
  rw [Requests, h] at hrequests
  cases hrequests.1

variable {start : OptionalGpioLine Request × List Message}

theorem pollAll_append (polls polls' : List (ℤ × Option Request)) :
    OptionalGpioLine.pollAll start (polls ++ polls') =
      OptionalGpioLine.pollAll (OptionalGpioLine.pollAll start polls) polls' :=
  List.foldl_append

theorem pollAll_cons (p : ℤ × Option Request) (polls : List (ℤ × Option Request)) :
    OptionalGpioLine.pollAll start (p :: polls) =
      OptionalGpioLine.pollAll ((start.1.poll p.1 p.2).1, start.2 ++ (start.1.poll p.1 p.2).2)
        polls := rfl

theorem pollAll_idle {p : ℤ × Option Request} (polls : List (ℤ × Option Request))
    (h : ¬Requests start.1 p.1) :
    OptionalGpioLine.pollAll start (p :: polls) = OptionalGpioLine.pollAll start polls := by
  rw [pollAll_cons, poll_idle h, List.append_nil]

theorem pollAll_requests {p : ℤ × Option Request} (polls : List (ℤ × Option Request))
    (h : Requests start.1 p.1) :
    OptionalGpioLine.pollAll start (p :: polls) =
      OptionalGpioLine.pollAll ({ start.1 with request := p.2, lastAttempt := p.1 },
        start.2 ++ if p.2.isSome then [.lineAvailable start.1.label] else []) polls := by
  rw [pollAll_cons, poll_requests h]

theorem pollAll_held {r : Request} (polls : List (ℤ × Option Request))
    (h : start.1.request = some r) : OptionalGpioLine.pollAll start polls = start := by
  induction polls with
  | nil => rfl
  | cons p polls ih =>
    rw [pollAll_cons, poll_held h, List.append_nil]
    exact ih

theorem requestTimes_idle {p : ℤ × Option Request} (polls : List (ℤ × Option Request))
    (h : ¬Requests line p.1) : requestTimes line (p :: polls) = requestTimes line polls := by
  rw [requestTimes, attempt_idle h, if_neg Bool.false_ne_true, poll_idle h, List.nil_append]

theorem requestTimes_requests {p : ℤ × Option Request} (polls : List (ℤ × Option Request))
    (h : Requests line p.1) : requestTimes line (p :: polls) =
      p.1 :: requestTimes { line with request := p.2, lastAttempt := p.1 } polls := by
  rw [requestTimes, attempt_requests h, if_pos rfl, poll_requests h, List.singleton_append]

theorem lastAttempt_mem (polls : List (ℤ × Option Request)) :
    (OptionalGpioLine.pollAll start polls).1.lastAttempt ∈
      start.1.lastAttempt :: requestTimes start.1 polls := by
  induction polls generalizing start with
  | nil => exact List.mem_cons_self
  | cons p polls ih =>
    by_cases hrequests : Requests start.1 p.1
    · rw [pollAll_requests polls hrequests, requestTimes_requests polls hrequests]
      exact List.mem_cons_of_mem _ (@ih (_, _))
    · rw [pollAll_idle polls hrequests, requestTimes_idle polls hrequests]
      exact ih

theorem requestTimes_spaced (polls : List (ℤ × Option Request)) :
    (line.lastAttempt :: requestTimes line polls).Pairwise
      fun (earlier later : ℤ) ↦ earlier + optionalHwRetryInterval ≤ later := by
  induction polls generalizing line with
  | nil => exact List.pairwise_singleton _ _
  | cons p polls ih =>
    by_cases hrequests : Requests line p.1
    · rw [requestTimes_requests polls hrequests]
      have hrest := @ih { line with request := p.2, lastAttempt := p.1 }
      have hdue : line.lastAttempt + optionalHwRetryInterval ≤ p.1 := by
        have hpos : 0 < optionalHwRetryInterval := by decide
        have hdue := hrequests.2
        rw [durationSince] at hdue
        omega
      refine List.pairwise_cons.mpr ⟨fun later hlater ↦ ?_, hrest⟩
      rcases List.mem_cons.mp hlater with rfl | hlater
      · exact hdue
      · have hnext := (List.pairwise_cons.mp hrest).1 later hlater
        dsimp only at hnext
        omega
    · rw [requestTimes_idle polls hrequests]
      exact ih

theorem pollAll_missing (polls : List (ℤ × Option Request)) (h : start.1.request = none) :
    (OptionalGpioLine.pollAll start polls).2 =
      start.2 ++ if (OptionalGpioLine.pollAll start polls).1.request.isSome then
        [.lineAvailable start.1.label] else [] := by
  induction polls generalizing start with
  | nil => simp [OptionalGpioLine.pollAll, h]
  | cons p polls ih =>
    by_cases hrequests : Requests start.1 p.1
    · rw [pollAll_requests polls hrequests]
      cases hp : p.2 with
      | none =>
        rw [if_neg nofun, List.append_nil]
        exact @ih (_, _) rfl
      | some r =>
        rw [pollAll_held polls (r := r) rfl]
    · rw [pollAll_idle polls hrequests]
      exact ih h

theorem missing_before (polls : List (ℤ × Option Request))
    (h : (OptionalGpioLine.pollAll start polls).1.request = none) : start.1.request = none := by
  cases hstart : start.1.request with
  | none => rfl
  | some r =>
    rw [pollAll_held polls hstart, hstart] at h
    cases h

/-- However a line comes and goes. -/
theorem disciplined (label : String) (acquired : Option Request) (now : ℤ)
    (polls : List (ℤ × Option Request)) : Disciplined label acquired now polls where
  kept := by
    rintro before after rfl r hheld
    rw [lineAfter] at hheld ⊢
    rw [pollAll_append, pollAll_held after hheld]
    exact hheld
  spaced := @requestTimes_spaced _ (OptionalGpioLine.new label acquired now).1 polls
  prompt := by
    rintro before p after rfl hmissing
    rw [lineAfter] at hmissing
    refine ⟨_, @lastAttempt_mem _ (OptionalGpioLine.new label acquired now) (before ++ [p]), ?_⟩
    have hbefore : (OptionalGpioLine.pollAll (OptionalGpioLine.new label acquired now)
        before).1.request = none := by
      rw [pollAll_append] at hmissing
      exact missing_before [p] hmissing
    have hpos : (0 : ℤ) < optionalHwRetryInterval := by decide
    rw [pollAll_append]
    by_cases hrequests : Requests (OptionalGpioLine.pollAll
        (OptionalGpioLine.new label acquired now) before).1 p.1
    · rw [pollAll_requests [] hrequests]
      exact Int.lt_add_of_pos_right p.1 hpos
    · have hwait : ¬optionalHwRetryInterval ≤ durationSince p.1 _ := fun h ↦ hrequests ⟨hbefore, h⟩
      rw [durationSince] at hwait
      rw [pollAll_idle [] hrequests, OptionalGpioLine.pollAll, List.foldl_nil]
      omega
  logged := by
    cases acquired with
    | none => exact pollAll_missing polls rfl
    | some r =>
      rw [lineAfter, pollAll_held polls (r := r) rfl]
      rfl

end BootyCall.Oled.GpioLine
