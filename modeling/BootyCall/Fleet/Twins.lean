import BootyCall.Fleet.Servers

namespace BootyCall.Fleet.Twins

open BootyCall.Core Mac Path State Http.Server Tftp.Request Tftp.Listener Tftp.Handling Servers

/-- Events that differ at most in the file name a TFTP client asks for, both names being granted
or neither. -/
inductive Alike : Event → Event → Prop
  | same (e : Event) : Alike e e
  | renamed {config : Config} {fs : FileSystem} {hosts : List HostState} {now : SystemTime}
      {clientIp : String} {d d' : Tftp.Wire.Bytes} {job job' : Job}
      (h : onPacket config fs hosts clientIp d = .start job)
      (h' : onPacket config fs hosts clientIp d' = .start job')
      (hname : job'.request = { job.request with filename := job'.request.filename }) :
      Alike (.rrq config fs hosts now clientIp d) (.rrq config fs hosts now clientIp d')
  | denied {config : Config} {fs : FileSystem} {hosts : List HostState} {now : SystemTime}
      {clientIp : String} {d d' : Tftp.Wire.Bytes}
      (h : ∀ job, onPacket config fs hosts clientIp d ≠ .start job)
      (h' : ∀ job, onPacket config fs hosts clientIp d' ≠ .start job) :
      Alike (.rrq config fs hosts now clientIp d) (.rrq config fs hosts now clientIp d')

inductive TwinRun : World → World → Prop
  | init : TwinRun {} {}
  | step {s s' : World} (h : TwinRun s s') {e e' : Event} (alike : Alike e e') (fits : s.Fits e)
      (fits' : s'.Fits e') : TwinRun (s.step e) (s'.step e')

structure SameSession (x y : Session) : Prop where
  mac : y.job.mac = x.job.mac
  request : y.job.request = { x.job.request with filename := y.job.request.filename }
  stage : y.stage = x.stage

/-- The same hosts, as many log events, and requests that differ in their names only. -/
structure SameShape (s s' : World) : Prop where
  hosts : s'.store.hosts = s.store.hosts
  logs : s'.store.logs.length = s.store.logs.length
  sessions : List.Forall₂ SameSession s.sessions s'.sessions

theorem length_logEvent (store : StateStore) (now : SystemTime) (level : String)
    (mac : Option String) (message : String) :
    (store.logEvent now level mac message).logs.length = min maxLogs (store.logs.length + 1) := by
  rw [StateStore.logEvent_logs]
  simp only [List.length_drop, List.length_append, List.length_singleton]
  omega

def logsOutcome : PollOutcome → Bool
  | .boot _ _ | .renderFailed => true
  | .poll => false

def logs (s : World) : Event → Bool
  | .dhcp config now src ourIp request =>
    (Dhcp.Server.onMessage config now src ourIp request s.store).2.isSome
  | .poll template config now clientIp segment =>
    (poll template config now clientIp segment s.store).2.any logsOutcome
  | .override authorized config now mac target =>
    (apiOverride authorized config now mac target s.store).2
  | .rrq config fs hosts _ clientIp datagram =>
    (s.startMark (onPacket config fs hosts clientIp datagram)).isSome
  | .transfer _ i a => (s.stepMark i a).isSome
  | .sweep _ _ => false

variable {s s' : World}

theorem length_applyMark (now : SystemTime) (mark : Option TftpMark) (store : StateStore) :
    (applyMark now mark store).logs.length =
      if mark.isSome then min maxLogs (store.logs.length + 1) else store.logs.length := by
  cases mark with
  | none => rfl
  | some mark =>
    simp only [applyMark, length_logEvent, StateStore.updateHostStatus_logs, Option.isSome_some,
      if_true]

theorem length_onMessage (config : Config) (now : SystemTime) (src : Option Dhcp.Server.Ipv4Addr)
    (ourIp : Dhcp.Server.Ipv4Addr) (request : Dhcp.Server.Message) (store : StateStore) :
    (Dhcp.Server.onMessage config now src ourIp request store).1.logs.length =
      if (Dhcp.Server.onMessage config now src ourIp request store).2.isSome then
        min maxLogs (store.logs.length + 1)
      else store.logs.length := by
  rw [Dhcp.Server.onMessage]
  cases Dhcp.Server.clientMac request with
  | none => rfl
  | some mac =>
    cases Dhcp.Server.responseType request with
    | none => rfl
    | some msgType =>
      simp only [length_logEvent, StateStore.updateHostStatus_logs, Option.isSome_some, if_true]

theorem length_recordPoll (now : SystemTime) (clientIp mac : String) (outcome : PollOutcome)
    (store : StateStore) :
    (recordPoll now clientIp mac outcome store).logs.length =
      if logsOutcome outcome then min maxLogs (store.logs.length + 1) else store.logs.length := by
  cases outcome with
  | poll =>
    simp only [recordPoll, StateStore.updateHostStatus_logs, logsOutcome, Bool.false_eq_true,
      if_false]
  | _ =>
    simp only [recordPoll, length_logEvent, StateStore.updateHostStatus_logs, logsOutcome,
      if_true]

theorem length_logs_step (s : World) (e : Event) :
    (s.step e).store.logs.length =
      if logs s e then min maxLogs (s.store.logs.length + 1) else s.store.logs.length := by
  cases e with
  | dhcp config now src ourIp request => exact length_onMessage ..
  | poll template config now clientIp segment =>
    simp only [World.step, World.storeAfter, logs, poll]
    split
    · cases template with
      | none => rfl
      | some template =>
        exact length_recordPoll ..
    · rfl
  | override authorized config now mac target =>
    simp only [World.step, World.storeAfter, logs, apiOverride]
    split
    · simp only [length_logEvent, StateStore.updateHostStatus_logs, if_true]
    · rfl
  | rrq config fs hosts now clientIp datagram => exact length_applyMark ..
  | transfer now i a => exact length_applyMark ..
  | sweep now maxIdleSecs => rfl

section Congr

variable {store store' : StateStore} (h : store'.hosts = store.hosts)
include h

theorem decidePollOutcome_congr (template : BootTemplate) (config : Config) (mac : String) :
    decidePollOutcome template config store' mac = decidePollOutcome template config store mac := by
  simp only [decidePollOutcome, assignedTarget, StateStore.getHost, h]

theorem poll_congr (template : Option BootTemplate) (config : Config) (now : SystemTime)
    (clientIp segment : String) :
    (poll template config now clientIp segment store').2 =
      (poll template config now clientIp segment store).2 := by
  simp only [poll]
  split
  · cases template with
    | none => rfl
    | some template => simp only [decidePollOutcome_congr h]
  · rfl

theorem hosts_updateHostStatus_congr (now : SystemTime) (mac : String) (status : HostStatus)
    (u : HostUpdate) :
    (store'.updateHostStatus now mac status u).hosts =
      (store.updateHostStatus now mac status u).hosts := by
  have hdrops : store'.drops mac = store.drops mac := by simp only [StateStore.drops, h]
  rw [StateStore.updateHostStatus, StateStore.updateHostStatus, hdrops]
  split
  · exact h
  · simp only [h]

theorem hosts_cleanStaleHosts_congr (now : SystemTime) (maxIdleSecs : ℕ) :
    (store'.cleanStaleHosts now maxIdleSecs).hosts =
      (store.cleanStaleHosts now maxIdleSecs).hosts := by
  simp only [StateStore.cleanStaleHosts, h]

end Congr

theorem onMessage_reply_congr (config : Config) (now : SystemTime)
    (src : Option Dhcp.Server.Ipv4Addr) (ourIp : Dhcp.Server.Ipv4Addr)
    (request : Dhcp.Server.Message) (store store' : StateStore) :
    (Dhcp.Server.onMessage config now src ourIp request store').2 =
      (Dhcp.Server.onMessage config now src ourIp request store).2 := by
  simp only [Dhcp.Server.onMessage]
  split <;> rfl

theorem apiOverride_congr (authorized : Bool) (config : Config) (now : SystemTime)
    (mac target : String) (store store' : StateStore) :
    (apiOverride authorized config now mac target store').2 =
      (apiOverride authorized config now mac target store).2 := by
  simp only [apiOverride]
  split <;> rfl

theorem react_renamed (request : RrqRequest) (filename : String) (stage : Stage) (a : Answer) :
    react { request with filename } stage a = react request stage a := by
  cases stage with
  | _ => rfl

theorem SameSession.react {x y : Session} (h : SameSession x y) (a : Answer) :
    Tftp.Handling.react y.job.request y.stage a = Tftp.Handling.react x.job.request x.stage a := by
  rw [h.request, h.stage]
  exact react_renamed ..

theorem SameSession.step {x y : Session} (h : SameSession x y) (a : Answer) :
    SameSession (Tftp.Handling.step x a) (Tftp.Handling.step y a) where
  mac := h.mac
  request := h.request
  stage := by
    simp only [Tftp.Handling.step, h.react]

theorem forall₂_getElem? {α : Type} {R : α → α → Prop} {xs ys : List α} (h : List.Forall₂ R xs ys)
    (i : ℕ) :
    xs[i]? = none ∧ ys[i]? = none ∨ ∃ x y, xs[i]? = some x ∧ ys[i]? = some y ∧ R x y := by
  induction h generalizing i with
  | nil => exact .inl ⟨rfl, rfl⟩
  | @cons x y xs ys hxy _ ih =>
    cases i with
    | zero => exact .inr ⟨x, y, rfl, rfl, hxy⟩
    | succ i => simpa using ih i

theorem forall₂_modify {α : Type} {R : α → α → Prop} {f : α → α} {xs ys : List α}
    (h : List.Forall₂ R xs ys) (hf : ∀ x y, R x y → R (f x) (f y)) (i : ℕ) :
    List.Forall₂ R (xs.modify i f) (ys.modify i f) := by
  induction h generalizing i with
  | nil => simp
  | @cons x y xs ys hxy hrest ih =>
    cases i with
    | zero => simpa using ⟨hf x y hxy, hrest⟩
    | succ i => simpa using ⟨hxy, ih i⟩

theorem stepMark_congr (h : SameShape s s') (i : ℕ) (a : Answer) :
    s'.stepMark i a = s.stepMark i a := by
  rcases forall₂_getElem? h.sessions i with ⟨hx, hy⟩ | ⟨x, y, hx, hy, hsame⟩
  · simp only [World.stepMark, hx, hy]
  · simp only [World.stepMark, hx, hy, Option.bind_eq_bind, Option.bind_some, hsame.mac,
      hsame.react]

/-- Both reactions start a request, for the same host and but for the name the same one, or
neither does. -/
inductive AlikeReaction : Reaction → Reaction → Prop
  | start {job job' : Job} (hmac : job'.mac = job.mac)
      (hname : job'.request = { job.request with filename := job'.request.filename }) :
      AlikeReaction (.start job) (.start job')
  | other {r r' : Reaction} (h : ∀ job, r ≠ .start job) (h' : ∀ job, r' ≠ .start job) :
      AlikeReaction r r'

theorem AlikeReaction.refl (r : Reaction) : AlikeReaction r r := by
  cases r with
  | start job => exact .start rfl rfl
  | _ => exact .other (fun _ h ↦ nomatch h) fun _ h ↦ nomatch h

theorem startMark_other {r : Reaction} (h : ∀ job, r ≠ .start job) : s.startMark r = none := by
  cases r with
  | start job => exact absurd rfl (h job)
  | _ => rfl

theorem AlikeReaction.mark {r r' : Reaction} (hr : AlikeReaction r r') (h : SameShape s s') :
    (s'.startMark r').map World.markWrite = (s.startMark r).map World.markWrite := by
  cases hr with
  | start hmac hname =>
    simp only [World.startMark, hmac, h.sessions.length_eq, Option.map_map, Function.comp_def,
      World.markWrite, bootingMark]
  | other hr hr' => rw [startMark_other hr, startMark_other hr']

theorem AlikeReaction.isSome_mark {r r' : Reaction} (hr : AlikeReaction r r')
    (h : SameShape s s') : (s'.startMark r').isSome = (s.startMark r).isSome := by
  have hsome := congrArg Option.isSome (hr.mark h)
  rwa [Option.isSome_map, Option.isSome_map] at hsome

theorem writeOf_same (h : SameShape s s') (e : Event) : s'.writeOf e = s.writeOf e := by
  cases e with
  | dhcp config now src ourIp request => rfl
  | poll template config now clientIp segment => simp only [World.writeOf, poll_congr h.hosts]
  | override authorized config now mac target =>
    simp only [World.writeOf, apiOverride_congr authorized config now mac target s.store s'.store]
  | rrq config fs hosts now clientIp datagram => exact (AlikeReaction.refl _).mark h
  | transfer now i a => simp only [World.writeOf, stepMark_congr h]
  | sweep now maxIdleSecs => rfl

theorem hosts_same (h : SameShape s s') {e e' : Event} (hw : s'.writeOf e' = s.writeOf e)
    (hsame : e' = e ∨ ∃ config fs hosts now clientIp d d',
      e = .rrq config fs hosts now clientIp d ∧ e' = .rrq config fs hosts now clientIp d') :
    (s'.step e').store.hosts = (s.step e).store.hosts := by
  rw [hosts_step, hosts_step, hw]
  rcases hsame with rfl | ⟨config, fs, hosts, now, clientIp, d, d', rfl, rfl⟩
  · cases e' with
    | sweep now maxIdleSecs => exact hosts_cleanStaleHosts_congr h.hosts now maxIdleSecs
    | _ =>
      cases s.writeOf _ with
      | none => exact h.hosts
      | some w => exact hosts_updateHostStatus_congr h.hosts _ w.mac w.status w.fields
  · cases s.writeOf _ with
    | none => exact h.hosts
    | some w => exact hosts_updateHostStatus_congr h.hosts now w.mac w.status w.fields

theorem logs_same (h : SameShape s s') (e : Event) : logs s' e = logs s e := by
  cases e with
  | dhcp config now src ourIp request =>
    simp only [logs, onMessage_reply_congr config now src ourIp request s.store s'.store]
  | poll template config now clientIp segment => simp only [logs, poll_congr h.hosts]
  | override authorized config now mac target =>
    simp only [logs, apiOverride_congr authorized config now mac target s.store s'.store]
  | rrq config fs hosts now clientIp datagram => exact (AlikeReaction.refl _).isSome_mark h
  | transfer now i a => simp only [logs, stepMark_congr h]
  | sweep now maxIdleSecs => rfl

theorem length_logs_same (h : SameShape s s') {e e' : Event} (hlogs : logs s' e' = logs s e) :
    (s'.step e').store.logs.length = (s.step e).store.logs.length := by
  rw [length_logs_step, length_logs_step, hlogs, h.logs]

theorem sessions_rrq (h : SameShape s s') {config : Config} {fs : FileSystem}
    {hosts : List HostState} {now : SystemTime} {clientIp : String} {d d' : Tftp.Wire.Bytes}
    (hr : AlikeReaction (onPacket config fs hosts clientIp d)
      (onPacket config fs hosts clientIp d')) :
    List.Forall₂ SameSession (s.step (.rrq config fs hosts now clientIp d)).sessions
      (s'.step (.rrq config fs hosts now clientIp d')).sessions := by
  simp only [World.step, World.sessionsAfter]
  generalize onPacket config fs hosts clientIp d = r at hr ⊢
  generalize onPacket config fs hosts clientIp d' = r' at hr ⊢
  cases hr with
  | start hmac hname =>
    have hstart : SameSession (start _) (start _) := ⟨hmac, hname, rfl⟩
    exact List.rel_append h.sessions (.cons hstart .nil)
  | other hr hr' =>
    split
    · next job => exact absurd rfl (hr job)
    · exact h.sessions

theorem sessions_same (h : SameShape s s') (e : Event) :
    List.Forall₂ SameSession (s.step e).sessions (s'.step e).sessions := by
  cases e with
  | rrq config fs hosts now clientIp datagram => exact sessions_rrq h (.refl _)
  | transfer now i a => exact forall₂_modify h.sessions (fun x y hxy ↦ hxy.step a) i
  | _ =>
    simp only [World.step, World.sessionsAfter]
    exact h.sessions

theorem sameShape_rrq (h : SameShape s s') {config : Config} {fs : FileSystem}
    {hosts : List HostState} {now : SystemTime} {clientIp : String} {d d' : Tftp.Wire.Bytes}
    (hr : AlikeReaction (onPacket config fs hosts clientIp d)
      (onPacket config fs hosts clientIp d')) :
    SameShape (s.step (.rrq config fs hosts now clientIp d))
      (s'.step (.rrq config fs hosts now clientIp d')) where
  hosts := hosts_same h (hr.mark h) (.inr ⟨config, fs, hosts, now, clientIp, d, d', rfl, rfl⟩)
  logs := length_logs_same h (hr.isSome_mark h)
  sessions := sessions_rrq h hr

theorem sameShape_step (h : SameShape s s') {e e' : Event} (alike : Alike e e') :
    SameShape (s.step e) (s'.step e') := by
  cases alike with
  | same =>
    exact ⟨hosts_same h (writeOf_same h e) (.inl rfl), length_logs_same h (logs_same h e),
      sessions_same h e⟩
  | renamed hjob hjob' hname =>
    obtain ⟨-, -, hmac⟩ := onPacket_start hjob
    obtain ⟨-, -, hmac'⟩ := onPacket_start hjob'
    apply sameShape_rrq h
    rw [hjob, hjob']
    exact .start (hmac'.trans hmac.symm) hname
  | denied hno hno' => exact sameShape_rrq h (.other hno hno')

theorem sameShape_run (h : TwinRun s s') : SameShape s s' := by
  induction h with
  | init => exact ⟨rfl, rfl, .nil⟩
  | step _ alike _ _ ih => exact sameShape_step ih alike

end BootyCall.Fleet.Twins
