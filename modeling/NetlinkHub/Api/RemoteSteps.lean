import NetlinkHub.Api.Remote

/-! # What a statement can do to a remote session

Every statement of the remote service leaves the content of each session as it is. Which calls create
sessions, move their state, or post and collect messages is read off the programs once
(`only_remoteHandler`) and carried to the tables (`sessionStep_exec`, `sessionStep_of_exec`). -/

namespace Api

open Concurrent (Prog Log)
open Table (Op Evolves)

/-- A session without what changes over its life. -/
def RemoteSessionRow.content (s : RemoteSessionRow) : RemoteSessionRow :=
  { s with state := .pending, connectedAt := none, endedAt := none, endReason := none,
           strategy := "unknown", lastSeenAt := 0, refusedInputs := 0 }

/-- The calls that create a session, and what they create. -/
def RemoteRequest.Creates : RemoteRequest → RemoteSessionRow → Prop
  | .createSession userId deviceId spaceId input _, row =>
    row.viewerId = userId ∧ row.viewerDeviceId = some deviceId ∧ row.spaceId = spaceId ∧
      row.agentId = input.agentId ∧ row.mode = input.mode ∧ row.state = .pending
  | _, _ => False

/-- The calls that post a message, and for which session. -/
def RemoteRequest.Posts : RemoteRequest → String → SignalRole → Prop
  | .signal _ sessionId _, id, sender => id = sessionId ∧ sender = .viewer
  | .hostSignal _ sessionId _, id, sender => id = sessionId ∧ sender = .host
  | _, _, _ => False

/-- The calls that collect messages, for which party and of which session. -/
def RemoteRequest.Polls : RemoteRequest → SignalRole → String → Prop
  | .signals _ sessionId, role, id => id = sessionId ∧ role = .viewer
  | .hostSignals _ sessionId, role, id => id = sessionId ∧ role = .host
  | _, _, _ => False

/-- The calls that move a session on, and how. -/
def RemoteRequest.Changes (q : RemoteRequest) (id : String) : SessionChange → Prop
  | .connecting => ∃ sender, q.Posts id sender
  | .active .. => ∃ principal localType remoteType, q = .connected principal id localType remoteType
  | .seen _ => ∃ userId, q = .heartbeat userId id
  | .refused count => ∃ principal, q = .violation principal id count
  | .ended .. => True

/-- What a call may do to the tables. -/
def RemoteWrite (q : RemoteRequest) : Write → Prop
  | .powerCommands _ => False
  | .insertSession row => q.Creates row
  | .updateSession id change => q.Changes id change
  | .appendSignal _ sessionId sender _ _ _ => q.Posts sessionId sender
  | .markDelivered _ _ => ∃ role sessionId, q.Polls role sessionId
  | _ => True

/-- The statement neither creates nor moves a session, nor posts or collects a message: it may end
one. -/
def Write.OnlyEnds : Write → Prop
  | .powerCommands _ => False
  | .insertSession _ => False
  | .updateSession _ (.ended ..) => True
  | .updateSession _ _ => False
  | .appendSignal .. => False
  | .markDelivered .. => False
  | _ => True

/-! ## The programs -/

theorem Write.OnlyEnds.remoteWrite {w : Write} (q : RemoteRequest) (h : w.OnlyEnds) :
    RemoteWrite q w := by
  cases w with
  | updateSession id change => cases change <;> trivial
  | powerCommands op => cases h
  | insertSession row => cases h
  | appendSignal id sessionId sender kind payload now => cases h
  | markDelivered ids now => cases h
  | _ => trivial

theorem Write.OnlyCodes.onlyEnds {w : Write} (h : w.OnlyCodes) : w.OnlyEnds := by
  cases w <;> trivial

theorem Write.Quiet.onlyEnds {w : Write} (h : w.Quiet) : w.OnlyEnds := h.onlyCodes.onlyEnds

variable {signer : Signer} {hashSecret : String → String} {ice : Ice} {q : RemoteRequest}

theorem only_selectSession (id : String) : (selectSession id).Only Write.Quiet :=
  .stmt trivial fun _ => trivial

theorem only_updateSession {P : Write → Prop} {id : String} {change : SessionChange}
    (h : P (.updateSession id change)) : (updateSession id change).Only P := by
  refine .stmt h fun w => ?_
  split <;> trivial

theorem only_requireViewerSession (userId sessionId : String) :
    (requireViewerSession userId sessionId).Only Write.Quiet := by
  refine (only_selectSession sessionId).bind fun session => ?_
  split
  · trivial
  · split <;> trivial

theorem only_requireHostSession (userId sessionId : String) (deviceId : Option String) :
    (requireHostSession userId sessionId deviceId).Only Write.Quiet := by
  refine (only_selectSession sessionId).bind fun session => ?_
  split
  · trivial
  split
  · rw [select_bind]
    refine .stmt trivial fun w => ?_
    split <;> trivial
  · exact (only_requireOwner ..).bind fun _ => trivial

theorem only_requirePartySession (sender : SignalRole) (ownerId sessionId : String) :
    (requirePartySession sender ownerId sessionId).Only Write.Quiet := by
  cases sender
  · exact only_requireViewerSession ..
  · exact only_requireHostSession _ _ none

theorem findSession_some {id : String} {w : World} {row : RemoteSessionRow}
    (h : findSession id w = some row) : row ∈ w.remoteSessions ∧ row.id = id :=
  ⟨List.mem_of_find?_eq_some h, by simpa using List.find?_some h⟩

/-- What is found has the identifier that was asked for. -/
theorem answers_selectSession (id : String) :
    (selectSession id).Answers fun found => ∀ s, found = some s → s.row.id = id := by
  intro w s hs
  obtain ⟨row, hrow, rfl⟩ := Option.map_eq_some_iff.mp hs
  exact (findSession_some hrow).2

theorem answers_requireViewerSession (userId sessionId : String) :
    (requireViewerSession userId sessionId).Answers (·.row.id = sessionId) := by
  refine (answers_selectSession sessionId).bind fun session hfound => ?_
  split
  · trivial
  · split
    · trivial
    · exact hfound _ rfl

theorem answers_requireHostSession (userId sessionId : String) (deviceId : Option String) :
    (requireHostSession userId sessionId deviceId).Answers (·.row.id = sessionId) := by
  refine (answers_selectSession sessionId).bind fun session hfound => ?_
  split
  · trivial
  split
  · rw [select_bind]
    intro w
    dsimp only
    split
    · exact hfound _ rfl
    · trivial
  · exact (Prog.answers_true _).bind fun _ _ => hfound _ rfl

theorem answers_requirePartySession (sender : SignalRole) (ownerId sessionId : String) :
    (requirePartySession sender ownerId sessionId).Answers (·.row.id = sessionId) := by
  cases sender
  · exact answers_requireViewerSession _ _
  · exact answers_requireHostSession _ _ none

theorem only_connectedSeconds (connectedAt : Option Date) :
    (connectedSeconds connectedAt).Only Write.Quiet := by
  unfold connectedSeconds
  split
  · trivial
  · exact .stmt trivial fun _ => trivial

theorem only_closeRest (current : RemoteSessionRow) (reason : RemoteEndReason)
    (actorUserId : Option String) (context : Option RequestContext) :
    (closeRest current reason actorUserId context).Only Write.OnlyEnds := by
  unfold closeRest
  rw [Prog.perform_bind]
  refine .stmt trivial fun w => ?_
  refine ((only_connectedSeconds _).mono fun w hw => hw.onlyEnds).bind fun seconds => ?_
  exact .stmt trivial fun _ => .stmt trivial fun _ => trivial

theorem only_close (sessionId : String) (reason : RemoteEndReason) (actorUserId : Option String)
    (context : Option RequestContext) :
    (close sessionId reason actorUserId context).Only Write.OnlyEnds := by
  refine ((only_selectSession sessionId).mono fun w hw => hw.onlyEnds).bind fun session => ?_
  split
  · trivial
  split
  · trivial
  rw [newDate_bind]
  refine .stmt trivial fun w => (only_updateSession trivial).bind fun ended => ?_
  exact (only_closeRest ..).bind fun _ => trivial

theorem only_closeEach (now : Date) (sessions : List (RemoteSessionRow × Option Date)) :
    (closeEach now sessions).Only Write.OnlyEnds := by
  induction sessions with
  | nil => trivial
  | cons session rest ih =>
    unfold closeEach
    split
    · exact ih
    · exact (only_close ..).bind fun _ => ih.bind fun _ => trivial

theorem only_expireStale : expireStale.Only Write.OnlyEnds := by
  unfold expireStale
  simp only [newDate_bind, select_bind]
  exact .stmt trivial fun _ => .stmt trivial fun _ => only_closeEach ..

theorem only_revokeEach (ids : List String) : (revokeEach ids).Only Write.OnlyEnds := by
  induction ids with
  | nil => trivial
  | cons id rest ih => exact (only_close ..).bind fun _ => ih

theorem only_endSessionsForDevice (deviceId : String) :
    (endSessionsForDevice deviceId).Only Write.OnlyEnds := by
  unfold endSessionsForDevice
  rw [select_bind]
  exact .stmt trivial fun _ => (only_revokeEach _).bind fun _ => trivial

theorem only_endSession (userId sessionId : String) (reason : RemoteEndReason)
    (context : Option RequestContext) :
    (endSession userId sessionId reason context).Only Write.OnlyEnds := by
  refine ((only_selectSession sessionId).mono fun w hw => hw.onlyEnds).bind fun session => ?_
  split
  · trivial
  · refine Prog.Only.bind (P := Write.OnlyEnds) ?_ fun _ => (only_close ..).bind fun _ => trivial
    unfold requireEnder
    split
    · trivial
    · exact (only_requireOwner ..).mono fun w hw => hw.onlyEnds

theorem only_requirePermissions (userId spaceId : String) (context : RequestContext)
    (permissions : List String) :
    (requirePermissions userId spaceId context permissions).Only Write.Quiet := by
  induction permissions with
  | nil => trivial
  | cons permission rest ih => exact (only_requirePermission ..).bind fun _ => ih

theorem only_stepUpFor (userId spaceId : String) (input : CreateRemoteSessionRequest)
    (context : RequestContext) :
    (stepUpFor hashSecret userId spaceId input context).Only Write.OnlyCodes := by
  unfold stepUpFor verifyStepUp
  split
  · split
    · refine (only_consume _ _ _ _).bind fun result => ?_
      split
      · trivial
      · exact .stmt (quiet_audit (by simp)).onlyCodes fun _ => trivial
    · trivial
  · trivial

theorem only_replaceExisting (userId deviceId spaceId : String) (context : RequestContext)
    (existing : Option RemoteSessionRow) :
    (replaceExisting userId deviceId spaceId context existing).Only Write.OnlyEnds := by
  unfold replaceExisting
  split
  · trivial
  split
  · exact .stmt trivial fun _ => trivial
  · exact (only_close ..).bind fun _ => trivial

theorem only_startSession {userId deviceId spaceId : String} {input : CreateRemoteSessionRequest}
    {context : RequestContext} {agentId : String} (h : agentId = input.agentId) :
    (startSession ice userId deviceId spaceId input context agentId).Only
      (RemoteWrite (.createSession userId deviceId spaceId input context)) := by
  unfold startSession
  simp only [newDate_bind, randomNonce_bind, randomUUID_bind]
  refine .stmt trivial fun w => .stmt trivial fun w => .stmt trivial fun w => .stmt trivial fun w => ?_
  refine Prog.Only.bind (.stmt ⟨rfl, rfl, rfl, h, rfl, rfl⟩ fun w => ?_) fun _ =>
    .stmt trivial fun _ => .stmt trivial fun _ => trivial
  split <;> trivial

/-- **Creating a session** may end others, and inserts the one that was asked for. -/
theorem only_createSession (userId deviceId spaceId : String) (input : CreateRemoteSessionRequest)
    (context : RequestContext) :
    (createSession hashSecret ice userId deviceId spaceId input context).Only
      (RemoteWrite (.createSession userId deviceId spaceId input context)) := by
  unfold createSession
  refine ((only_requirePermissions ..).mono fun w hw => hw.onlyEnds.remoteWrite _).bind fun _ => ?_
  rw [select_bind]
  refine .stmt trivial fun w => ?_
  split
  · trivial
  rename_i agent hagent
  split
  · trivial
  rw [newDate_bind]
  refine .stmt trivial fun w => (Prog.only_raiseIf _ _).bind fun _ => ?_
  refine ((only_stepUpFor ..).mono fun w hw => hw.onlyEnds.remoteWrite _).bind fun _ => ?_
  refine (only_expireStale.mono fun w hw => hw.remoteWrite _).bind fun _ => ?_
  rw [select_bind]
  refine .stmt trivial fun w => ?_
  refine ((only_replaceExisting ..).mono fun w hw => hw.remoteWrite _).bind fun _ => ?_
  exact only_startSession (by simpa using List.find?_some hagent)

theorem only_listSessions (userId spaceId : String) (limit : Int) :
    (listSessions userId spaceId limit).Only Write.OnlyEnds := by
  unfold listSessions
  refine ((only_requirePermission ..).mono fun w hw => hw.onlyEnds).bind fun _ => ?_
  exact only_expireStale.bind fun _ => .stmt trivial fun _ => trivial

theorem only_getSession (userId sessionId : String) :
    (getSession userId sessionId).Only Write.Quiet :=
  (only_requireViewerSession ..).bind fun _ => trivial

theorem only_heartbeat (userId sessionId : String) :
    (heartbeat userId sessionId).Only (RemoteWrite (.heartbeat userId sessionId)) := by
  unfold heartbeat
  refine ((only_requireViewerSession ..).mono fun w hw => hw.onlyEnds.remoteWrite _).bind fun _ => ?_
  split
  · trivial
  · rw [newDate_bind]
    exact .stmt trivial fun _ => (only_updateSession ⟨userId, rfl⟩).bind fun _ => trivial

theorem only_markConnecting {session : RemoteSessionRow} {kind : SignalKind}
    (h : ∃ sender, q.Posts session.id sender) :
    (markConnecting session kind).Only (RemoteWrite q) := by
  unfold markConnecting
  split
  · exact (only_updateSession h).bind fun _ => trivial
  · trivial

theorem only_appendSignal {sessionId : String} {sender : SignalRole} (kind payload : String)
    (h : q.Posts sessionId sender) :
    (appendSignal sessionId sender kind payload).Only (RemoteWrite q) := by
  unfold appendSignal
  simp only [randomUUID_bind, newDate_bind]
  refine .stmt trivial fun w => .stmt trivial fun w => .stmt h fun w => ?_
  split <;> trivial

theorem only_postToSession {sender : SignalRole} {session : RemoteSessionRow}
    (input : RemoteSignalRequest) (h : q.Posts session.id sender) :
    (postToSession sender session input).Only (RemoteWrite q) := by
  unfold postToSession
  split
  · exact ((only_close ..).mono fun w hw => hw.remoteWrite q).bind fun _ => trivial
  · refine (only_markConnecting ⟨sender, h⟩).bind fun _ => ?_
    exact (only_appendSignal _ _ h).bind fun _ => .stmt trivial fun _ => trivial

/-- **Posting a message** may end the session, or moves it on and appends the message. -/
theorem only_postSignal {sender : SignalRole} {sessionId : String} (input : RemoteSignalRequest)
    (ownerId : String) (h : q.Posts sessionId sender) :
    (postSignal sender sessionId input ownerId).Only (RemoteWrite q) := by
  unfold postSignal
  have honly := (only_requirePartySession sender ownerId sessionId).mono fun w hw =>
    hw.onlyEnds.remoteWrite q
  refine honly.bind_answers (answers_requirePartySession _ _ _) fun session hid => ?_
  split
  · trivial
  rw [newDate_bind]
  refine .stmt trivial fun w => ?_
  split
  · exact ((only_close ..).mono fun w hw => hw.remoteWrite q).bind fun _ => trivial
  · exact only_postToSession input (hid ▸ h)

theorem only_collectSignals {forRole : SignalRole} {sessionId : String} (ownerId : String)
    (h : q.Polls forRole sessionId) :
    (collectSignals forRole sessionId ownerId).Only (RemoteWrite q) := by
  unfold collectSignals
  refine ((only_requirePartySession ..).mono fun w hw => hw.onlyEnds.remoteWrite q).bind fun session => ?_
  rw [select_bind]
  refine .stmt trivial fun w => ?_
  refine Prog.Only.bind (P := RemoteWrite q) ?_ fun _ => trivial
  unfold markDelivered
  split
  · trivial
  · rw [newDate_bind]
    exact .stmt trivial fun _ => .stmt ⟨forRole, sessionId, h⟩ fun _ => trivial

theorem only_pendingGrantsFor (principal : AgentPrincipal) :
    (pendingGrantsFor signer principal).Only Write.OnlyEnds := by
  unfold pendingGrantsFor
  rw [select_bind]
  refine .stmt trivial fun w => ?_
  split
  · trivial
  · exact only_expireStale.bind fun _ => .stmt trivial fun _ => trivial

theorem only_markConnected (principal : AgentPrincipal) (sessionId : String)
    (localType remoteType : Option String) : (markConnected principal sessionId localType remoteType).Only
      (RemoteWrite (.connected principal sessionId localType remoteType)) := by
  unfold markConnected
  have honly := (only_requireHostSession principal.userId sessionId (some principal.deviceId)).mono
    fun w hw => hw.onlyEnds.remoteWrite (.connected principal sessionId localType remoteType)
  refine honly.bind_answers (answers_requireHostSession _ _ _) fun session hid => ?_
  refine (Prog.only_raiseIf _ _).bind fun _ => ?_
  rw [newDate_bind]
  refine .stmt trivial fun w => (only_updateSession ?_).bind fun _ => .stmt trivial fun _ => trivial
  exact ⟨principal, localType, remoteType, by rw [hid]⟩

theorem only_reportViolation (principal : AgentPrincipal) (sessionId : String) (count : Nat) :
    (reportViolation principal sessionId count).Only
      (RemoteWrite (.violation principal sessionId count)) := by
  unfold reportViolation
  have honly := (only_requireHostSession principal.userId sessionId (some principal.deviceId)).mono
    fun w hw => hw.onlyEnds.remoteWrite (.violation principal sessionId count)
  refine honly.bind_answers (answers_requireHostSession _ _ _) fun session hid => ?_
  exact (only_updateSession ⟨principal, by rw [hid]⟩).bind fun _ => .stmt trivial fun _ => trivial

/-- **What each call may do.** -/
theorem only_remoteHandler (q : RemoteRequest) :
    (remoteHandler signer hashSecret ice q).Only (RemoteWrite q) := by
  cases q with
  | createSession userId deviceId spaceId input context => exact (only_createSession ..).map _
  | listSessions userId spaceId limit =>
    exact ((only_listSessions ..).mono fun w hw => hw.remoteWrite _).map _
  | getSession userId sessionId =>
    exact ((only_getSession ..).mono fun w hw => hw.onlyEnds.remoteWrite _).map _
  | heartbeat userId sessionId => exact (only_heartbeat ..).map _
  | signal userId sessionId input =>
    have hposts : (RemoteRequest.signal userId sessionId input).Posts sessionId .viewer := ⟨rfl, rfl⟩
    exact (only_postSignal input userId hposts).map _
  | signals userId sessionId =>
    have hpolls : (RemoteRequest.signals userId sessionId).Polls .viewer sessionId := ⟨rfl, rfl⟩
    exact (only_collectSignals userId hpolls).map _
  | endSession userId sessionId reason context =>
    exact ((only_endSession ..).mono fun w hw => hw.remoteWrite _).map _
  | grants principal => exact ((only_pendingGrantsFor _).mono fun w hw => hw.remoteWrite _).map _
  | hostSignal principal sessionId input =>
    have hposts : (RemoteRequest.hostSignal principal sessionId input).Posts sessionId .host := ⟨rfl, rfl⟩
    exact (only_postSignal input principal.userId hposts).map _
  | hostSignals principal sessionId =>
    have hpolls : (RemoteRequest.hostSignals principal sessionId).Polls .host sessionId := ⟨rfl, rfl⟩
    exact (only_collectSignals principal.userId hpolls).map _
  | connected principal sessionId localType remoteType => exact (only_markConnected ..).map _
  | violation principal sessionId count => exact (only_reportViolation ..).map _
  | revoke deviceId => exact ((only_endSessionsForDevice _).mono fun w hw => hw.remoteWrite _).map _

/-! ## The table of sessions -/

/-- The statement updates the session, and how. -/
def Write.Changes (w : Write) (s : RemoteSessionRow) (change : SessionChange) : Prop :=
  w = .updateSession s.id change

/-- What a statement makes of a session. -/
structure SessionStep (w : Write) (s s' : RemoteSessionRow) : Prop where
  changed : s' = s ∨ ∃ change, w.Changes s change ∧ s' = change.apply s

theorem content_apply (change : SessionChange) (s : RemoteSessionRow) :
    (change.apply s).content = s.content := by
  cases change <;> rfl

theorem SessionStep.content {w : Write} {s s' : RemoteSessionRow} (h : SessionStep w s s') :
    s'.content = s.content := by
  rcases h.changed with rfl | ⟨change, -, rfl⟩
  · rfl
  · exact content_apply change s

/-- A session keeps its identifier. -/
theorem sessionId_of_content {s s' : RemoteSessionRow} (h : s'.content = s.content) : s'.id = s.id := by
  show s'.content.id = s.content.id
  rw [h]

theorem sessionStep_update (id : String) (change : SessionChange) (s : RemoteSessionRow) :
    SessionStep (.updateSession id change) s (if s.id = id then change.apply s else s) := by
  split
  · rename_i hid
    exact ⟨.inr ⟨change, by rw [Write.Changes, hid], rfl⟩⟩
  · exact ⟨.inl rfl⟩

/-- **Each session in the table** becomes what the statement makes of it. -/
theorem sessionStep_exec (w : Write) (s : World) :
    Evolves (SessionStep w) s.remoteSessions (exec w s).remoteSessions := by
  intro r hr
  cases w with
  | insertSession row => exact Table.evolves_insert (fun r => ⟨.inl rfl⟩) r hr
  | updateSession id change =>
    exact ⟨_, Table.mem_update.mpr ⟨r, hr, rfl⟩, by simpa using sessionStep_update id change r⟩
  | _ => exact ⟨r, hr, ⟨.inl rfl⟩⟩

/-- **Each session in the table afterwards** was there before, or is new. -/
theorem sessionStep_back {w : Write} {s : World} {r' : RemoteSessionRow}
    (hr' : r' ∈ (exec w s).remoteSessions) :
    (∃ r ∈ s.remoteSessions, SessionStep w r r') ∨ w = .insertSession r' := by
  cases w with
  | insertSession row =>
    rcases Table.mem_insert hr' with hr' | rfl
    · exact .inl ⟨r', hr', ⟨.inl rfl⟩⟩
    · exact .inr rfl
  | updateSession id change =>
    obtain ⟨r, hr, rfl⟩ := Table.mem_update.mp hr'
    exact .inl ⟨r, hr, by simpa using sessionStep_update id change r⟩
  | _ => exact .inl ⟨r', hr', ⟨.inl rfl⟩⟩

/-- One that is new is of the call. -/
theorem sessionStep_of_exec {w : Write} (h : RemoteWrite q w) (s : World) {r' : RemoteSessionRow}
    (hr' : r' ∈ (exec w s).remoteSessions) :
    (∃ r ∈ s.remoteSessions, SessionStep w r r') ∨ w = .insertSession r' ∧ q.Creates r' := by
  rcases sessionStep_back hr' with hold | rfl
  · exact .inl hold
  · exact .inr ⟨rfl, h⟩

/-- Identifiers stay distinct. -/
theorem sessionIds_exec (w : Write) {s : World} (hids : (s.remoteSessions.map (·.id)).Nodup) :
    ((exec w s).remoteSessions.map (·.id)).Nodup := by
  cases w with
  | insertSession row => exact Table.nodup_insert (fun r hr => by simp [hr]) hids
  | updateSession id change =>
    show (((Op.update (·.id = id) change.apply).apply s.remoteSessions).map (·.id)).Nodup
    rwa [Table.map_update fun r => sessionId_of_content (content_apply change r)]
  | _ => exact hids

/-- Nothing from outside touches the sessions. -/
@[simp] theorem remoteSessions_outside (e : Outside) (s : World) :
    (outside e s).remoteSessions = s.remoteSessions := by
  cases e <;> rfl

/-- Nothing from outside touches the messages. -/
@[simp] theorem remoteSignals_outside (e : Outside) (s : World) :
    (outside e s).remoteSignals = s.remoteSignals := by
  cases e <;> rfl

end Api
