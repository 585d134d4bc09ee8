import NetlinkHub.Api.OneLive

/-! # What a call does about closing

A call of the remote service ends sessions by `close` alone, and `close` alone records an end. So what
the other statements keep about a call's own statements, and every close keeps, each call keeps
(`Tolerates.keeps_remoteHandler`). -/

namespace Api

open Concurrent (Prog Log Outline)

/-- The statement neither ends a session nor records an end. -/
def Write.Unending : Write → Prop
  | .updateSession _ (.ended ..) => False
  | .audit row => row.action ≠ "remote.session.ended"
  | _ => True

variable {signer : Signer} {hashSecret : String → String} {ice : Ice} {i : Nat} {q : RemoteRequest}
  {w : Write} {α : Type}

theorem Write.Quiet.unending (h : w.Quiet) : w.Unending := by
  cases w with
  | audit row => exact h
  | updateSession id change => cases h
  | _ => trivial

theorem Write.OnlyCodes.unending (h : w.OnlyCodes) : w.Unending := by
  cases w with
  | audit row => exact h
  | updateSession id change => cases h
  | _ => trivial

/-- A property of a call's own statements that statements other than an end keep, and closes. -/
structure Tolerates (O : Outline (remoteMachine signer hashSecret ice)) (i : Nat) (q : RemoteRequest)
    (P : List RemoteStep → Prop) : Prop where
  unending : ∀ w σ, w.Unending → O.inv σ → P (σ.own i) → O.rely σ (σ.perform exec i q w) ∧
    O.inv (σ.perform exec i q w) ∧ P (⟨i, q, w, σ.shared⟩ :: σ.own i)
  close : ∀ sessionId reason actorUserId context,
    O.Keeps i q P (Api.close sessionId reason actorUserId context)

variable {O : Outline (remoteMachine signer hashSecret ice)} {P : List RemoteStep → Prop}

theorem Tolerates.keeps {p : Service α} (h : Tolerates O i q P) (hp : p.Only Write.Unending) :
    O.Keeps i q P p :=
  Outline.keeps_of_only hp fun w σ hw hσ hP => h.unending w σ hw hσ hP

theorem Tolerates.quiet {p : Service α} (h : Tolerates O i q P) (hp : p.Only Write.Quiet) :
    O.Keeps i q P p :=
  h.keeps (hp.mono fun _ hw => hw.unending)

/-- One statement that does not end a session, and what comes after it. -/
theorem Tolerates.leads {P' : List RemoteStep → Prop} {next : World → Service α}
    (h : Tolerates O i q P) (hw : w.Unending) (hnext : ∀ s, O.Leads i q P P' (next s)) :
    O.Leads i q P P' (.stmt w next) :=
  .stmt (R := fun _ => P) (fun σ hσ hP => h.unending w σ hw hσ hP) hnext

/-! ## The calls -/

theorem Tolerates.keeps_closeEach (h : Tolerates O i q P) (now : Date)
    (sessions : List (RemoteSessionRow × Option Date)) : O.Keeps i q P (closeEach now sessions) := by
  induction sessions with
  | nil => exact Outline.keeps_done _
  | cons session rest ih =>
    unfold closeEach
    split
    · exact ih
    · exact (h.close ..).bind fun _ => ih.bind fun _ => Outline.keeps_done _

theorem Tolerates.keeps_expireStale (h : Tolerates O i q P) : O.Keeps i q P expireStale := by
  unfold expireStale
  simp only [newDate_bind, select_bind]
  exact h.leads trivial fun _ => h.leads trivial fun _ => h.keeps_closeEach ..

theorem Tolerates.keeps_revokeEach (h : Tolerates O i q P) (ids : List String) :
    O.Keeps i q P (revokeEach ids) := by
  induction ids with
  | nil => exact Outline.keeps_done _
  | cons id rest ih => exact (h.close ..).bind fun _ => ih

theorem Tolerates.keeps_endSessionsForDevice (h : Tolerates O i q P) (deviceId : String) :
    O.Keeps i q P (endSessionsForDevice deviceId) := by
  unfold endSessionsForDevice
  rw [select_bind]
  exact h.leads trivial fun _ => (h.keeps_revokeEach _).bind fun _ => Outline.keeps_done _

theorem Tolerates.keeps_endSession (h : Tolerates O i q P) (userId sessionId : String)
    (reason : RemoteEndReason) (context : Option RequestContext) :
    O.Keeps i q P (endSession userId sessionId reason context) := by
  refine (h.quiet (only_selectSession sessionId)).bind fun session => ?_
  split
  · exact Outline.keeps_raise _
  · refine Outline.Leads.bind (K := P) ?_ fun _ =>
      (h.close ..).bind fun _ => Outline.keeps_done _
    unfold requireEnder
    split
    · exact Outline.keeps_done _
    · exact h.quiet (only_requireOwner ..)

theorem only_startSession_unending (userId deviceId spaceId : String) (input : CreateRemoteSessionRequest)
    (context : RequestContext) (agentId : String) :
    (startSession ice userId deviceId spaceId input context agentId).Only Write.Unending := by
  unfold startSession
  simp only [newDate_bind, randomNonce_bind, randomUUID_bind]
  refine .stmt trivial fun w => .stmt trivial fun w => .stmt trivial fun w => .stmt trivial fun w => ?_
  refine Prog.Only.bind (.stmt trivial fun w => ?_) fun _ =>
    .stmt (quiet_audit (by simp)).unending fun _ => .stmt trivial fun _ => trivial
  split <;> trivial

theorem Tolerates.keeps_createSession (h : Tolerates O i q P) (userId deviceId spaceId : String)
    (input : CreateRemoteSessionRequest) (context : RequestContext) :
    O.Keeps i q P (createSession hashSecret ice userId deviceId spaceId input context) := by
  unfold createSession
  refine (h.quiet (only_requirePermissions ..)).bind fun _ => ?_
  rw [select_bind]
  refine h.leads trivial fun _ => ?_
  split
  · exact Outline.keeps_raise _
  split
  · exact Outline.keeps_raise _
  rw [newDate_bind]
  refine h.leads trivial fun _ => ?_
  refine Outline.Leads.bind (K := P) (h.quiet (Prog.only_raiseIf _ _)) fun _ => ?_
  refine Outline.Leads.bind (K := P)
    (h.keeps ((only_stepUpFor ..).mono fun _ hw => hw.unending)) fun _ => ?_
  refine h.keeps_expireStale.bind fun _ => ?_
  rw [select_bind]
  refine h.leads trivial fun _ => ?_
  refine Outline.Leads.bind (K := P) ?_ fun _ =>
    h.keeps (only_startSession_unending ..)
  unfold replaceExisting
  split
  · exact Outline.keeps_done _
  split
  · exact h.leads (quiet_audit (by simp)).unending fun _ => Outline.keeps_raise _
  · exact (h.close ..).bind fun _ => Outline.keeps_done _

theorem Tolerates.keeps_postSignal (h : Tolerates O i q P) (sender : SignalRole) (sessionId : String)
    (input : RemoteSignalRequest) (ownerId : String) :
    O.Keeps i q P (postSignal sender sessionId input ownerId) := by
  unfold postSignal
  refine (h.quiet (only_requirePartySession ..)).bind fun session => ?_
  split
  · exact Outline.keeps_raise _
  rw [newDate_bind]
  refine h.leads trivial fun _ => ?_
  split
  · exact (h.close ..).bind fun _ => Outline.keeps_raise _
  unfold postToSession
  split
  · exact (h.close ..).bind fun _ => Outline.keeps_done _
  refine h.keeps (Prog.Only.bind ?_ fun _ => ?_)
  · unfold markConnecting
    split
    · exact (only_updateSession trivial).bind fun _ => trivial
    · trivial
  · unfold appendSignal
    simp only [randomUUID_bind, newDate_bind, Prog.stmt_bind]
    refine .stmt trivial fun w => .stmt trivial fun w => .stmt trivial fun w => ?_
    split
    · trivial
    · exact .stmt trivial fun _ => trivial

theorem Tolerates.keeps_collectSignals (h : Tolerates O i q P) (forRole : SignalRole)
    (sessionId ownerId : String) : O.Keeps i q P (collectSignals forRole sessionId ownerId) := by
  unfold collectSignals markDelivered
  refine (h.quiet (only_requirePartySession ..)).bind fun session => ?_
  rw [select_bind]
  refine h.leads trivial fun _ => h.keeps ?_
  split
  · trivial
  · exact .stmt trivial fun _ => .stmt trivial fun _ => trivial

theorem Tolerates.keeps_pendingGrantsFor (h : Tolerates O i q P) (principal : AgentPrincipal) :
    O.Keeps i q P (pendingGrantsFor signer principal) := by
  unfold pendingGrantsFor
  rw [select_bind]
  refine h.leads trivial fun _ => ?_
  split
  · exact Outline.keeps_done _
  · exact h.keeps_expireStale.bind fun _ => h.leads trivial fun _ => Outline.keeps_done _

theorem Tolerates.keeps_heartbeat (h : Tolerates O i q P) (userId sessionId : String) :
    O.Keeps i q P (heartbeat userId sessionId) := by
  unfold heartbeat
  refine (h.quiet (only_requireViewerSession ..)).bind fun session => h.keeps ?_
  split
  · trivial
  · rw [newDate_bind]
    exact .stmt trivial fun _ => (only_updateSession trivial).bind fun _ => trivial

theorem Tolerates.keeps_markConnected (h : Tolerates O i q P) (principal : AgentPrincipal)
    (sessionId : String) (localType remoteType : Option String) :
    O.Keeps i q P (markConnected principal sessionId localType remoteType) := by
  unfold markConnected
  refine (h.quiet (only_requireHostSession ..)).bind fun session => h.keeps ?_
  refine (Prog.only_raiseIf _ _).bind fun _ => ?_
  rw [newDate_bind]
  exact .stmt trivial fun _ => (only_updateSession trivial).bind fun _ => .stmt trivial fun _ => trivial

theorem Tolerates.keeps_reportViolation (h : Tolerates O i q P) (principal : AgentPrincipal)
    (sessionId : String) (count : Nat) : O.Keeps i q P (reportViolation principal sessionId count) := by
  unfold reportViolation
  refine (h.quiet (only_requireHostSession ..)).bind fun session => h.keeps ?_
  refine (only_updateSession trivial).bind fun _ => ?_
  exact .stmt (quiet_audit (by simp)).unending fun _ => trivial

/-- **What every statement but an end keeps, and every close, each call keeps.** -/
theorem Tolerates.keeps_remoteHandler (h : Tolerates O i q P) (q' : RemoteRequest) :
    O.Keeps i q P
      (remoteHandler signer hashSecret ice q') := by
  cases q' with
  | createSession userId deviceId spaceId input context =>
    exact (h.keeps_createSession ..).bind fun _ => Outline.keeps_done _
  | listSessions userId spaceId limit =>
    refine Outline.Leads.bind (K := P) ?_ fun _ => Outline.keeps_done _
    refine (h.quiet (only_requirePermission ..)).bind fun _ => ?_
    exact h.keeps_expireStale.bind fun _ => h.leads trivial fun _ => Outline.keeps_done _
  | getSession userId sessionId =>
    exact (h.quiet (only_getSession ..)).bind fun _ => Outline.keeps_done _
  | heartbeat userId sessionId => exact (h.keeps_heartbeat ..).bind fun _ => Outline.keeps_done _
  | signal userId sessionId input => exact (h.keeps_postSignal ..).bind fun _ => Outline.keeps_done _
  | signals userId sessionId => exact (h.keeps_collectSignals ..).bind fun _ => Outline.keeps_done _
  | endSession userId sessionId reason context =>
    exact (h.keeps_endSession ..).bind fun _ => Outline.keeps_done _
  | grants principal => exact (h.keeps_pendingGrantsFor _).bind fun _ => Outline.keeps_done _
  | hostSignal principal sessionId input =>
    exact (h.keeps_postSignal ..).bind fun _ => Outline.keeps_done _
  | hostSignals principal sessionId =>
    exact (h.keeps_collectSignals ..).bind fun _ => Outline.keeps_done _
  | connected principal sessionId localType remoteType =>
    exact (h.keeps_markConnected ..).bind fun _ => Outline.keeps_done _
  | violation principal sessionId count =>
    exact (h.keeps_reportViolation ..).bind fun _ => Outline.keeps_done _
  | revoke deviceId => exact (h.keeps_endSessionsForDevice _).bind fun _ => Outline.keeps_done _

end Api
