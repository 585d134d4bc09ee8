import NetlinkHub.Api.PowerSteps
import NetlinkHub.Api.RemoteSteps
import NetlinkHub.Concurrent.Trace

/-! # Step-up codes

A code stays its user's and, once it is used up, it stays used up: every statement of the power and remote
services keeps that (`keepsCodes_powerHandler`, `keepsCodes_remoteHandler`). A control session is created,
and a computer restarted or shut down, only once the same call has used up a code of the user that was free
until then (`traces_createSession`, `traces_requestCommand`). -/

namespace Api

open Concurrent (Prog Step)
open Table (Op)

/-! ## What codes become -/

/-- What a code may become. -/
structure CodeStays (c c' : ChallengeRow) : Prop where
  id_eq : c'.id = c.id
  user : c'.userId = c.userId
  purpose : c'.purpose = c.purpose
  consumed : c.consumedAt.isSome → c'.consumedAt.isSome

theorem CodeStays.refl (c : ChallengeRow) : CodeStays c c := ⟨rfl, rfl, rfl, id⟩

theorem CodeStays.trans {a b c : ChallengeRow} (h : CodeStays a b) (h' : CodeStays b c) : CodeStays a c :=
  ⟨h'.id_eq.trans h.id_eq, h'.user.trans h.user, h'.purpose.trans h.purpose, h'.consumed ∘ h.consumed⟩

/-- The statement changes codes only so. -/
def Write.KeepsCodes : Write → Prop
  | .challenges (.update _ data) => ∀ c, CodeStays c (data c)
  | .challenges _ => False
  | _ => True

theorem Write.Quiet.keepsCodes {w : Write} (h : w.Quiet) : w.KeepsCodes := by
  cases w with
  | challenges op => exact h.elim
  | _ => trivial

section KeepsCodes

variable {signer : Signer} {hashSecret : String → String} {ice : Ice}

theorem keepsCodes_updateChallenge (id : String) {data : ChallengeRow → ChallengeRow}
    (h : ∀ c, CodeStays c (data c)) : (updateChallenge id data).Only Write.KeepsCodes := by
  refine .stmt h fun w => ?_
  split <;> trivial

theorem keepsCodes_consume (challengeId code purpose : String) :
    (consume hashSecret challengeId code purpose).Only Write.KeepsCodes := by
  unfold consume
  simp only [select_bind, newDate_bind, Prog.perform_bind]
  refine .stmt trivial fun w => ?_
  split
  · trivial
  split
  · trivial
  split
  · trivial
  refine .stmt trivial fun w => ?_
  split
  · trivial
  split
  · trivial
  split
  · refine (keepsCodes_updateChallenge _ fun c => ?_).bind fun updated => ?_
    · exact ⟨rfl, rfl, rfl, id⟩
    split
    · refine .stmt trivial fun w => (keepsCodes_updateChallenge _ fun c => ?_).bind fun _ => trivial
      exact ⟨rfl, rfl, rfl, fun _ => rfl⟩
    · trivial
  · refine .stmt trivial fun w => .stmt (fun c => ⟨rfl, rfl, rfl, fun _ => rfl⟩) fun w => ?_
    split <;> trivial

/-! ### The power service -/

theorem keepsCodes_verifyPowerStepUp (userId spaceId : String) (input : PowerCommandRequest)
    (context : RequestContext) :
    (verifyPowerStepUp hashSecret userId spaceId input context).Only Write.KeepsCodes := by
  unfold verifyPowerStepUp
  split
  · refine (keepsCodes_consume _ _ _).bind fun result => ?_
    split
    · trivial
    · exact .stmt trivial fun _ => trivial
  · trivial

theorem keepsCodes_updateCommand (id : String) (data : PowerCommandRow → PowerCommandRow) :
    (updateCommand id data).Only Write.KeepsCodes := by
  refine .stmt trivial fun w => ?_
  split <;> trivial

theorem keepsCodes_cancelPending (userId spaceId agentId : String) (context : RequestContext) :
    (cancelPending userId spaceId agentId context).Only Write.KeepsCodes := by
  unfold cancelPending
  simp only [select_bind, newDate_bind, record_bind]
  refine .stmt trivial fun w => ?_
  split
  · trivial
  · refine (Prog.only_raiseIf _ _).bind fun _ => .stmt trivial fun now => ?_
    exact (keepsCodes_updateCommand _ _).bind fun _ => .stmt trivial fun _ => trivial

theorem keepsCodes_chooseHelper (action : PowerAction) (spaceId : String) (agent : AgentRow)
    (isOnline : Bool) : (chooseHelper action spaceId agent isOnline).Only Write.KeepsCodes := by
  unfold chooseHelper wakeHelper
  split
  swap
  · trivial
  simp only [select_bind, newDate_bind]
  refine (Prog.only_raiseIf _ _).bind fun _ => .stmt trivial fun w => .stmt trivial fun w => ?_
  exact (Prog.only_raiseIf _ _).bind fun _ => trivial

theorem keepsCodes_insertCommand (userId deviceId spaceId : String) (input : PowerCommandRequest)
    (context : RequestContext) (agent : AgentRow) (helperId : Option String) :
    (insertCommand userId deviceId spaceId input context agent helperId).Only Write.KeepsCodes := by
  unfold insertCommand pendingCommand
  simp only [newDate_bind, Prog.stmt_bind, select_bind, randomNonce_bind, randomUUID_bind]
  refine .stmt trivial fun w => .stmt trivial fun w => ?_
  split
  · trivial
  · refine .stmt trivial fun w => .stmt trivial fun w => .stmt trivial fun w => .stmt trivial fun w => ?_
    refine Prog.Only.bind (.stmt trivial fun w => ?_) fun _ => .stmt trivial fun _ => trivial
    split <;> trivial

/-- What `issueCommand` does after the step-up. -/
def issueConfirmed (userId deviceId spaceId : String) (input : PowerCommandRequest) (context : RequestContext)
    (agent : AgentRow) : Service PowerCommandSummary := do
  let seen ← newDate
  let isOnline := online agent.lastHeartbeatAt seen
  Prog.raiseIf (input.action.requiresTargetOnline ∧ ¬ isOnline)
    (conflict "That computer is not online. Turn it on first, then try again.")
  let helperId ← chooseHelper input.action spaceId agent isOnline
  insertCommand userId deviceId spaceId input context agent helperId

theorem issueCommand_eq (userId deviceId spaceId : String) (input : PowerCommandRequest)
    (context : RequestContext) (agent : AgentRow) :
    issueCommand hashSecret userId deviceId spaceId input context agent =
      if input.action.destructive then
        verifyPowerStepUp hashSecret userId spaceId input context >>= fun _ =>
          issueConfirmed userId deviceId spaceId input context agent
      else issueConfirmed userId deviceId spaceId input context agent := by
  unfold issueCommand issueConfirmed
  split <;> rfl

theorem keepsCodes_requestCommand (userId deviceId spaceId : String) (input : PowerCommandRequest)
    (context : RequestContext) :
    (requestCommand hashSecret userId deviceId spaceId input context).Only Write.KeepsCodes := by
  unfold requestCommand
  refine ((only_requirePermission ..).mono fun w hw => hw.keepsCodes).bind fun _ => ?_
  rw [select_bind]
  refine .stmt trivial fun w => ?_
  split
  · trivial
  split
  · trivial
  split
  · exact keepsCodes_cancelPending ..
  rename_i agent _ _ _
  have hrest : (issueConfirmed userId deviceId spaceId input context agent).Only Write.KeepsCodes :=
    .stmt trivial fun w => (Prog.only_raiseIf _ _).bind fun _ =>
      (keepsCodes_chooseHelper ..).bind fun helperId => keepsCodes_insertCommand ..
  rw [issueCommand_eq]
  split
  · exact (keepsCodes_verifyPowerStepUp ..).bind fun _ => hrest
  · exact hrest

theorem keepsCodes_claimEach (deviceId : String) (now : Date) (due : List PowerCommandRow) :
    (claimEach signer deviceId now due).Only Write.KeepsCodes := by
  induction due with
  | nil => trivial
  | cons c due ih =>
    unfold claimEach
    rw [Prog.perform_bind]
    refine .stmt trivial fun w => ih.bind fun signed => ?_
    split <;> trivial

/-- **The power service** keeps the codes. -/
theorem keepsCodes_powerHandler (q : PowerRequest) :
    (powerHandler signer hashSecret q).Only Write.KeepsCodes := by
  cases q with
  | requestCommand userId deviceId spaceId input context => exact (keepsCodes_requestCommand ..).map _
  | collectFor principal =>
    refine Prog.Only.map ?_ _
    unfold collectFor
    simp only [select_bind, newDate_bind, Prog.perform_bind]
    refine .stmt trivial fun w => ?_
    split
    · trivial
    · exact .stmt trivial fun w => .stmt trivial fun w => .stmt trivial fun w => keepsCodes_claimEach ..
  | recordResult principal input =>
    refine Prog.Only.map ?_ _
    unfold recordResult
    simp only [select_bind, newDate_bind, record_bind, publishToSpace_bind]
    refine (Prog.only_raiseIf _ _).bind fun _ => .stmt trivial fun w => ?_
    split
    · trivial
    · refine .stmt trivial fun w => (Prog.only_raiseIf _ _).bind fun _ => .stmt trivial fun w =>
        .stmt trivial fun w => ?_
      exact (keepsCodes_updateCommand _ _).bind fun _ => .stmt trivial fun _ => .stmt trivial fun _ => trivial

/-! ### The remote service -/

theorem keepsCodes_updateSession (id : String) (change : SessionChange) :
    (updateSession id change).Only Write.KeepsCodes := only_updateSession trivial

theorem keepsCodes_close (sessionId : String) (reason : RemoteEndReason) (actorUserId : Option String)
    (context : Option RequestContext) :
    (close sessionId reason actorUserId context).Only Write.KeepsCodes := by
  refine ((only_selectSession sessionId).mono fun w hw => hw.keepsCodes).bind fun session => ?_
  split
  · trivial
  split
  · trivial
  rw [newDate_bind]
  refine .stmt trivial fun w => (keepsCodes_updateSession ..).bind fun ended => Prog.Only.bind ?_ fun _ => trivial
  unfold closeRest
  rw [Prog.perform_bind]
  refine .stmt trivial fun w => ?_
  refine ((only_connectedSeconds _).mono fun w hw => hw.keepsCodes).bind fun seconds => ?_
  exact .stmt trivial fun _ => .stmt trivial fun _ => trivial

theorem keepsCodes_expireStale : expireStale.Only Write.KeepsCodes := by
  have heach : ∀ now sessions, (closeEach now sessions).Only Write.KeepsCodes := by
    intro now sessions
    induction sessions with
    | nil => trivial
    | cons session rest ih =>
      unfold closeEach
      split
      · exact ih
      · exact (keepsCodes_close ..).bind fun _ => ih.bind fun _ => trivial
  unfold expireStale
  simp only [newDate_bind, select_bind]
  exact .stmt trivial fun _ => .stmt trivial fun _ => heach ..

theorem keepsCodes_endSessionsForDevice (deviceId : String) :
    (endSessionsForDevice deviceId).Only Write.KeepsCodes := by
  have heach : ∀ ids, (revokeEach ids).Only Write.KeepsCodes := by
    intro ids
    induction ids with
    | nil => trivial
    | cons id rest ih => exact (keepsCodes_close ..).bind fun _ => ih
  unfold endSessionsForDevice
  rw [select_bind]
  exact .stmt trivial fun _ => (heach _).bind fun _ => trivial

theorem keepsCodes_endSession (userId sessionId : String) (reason : RemoteEndReason)
    (context : Option RequestContext) :
    (endSession userId sessionId reason context).Only Write.KeepsCodes := by
  refine ((only_selectSession sessionId).mono fun w hw => hw.keepsCodes).bind fun session => ?_
  split
  · trivial
  · refine Prog.Only.bind (P := Write.KeepsCodes) ?_ fun _ => (keepsCodes_close ..).bind fun _ => trivial
    unfold requireEnder
    split
    · trivial
    · exact (only_requireOwner ..).mono fun w hw => hw.keepsCodes

theorem keepsCodes_stepUpFor (userId spaceId : String) (input : CreateRemoteSessionRequest)
    (context : RequestContext) : (stepUpFor hashSecret userId spaceId input context).Only Write.KeepsCodes := by
  unfold stepUpFor verifyStepUp
  split
  · split
    · refine (keepsCodes_consume _ _ _).bind fun result => ?_
      split
      · trivial
      · exact .stmt trivial fun _ => trivial
    · trivial
  · trivial

theorem keepsCodes_replaceExisting (userId deviceId spaceId : String) (context : RequestContext)
    (existing : Option RemoteSessionRow) :
    (replaceExisting userId deviceId spaceId context existing).Only Write.KeepsCodes := by
  unfold replaceExisting
  split
  · trivial
  split
  · exact .stmt trivial fun _ => trivial
  · exact (keepsCodes_close ..).bind fun _ => trivial

theorem keepsCodes_startSession (userId deviceId spaceId : String) (input : CreateRemoteSessionRequest)
    (context : RequestContext) (agentId : String) :
    (startSession ice userId deviceId spaceId input context agentId).Only Write.KeepsCodes := by
  unfold startSession
  simp only [newDate_bind, randomNonce_bind, randomUUID_bind]
  refine .stmt trivial fun w => .stmt trivial fun w => .stmt trivial fun w => .stmt trivial fun w => ?_
  refine Prog.Only.bind (.stmt trivial fun w => ?_) fun _ => .stmt trivial fun _ => .stmt trivial fun _ => trivial
  split <;> trivial

theorem keepsCodes_createSession (userId deviceId spaceId : String) (input : CreateRemoteSessionRequest)
    (context : RequestContext) :
    (createSession hashSecret ice userId deviceId spaceId input context).Only Write.KeepsCodes := by
  unfold createSession
  refine ((only_requirePermissions ..).mono fun w hw => hw.keepsCodes).bind fun _ => ?_
  rw [select_bind]
  refine .stmt trivial fun w => ?_
  split
  · trivial
  split
  · trivial
  rw [newDate_bind]
  refine .stmt trivial fun w => (Prog.only_raiseIf _ _).bind fun _ => ?_
  refine (keepsCodes_stepUpFor ..).bind fun _ => keepsCodes_expireStale.bind fun _ => ?_
  rw [select_bind]
  exact .stmt trivial fun w => (keepsCodes_replaceExisting ..).bind fun _ => keepsCodes_startSession ..

theorem keepsCodes_postSignal (sender : SignalRole) (sessionId : String) (input : RemoteSignalRequest)
    (ownerId : String) : (postSignal sender sessionId input ownerId).Only Write.KeepsCodes := by
  have hmark : ∀ session, (markConnecting session input.kind).Only Write.KeepsCodes := by
    intro session
    unfold markConnecting
    split
    · exact (keepsCodes_updateSession ..).bind fun _ => trivial
    · trivial
  have happend : ∀ id, (appendSignal id sender input.kind.text input.payload).Only Write.KeepsCodes := by
    intro id
    unfold appendSignal
    simp only [randomUUID_bind, newDate_bind]
    refine .stmt trivial fun w => .stmt trivial fun w => .stmt trivial fun w => ?_
    split <;> trivial
  unfold postSignal
  refine ((only_requirePartySession ..).mono fun w hw => hw.keepsCodes).bind fun session => ?_
  split
  · trivial
  rw [newDate_bind]
  refine .stmt trivial fun w => ?_
  split
  · exact (keepsCodes_close ..).bind fun _ => trivial
  unfold postToSession
  split
  · exact (keepsCodes_close ..).bind fun _ => trivial
  · exact (hmark _).bind fun _ => (happend _).bind fun _ => .stmt trivial fun _ => trivial

theorem keepsCodes_collectSignals (forRole : SignalRole) (sessionId ownerId : String) :
    (collectSignals forRole sessionId ownerId).Only Write.KeepsCodes := by
  unfold collectSignals
  refine ((only_requirePartySession ..).mono fun w hw => hw.keepsCodes).bind fun session => ?_
  rw [select_bind]
  refine .stmt trivial fun w => Prog.Only.bind (P := Write.KeepsCodes) ?_ fun _ => trivial
  unfold markDelivered
  split
  · trivial
  · rw [newDate_bind]
    exact .stmt trivial fun _ => .stmt trivial fun _ => trivial

theorem keepsCodes_pendingGrantsFor (principal : AgentPrincipal) :
    (pendingGrantsFor signer principal).Only Write.KeepsCodes := by
  unfold pendingGrantsFor
  rw [select_bind]
  refine .stmt trivial fun w => ?_
  split
  · trivial
  · exact keepsCodes_expireStale.bind fun _ => .stmt trivial fun _ => trivial

/-- **The remote service** keeps the codes. -/
theorem keepsCodes_remoteHandler (q : RemoteRequest) :
    (remoteHandler signer hashSecret ice q).Only Write.KeepsCodes := by
  cases q with
  | createSession userId deviceId spaceId input context => exact (keepsCodes_createSession ..).map _
  | listSessions userId spaceId limit =>
    refine Prog.Only.map (((only_requirePermission ..).mono fun w hw => hw.keepsCodes).bind fun _ => ?_) _
    exact keepsCodes_expireStale.bind fun _ => .stmt trivial fun _ => trivial
  | getSession userId sessionId => exact ((only_getSession ..).mono fun w hw => hw.keepsCodes).map _
  | heartbeat userId sessionId =>
    refine Prog.Only.map (((only_requireViewerSession ..).mono fun w hw => hw.keepsCodes).bind fun _ => ?_) _
    split
    · trivial
    · rw [newDate_bind]
      exact .stmt trivial fun _ => (keepsCodes_updateSession ..).bind fun _ => trivial
  | signal userId sessionId input => exact (keepsCodes_postSignal ..).map _
  | signals userId sessionId => exact (keepsCodes_collectSignals ..).map _
  | endSession userId sessionId reason context => exact (keepsCodes_endSession ..).map _
  | grants principal => exact (keepsCodes_pendingGrantsFor _).map _
  | hostSignal principal sessionId input => exact (keepsCodes_postSignal ..).map _
  | hostSignals principal sessionId => exact (keepsCodes_collectSignals ..).map _
  | connected principal sessionId localType remoteType =>
    refine Prog.Only.map (((only_requireHostSession ..).mono fun w hw => hw.keepsCodes).bind fun _ => ?_) _
    refine (Prog.only_raiseIf _ _).bind fun _ => ?_
    rw [newDate_bind]
    exact .stmt trivial fun w => (keepsCodes_updateSession ..).bind fun _ => .stmt trivial fun _ => trivial
  | violation principal sessionId count =>
    refine Prog.Only.map (((only_requireHostSession ..).mono fun w hw => hw.keepsCodes).bind fun _ => ?_) _
    exact (keepsCodes_updateSession ..).bind fun _ => .stmt trivial fun _ => trivial
  | revoke deviceId => exact (keepsCodes_endSessionsForDevice _).map _

end KeepsCodes

/-! ## What a call has shown -/

/-- The statement takes effect: it changes more than codes, or notes a success. -/
def Write.Acts : Write → Prop
  | .select _ => False
  | .clock => False
  | .random => False
  | .challenges _ => False
  | .audit row => row.outcome = "success"
  | _ => True

/-- What uses up a code that is free. -/
def useUp (id : String) (now : Date) : Op ChallengeRow :=
  .update (fun c => c.id = id ∧ c.consumedAt = none) fun c => { c with consumedAt := some now }

section Traces

variable {S W Q : Type} (part : S → World) (inj : Write → W)

/-- The statement uses up the code. -/
def UsesUp (id : String) (step : Step S W Q) : Prop :=
  (∃ now, step.write = inj (.challenges (useUp id now))) ∧
    ∃ c ∈ (part step.before).challenges, c.id = id ∧ c.consumedAt = none

/-- The thread has found that the user has the permission in the Space. -/
def Permitted (userId spaceId permission : String) (own : List (Step S W Q)) : Prop :=
  ∃ read ∈ own, ∃ clock ∈ own, ∃ m, findMember userId spaceId (part read.before) = some m ∧
    evaluatePermission m permission (part clock.before).clock = none

/-- The thread has found a free step-up code of the user, and has used it up. -/
def Confirmed (userId : String) (own : List (Step S W Q)) : Prop :=
  ∃ read ∈ own, ∃ c ∈ (part read.before).challenges, c.userId = userId ∧ c.purpose = "step_up" ∧
    c.consumedAt = none ∧ ∃ taken ∈ own, UsesUp part inj c.id taken

variable {part inj} {userId spaceId : String} {own final : List (Step S W Q)}

theorem Permitted.mono {permission : String} (h : Permitted part userId spaceId permission own)
    (hsubset : own ⊆ final) : Permitted part userId spaceId permission final := by
  obtain ⟨read, hread, clock, hclock, hm⟩ := h
  exact ⟨read, hsubset hread, clock, hsubset hclock, hm⟩

theorem Confirmed.mono (h : Confirmed part inj userId own) (hsubset : own ⊆ final) :
    Confirmed part inj userId final := by
  obtain ⟨read, hread, c, hc, huser, hpurpose, hfree, taken, htaken, huses⟩ := h
  exact ⟨read, hsubset hread, c, hc, huser, hpurpose, hfree, taken, hsubset htaken, huses⟩

variable {E : W → Prop} {L : List (Step S W Q) → Prop} {i : Nat} {q : Q} {hashSecret : String → String}

theorem traces_requirePermission (hE : ∀ w, E (inj w) → w.Acts) (permission : String)
    (context : Option RequestContext) :
    ((requirePermission userId spaceId permission context).lift part inj).Traces
      (fun step own => E step.write → L own) i q (fun r final => own <:+ final ∧
        ∀ m, r = .ok m → Permitted part userId spaceId permission final) own := by
  unfold requirePermission
  rw [select_bind]
  refine .stmt (fun s h => (hE _ h).elim) fun s => ?_
  dsimp only
  split
  · exact ⟨List.suffix_cons _ _, fun _ h => nomatch h⟩
  rename_i m hm
  rw [newDate_bind]
  refine .stmt (fun s h => (hE _ h).elim) fun s' => ?_
  have hsuffix : own <:+ ⟨i, q, inj .clock, s'⟩ :: ⟨i, q, inj (.select .members), s⟩ :: own :=
    (List.suffix_cons _ _).trans (List.suffix_cons _ _)
  dsimp only
  split
  · -- The refusal is recorded, which is no effect.
    rw [record_bind]
    refine .stmt (fun s h => absurd (hE _ h) (by simp [Write.Acts])) fun s'' => ?_
    exact ⟨hsuffix.trans (List.suffix_cons _ _), fun _ h => nomatch h⟩
  · rename_i hallowed
    refine ⟨hsuffix, fun _ _ => ⟨_, List.mem_cons_of_mem _ List.mem_cons_self, _, List.mem_cons_self, m, hm, ?_⟩⟩
    exact hallowed

/-- What `consume` does when the code is wrong. -/
theorem traces_wrongCode (hE : ∀ w, E (inj w) → w.Acts) (id : String) :
    (Prog.lift part inj (do
      let updated ← updateChallenge id fun c => { c with attempts := c.attempts + 1 }
      if updated.maxAttempts - updated.attempts = 0 then do
        let burned ← newDate
        let _ ← updateChallenge id fun c => { c with consumedAt := some burned }
        .done (.error .invalidCode)
      else .done (.error .invalidCode) : Service (Except ConsumeFault ChallengeRow))).Traces
      (fun step own => E step.write → L own) i q
      (fun r final => own <:+ final ∧ ∀ a, r = .ok a → ∃ e, a = .error e) own := by
  have hupdate : ∀ data, (updateChallenge id data).Only fun w => ¬ w.Acts := by
    intro data
    refine .stmt (by simp [Write.Acts]) fun w => ?_
    split <;> trivial
  refine .idle (Prog.Only.lift (P := fun w => ¬ w.Acts) ?_ fun w hw h => hw (hE w h)) (Prog.Answers.lift ?_)
  · refine (hupdate _).bind fun updated => ?_
    split
    · exact .stmt (by simp [Write.Acts]) fun w => (hupdate _).bind fun _ => trivial
    · trivial
  · refine (Prog.answers_true _).bind fun updated _ => ?_
    split
    · rw [newDate_bind]
      exact fun w => (Prog.answers_true _).bind fun _ _ => ⟨_, rfl⟩
    · exact ⟨_, rfl⟩

/-- A code that is accepted was free, and has been used up. -/
theorem traces_consume (hE : ∀ w, E (inj w) → w.Acts) (challengeId code : String) :
    ((consume hashSecret challengeId code "step_up").lift part inj).Traces
      (fun step own => E step.write → L own) i q (fun r final => own <:+ final ∧
        ∀ c, r = .ok (.ok c) → Confirmed part inj c.userId final) own := by
  have hends : ∀ {e : ConsumeFault} {final : List (Step S W Q)}, own <:+ final →
      ((Prog.done (.error e) : Service (Except ConsumeFault ChallengeRow)).lift part inj).Traces
        (fun step own => E step.write → L own) i q (fun r final => own <:+ final ∧
          ∀ c, r = .ok (.ok c) → Confirmed part inj c.userId final) final :=
    fun hsuffix => ⟨hsuffix, fun _ h => nomatch h⟩
  unfold consume
  rw [select_bind]
  refine .stmt (fun s h => (hE _ h).elim) fun s => ?_
  have hread : own <:+ ⟨i, q, inj (.select .challenges), s⟩ :: own := List.suffix_cons _ _
  dsimp only
  split
  · exact hends hread
  rename_i c hfound
  split
  · exact hends hread
  rename_i hpurpose
  split
  · exact hends hread
  rename_i hfree
  rw [newDate_bind]
  refine .stmt (fun s h => (hE _ h).elim) fun s₁ => ?_
  have hnow := hread.trans (List.suffix_cons ⟨i, q, inj .clock, s₁⟩ _)
  dsimp only
  split
  · exact hends hnow
  split
  · exact hends hnow
  split
  · -- A wrong code: whatever is counted, nothing is accepted.
    refine (traces_wrongCode hE c.id).mono fun r final hfinal => ⟨hnow.trans hfinal.1, fun c' hc' => ?_⟩
    obtain ⟨e, he⟩ := hfinal.2 _ hc'
    cases he
  rw [newDate_bind]
  refine .stmt (fun s h => (hE _ h).elim) fun s₂ => ?_
  have hused := hnow.trans (List.suffix_cons ⟨i, q, inj .clock, s₂⟩ _)
  dsimp only
  rw [Prog.perform_bind]
  refine .stmt (fun s h => (hE _ h).elim) fun s₃ => ?_
  dsimp only
  split
  · exact hends (hused.trans (List.suffix_cons _ _))
  rename_i hcount
  refine ⟨hused.trans (List.suffix_cons _ _), fun c' hc' => ?_⟩
  obtain rfl : c = c' := Except.ok.inj (Except.ok.inj hc')
  have hmem := List.mem_of_find?_eq_some hfound
  have hlive : ∃ c' ∈ (part s₃).challenges, c'.id = c.id ∧ c'.consumedAt = none := by
    have hlength := List.length_pos_iff_exists_mem.mp (Nat.pos_of_ne_zero hcount)
    obtain ⟨c', hc'⟩ := hlength
    obtain ⟨hmem, hc'⟩ := List.mem_filter.mp hc'
    exact ⟨c', hmem, of_decide_eq_true hc'⟩
  refine ⟨⟨i, q, inj (.select .challenges), s⟩, by simp, c, hmem, rfl, not_not.mp hpurpose, ?_, _,
    List.mem_cons_self, ⟨_, rfl⟩, hlive⟩
  exact Option.not_isSome_iff_eq_none.mp hfree

/-- The check of a step-up lets only a confirmed call go on. -/
theorem traces_accept (hE : ∀ w, E (inj w) → w.Acts) (challengeId code : String) {row : AuditRow}
    (hrow : row.outcome ≠ "success") (e : HttpException) :
    (Prog.lift part inj (do
      let result ← consume hashSecret challengeId code "step_up"
      if result.toOption.any (·.userId = userId) then .done ()
      else do
        record row
        .raise e : Service Unit)).Traces (fun step own => E step.write → L own) i q
      (fun r final => own <:+ final ∧ (r = .ok () → Confirmed part inj userId final)) own := by
  rw [Prog.lift_bind]
  refine (traces_consume hE challengeId code).bind (fun result final h => ?_) fun e final h => ⟨h.1, nofun⟩
  split
  · rename_i haccepted
    refine ⟨h.1, fun _ => ?_⟩
    cases result with
    | ok c =>
      have huser : c.userId = userId := by simpa [Except.toOption] using haccepted
      exact huser ▸ h.2 c rfl
    | error e => simp [Except.toOption] at haccepted
  · rw [record_bind]
    exact .stmt (fun s hacts => absurd (hE _ hacts) hrow) fun s => ⟨h.1.trans (List.suffix_cons _ _), nofun⟩

theorem traces_verifyStepUp (hE : ∀ w, E (inj w) → w.Acts) (input : CreateRemoteSessionRequest)
    (context : RequestContext) :
    ((verifyStepUp hashSecret userId spaceId input context).lift part inj).Traces
      (fun step own => E step.write → L own) i q
      (fun r final => own <:+ final ∧ (r = .ok () → Confirmed part inj userId final)) own := by
  unfold verifyStepUp
  split
  · exact traces_accept hE _ _ (by simp) _
  · exact ⟨List.suffix_refl _, nofun⟩

theorem traces_verifyPowerStepUp (hE : ∀ w, E (inj w) → w.Acts) (input : PowerCommandRequest)
    (context : RequestContext) :
    ((verifyPowerStepUp hashSecret userId spaceId input context).lift part inj).Traces
      (fun step own => E step.write → L own) i q
      (fun r final => own <:+ final ∧ (r = .ok () → Confirmed part inj userId final)) own := by
  unfold verifyPowerStepUp
  split
  · exact traces_accept hE _ _ (by simp) _
  · exact ⟨List.suffix_refl _, nofun⟩

theorem traces_stepUpFor (hE : ∀ w, E (inj w) → w.Acts) (input : CreateRemoteSessionRequest)
    (context : RequestContext) :
    ((stepUpFor hashSecret userId spaceId input context).lift part inj).Traces
      (fun step own => E step.write → L own) i q (fun r final => own <:+ final ∧
        (r = .ok () → input.mode = .control → Confirmed part inj userId final)) own := by
  unfold stepUpFor
  split
  · exact (traces_verifyStepUp hE input context).mono fun r final h => ⟨h.1, fun hr _ => h.2 hr⟩
  · rename_i hview
    exact ⟨List.suffix_refl _, fun _ hcontrol => absurd hcontrol hview⟩

theorem traces_requirePermissions (hE : ∀ w, E (inj w) → w.Acts) (context : RequestContext)
    (permissions : List String) :
    ((requirePermissions userId spaceId context permissions).lift part inj).Traces
      (fun step own => E step.write → L own) i q (fun r final => own <:+ final ∧
        (r = .ok () → ∀ p ∈ permissions, Permitted part userId spaceId p final)) own := by
  induction permissions generalizing own with
  | nil => exact ⟨List.suffix_refl _, fun _ p hp => nomatch hp⟩
  | cons permission rest ih =>
    unfold requirePermissions
    rw [Prog.lift_bind]
    refine (traces_requirePermission hE permission (some context)).bind (fun m mid h => ?_) fun e mid h => ⟨h.1, nofun⟩
    refine ih.mono fun r final hfinal => ⟨h.1.trans hfinal.1, fun hr p hp => ?_⟩
    rcases List.mem_cons.mp hp with rfl | hp
    · exact (h.2 m rfl).mono hfinal.1.subset
    · exact hfinal.2 hr p hp

/-! ## The calls -/

/-- The thread has found that the user has the permissions, and has confirmed what is sensitive. -/
structure Authorised (part : S → World) (inj : Write → W) (userId spaceId : String) (permissions : List String)
    (sensitive : Prop) (own : List (Step S W Q)) : Prop where
  permitted : ∀ p ∈ permissions, Permitted part userId spaceId p own
  confirmed : sensitive → Confirmed part inj userId own

theorem Authorised.mono {permissions : List String} {sensitive : Prop}
    (h : Authorised part inj userId spaceId permissions sensitive own) (hsubset : own ⊆ final) :
    Authorised part inj userId spaceId permissions sensitive final :=
  ⟨fun p hp => (h.permitted p hp).mono hsubset, fun hs => (h.confirmed hs).mono hsubset⟩

/-- What stands behind the check of a permission, and asks for no code. -/
theorem traces_behind {α : Type} {sensitive : Prop} (hE : ∀ w, E (inj w) → w.Acts) (hs : ¬ sensitive)
    (permission : String) (context : Option RequestContext) (f : MemberRow → Service α) :
    ((requirePermission userId spaceId permission context >>= f).lift part inj).Traces
      (fun step own => E step.write → Authorised part inj userId spaceId [permission] sensitive own) i q
      (fun r final => ∀ a, r = .ok a → Authorised part inj userId spaceId [permission] sensitive final) own := by
  rw [Prog.lift_bind]
  refine Prog.Traces.andThen (fun _ _ h => h.mono (List.subset_cons_self _ _)) ?_ _
  refine (traces_requirePermission hE permission context).mono fun r final h m hm => ?_
  exact ⟨fun p hp => List.mem_singleton.mp hp ▸ h.2 m hm, fun h => absurd h hs⟩

/-- **A session is created** only by a call that has shown its permissions and, for control, a code. -/
theorem traces_createSession (hE : ∀ w, E (inj w) → w.Acts) (ice : Ice) (deviceId : String)
    (input : CreateRemoteSessionRequest) (context : RequestContext) :
    ((createSession hashSecret ice userId deviceId spaceId input context).lift part inj).Traces
      (fun step own => E step.write →
        Authorised part inj userId spaceId input.mode.permissions (input.mode = .control) own) i q
      (fun r final => ∀ a, r = .ok a →
        Authorised part inj userId spaceId input.mode.permissions (input.mode = .control) final) own := by
  unfold createSession
  rw [Prog.lift_bind]
  refine (traces_requirePermissions hE context _).bind (fun _ mid h => ?_) fun e mid h a ha => by cases ha
  rw [select_bind]
  refine .stmt (fun s hacts => (hE _ hacts).elim) fun s => ?_
  have hpermitted := h.2 rfl
  dsimp only
  split
  · exact fun a ha => by cases ha
  split
  · exact fun a ha => by cases ha
  rw [newDate_bind]
  refine .stmt (fun s hacts => (hE _ hacts).elim) fun s' => ?_
  dsimp only
  rw [Prog.raiseIf_bind]
  split
  · exact fun a ha => by cases ha
  rw [Prog.lift_bind]
  refine (traces_stepUpFor hE input context).bind (fun _ mid' h' => ?_) fun e mid' h' a ha => by cases ha
  have hsubset := (((List.suffix_cons _ _).trans (List.suffix_cons _ _)).trans h'.1).subset
  have hauthorised : Authorised part inj userId spaceId input.mode.permissions (input.mode = .control) mid' :=
    ⟨fun p hp => (hpermitted p hp).mono hsubset, h'.2 rfl⟩
  -- From here on the thread may do anything.
  refine (Prog.Traces.licensed (fun _ _ hL => ?_) hauthorised _).mono fun _ _ hfinal _ _ => hfinal
  exact hL.mono (List.subset_cons_self _ _)

/-- **A command is issued** only by a call that has shown its permission and, if it is destructive, a code. -/
theorem traces_requestCommand (hE : ∀ w, E (inj w) → w.Acts) (deviceId : String) (input : PowerCommandRequest)
    (context : RequestContext) :
    ((requestCommand hashSecret userId deviceId spaceId input context).lift part inj).Traces
      (fun step own => E step.write →
        Authorised part inj userId spaceId [input.action.permission] input.action.destructive own) i q
      (fun r final => ∀ a, r = .ok a →
        Authorised part inj userId spaceId [input.action.permission] input.action.destructive final) own := by
  have hmono : ∀ (s : Step S W Q) (final : List (Step S W Q)),
      Authorised part inj userId spaceId [input.action.permission] input.action.destructive final →
        Authorised part inj userId spaceId [input.action.permission] input.action.destructive (s :: final) :=
    fun s final h => h.mono (List.subset_cons_self _ _)
  unfold requestCommand
  rw [Prog.lift_bind]
  refine (traces_requirePermission hE _ _).bind (fun m mid h => ?_) fun e mid h a ha => nomatch ha
  have hpermitted := h.2 m rfl
  rw [select_bind]
  refine .stmt (fun s hacts => (hE _ hacts).elim) fun s => ?_
  have hmid : mid ⊆ ⟨i, q, inj (.select .agents), s⟩ :: mid := List.subset_cons_self _ _
  have hauthorised : ∀ {final : List (Step S W Q)}, mid ⊆ final →
      (input.action.destructive → Confirmed part inj userId final) →
        Authorised part inj userId spaceId [input.action.permission] input.action.destructive final :=
    fun hsubset hconfirmed => ⟨fun p hp => List.mem_singleton.mp hp ▸ hpermitted.mono hsubset, hconfirmed⟩
  dsimp only
  split
  · exact fun a ha => nomatch ha
  split
  · exact fun a ha => nomatch ha
  split
  · rename_i hcancel
    have hmild : ¬ input.action.destructive := by
      rw [hcancel]
      decide
    exact (Prog.Traces.licensed hmono (hauthorised hmid fun h => absurd h hmild) _).mono
      fun _ _ hfinal _ _ => hfinal
  rw [issueCommand_eq]
  split
  · rw [Prog.lift_bind]
    refine (traces_verifyPowerStepUp hE input context).bind (fun _ mid' h' => ?_) fun e mid' h' a ha => nomatch ha
    exact (Prog.Traces.licensed hmono (hauthorised (List.Subset.trans hmid h'.1.subset) fun _ => h'.2 rfl) _).mono
      fun _ _ hfinal _ _ => hfinal
  · rename_i hmild
    exact (Prog.Traces.licensed hmono (hauthorised hmid fun h => absurd h hmild) _).mono
      fun _ _ hfinal _ _ => hfinal

end Traces

end Api
