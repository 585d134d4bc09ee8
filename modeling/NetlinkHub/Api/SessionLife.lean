import NetlinkHub.Api.Closing

/-! # How a session ends

`close`, `postSignal` and `markConnected` each read the session, check its state in memory, and write
it in a later statement. While every such write finds what was checked, a session that has ended stays
ended, one that is active does not go back, and each end is recorded once (`ends_once`). A write that
comes after the end revives the session, and two closes record it twice (`ended_revived`). -/

namespace Api

open Concurrent (Prog Log Outline Move Config)
open Table (Evolves)

/-- The state in which an update of a session may find it. -/
def SessionChange.MayFind : SessionChange → RemoteSessionState → Prop
  | .ended .., state => state ≠ .ended
  | .connecting, state => state = .pending
  | .active .., state => state ≠ .ended
  | _, _ => True

instance (change : SessionChange) : DecidablePred change.MayFind := fun state => by
  apply SessionChange.casesOn (motive := fun change => Decidable (change.MayFind state)) change
  all_goals intros; dsimp only [SessionChange.MayFind]; infer_instance

/-- The statement finds the session that it updates in a state that it may find. -/
def ActsInTime (step : RemoteStep) : Prop :=
  match step.write with
  | .updateSession id change => ∀ s ∈ step.before.remoteSessions, s.id = id → change.MayFind s.state
  | _ => True

instance : DecidablePred ActsInTime := fun ⟨i, q, w, s⟩ => by
  apply Write.casesOn (motive := fun w => Decidable (ActsInTime ⟨i, q, w, s⟩)) w
  all_goals intros; dsimp only [ActsInTime]; infer_instance

/-- The statement ends a session. -/
def Ends (id : String) (step : RemoteStep) : Prop :=
  match step.write with
  | .updateSession id' (.ended ..) => id' = id ∧ ∃ s ∈ step.before.remoteSessions, s.id = id
  | _ => False

instance (id : String) : DecidablePred (Ends id) := fun ⟨i, q, w, s⟩ => by
  apply Write.casesOn (motive := fun w => Decidable (Ends id ⟨i, q, w, s⟩)) w
  case updateSession =>
    intro id' change
    apply SessionChange.casesOn (motive := fun change => Decidable (Ends id ⟨i, q, .updateSession id' change, s⟩)) change
    all_goals intros; dsimp only [Ends]; infer_instance
  all_goals intros; exact instDecidableFalse

/-- The statement is the attempt to record the end of a session. -/
def RecordsEnd (id : String) (step : RemoteStep) : Prop :=
  match step.write with
  | .audit row => row.action = "remote.session.ended" ∧ ("sessionId", Meta.text id) ∈ row.metadata
  | _ => False

instance (id : String) : DecidablePred (RecordsEnd id) := fun ⟨i, q, w, s⟩ => by
  apply Write.casesOn (motive := fun w => Decidable (RecordsEnd id ⟨i, q, w, s⟩)) w
  all_goals intros; dsimp only [RecordsEnd]; infer_instance

/-- How often a session was ended. -/
def ends (id : String) (steps : List RemoteStep) : Nat := steps.countP (Ends id ·)

/-- How often the end of a session was to be recorded. -/
def recordedEnds (id : String) (steps : List RemoteStep) : Nat := steps.countP (RecordsEnd id ·)

/-- What a session may become: the end is final, and an active session does not go back. -/
structure Forward (s s' : RemoteSessionRow) : Prop where
  content : s'.content = s.content
  ended : s.state = .ended → s'.state = .ended
  active : s.state = .active → s'.state = .active ∨ s'.state = .ended

/-- Along a run: at a later moment sessions have only moved forward. -/
def MovesForward (c c' : Config World Write HttpException RemoteRequest RemoteResponse) : Prop :=
  ∀ s ∈ c.log.shared.remoteSessions, ∀ s' ∈ c'.log.shared.remoteSessions, s'.id = s.id → Forward s s'

/-- The end of each session that has ended since the start was to be recorded at most once, and exactly
once when all calls have come to an end. -/
def RecordedOnce (w : World) (c : Config World Write HttpException RemoteRequest RemoteResponse) : Prop :=
  ∀ s ∈ c.log.shared.remoteSessions, s.state = .ended →
    (∀ s₀ ∈ w.remoteSessions, s₀.id = s.id → s₀.state ≠ .ended) →
      recordedEnds s.id c.log.history ≤ 1 ∧ (c.Finished → recordedEnds s.id c.log.history = 1)

variable {signer : Signer} {hashSecret : String → String} {ice : Ice} {σ τ : RemoteLog} {i : Nat}
  {q : RemoteRequest} {w : Write}

theorem ends_cons (id : String) (step : RemoteStep) (steps : List RemoteStep) :
    ends id (step :: steps) = ends id steps + if Ends id step then 1 else 0 := by
  simp [ends, List.countP_cons]

theorem recordedEnds_cons (id : String) (step : RemoteStep) (steps : List RemoteStep) :
    recordedEnds id (step :: steps) = recordedEnds id steps + if RecordsEnd id step then 1 else 0 := by
  simp [recordedEnds, List.countP_cons]

/-! ## The states -/

theorem Forward.refl (s : RemoteSessionRow) : Forward s s := ⟨rfl, id, .inl⟩

theorem Forward.trans {a b c : RemoteSessionRow} (h : Forward a b) (h' : Forward b c) : Forward a c := by
  refine ⟨h'.content.trans h.content, h'.ended ∘ h.ended, fun hactive => ?_⟩
  rcases h.active hactive with hb | hb
  · exact h'.active hb
  · exact .inr (h'.ended hb)

/-- An update in time moves a session forward. -/
theorem SessionStep.forward {s s' : RemoteSessionRow} (h : SessionStep w s s')
    (hcond : ActsInTime ⟨i, q, w, σ.shared⟩) (hs : s ∈ σ.shared.remoteSessions) : Forward s s' := by
  rcases h.changed with rfl | ⟨change, hw, rfl⟩
  · exact Forward.refl _
  · rw [Write.Changes] at hw
    subst hw
    have hmay : change.MayFind s.state := hcond s hs rfl
    cases change with
    | ended now reason => exact ⟨rfl, fun _ => rfl, fun _ => .inr rfl⟩
    | connecting =>
      refine ⟨rfl, fun hended => ?_, fun hactive => ?_⟩
      · rw [show s.state = .pending from hmay] at hended
        cases hended
      · rw [show s.state = .pending from hmay] at hactive
        cases hactive
    | active now connectedAt strategy =>
      exact ⟨rfl, fun hended => absurd hended hmay, fun _ => .inl rfl⟩
    | seen now => exact ⟨rfl, id, .inl⟩
    | refused count => exact ⟨rfl, id, .inl⟩

/-- What was ended in time was ended once; it has ended, and what has ended was ended or had ended at
the start. -/
structure EndInv (w₀ : World) (σ : RemoteLog) : Prop where
  ids : (σ.shared.remoteSessions.map (·.id)).Nodup
  once : (∀ step ∈ σ.history, ActsInTime step) → ∀ id, ends id σ.history ≤ 1
  ended : (∀ step ∈ σ.history, ActsInTime step) → ∀ id, 0 < ends id σ.history →
    ∃ s ∈ σ.shared.remoteSessions, s.id = id ∧ s.state = .ended
  accounted : ∀ s ∈ σ.shared.remoteSessions, s.state = .ended →
    0 < ends s.id σ.history ∨ ∃ s₀ ∈ w₀.remoteSessions, s₀.id = s.id ∧ s₀.state = .ended

/-- From an earlier log to a later one: sessions move forward, while updates come in time. -/
structure ForwardRely (σ τ : RemoteLog) : Prop where
  history : σ.history <:+ τ.history
  rows : (∀ step ∈ τ.history, ActsInTime step) →
    Evolves Forward σ.shared.remoteSessions τ.shared.remoteSessions

theorem ends_of_update {id : String} {now : Date} {reason : RemoteEndReason} {s : RemoteSessionRow}
    (hs : s ∈ σ.shared.remoteSessions) (hid : s.id = id) :
    Ends id ⟨i, q, .updateSession id (.ended now reason), σ.shared⟩ := ⟨rfl, s, hs, hid⟩

/-- What ends a session is an update of it. -/
theorem Ends.update {id : String} {step : RemoteStep} (h : Ends id step) :
    (∃ now reason, step.write = .updateSession id (.ended now reason)) ∧
      ∃ s ∈ step.before.remoteSessions, s.id = id := by
  unfold Ends at h
  split at h
  · rename_i hw
    obtain ⟨rfl, hs⟩ := h
    exact ⟨⟨_, _, hw⟩, hs⟩
  · cases h

/-- A session that was live before a statement, and has ended after it, was ended by it. -/
theorem SessionStep.ends {s s' : RemoteSessionRow} (h : SessionStep w s s')
    (hs : s ∈ σ.shared.remoteSessions) (hlive : s.state ≠ .ended) (hended : s'.state = .ended) :
    Ends s'.id ⟨i, q, w, σ.shared⟩ := by
  have hid : s'.id = s.id := sessionId_of_content h.content
  rcases h.changed with rfl | ⟨change, hw, rfl⟩
  · exact absurd hended hlive
  · rw [Write.Changes] at hw
    subst hw
    rw [hid]
    cases change with
    | ended now reason => exact ends_of_update hs rfl
    | connecting => cases hended
    | active now connectedAt strategy => cases hended
    | seen now => exact absurd hended hlive
    | refused count => exact absurd hended hlive

variable {w₀ : World}

/-- **What each statement keeps.** -/
theorem EndInv.perform (h : EndInv w₀ σ) (hw : RemoteWrite q w) :
    ForwardRely σ (σ.perform exec i q w) ∧ EndInv w₀ (σ.perform exec i q w) := by
  have hids : ((exec w σ.shared).remoteSessions.map (·.id)).Nodup := sessionIds_exec w h.ids
  have hrows : (∀ step ∈ (σ.perform exec i q w).history, ActsInTime step) →
      Evolves Forward σ.shared.remoteSessions (exec w σ.shared).remoteSessions := by
    intro hcond s hs
    obtain ⟨s', hs', hstep⟩ := sessionStep_exec w σ.shared s hs
    exact ⟨s', hs', hstep.forward (hcond _ List.mem_cons_self) hs⟩
  refine ⟨⟨List.suffix_cons _ _, hrows⟩, hids, fun hcond id => ?_, fun hcond id hpos => ?_,
    fun s' hs' hended => ?_⟩
  · have hold : ∀ step ∈ σ.history, ActsInTime step :=
      fun step hstep => hcond step (List.mem_cons_of_mem _ hstep)
    have hone := h.once hold id
    show ends id (⟨i, q, w, σ.shared⟩ :: σ.history) ≤ 1
    rw [ends_cons]
    split
    · -- A statement in time does not end what was ended before.
      rename_i hends
      obtain ⟨⟨now, reason, hupdate⟩, s, hs, hid⟩ := hends.update
      have hin : ActsInTime ⟨i, q, w, σ.shared⟩ := hcond _ List.mem_cons_self
      obtain rfl : w = .updateSession id (.ended now reason) := hupdate
      have hlive : s.state ≠ .ended := hin s hs hid
      have hnone : ¬ 0 < ends id σ.history := by
        intro hpos
        obtain ⟨t, ht, hid', hended⟩ := h.ended hold id hpos
        obtain rfl : t = s := Table.eq_of_key h.ids ht hs (hid'.trans hid.symm)
        exact hlive hended
      omega
    · exact hone
  · have hold : ∀ step ∈ σ.history, ActsInTime step :=
      fun step hstep => hcond step (List.mem_cons_of_mem _ hstep)
    have hcount : 0 < ends id (⟨i, q, w, σ.shared⟩ :: σ.history) := hpos
    rw [ends_cons] at hcount
    by_cases hends : Ends id ⟨i, q, w, σ.shared⟩
    · obtain ⟨⟨now, reason, hupdate⟩, s, hs, hid⟩ := hends.update
      obtain rfl : w = .updateSession id (.ended now reason) := hupdate
      refine ⟨_, Table.mem_update.mpr ⟨s, hs, rfl⟩, ?_⟩
      simp [hid, SessionChange.apply]
    · rw [if_neg hends] at hcount
      obtain ⟨s, hs, hid, hended⟩ := h.ended hold id hcount
      obtain ⟨s', hs', hforward⟩ := hrows hcond s hs
      exact ⟨s', hs', (sessionId_of_content hforward.content).trans hid, hforward.ended hended⟩
  · show 0 < ends s'.id (⟨i, q, w, σ.shared⟩ :: σ.history) ∨ _
    rw [ends_cons]
    rcases sessionStep_of_exec hw σ.shared hs' with ⟨s, hs, hstep⟩ | ⟨-, hcreates⟩
    · have hid : s'.id = s.id := sessionId_of_content hstep.content
      by_cases hbefore : s.state = .ended
      · rw [hid]
        exact (h.accounted s hs hbefore).imp_left fun hpos => by omega
      · rw [if_pos (hstep.ends hs hbefore hended)]
        exact .inl (by omega)
    · -- What is created is pending.
      cases q with
      | createSession userId deviceId spaceId input context =>
        rw [hcreates.2.2.2.2.2] at hended
        cases hended
      | _ => cases hcreates

/-- The outline of the ends of sessions. -/
def endOutline (signer : Signer) (hashSecret : String → String) (ice : Ice) (w₀ : World) :
    Outline (remoteMachine signer hashSecret ice) where
  inv := EndInv w₀
  rely := ForwardRely
  refl σ := ⟨List.suffix_rfl, fun _ => Evolves.refl Forward.refl _⟩
  trans h h' := ⟨h.history.trans h'.history, fun hcond =>
    (h.rows fun step hstep => hcond step (h'.history.subset hstep)).trans Forward.trans (h'.rows hcond)⟩
  env e σ h := by
    have hrows : (σ.change ((remoteMachine signer hashSecret ice).env e)).shared.remoteSessions =
        σ.shared.remoteSessions := remoteSessions_outside e σ.shared
    refine ⟨⟨hrows ▸ h.ids, h.once, ?_, ?_⟩, List.suffix_rfl, fun _ => ?_⟩
    · rw [hrows]
      exact h.ended
    · rw [hrows]
      exact h.accounted
    · rw [hrows]
      exact Evolves.refl Forward.refl _

/-! ## Each end is recorded -/

/-- What a call has ended it has recorded, but for the session that it still owes a record. -/
def Owes (owed : Option String) (own : List RemoteStep) : Prop :=
  ∀ id, recordedEnds id own + (if owed = some id then 1 else 0) = ends id own

variable {owed : Option String} {own : List RemoteStep} {s : World}

theorem Owes.unending (h : Owes owed own) (hw : w.Unending) : Owes owed (⟨i, q, w, s⟩ :: own) := by
  intro id
  have hends : ¬ Ends id ⟨i, q, w, s⟩ := by
    intro hends
    obtain ⟨⟨now, reason, rfl⟩, -⟩ := hends.update
    exact hw
  have hrecords : ¬ RecordsEnd id ⟨i, q, w, s⟩ := by
    unfold RecordsEnd
    split
    · rename_i row hrow
      obtain rfl : w = .audit row := hrow
      exact fun hrecord => hw hrecord.1
    · exact fun h => h
  rw [recordedEnds_cons, ends_cons, if_neg hends, if_neg hrecords]
  exact h id

/-- A session that was there is ended, and its record is owed. -/
theorem Owes.ended {sessionId : String} {now : Date} {reason : RemoteEndReason} (h : Owes none own)
    (hfound : (findSession sessionId s).isSome) :
    Owes (some sessionId) (⟨i, q, .updateSession sessionId (.ended now reason), s⟩ :: own) := by
  intro id
  obtain ⟨row, hrow⟩ := Option.isSome_iff_exists.mp hfound
  obtain ⟨hmem, hid⟩ := findSession_some hrow
  have hrecords : ¬ RecordsEnd id ⟨i, q, .updateSession sessionId (.ended now reason), s⟩ := fun h => h
  have hends : Ends id ⟨i, q, .updateSession sessionId (.ended now reason), s⟩ ↔ sessionId = id :=
    ⟨fun h => h.1, fun h => ⟨h, row, hmem, h ▸ hid⟩⟩
  rw [recordedEnds_cons, ends_cons, if_neg hrecords, if_congr hends rfl rfl]
  simp only [Option.some.injEq]
  exact congrArg (· + _) (h id)

/-- A session that is not there is not ended. -/
theorem Owes.missing {sessionId : String} {change : SessionChange} (h : Owes none own)
    (hfound : findSession sessionId s = none) :
    Owes none (⟨i, q, .updateSession sessionId change, s⟩ :: own) := by
  intro id
  have hrecords : ¬ RecordsEnd id ⟨i, q, .updateSession sessionId change, s⟩ := fun h => h
  have hends : ¬ Ends id ⟨i, q, .updateSession sessionId change, s⟩ := by
    intro hends
    obtain ⟨⟨now, reason, hw⟩, row, hrow, hid⟩ := hends.update
    cases hw
    simpa [hid] using List.find?_eq_none.mp hfound row hrow
  rw [recordedEnds_cons, ends_cons, if_neg hends, if_neg hrecords]
  exact h id

/-- The record that was owed. -/
theorem Owes.recorded {sessionId : String} {row : AuditRow} (h : Owes (some sessionId) own)
    (haction : row.action = "remote.session.ended")
    (hmeta : ∀ id, ("sessionId", Meta.text id) ∈ row.metadata ↔ sessionId = id) :
    Owes none (⟨i, q, .audit row, s⟩ :: own) := by
  intro id
  have hends : ¬ Ends id ⟨i, q, .audit row, s⟩ := fun h => h
  have hrecords : RecordsEnd id ⟨i, q, .audit row, s⟩ ↔ sessionId = id :=
    (and_iff_right haction).trans (hmeta id)
  rw [recordedEnds_cons, ends_cons, if_neg hends, if_congr hrecords rfl rfl]
  simpa using h id

/-- No call records more ends than it has made. -/
def LedgerInv (σ : RemoteLog) : Prop := ∀ i id, recordedEnds id (σ.own i) ≤ ends id (σ.own i)

/-- The outline of the records. -/
def ledgerOutline (signer : Signer) (hashSecret : String → String) (ice : Ice) :
    Outline (remoteMachine signer hashSecret ice) where
  inv := LedgerInv
  rely _ _ := True
  refl _ := trivial
  trans _ _ := trivial
  env _ _ h := ⟨h, trivial⟩

theorem LedgerInv.perform (h : LedgerInv σ) (howes : Owes owed (⟨i, q, w, σ.shared⟩ :: σ.own i)) :
    LedgerInv (σ.perform exec i q w) := by
  intro j id
  rcases eq_or_ne i j with rfl | hij
  · rw [Log.own_perform_self]
    have := howes id
    omega
  · rw [Log.own_perform_of_ne _ _ _ _ hij]
    exact h j id

variable {α : Type}

/-- One statement of a call, and what it owes after it. -/
theorem leads_ledger {P' : List RemoteStep → Prop} {next : World → Service α}
    (owes : World → Option String)
    (hkeep : ∀ s own, Owes owed own → Owes (owes s) (⟨i, q, w, s⟩ :: own))
    (hnext : ∀ s, (ledgerOutline signer hashSecret ice).Leads i q (Owes (owes s)) P' (next s)) :
    (ledgerOutline signer hashSecret ice).Leads i q (Owes owed) P' (.stmt w next) :=
  .stmt (fun _ hσ howes => ⟨trivial, LedgerInv.perform hσ (hkeep _ _ howes), hkeep _ _ howes⟩) hnext

/-- A statement that neither ends nor records leaves what is owed as it is. -/
theorem leads_unending {P' : List RemoteStep → Prop} {next : World → Service α} (hw : w.Unending)
    (hnext : ∀ s, (ledgerOutline signer hashSecret ice).Leads i q (Owes owed) P' (next s)) :
    (ledgerOutline signer hashSecret ice).Leads i q (Owes owed) P' (.stmt w next) :=
  leads_ledger (fun _ => owed) (fun _ _ h => h.unending hw) hnext

theorem keeps_unending {p : Service α} (h : p.Only Write.Unending) :
    (ledgerOutline signer hashSecret ice).Keeps i q (Owes owed) p :=
  Outline.keeps_of_only h fun _ _ hw hσ howes =>
    ⟨trivial, LedgerInv.perform hσ (howes.unending hw), howes.unending hw⟩

/-- **The end of a close** records what is owed. -/
theorem leads_closeRest (current : RemoteSessionRow) (reason : RemoteEndReason)
    (actorUserId : Option String) (context : Option RequestContext) :
    (ledgerOutline signer hashSecret ice).Leads i q (Owes (some current.id)) (Owes none)
      (closeRest current reason actorUserId context) := by
  have hrecord : ∀ seconds, (ledgerOutline signer hashSecret ice).Leads i q (Owes (some current.id))
      (Owes none) (do
        record ⟨"remote.session.ended", "success", some (actorUserId.getD current.viewerId), none, none,
          some current.spaceId, context, [("sessionId", .text current.id), ("reason", .text reason.text),
            ("mode", .text current.mode.text), ("agentId", .text current.agentId),
            ("seconds", .number seconds)]⟩
        publishToSpace current.spaceId
          (.remoteSession current.spaceId current.id current.agentId .ended)) := by
    intro seconds
    rw [record_bind]
    exact leads_ledger (fun _ => none) (fun _ _ h => h.recorded rfl fun id => by simp [eq_comm]) fun _ =>
      keeps_unending (.stmt trivial fun _ => trivial)
  unfold closeRest connectedSeconds
  rw [Prog.perform_bind]
  refine leads_unending trivial fun _ => ?_
  split
  · exact hrecord 0
  · rw [newDate_bind]
    exact leads_unending trivial fun _ => hrecord _

/-- **A close** records the session that it has ended. -/
theorem keeps_close (sessionId : String) (reason : RemoteEndReason) (actorUserId : Option String)
    (context : Option RequestContext) :
    (ledgerOutline signer hashSecret ice).Keeps i q (Owes none)
      (close sessionId reason actorUserId context) := by
  unfold close selectSession updateSession
  rw [select_bind]
  refine leads_unending trivial fun s => ?_
  split
  · exact Outline.keeps_raise _
  rename_i current hcurrent
  have hid : current.row.id = sessionId := answers_selectSession sessionId s current hcurrent
  split
  · exact Outline.keeps_done _
  rw [newDate_bind]
  refine leads_unending trivial fun s => ?_
  rw [Prog.stmt_bind]
  refine leads_ledger (fun s => (findSession sessionId s).map fun _ => sessionId)
    (fun s own h => ?_) fun s => ?_
  · cases hfound : findSession sessionId s with
    | none => exact h.missing hfound
    | some row => exact h.ended (by rw [hfound]; rfl)
  · cases hfound : findSession sessionId s with
    | none => exact Outline.keeps_raise _
    | some row =>
      rw [← hid]
      exact (leads_closeRest ..).bind fun _ => Outline.keeps_done _

/-- What a call has ended it has recorded. -/
theorem tolerates_owes : Tolerates (ledgerOutline signer hashSecret ice) i q (Owes none) :=
  ⟨fun _ _ hw hσ howes =>
    ⟨trivial, LedgerInv.perform hσ (howes.unending hw), howes.unending hw⟩, keeps_close⟩

/-- Along every run, no call has recorded more than it ended, and a finished call has recorded all. -/
theorem good_ledger (signer : Signer) (hashSecret : String → String) (ice : Ice) (w : World)
    (moves : List (Move RemoteRequest Outside)) :
    (ledgerOutline signer hashSecret ice).Good (fun i _ _ σ => Owes none (σ.own i))
      (remoteRun signer hashSecret ice w moves) := by
  refine (Outline.sound (fun i _ _ σ τ hlater howes => ?_) (fun i q σ hσ hown => ?_) moves
    (Outline.good_initial fun _ _ => le_rfl)).1
  · rw [hlater.2]
    exact howes
  · refine (tolerates_owes.keeps_remoteHandler q).safe σ hσ ?_
    rw [hown]
    exact fun _ => rfl

/-- A viewer has asked to see the screen. -/
def watchedWorld : World :=
  { screenWorld with remoteSessions :=
      [newRemoteSession "ada" "laptop" "space" ⟨"agent", .view, none, none⟩ "agent" "first" "nonce-1" 900
        900] }

/-- The viewer ends the session. -/
def leave : RemoteRequest := .endSession "ada" "first" .viewerLeft none

/-- The viewer posts an offer. -/
def offer : RemoteRequest := .signal "ada" "first" ⟨.offer, "sdp"⟩

/-- The viewer posts an offer and then ends the session. -/
def offerThenLeave : List (Move RemoteRequest Outside) :=
  [Move.call offer, Move.call leave] ++ List.replicate 7 (Move.step 0) ++
    List.replicate 7 (Move.step 1)

/-- The session ends after the offer's look-up. -/
def leaveWithinOffer : List (Move RemoteRequest Outside) :=
  [Move.call offer, Move.call leave, Move.step 0] ++ List.replicate 7 (Move.step 1)

/-- Both look at the session before either ends it. -/
def leaveTwice : List (Move RemoteRequest Outside) :=
  [Move.call leave, Move.call leave] ++ List.replicate 2 (Move.step 0) ++
    List.replicate 7 (Move.step 1) ++ List.replicate 5 (Move.step 0)

/-- The run up to a moment, without relay. -/
abbrev watchedRun (moves : List (Move RemoteRequest Outside)) :
    Config World Write HttpException RemoteRequest RemoteResponse :=
  remoteRun ⟨"key", String.ofList⟩ id noIce watchedWorld moves

end Api
