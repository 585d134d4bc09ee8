import NetlinkHub.Api.PostBox

/-! # What is left in the post box of an ended session

`close` ends a session in one statement and deletes its messages in a later one; `postSignal` looks at
the session in one statement and appends the message in a later one, which does not look again. While
every message is appended before the messages of the session are deleted for the last time, no message
outlives its session (`no_message_outlives`). A message that comes after stays (`message_outlives`). -/

namespace Api

open Concurrent (Prog Log Outline Move Config)

/-- Among the statements of a call: it has ended the session, and not emptied its post box since. -/
def Unswept (sessionId : String) : List RemoteStep → Prop
  | [] => False
  | step :: earlier => Ends sessionId step ∨ ¬ step.write.Empties sessionId ∧ Unswept sessionId earlier

instance (sessionId : String) : DecidablePred (Unswept sessionId) := fun own => by
  induction own with
  | nil => exact isFalse id
  | cons step earlier ih => exact inferInstanceAs (Decidable (_ ∨ _ ∧ _))

/-- A message is appended while its session has not ended, or a call that has ended it is still to
empty the post box. -/
def AppendsInTime (step : RemoteStep) (earlier : List RemoteStep) : Prop :=
  match step.write with
  | .appendSignal _ sessionId .. =>
    (∀ s ∈ step.before.remoteSessions, s.id = sessionId → s.state ≠ .ended) ∨
      ∃ other ∈ earlier, Unswept sessionId (earlier.filter (·.thread = other.thread))
  | _ => True

instance (step : RemoteStep) (earlier : List RemoteStep) : Decidable (AppendsInTime step earlier) := by
  obtain ⟨i, q, w, s⟩ := step
  apply Write.casesOn (motive := fun w => Decidable (AppendsInTime ⟨i, q, w, s⟩ earlier)) w
  all_goals intros; dsimp only [AppendsInTime]; infer_instance

/-- Every message of the history is appended in time. -/
def AllAppendInTime : List RemoteStep → Prop
  | [] => True
  | step :: earlier => AppendsInTime step earlier ∧ AllAppendInTime earlier

instance : DecidablePred AllAppendInTime := fun history => by
  induction history with
  | nil => exact isTrue trivial
  | cons step earlier ih => exact inferInstanceAs (Decidable (_ ∧ _))

/-- No message belongs to a session that has ended. -/
def NoneOutlives (w : World) : Prop :=
  ∀ s ∈ w.remoteSessions, s.state = .ended → ∀ r ∈ w.remoteSignals, r.sessionId ≠ s.id

instance : DecidablePred NoneOutlives := fun w =>
  inferInstanceAs (Decidable (∀ s ∈ w.remoteSessions, _))

/-- If all messages were appended in time, then for every message of an ended session some call is still
to empty the post box. -/
def SweepInv (σ : RemoteLog) : Prop :=
  AllAppendInTime σ.history → ∀ s ∈ σ.shared.remoteSessions, s.state = .ended →
    ∀ r ∈ σ.shared.remoteSignals, r.sessionId = s.id → ∃ i, Unswept s.id (σ.own i)

/-- A call that has come to an end has emptied the post boxes of the sessions that it ended. -/
def Swept (own : List RemoteStep) : Prop := ∀ id, ¬ Unswept id own

variable {signer : Signer} {hashSecret : String → String} {ice : Ice} {σ τ : RemoteLog} {i : Nat}
  {q : RemoteRequest} {w : Write} {s : World} {own : List RemoteStep} {sessionId : String}

/-! ## The tables -/

/-- What is left in the table is of sessions whose post box was not emptied. -/
theorem not_empties_of_mem {r : RemoteSignalRow} (hr : r ∈ (exec w s).remoteSignals) :
    ¬ w.Empties r.sessionId := by
  cases w with
  | deleteSignals id =>
    intro hempties
    have hsel := (List.mem_filter.mp hr).2
    simp [show id = r.sessionId from hempties] at hsel
  | _ => exact fun h => h

/-- What a call still has to do, it still has to do after a statement that does not empty the post box,
its own or another's. -/
theorem Unswept.perform {j : Nat} (h : Unswept sessionId (σ.own j)) (hw : ¬ w.Empties sessionId) :
    Unswept sessionId ((σ.perform exec i q w).own j) := by
  rcases eq_or_ne i j with rfl | hij
  · rw [Log.own_perform_self]
    exact .inr ⟨hw, h⟩
  · rw [Log.own_perform_of_ne _ _ _ _ hij]
    exact h

/-- **What each statement keeps.** -/
theorem SweepInv.perform (h : SweepInv σ) (hw : RemoteWrite q w) : SweepInv (σ.perform exec i q w) := by
  intro hcond s' hs' hended r' hr' hsession
  have hkept : ¬ w.Empties s'.id := hsession ▸ not_empties_of_mem hr'
  rcases sessionStep_of_exec hw σ.shared hs' with ⟨s, hs, hstep⟩ | ⟨-, hcreates⟩
  · have hid : s'.id = s.id := sessionId_of_content hstep.content
    by_cases hbefore : s.state = .ended
    -- The session has ended before: a message of it was there before, or comes now.
    · rcases signalStep_of_exec (i := i) (q := q) hr' with ⟨r, hr, hsame⟩ | happends
      · have hsr : r.sessionId = s.id := (sessionId_of_posted hsame.posted).symm.trans (hsession.trans hid)
        obtain ⟨j, hj⟩ := h hcond.2 s hs hbefore r hr hsr
        exact ⟨j, (hid ▸ hj).perform hkept⟩
      · -- the message comes to an ended session: someone is still to sweep
        have hintime : AppendsInTime ⟨i, q, w, σ.shared⟩ σ.history := hcond.1
        unfold Appends at happends
        split at happends
        · rename_i id sessionId sender kind payload now happend
          obtain ⟨-, rfl⟩ := happends
          rw [AppendsInTime, happend] at hintime
          rcases hintime with hopen | ⟨other, -, hother⟩
          · exact absurd hbefore (hopen s hs (hid ▸ hsession.symm))
          · have hother' : Unswept s'.id (σ.own other.thread) := hsession ▸ hother
            exact ⟨other.thread, hother'.perform hkept⟩
        · cases happends
    · -- The session ends now, and the call that ends it has its post box to empty.
      refine ⟨i, ?_⟩
      rw [Log.own_perform_self]
      exact .inl (hstep.ends hs hbefore hended)
  · -- a session that was just created has not ended
    unfold RemoteRequest.Creates at hcreates
    split at hcreates
    · rw [hcreates.2.2.2.2.2] at hended
      cases hended
    · cases hcreates

/-- The outline of the post boxes of ended sessions. -/
def sweepOutline (signer : Signer) (hashSecret : String → String) (ice : Ice) :
    Outline (remoteMachine signer hashSecret ice) where
  inv := SweepInv
  rely _ _ := True
  refl _ := trivial
  trans _ _ := trivial
  env e σ h := by
    refine ⟨?_, trivial⟩
    show AllAppendInTime σ.history → ∀ s ∈ (outside e σ.shared).remoteSessions, s.state = .ended →
      ∀ r ∈ (outside e σ.shared).remoteSignals, r.sessionId = s.id → ∃ i, Unswept s.id (σ.own i)
    rw [remoteSessions_outside, remoteSignals_outside]
    exact h

/-! ## The calls -/

/-- The outline of the statements of single calls. -/
def ownOutline (signer : Signer) (hashSecret : String → String) (ice : Ice) :
    Outline (remoteMachine signer hashSecret ice) where
  inv _ := True
  rely _ _ := True
  refl _ := trivial
  trans _ _ := trivial
  env _ _ _ := ⟨trivial, trivial⟩

/-- A call has emptied all the post boxes it has to, but for one. -/
def SweptBut (sessionId : String) (own : List RemoteStep) : Prop := ∀ id, Unswept id own → id = sessionId

/-- The statement does not end a session; it may record an end. -/
def Write.EndsNone (w : Write) : Prop := ∀ id now reason, w ≠ .updateSession id (.ended now reason)

theorem Write.Unending.endsNone (h : w.Unending) : w.EndsNone := by
  rintro id now reason rfl
  exact h

theorem Swept.other (h : Swept own) (hw : w.EndsNone) : Swept (⟨i, q, w, s⟩ :: own) := by
  rintro id (hends | ⟨-, hunswept⟩)
  · obtain ⟨⟨now, reason, hsame⟩, -⟩ := hends.update
    exact hw _ _ _ hsame
  · exact h id hunswept

theorem Swept.unending (h : Swept own) (hw : w.Unending) : Swept (⟨i, q, w, s⟩ :: own) :=
  h.other hw.endsNone

/-- The session that a call has ended is the one that is left to do. -/
theorem Swept.ended {change : SessionChange} (h : Swept own) :
    SweptBut sessionId (⟨i, q, .updateSession sessionId change, s⟩ :: own) := by
  rintro id (hends | ⟨-, hunswept⟩)
  · obtain ⟨⟨now, reason, hw⟩, -⟩ := hends.update
    cases hw
    rfl
  · exact absurd hunswept (h id)

/-- A session that is not there is not ended. -/
theorem Swept.missing {change : SessionChange} (h : Swept own) (hfound : findSession sessionId s = none) :
    Swept (⟨i, q, .updateSession sessionId change, s⟩ :: own) := by
  rintro id (hends | ⟨-, hunswept⟩)
  · obtain ⟨⟨now, reason, hw⟩, row, hrow, hid⟩ := hends.update
    cases hw
    simpa [hid] using List.find?_eq_none.mp hfound row hrow
  · exact h id hunswept

/-- Then its post box is emptied. -/
theorem SweptBut.emptied (h : SweptBut sessionId own) :
    Swept (⟨i, q, .deleteSignals sessionId, s⟩ :: own) := by
  rintro id (hends | ⟨hkept, hunswept⟩)
  · obtain ⟨⟨now, reason, hw⟩, -⟩ := hends.update
    cases hw
  · exact hkept (h id hunswept).symm

theorem keeps_swept {α : Type} {p : Service α} (h : p.Only Write.EndsNone) :
    (ownOutline signer hashSecret ice).Keeps i q Swept p :=
  Outline.keeps_of_only h fun _ _ hw _ hswept => ⟨trivial, trivial, hswept.other hw⟩

/-- **The end of a close** empties the post box. -/
theorem leads_swept_closeRest (current : RemoteSessionRow) (reason : RemoteEndReason)
    (actorUserId : Option String) (context : Option RequestContext) :
    (ownOutline signer hashSecret ice).Leads i q (SweptBut current.id) Swept
      (closeRest current reason actorUserId context) := by
  unfold closeRest
  rw [Prog.perform_bind]
  refine .stmt (R := fun _ => Swept) (fun σ _ h => ⟨trivial, trivial, h.emptied⟩) fun _ => ?_
  have hseconds : (connectedSeconds current.connectedAt).Only Write.EndsNone :=
    (only_connectedSeconds _).mono fun _ hw => hw.unending.endsNone
  refine keeps_swept (hseconds.bind fun seconds => ?_)
  exact .stmt (by simp [Write.EndsNone]) fun _ => .stmt (by simp [Write.EndsNone]) fun _ => trivial

/-- **A close** empties the post box of the session that it ends. -/
theorem keeps_swept_close (sessionId : String) (reason : RemoteEndReason) (actorUserId : Option String)
    (context : Option RequestContext) :
    (ownOutline signer hashSecret ice).Keeps i q Swept
      (close sessionId reason actorUserId context) := by
  unfold close selectSession updateSession
  rw [select_bind]
  refine .stmt (R := fun _ => Swept) (fun σ _ h => ⟨trivial, trivial, h.unending trivial⟩) fun s => ?_
  split
  · exact Outline.keeps_raise _
  rename_i current hcurrent
  have hid : current.row.id = sessionId := answers_selectSession sessionId s current hcurrent
  split
  · exact Outline.keeps_done _
  rw [newDate_bind]
  refine .stmt (R := fun _ => Swept) (fun σ _ h => ⟨trivial, trivial, h.unending trivial⟩) fun s => ?_
  rw [Prog.stmt_bind]
  refine .stmt (R := fun s own => SweptBut sessionId own ∧ (findSession sessionId s = none → Swept own))
    (fun σ _ h => ⟨trivial, trivial, h.ended, h.missing⟩) fun s => ?_
  -- An update that finds no row ends the call with a fault, and has ended no session.
  cases hfound : findSession sessionId s with
  | none => exact ⟨fun σ _ h => h.2 rfl⟩
  | some row =>
    refine ⟨fun σ hσ h => ?_⟩
    refine Outline.Leads.safe ((leads_swept_closeRest ..).bind fun _ => Outline.keeps_done _) σ hσ ?_
    rw [hid]
    exact h.1

theorem tolerates_swept : Tolerates (ownOutline signer hashSecret ice) i q Swept :=
  ⟨fun _ _ hw _ hswept => ⟨trivial, trivial, hswept.unending hw⟩, keeps_swept_close⟩

/-- Along every run, a finished call has emptied what it has to. -/
theorem good_swept (signer : Signer) (hashSecret : String → String) (ice : Ice) (w : World)
    (moves : List (Move RemoteRequest Outside)) :
    (ownOutline signer hashSecret ice).Good (fun i _ _ σ => Swept (σ.own i))
      (remoteRun signer hashSecret ice w moves) := by
  refine (Outline.sound (fun i _ _ σ τ hlater hswept => ?_) (fun i q σ hσ hown => ?_) moves
    (Outline.good_initial trivial)).1
  · rw [hlater.2]
    exact hswept
  · refine (tolerates_swept.keeps_remoteHandler q).safe σ hσ ?_
    rw [hown]
    exact fun _ => id

/-- The viewer posts a candidate. -/
def postCandidate : RemoteRequest := .signal "ada" "first" ⟨.candidate, "192.168.1.10"⟩

/-- The candidate is appended between the end of its session and the deletion of the messages. -/
def candidateBeforeSweep : List (Move RemoteRequest Outside) :=
  [Move.call postCandidate, Move.call leave] ++ List.replicate 2 (Move.step 0) ++
    List.replicate 4 (Move.step 1) ++ List.replicate 4 (Move.step 0) ++
    List.replicate 3 (Move.step 1)

/-- The session ends after the look-up of the call that posts the candidate. -/
def leaveWithinCandidate : List (Move RemoteRequest Outside) :=
  [Move.call postCandidate, Move.call leave] ++ List.replicate 2 (Move.step 0) ++
    List.replicate 7 (Move.step 1) ++ List.replicate 4 (Move.step 0)

theorem finished_candidateBeforeSweep : (watchedRun candidateBeforeSweep).Finished := by
  intro t ht
  rcases List.mem_pair.mp ht with rfl | rfl
  · exact .inl ⟨_, rfl⟩
  · exact .inl ⟨_, rfl⟩

theorem finished_leaveWithinCandidate : (watchedRun leaveWithinCandidate).Finished := by
  intro t ht
  rcases List.mem_pair.mp ht with rfl | rfl
  · exact .inl ⟨_, rfl⟩
  · exact .inl ⟨_, rfl⟩

end Api
