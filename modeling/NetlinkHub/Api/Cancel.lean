import NetlinkHub.Api.Delivery

/-! # Calling a command off

`cancelPending` reads the newest outstanding command, checks in memory that it has not been sent, and
then cancels it whatever has become of it. While every such update finds a command that has not been
delivered, no command is both called off and answered to a poll (`cancelled_or_delivered`). A claim
between the read and the update breaks this (`cancelled_and_delivered`). -/

namespace Api

open Concurrent (Prog Log Outline Move Config)
open Table (Evolves)

/-- The call is to call a command off. -/
def PowerRequest.Cancels : PowerRequest → Prop
  | .requestCommand _ _ _ input _ => input.action = .cancel
  | _ => False

instance : DecidablePred PowerRequest.Cancels := fun q => by
  unfold PowerRequest.Cancels
  split <;> infer_instance

/-- The statement calls the command off. -/
def CallsOff (id : String) (step : PowerStep) : Prop :=
  step.request.Cancels ∧ ∃ r ∈ step.before.powerCommands, r.id = id ∧ step.write.Updates r

/-- No command is called off once it has been delivered. -/
def CalledOffInTime (history : List PowerStep) : Prop :=
  ∀ step ∈ history, step.request.Cancels → ∀ r ∈ step.before.powerCommands, step.write.Updates r →
    r.deliveredAt = none

instance (w : Write) : DecidablePred w.Updates := fun r => by
  unfold Write.Updates
  split <;> infer_instance

instance : DecidablePred CalledOffInTime := fun history =>
  inferInstanceAs (Decidable (∀ step ∈ history, _))

/-- A command that a poll answers is not reported by any cancellation, and it is not cancelled. -/
def CancelledOrDelivered (c : Config World Write HttpException PowerRequest PowerResponse) : Prop :=
  ∀ i principal cs, c.Answered i (.collectFor principal) (.commands cs) → ∀ s ∈ cs,
    (∀ j q summary, c.Answered j q (.summary summary) → q.Cancels → summary.id ≠ s.command.id) ∧
      ∀ r ∈ c.log.shared.powerCommands, r.id = s.command.id → r.state ≠ .cancelled

/-- What was handed out is marked as delivered. If no command is called off once it has been delivered,
then what was handed out is not cancelled, and what was called off is neither handed out nor due. -/
structure CancelInv (σ : PowerLog) : Prop extends HandOutInv σ where
  delivered : ∀ id, 0 < handOuts id σ.history →
    ∀ r ∈ σ.shared.powerCommands, r.id = id → r.deliveredAt ≠ none
  kept : CalledOffInTime σ.history → ∀ id, 0 < handOuts id σ.history →
    ∀ r ∈ σ.shared.powerCommands, r.id = id → r.state ≠ .cancelled
  apart : CalledOffInTime σ.history → ∀ step ∈ σ.history, ∀ id, CallsOff id step →
    handOuts id σ.history = 0 ∧ ∃ r ∈ σ.shared.powerCommands, r.id = id ∧ ¬ r.state.Due

variable {signer : Signer} {hashSecret : String → String} {σ τ : PowerLog} {i : Nat}
  {q : PowerRequest} {w : Write}

theorem CalledOffInTime.of_cons {step : PowerStep} {history : List PowerStep}
    (h : CalledOffInTime (step :: history)) : CalledOffInTime history :=
  fun s hs => h s (List.mem_cons_of_mem _ hs)

/-- Only a cancellation makes a command cancelled. -/
theorem StateStep.cancels {a : PowerCommandState} (h : StateStep q a .cancelled) : q.Cancels := by
  cases q with
  | requestCommand userId deviceId spaceId input context => exact h.1
  | collectFor principal => rcases h with ⟨-, h⟩ | ⟨-, h⟩ <;> cases h
  | recordResult principal input => rcases h with h | h <;> cases h

theorem PowerRequest.Cancels.not_poll (h : q.Cancels) (principal : AgentPrincipal) :
    q ≠ .collectFor principal := by
  rintro rfl
  exact h

/-- The row that a statement hands out. -/
theorem HandsOut.sent {id : String} (hids : ((exec w σ.shared).powerCommands.map (·.id)).Nodup)
    (h : HandsOut id ⟨i, q, w, σ.shared⟩) {r : PowerCommandRow}
    (hr : r ∈ (exec w σ.shared).powerCommands) (hid : r.id = id) : r.state = .sent := by
  obtain ⟨-, -, -, -, r', hr', hid', hsent⟩ := h
  obtain rfl : r = r' := Table.eq_of_key hids hr hr' (hid.trans hid'.symm)
  exact hsent

/-- **What each statement keeps.** -/
theorem CancelInv.perform (h : CancelInv σ) (hw : PowerWrite q w) :
    CancelInv (σ.perform exec i q w) := by
  have hkept : HandOutInv (σ.perform exec i q w) := h.toHandOutInv.perform hw
  -- A command that was handed out, before and after.
  have hcases : ∀ id, 0 < handOuts id (σ.perform exec i q w).history →
      ∀ r' ∈ (exec w σ.shared).powerCommands, r'.id = id →
        ∃ r ∈ σ.shared.powerCommands, r.id = id ∧ RowStep q w r r' ∧
          (0 < handOuts id σ.history ∨ r.state.Due ∧ r'.state = .sent) := by
    intro id hpos r' hr' hid
    replace hpos : 0 < handOuts id (_ :: σ.history) := hpos
    rw [handOuts_cons] at hpos
    by_cases hout : HandsOut id ⟨i, q, w, σ.shared⟩
    · have hsent := fun r' => hout.sent hkept.ids (r := r')
      obtain ⟨r, hr, hrid, hdue, -⟩ := hout
      obtain ⟨r'', hr'', hstep⟩ := rowStep_exec hw σ.shared r hr
      obtain rfl : r'' = r' :=
        Table.eq_of_key hkept.ids hr'' hr' ((id_of_content hstep.content).trans (hrid.trans hid.symm))
      exact ⟨r, hr, hrid, hstep, .inr ⟨hdue, hsent _ hr' hid⟩⟩
    · rw [if_neg hout] at hpos
      obtain ⟨r, hr, hrid, -⟩ := h.handed id hpos
      obtain ⟨r'', hr'', hstep⟩ := rowStep_exec hw σ.shared r hr
      obtain rfl : r'' = r' :=
        Table.eq_of_key hkept.ids hr'' hr' ((id_of_content hstep.content).trans (hrid.trans hid.symm))
      exact ⟨r, hr, hrid, hstep, .inl hpos⟩
  refine ⟨hkept, fun id hpos r' hr' hid => ?_, fun hcond id hpos r' hr' hid => ?_,
    fun hcond step hstep id hoff => ?_⟩
  · obtain ⟨r, hr, hrid, hstep, hpos | ⟨hdue, hsent⟩⟩ := hcases id hpos r' hr' hid
    · exact hstep.delivered (h.delivered id hpos r hr hrid)
    · exact hstep.sent (fun hs => PowerCommandState.not_due_sent (hs ▸ hdue)) hsent
  · obtain ⟨r, hr, hrid, hstep, hpos | ⟨-, hsent⟩⟩ := hcases id hpos r' hr' hid
    · -- The statement would have called off a command that was delivered.
      intro hcancelled
      rcases hstep.state with hsame | ⟨hup, hmove⟩
      · exact h.kept hcond.of_cons id hpos r hr hrid (hsame ▸ hcancelled)
      · rw [hcancelled] at hmove
        exact h.delivered id hpos r hr hrid
          (hcond _ List.mem_cons_self hmove.cancels r hr hup)
    · rw [hsent]
      exact nofun
  · show handOuts id (_ :: σ.history) = 0 ∧ ∃ r ∈ (exec w σ.shared).powerCommands, _
    rw [handOuts_cons]
    rcases List.mem_cons.mp hstep with rfl | hstep
    · obtain ⟨hq, r, hr, hid, hup⟩ := hoff
      have hnone : handOuts id σ.history = 0 := by
        by_contra hpos
        exact h.delivered id (Nat.pos_of_ne_zero hpos) r hr hid
          (hcond _ List.mem_cons_self hq r hr hup)
      obtain ⟨r', hr', hrow⟩ := rowStep_exec hw σ.shared r hr
      rw [hnone, if_neg (not_handsOut_of_request h.toHandOutInv hw hq.not_poll id)]
      exact ⟨rfl, r', hr', (id_of_content hrow.content).trans hid, (hrow.updated hup).1.not_due⟩
    · obtain ⟨hnone, r, hr, hid, hdue⟩ := h.apart hcond.of_cons step hstep id hoff
      obtain ⟨r', hr', hrow⟩ := rowStep_exec hw σ.shared r hr
      rw [hnone, if_neg (not_handsOut_of_not_due h.ids hr hdue hid)]
      exact ⟨rfl, r', hr', (id_of_content hrow.content).trans hid, fun hd => hdue (hrow.due hd)⟩

/-- Nothing from outside touches the commands. -/
theorem CancelInv.change (h : CancelInv σ) (e : Outside) : CancelInv (σ.change (outside e)) :=
  ⟨h.toHandOutInv.change e, by simpa [Log.change] using h.delivered,
    by simpa [Log.change] using h.kept, by simpa [Log.change] using h.apart⟩

/-- The outline of cancellation. -/
def cancelOutline (signer : Signer) (hashSecret : String → String) :
    Outline (powerMachine signer hashSecret) where
  inv := CancelInv
  rely _ _ := True
  refl _ := trivial
  trans _ _ := trivial
  env e _ h := ⟨CancelInv.change h e, trivial⟩

/-! ## What a cancellation reports -/

/-- A summary of a cancellation is of a command that the call has called off. -/
def CancelPost (i : Nat) (q : PowerRequest) (r : Except HttpException PowerResponse)
    (σ : PowerLog) : Prop :=
  ∀ s, q.Cancels → r = .ok (.summary s) → ∃ step ∈ σ.own i, CallsOff s.id step

theorem stable_cancelPost (q : PowerRequest) :
    (deliveryOutline signer hashSecret).Stable i (CancelPost i q) := by
  intro r σ τ hlater hpost s hq hr
  rw [hlater.2]
  exact hpost s hq hr

/-- The update of a cancellation. -/
abbrev cancel (id : String) (now : Date) : Write :=
  .powerCommands (.update (·.id = id) fun c => { c with
    state := .cancelled, cancelledAt := some now, detail := some "Cancelled before it was sent" })

theorem powerWrite_cancel {userId spaceId : String} {input : PowerCommandRequest}
    {context : RequestContext} (deviceId : String) (hcancel : input.action = .cancel) (id : String)
    (now : Date) : PowerWrite (.requestCommand userId deviceId spaceId input context) (cancel id now) :=
  fun _ => ⟨rfl, fun _ => ⟨hcancel, rfl⟩, fun h => h, nofun⟩

/-- **A cancellation** calls off the command that it reports. -/
theorem safe_cancelPending {userId deviceId spaceId : String} {input : PowerCommandRequest}
    {context : RequestContext} (hcancel : input.action = .cancel) (agentId : String) (σ : PowerLog) :
    (deliveryOutline signer hashSecret).Safe i (.requestCommand userId deviceId spaceId input context)
      (fun r τ => ∀ s, r = .ok s → ∃ step ∈ τ.own i, CallsOff s.id step)
      (cancelPending userId spaceId agentId context) σ := by
  unfold cancelPending updateCommand
  simp only [select_bind, newDate_bind, record_bind, Prog.raiseIf_bind, Prog.stmt_bind]
  refine safe_quiet trivial fun σ₁ _ _ _ => ?_
  split
  · rintro s ⟨⟩
  split
  · rintro s ⟨⟩
  rename_i pending _ _
  refine safe_quiet trivial fun σ₂ _ _ _ => ?_
  -- The update, whatever the command has become since it was read.
  intro σ₃ _ hinv₃
  obtain ⟨hrely₃, hkept₃⟩ := DeliveryInv.of_request (i := i) hinv₃
    (powerWrite_cancel deviceId hcancel pending.id σ₂.shared.clock) (by simp)
  refine ⟨hrely₃, hkept₃, ?_⟩
  dsimp only
  split
  · rintro s ⟨⟩
  rename_i row hrow
  have hid : row.id = pending.id := by simpa using List.find?_some hrow
  have hoff : CallsOff row.id ⟨i, .requestCommand userId deviceId spaceId input context,
      cancel pending.id σ₂.shared.clock, σ₃.shared⟩ :=
    ⟨hcancel, row, List.mem_of_find?_eq_some hrow, rfl, decide_eq_true hid⟩
  refine safe_quiet (quiet_audit (by simp)) fun σ₄ h₄ _ _ => ?_
  rintro s ⟨⟩
  rw [Log.own_perform_self, h₄.2, Log.own_perform_self]
  exact ⟨_, List.mem_cons_of_mem _ List.mem_cons_self, hoff⟩

/-- A request that answers a summary to a cancellation has called the command off. -/
theorem safe_requestCommand (userId deviceId spaceId : String) (input : PowerCommandRequest)
    (context : RequestContext) (hinv : DeliveryInv σ) :
    (deliveryOutline signer hashSecret).Safe i (.requestCommand userId deviceId spaceId input context)
      (fun r τ => ∀ s, input.action = .cancel → r = .ok s → ∃ step ∈ τ.own i, CallsOff s.id step)
      (requestCommand hashSecret userId deviceId spaceId input context) σ := by
  unfold requestCommand
  have hpermission : (deliveryOutline signer hashSecret).Safe i
      (.requestCommand userId deviceId spaceId input context) (fun _ _ => True)
      (requirePermission userId spaceId input.action.permission (some context)) σ :=
    Outline.Safe.of_only (only_requirePermission ..) fun _ _ hw hτ => DeliveryInv.quiet hτ hw
  refine hpermission.bind hinv (fun _ σ₁ _ _ _ => ?_) fun e σ₁ _ _ _ s _ => by simp
  rw [select_bind]
  refine safe_quiet trivial fun σ₂ _ _ hkept₂ => ?_
  split
  · rintro s - ⟨⟩
  split
  · rintro s - ⟨⟩
  split
  · rename_i hcancel
    exact (safe_cancelPending hcancel _ _).mono hkept₂ fun r τ _ _ hpost s _ hr => hpost s hr
  · rename_i hcancel
    refine (safe_of_request (only_issueCommand ..) (by simp) _).mono hkept₂ fun r τ _ _ _ s h => ?_
    exact absurd h hcancel

/-- **Every call** reports what it called off. -/
theorem safe_cancelPost (q : PowerRequest) (hinv : DeliveryInv σ) (hown : σ.own i = []) :
    (deliveryOutline signer hashSecret).Safe i q (CancelPost i q)
      (powerHandler signer hashSecret q) σ := by
  cases q with
  | requestCommand userId deviceId spaceId input context =>
    refine (safe_requestCommand userId deviceId spaceId input context hinv).bind hinv
      (fun s τ _ _ hpost => ?_) fun e τ _ _ _ => ?_
    · rintro s' hcancel ⟨⟩
      exact hpost s hcancel rfl
    · rintro s' - ⟨⟩
  | collectFor principal =>
    exact (safe_powerHandler _ hinv hown).mono hinv fun r τ _ _ _ s hcancel => absurd hcancel id
  | recordResult principal input =>
    exact (safe_powerHandler _ hinv hown).mono hinv fun r τ _ _ _ s hcancel => absurd hcancel id

/-! ## Every run -/

/-- The owner calls the lock off. -/
def lockCancel : PowerRequest :=
  .requestCommand "user" "phone" "space" ⟨.cancel, "agent", none, none⟩ ⟨none, none, none⟩

/-- The command is called off, and then the computer polls. -/
def cancelThenPoll : List (Move PowerRequest Outside) :=
  [Move.call lockCancel, Move.call lockPoll] ++ List.replicate 7 (Move.step 0) ++
    List.replicate 4 (Move.step 1)

/-- The computer claims the command after the cancellation has read it. -/
def pollInBetween : List (Move PowerRequest Outside) :=
  [Move.call lockCancel, Move.call lockPoll] ++ List.replicate 4 (Move.step 0) ++
    List.replicate 5 (Move.step 1) ++ List.replicate 3 (Move.step 0)

end Api
