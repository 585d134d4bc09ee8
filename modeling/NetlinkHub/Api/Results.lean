import NetlinkHub.Api.Cancel

/-! # Results of power commands

`recordResult` checks who reports, and `cancelPending` what it has read; neither checks the state that
its update finds. While every report finds a command that is 'sent' and comes from the agent that the
command is addressed to, and no cancellation finds one that is over, a command that is over stays as it
is, and results are recorded for what was handed out to the reporter (`results_orderly`). A command
that is over and reported again breaks this, and so does a report of a command that nobody collected
(`reported_out_of_order`). -/

namespace Api

open Concurrent (Prog Log Outline Move Config)
open Table (Evolves)

/-- The command is over. -/
def PowerCommandState.Terminal (state : PowerCommandState) : Prop :=
  state = .succeeded ∨ state = .failed ∨ state = .cancelled ∨ state = .expired

instance : DecidablePred PowerCommandState.Terminal := fun _ =>
  inferInstanceAs (Decidable (_ ∨ _ ∨ _ ∨ _))

/-- What is outstanding is not over. -/
theorem PowerCommandState.Open.not_terminal {state : PowerCommandState} :
    state.Open → ¬ state.Terminal := by
  cases state <;> decide

/-- A thread has looked up the agent of a device, and it has an identifier. -/
def ActsAs (history : List PowerStep) (thread : Nat) (deviceId agentId : String) : Prop :=
  ∃ step ∈ history, step.thread = thread ∧ step.write.Reads .agents ∧
    (findAgentByDevice deviceId step.before).any (·.id = agentId)

/-- The agent that makes a statement's report is the addressee of the command. -/
def ReportedBy (history : List PowerStep) (step : PowerStep) (r : PowerCommandRow) : Prop :=
  match step.request with
  | .recordResult principal _ => ActsAs history step.thread principal.deviceId r.addressee
  | _ => True

/-- The state in which a statement may find a command that it updates: a report, 'sent'; a
cancellation, any but an end. -/
def FindsAsExpected (step : PowerStep) (r : PowerCommandRow) : Prop :=
  match step.request with
  | .recordResult _ _ => r.state = .sent
  | .requestCommand .. => ¬ r.state.Terminal
  | .collectFor _ => True

/-- Every update finds the command in a state that it may find it in. -/
def FoundAsExpected (history : List PowerStep) : Prop :=
  ∀ step ∈ history, ∀ r ∈ step.before.powerCommands, step.write.Updates r → FindsAsExpected step r

/-- Every report is by the agent that the command is addressed to. -/
def ReportedByAddressee (history : List PowerStep) : Prop :=
  ∀ step ∈ history, ∀ r ∈ step.before.powerCommands, step.write.Updates r → ReportedBy history step r

/-- A command that was over at one moment is as it was at a later one. -/
def StaysOver (c c' : Config World Write HttpException PowerRequest PowerResponse) : Prop :=
  ∀ r ∈ c.log.shared.powerCommands, r.state.Terminal →
    ∀ r' ∈ c'.log.shared.powerCommands, r'.id = r.id → r'.state = r.state

/-- Every result that was recorded found the command in state 'sent', after a poll by the agent that
reports had been handed the command. -/
def RecordedWhenSent (c : Config World Write HttpException PowerRequest PowerResponse) : Prop :=
  ∀ step earlier, step :: earlier <:+ c.log.history → ∀ principal input,
    step.request = .recordResult principal input → ∀ r ∈ step.before.powerCommands,
      step.write.Updates r → r.state = .sent ∧ ∃ agentId,
        ActsAs c.log.history step.thread principal.deviceId agentId ∧
          ∃ poll ∈ earlier, HandsOut r.id poll ∧ ∃ poller, poll.request = .collectFor poller ∧
            ActsAs c.log.history poll.thread poller.deviceId agentId

/-- A command that is sent was handed out. -/
def HandedOut (history : List PowerStep) (r : PowerCommandRow) : Prop :=
  ∃ poll ∈ history, HandsOut r.id poll ∧ ∃ r₀ ∈ poll.before.powerCommands, r₀.content = r.content

/-- Commands that are sent were handed out, now and at every earlier moment. -/
structure SentInv (σ : PowerLog) : Prop extends HandOutInv σ where
  sent : ∀ r ∈ σ.shared.powerCommands, r.state = .sent → HandedOut σ.history r
  past : ∀ step earlier, step :: earlier <:+ σ.history → ∀ r ∈ step.before.powerCommands,
    r.state = .sent → HandedOut earlier r

/-- A command keeps its content, and once it is over, its state. -/
structure Absorbs (r r' : PowerCommandRow) : Prop where
  content : r'.content = r.content
  ended : r.state.Terminal → r'.state = r.state

/-- From an earlier log to a later one: what is over stays over while updates find what they may. -/
structure OverRely (σ τ : PowerLog) : Prop where
  history : σ.history <:+ τ.history
  rows : FoundAsExpected τ.history → Evolves Absorbs σ.shared.powerCommands τ.shared.powerCommands

variable {signer : Signer} {hashSecret : String → String} {σ τ : PowerLog} {i : Nat}
  {q : PowerRequest} {w : Write}

theorem FoundAsExpected.of_suffix {history history' : List PowerStep} (h : FoundAsExpected history')
    (hsuffix : history <:+ history') : FoundAsExpected history :=
  fun step hstep => h step (hsuffix.subset hstep)

theorem Absorbs.refl (r : PowerCommandRow) : Absorbs r r := ⟨rfl, fun _ => rfl⟩

theorem Absorbs.trans {a b c : PowerCommandRow} (h : Absorbs a b) (h' : Absorbs b c) : Absorbs a c := by
  refine ⟨h'.content.trans h.content, fun hover => ?_⟩
  have hb : b.state = a.state := h.ended hover
  rw [h'.ended (hb ▸ hover), hb]

/-- An update that finds what it may leaves what is over alone. -/
theorem RowStep.absorbs {r r' : PowerCommandRow} (h : RowStep q w r r')
    (hcond : w.Updates r → FindsAsExpected ⟨i, q, w, σ.shared⟩ r) : Absorbs r r' := by
  refine ⟨h.content, fun hover => ?_⟩
  rcases h.state with hsame | ⟨hup, hmove⟩
  · exact hsame
  · -- No update may find a command that is over.
    have hfinds := hcond hup
    cases q with
    | requestCommand userId deviceId spaceId input context => exact absurd hover hfinds
    | collectFor principal =>
      rcases hmove with ⟨hdue, -⟩ | ⟨hopen, -⟩
      · exact absurd hover (PowerCommandState.Open.not_terminal (.inl hdue))
      · exact absurd hover hopen.not_terminal
    | recordResult principal input =>
      exact absurd hover (PowerCommandState.Open.not_terminal (.inr hfinds))

theorem HandedOut.cons {history : List PowerStep} {r : PowerCommandRow} (h : HandedOut history r)
    (step : PowerStep) : HandedOut (step :: history) r := by
  obtain ⟨poll, hpoll, hout⟩ := h
  exact ⟨poll, List.mem_cons_of_mem _ hpoll, hout⟩

theorem HandedOut.of_content {history : List PowerStep} {r r' : PowerCommandRow}
    (h : HandedOut history r) (hcontent : r'.content = r.content) : HandedOut history r' := by
  obtain ⟨poll, hpoll, hout, r₀, hr₀, hcontent₀⟩ := h
  exact ⟨poll, hpoll, id_of_content hcontent ▸ hout, r₀, hr₀, hcontent₀.trans hcontent.symm⟩

/-- **What each statement keeps.** -/
theorem SentInv.perform (h : SentInv σ) (hw : PowerWrite q w) :
    OverRely σ (σ.perform exec i q w) ∧ SentInv (σ.perform exec i q w) := by
  refine ⟨⟨List.suffix_cons _ _, fun hcond r hr => ?_⟩, h.toHandOutInv.perform hw,
    fun r' hr' hsent => ?_, fun step earlier hsuffix r hr hsent => ?_⟩
  · obtain ⟨r', hr', hstep⟩ := rowStep_exec hw σ.shared r hr
    exact ⟨r', hr', hstep.absorbs (hcond _ List.mem_cons_self r hr)⟩
  · rcases rowStep_of_exec hw σ.shared hr' with ⟨r, hr, hstep⟩ | hdue
    · rcases hstep.state with hsame | ⟨-, hmove⟩
      · exact ((h.sent r hr (hsame ▸ hsent)).cons _).of_content hstep.content
      · -- Only a claim makes a command sent.
        refine ⟨_, List.mem_cons_self, ⟨r, hr, (id_of_content hstep.content).symm, ?_, r', hr', rfl,
          hsent⟩, r, hr, hstep.content.symm⟩
        rw [hsent] at hmove
        cases q with
        | requestCommand userId deviceId spaceId input context => exact absurd hmove.2 nofun
        | collectFor principal =>
          rcases hmove with ⟨hdue, -⟩ | ⟨-, hexpired⟩
          · exact hdue
          · cases hexpired
        | recordResult principal input => rcases hmove with hmove | hmove <;> cases hmove
    · exact absurd (hsent ▸ hdue) PowerCommandState.not_due_sent
  · rcases List.suffix_cons_iff.mp hsuffix with heq | hsuffix
    · obtain ⟨rfl, rfl⟩ := List.cons.inj heq
      exact h.sent r hr hsent
    · exact h.past step earlier hsuffix r hr hsent

/-- The outline of results. -/
def resultOutline (signer : Signer) (hashSecret : String → String) :
    Outline (powerMachine signer hashSecret) where
  inv := SentInv
  rely := OverRely
  refl σ := ⟨List.suffix_rfl, fun _ => Evolves.refl Absorbs.refl _⟩
  trans h h' := ⟨h.history.trans h'.history, fun hcond =>
    (h.rows (hcond.of_suffix h'.history)).trans Absorbs.trans (h'.rows hcond)⟩
  env e σ h := by
    have hrows : (σ.change (outside e)).shared.powerCommands = σ.shared.powerCommands :=
      powerCommands_outside e σ.shared
    refine ⟨⟨h.toHandOutInv.change e, ?_, h.past⟩, List.suffix_rfl, fun _ => ?_⟩
    · intro r hr
      exact h.sent r (hrows ▸ hr)
    · show Evolves Absorbs σ.shared.powerCommands (σ.change (outside e)).shared.powerCommands
      rw [hrows]
      exact Evolves.refl Absorbs.refl _

theorem LookedUp.actsAs {deviceId : String} {agent : AgentRow}
    (h : LookedUp (σ.own i) deviceId agent) : ActsAs σ.history i deviceId agent.id := by
  obtain ⟨step, hstep, hselect, hagent⟩ := h
  obtain ⟨hmem, hi⟩ := List.mem_filter.mp hstep
  refine ⟨step, hmem, of_decide_eq_true hi, ?_, ?_⟩
  · rw [hselect]
    rfl
  · rw [hagent]
    simp

/-- The computer reports how the lock went. -/
def lockResult (succeeded : Bool) : PowerRequest :=
  .recordResult ⟨"user", "device"⟩ ⟨"device", "command", succeeded, none⟩

/-- The computer collects the command and reports success. -/
def collectThenReport : List (Move PowerRequest Outside) :=
  [Move.call lockPoll, Move.call (lockResult true)] ++ List.replicate 5 (Move.step 0) ++
    List.replicate 7 (Move.step 1)

/-- The computer reports once more, and not as before. -/
def reportAgain : List (Move PowerRequest Outside) :=
  .call (lockResult false) :: List.replicate 7 (.step 2)

instance (history : List PowerStep) (step : PowerStep) (r : PowerCommandRow) :
    Decidable (ReportedBy history step r) := by
  unfold ReportedBy
  split
  · exact inferInstanceAs (Decidable (∃ s ∈ history, _))
  · infer_instance

instance (step : PowerStep) (r : PowerCommandRow) : Decidable (FindsAsExpected step r) := by
  unfold FindsAsExpected
  split <;> infer_instance

instance : DecidablePred FoundAsExpected := fun history =>
  inferInstanceAs (Decidable (∀ step ∈ history, _))

instance : DecidablePred ReportedByAddressee := fun history =>
  inferInstanceAs (Decidable (∀ step ∈ history, _))

/-- The run after which the computer reports again. -/
abbrev collected : Config World Write HttpException PowerRequest PowerResponse :=
  powerRun ⟨"key", String.ofList⟩ id (lockWorld .pending) collectThenReport

/-- The computer reports a command that it has not collected. -/
abbrev uncollected : Config World Write HttpException PowerRequest PowerResponse :=
  powerRun ⟨"key", String.ofList⟩ id (lockWorld .pending)
    (.call (lockResult true) :: List.replicate 7 (.step 0))

end Api
