import NetlinkHub.Api.HandOut

/-! # Delivery of power commands

What a poll answers: each command once over all polls, to its helper or else its target, inside its
window, with the signed content of its row (`delivery`). The outline is that of `HandOutInv`, with the
agent each hand-out was for. -/

namespace Api

open Concurrent (Prog Log Outline Move Config)
open Table (Evolves)

/-- The agent that a command is for: its helper if it has one, else its target. -/
def PowerCommandRow.addressee (c : PowerCommandRow) : String := c.helperAgentId.getD c.targetAgentId

/-- A thread has looked up the agent of a device. -/
def LookedUp (steps : List PowerStep) (deviceId : String) (agent : AgentRow) : Prop :=
  ∃ step ∈ steps, step.write = .select .agents ∧
    findAgentByDevice deviceId step.before = some agent

/-- Nothing is handed out twice, and each hand-out is by a poll of the agent that the command is
for. -/
structure DeliveryInv (σ : PowerLog) : Prop extends HandOutInv σ where
  addressed : ∀ step ∈ σ.history, ∀ r ∈ step.before.powerCommands, HandsOut r.id step →
    ∃ principal agent, step.request = .collectFor principal ∧
      LookedUp (σ.own step.thread) principal.deviceId agent ∧ agent.id = r.addressee

/-- From an earlier log to a later one: commands settle, and the history grows. -/
structure DeliveryRely (σ τ : PowerLog) : Prop where
  rows : Evolves Settles σ.shared.powerCommands τ.shared.powerCommands
  history : σ.history <:+ τ.history

variable {signer : Signer} {hashSecret : String → String} {σ τ : PowerLog} {i : Nat}
  {q : PowerRequest} {w : Write}

theorem LookedUp.mono {steps steps' : List PowerStep} {deviceId : String} {agent : AgentRow}
    (h : LookedUp steps deviceId agent) (hsub : steps ⊆ steps') : LookedUp steps' deviceId agent := by
  obtain ⟨step, hstep, hlook⟩ := h
  exact ⟨step, hsub hstep, hlook⟩

/-- **What each statement keeps**, once what it hands out is for the agent that was looked up. -/
theorem DeliveryInv.perform (h : DeliveryInv σ) (hw : PowerWrite q w)
    (haddr : ∀ r ∈ σ.shared.powerCommands, HandsOut r.id ⟨i, q, w, σ.shared⟩ →
      ∃ principal agent, q = .collectFor principal ∧ LookedUp (σ.own i) principal.deviceId agent ∧
        agent.id = r.addressee) :
    DeliveryRely σ (σ.perform exec i q w) ∧ DeliveryInv (σ.perform exec i q w) := by
  have hsuffix : σ.history <:+ (σ.perform exec i q w).history := List.suffix_cons _ _
  refine ⟨⟨settles_perform hw σ, hsuffix⟩, h.toHandOutInv.perform hw, fun step hstep r hr hout => ?_⟩
  rcases List.mem_cons.mp hstep with rfl | hstep
  · obtain ⟨principal, agent, hq, hlook, hid⟩ := haddr r hr hout
    exact ⟨principal, agent, hq, hlook.mono (Log.own_subset hsuffix), hid⟩
  · obtain ⟨principal, agent, hq, hlook, hid⟩ := h.addressed step hstep r hr hout
    exact ⟨principal, agent, hq, hlook.mono (Log.own_subset hsuffix), hid⟩

/-- The outline of delivery. -/
def deliveryOutline (signer : Signer) (hashSecret : String → String) :
    Outline (powerMachine signer hashSecret) where
  inv := DeliveryInv
  rely := DeliveryRely
  refl σ := ⟨Evolves.refl Settles.refl _, List.suffix_rfl⟩
  trans h h' := ⟨h.rows.trans Settles.trans h'.rows, h.history.trans h'.history⟩
  env e σ h := by
    have hrows : (σ.change (outside e)).shared.powerCommands = σ.shared.powerCommands :=
      powerCommands_outside e σ.shared
    refine ⟨⟨h.toHandOutInv.change e, h.addressed⟩, ⟨?_, List.suffix_rfl⟩⟩
    show Evolves Settles σ.shared.powerCommands (σ.change (outside e)).shared.powerCommands
    rw [hrows]
    exact Evolves.refl Settles.refl _

/-! ## Statements that hand nothing out -/

/-- A statement does not hand a command out when the command is, afterwards, in the state it was or in
another than 'sent'. -/
theorem not_handsOut_of_evolves {id : String}
    (hids : ((exec w σ.shared).powerCommands.map (·.id)).Nodup)
    (h : ∀ r ∈ σ.shared.powerCommands, r.id = id → ∃ r' ∈ (exec w σ.shared).powerCommands,
      r'.id = r.id ∧ (r'.state = r.state ∨ r'.state ≠ .sent)) :
    ¬ HandsOut id ⟨i, q, w, σ.shared⟩ := by
  rintro ⟨r, hr, hid, hdue, r', hr', hid', hsent⟩
  obtain ⟨r'', hr'', hid'', hstate⟩ := h r hr hid
  obtain rfl : r'' = r' := Table.eq_of_key hids hr'' hr' ((hid''.trans hid).trans hid'.symm)
  rcases hstate with heq | hne
  · exact PowerCommandState.not_due_sent (by rwa [← heq, hsent] at hdue)
  · exact hne hsent

/-- Only a poll hands out. -/
theorem not_handsOut_of_request (h : HandOutInv σ) (hw : PowerWrite q w)
    (hq : ∀ principal, q ≠ .collectFor principal) (id : String) :
    ¬ HandsOut id ⟨i, q, w, σ.shared⟩ := by
  refine not_handsOut_of_evolves (ids_exec hw h.ids) fun r hr _ => ?_
  obtain ⟨r', hr', hstep⟩ := rowStep_exec hw σ.shared r hr
  refine ⟨r', hr', id_of_content hstep.content, hstep.state.imp_right fun ⟨_, hmove⟩ => ?_⟩
  cases q with
  | requestCommand userId deviceId spaceId input context =>
    rw [hmove.2]
    decide
  | collectFor principal => exact absurd rfl (hq principal)
  | recordResult principal input => rcases hmove with hmove | hmove <;> rw [hmove] <;> decide

/-- A statement of another call than a poll. -/
theorem DeliveryInv.of_request (h : DeliveryInv σ) (hw : PowerWrite q w)
    (hq : ∀ principal, q ≠ .collectFor principal) :
    DeliveryRely σ (σ.perform exec i q w) ∧ DeliveryInv (σ.perform exec i q w) :=
  h.perform hw fun r _ hout => absurd hout (not_handsOut_of_request h.toHandOutInv hw hq r.id)

/-- A call that is no poll is safe. -/
theorem safe_of_request {α : Type} {p : Service α} (hp : p.Only (PowerWrite q))
    (hq : ∀ principal, q ≠ .collectFor principal) (σ : PowerLog) :
    (deliveryOutline signer hashSecret).Safe i q (fun _ _ => True) p σ :=
  Outline.Safe.of_only hp fun _ _ hw hτ => DeliveryInv.of_request hτ hw hq

/-- A quiet statement is safe in any call. -/
theorem DeliveryInv.quiet (h : DeliveryInv σ) (hw : w.Quiet) :
    DeliveryRely σ (σ.perform exec i q w) ∧ DeliveryInv (σ.perform exec i q w) := by
  have hrows : (exec w σ.shared).powerCommands = σ.shared.powerCommands := by
    cases w <;> first | rfl | cases hw
  refine h.perform (hw.powerWrite q) fun r _ hout => absurd hout ?_
  refine not_handsOut_of_evolves (by rw [hrows]; exact h.ids) fun r hr _ => ⟨r, ?_, rfl, .inl rfl⟩
  rwa [hrows]

/-- A call that starts with a quiet statement is safe when the rest of it is. -/
theorem safe_quiet {α : Type} {next : World → Service α}
    {post : Except HttpException α → PowerLog → Prop} (hw : w.Quiet)
    (hnext : ∀ τ, (deliveryOutline signer hashSecret).Later i σ τ → DeliveryInv τ →
      DeliveryInv (τ.perform exec i q w) →
        (deliveryOutline signer hashSecret).Safe i q post (next τ.shared) (τ.perform exec i q w)) :
    (deliveryOutline signer hashSecret).Safe i q post (.stmt w next) σ := by
  intro τ hlater hτ
  obtain ⟨hrely, hkept⟩ := DeliveryInv.quiet (i := i) (q := q) hτ hw
  exact ⟨hrely, hkept, hnext τ hlater hτ hkept⟩

/-! ## A poll -/

/-- The call looked up the agent of its device, once. -/
def PollAgent (own : List PowerStep) (deviceId : String) (agent : AgentRow) : Prop :=
  LookedUp own deviceId agent ∧
    ∀ step ∈ own, step.write = .select .agents → findAgentByDevice deviceId step.before = some agent

/-- The call read the clock, once. -/
def PollTime (own : List PowerStep) (now : Date) : Prop :=
  (∃ step ∈ own, step.write = .clock) ∧ ∀ step ∈ own, step.write = .clock → step.before.clock = now

/-- What a poll owes for a command that it answers. -/
structure HandedOver (principal : AgentPrincipal) (own : List PowerStep) (row : PowerCommandRow) :
    Prop where
  agent : ∃ agent, PollAgent own principal.deviceId agent ∧ agent.id = row.addressee
  time : ∃ now, PollTime own now ∧ now < row.expiresAt ∧ ∀ t, row.executeAt = some t → t ≤ now

/-- What a poll owes for its whole answer. -/
structure Delivered (signer : Signer) (principal : AgentPrincipal) (cs : List SignedCommand)
    (i : Nat) (σ : PowerLog) : Prop where
  counted : ∀ id, (cs.filter (·.command.id = id)).length ≤ handOuts id (σ.own i)
  signed : ∀ s ∈ cs, ∃ row ∈ σ.shared.powerCommands,
    s = signer.sign (payload principal.deviceId row) ∧ HandedOver principal (σ.own i) row

/-- What the loop of a poll owes, over the statements that came before it. -/
structure Claimed (signer : Signer) (deviceId : String) (own₀ : List PowerStep)
    (due : List PowerCommandRow) (cs : List SignedCommand) (own : List PowerStep) : Prop where
  signed : ∀ s ∈ cs, ∃ c ∈ due, s = signer.sign (payload deviceId c)
  counted : ∀ id, (cs.filter (·.command.id = id)).length + handOuts id own₀ ≤ handOuts id own
  steps : ∀ step ∈ own, step ∈ own₀ ∨ ∃ op, step.write = .powerCommands op

theorem addressee_of_content {r c : PowerCommandRow} (h : r.content = c.content) :
    r.addressee = c.addressee := by
  show r.content.addressee = c.content.addressee
  rw [h]

theorem payload_of_content {r c : PowerCommandRow} (h : r.content = c.content) (deviceId : String) :
    payload deviceId r = payload deviceId c := by
  show payload deviceId r.content = payload deviceId c.content
  rw [h]

/-- What is owed for a command depends on its content alone. -/
theorem HandedOver.of_content {principal : AgentPrincipal} {own : List PowerStep}
    {r c : PowerCommandRow} (h : HandedOver principal own c) (hcontent : r.content = c.content) :
    HandedOver principal own r := by
  have hexpiresAt : r.expiresAt = c.expiresAt := by
    show r.content.expiresAt = c.content.expiresAt
    rw [hcontent]
  have hexecuteAt : r.executeAt = c.executeAt := by
    show r.content.executeAt = c.content.executeAt
    rw [hcontent]
  obtain ⟨now, htime, hexpires, hexecute⟩ := h.time
  refine ⟨?_, now, htime, by rwa [hexpiresAt], by rwa [hexecuteAt]⟩
  rw [addressee_of_content hcontent]
  exact h.agent

/-- The conditional update that claims a command. -/
abbrev claim (c : PowerCommandRow) (now : Date) : Write :=
  .powerCommands (.update (fun r => r.id = c.id ∧ r.state.Due)
    fun r => { r with state := .sent, deliveredAt := some now })

theorem powerWrite_claim (principal : AgentPrincipal) (c : PowerCommandRow) (now : Date) :
    PowerWrite (.collectFor principal) (claim c now) :=
  fun _ => ⟨rfl, fun hsel => .inl ⟨(of_decide_eq_true hsel).2, rfl⟩,
    fun _ => Option.some_ne_none _, fun _ => Option.some_ne_none _⟩

/-- A claim that found a row has handed the command out. -/
theorem handsOut_claim {c : PowerCommandRow} {now : Date}
    (h : (σ.shared.powerCommands.filter fun r => r.id = c.id ∧ r.state.Due).length ≠ 0) :
    HandsOut c.id ⟨i, q, claim c now, σ.shared⟩ := by
  obtain ⟨r, hr⟩ := List.exists_mem_of_length_pos (Nat.pos_of_ne_zero h)
  obtain ⟨hmem, hsel⟩ := List.mem_filter.mp hr
  obtain ⟨hid, hdue⟩ := of_decide_eq_true hsel
  refine ⟨r, hmem, hid, hdue, { r with state := .sent, deliveredAt := some now }, ?_, hid, rfl⟩
  exact Table.mem_update.mpr ⟨r, hmem, by rw [if_pos hsel]⟩

/-- A claim hands out no other command. -/
theorem not_handsOut_claim {c : PowerCommandRow} {now : Date} {id : String} (principal : AgentPrincipal)
    (h : HandOutInv σ) (hne : id ≠ c.id) : ¬ HandsOut id ⟨i, q, claim c now, σ.shared⟩ := by
  refine not_handsOut_of_evolves (ids_exec (powerWrite_claim principal c now) h.ids) fun r hr hid => ?_
  refine ⟨r, Table.mem_update.mpr ⟨r, hr, ?_⟩, rfl, .inl rfl⟩
  rw [if_neg]
  simp [hid, hne]

/-- **The loop of a poll** hands out, for the agent that was looked up, what it signs. -/
theorem safe_claimEach (principal : AgentPrincipal) (agent : AgentRow) (now : Date)
    (due : List PowerCommandRow) (own₀ : List PowerStep) (hinv : DeliveryInv σ) (hown : σ.own i = own₀)
    (hlook : LookedUp own₀ principal.deviceId agent)
    (hdue : ∀ c ∈ due, agent.id = c.addressee ∧ ∃ r ∈ σ.shared.powerCommands, r.content = c.content) :
    (deliveryOutline signer hashSecret).Safe i (.collectFor principal)
      (fun r τ => ∀ cs, r = .ok cs → Claimed signer principal.deviceId own₀ due cs (τ.own i))
      (claimEach signer principal.deviceId now due) σ := by
  induction due generalizing σ own₀ with
  | nil =>
    rintro cs ⟨⟩
    exact ⟨by simp, by simp [hown], fun step hstep => .inl (hown ▸ hstep)⟩
  | cons c due ih =>
    unfold claimEach
    rw [Prog.perform_bind]
    intro τ hlater hτ
    obtain ⟨hagent, r₁, hr₁, hcontent⟩ := hdue c List.mem_cons_self
    -- The row that was read is still there, with the same content.
    obtain ⟨r, hr, hsettles⟩ := hlater.1.rows r₁ hr₁
    have hrc : r.content = c.content := hsettles.content.trans hcontent
    have hτown : τ.own i = own₀ := hlater.2.trans hown
    have hw := powerWrite_claim principal c now
    obtain ⟨hrely, hkept⟩ := DeliveryInv.perform (i := i) hτ hw fun r' hr' hout => by
      by_cases hid : r'.id = c.id
      · obtain rfl : r' = r :=
          Table.eq_of_key hτ.ids hr' hr (hid.trans (id_of_content hrc).symm)
        exact ⟨principal, agent, rfl, hτown ▸ hlook, hagent.trans (addressee_of_content hrc).symm⟩
      · exact absurd hout (not_handsOut_claim principal hτ.toHandOutInv hid)
    refine ⟨hrely, hkept, ?_⟩
    set step : PowerStep := ⟨i, .collectFor principal, claim c now, τ.shared⟩ with hstep
    have hown₁ : (τ.perform exec i (.collectFor principal) (claim c now)).own i = step :: own₀ := by
      rw [Log.own_perform_self, hτown]
    have hrest := ih (step :: own₀) hkept hown₁ (hlook.mono (List.subset_cons_self _ _)) fun d hd => by
      obtain ⟨hagent', r₂, hr₂, hcontent₂⟩ := hdue d (List.mem_cons_of_mem _ hd)
      obtain ⟨r₃, hr₃, hs₃⟩ := hlater.1.rows r₂ hr₂
      obtain ⟨r₄, hr₄, hs₄⟩ := hrely.rows r₃ hr₃
      exact ⟨hagent', r₄, hr₄, hs₄.content.trans (hs₃.content.trans hcontent₂)⟩
    refine hrest.bind hkept (fun signed υ _ _ hsigned => ?_) fun e υ _ _ _ => by simp
    have hclaimed := hsigned signed rfl
    have hsteps : ∀ s ∈ υ.own i, s ∈ own₀ ∨ ∃ op, s.write = .powerCommands op := by
      intro s hs
      rcases hclaimed.steps s hs with hs | hs
      · rcases List.mem_cons.mp hs with rfl | hs
        · exact .inr ⟨_, rfl⟩
        · exact .inl hs
      · exact .inr hs
    split
    · -- Another poll has claimed it.
      rintro cs ⟨⟩
      refine ⟨fun s hs => ?_, fun id => ?_, hsteps⟩
      · obtain ⟨d, hd, hs⟩ := hclaimed.signed s hs
        exact ⟨d, List.mem_cons_of_mem _ hd, hs⟩
      · have := hclaimed.counted id
        rw [handOuts_cons] at this
        omega
    · rename_i hcount
      have hout : HandsOut c.id step := handsOut_claim hcount
      rintro cs ⟨⟩
      refine ⟨fun s hs => ?_, fun id => ?_, hsteps⟩
      · rcases List.mem_cons.mp hs with rfl | hs
        · exact ⟨c, List.mem_cons_self, rfl⟩
        · obtain ⟨d, hd, hs⟩ := hclaimed.signed s hs
          exact ⟨d, List.mem_cons_of_mem _ hd, hs⟩
      · have := hclaimed.counted id
        rw [handOuts_cons] at this
        rw [List.filter_cons]
        by_cases hid : c.id = id
        · subst hid
          rw [if_pos hout] at this
          have hsigned : ((signer.sign (payload principal.deviceId c)).command.id = c.id) := rfl
          simp only [hsigned, decide_true, if_true, List.length_cons]
          omega
        · have hsigned : ¬ ((signer.sign (payload principal.deviceId c)).command.id = id) := hid
          simp only [hsigned, decide_false, Bool.false_eq_true, if_false]
          omega

/-- A poll selects what is for its agent. -/
theorem DueFor.addressee {agentId : String} {now : Date} {c : PowerCommandRow}
    (h : DueFor agentId now c) : agentId = c.addressee := by
  obtain ⟨-, -, hhelper | ⟨htarget, hnone⟩, -⟩ := h
  · simp [PowerCommandRow.addressee, hhelper]
  · simp [PowerCommandRow.addressee, htarget, hnone]

/-- What the answer of the loop gives for the whole poll, at any later moment. -/
theorem Claimed.delivered {principal : AgentPrincipal} {agent : AgentRow} {now : Date}
    {own₀ : List PowerStep} {due : List PowerCommandRow} {cs : List SignedCommand}
    (h : Claimed signer principal.deviceId own₀ due cs (τ.own i)) (hsub : own₀ ⊆ τ.own i)
    (hagent : PollAgent own₀ principal.deviceId agent) (htime : PollTime own₀ now)
    (hdue : ∀ c ∈ due, DueFor agent.id now c ∧ ∃ r ∈ τ.shared.powerCommands, r.content = c.content) :
    Delivered signer principal cs i τ := by
  refine ⟨fun id => (Nat.le_add_right _ _).trans (h.counted id), fun s hs => ?_⟩
  obtain ⟨c, hc, rfl⟩ := h.signed s hs
  obtain ⟨hfor, r, hr, hcontent⟩ := hdue c hc
  obtain ⟨-, hexpires, -, hexecute⟩ := id hfor
  have hover : HandedOver principal (τ.own i) c := by
    refine ⟨⟨agent, ⟨hagent.1.mono hsub, ?_⟩, ?_⟩, now, ⟨?_, ?_⟩, hexpires, ?_⟩
    · -- The statements of the loop only write.
      intro step hstep hselect
      rcases h.steps step hstep with hstep | ⟨op, hop⟩
      · exact hagent.2 step hstep hselect
      · rw [hop] at hselect
        cases hselect
    · exact hfor.addressee
    · obtain ⟨step, hstep, hclock⟩ := htime.1
      exact ⟨step, hsub hstep, hclock⟩
    · intro step hstep hclock
      rcases h.steps step hstep with hstep | ⟨op, hop⟩
      · exact htime.2 step hstep hclock
      · rw [hop] at hclock
        cases hclock
    · intro t ht
      rcases hexecute with hnone | ⟨t', ht', hle⟩
      · rw [hnone] at ht
        cases ht
      · rw [ht'] at ht
        cases ht
        exact hle
  exact ⟨r, hr, by rw [payload_of_content hcontent], hover.of_content hcontent⟩

/-- The bulk update that lets commands expire. -/
abbrev expire (now : Date) : Write :=
  .powerCommands (.update (fun c => c.expiresAt < now ∧ c.state.Open)
    fun c => { c with state := .expired, detail := some "Expired before it was carried out" })

theorem powerWrite_expire (principal : AgentPrincipal) (now : Date) :
    PowerWrite (.collectFor principal) (expire now) :=
  fun _ => ⟨rfl, fun hsel => .inr ⟨(of_decide_eq_true hsel).2, rfl⟩, id, nofun⟩

/-- What expires is not handed out. -/
theorem not_handsOut_expire (principal : AgentPrincipal) (now : Date) (h : HandOutInv σ) (id : String) :
    ¬ HandsOut id ⟨i, q, expire now, σ.shared⟩ := by
  refine not_handsOut_of_evolves (ids_exec (powerWrite_expire principal now) h.ids) fun r hr _ => ?_
  refine ⟨_, Table.mem_update.mpr ⟨r, hr, rfl⟩, ?_⟩
  split
  · exact ⟨rfl, .inr nofun⟩
  · exact ⟨rfl, .inl rfl⟩

/-- **A poll** answers only what it hands out, for the agent of its device. -/
theorem safe_collectFor (principal : AgentPrincipal) (hown : σ.own i = []) :
    (deliveryOutline signer hashSecret).Safe i (.collectFor principal)
      (fun r τ => ∀ cs, r = .ok cs → Delivered signer principal cs i τ)
      (collectFor signer principal) σ := by
  unfold collectFor
  simp only [select_bind, newDate_bind, Prog.perform_bind]
  -- The agent of the device.
  refine safe_quiet trivial fun σ₁ h₁ _ _ => ?_
  have hown₁ : σ₁.own i = [] := h₁.2.trans hown
  split
  · rintro cs ⟨⟩
    exact ⟨by simp, by simp⟩
  rename_i agent hagent
  -- The clock.
  refine safe_quiet trivial fun σ₂ h₂ _ _ => ?_
  set now := σ₂.shared.clock with hnow
  -- What has expired.
  intro σ₃ h₃ hinv₃
  obtain ⟨hrely₃, hkept₃⟩ := DeliveryInv.perform (i := i) hinv₃ (powerWrite_expire principal now)
    fun r _ hout => absurd hout (not_handsOut_expire principal now hinv₃.toHandOutInv r.id)
  refine ⟨hrely₃, hkept₃, ?_⟩
  -- What is due.
  refine safe_quiet trivial fun σ₄ h₄ _ hkept₄ => ?_
  set due := (List.insertionSort (fun c d => c.createdAt ≤ d.createdAt)
    (σ₄.shared.powerCommands.filter (DueFor agent.id now))).take 10 with hdue
  set σ₅ := σ₄.perform exec i (.collectFor principal) (.select .powerCommands) with hσ₅
  have hmem : ∀ c ∈ due, c ∈ σ₅.shared.powerCommands ∧ DueFor agent.id now c := by
    intro c hc
    have hsorted := List.mem_of_mem_take hc
    rw [List.mem_insertionSort] at hsorted
    obtain ⟨hrow, hfor⟩ := List.mem_filter.mp hsorted
    exact ⟨hrow, of_decide_eq_true hfor⟩
  -- The statements so far.
  have hown₅ : σ₅.own i = [⟨i, .collectFor principal, .select .powerCommands, σ₄.shared⟩,
      ⟨i, .collectFor principal, expire now, σ₃.shared⟩, ⟨i, .collectFor principal, .clock, σ₂.shared⟩,
      ⟨i, .collectFor principal, .select .agents, σ₁.shared⟩] := by
    rw [hσ₅, Log.own_perform_self, h₄.2, Log.own_perform_self, h₃.2, Log.own_perform_self, h₂.2,
      Log.own_perform_self, hown₁]
  have hpollAgent : PollAgent (σ₅.own i) principal.deviceId agent := by
    rw [hown₅]
    exact ⟨⟨⟨i, .collectFor principal, .select .agents, σ₁.shared⟩, by simp, rfl, hagent⟩,
      by simp [hagent]⟩
  have hpollTime : PollTime (σ₅.own i) now := by
    rw [hown₅]
    exact ⟨⟨⟨i, .collectFor principal, .clock, σ₂.shared⟩, by simp, rfl⟩, by simp [hnow]⟩
  have hloop : (deliveryOutline signer hashSecret).Safe i (.collectFor principal) _
      (claimEach signer principal.deviceId now due) σ₅ :=
    safe_claimEach principal agent now due (σ₅.own i) hkept₄ rfl hpollAgent.1
      fun c hc => ⟨(hmem c hc).2.addressee, c, (hmem c hc).1, rfl⟩
  refine hloop.mono hkept₄ fun r τ hrely _ hclaimed cs hr => ?_
  refine (hclaimed cs hr).delivered (Log.own_subset hrely.history) hpollAgent hpollTime fun c hc => ?_
  obtain ⟨r, hr, hsettles⟩ := hrely.rows c (hmem c hc).1
  exact ⟨(hmem c hc).2, r, hr, hsettles.content⟩

/-! ## Every run -/

theorem Delivered.later {principal : AgentPrincipal} {cs : List SignedCommand}
    (h : Delivered signer principal cs i σ) (hrely : DeliveryRely σ τ) (hown : τ.own i = σ.own i) :
    Delivered signer principal cs i τ := by
  refine ⟨by rw [hown]; exact h.counted, fun s hs => ?_⟩
  obtain ⟨row, hrow, hsigned, hover⟩ := h.signed s hs
  obtain ⟨row', hrow', hsettles⟩ := hrely.rows row hrow
  refine ⟨row', hrow', ?_, ?_⟩
  · rw [payload_of_content hsettles.content]
    exact hsigned
  · rw [hown]
    exact hover.of_content hsettles.content

/-- What every call owes: a poll, its answer. -/
def PowerPost (signer : Signer) (i : Nat) (q : PowerRequest) (r : Except HttpException PowerResponse)
    (σ : PowerLog) : Prop :=
  ∀ principal cs, q = .collectFor principal → r = .ok (.commands cs) →
    Delivered signer principal cs i σ

theorem stable_powerPost (q : PowerRequest) :
    (deliveryOutline signer hashSecret).Stable i (PowerPost signer i q) :=
  fun _ _ _ hlater hpost principal cs hq hr => (hpost principal cs hq hr).later hlater.1 hlater.2

/-- **Every call** owes what it says. -/
theorem safe_powerHandler (q : PowerRequest) (hinv : DeliveryInv σ) (hown : σ.own i = []) :
    (deliveryOutline signer hashSecret).Safe i q (PowerPost signer i q)
      (powerHandler signer hashSecret q) σ := by
  cases q with
  | collectFor principal =>
    refine (safe_collectFor principal hown).bind hinv (fun cs τ _ _ hpost => ?_) fun e τ _ _ _ => ?_
    · rintro principal' cs' ⟨⟩ ⟨⟩
      exact hpost cs rfl
    · rintro principal' cs' - ⟨⟩
  | requestCommand userId deviceId spaceId input context =>
    refine (safe_of_request (only_powerHandler _) (by simp) σ).mono hinv fun r τ _ _ _ => ?_
    rintro principal cs ⟨⟩
  | recordResult principal input =>
    refine (safe_of_request (only_powerHandler _) (by simp) σ).mono hinv fun r τ _ _ _ => ?_
    rintro principal cs ⟨⟩

/-- The table of commands is as the database keeps it: one row for an identifier. -/
theorem deliveryInv_initial {w : World} (hids : (w.powerCommands.map (·.id)).Nodup) :
    DeliveryInv ⟨w, []⟩ :=
  ⟨⟨hids, fun _ => Nat.zero_le _, fun _ h => absurd h (Nat.lt_irrefl 0)⟩, by simp⟩

/-- The calls so far, from a database without any. -/
abbrev powerRun (signer : Signer) (hashSecret : String → String) (w : World)
    (moves : List (Move PowerRequest Outside)) :
    Config World Write HttpException PowerRequest PowerResponse :=
  Run.run (powerMachine signer hashSecret).step moves (Config.initial w)

theorem good_powerRun (signer : Signer) (hashSecret : String → String) {w : World} (hids : (w.powerCommands.map (·.id)).Nodup)
    (moves : List (Move PowerRequest Outside)) :
    (deliveryOutline signer hashSecret).Good (PowerPost signer) (powerRun signer hashSecret w moves) :=
  (Outline.sound (fun _ q => stable_powerPost q) (fun _ q _ hinv hown => safe_powerHandler q hinv hown)
    moves (Outline.good_initial (deliveryInv_initial hids))).1

/-- A command in an answer was handed out by the poll that answered. -/
theorem Delivered.handsOut {principal : AgentPrincipal} {cs : List SignedCommand} {s : SignedCommand}
    (h : Delivered signer principal cs i σ) (hs : s ∈ cs) :
    ∃ step ∈ σ.own i, HandsOut s.command.id step := by
  rw [← handOuts_pos]
  have hmem : s ∈ cs.filter (·.command.id = s.command.id) := List.mem_filter.mpr ⟨hs, by simp⟩
  exact (List.length_pos_of_mem hmem).trans_le (h.counted s.command.id)

/-- An answer has no command twice. -/
theorem Delivered.nodup {principal : AgentPrincipal} {cs : List SignedCommand}
    (h : Delivered signer principal cs i σ) (hinv : HandOutInv σ) : (cs.map (·.command.id)).Nodup := by
  refine List.nodup_iff_count_le_one.mpr fun id => ?_
  calc (cs.map (·.command.id)).count id
      = (cs.filter (·.command.id = id)).length := by
        rw [List.count, List.countP_map, List.countP_eq_length_filter]
        rfl
    _ ≤ handOuts id (σ.own i) := h.counted id
    _ ≤ handOuts id σ.history := List.Sublist.countP_le List.filter_sublist
    _ ≤ 1 := hinv.once id

/-- **Delivery.** In every interleaving of the statements of all calls, a poll answers a command at
most once, for the agent that the command is addressed to, inside its window, and signs the content of
its row for the device that polls; and no two polls answer one command. -/
theorem delivery (signer : Signer) (hashSecret : String → String) (w : World)
    (hids : (w.powerCommands.map (·.id)).Nodup) (moves : List (Move PowerRequest Outside)) :
    let c := powerRun signer hashSecret w moves
    (∀ i principal cs, c.Answered i (.collectFor principal) (.commands cs) →
      (cs.map (·.command.id)).Nodup ∧ ∀ s ∈ cs, ∃ row ∈ c.log.shared.powerCommands,
        s = signer.sign (payload principal.deviceId row) ∧
          HandedOver principal (c.log.own i) row) ∧
    ∀ i j principal principal' cs cs', c.Answered i (.collectFor principal) (.commands cs) →
      c.Answered j (.collectFor principal') (.commands cs') →
        ∀ s ∈ cs, ∀ s' ∈ cs', s.command.id = s'.command.id → i = j := by
  intro c
  have hgood := good_powerRun signer hashSecret hids moves
  have hinv : HandOutInv c.log := hgood.inv.toHandOutInv
  have hdelivered : ∀ i principal cs, c.Answered i (.collectFor principal) (.commands cs) →
      Delivered signer principal cs i c.log :=
    fun i principal cs h => hgood.answered h principal cs rfl rfl
  refine ⟨fun i principal cs h => ?_, fun i j principal principal' cs cs' h h' s hs s' hs' hid => ?_⟩
  · exact ⟨(hdelivered i principal cs h).nodup hinv, (hdelivered i principal cs h).signed⟩
  · obtain ⟨step, hstep, hout⟩ := (hdelivered i principal cs h).handsOut hs
    obtain ⟨step', hstep', hout'⟩ := (hdelivered j principal' cs' h').handsOut hs'
    obtain ⟨hmem, hi⟩ := List.mem_filter.mp hstep
    obtain ⟨hmem', hj⟩ := List.mem_filter.mp hstep'
    -- One statement hands the command out, and it belongs to one call.
    have hsame : step = step' := hinv.unique hmem hmem' hout (hid ▸ hout')
    rw [← of_decide_eq_true hi, ← of_decide_eq_true hj, hsame]

/-- A computer that is locked by its owner: one command, in the state that is given. -/
def lockWorld (state : PowerCommandState) : World where
  directory :=
    { agents := [⟨"agent", "space", "device", "Study", none, none, none, none, false, false⟩]
      members := [⟨"space", "user", "owner", ["power.wake", "power.lock"], false, none⟩]
      spaces := [⟨"space", "user"⟩]
      users := [⟨"user", "Ada"⟩]
      agentIds := by decide
      memberIds := by decide }
  challenges := []
  powerCommands := [{
    id := "command", spaceId := "space", targetAgentId := "agent", helperAgentId := none,
    action := .lock, state := state, requestedById := "user", requestedByDeviceId := "phone",
    nonce := "nonce", issuedAt := 0, expiresAt := 120000, executeAt := some 0, deliveredAt := none,
    acknowledgedAt := none, completedAt := none, cancelledAt := none, detail := none, createdAt := 0 }]
  remoteSessions := []
  remoteSignals := []
  audit := []
  published := []
  clock := 1000
  uuid := ⟨"id", by decide⟩
  random := ⟨"random", by decide⟩

/-- A poll of that computer. -/
def lockPoll : PowerRequest := .collectFor ⟨"user", "device"⟩

/-- Two polls, one after the other: the first has the command. -/
theorem delivery_lockWorld :
    let c := powerRun ⟨"key", String.ofList⟩ id (lockWorld .pending)
      ([.call lockPoll, .call lockPoll] ++ List.replicate 5 (.step 0) ++ List.replicate 4 (.step 1))
    ∃ s, c.Answered 0 lockPoll (.commands [s]) ∧ c.Answered 1 lockPoll (.commands []) ∧
      s.command.id = "command" ∧ ∃ row ∈ c.log.shared.powerCommands,
        s = Signer.sign ⟨"key", String.ofList⟩ (payload "device" row) ∧
          HandedOver ⟨"user", "device"⟩ (c.log.own 0) row := by
  intro c
  have h : ∃ s, c.Answered 0 lockPoll (.commands [s]) ∧ c.Answered 1 lockPoll (.commands []) ∧
      s.command.id = "command" := ⟨_, rfl, rfl, rfl⟩
  obtain ⟨s, h₀, h₁, hid⟩ := h
  have hsigned := (delivery ⟨"key", String.ofList⟩ id (lockWorld .pending) (by decide) _).1 0
    ⟨"user", "device"⟩ [s] h₀
  exact ⟨s, h₀, h₁, hid, hsigned.2 s List.mem_cons_self⟩

end Api
