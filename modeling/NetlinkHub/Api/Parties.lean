import NetlinkHub.Api.OneLive

/-! # The two parties of a session

Every call of a party looks up the session and the caller before it does anything else. A call of
someone else is refused there, while no agent's call passes as its Space's owner
(`parties_confined`). The posts and collections of an agent are checked against the owner of the Space
and not against the agent, so another computer of the owner collects the offer (`offer_misdelivered`). -/

namespace Api

open Concurrent (Prog Log Outline Move Config)
open Table (Evolves)

/-- Who makes a call of one of the two sides. -/
inductive Caller where
  | viewer (userId : String)
  | host (principal : AgentPrincipal)

/-- The calls of the two sides: who calls, and about which session. -/
def RemoteRequest.caller : RemoteRequest → Option (Caller × String)
  | .getSession userId sessionId => some (.viewer userId, sessionId)
  | .heartbeat userId sessionId => some (.viewer userId, sessionId)
  | .signal userId sessionId _ => some (.viewer userId, sessionId)
  | .signals userId sessionId => some (.viewer userId, sessionId)
  | .hostSignal principal sessionId _ => some (.host principal, sessionId)
  | .hostSignals principal sessionId => some (.host principal, sessionId)
  | .connected principal sessionId _ _ => some (.host principal, sessionId)
  | .violation principal sessionId _ => some (.host principal, sessionId)
  | _ => none

/-- The caller is a party of the session: its viewer, or the agent that it was created for. -/
def Caller.Party (w : World) (s : RemoteSessionRow) : Caller → Prop
  | .viewer userId => s.viewerId = userId
  | .host principal => (findAgentByDevice principal.deviceId w).any (·.id = s.agentId)

/-- The statement is of a call whose caller is, at that moment, no party of the session. -/
def ByStranger (step : RemoteStep) : Prop :=
  match step.request.caller with
  | some (caller, sessionId) =>
    ∀ s ∈ step.before.remoteSessions, s.id = sessionId → ¬ caller.Party step.before s
  | none => False

/-- The user owns the Space. -/
def OwnsSpace (userId spaceId : String) (w : World) : Prop :=
  (w.directory.spaces.find? (·.id = spaceId)).any (·.ownerId = userId)

/-- When the agent's call looks at the Space of the session, the agent's user does not own it. -/
def NotAsOwner (step : RemoteStep) : Prop :=
  match step.request.caller with
  | some (.host principal, sessionId) => step.write.Reads .spaces →
    ∀ s ∈ step.before.remoteSessions, s.id = sessionId →
      ¬ OwnsSpace principal.userId s.spaceId step.before
  | _ => True

/-- The statement leaves every session and every message as it is. -/
def LeavesAlone (step : RemoteStep) : Prop :=
  (exec step.write step.before).remoteSessions = step.before.remoteSessions ∧
    (exec step.write step.before).remoteSignals = step.before.remoteSignals

/-- The calls of strangers are not answered, and leave all sessions and messages as they are. -/
def Confined (c : Config World Write HttpException RemoteRequest RemoteResponse) : Prop :=
  ∀ i t, c.threads[i]? = some t → t.request.caller.isSome → (∀ step ∈ c.log.own i, ByStranger step) →
    (∀ a, t.prog ≠ .done a) ∧ ∀ step ∈ c.log.own i, LeavesAlone step

/-- All statements of a call are a stranger's, who does not pass as the owner. -/
def Intrusion (own : List RemoteStep) : Prop := ∀ step ∈ own, ByStranger step ∧ NotAsOwner step

/-- What strangers have done left everything as it was. -/
def ConfinedInv (σ : RemoteLog) : Prop :=
  ∀ i, Intrusion (σ.own i) → ∀ step ∈ σ.own i, LeavesAlone step

/-- Sessions stay, with their content. -/
def SessionsStay (σ τ : RemoteLog) : Prop :=
  Evolves (fun s s' => s'.content = s.content) σ.shared.remoteSessions τ.shared.remoteSessions

variable {signer : Signer} {hashSecret : String → String} {ice : Ice} {σ τ : RemoteLog} {i : Nat}
  {q : RemoteRequest} {w : Write} {α β : Type}

theorem sessionsStay_perform (σ : RemoteLog) : SessionsStay σ (σ.perform exec i q w) := by
  intro s hs
  obtain ⟨s', hs', hstep⟩ := sessionStep_exec w σ.shared s hs
  exact ⟨s', hs', hstep.content⟩

theorem ConfinedInv.perform (h : ConfinedInv σ)
    (halone : Intrusion (⟨i, q, w, σ.shared⟩ :: σ.own i) → LeavesAlone ⟨i, q, w, σ.shared⟩) :
    ConfinedInv (σ.perform exec i q w) := by
  intro j hintrusion step hstep
  rcases eq_or_ne i j with rfl | hij
  · rw [Log.own_perform_self] at hintrusion hstep
    rcases List.mem_cons.mp hstep with rfl | hstep
    · exact halone hintrusion
    · exact h i (fun s hs => hintrusion s (List.mem_cons_of_mem _ hs)) step hstep
  · rw [Log.own_perform_of_ne _ _ _ _ hij] at hintrusion hstep
    exact h j hintrusion step hstep

/-- The outline of the two parties. -/
def partiesOutline (signer : Signer) (hashSecret : String → String) (ice : Ice) :
    Outline (remoteMachine signer hashSecret ice) where
  inv := ConfinedInv
  rely := SessionsStay
  refl _ s hs := ⟨s, hs, rfl⟩
  trans h h' := h.trans (fun hab hbc => hbc.trans hab) h'
  env e σ h := by
    refine ⟨h, ?_⟩
    have hrows : (σ.change ((remoteMachine signer hashSecret ice).env e)).shared.remoteSessions =
        σ.shared.remoteSessions := remoteSessions_outside e σ.shared
    rw [SessionsStay, hrows]
    exact fun s hs => ⟨s, hs, rfl⟩

/-- The call goes on only for a party, or for one who passes as the owner. -/
def Admitted (i : Nat) (r : Except HttpException α) (σ : RemoteLog) : Prop :=
  ∀ a, r = .ok a → ¬ Intrusion (σ.own i)

theorem admitted_error (e : HttpException) (σ : RemoteLog) :
    Admitted i (.error e : Except HttpException α) σ := nofun

/-- What the statement before the answer found lets no stranger in. -/
theorem admitted_ok {a : α} {s : World} (h : ¬ (ByStranger ⟨i, q, w, s⟩ ∧ NotAsOwner ⟨i, q, w, s⟩))
    (hown : σ.own i = ⟨i, q, w, s⟩ :: τ.own i) : Admitted i (.ok a) σ := by
  intro _ _ hintrusion
  rw [hown] at hintrusion
  exact h (hintrusion _ List.mem_cons_self)

theorem leavesAlone_quiet {step : RemoteStep} (h : step.write.Quiet) : LeavesAlone step := by
  obtain ⟨thread, request, write, before⟩ := step
  cases write <;> first | exact ⟨rfl, rfl⟩ | cases h

/-- A quiet statement, and then what follows it. -/
theorem safe_parties_quiet {next : World → Service α} {post : Except HttpException α → RemoteLog → Prop}
    (hw : w.Quiet)
    (hnext : ∀ τ, SessionsStay σ τ → ConfinedInv (τ.perform exec i q w) →
      (partiesOutline signer hashSecret ice).Safe i q post (next τ.shared) (τ.perform exec i q w)) :
    (partiesOutline signer hashSecret ice).Safe i q post (.stmt w next) σ := by
  intro τ hlater hτ
  have hkept : ConfinedInv (τ.perform exec i q w) := ConfinedInv.perform hτ fun _ => leavesAlone_quiet hw
  exact ⟨sessionsStay_perform τ, hkept, hnext τ hlater.1 hkept⟩

/-- A call that has been admitted may do anything. -/
theorem keeps_admitted (p : Service α) :
    (partiesOutline signer hashSecret ice).Keeps i q (fun own => ¬ Intrusion own) p := by
  refine Outline.keeps_of_only (Prog.only_true p) fun w σ _ hσ hadmitted => ?_
  have hstill : ¬ Intrusion (⟨i, q, w, σ.shared⟩ :: σ.own i) :=
    fun h => hadmitted fun step hstep => h step (List.mem_cons_of_mem _ hstep)
  exact ⟨sessionsStay_perform σ, ConfinedInv.perform hσ fun h => absurd h hstill, hstill⟩

/-- **Guards.** Behind a check that admits parties only, a call may do anything. -/
theorem safe_guarded {p : Service α} {f : α → Service β} (hσ : ConfinedInv σ)
    (h : (partiesOutline signer hashSecret ice).Safe i q (Admitted i) p σ) :
    (partiesOutline signer hashSecret ice).Safe i q (Admitted i) (p >>= f) σ := by
  refine h.bind hσ (fun a τ _ hτ hadmitted => ?_) fun e τ _ _ _ => nofun
  refine ((keeps_admitted (f a)).safe τ hτ (hadmitted a rfl)).mono hτ fun r υ _ _ hpost => ?_
  exact fun _ _ => hpost

/-! ## The checks -/

/-- Who passes `requireViewerSession` is the viewer. -/
theorem safe_requireViewerSession {userId sessionId : String}
    (hq : q.caller = some (.viewer userId, sessionId)) (σ : RemoteLog) :
    (partiesOutline signer hashSecret ice).Safe i q (Admitted i) (requireViewerSession userId sessionId)
      σ := by
  unfold requireViewerSession selectSession
  rw [select_bind]
  refine safe_parties_quiet trivial fun τ _ _ => ?_
  split
  · exact admitted_error _ _
  · rename_i session hsession
    obtain ⟨row, hrow, rfl⟩ := Option.map_eq_some_iff.mp hsession
    obtain ⟨hmem, hid⟩ := findSession_some hrow
    split
    · exact admitted_error _ _
    · rename_i hviewer
      refine admitted_ok (fun ⟨hstranger, _⟩ => ?_) (Log.own_perform_self ..)
      simp only [ByStranger, hq] at hstranger
      exact hstranger row hmem hid (not_not.mp hviewer)

/-- Who passes `requireOwner` owns the Space. -/
theorem safe_requireOwner {principal : AgentPrincipal} {sessionId spaceId : String}
    (hq : q.caller = some (.host principal, sessionId))
    (hspace : ∀ τ, SessionsStay σ τ → ∃ s ∈ τ.shared.remoteSessions, s.id = sessionId ∧ s.spaceId = spaceId) :
    (partiesOutline signer hashSecret ice).Safe i q (Admitted i)
      (requireOwner principal.userId spaceId none) σ := by
  unfold requireOwner
  rw [select_bind]
  refine safe_parties_quiet trivial fun τ hτ _ => ?_
  split
  · exact admitted_error _ _
  rename_i space hfound
  split
  · rename_i howner
    obtain ⟨s, hs, hid, hsame⟩ := hspace τ hτ
    refine admitted_ok (fun ⟨_, hnot⟩ => ?_) (Log.own_perform_self ..)
    simp only [NotAsOwner, hq] at hnot
    refine hnot rfl s hs hid ?_
    rw [OwnsSpace, hsame, hfound]
    simp [howner]
  · rw [select_bind]
    refine safe_parties_quiet trivial fun υ _ _ => ?_
    split
    · exact admitted_error _ _
    · rw [record_bind]
      exact safe_parties_quiet (quiet_audit (by simp)) fun _ _ _ => admitted_error _ _

/-- Who passes `requireHostSession` is the session's agent, or passes as the Space's owner. -/
theorem safe_requireHostSession {principal : AgentPrincipal} {sessionId : String}
    (hq : q.caller = some (.host principal, sessionId)) {deviceId : Option String}
    (hdevice : deviceId = none ∨ deviceId = some principal.deviceId) (σ : RemoteLog) :
    (partiesOutline signer hashSecret ice).Safe i q (Admitted i)
      (requireHostSession principal.userId sessionId deviceId) σ := by
  unfold requireHostSession selectSession
  rw [select_bind]
  refine safe_parties_quiet trivial fun τ _ hkept => ?_
  split
  · exact admitted_error _ _
  rename_i session hsession
  obtain ⟨row, hrow, rfl⟩ := Option.map_eq_some_iff.mp hsession
  obtain ⟨hmem, hid⟩ := findSession_some hrow
  -- The row that was read is still there at the second look-up.
  have hstays : ∀ υ : RemoteLog, SessionsStay (τ.perform exec i q (.select .remoteSessions)) υ →
      ∃ s ∈ υ.shared.remoteSessions, s.content = row.content := fun υ h => h row hmem
  split
  · rename_i device hfilter
    obtain ⟨hsome, -⟩ := Option.filter_eq_some_iff.mp hfilter
    obtain rfl : device = principal.deviceId := by
      rcases hdevice with rfl | rfl
      · cases hsome
      · exact (Option.some.inj hsome).symm
    rw [select_bind]
    refine safe_parties_quiet trivial fun υ hυ _ => ?_
    obtain ⟨s, hs, hcontent⟩ := hstays υ hυ
    split
    · rename_i hagent
      refine admitted_ok (fun ⟨hstranger, _⟩ => ?_) (Log.own_perform_self ..)
      simp only [ByStranger, hq] at hstranger
      refine hstranger s hs ((sessionId_of_content hcontent).trans hid) ?_
      show ((findAgentByDevice principal.deviceId υ.shared).any (·.id = s.agentId)) = true
      rw [agentId_of_content hcontent]
      exact hagent
    · exact admitted_error _ _
  · refine safe_guarded hkept (safe_requireOwner hq fun υ hυ => ?_)
    obtain ⟨s, hs, hcontent⟩ := hstays υ hυ
    refine ⟨s, hs, (sessionId_of_content hcontent).trans hid, ?_⟩
    show s.content.spaceId = row.content.spaceId
    rw [hcontent]

/-! ## The calls -/

/-- A call that is no party's keeps the invariant. -/
theorem keeps_unrelated (hq : q.caller = none) (p : Service α) :
    (partiesOutline signer hashSecret ice).Keeps i q (fun _ => True) p := by
  refine Outline.keeps_of_only (Prog.only_true p) fun w σ _ hσ _ => ?_
  refine ⟨sessionsStay_perform σ, ConfinedInv.perform hσ fun hintrusion => ?_, trivial⟩
  have hstranger := (hintrusion _ List.mem_cons_self).1
  simp only [ByStranger, hq] at hstranger

/-- **Each call of a party** admits parties only, but for the owner. -/
theorem safe_remoteHandler (hσ : ConfinedInv σ) :
    (partiesOutline signer hashSecret ice).Safe i q (fun r τ => q.caller.isSome → Admitted i r τ)
      (remoteHandler signer hashSecret ice q) σ := by
  have hparty : ∀ {p : Service RemoteResponse},
      (partiesOutline signer hashSecret ice).Safe i q (Admitted i) p σ →
        (partiesOutline signer hashSecret ice).Safe i q (fun r τ => q.caller.isSome → Admitted i r τ) p σ :=
    fun h => h.mono hσ fun _ _ _ _ hpost _ => hpost
  have hother : ∀ {p : Service RemoteResponse}, q.caller = none →
      (partiesOutline signer hashSecret ice).Safe i q (fun r τ => q.caller.isSome → Admitted i r τ) p σ := by
    intro p hq
    refine ((keeps_unrelated hq p).safe σ hσ trivial).mono hσ fun _ _ _ _ _ hsome => ?_
    rw [hq] at hsome
    cases hsome
  cases q with
  | getSession userId sessionId =>
    exact hparty (safe_guarded hσ (safe_guarded hσ (safe_requireViewerSession rfl σ)))
  | heartbeat userId sessionId =>
    exact hparty (safe_guarded hσ (safe_guarded hσ (safe_requireViewerSession rfl σ)))
  | signal userId sessionId input =>
    exact hparty (safe_guarded hσ (safe_guarded hσ (safe_requireViewerSession rfl σ)))
  | signals userId sessionId =>
    exact hparty (safe_guarded hσ (safe_guarded hσ (safe_requireViewerSession rfl σ)))
  | hostSignal principal sessionId input =>
    exact hparty (safe_guarded hσ (safe_guarded hσ (safe_requireHostSession rfl (.inl rfl) σ)))
  | hostSignals principal sessionId =>
    exact hparty (safe_guarded hσ (safe_guarded hσ (safe_requireHostSession rfl (.inl rfl) σ)))
  | connected principal sessionId localType remoteType =>
    exact hparty (safe_guarded hσ (safe_guarded hσ (safe_requireHostSession rfl (.inr rfl) σ)))
  | violation principal sessionId count =>
    exact hparty (safe_guarded hσ (safe_guarded hσ (safe_requireHostSession rfl (.inr rfl) σ)))
  | _ => exact hother rfl

/-- **Confinement.** In every run in which no agent of another session passes as the owner of the Space,
the calls of strangers are not answered and change no session and no message. -/
theorem parties_confined (signer : Signer) (hashSecret : String → String) (ice : Ice) (w : World)
    (moves : List (Move RemoteRequest Outside))
    (hcond : ∀ step ∈ (remoteRun signer hashSecret ice w moves).log.history,
      ByStranger step → NotAsOwner step) :
    Confined (remoteRun signer hashSecret ice w moves) := by
  have hstable : ∀ i (q : RemoteRequest), (partiesOutline signer hashSecret ice).Stable i
      fun (r : Except HttpException RemoteResponse) σ => q.caller.isSome → Admitted i r σ := by
    intro i q r σ τ hlater hpost hsome a ha
    rw [hlater.2]
    exact hpost hsome a ha
  have hstart : ConfinedInv ⟨w, []⟩ := fun i _ step hstep => by simp [Log.own] at hstep
  have hgood := (Outline.sound hstable (fun i q σ hσ _ => safe_remoteHandler hσ) moves
    (Outline.good_initial hstart)).1
  intro i t ht hsome hstrangers
  have hintrusion : Intrusion ((remoteRun signer hashSecret ice w moves).log.own i) :=
    fun step hstep => ⟨hstrangers step hstep,
      hcond step (List.mem_of_mem_filter hstep) (hstrangers step hstep)⟩
  refine ⟨fun a ha => ?_, hgood.inv i hintrusion⟩
  have hsafe := hgood.safe i t ht
  rw [ha] at hsafe
  exact hsafe hsome a rfl hintrusion

/-! ## Another computer -/

instance (w : World) (s : RemoteSessionRow) : DecidablePred (Caller.Party w s) := fun caller => by
  unfold Caller.Party
  split <;> infer_instance

instance (userId spaceId : String) : DecidablePred (OwnsSpace userId spaceId) := fun _ => by
  unfold OwnsSpace
  infer_instance

instance : DecidablePred ByStranger := fun step => by
  unfold ByStranger
  split <;> infer_instance

instance : DecidablePred NotAsOwner := fun step => by
  unfold NotAsOwner
  split <;> infer_instance

/-- Two computers; the viewer of the first has posted an offer. -/
def twoComputers : World :=
  { screenWorld with
    directory :=
      { screenWorld.directory with
        agents := [⟨"agent", "space", "device", "Study", none, some 900, none, none, false, false⟩,
          ⟨"agent-2", "space", "device-2", "Kitchen", none, some 900, none, none, false, false⟩]
        agentIds := by decide }
    remoteSessions :=
      [newRemoteSession "ada" "laptop" "space" ⟨"agent", .view, none, none⟩ "agent" "first" "nonce-1" 900
        900]
    remoteSignals := [⟨"signal", "first", 1, .viewer, "offer", "sdp", 950, none⟩] }

/-- The second computer, enrolled by a user, asks for the messages of the first. -/
def collectOther (userId : String) : RemoteRequest := .hostSignals ⟨userId, "device-2"⟩ "first"

/-- The run of that call. -/
abbrev otherRun (userId : String) : Config World Write HttpException RemoteRequest RemoteResponse :=
  remoteRun ⟨"key", String.ofList⟩ id noIce twoComputers
    (.call (collectOther userId) :: List.replicate 5 (.step 0))

theorem parties_confined_member :
    Confined (otherRun "ben") ∧ (otherRun "ben").threads =
      [⟨collectOther "ben", .raise (forbidden "Only the owner of this Space can do that.")⟩] :=
  ⟨parties_confined _ _ _ _ _ (by decide), rfl⟩

/-- Another computer of the owner is answered with the offer. -/
theorem offer_misdelivered : ¬ Confined (otherRun "ada") := by
  intro h
  exact (h 0 ⟨collectOther "ada", _⟩ rfl rfl (by decide)).1 _ rfl

end Api
