import NetlinkHub.Agent.Hosts
import NetlinkHub.Signed.Formats
import NetlinkHub.System.Sessions
import NetlinkHub.System.Wire

/-! # Remote control from end to end

The control plane and one computer, with everything that is between them free: what comes back from a poll
is whatever arrives, as long as nobody but the control plane can sign (`Unforgeable`). The computer then
hosts sessions of the control plane alone, each in the mode it was created in (`Inv`). So what it injects,
it injects for a session whose viewer was permitted to control and has confirmed it, and never for a session
that was created to look on (`control_authorised`). -/

/-! ## The text of a grant -/

namespace Api

/-- What a grant of the agent says is what a session is. -/
structure GrantOf (r : RemoteSessionRow) (g : RemoteGrant.Grant) : Prop where
  sessionID : g.sessionID = r.id
  spaceID : g.spaceID = r.spaceId
  agentID : g.agentID = r.agentId
  mode : g.mode = r.mode.text
  requestedBy : g.requestedBy = r.viewerId
  nonce : g.nonce = r.nonce

variable {r r' : RemoteSessionRow} {g : RemoteGrant.Grant}

theorem GrantOf.of_content (h : GrantOf r g) (hcontent : r'.content = r.content) : GrantOf r' g := by
  have hgrant := grantFor_of_content hcontent
  exact {
    sessionID := h.sessionID.trans (congrArg GrantPayload.sessionId hgrant).symm
    spaceID := h.spaceID.trans (congrArg GrantPayload.spaceId hgrant).symm
    agentID := h.agentID.trans (congrArg GrantPayload.agentId hgrant).symm
    mode := h.mode.trans (congrArg GrantPayload.mode hgrant).symm
    requestedBy := h.requestedBy.trans (congrArg GrantPayload.requestedBy hgrant).symm
    nonce := h.nonce.trans (congrArg GrantPayload.nonce hgrant).symm }

theorem RemoteSessionMode.text_inj {m m' : RemoteSessionMode} (h : m.text = m'.text) : m = m' := by
  revert h
  cases m <;> cases m' <;> decide

theorem newline_notMem_grantFor (h : r.OneLine) : ∀ field ∈ (grantFor r).signedFields, '\n' ∉ field := by
  have hname : '\n' ∉ "netlink.remote.v1".toList := by decide
  have hmode : OneLine r.mode.text := by
    cases r.mode <;> decide
  simp only [GrantPayload.signedFields, grantFor, List.forall_mem_cons]
  exact ⟨hname, h.id, h.spaceId, h.agentId, hmode, h.viewerId, oneLine_toISOString _, oneLine_toISOString _, h.nonce,
    List.forall_mem_nil _⟩

/-- **A grant with the text of a session's grant** is of the session, whatever else it may be. -/
theorem grantOf_of_text (h : r.OneLine)
    (htext : RemoteGrant.signingInput g = buildGrantSigningInput (grantFor r)) : GrantOf r g := by
  have hlen : g.signedFields.length = (grantFor r).signedFields.length := by
    simp [RemoteGrant.Grant.signedFields, GrantPayload.signedFields]
  have hfields := Delimited.intercalate_inj_of_length hlen (newline_notMem_grantFor h) htext
  simp only [RemoteGrant.Grant.signedFields, GrantPayload.signedFields, grantFor, List.cons.injEq, String.toList_inj,
    true_and] at hfields
  obtain ⟨hsession, hspace, hagent, hmode, hrequested, -, -, hnonce, -⟩ := hfields
  exact ⟨hsession, hspace, hagent, hmode, hrequested, hnonce⟩

/-- The text of a command is not that of a grant. -/
theorem signingInput_ne_command (p : CommandPayload) (g : RemoteGrant.Grant) :
    RemoteGrant.signingInput g ≠ buildSigningInput p := by
  have hcommand : Signed.StartsWith "netlink.power.v1" (buildSigningInput p) := ⟨_, List.intercalate_cons_cons⟩
  exact (Signed.startsWith_grant g).ne hcommand (by decide) (by decide) (by decide)

end Api

namespace RemoteControl

open Api (GrantOf RemoteSessionRow)
open Concurrent (Config Move)
open ControlPlane (ControlLog Outside Presents UsesCode machine viewerRequest)
open Sharing (SessionStays)
open Table (Evolves)

variable {P : Type}

/-! ## The system -/

/-- The control plane, and the agent of one computer. -/
structure System (P : Type) where
  control : Config (ControlPlane.World P) ControlPlane.Write Api.HttpException ControlPlane.Request ControlPlane.Response
  agent : Agent.State

/-- The sessions of the control plane. -/
def System.sessions (s : System P) : List RemoteSessionRow := s.control.log.shared.sessions

/-- What happens next. -/
inductive Event (P : Type) where
  /-- The control plane takes a request, or goes on with one, or its surroundings change. -/
  | control (move : Move ControlPlane.Request (Outside P))
  /-- The service of the agent is started, for the first time or again. -/
  | start (existing joined : Option Agent.Enrollment) (time : Time) (fetch : Agent.Fetch)
  | agent (e : Agent.Event)

/-- A new process of the agent; the record of what has been injected goes on. -/
def restart (existing joined : Option Agent.Enrollment) (time : Time) (fetch : Agent.Fetch) (a : Agent.State) :
    Agent.State := { Agent.start existing joined time fetch with injected := a.injected }

/-- One step of the system. -/
def step (D : Sharing.Deployment P) (F : Account.Platform) (scheme : Signature.Scheme) : Event P → System P → System P
  | .control move, s => { s with control := (machine D F).step move s.control }
  | .start existing joined time fetch, s => { s with agent := restart existing joined time fetch s.agent }
  | .agent e, s => { s with agent := Agent.step scheme e s.agent }

/-- Nothing has happened yet. -/
def initial (w : ControlPlane.World P) (time : Time) : System P := ⟨Config.initial w, Agent.new none time⟩

/-- The system after a run. -/
abbrev run (D : Sharing.Deployment P) (F : Account.Platform) (scheme : Signature.Scheme) (events : List (Event P))
    (w : ControlPlane.World P) (time : Time) : System P := Run.run (step D F scheme) events (initial w time)

/-- The control plane has signed a text: of a power command, or of a grant that it has answered an agent. -/
def Signs (s : System P) (text : List Char) : Prop :=
  (∃ payload, text = Api.buildSigningInput payload) ∨
    ∃ j signed gs, s.control.Answered j (.sharing (.account (.agent .grants signed)))
      (.sharing (.account (.remote (.grants gs)))) ∧ ∃ g ∈ gs, text = Api.buildGrantSigningInput g.grant

/-- Nobody else can sign. Of whatever arrives at a poll, a text whose signature verifies under a key that the
agent trusts has been signed by the control plane. -/
def Unforgeable (scheme : Signature.Scheme) : Event P → System P → Prop
  | .agent (.pollRemote _ (.ok arrivals) _), s => ∀ verifier, s.agent.remoteVerifier = some verifier →
      ∀ arrival ∈ arrivals, ∀ envelope, arrival.envelope = some envelope →
        Signature.check scheme verifier.trustedKeys envelope.keyID (RemoteGrant.signingInput envelope.grant)
            envelope.signature = .ok () →
          Signs s (RemoteGrant.signingInput envelope.grant)
  | _, _ => True

/-- The grant is of a session of the control plane. -/
def Backed (s : System P) (g : RemoteGrant.Grant) : Prop := ∃ r ∈ s.sessions, GrantOf r g

/-- The session of the grant was created to control, by a call of its viewer. The viewer was permitted to
observe and to control devices in the Space of the session, and the call has used up a step-up code of the
viewer. -/
def Authorised (D : Sharing.Deployment P) (F : Account.Platform) (σ : ControlLog P) (g : RemoteGrant.Grant) : Prop :=
  ∃ step earlier row, step :: earlier <:+ σ.history ∧ step.write.creates = some row ∧
    (∃ r ∈ σ.shared.sessions, SessionStays row r) ∧ GrantOf row g ∧ row.mode = .control ∧
    (∃ token input context, step.request = viewerRequest token (.createSession row.spaceId input context) ∧
      input.mode = .control ∧ Presents F token row.viewerId (earlier.filter (·.thread = step.thread))) ∧
    (∀ permission ∈ ["devices.observe", "devices.control"], Api.Permitted ControlPlane.World.api row.viewerId
      row.spaceId permission (earlier.filter (·.thread = step.thread))) ∧
    ∃ id, ∃ s ∈ earlier.filter (·.thread = step.thread), UsesCode D.provider row.viewerId id s

/-! ## What every step keeps -/

variable {D : Sharing.Deployment P} {F : Account.Platform} {scheme : Signature.Scheme} {s : System P}
  {w : ControlPlane.World P} {g : RemoteGrant.Grant}

/-- The control plane is in a run of its own. What the agent hosts is of sessions there, and so is what it
has injected, which they allow. -/
structure Inv (D : Sharing.Deployment P) (F : Account.Platform) (w : ControlPlane.World P) (s : System P) : Prop where
  moves : ∃ moves, s.control = ControlPlane.run D F w moves
  hosted : ∀ g ∈ s.agent.grants, Backed s g
  injected : ∀ x ∈ s.agent.injected, Backed s x.1 ∧ x.1.mode = "control"

/-- What has not changed is still backed. -/
theorem Inv.agent (h : Inv D F w s) {a : Agent.State} (hgrants : ∀ g ∈ a.grants, Backed s g)
    (hinjected : ∀ x ∈ a.injected, Backed s x.1 ∧ x.1.mode = "control") : Inv D F w { s with agent := a } :=
  ⟨h.moves, hgrants, hinjected⟩

theorem Inv.same (h : Inv D F w s) {a : Agent.State} (hsame : Agent.SameHosts s.agent a) :
    Inv D F w { s with agent := a } := by
  refine h.agent (fun g hg => h.hosted g ?_) fun x hx => h.injected x (hsame.injected ▸ hx)
  rw [Agent.State.grants, hsame.hosts] at hg
  exact hg

/-- Sessions stay while the control plane goes on. -/
theorem Backed.move (hnone : w.sessions = []) {moves : List (Move ControlPlane.Request (Outside P))}
    (hrun : s.control = ControlPlane.run D F w moves) (move : Move ControlPlane.Request (Outside P)) (h : Backed s g) :
    Backed { s with control := (machine D F).step move s.control } g := by
  obtain ⟨r, hr, hgrant⟩ := h
  have hids : (w.sessions.map (·.id)).Nodup := by
    rw [hnone]
    exact List.nodup_nil
  have hlater := ((ControlPlane.kept_sessions D F).run hids moves [move] fun _ _ => trivial).1
  rw [Run.run_append] at hlater
  have hr' : r ∈ (ControlPlane.run D F w moves).log.shared.sessions := hrun ▸ hr
  obtain ⟨r', hmem, hstays⟩ := hlater r hr'
  refine ⟨r', ?_, hgrant.of_content hstays⟩
  show r' ∈ ((machine D F).step move s.control).log.shared.sessions
  rw [hrun]
  exact hmem

theorem inv_control (hnone : w.sessions = []) (h : Inv D F w s) (move : Move ControlPlane.Request (Outside P)) :
    Inv D F w { s with control := (machine D F).step move s.control } := by
  obtain ⟨⟨moves, hrun⟩, hhosted, hinjected⟩ := h
  refine ⟨⟨moves ++ [move], ?_⟩, fun g hg => (hhosted g hg).move hnone hrun move, fun x hx => ?_⟩
  · rw [ControlPlane.run, Run.run_append, ← ControlPlane.run, ← hrun]
    rfl
  · obtain ⟨hbacked, hmode⟩ := hinjected x hx
    exact ⟨hbacked.move hnone hrun move, hmode⟩

/-- A new process hosts nothing. -/
theorem inv_start (h : Inv D F w s) (existing joined : Option Agent.Enrollment) (time : Time) (fetch : Agent.Fetch) :
    Inv D F w { s with agent := restart existing joined time fetch s.agent } := by
  have hsame : Agent.SameHosts { Agent.new existing time with current := existing.or joined }
      (Agent.start existing joined time fetch) := (Agent.SameHosts.refl _).loadSigningKey
  refine h.agent (fun g hg => ?_) h.injected
  have hnone : (restart existing joined time fetch s.agent).grants = [] := congrArg (List.map _) hsame.hosts
  rw [hnone] at hg
  cases hg

/-- **What the control plane has signed** for a grant is the text of a session that it has. -/
theorem Signs.backed (hnone : w.sessions = []) {moves : List (Move ControlPlane.Request (Outside P))}
    (hrun : s.control = ControlPlane.run D F w moves) (h : Signs s (RemoteGrant.signingInput g)) : Backed s g := by
  have hids : (w.sessions.map (·.id)).Nodup := by
    rw [hnone]
    exact List.nodup_nil
  rcases h with ⟨payload, htext⟩ | ⟨j, signed, gs, hanswered, p, hp, htext⟩
  · exact absurd htext (Api.signingInput_ne_command payload g)
  rw [hrun] at hanswered
  obtain ⟨r, hr, hgrant⟩ := ControlPlane.granted_run hids hanswered hp
  -- The session was created with texts on single lines, and has kept them.
  obtain ⟨step, earlier, row, -, -, hstays, hcreated⟩ := ControlPlane.created_run hnone hr
  have htext' : RemoteGrant.signingInput g = Api.buildGrantSigningInput (Api.grantFor row) := by
    rw [htext, hgrant, Api.grantFor_of_content hstays]
  refine ⟨r, ?_, (Api.grantOf_of_text hcreated.oneLine htext').of_content hstays⟩
  rw [System.sessions, hrun]
  exact hr

/-- **A poll** starts hosts for sessions of the control plane alone. -/
theorem inv_pollRemote (hnone : w.sessions = []) (h : Inv D F w s) (fetch : Agent.Fetch)
    (answer : Agent.Answer (List Agent.GrantArrival)) (reset : Bool)
    (hforge : Unforgeable scheme (.agent (.pollRemote fetch answer reset)) s) :
    Inv D F w { s with agent := Agent.pollRemote scheme fetch answer reset s.agent } := by
  rcases @Agent.starts_pollRemote scheme s.agent fetch answer reset with
    hsame | ⟨verifier, arrivals, hverifier, rfl, ⟨started, hhosts, hstarted⟩, hinjected⟩
  · exact h.same hsame
  refine h.agent (fun g hg => ?_) fun x hx => h.injected x (hinjected ▸ hx)
  rw [Agent.State.grants, hhosts, List.map_append] at hg
  rcases List.mem_append.mp hg with hg | hg
  · obtain ⟨host, hhost, rfl⟩ := List.mem_map.mp hg
    obtain ⟨arrival, harrival, envelope, henvelope, hchecks⟩ := hstarted host hhost
    obtain ⟨heq, -, -, hcheck, -⟩ := RemoteGrant.checks_ok hchecks
    obtain ⟨moves, hrun⟩ := h.moves
    rw [heq] at hcheck ⊢
    exact (hforge verifier hverifier arrival harrival envelope henvelope hcheck).backed hnone hrun
  · exact h.hosted g hg

/-- **A message** to a host injects at most what the mode of its session allows. -/
theorem inv_message (h : Inv D F w s) (message : Agent.Message) :
    Inv D F w { s with agent := Agent.handleMessage message s.agent } := by
  refine h.agent (fun g hg => h.hosted g ?_) fun x hx => ?_
  · rwa [Agent.grants_handleMessage] at hg
  rcases Agent.injected_handleMessage message s.agent with hsame | ⟨grant, injection, hgrant, hmode, hinjected⟩
  · exact h.injected x (hsame ▸ hx)
  rw [hinjected] at hx
  rcases List.mem_cons.mp hx with rfl | hx
  · exact ⟨h.hosted grant (List.mem_of_getElem? hgrant), hmode⟩
  · exact h.injected x hx

/-- **One step** of the system. -/
theorem inv_step (hnone : w.sessions = []) (h : Inv D F w s) (e : Event P) (hforge : Unforgeable scheme e s) :
    Inv D F w (step D F scheme e s) := by
  cases e with
  | control move => exact inv_control hnone h move
  | start existing joined time fetch => exact inv_start h existing joined time fetch
  | agent e => cases e with
    | beat answer reset saved fetch => exact h.same (Agent.sameHosts_beat answer reset saved)
    | pollPower fetch answer reset => exact h.same (Agent.sameHosts_pollPower answer reset)
    | pollRemote fetch answer reset => exact inv_pollRemote hnone h fetch answer reset hforge
    | message message => exact inv_message h message

theorem inv_initial (w : ControlPlane.World P) (time : Time) : Inv D F w (initial w time) where
  moves := ⟨[], rfl⟩
  hosted g hg := by cases hg
  injected x hx := by cases hx

/-- **Along every run** in which nobody else signs. -/
theorem inv_run (hnone : w.sessions = []) {time : Time} {events : List (Event P)}
    (h : Run.Along (step D F scheme) (Unforgeable scheme) events (initial w time)) :
    Inv D F w (run D F scheme events w time) :=
  Run.Along.invariant (fun e _ hforge hinv => inv_step hnone hinv e hforge) h (inv_initial w time)

/-! ## What is injected -/

theorem mode_of_stays {r r' : RemoteSessionRow} (h : SessionStays r r') : r'.mode = r.mode := by
  have hcontent : r'.content.mode = r.content.mode := by rw [show r'.content = r.content from h]
  exact hcontent

/-- What is injected is injected for a session that was created to control. -/
theorem Inv.authorised (hnone : w.sessions = []) (hcodes : (w.codes.map (·.id)).Nodup) (h : Inv D F w s)
    {x : RemoteGrant.Grant × Remote.Injection} (hx : x ∈ s.agent.injected) :
    Authorised D F s.control.log x.1 := by
  obtain ⟨⟨r, hr, hgrant⟩, hmode⟩ := h.injected x hx
  obtain ⟨moves, hrun⟩ := h.moves
  rw [System.sessions, hrun] at hr
  rw [hrun]
  obtain ⟨step, earlier, row, hsuffix, hcreates, hstays, hcreated⟩ := ControlPlane.created_run hnone hr
  have hcontrol : row.mode = .control := by
    rw [← mode_of_stays hstays]
    exact Api.RemoteSessionMode.text_inj (hgrant.mode.symm.trans hmode)
  have hown : earlier.filter (·.thread = step.thread) ⊆ (ControlPlane.run D F w moves).log.history := fun a ha =>
    hsuffix.subset (List.mem_cons_of_mem _ (List.mem_of_mem_filter ha))
  have hcall := hcreated.call
  have hauthorised := hcreated.authorised
  rw [hcontrol] at hcall hauthorised
  obtain ⟨token, input, context, hrequest, hinput, -, hpresents⟩ := hcall
  exact ⟨step, earlier, row, hsuffix, hcreates, ⟨r, hr, hstays⟩, hgrant.of_content hstays.symm, hcontrol,
    ⟨token, input, context, hrequest, hinput, hpresents⟩, hauthorised.permitted,
    (ControlPlane.chained_run D F hcodes moves).uses hown (hauthorised.confirmed rfl)⟩

/-- The control plane goes on with its run while the system takes its steps. -/
theorem control_run (D : Sharing.Deployment P) (F : Account.Platform) (scheme : Signature.Scheme)
    (events : List (Event P)) {moves : List (Move ControlPlane.Request (Outside P))}
    (hrun : s.control = ControlPlane.run D F w moves) :
    ∃ more, (Run.run (step D F scheme) events s).control = ControlPlane.run D F w (moves ++ more) := by
  induction events generalizing s moves with
  | nil => exact ⟨[], by rw [List.append_nil]; exact hrun⟩
  | cons e events ih =>
    cases e with
    | control move =>
      have hnext : (step D F scheme (.control move) s).control = ControlPlane.run D F w (moves ++ [move]) := by
        rw [ControlPlane.run, Run.run_append, ← ControlPlane.run, ← hrun]
        rfl
      obtain ⟨more, hmore⟩ := ih hnext
      rw [List.append_assoc] at hmore
      exact ⟨move :: more, hmore⟩
    | start existing joined time fetch => exact ih hrun
    | agent e => exact ih hrun

/-- **Sessions stay** what they are, whatever happens next, and have identifiers of their own. -/
theorem sessions_later (D : Sharing.Deployment P) (F : Account.Platform) (scheme : Signature.Scheme)
    (hnone : w.sessions = []) (time : Time) (past later : List (Event P)) :
    Evolves SessionStays (run D F scheme past w time).sessions (run D F scheme (past ++ later) w time).sessions ∧
      ((run D F scheme (past ++ later) w time).sessions.map (·.id)).Nodup := by
  have hids : (w.sessions.map (·.id)).Nodup := by
    rw [hnone]
    exact List.nodup_nil
  have hstart : (initial w time).control = ControlPlane.run D F w [] := rfl
  obtain ⟨moves, hpast⟩ := control_run D F scheme past hstart
  obtain ⟨more, hlater⟩ := control_run D F scheme later hpast
  obtain ⟨hstay, hchained⟩ := (ControlPlane.kept_sessions D F).run hids ([] ++ moves) more fun _ _ => trivial
  rw [run, run, Run.run_append, System.sessions, System.sessions, hpast, hlater]
  exact ⟨hstay, hchained.now⟩

/-- **Control of a computer is authorised, in every run** of the control plane and the agent in which nobody
else signs. For each input that is injected, the control plane has created the session to control, in a call
that was permitted and that used up a code of its viewer. And a session that is there to look on stays one:
the agent hosts it in that mode alone, and injects nothing for it. -/
theorem control_authorised (D : Sharing.Deployment P) (F : Account.Platform) (scheme : Signature.Scheme)
    {w : ControlPlane.World P} (hnone : w.sessions = []) (hcodes : (w.codes.map (·.id)).Nodup) (time : Time)
    (events : List (Event P)) (hforge : Run.Along (step D F scheme) (Unforgeable scheme) events (initial w time)) :
    (∀ x ∈ (run D F scheme events w time).agent.injected,
      Authorised D F (run D F scheme events w time).control.log x.1) ∧
    ∀ past later, events = past ++ later → ∀ r ∈ (run D F scheme past w time).sessions, r.mode = .view →
      (∀ r' ∈ (run D F scheme events w time).sessions, r'.id = r.id → r'.mode = .view) ∧
      (∀ g ∈ (run D F scheme events w time).agent.grants, g.sessionID = r.id → g.mode = "view") ∧
      ∀ x ∈ (run D F scheme events w time).agent.injected, x.1.sessionID ≠ r.id := by
  have hinv : Inv D F w (run D F scheme events w time) := inv_run hnone hforge
  refine ⟨fun x hx => hinv.authorised hnone hcodes hx, fun past later hevents r hr hview => ?_⟩
  obtain ⟨hstay, hids⟩ := sessions_later D F scheme hnone time past later
  rw [← hevents] at hstay hids
  obtain ⟨r₁, hr₁, hstays⟩ := hstay r hr
  -- Whatever has the identifier of the session is the session, as it was created.
  have hsame : ∀ r' ∈ (run D F scheme events w time).sessions, r'.id = r.id → r'.mode = .view := by
    intro r' hr' hid
    obtain rfl := Table.eq_of_key hids hr' hr₁ (hid.trans hstays.id.symm)
    exact (mode_of_stays hstays).trans hview
  have hgrant : ∀ g, Backed (run D F scheme events w time) g → g.sessionID = r.id → g.mode = "view" := by
    rintro g ⟨r', hr', hgrant⟩ hid
    rw [hgrant.mode, hsame r' hr' (hgrant.sessionID.symm.trans hid)]
    rfl
  refine ⟨hsame, fun g hg => hgrant g (hinv.hosted g hg), fun x hx hid => ?_⟩
  obtain ⟨hbacked, hcontrol⟩ := hinv.injected x hx
  have hmode := hgrant x.1 hbacked hid
  rw [hcontrol] at hmode
  exact absurd hmode (by decide)

/-! ## The owner takes control -/

theorem run_control (D : Sharing.Deployment P) (F : Account.Platform) (scheme : Signature.Scheme)
    (moves : List (Move ControlPlane.Request (Outside P))) (s : System P) :
    Run.run (step D F scheme) (moves.map .control) s =
      { s with control := Run.run (machine D F).step moves s.control } := by
  induction moves generalizing s with
  | nil => rfl
  | cons move moves ih => exact ih _

theorem along_control (D : Sharing.Deployment P) (F : Account.Platform) (scheme : Signature.Scheme)
    (moves : List (Move ControlPlane.Request (Outside P))) (s : System P) :
    Run.Along (step D F scheme) (Unforgeable scheme) (moves.map .control) s := by
  induction moves generalizing s with
  | nil => trivial
  | cons move moves ih => exact ⟨trivial, ih _⟩

/-- A platform that signs. -/
def signingPlatform : Account.Platform := { Account.laptopPlatform with signer := Api.plainSigner }

/-- The owner asks to control the computer, with a code. -/
def takeControl : ControlPlane.Request := viewerRequest (some Account.laptopToken)
  (.createSession "space" ⟨"a1", .control, some "code", some "123456"⟩ ⟨none, none, none⟩)

/-- A poll of the computer. -/
def signedPoll : Account.SignedRequest := ⟨some "install", some Account.plainKey, some "1970-01-01T00:00:00.000Z",
  some "n1", some Account.plainSignature, "GET", "/api/agent/remote/grants", []⟩

/-- The session is created, and then its grant is answered. -/
def studyMoves : List (Move ControlPlane.Request (Outside Unit)) :=
  Move.call takeControl :: List.replicate 23 (Move.step 0) ++
    Move.call (.sharing (.account (.agent .grants signedPoll))) :: List.replicate 8 (Move.step 1)

/-- The grant as the control plane answers it. -/
def answeredGrant : Api.SignedGrant := Api.plainSigner.signGrant
  ⟨"u", "space", "a1", "control", "u1", Api.toISOString 0, Api.toISOString 120000, "r"⟩

/-- The grant as it arrives. -/
def studyGrant : RemoteGrant.Grant :=
  ⟨"u", "space", "a1", "control", "u1", Time.ofMilli 0, Time.ofMilli 120000, "r"⟩

/-- The key of the platform. -/
def plainFetch : Agent.Fetch := ⟨some ⟨"cp-plain", Account.plainKey⟩, Time.ofMilli 0⟩

/-- The grant arrives, signed. -/
def studyArrival : Agent.GrantArrival :=
  ⟨some ⟨studyGrant, "AAAA", "cp-plain"⟩, Time.ofMilli 0, Time.ofMilli 0, true, []⟩

/-- A key is pressed on the laptop. -/
def keyPress : Agent.Message := ⟨0, Time.ofMilli 1000, some ⟨"key.down", 0, 0, "", 0, "KeyA"⟩, fun _ => none⟩

/-- The computer hosts the session, and the key reaches it. -/
def studyEvents : List (Event Unit) := studyMoves.map .control ++
  [.start none (some ⟨"d1", "a1"⟩) (Time.ofMilli 0) plainFetch,
    .agent (.pollRemote plainFetch (.ok [studyArrival]) false), .agent (.message keyPress)]

/-- The key is pressed in a session that the owner was authorised to control. -/
theorem control_authorised_study :
    ∃ x ∈ (run Sharing.home signingPlatform Api.plainScheme studyEvents ControlPlane.studyAtHome
        (Time.ofMilli 0)).agent.injected, x = (studyGrant, .key "KeyA" true) ∧
      Authorised Sharing.home signingPlatform (run Sharing.home signingPlatform Api.plainScheme studyEvents
        ControlPlane.studyAtHome (Time.ofMilli 0)).control.log x.1 := by
  have hanswered : (ControlPlane.run Sharing.home signingPlatform ControlPlane.studyAtHome studyMoves).Answered 1
      (.sharing (.account (.agent .grants signedPoll))) (.sharing (.account (.remote (.grants [answeredGrant])))) := rfl
  have hforge : Run.Along (step Sharing.home signingPlatform Api.plainScheme) (Unforgeable Api.plainScheme)
      studyEvents (initial ControlPlane.studyAtHome (Time.ofMilli 0)) := by
    rw [studyEvents, Run.along_append, run_control]
    refine ⟨along_control .., trivial, fun verifier _ arrival harrival envelope henvelope _ => ?_, trivial, trivial⟩
    have henvelope' : envelope = ⟨studyGrant, "AAAA", "cp-plain"⟩ := by
      rw [List.mem_singleton.mp harrival] at henvelope
      exact (Option.some.inj henvelope).symm
    have htext : RemoteGrant.signingInput envelope.grant = Api.buildGrantSigningInput answeredGrant.grant := by
      rw [henvelope']
      decide +kernel
    exact .inr ⟨1, signedPoll, [answeredGrant], hanswered, answeredGrant, List.mem_singleton_self _, htext⟩
  have hinjected : (studyGrant, Remote.Injection.key "KeyA" true) ∈ (run Sharing.home signingPlatform Api.plainScheme
      studyEvents ControlPlane.studyAtHome (Time.ofMilli 0)).agent.injected := by
    rw [run, studyEvents, Run.run_append, run_control]
    -- What the agent does has nothing to do with how the control plane has come there.
    show _ ∈ (Agent.handleMessage keyPress (Agent.pollRemote Api.plainScheme plainFetch (.ok [studyArrival]) false
      (restart none (some ⟨"d1", "a1"⟩) (Time.ofMilli 0) plainFetch (Agent.new none (Time.ofMilli 0))))).injected
    decide +kernel
  exact ⟨_, hinjected, rfl, (control_authorised Sharing.home signingPlatform Api.plainScheme rfl (by decide) _ _ hforge).1
    _ hinjected⟩

end RemoteControl
