import NetlinkHub.Power.Executor
import NetlinkHub.Remote.Session
import NetlinkHub.Signed.Command

/-! # The agent process

The service loop of an agent: signing-key loads, heartbeats, power polls and remote polls, one at a
time. The state holds the two verifiers, each with the nonce store it was made with, and a record of
what the process has done so far. What the network, the operating system and the clock answer comes
with each event. -/

namespace Agent

open Posix (Bytes)

/-- The two identities of an enrollment. -/
structure Enrollment where
  deviceID : String
  agentID : String
  deriving DecidableEq, Repr

/-- What comes back from a signed request. -/
inductive Answer (α : Type) where
  /-- `ErrRejected`. -/
  | rejected
  | failed
  | ok (a : α)

/-- `SigningKey`. -/
structure SigningKey where
  keyID : String
  publicKey : String
  deriving DecidableEq, Repr

/-- A fetch of the signing key, and the time it is over. -/
structure Fetch where
  key : Option SigningKey
  time : Time
  deriving DecidableEq, Repr

/-- The keys a fetch makes the agent trust. -/
def Fetch.trusted (fetch : Fetch) : Option Signature.Keys :=
  fetch.key.bind fun key => (Text.rawURLDecode key.publicKey).bind fun raw =>
    if raw.length ≠ Signature.publicKeySize then none else some [(key.keyID, raw)]

/-- `PowerResultReport`. -/
structure Report where
  deviceID : String
  commandID : String
  succeeded : Bool
  detail : String
  deriving DecidableEq, Repr

/-- A command the executor was asked to carry out, with the latest clock reading at that moment. -/
structure Execution where
  command : PowerCommand.Command
  time : Time
  deriving DecidableEq, Repr

/-- A host that was started, with the latest clock reading at that moment. -/
structure Host where
  session : Remote.Session
  time : Time
  deriving DecidableEq, Repr

/-- The agent, and the record of what it has done, newest first. -/
structure State where
  current : Option Enrollment
  powerVerifier : Option PowerCommand.Verifier
  /-- The nonce store of `powerVerifier`. -/
  powerNonces : PowerCommand.NonceStore
  remoteVerifier : Option RemoteGrant.Verifier
  /-- The nonce store of `remoteVerifier`. -/
  remoteNonces : RemoteGrant.NonceStore
  /-- The identifiers of the running sessions. -/
  remoteSessions : List String
  /-- The latest reading of the clock so far. -/
  latest : Time
  executed : List Execution
  hosts : List Host
  packets : List Wol.Packet
  reports : List Report
  injected : List (RemoteGrant.Grant × Remote.Injection)

/-- `New`: an earlier run may have joined a Space. -/
def new (existing : Option Enrollment) (time : Time) : State :=
  ⟨existing, none, [], none, [], [], time, [], [], [], [], []⟩

/-- The clock shows a time. -/
def State.see (a : State) (time : Time) : State := { a with latest := max a.latest time }

/-- `loadSigningKey`: both verifiers are made anew, each with an empty nonce store. -/
def loadSigningKey (fetch : Fetch) (a : State) : State :=
  match a.current, fetch.trusted with
  | some current, some trusted =>
    { a.see fetch.time with
      powerVerifier := some (PowerCommand.newVerifier current.deviceID trusted)
      powerNonces := []
      remoteVerifier := some (RemoteGrant.newVerifier current.agentID trusted)
      remoteNonces := [] }
  | _, _ => a

/-- `forgetIdentity`; `reset` says whether the files could be removed. -/
def forgetIdentity (reset : Bool) (a : State) : State :=
  if reset then { a with current := none } else a

/-- `reportPower`. -/
def reportPower (commandID : String) (succeeded : Bool) (detail : String) (a : State) : State :=
  match a.current with
  | none => a
  | some current => { a with reports := ⟨current.deviceID, commandID, succeeded, detail⟩ :: a.reports }

/-- What `primaryInterface` finds. -/
structure Interface where
  ip : String
  mac : String
  deriving DecidableEq, Repr

/-- `broadcastFor`. -/
def broadcastFor (ip : String) : String :=
  match ip.toList.splitOn '.' with
  | [a, b, c, _] => String.ofList (['.'].intercalate [a, b, c, "255".toList])
  | _ => "255.255.255.255"

/-- `powerTarget`: the machine's own address. -/
def powerTarget (interface : Interface) : Power.Target :=
  ⟨interface.mac, broadcastFor interface.ip⟩

/-- One collected power command: what `UnmarshalEnvelope` makes of it, the two readings of the clock
its check takes, and the machine it is carried out on. -/
structure PowerArrival where
  envelope : Option PowerCommand.Envelope
  now : Time
  reading : Time
  interface : Interface
  machine : Power.Machine

/-- `handlePowerCommand`. -/
def handlePowerCommand (scheme : Signature.Scheme) (verifier : PowerCommand.Verifier)
    (arrival : PowerArrival) (a : State) : State :=
  match arrival.envelope with
  | none => a
  | some envelope =>
    let (result, nonces) :=
      verifier.verify scheme ⟨envelope, arrival.now, arrival.reading⟩ a.powerNonces
    let a := { (a.see arrival.now).see arrival.reading with powerNonces := nonces }
    match result with
    | .error e => reportPower envelope.command.id false ("refused: " ++ e.text) a
    | .ok verified =>
      let a := { a with executed := ⟨verified, a.latest⟩ :: a.executed }
      let (result, packets) :=
        Power.execute arrival.machine verified.action (powerTarget arrival.interface)
      let a := { a with packets := packets ++ a.packets }
      match result with
      | .error text => reportPower verified.id false text a
      | .ok detail => reportPower verified.id true detail a

/-- `pollPower`. -/
def pollPower (scheme : Signature.Scheme) (fetch : Fetch) (answer : Answer (List PowerArrival))
    (reset : Bool) (a : State) : State :=
  match a.current, a.powerVerifier with
  | none, _ => a
  | some _, none => loadSigningKey fetch a
  | some _, some verifier => match answer with
    | .rejected => forgetIdentity reset a
    | .failed => a
    | .ok arrivals => arrivals.foldl (fun a arrival => handlePowerCommand scheme verifier arrival a) a

/-- One collected grant: what `UnmarshalEnvelope` makes of it, the readings of the clock, whether the
screen can be captured, and the sessions that have ended by then. -/
structure GrantArrival where
  envelope : Option RemoteGrant.Envelope
  now : Time
  reading : Time
  capturer : Bool
  ended : List String

/-- `startRemoteSession`. -/
def startRemoteSession (scheme : Signature.Scheme) (verifier : RemoteGrant.Verifier)
    (arrival : GrantArrival) (a : State) : State :=
  match arrival.envelope with
  | none => a
  | some envelope =>
    let (result, nonces) :=
      verifier.verify scheme ⟨envelope, arrival.now, arrival.reading⟩ a.remoteNonces
    let a := { (a.see arrival.now).see arrival.reading with
      remoteNonces := nonces, remoteSessions := a.remoteSessions.filter (· ∉ arrival.ended) }
    match result with
    | .error _ => a
    | .ok grant =>
      if ¬ arrival.capturer then a
      else if grant.sessionID ∈ a.remoteSessions then a
      else { a with
        remoteSessions := grant.sessionID :: a.remoteSessions
        hosts := ⟨Remote.newSession grant, a.latest⟩ :: a.hosts }

/-- `pollRemote`. -/
def pollRemote (scheme : Signature.Scheme) (fetch : Fetch) (answer : Answer (List GrantArrival))
    (reset : Bool) (a : State) : State :=
  match a.current, a.remoteVerifier with
  | none, _ => a
  | some current, verifier =>
    if current.agentID = "" then a
    else match verifier with
      | none => loadSigningKey fetch a
      | some verifier => match answer with
        | .rejected => forgetIdentity reset a
        | .failed => a
        | .ok arrivals =>
          arrivals.foldl (fun a arrival => startRemoteSession scheme verifier arrival a) a

/-- `HeartbeatResponse`. -/
structure Heartbeat where
  revoked : Bool
  agentID : String
  deriving DecidableEq, Repr

/-- `beat`; `saved` says whether a changed enrollment could be written. -/
def beat (answer : Answer Heartbeat) (reset saved : Bool) (fetch : Fetch) (a : State) : State :=
  match a.current with
  | none => a
  | some current => match answer with
    | .rejected => forgetIdentity reset a
    | .failed => a
    | .ok resp =>
      if resp.revoked then forgetIdentity reset a
      else if resp.agentID ≠ "" ∧ resp.agentID ≠ current.agentID then
        if saved then loadSigningKey fetch
          { a with current := some { current with agentID := resp.agentID }, remoteVerifier := none }
        else a
      else a

/-- A message on the data channel of a host. -/
structure Message where
  host : Nat
  now : Time
  raw : Option Remote.Event
  injector : Remote.Injection → Option String

/-- A running host handles a message. -/
def handleMessage (message : Message) (a : State) : State :=
  match a.hosts[message.host]? with
  | none => a
  | some host =>
    let (session, injection, _) := host.session.handleInput message.now message.raw message.injector
    { a with
      hosts := a.hosts.set message.host { host with session := session }
      injected := injection.toList.map (session.grant, ·) ++ a.injected }

/-- What happens to the agent next. -/
inductive Event where
  | beat (answer : Answer Heartbeat) (reset saved : Bool) (fetch : Fetch)
  | pollPower (fetch : Fetch) (answer : Answer (List PowerArrival)) (reset : Bool)
  | pollRemote (fetch : Fetch) (answer : Answer (List GrantArrival)) (reset : Bool)
  | message (message : Message)

/-- One turn of the loop in `Run`, or a message to a host. -/
def step (scheme : Signature.Scheme) : Event → State → State
  | .beat answer reset saved fetch, a => beat answer reset saved fetch a
  | .pollPower fetch answer reset, a => pollPower scheme fetch answer reset a
  | .pollRemote fetch answer reset, a => pollRemote scheme fetch answer reset a
  | .message message, a => handleMessage message a

/-- `Run` up to its loop: an installation that has joined no Space may join one, and the signing key
is loaded. -/
def start (existing joined : Option Enrollment) (time : Time) (fetch : Fetch) : State :=
  loadSigningKey fetch { new existing time with current := existing.or joined }

end Agent

example : Agent.broadcastFor "192.168.1.20" = "192.168.1.255" := by decide
