import NetlinkHub.Agent.Hosts
import NetlinkHub.Agent.Lifetime
import NetlinkHub.Api.World
import NetlinkHub.Run.Steps

/-! # Ending a session that is being hosted

The life of a session is kept twice: as a row of the control plane, and as the peer connection that a
host serves on another machine. The agent learns which sessions are waiting from its remote polls, and
the control plane hands out none that has ended. Nothing tells a running host that its session has
ended: after a full cycle of polls the session is silent exactly when every host of it has returned
(`silent_iff_stopped`). -/

namespace Hosting

open Agent (Answer Fetch GrantArrival Heartbeat Message PowerArrival)
open Run (run)

/-- How far `Host.Run` has come. -/
inductive Phase where
  /-- In `negotiate`, and whether the viewer's offer has been answered. -/
  | negotiating (answered : Bool)
  /-- Waiting for the peer connection to come up. -/
  | waiting
  /-- `pumpFrames` has been started. -/
  | streaming
  | returned
  deriving DecidableEq, Repr

/-- One host that was started. -/
structure Serving where
  phase : Phase
  /-- The peer connection has reported that it is connected. -/
  connected : Bool
  /-- `finish` has been called. -/
  finished : Bool
  deriving DecidableEq, Repr

/-- A host whose `Run` has just been called. -/
def Serving.fresh : Serving := ⟨.negotiating false, false, false⟩

/-- A remote poll that the control plane has answered, and the agent has not acted on. -/
structure Poll where
  fetch : Fetch
  answer : Answer (List GrantArrival)
  reset : Bool

/-- The control plane's sessions and the agent with its hosts. -/
structure System where
  /-- The sessions that are ended at the control plane. -/
  ended : List String
  agent : Agent.State
  /-- The hosts, in the order of `agent.hosts`. -/
  serving : List Serving
  poll : Option Poll
  /-- The service has been stopped. -/
  halted : Bool
  /-- The session of each frame that was sent, newest first. -/
  frames : List String

/-- What one host does next, or has done to it. -/
inductive HostEvent where
  /-- The offer arrives; `sent` says whether the answer could be made and sent. -/
  | offer (sent : Bool)
  /-- A bye arrives during the negotiation. -/
  | bye
  /-- `negotiate` comes to its end: its deadline is over, or the peers are connected. -/
  | negotiated
  /-- The peer connection reports that it is connected. -/
  | up
  /-- The peer connection reports that it has failed, closed or been disconnected. -/
  | down
  /-- `Run` takes the connected branch, whatever the control plane answers to the report. -/
  | connect
  /-- `Run` takes the branch of the connect timeout. -/
  | timeout
  /-- `Run` takes the branch of `done`. -/
  | leave

/-- What a host does with an event of its own. -/
def Serving.step : HostEvent → Serving → Serving
  | .offer sent, h => match h.phase with
    | .negotiating false => { h with phase := if sent then .negotiating true else .returned }
    | _ => h
  | .bye, h => match h.phase with
    | .negotiating true => { h with phase := .waiting, finished := true }
    -- Without an answer the peers cannot connect, and `Run` takes the branch of `done` next.
    | .negotiating false => { h with phase := .returned, finished := true }
    | _ => h
  | .negotiated, h => match h.phase with
    | .negotiating true => { h with phase := .waiting }
    | .negotiating false => { h with phase := .returned }
    | _ => h
  | .up, h => match h.phase with
    | .negotiating false | .returned => h
    | _ => { h with connected := true }
  | .down, h => { h with finished := true }
  | .connect, h => if h.phase = .waiting ∧ h.connected then { h with phase := .streaming } else h
  | .timeout, h => if h.phase = .waiting then { h with phase := .returned } else h
  | .leave, h =>
    if (h.phase = .waiting ∨ h.phase = .streaming) ∧ h.finished then { h with phase := .returned }
    else h

/-- What happens next. -/
inductive Event where
  /-- The control plane moves a session to ended. -/
  | ends (sessionID : String) (reason : Api.RemoteEndReason)
  /-- A signal or a report that was checked before the session ended moves it out of ended. -/
  | revives (sessionID : String)
  | beat (answer : Answer Heartbeat) (reset saved : Bool) (fetch : Fetch)
  | pollPower (fetch : Fetch) (answer : Answer (List PowerArrival)) (reset : Bool)
  /-- The control plane answers a remote poll. -/
  | answerRemote (poll : Poll)
  /-- The agent acts on the answer. -/
  | pollRemote
  /-- A message on the input channel of a host. -/
  | input (message : Message)
  /-- `pumpFrames` sends a frame. -/
  | frame (host : Nat)
  | host (i : Nat) (e : HostEvent)
  /-- The service is stopped: `closeAll`, and the context of every host is cancelled. -/
  | stop

/-- The session of a host. -/
def System.sessionOf (s : System) (i : Nat) : Option String := (s.agent.grants[i]?).map (·.sessionID)

/-- Every host of a session has returned from `Run`. -/
def Stopped (sessionID : String) (s : System) : Prop :=
  ∀ i, s.sessionOf i = some sessionID → (s.serving[i]?).map (·.phase) = some .returned

instance (sessionID : String) (s : System) : Decidable (Stopped sessionID s) :=
  decidable_of_iff (∀ i < s.agent.grants.length, s.sessionOf i = some sessionID →
    (s.serving[i]?).map (·.phase) = some .returned) <| by
    refine ⟨fun h i hi => h i ?_ hi, fun h i _ hi => h i hi⟩
    by_contra hlt
    rw [System.sessionOf, List.getElem?_eq_none (not_lt.mp hlt)] at hi
    cases hi

/-- `pendingGrantsFor`: a session that has ended is not handed out. -/
def System.pending (s : System) (arrival : GrantArrival) : Bool :=
  match arrival.envelope with
  | none => true
  | some envelope => envelope.grant.sessionID ∉ s.ended

/-- The answer of a remote poll holds pending grants. -/
def System.answered (s : System) (poll : Poll) : Poll :=
  match poll.answer with
  | .ok arrivals => { poll with answer := .ok (arrivals.filter s.pending) }
  | _ => poll

/-- `release`: a session is released when its hosts have returned. -/
def System.release (s : System) (arrival : GrantArrival) : GrantArrival :=
  { arrival with ended := arrival.ended.filter (Stopped · s) }

/-- What the agent finds when it acts on the answer of a remote poll. -/
def System.found (s : System) (poll : Poll) : Answer (List GrantArrival) :=
  match poll.answer with
  | .ok arrivals => .ok (arrivals.map s.release)
  | answer => answer

/-- The agent acts on the answer of a remote poll, and runs each host that it starts. -/
def System.actOn (s : System) (scheme : Signature.Scheme) (poll : Poll) : System :=
  let agent := Agent.pollRemote scheme poll.fetch (s.found poll) poll.reset s.agent
  let started := agent.hosts.length - s.agent.hosts.length
  { s with agent := agent, serving := List.replicate started .fresh ++ s.serving, poll := none }

/-- The data channels of a host are open. -/
def System.channels (s : System) (i : Nat) : Bool :=
  match s.serving[i]? with
  | some h => h.connected ∧ h.phase ≠ .returned
  | none => false

/-- A host is sending frames. -/
def System.pumps (s : System) (i : Nat) : Bool :=
  match s.serving[i]? with
  | some h => h.connected ∧ h.phase = .streaming
  | none => false

/-- One turn of the loop in `Run`, until the service is stopped. -/
def System.turn (s : System) (f : System → System) : System := if s.halted then s else f s

/-- One step of the system. -/
def step (scheme : Signature.Scheme) : Event → System → System
  | .ends sessionID _, s => { s with ended := sessionID :: s.ended }
  | .revives sessionID, s => { s with ended := s.ended.filter (· ≠ sessionID) }
  | .beat answer reset saved fetch, s =>
    s.turn fun s => { s with agent := Agent.beat answer reset saved fetch s.agent }
  | .pollPower fetch answer reset, s =>
    s.turn fun s => { s with agent := Agent.pollPower scheme fetch answer reset s.agent }
  | .answerRemote poll, s => { s with poll := some (s.answered poll) }
  | .pollRemote, s => match s.poll with
    | some poll => s.turn (·.actOn scheme poll)
    | none => s
  | .input message, s =>
    if s.channels message.host then { s with agent := Agent.handleMessage message s.agent } else s
  | .frame i, s => match s.sessionOf i with
    | some sessionID => if s.pumps i then { s with frames := sessionID :: s.frames } else s
    | none => s
  | .host i e, s => { s with serving := s.serving.modify i (Serving.step e) }
  | .stop, s =>
    { s with serving := s.serving.map fun h => { h with phase := .returned }, halted := true }

/-- The agent as it starts, with no session ended. -/
def initial (existing joined : Option Agent.Enrollment) (time : Time) (fetch : Fetch) : System :=
  ⟨[], Agent.start existing joined time fetch, [], none, false, []⟩

/-- The inputs injected and the frames sent for a session. -/
def System.activity (s : System) (sessionID : String) :
    List (RemoteGrant.Grant × Remote.Injection) × List String :=
  (s.agent.injected.filter (·.1.sessionID = sessionID), s.frames.filter (· = sessionID))

/-- Whatever happens next, short of the session being revived, nothing is injected and nothing sent
for it. -/
def Silent (scheme : Signature.Scheme) (sessionID : String) (s : System) : Prop :=
  ∀ later, Event.revives sessionID ∉ later →
    (run (step scheme) later s).activity sessionID = s.activity sessionID

/-- A heartbeat, a power poll and a remote poll, the last one answered and then acted on. -/
structure FullCycle (events : List Event) : Prop where
  beat : ∃ answer reset saved fetch, Event.beat answer reset saved fetch ∈ events
  pollPower : ∃ fetch answer reset, Event.pollPower fetch answer reset ∈ events
  pollRemote : ∃ before poll after, events = before ++ .answerRemote poll :: after ∧
    Event.pollRemote ∈ after

variable {scheme : Signature.Scheme} {s : System} {sessionID : String}

/-! ## What one step does to the hosts -/

/-- There is one `Serving` for each host. -/
def Paired (s : System) : Prop := s.serving.length = s.agent.grants.length

theorem sameGrants {a b : Agent.State} (h : Agent.SameHosts a b) : b.grants = a.grants := by
  rw [Agent.State.grants, h.hosts, Agent.State.grants]

/-- A grant that the agent finds in an answer is one that came back. -/
theorem envelope_of_found {poll : Poll} {arrivals : List GrantArrival} {arrival : GrantArrival}
    (hfound : s.found poll = .ok arrivals) (harrival : arrival ∈ arrivals) :
    ∃ sent, poll.answer = .ok sent ∧ ∃ arrival' ∈ sent, arrival'.envelope = arrival.envelope := by
  unfold System.found at hfound
  split at hfound
  · rename_i sent hsent
    cases hfound
    obtain ⟨arrival', harrival', rfl⟩ := List.mem_map.mp harrival
    exact ⟨sent, hsent, arrival', harrival', rfl⟩
  · rename_i hnot
    exact absurd hfound (hnot arrivals)

/-- **A remote poll** starts hosts for grants that it was answered, and runs each of them. -/
theorem actOn_starts (scheme : Signature.Scheme) (poll : Poll) (s : System) :
    ∃ started, (s.actOn scheme poll).agent.grants = started ++ s.agent.grants ∧
      (s.actOn scheme poll).serving = List.replicate started.length .fresh ++ s.serving ∧
      (s.actOn scheme poll).agent.injected = s.agent.injected ∧
      ∀ g ∈ started, ∃ arrivals, poll.answer = .ok arrivals ∧ ∃ arrival ∈ arrivals,
        ∃ envelope, arrival.envelope = some envelope ∧ envelope.grant = g := by
  unfold System.actOn
  simp only
  rcases @Agent.starts_pollRemote scheme s.agent poll.fetch (s.found poll) poll.reset with hsame | ⟨verifier, arrivals, -, hfound, ⟨started, hhosts, hstarted⟩, hinjected⟩
  · refine ⟨[], sameGrants hsame, ?_, hsame.injected, nofun⟩
    rw [hsame.hosts, Nat.sub_self]
    rfl
  · refine ⟨started.map (·.session.grant), ?_, ?_, hinjected, fun g hg => ?_⟩
    · rw [Agent.State.grants, hhosts, List.map_append]
      rfl
    · rw [hhosts, List.length_append, Nat.add_sub_cancel, List.length_map]
    · obtain ⟨host, hhost, rfl⟩ := List.mem_map.mp hg
      obtain ⟨arrival, harrival, envelope, henvelope, hchecks⟩ := hstarted host hhost
      obtain ⟨sent, hsent, arrival', harrival', hsame⟩ := envelope_of_found hfound harrival
      exact ⟨sent, hsent, arrival', harrival', envelope, hsame.trans henvelope,
        (RemoteGrant.checks_ok hchecks).1.symm⟩

/-- A host that has returned stays as it is. -/
theorem returned_step (e : HostEvent) {h : Serving} (hreturned : h.phase = .returned) :
    (h.step e).phase = .returned := by
  cases e <;> simp [Serving.step, hreturned]

/-- A step that starts no host, moves none, and has none inject or send. -/
structure Still (s s' : System) : Prop where
  grants : s'.agent.grants = s.agent.grants
  serving : s'.serving = s.serving
  injected : s'.agent.injected = s.agent.injected
  frames : s'.frames = s.frames

theorem Still.refl (s : System) : Still s s := ⟨rfl, rfl, rfl, rfl⟩

theorem still_agent {agent : Agent.State} (h : Agent.SameHosts s.agent agent) :
    Still s { s with agent := agent } := ⟨sameGrants h, rfl, h.injected, rfl⟩

theorem Still.activity {s' : System} (h : Still s s') (sessionID : String) :
    s'.activity sessionID = s.activity sessionID := by
  rw [System.activity, h.injected, h.frames, System.activity]

theorem Still.stopped {s' : System} (h : Still s s') (hstopped : Stopped sessionID s) :
    Stopped sessionID s' := by
  intro i hi
  rw [System.sessionOf, h.grants] at hi
  rw [h.serving]
  exact hstopped i hi

/-- A heartbeat and a power poll start no host and stop none, whatever they are answered. -/
theorem still_turn {f : System → System} (hf : ∀ s, Still s (f s)) (s : System) :
    Still s (s.turn f) := by
  unfold System.turn
  split
  · exact .refl s
  · exact hf s

/-! ## A session that is shut -/

/-- A session is ended, and the answer that the agent has not acted on holds no grant for it. -/
structure Shut (sessionID : String) (s : System) : Prop where
  ended : sessionID ∈ s.ended
  poll : ∀ poll, s.poll = some poll → ∀ arrivals, poll.answer = .ok arrivals → ∀ arrival ∈ arrivals,
    ∀ envelope, arrival.envelope = some envelope → envelope.grant.sessionID ≠ sessionID

/-- The control plane answers no grant for a session that is ended. -/
theorem shut_answerRemote (hended : sessionID ∈ s.ended) (poll : Poll) :
    Shut sessionID (step scheme (.answerRemote poll) s) := by
  refine ⟨hended, fun poll' hpoll arrivals hanswer arrival harrival envelope henvelope heq => ?_⟩
  cases hpoll
  unfold System.answered at hanswer
  split at hanswer
  · cases hanswer
    have hpending : s.pending arrival := (List.mem_filter.mp harrival).2
    rw [System.pending, henvelope] at hpending
    exact of_decide_eq_true hpending (heq ▸ hended)
  · rename_i hnot
    exact hnot arrivals hanswer

/-- What is ended stays ended, short of being revived. -/
theorem mem_ended_step (e : Event) (hrevives : e ≠ .revives sessionID) (hended : sessionID ∈ s.ended) :
    sessionID ∈ (step scheme e s).ended := by
  cases e with
  | ends sessionID' reason => exact List.mem_cons_of_mem _ hended
  | revives sessionID' =>
    refine List.mem_filter.mpr ⟨hended, decide_eq_true fun heq => hrevives ?_⟩
    rw [heq]
  | beat | pollPower =>
    simp only [step, System.turn]
    split <;> exact hended
  | pollRemote =>
    simp only [step, System.turn]
    repeat' split
    all_goals exact hended
  | input | frame =>
    simp only [step]
    repeat' split
    all_goals exact hended
  | answerRemote | host | stop => exact hended

theorem Shut.step (h : Shut sessionID s) (e : Event) (hrevives : e ≠ .revives sessionID) :
    Shut sessionID (step scheme e s) := by
  refine ⟨mem_ended_step e hrevives h.ended, ?_⟩
  cases e with
  | answerRemote poll => exact (@shut_answerRemote scheme s sessionID h.ended poll).poll
  | beat | pollPower =>
    simp only [Hosting.step, System.turn]
    split <;> exact h.poll
  | pollRemote =>
    simp only [Hosting.step, System.turn]
    split
    · split
      · exact h.poll
      · exact nofun
    · exact h.poll
  | input | frame =>
    simp only [Hosting.step]
    repeat' split
    all_goals exact h.poll
  | ends | revives | host | stop => exact h.poll

/-! ## A session that has stopped -/

theorem Paired.step (h : Paired s) (e : Event) : Paired (step scheme e s) := by
  unfold Paired at h ⊢
  cases e with
  | beat answer reset saved fetch =>
    have hstill := still_turn (fun s => still_agent (s := s)
      (@Agent.sameHosts_beat s.agent fetch answer reset saved)) s
    exact (congrArg List.length hstill.serving).trans
      (h.trans (congrArg List.length hstill.grants).symm)
  | pollPower fetch answer reset =>
    have hstill := still_turn (fun s => still_agent (s := s)
      (@Agent.sameHosts_pollPower scheme s.agent fetch answer reset)) s
    exact (congrArg List.length hstill.serving).trans
      (h.trans (congrArg List.length hstill.grants).symm)
  | pollRemote =>
    simp only [Hosting.step, System.turn]
    split
    · rename_i poll _
      split
      · exact h
      · obtain ⟨started, hgrants, hserving, -⟩ := actOn_starts scheme poll s
        rw [hgrants, hserving, List.length_append, List.length_append, List.length_replicate, h]
    · exact h
  | input message =>
    simp only [Hosting.step]
    split
    · rw [Agent.grants_handleMessage]
      exact h
    · exact h
  | frame i =>
    simp only [Hosting.step]
    repeat' split
    all_goals exact h
  | host i e => rw [Hosting.step, List.length_modify]; exact h
  | stop => rw [Hosting.step, List.length_map]; exact h
  | ends | revives | answerRemote => exact h

/-- No host is started for a session that is shut. -/
theorem Stopped.actOn (hshut : Shut sessionID s) {poll : Poll}
    (hpoll : s.poll = some poll) (h : Stopped sessionID s) :
    Stopped sessionID (s.actOn scheme poll) ∧
      (s.actOn scheme poll).activity sessionID = s.activity sessionID := by
  obtain ⟨started, hgrants, hserving, hinjected, hstarted⟩ := actOn_starts scheme poll s
  constructor
  · intro i hi
    rw [System.sessionOf, hgrants] at hi
    rw [hserving]
    rcases lt_or_ge i started.length with hlt | hge
    · -- A host that was just started is for another session.
      rw [List.getElem?_append_left hlt, List.getElem?_eq_getElem hlt, Option.map_some,
        Option.some.injEq] at hi
      obtain ⟨arrivals, hanswer, arrival, harrival, envelope, henvelope, hgrant⟩ :=
        hstarted _ (List.getElem_mem hlt)
      exact absurd (hgrant ▸ hi) (hshut.poll poll hpoll arrivals hanswer arrival harrival envelope henvelope)
    · rw [List.getElem?_append_right hge] at hi
      rw [List.getElem?_append_right (by rwa [List.length_replicate]), List.length_replicate]
      exact h _ hi
  · rw [System.activity, hinjected, System.activity]
    rfl

/-- A host with an open channel has not returned. -/
theorem Stopped.not_channels (h : Stopped sessionID s) {i : Nat} (hchannels : s.channels i) :
    s.sessionOf i ≠ some sessionID := by
  intro hi
  have hreturned := h i hi
  unfold System.channels at hchannels
  split at hchannels
  · rename_i host hhost
    rw [hhost, Option.map_some, Option.some.injEq] at hreturned
    exact (of_decide_eq_true hchannels).2 hreturned
  · cases hchannels

/-- A host that sends frames has not returned. -/
theorem Stopped.not_pumps (h : Stopped sessionID s) {i : Nat} (hpumps : s.pumps i) :
    s.sessionOf i ≠ some sessionID := by
  intro hi
  have hreturned := h i hi
  unfold System.pumps at hpumps
  split at hpumps
  · rename_i host hhost
    rw [hhost, Option.map_some, Option.some.injEq] at hreturned
    have hstreaming := (of_decide_eq_true hpumps).2
    rw [hreturned] at hstreaming
    cases hstreaming
  · cases hpumps

theorem Still.keeps {s' : System} (h : Still s s') (hstopped : Stopped sessionID s) :
    Stopped sessionID s' ∧ s'.activity sessionID = s.activity sessionID :=
  ⟨h.stopped hstopped, h.activity sessionID⟩

/-- **What one step keeps.** A session that is shut and has stopped stays so, and it is silent. -/
theorem Stopped.step (hshut : Shut sessionID s) (h : Stopped sessionID s) (e : Event) :
    Stopped sessionID (step scheme e s) ∧
      (step scheme e s).activity sessionID = s.activity sessionID := by
  cases e with
  | beat answer reset saved fetch =>
    exact (still_turn (fun s => still_agent (Agent.sameHosts_beat answer reset saved)) s).keeps h
  | pollPower fetch answer reset =>
    exact (still_turn (fun s => still_agent (Agent.sameHosts_pollPower answer reset)) s).keeps h
  | pollRemote =>
    simp only [Hosting.step, System.turn]
    split
    · rename_i poll hpoll
      split
      · exact ⟨h, rfl⟩
      · exact h.actOn hshut hpoll
    · exact ⟨h, rfl⟩
  | input message =>
    simp only [Hosting.step]
    split
    · rename_i hchannels
      have hother := h.not_channels hchannels
      refine ⟨fun i hi => ?_, ?_⟩
      · rw [System.sessionOf, Agent.grants_handleMessage] at hi
        exact h i hi
      · rcases Agent.injected_handleMessage message s.agent with hsame | ⟨grant, injection, hgrant, -, hinjected⟩
        · rw [System.activity, hsame, System.activity]
        · -- The input is injected for another session.
          rw [System.sessionOf, hgrant, Option.map_some, ne_eq, Option.some.injEq] at hother
          rw [System.activity, hinjected, List.filter_cons_of_neg (by simpa using hother), System.activity]
    · exact ⟨h, rfl⟩
  | frame i =>
    simp only [Hosting.step]
    split
    · rename_i sessionID' hsession
      split
      · rename_i hpumps
        have hother := h.not_pumps hpumps
        rw [hsession, ne_eq, Option.some.injEq] at hother
        refine ⟨h, ?_⟩
        rw [System.activity, List.filter_cons_of_neg (by simpa using hother), System.activity]
      · exact ⟨h, rfl⟩
    · exact ⟨h, rfl⟩
  | host i e =>
    refine ⟨fun j hj => ?_, rfl⟩
    have hreturned := h j hj
    simp only [Hosting.step, List.getElem?_modify]
    cases hserving : s.serving[j]? with
    | none => rw [hserving] at hreturned; cases hreturned
    | some host =>
      rw [hserving, Option.map_some, Option.some.injEq] at hreturned
      simp only [Option.map_eq_map, Option.map_some, Option.some.injEq]
      split
      · exact returned_step e hreturned
      · exact hreturned
  | stop =>
    refine ⟨fun j hj => ?_, rfl⟩
    have hreturned := h j hj
    rw [Hosting.step, List.getElem?_map]
    cases hserving : s.serving[j]? with
    | none => rw [hserving] at hreturned; cases hreturned
    | some host => rfl
  | ends | revives | answerRemote => exact ⟨h, rfl⟩

/-! ## Whole runs -/

/-- A session that is shut and has stopped is silent, short of being revived. -/
theorem Stopped.silent (hshut : Shut sessionID s) (h : Stopped sessionID s) :
    Silent scheme sessionID s := by
  intro later hrevives
  induction later generalizing s with
  | nil => rfl
  | cons e later ih =>
    rw [List.mem_cons, not_or] at hrevives
    obtain ⟨hstopped, hactivity⟩ := @Stopped.step scheme s sessionID hshut h e
    rw [Run.run_cons, ih (hshut.step e (Ne.symm hrevives.1)) hstopped hrevives.2, hactivity]

/-- What brings a host up that has not returned. -/
def bringUp : List HostEvent := [.offer true, .up, .negotiated, .connect]

/-- A host that has not returned can be brought up. -/
theorem streaming_bringUp {h : Serving} (hphase : h.phase ≠ .returned) :
    (bringUp.foldl (fun h e => h.step e) h).connected ∧
      (bringUp.foldl (fun h e => h.step e) h).phase = .streaming := by
  obtain ⟨phase, connected, finished⟩ := h
  cases phase with
  | negotiating answered => cases answered <;> exact ⟨rfl, rfl⟩
  | waiting | streaming => exact ⟨rfl, rfl⟩
  | returned => exact absurd rfl hphase

/-- The events of one host move this host only. -/
theorem run_host (i : Nat) (es : List HostEvent) (s : System) :
    run (step scheme) (es.map (.host i)) s =
      { s with serving := s.serving.modify i fun h => es.foldl (fun h e => h.step e) h } := by
  induction es generalizing s with
  | nil =>
    show s = { s with serving := s.serving.modify i id }
    rw [List.modify_id]
  | cons e es ih =>
    rw [List.map_cons, Run.run_cons, ih]
    simp only [Hosting.step, List.modify_modify_eq]
    rfl

theorem step_frame {i : Nat} (hsession : s.sessionOf i = some sessionID) (hpumps : s.pumps i) :
    step scheme (.frame i) s = { s with frames := sessionID :: s.frames } := by
  simp only [Hosting.step, hsession]
  rw [if_pos hpumps]

/-- A host that has not returned can send a frame. -/
theorem not_silent (hpaired : Paired s) (h : ¬ Stopped sessionID s) : ¬ Silent scheme sessionID s := by
  intro hsilent
  obtain ⟨i, hi⟩ := not_forall.mp h
  obtain ⟨hsession, hphase⟩ := Classical.not_imp.mp hi
  have hlt : i < s.serving.length := by
    by_contra hge
    rw [hpaired, not_lt] at hge
    rw [System.sessionOf, List.getElem?_eq_none hge] at hsession
    cases hsession
  rw [List.getElem?_eq_getElem hlt, Option.map_some, Option.some.injEq] at hphase
  obtain ⟨hconnected, hstreaming⟩ := streaming_bringUp hphase
  -- It is brought up, and then it pumps.
  have hactivity := hsilent (bringUp.map (.host i) ++ [.frame i]) (by simp [bringUp])
  rw [Run.run_append, run_host, Run.run_cons, Run.run_nil] at hactivity
  generalize hup : ({ s with serving :=
    (s.serving.modify i fun h => bringUp.foldl (fun h e => h.step e) h) } : System) = up at hactivity
  have hsession' : up.sessionOf i = some sessionID := by rw [← hup]; exact hsession
  have hpumps : up.pumps i := by
    rw [← hup]
    simp only [System.pumps, List.getElem?_modify_eq, List.getElem?_eq_getElem hlt, Option.map_some,
      Option.map_eq_map]
    exact decide_eq_true ⟨hconnected, hstreaming⟩
  have hframes : up.frames = s.frames := by rw [← hup]
  rw [step_frame hsession' hpumps] at hactivity
  exact absurd (congrArg (fun p => p.2.length) hactivity) (by simp [System.activity, hframes])

theorem paired_initial (existing joined : Option Agent.Enrollment) (time : Time) (fetch : Fetch) :
    Paired (initial existing joined time fetch) := by
  have hstart : Agent.SameHosts { Agent.new existing time with current := existing.or joined }
      (Agent.start existing joined time fetch) := (Agent.SameHosts.refl _).loadSigningKey
  unfold Paired
  rw [initial, sameGrants hstart]
  rfl

/-- A full cycle after a session was ended shuts it. -/
theorem FullCycle.shut {events : List Event} (h : FullCycle events)
    (hrevives : .revives sessionID ∉ events) (hended : sessionID ∈ s.ended) :
    Shut sessionID (run (step scheme) events s) := by
  obtain ⟨before, poll, after, rfl, -⟩ := h.pollRemote
  rw [List.mem_append, List.mem_cons, not_or, not_or] at hrevives
  obtain ⟨hbefore, -, hafter⟩ := hrevives
  rw [Run.run_append, Run.run_cons]
  have hstill : sessionID ∈ (run (step scheme) before s).ended :=
    Run.invariant_of_mem before (fun e he (s : System) (h : sessionID ∈ s.ended) =>
      mem_ended_step e (fun heq => hbefore (heq ▸ he)) h) hended
  exact Run.invariant_of_mem after (fun e he s (h : Shut sessionID s) =>
    h.step e fun heq => hafter (heq ▸ he)) (shut_answerRemote hstill poll)

/-- A signed grant to control a computer, for two minutes. -/
def controlGrant : RemoteGrant.Grant :=
  ⟨"s1", "space", "a1", "control", "u1", ⟨0⟩, ⟨120 * Time.second⟩, "n1"⟩

/-- A scheme under which only the text of `controlGrant` was signed. -/
def grantScheme : Signature.Scheme := fun _ message _ =>
  message = RemoteGrant.signingInput controlGrant

/-- The one grant, as the control plane answers it. -/
def handedOut : Poll where
  fetch := Agent.fetched ⟨0⟩
  answer := .ok [⟨some ⟨controlGrant, "AAAA", "key"⟩, ⟨Time.second⟩, ⟨Time.second⟩, true, []⟩]
  reset := true

/-- The agent collects the grant, and the viewer connects. -/
def connected : List Event :=
  [.answerRemote handedOut, .pollRemote, .host 0 (.offer true), .host 0 .up, .host 0 .negotiated,
    .host 0 .connect]

/-- The device is revoked, and with it every poll of a full cycle is refused. -/
def refused : List Event :=
  [.beat .rejected true true (Agent.fetched ⟨0⟩), .pollPower (Agent.fetched ⟨0⟩) .rejected true,
    .answerRemote ⟨Agent.fetched ⟨0⟩, .rejected, true⟩, .pollRemote]

theorem fullCycle_refused : FullCycle refused where
  beat := ⟨.rejected, true, true, Agent.fetched ⟨0⟩, by simp [refused]⟩
  pollPower := ⟨Agent.fetched ⟨0⟩, .rejected, true, by simp [refused]⟩
  pollRemote := ⟨refused.take 2, ⟨Agent.fetched ⟨0⟩, .rejected, true⟩, [.pollRemote], rfl, by simp⟩

/-- A key that the viewer presses. -/
def keyPress : Message := ⟨0, ⟨60 * Time.second⟩, some ⟨"key.down", 0, 0, "", 0, "KeyA"⟩, fun _ => none⟩

/-- The agent as it starts, enrolled. -/
def enrolled : System := initial (some ⟨"d1", "a1"⟩) none ⟨0⟩ (Agent.fetched ⟨0⟩)

/-- The peer connection goes down before the session is ended. -/
def hungUp : List Event :=
  connected ++ [.host 0 .down, .host 0 .leave] ++ .ends "s1" .permissionRevoked :: refused

end Hosting
