import NetlinkHub.Agent.Agent
import NetlinkHub.Run.Steps

/-! # Replay protection over the life of the process

A nonce store lives as long as the verifier it was made with, and a signing-key load makes both
verifiers anew. As long as every load finds all that was executed and hosted so far expired, no nonce
is executed or hosted twice while it is live (`once_while_live`). A heartbeat with a new agent id is
enough to break this: the power verifier is replaced with the grant verifier, and a command that was
executed is executed again (`reloaded_executed_twice`). -/

namespace Agent

open ReplayGuard (Use Lifetime OnceWhileLive)
open Run (run Along)

/-- No command is executed again before the clock has been seen past the expiry of the first. -/
def ExecutedOnce (a : State) : Prop :=
  a.executed.Pairwise fun later earlier =>
    later.command.nonce = earlier.command.nonce → earlier.command.expiresAt < later.time

/-- No grant is hosted again before the clock has been seen past the expiry of the first. -/
def HostedOnce (a : State) : Prop :=
  a.hosts.Pairwise fun later earlier =>
    later.session.grant.nonce = earlier.session.grant.nonce →
      earlier.session.grant.expiresAt < later.time

instance : DecidablePred ExecutedOnce := fun _ => List.instDecidablePairwise ..

/-- The time at which an event loads a signing key, if it does. -/
def loadTime : Event → State → Option Time
  | .beat (.ok resp) _ saved fetch, a => a.current.bind fun current =>
    if resp.revoked ∨ resp.agentID = "" ∨ resp.agentID = current.agentID ∨ ¬ saved then none
    else fetch.trusted.map fun _ => fetch.time
  | .beat _ _ _ _, _ => none
  | .pollPower fetch _ _, a => a.current.bind fun _ =>
    if a.powerVerifier.isSome then none else fetch.trusted.map fun _ => fetch.time
  | .pollRemote fetch _ _, a => a.current.bind fun current =>
    if current.agentID = "" ∨ a.remoteVerifier.isSome then none
    else fetch.trusted.map fun _ => fetch.time
  | .message _, _ => none

/-- By a time, the clock has been seen past every command executed and every grant hosted so far. -/
def AllExpired (a : State) (time : Time) : Prop :=
  (∀ x ∈ a.executed, x.command.expiresAt < max a.latest time) ∧
    ∀ h ∈ a.hosts, h.session.grant.expiresAt < max a.latest time

/-- If the event loads a signing key, then everything executed and hosted so far has expired. -/
def LoadsWhenExpired (e : Event) (a : State) : Prop :=
  ∀ time, loadTime e a = some time → AllExpired a time

/-! ## The invariant -/

/-- The uses of command nonces, for the guard of the power verifier. -/
def powerUses (a : State) : List (Use String Time) :=
  a.executed.map fun x => ⟨x.command.nonce, x.command.expiresAt, x.time⟩

/-- The uses of grant nonces, for the guard of the grant verifier. -/
def grantUses (a : State) : List (Use String Time) :=
  a.hosts.map fun h => ⟨h.session.grant.nonce, h.session.grant.expiresAt, h.time⟩

/-- Both nonce stores hold what is live. -/
structure Guarded (a : State) : Prop where
  power : Lifetime a.latest (powerUses a) a.powerNonces
  remote : Lifetime a.latest (grantUses a) a.remoteNonces

theorem Guarded.executedOnce {a : State} (h : Guarded a) : ExecutedOnce a :=
  List.pairwise_map.mp h.power.once

theorem Guarded.hostedOnce {a : State} (h : Guarded a) : HostedOnce a :=
  List.pairwise_map.mp h.remote.once

variable {scheme : Signature.Scheme} {a : State} {fetch : Fetch}

theorem Guarded.see (h : Guarded a) (time : Time) : Guarded (a.see time) :=
  ⟨h.power.mono (le_max_left _ _), h.remote.mono (le_max_left _ _)⟩

theorem Guarded.reportPower (h : Guarded a) (commandID detail : String) (succeeded : Bool) :
    Guarded (reportPower commandID succeeded detail a) := by
  unfold Agent.reportPower
  split
  · exact h
  · exact ⟨h.power, h.remote⟩

theorem Guarded.forgetIdentity (h : Guarded a) (reset : Bool) : Guarded (forgetIdentity reset a) := by
  unfold Agent.forgetIdentity
  split
  · exact ⟨h.power, h.remote⟩
  · exact h

/-- New verifiers will do when everything so far has expired. -/
theorem Guarded.loadSigningKey (h : Guarded a)
    (hexp : a.current.isSome → fetch.trusted.isSome → AllExpired a fetch.time) :
    Guarded (loadSigningKey fetch a) := by
  unfold Agent.loadSigningKey
  split
  · rename_i hcurrent htrusted
    obtain ⟨hpower, hremote⟩ := hexp (by rw [hcurrent]; rfl) (by rw [htrusted]; rfl)
    constructor
    · refine (h.power).renew fun u hu => ?_
      obtain ⟨x, hx, rfl⟩ := List.mem_map.mp hu
      exact hpower x hx
    · refine (h.remote).renew fun u hu => ?_
      obtain ⟨x, hx, rfl⟩ := List.mem_map.mp hu
      exact hremote x hx
  · exact h

/-- **One power command**, whatever it is. -/
theorem Guarded.handlePowerCommand (h : Guarded a) (verifier : PowerCommand.Verifier)
    (arrival : PowerArrival) : Guarded (handlePowerCommand scheme verifier arrival a) := by
  unfold Agent.handlePowerCommand
  split
  · exact h
  rename_i envelope _
  have hsee := (h.see arrival.now).see arrival.reading
  have hle : arrival.reading ≤ ((a.see arrival.now).see arrival.reading).latest := le_max_right _ _
  rcases ReplayGuard.pass_cases (verifier.checks scheme) PowerCommand.Command.nonce
      PowerCommand.Command.expiresAt .replayed
      ⟨envelope, arrival.now, arrival.reading⟩ a.powerNonces with ⟨e, hpass⟩ | ⟨c, -, hpass⟩
  · rw [PowerCommand.Verifier.verify, hpass]
    exact Guarded.reportPower ⟨hsee.power, hsee.remote⟩ _ _ _
  · rw [PowerCommand.Verifier.verify, hpass]
    simp only
    split
    · -- The envelope is refused at the nonce store.
      apply Guarded.reportPower
      exact ⟨hsee.power.remember _ _ hle, hsee.remote⟩
    · rename_i verified hverified
      split at hverified
      · rename_i hfresh
        cases hverified
        have huse := hsee.power.use hle hfresh
        -- Carried out or failed, the command counts as executed.
        split <;> (apply Guarded.reportPower; exact ⟨huse, hsee.remote⟩)
      · cases hverified

/-- **One session grant**, whatever it is. -/
theorem Guarded.startRemoteSession (h : Guarded a) (verifier : RemoteGrant.Verifier)
    (arrival : GrantArrival) : Guarded (startRemoteSession scheme verifier arrival a) := by
  unfold Agent.startRemoteSession
  split
  · exact h
  rename_i envelope _
  have hsee := (h.see arrival.now).see arrival.reading
  have hle : arrival.reading ≤ ((a.see arrival.now).see arrival.reading).latest := le_max_right _ _
  rcases ReplayGuard.pass_cases (verifier.checks scheme) RemoteGrant.Grant.nonce
      RemoteGrant.Grant.expiresAt .replayed
      ⟨envelope, arrival.now, arrival.reading⟩ a.remoteNonces with ⟨e, hpass⟩ | ⟨g, -, hpass⟩
  · rw [RemoteGrant.Verifier.verify, hpass]
    exact ⟨hsee.power, hsee.remote⟩
  · rw [RemoteGrant.Verifier.verify, hpass]
    simp only
    have hspent := Lifetime.remember g.nonce g.expiresAt hsee.remote hle
    split
    · exact ⟨hsee.power, hspent⟩
    · rename_i grant hgrant
      split at hgrant
      · rename_i hfresh
        cases hgrant
        -- An accepted grant starts no host when the screen or the session is taken.
        split
        · exact ⟨hsee.power, hspent⟩
        · split
          · exact ⟨hsee.power, hspent⟩
          · exact ⟨hsee.power, hsee.remote.use hle hfresh⟩
      · cases hgrant

theorem Guarded.foldl {α : Type} {f : State → α → State} (hf : ∀ a x, Guarded a → Guarded (f a x))
    (xs : List α) (h : Guarded a) : Guarded (xs.foldl f a) := by
  induction xs generalizing a with
  | nil => exact h
  | cons x xs ih => exact ih (hf a x h)

/-- A message changes the counters of a session, not its grant. -/
theorem grantUses_handleMessage (message : Message) (a : State) :
    grantUses (handleMessage message a) = grantUses a := by
  unfold Agent.handleMessage grantUses
  split
  · rfl
  · rename_i host hhost
    obtain ⟨hlt, rfl⟩ := List.getElem?_eq_some_iff.mp hhost
    simp only [List.map_set, Remote.grant_handleInput]
    rw [← List.getElem_map (f := fun h : Host =>
      (⟨h.session.grant.nonce, h.session.grant.expiresAt, h.time⟩ : Use String Time)) (h := by simpa),
      List.set_getElem_self]

/-- What a message leaves alone. -/
theorem frame_handleMessage (message : Message) (a : State) :
    (handleMessage message a).latest = a.latest ∧ powerUses (handleMessage message a) = powerUses a ∧
      (handleMessage message a).powerNonces = a.powerNonces ∧
      (handleMessage message a).remoteNonces = a.remoteNonces := by
  unfold Agent.handleMessage
  split <;> exact ⟨rfl, rfl, rfl, rfl⟩

/-- **What one step keeps.** -/
theorem Guarded.step (e : Event) (a : State) (hload : LoadsWhenExpired e a) (h : Guarded a) :
    Guarded (step scheme e a) := by
  cases e with
  | beat answer reset saved fetch =>
    show Guarded (Agent.beat answer reset saved fetch a)
    unfold Agent.beat
    split
    · exact h
    rename_i current hcurrent
    split
    · exact h.forgetIdentity reset
    · exact h
    rename_i resp
    split
    · exact h.forgetIdentity reset
    rename_i hrevoked
    split
    · rename_i hchanged
      split
      · rename_i hsaved
        -- The agent id has changed, and the key is loaded for the new one.
        refine Guarded.loadSigningKey ⟨h.power, h.remote⟩ fun _ htrusted => ?_
        refine hload fetch.time ?_
        obtain ⟨trusted, htrusted⟩ := Option.isSome_iff_exists.mp htrusted
        simp [loadTime, hcurrent, hrevoked, hchanged.1, hchanged.2, hsaved, htrusted]
      · exact h
    · exact h
  | pollPower fetch answer reset =>
    show Guarded (Agent.pollPower scheme fetch answer reset a)
    unfold Agent.pollPower
    split
    · exact h
    · rename_i current hcurrent hverifier
      refine h.loadSigningKey fun _ htrusted => hload fetch.time ?_
      obtain ⟨trusted, htrusted⟩ := Option.isSome_iff_exists.mp htrusted
      simp [loadTime, hcurrent, hverifier, htrusted]
    · rename_i verifier _ _
      split
      · exact h.forgetIdentity reset
      · exact h
      · exact Guarded.foldl (fun a arrival h => h.handlePowerCommand verifier arrival) _ h
  | pollRemote fetch answer reset =>
    show Guarded (Agent.pollRemote scheme fetch answer reset a)
    unfold Agent.pollRemote
    split
    · exact h
    rename_i current hcurrent
    split
    · exact h
    rename_i hagent
    split
    · rename_i hverifier
      refine h.loadSigningKey fun _ htrusted => hload fetch.time ?_
      obtain ⟨trusted, htrusted⟩ := Option.isSome_iff_exists.mp htrusted
      simp [loadTime, hcurrent, hverifier, hagent, htrusted]
    · rename_i verifier _
      split
      · exact h.forgetIdentity reset
      · exact h
      · exact Guarded.foldl (fun a arrival h => h.startRemoteSession verifier arrival) _ h
  | message message =>
    show Guarded (handleMessage message a)
    obtain ⟨hlatest, huses, hpower, hremote⟩ := frame_handleMessage message a
    constructor
    · rw [hlatest, huses, hpower]
      exact h.power
    · rw [hlatest, grantUses_handleMessage, hremote]
      exact h.remote

/-- The process starts with nothing executed and nothing hosted. -/
theorem guarded_start (existing joined : Option Enrollment) (time : Time) (fetch : Fetch) :
    Guarded (start existing joined time fetch) :=
  Guarded.loadSigningKey ⟨Lifetime.nil .., Lifetime.nil ..⟩ fun _ _ => by simp [AllExpired, new]

/-- **Nothing is done twice while it is live.** In every run of the agent process, whatever the
network, the clock and the machine answer: if each signing-key load finds everything so far expired,
then no power command nonce is executed twice, and no grant nonce hosted twice, before the clock has
been seen past the first one's expiry. -/
theorem once_while_live (scheme : Signature.Scheme) (existing joined : Option Enrollment)
    (time : Time) (fetch : Fetch) (events : List Event)
    (h : Along (step scheme) LoadsWhenExpired events (start existing joined time fetch)) :
    ExecutedOnce (run (step scheme) events (start existing joined time fetch)) ∧
      HostedOnce (run (step scheme) events (start existing joined time fetch)) := by
  have hguarded : Guarded (run (step scheme) events (start existing joined time fetch)) :=
    h.invariant Guarded.step (guarded_start existing joined time fetch)
  exact ⟨hguarded.executedOnce, hguarded.hostedOnce⟩

/-! ## A heartbeat that changes the agent id -/

/-- A signed command that expires two minutes after it was issued. -/
def lockCommand : PowerCommand.Command :=
  ⟨"c1", "power.lock", "d1", "s1", ⟨0⟩, ⟨120 * Time.second⟩, "n1", "u1"⟩

/-- A scheme under which only the text of `lockCommand` was signed. -/
def lockScheme : Signature.Scheme := fun _ message _ =>
  message = PowerCommand.signingInput lockCommand

/-- The signing key, fetched at a time. -/
def fetched (time : Time) : Fetch := ⟨some ⟨"key", String.ofList (List.replicate 43 'A')⟩, time⟩

/-- The one envelope, collected at a time. -/
def collected (time : Time) : PowerArrival where
  envelope := some ⟨lockCommand, "AAAA", "key"⟩
  now := time
  reading := time
  interface := ⟨"", ""⟩
  machine := ⟨.windows, fun _ _ => none, none, none, fun _ => none⟩

/-- An agent that does not know its id yet collects the command, learns the id from a heartbeat, and
collects the command again, all within three seconds. -/
def reloaded : List Event :=
  [.pollPower (fetched ⟨0⟩) (.ok [collected ⟨Time.second⟩]) true,
    .beat (.ok ⟨false, "a2"⟩) true true (fetched ⟨2 * Time.second⟩),
    .pollPower (fetched ⟨0⟩) (.ok [collected ⟨3 * Time.second⟩]) true]

/-- One command is executed twice while it is live. -/
theorem reloaded_executed_twice :
    ¬ ExecutedOnce (run (step lockScheme) reloaded
      (start (some ⟨"d1", ""⟩) none ⟨0⟩ (fetched ⟨0⟩))) := by
  decide

/-- The agent collects one command twice, and its id does not change. -/
def collectedTwice : List Event :=
  [.pollPower (fetched ⟨0⟩) (.ok [collected ⟨Time.second⟩]) true,
    .beat (.ok ⟨false, "a1"⟩) true true (fetched ⟨2 * Time.second⟩),
    .pollPower (fetched ⟨0⟩) (.ok [collected ⟨3 * Time.second⟩]) true]

/-- Without a load, the second copy is refused. -/
theorem collectedTwice_once :
    ExecutedOnce (run (step lockScheme) collectedTwice
        (start (some ⟨"d1", "a1"⟩) none ⟨0⟩ (fetched ⟨0⟩))) ∧
      HostedOnce (run (step lockScheme) collectedTwice
        (start (some ⟨"d1", "a1"⟩) none ⟨0⟩ (fetched ⟨0⟩))) := by
  apply once_while_live
  refine ⟨fun time h => ?_, fun time h => ?_, fun time h => ?_, trivial⟩
  · exact absurd h (by decide +revert)
  · exact absurd h (by decide +revert)
  · exact absurd h (by decide +revert)

end Agent
