import NetlinkHub.Agent.Agent

/-! # What the agent hosts

A host is started by a remote poll alone, for a grant that the verifier has checked
(`hosts_pollRemote`). No event changes the grant of a host, and an input is injected under the grant of
the host that handles the message (`injected_handleMessage`). -/

namespace Agent

variable {scheme : Signature.Scheme} {a : State} {fetch : Fetch}

/-- The grants of the hosts, newest first. -/
def State.grants (a : State) : List RemoteGrant.Grant := a.hosts.map (·.session.grant)

/-- Two states host and have injected the same. -/
structure SameHosts (a b : State) : Prop where
  hosts : b.hosts = a.hosts
  injected : b.injected = a.injected

theorem SameHosts.refl (a : State) : SameHosts a a := ⟨rfl, rfl⟩

theorem SameHosts.trans {b c : State} (h : SameHosts a b) (h' : SameHosts b c) : SameHosts a c :=
  ⟨h'.hosts.trans h.hosts, h'.injected.trans h.injected⟩

theorem SameHosts.loadSigningKey {b : State} (h : SameHosts a b) :
    SameHosts a (loadSigningKey fetch b) := by
  unfold Agent.loadSigningKey
  split
  · exact ⟨h.hosts, h.injected⟩
  · exact h

theorem SameHosts.forgetIdentity {b : State} (h : SameHosts a b) (reset : Bool) :
    SameHosts a (forgetIdentity reset b) := by
  unfold Agent.forgetIdentity
  split
  · exact ⟨h.hosts, h.injected⟩
  · exact h

theorem SameHosts.reportPower {b : State} (h : SameHosts a b) (commandID detail : String)
    (succeeded : Bool) : SameHosts a (reportPower commandID succeeded detail b) := by
  unfold Agent.reportPower
  split
  · exact h
  · exact ⟨h.hosts, h.injected⟩

/-- **A heartbeat** starts no host and stops none, whatever it is answered. -/
theorem sameHosts_beat (answer : Answer Heartbeat) (reset saved : Bool) :
    SameHosts a (beat answer reset saved fetch a) := by
  unfold beat
  split
  · exact .refl a
  split
  · exact (SameHosts.refl a).forgetIdentity reset
  · exact .refl a
  split
  · exact (SameHosts.refl a).forgetIdentity reset
  split
  · split
    · apply SameHosts.loadSigningKey
      exact ⟨rfl, rfl⟩
    · exact .refl a
  · exact .refl a

theorem sameHosts_handlePowerCommand (verifier : PowerCommand.Verifier) (arrival : PowerArrival)
    (a : State) : SameHosts a (handlePowerCommand scheme verifier arrival a) := by
  unfold handlePowerCommand
  split
  · exact .refl a
  simp only
  split
  · apply SameHosts.reportPower
    exact ⟨rfl, rfl⟩
  · -- Carried out or failed, a command starts no host.
    split <;> (apply SameHosts.reportPower; exact ⟨rfl, rfl⟩)

theorem sameHosts_foldl {α : Type} {f : State → α → State} (hf : ∀ a x, SameHosts a (f a x))
    (xs : List α) : SameHosts a (xs.foldl f a) := by
  induction xs generalizing a with
  | nil => exact .refl a
  | cons x xs ih => exact (hf a x).trans ih

/-- **A power poll** starts no host and stops none, whatever it is answered. -/
theorem sameHosts_pollPower (answer : Answer (List PowerArrival)) (reset : Bool) :
    SameHosts a (pollPower scheme fetch answer reset a) := by
  unfold pollPower
  split
  · exact .refl a
  · exact (SameHosts.refl a).loadSigningKey
  split
  · exact (SameHosts.refl a).forgetIdentity reset
  · exact .refl a
  · exact sameHosts_foldl (fun a arrival => sameHosts_handlePowerCommand _ arrival a) _

/-! ## Starting hosts -/

/-- The agent has started hosts for grants that the verifier has checked, and done nothing else to
them. -/
structure Starts (scheme : Signature.Scheme) (verifier : RemoteGrant.Verifier)
    (arrivals : List GrantArrival) (a b : State) : Prop where
  hosts : ∃ started, b.hosts = started ++ a.hosts ∧ ∀ host ∈ started, ∃ arrival ∈ arrivals,
    ∃ envelope, arrival.envelope = some envelope ∧
      verifier.checks scheme envelope arrival.now = .ok host.session.grant
  injected : b.injected = a.injected

variable {verifier : RemoteGrant.Verifier} {arrivals : List GrantArrival}

theorem SameHosts.starts {b : State} (h : SameHosts a b) : Starts scheme verifier arrivals a b :=
  ⟨⟨[], h.hosts, nofun⟩, h.injected⟩

theorem Starts.mono {arrivals' : List GrantArrival} {b : State}
    (h : Starts scheme verifier arrivals a b) (hsub : arrivals ⊆ arrivals') :
    Starts scheme verifier arrivals' a b := by
  obtain ⟨⟨started, hhosts, hstarted⟩, hinjected⟩ := h
  refine ⟨⟨started, hhosts, fun host hhost => ?_⟩, hinjected⟩
  obtain ⟨arrival, harrival, hchecks⟩ := hstarted host hhost
  exact ⟨arrival, hsub harrival, hchecks⟩

theorem Starts.trans {b c : State} (h : Starts scheme verifier arrivals a b)
    (h' : Starts scheme verifier arrivals b c) : Starts scheme verifier arrivals a c := by
  obtain ⟨⟨started, hhosts, hstarted⟩, hinjected⟩ := h
  obtain ⟨⟨started', hhosts', hstarted'⟩, hinjected'⟩ := h'
  refine ⟨⟨started' ++ started, ?_, ?_⟩, hinjected'.trans hinjected⟩
  · rw [hhosts', hhosts, List.append_assoc]
  · intro host hhost
    rcases List.mem_append.mp hhost with hhost | hhost
    · exact hstarted' host hhost
    · exact hstarted host hhost

/-- **One session grant**, whatever it is, starts at most one host, for a grant that was checked. -/
theorem starts_startRemoteSession (arrival : GrantArrival) :
    Starts scheme verifier [arrival] a (startRemoteSession scheme verifier arrival a) := by
  unfold startRemoteSession
  split
  · exact (SameHosts.refl a).starts
  rename_i envelope henvelope
  rcases ReplayGuard.pass_cases (verifier.checks scheme) RemoteGrant.Grant.nonce
      RemoteGrant.Grant.expiresAt .replayed
      ⟨envelope, arrival.now, arrival.reading⟩ a.remoteNonces with ⟨e, hpass⟩ | ⟨g, hchecks, hpass⟩
  · rw [RemoteGrant.Verifier.verify, hpass]
    exact SameHosts.starts ⟨rfl, rfl⟩
  · rw [RemoteGrant.Verifier.verify, hpass]
    simp only
    split
    · exact SameHosts.starts ⟨rfl, rfl⟩
    · rename_i grant hgrant
      split at hgrant
      · cases hgrant
        split
        · exact SameHosts.starts ⟨rfl, rfl⟩
        split
        · exact SameHosts.starts ⟨rfl, rfl⟩
        · -- The one case in which a host is started.
          refine ⟨⟨[⟨Remote.newSession g, _⟩], rfl, fun host hhost => ?_⟩, rfl⟩
          cases List.mem_singleton.mp hhost
          exact ⟨arrival, List.mem_singleton_self arrival, envelope, henvelope, hchecks⟩
      · cases hgrant

theorem starts_foldl (arrivals : List GrantArrival) : Starts scheme verifier arrivals a
    (arrivals.foldl (fun a arrival => startRemoteSession scheme verifier arrival a) a) := by
  induction arrivals generalizing a with
  | nil => exact (SameHosts.refl a).starts
  | cons arrival arrivals ih =>
    have hfirst : Starts scheme verifier [arrival] a (startRemoteSession scheme verifier arrival a) :=
      starts_startRemoteSession arrival
    exact (hfirst.mono (by simp)).trans (ih.mono (List.subset_cons_self _ _))

/-- **A remote poll** starts hosts under the verifier that the agent has, for grants that it was
answered. -/
theorem starts_pollRemote (answer : Answer (List GrantArrival)) (reset : Bool) :
    SameHosts a (pollRemote scheme fetch answer reset a) ∨
      ∃ verifier arrivals, a.remoteVerifier = some verifier ∧ answer = .ok arrivals ∧
        Starts scheme verifier arrivals a (pollRemote scheme fetch answer reset a) := by
  unfold pollRemote
  split
  · exact .inl (.refl a)
  split
  · exact .inl (.refl a)
  split
  · exact .inl (SameHosts.refl a).loadSigningKey
  rename_i verifier hverifier
  split
  · exact .inl ((SameHosts.refl a).forgetIdentity reset)
  · exact .inl (.refl a)
  · rename_i arrivals
    exact .inr ⟨verifier, arrivals, hverifier, rfl, starts_foldl arrivals⟩

/-! ## Messages -/

/-- A message changes the counters of a session, not its grant. -/
@[simp] theorem grants_handleMessage (message : Message) (a : State) :
    (handleMessage message a).grants = a.grants := by
  unfold handleMessage State.grants
  split
  · rfl
  · rename_i host hhost
    obtain ⟨hlt, rfl⟩ := List.getElem?_eq_some_iff.mp hhost
    simp only [List.map_set, Remote.grant_handleInput]
    rw [← List.getElem_map (f := fun h : Host => h.session.grant) (h := by simpa),
      List.set_getElem_self]

/-- What a message injects, it injects under the grant of the host that handles it, and that grant
allows input. -/
theorem injected_handleMessage (message : Message) (a : State) :
    (handleMessage message a).injected = a.injected ∨
      ∃ grant injection, a.grants[message.host]? = some grant ∧ grant.mode = "control" ∧
        (handleMessage message a).injected = (grant, injection) :: a.injected := by
  unfold handleMessage State.grants
  split
  · exact .inl rfl
  · rename_i host hhost
    simp only
    rw [List.getElem?_map, hhost]
    cases hinjection :
        (host.session.handleInput message.now message.raw message.injector).2.1 with
    | none => exact .inl rfl
    | some injection =>
      refine .inr ⟨host.session.grant, injection, rfl, Remote.mode_of_injected hinjection, ?_⟩
      rw [Remote.grant_handleInput]
      rfl

end Agent
