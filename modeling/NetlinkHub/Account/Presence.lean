import NetlinkHub.Account.WakeSettings

/-! # Stored presence

A heartbeat stores what a computer says of itself, and `reapStaleAgents` stores that nothing was heard of
it. Everything else computes presence from the time of the last heartbeat. The reaper leaves an agent that
was heard of in time as it finds it, so the two agree exactly if each of these stands as online
(`presence_iff`); and a heartbeat announces what it has read before, whatever it then stores. -/

namespace Account

open Api (Date HttpException online)
open Concurrent (Config Log Machine Move Prog Step Upholds)
open Table (Op)

/-! ## The calls -/

/-- The agents that `reapStaleAgents` selects: not offline yet, and not heard of since the cutoff. -/
def stale (now : Date) (a : AgentRow) : Bool :=
  a.status ≠ "offline" ∧ (a.lastHeartbeatAt = none ∨
    a.lastHeartbeatAt.any fun last => last < now - Api.agentOfflineAfterSeconds * 1000)

/-- The row of an agent that has gone offline. -/
def AgentRow.gone (a : AgentRow) : AgentRow := { a with status := "offline" }

/-- `reapStaleAgents`: the number of agents that were stale. -/
def reapStaleAgents (now : Option Date) : Service Nat := do
  let now ← match now with
    | some now => .done now
    | none => newDate
  Prog.perform (.agents (.update (stale now) AgentRow.gone)) fun w => (w.agents.filter (stale now)).length

/-- The calls that store presence. -/
inductive PresenceRequest where
  | heartbeat (principal : AgentPrincipal) (input : AgentHeartbeatRequest)
  | reapStaleAgents (now : Option Date)
  deriving DecidableEq, Repr

/-- What they answer. -/
inductive PresenceResponse where
  | beat (r : AgentHeartbeatResponse)
  | reaped (count : Nat)
  deriving DecidableEq, Repr

/-- What each of them runs. -/
def presenceHandler : PresenceRequest → Service PresenceResponse
  | .heartbeat principal input => .beat <$> heartbeat principal input
  | .reapStaleAgents now => .reaped <$> reapStaleAgents now

/-- Any number of calls, statement by statement, while time passes. -/
def presenceMachine : Machine World Write HttpException PresenceRequest Nat PresenceResponse :=
  ⟨presenceHandler, exec, fun ms => meanwhile (.tick ms)⟩

/-- The control plane after a run of such calls. -/
abbrev presenceRun (w : World) (moves : List (Move PresenceRequest Nat)) :
    Config World Write HttpException PresenceRequest PresenceResponse :=
  Run.run presenceMachine.step moves (Config.initial w)

/-- The log of such a run. -/
abbrev PresenceLog := Log World Write PresenceRequest

/-- A statement of such a run. -/
abbrev PresenceStep := Step World Write PresenceRequest

/-! ## Presence -/

/-- Agents and devices have keys of their own, and the device of each agent is there. -/
structure AgentsKeyed (w : World) : Prop where
  ids : (w.agents.map (·.id)).Nodup
  deviceIds : (w.agents.map (·.deviceId)).Nodup
  known : ∀ a ∈ w.agents, ∃ d ∈ w.devices, d.id = a.deviceId

/-- What is stored of each agent is what is computed. -/
def Agree (now : Date) (w : World) : Prop :=
  ∀ a ∈ w.agents, a.status = "online" ↔ online a.lastHeartbeatAt now

/-- The statement is the write of `reapStaleAgents`, as of a time. -/
def Reaps (step : PresenceStep) (now : Date) : Prop :=
  (∃ given, step.request = .reapStaleAgents given) ∧ step.write = .agents (.update (stale now) AgentRow.gone)

/-- What a heartbeat of the device reports, by the statement that stores it. -/
def reported (deviceId : String) (step : PresenceStep) : Option String :=
  match step.request, step.write with
  | .heartbeat principal input, .agents _ => if principal.deviceId = deviceId then some input.status else none
  | _, _ => none

/-- The statement reaps as of a time at which an agent, heard of when it was, counts as offline. -/
def TakesOffline (last : Option Date) (step : PresenceStep) : Prop :=
  ∃ now, Reaps step now ∧ online last now = false

/-- The agent of a device is stored as online. -/
def OnlineBy (deviceId : String) (w : World) : Prop :=
  ∃ a ∈ w.agents, a.deviceId = deviceId ∧ a.status = "online"

/-- The agent stands as online: its last heartbeat has reported that, or there was none and it was online at
the start; and no reaping since was as of a time at which it counts as offline. -/
def Standing (start : World) (a : AgentRow) : List PresenceStep → Prop
  | [] => OnlineBy a.deviceId start
  | step :: earlier =>
    match reported a.deviceId step with
    | some status => status = "online"
    | none => ¬ TakesOffline a.lastHeartbeatAt step ∧ Standing start a earlier

/-! ## Announcements -/

/-- The `agent.status` event of an agent. -/
def Publishes (step : PresenceStep) (agentId : String) : Prop :=
  ∃ spaceId, step.write = .publishStatus spaceId agentId

/-- The record of a transition. -/
def Audits (step : PresenceStep) : Prop :=
  ∃ row, step.write = .api (.audit row) ∧ row.action = "device.heartbeat"

/-- The statement changes the stored status of an agent to `online`. -/
def BringsOnline (step : PresenceStep) (agentId : String) : Prop :=
  (∃ a ∈ step.before.agents, a.id = agentId ∧ a.status ≠ "online") ∧
    ∃ a ∈ (exec step.write step.before).agents, a.id = agentId ∧ a.status = "online"

/-- The statements of a call announce exactly what they bring online. -/
structure Announced (own : List PresenceStep) : Prop where
  published : ∀ agentId, (∃ step ∈ own, Publishes step agentId) ↔ ∃ step ∈ own, BringsOnline step agentId
  audited : (∃ step ∈ own, Audits step) ↔ ∃ agentId, ∃ step ∈ own, BringsOnline step agentId

/-- A heartbeat that reports `online` has read whether the agent is stored as online as it then finds it; one
that does not has read that it is. -/
def Steady (own : List PresenceStep) : Prop :=
  ∀ read ∈ own, ∀ update ∈ own, ∀ principal input op, read.write = .select .agents →
    update.request = .heartbeat principal input → update.write = .agents op →
      if input.status = "online" then
        (OnlineBy principal.deviceId read.before ↔ OnlineBy principal.deviceId update.before)
      else OnlineBy principal.deviceId read.before

/-! ## The reaper -/

theorem stale_iff {now : Date} {a : AgentRow} :
    stale now a = true ↔ a.status ≠ "offline" ∧ online a.lastHeartbeatAt now = false := by
  have hcutoff : ∀ last now after : Int, last < now - after ↔ ¬ now - last ≤ after := by
    intro last now after
    omega
  unfold stale online
  cases a.lastHeartbeatAt with
  | none => simp
  | some last =>
    simp only [reduceCtorEq, false_or, Option.any_some, decide_eq_true_eq, decide_eq_false_iff_not]
    exact and_congr_right fun _ => hcutoff last now _

/-- A reaping says as of when it is. -/
theorem stale_injective {now now' : Date} (h : stale now = stale now') : now = now' := by
  have hcutoff : ∀ now now' after : Int,
      (min now now' - after < now - after ↔ min now now' - after < now' - after) → now = now' := by
    intro now now' after hsame
    omega
  -- An agent that was last heard of right at the earlier cutoff tells them apart.
  have hlast := congrFun h ⟨"", "", "", "online",
    some (min now now' - Api.agentOfflineAfterSeconds * 1000), none, none, false, false⟩
  simp only [stale, ne_eq, String.reduceEq, not_false_eq_true, reduceCtorEq, Option.any_some, false_or,
    decide_eq_true_eq, true_and, decide_eq_decide] at hlast
  exact hcutoff now now' _ hlast

theorem reaps_iff {i : Nat} {given : Option Date} {now now' : Date} {s : World} :
    Reaps ⟨i, .reapStaleAgents given, .agents (.update (stale now) AgentRow.gone), s⟩ now' ↔ now' = now := by
  constructor
  · rintro ⟨-, hwrite⟩
    exact (stale_injective (Op.update.inj (Write.agents.inj hwrite)).1).symm
  · rintro rfl
    exact ⟨⟨given, rfl⟩, rfl⟩

/-- What the reaper makes of a row. -/
theorem status_reaped {now : Date} {a : AgentRow} :
    (if stale now a then a.gone else a).status = "online" ↔ a.status = "online" ∧ online a.lastHeartbeatAt now := by
  cases honline : online a.lastHeartbeatAt now with
  | true =>
    have hnot : ¬ stale now a := by
      intro hstale
      exact absurd (honline.symm.trans (stale_iff.mp hstale).2) (by decide)
    simp [hnot]
  | false =>
    by_cases hoff : a.status = "offline"
    · simp [stale_iff, hoff]
    · simp [stale_iff, hoff, honline, AgentRow.gone]

/-- **The reaper makes the stored presence agree** exactly if each agent that was heard of in time is stored
as online. -/
theorem agree_reaped_iff {now : Date} {w : World} :
    Agree now (exec (.agents (.update (stale now) AgentRow.gone)) w) ↔
      ∀ a ∈ w.agents, online a.lastHeartbeatAt now → a.status = "online" := by
  have hlast : ∀ a : AgentRow, (if stale now a then a.gone else a).lastHeartbeatAt = a.lastHeartbeatAt := by
    intro a
    split <;> rfl
  have hrow : ∀ a : AgentRow, ((if stale now a then a.gone else a).status = "online" ↔
      online (if stale now a then a.gone else a).lastHeartbeatAt now) ↔
        (online a.lastHeartbeatAt now → a.status = "online") := by
    intro a
    rw [hlast, status_reaped]
    tauto
  constructor
  · intro hagree a ha honline
    exact (hrow a).mp (hagree _ (Table.mem_update.mpr ⟨a, ha, rfl⟩)) honline
  · intro hstored a' ha'
    obtain ⟨a, ha, rfl⟩ := Table.mem_update.mp ha'
    exact (hrow a).mpr (hstored a ha)

/-! ## What the calls write -/

/-- What a statement of a call does to the agents and the devices, by what the call has read. -/
def Wrote (step : PresenceStep) (own : List PresenceStep) : Prop :=
  match step.request, step.write with
  | .heartbeat principal input, .agents op => ∃ read ∈ own, ∃ agent now,
    read.before.agents.find? (·.deviceId = principal.deviceId) = some agent ∧
      op = .update (·.id = agent.id) (beaten agent input now)
  | .reapStaleAgents _, .agents op => ∃ now, op = .update (stale now) AgentRow.gone
  | _, .devices op => ∃ id data, op = .update (·.id = id) data ∧ ∀ d, DeviceRow.id (data d) = d.id
  | _, .upsertAgent .. => False
  | _, _ => True

/-- What a heartbeat stores of its device. -/
def seen (input : AgentHeartbeatRequest) (now : Date) (d : DeviceRow) : DeviceRow :=
  { d with lastSeenAt := some now, appVersion := input.appVersion <|> d.appVersion }

/-- The record of a computer that has come online. -/
def onlineRow (principal : AgentPrincipal) (agent : AgentRow) : Api.AuditRow :=
  ⟨"device.heartbeat", "success", some principal.userId, some principal.deviceId, none, some agent.spaceId,
    none, [("transition", .text "offline_to_online")]⟩

/-- The statements of a heartbeat of an agent, newest first, by the worlds that they find. -/
def beatSteps (i : Nat) (principal : AgentPrincipal) (input : AgentHeartbeatRequest) (agent : AgentRow)
    (read clock update device : World) : List PresenceStep :=
  [⟨i, .heartbeat principal input,
      .devices (.update (·.id = principal.deviceId) (seen input clock.api.clock)), device⟩,
    ⟨i, .heartbeat principal input,
      .agents (.update (·.id = agent.id) (beaten agent input clock.api.clock)), update⟩,
    ⟨i, .heartbeat principal input, .api .clock, clock⟩, ⟨i, .heartbeat principal input, .select .agents, read⟩]

/-- The statements of a heartbeat, whichever way it has gone. -/
inductive Course (i : Nat) (principal : AgentPrincipal) (input : AgentHeartbeatRequest) :
    List PresenceStep → Prop
  /-- It is not of the device that has signed it. -/
  | mismatch : Course i principal input []
  /-- There is no agent, or its device is revoked. -/
  | unheard (read : World) : Course i principal input [⟨i, .heartbeat principal input, .select .agents, read⟩]
  /-- The agent is gone. -/
  | vanished {agent : AgentRow} {read update : World} (clock device : World)
      (hfound : read.agents.find? (·.deviceId = principal.deviceId) = some agent)
      (hnone : ¬ ∃ a ∈ update.agents, a.id = agent.id) :
      Course i principal input (beatSteps i principal input agent read clock update device).tail
  /-- Its device is gone. -/
  | orphaned {agent : AgentRow} {read device : World} (clock update : World)
      (hfound : read.agents.find? (·.deviceId = principal.deviceId) = some agent)
      (hnone : ¬ ∃ d ∈ device.devices, d.id = principal.deviceId) :
      Course i principal input (beatSteps i principal input agent read clock update device)
  /-- It was online. -/
  | silent {agent : AgentRow} {read : World} (clock update device : World)
      (hfound : read.agents.find? (·.deviceId = principal.deviceId) = some agent)
      (honline : agent.status = "online") :
      Course i principal input (beatSteps i principal input agent read clock update device)
  /-- It was not. -/
  | told {agent : AgentRow} {read : World} (clock update device live audit : World)
      (hfound : read.agents.find? (·.deviceId = principal.deviceId) = some agent)
      (hoff : agent.status ≠ "online") :
      Course i principal input
        (⟨i, .heartbeat principal input, .api (.audit (onlineRow principal agent)), audit⟩ ::
          ⟨i, .heartbeat principal input, .publishStatus agent.spaceId agent.id, live⟩ ::
            beatSteps i principal input agent read clock update device)

/-- What a call has done when it has come to an end. -/
def Did : PresenceRequest → Nat → List PresenceStep → Prop
  | .heartbeat principal input, i, own => Course i principal input own
  | .reapStaleAgents given, _, own => ∀ step ∈ own, step.request = .reapStaleAgents given ∧
      (step.write = .api .clock ∨ ∃ now, step.write = .agents (.update (stale now) AgentRow.gone))

theorem traces_heartbeat (i : Nat) (principal : AgentPrincipal) (input : AgentHeartbeatRequest) :
    (heartbeat principal input).Traces Wrote i (.heartbeat principal input)
      (fun _ own => Course i principal input own) [] := by
  unfold heartbeat
  split
  · exact .mismatch
  rw [select_bind]
  refine .stmt (fun _ => trivial) fun read => ?_
  split
  · exact .unheard read
  · exact .unheard read
  rename_i agent hread
  -- The agent is the one that the read has found, by the device that has signed.
  obtain ⟨a, hfound, heq⟩ := Option.map_eq_some_iff.mp hread
  obtain ⟨rfl, -⟩ := Prod.mk.inj heq
  rw [newDate_bind]
  refine .stmt (fun _ => trivial) fun clock => ?_
  rw [updateAgent, Prog.stmt_bind]
  refine .stmt (fun update => ?_) fun update => ?_
  · exact ⟨⟨i, _, .select .agents, read⟩, List.mem_cons_of_mem _ List.mem_cons_self, a, _, hfound, rfl⟩
  split
  case isFalse hany =>
    refine Course.vanished clock update hfound fun hsome => hany ?_
    simpa using hsome
  rw [Prog.done_bind, updateDevice_bind]
  refine .stmt (fun device => ?_) fun device => ?_
  · exact ⟨_, _, rfl, fun d => rfl⟩
  split
  case h_1 hnone =>
    refine Course.orphaned clock update hfound fun hsome => ?_
    simp at hnone
    obtain ⟨d, hd, hid⟩ := hsome
    exact hnone d hd hid
  unfold recordOnline
  split
  case isTrue honline => exact Course.silent clock update device hfound honline
  case isFalse hoff =>
    refine .stmt (fun _ => trivial) fun live => .stmt (fun _ => trivial) fun audit => ?_
    exact Course.told clock update device live audit hfound hoff

theorem traces_reapStaleAgents (i : Nat) (given : Option Date) :
    (reapStaleAgents given).Traces Wrote i (.reapStaleAgents given)
      (fun _ own => Did (.reapStaleAgents given) i own) [] := by
  cases given with
  | some now =>
    refine .stmt (fun _ => ⟨now, rfl⟩) fun s step hstep => ?_
    obtain rfl := List.mem_singleton.mp hstep
    exact ⟨rfl, .inr ⟨now, rfl⟩⟩
  | none =>
    refine .stmt (fun _ => trivial) fun clock => .stmt (fun _ => ⟨clock.api.clock, rfl⟩) fun s step hstep => ?_
    rcases List.mem_cons.mp hstep with rfl | hstep
    · exact ⟨rfl, .inr ⟨clock.api.clock, rfl⟩⟩
    · obtain rfl := List.mem_singleton.mp hstep
      exact ⟨rfl, .inl rfl⟩

/-- **What each call does.** -/
theorem traces_presenceHandler (i : Nat) (q : PresenceRequest) :
    (presenceHandler q).Traces Wrote i q (fun _ own => Did q i own) [] := by
  cases q with
  | heartbeat principal input =>
    exact (traces_heartbeat i principal input).map _ (fun _ _ hown => hown) fun _ _ hown => hown
  | reapStaleAgents given =>
    exact (traces_reapStaleAgents i given).map _ (fun _ _ hown => hown) fun _ _ hown => hown

/-! ## Agents and devices stay -/

/-- The agents and devices are those of the start. -/
structure Fixed (start w : World) : Prop where
  agents : w.agents.map (fun a => (a.id, a.deviceId)) = start.agents.map fun a => (a.id, a.deviceId)
  devices : w.devices.map (·.id) = start.devices.map (·.id)

variable {start w w' : World} {i : Nat} {q : PresenceRequest} {own : List PresenceStep}

/-- An agent of one moment is there at another. -/
theorem Fixed.exists_agent (h : Fixed start w) (h' : Fixed start w') {a : AgentRow} (ha : a ∈ w.agents) :
    ∃ b ∈ w'.agents, b.id = a.id ∧ b.deviceId = a.deviceId := by
  have hkey := List.mem_map_of_mem (f := fun a : AgentRow => (a.id, a.deviceId)) ha
  rw [h.agents, ← h'.agents] at hkey
  obtain ⟨b, hb, heq⟩ := List.mem_map.mp hkey
  obtain ⟨hid, hdevice⟩ := Prod.mk.inj heq
  exact ⟨b, hb, hid, hdevice⟩

theorem Fixed.keyed (h : Fixed start w) (hstart : AgentsKeyed start) : AgentsKeyed w := by
  have hids : w.agents.map (·.id) = start.agents.map (·.id) := by
    simpa only [List.map_map, Function.comp_def] using congrArg (List.map Prod.fst) h.agents
  have hdeviceIds : w.agents.map (·.deviceId) = start.agents.map (·.deviceId) := by
    simpa only [List.map_map, Function.comp_def] using congrArg (List.map Prod.snd) h.agents
  refine ⟨hids ▸ hstart.ids, hdeviceIds ▸ hstart.deviceIds, fun a ha => ?_⟩
  have hsame : Fixed start start := ⟨rfl, rfl⟩
  obtain ⟨b, hb, -, hdevice⟩ := h.exists_agent hsame ha
  obtain ⟨d, hd, hid⟩ := hstart.known b hb
  have hmem : d.id ∈ w.devices.map (·.id) := h.devices ▸ List.mem_map_of_mem hd
  obtain ⟨d', hd', heq⟩ := List.mem_map.mp hmem
  exact ⟨d', hd', heq.trans (hid.trans hdevice)⟩

/-- Agents of two moments are one agent by either key. -/
theorem Fixed.id_iff (h : Fixed start w) (h' : Fixed start w') (hstart : AgentsKeyed start) {a b : AgentRow}
    (ha : a ∈ w.agents) (hb : b ∈ w'.agents) : b.id = a.id ↔ b.deviceId = a.deviceId := by
  obtain ⟨c, hc, hid, hdevice⟩ := h.exists_agent h' ha
  constructor
  · intro heq
    rw [Table.eq_of_key (h'.keyed hstart).ids hb hc (heq.trans hid.symm), hdevice]
  · intro heq
    rw [Table.eq_of_key (h'.keyed hstart).deviceIds hb hc (heq.trans hdevice.symm), hid]

/-- No statement of a call adds or removes an agent or a device. -/
theorem Fixed.exec {write : Write} (h : Fixed start w) (hwrote : Wrote ⟨i, q, write, w⟩ own) :
    Fixed start (exec write w) := by
  have hkeeps : ∀ {sel : AgentRow → Bool} {data : AgentRow → AgentRow},
      (∀ a, AgentRow.id (data a) = a.id ∧ AgentRow.deviceId (data a) = a.deviceId) →
        Fixed start (Account.exec (.agents (.update sel data)) w) := by
    intro sel data hdata
    have hkey : ((Op.update sel data).apply w.agents).map (fun a => (a.id, a.deviceId)) =
        w.agents.map fun a => (a.id, a.deviceId) :=
      Table.map_update fun a => Prod.ext (hdata a).1 (hdata a).2
    exact ⟨hkey.trans h.agents, h.devices⟩
  cases write with
  | agents op =>
    cases q with
    | heartbeat principal input =>
      obtain ⟨_, -, agent, now, -, rfl⟩ := hwrote
      exact hkeeps fun _ => ⟨rfl, rfl⟩
    | reapStaleAgents given =>
      obtain ⟨now, rfl⟩ := hwrote
      exact hkeeps fun _ => ⟨rfl, rfl⟩
  | devices op =>
    obtain ⟨id, data, rfl, hdata⟩ : ∃ id data, op = .update (·.id = id) data ∧ ∀ d, DeviceRow.id (data d) = d.id := by
      cases q <;> exact hwrote
    exact ⟨h.agents, (Table.map_update hdata).trans h.devices⟩
  | upsertAgent row now => cases q <;> exact hwrote.elim
  | createNonce row =>
    simp only [Account.exec]
    split
    · exact ⟨h.agents, h.devices⟩
    · exact h
  | _ => exact ⟨h.agents, h.devices⟩

/-- What the statements of a run do. -/
theorem wrote_run (w : World) (moves : List (Move PresenceRequest Nat)) :
    (presenceRun w moves).log.Traced Wrote :=
  (Concurrent.traced_run (K := fun _ _ _ => True)
    (fun i q => (traces_presenceHandler i q).mono fun _ _ _ => trivial) w moves).1

/-- **Agents and devices are the same at every moment of a run.** -/
theorem fixed_run (w : World) (moves : List (Move PresenceRequest Nat)) :
    (presenceRun w moves).log.Always fun σ => Fixed w σ.shared := by
  have hupholds : Upholds presenceMachine
      (fun step earlier => Wrote step (earlier.filter (·.thread = step.thread))) fun σ => Fixed w σ.shared :=
    { step := fun i q write σ hσ hwrote => hσ.exec hwrote
      env := fun ms σ hσ => ⟨hσ.agents, hσ.devices⟩ }
  exact hupholds.run ⟨rfl, rfl⟩ moves (wrote_run w moves)

/-- Each statement of a run has found them. -/
theorem fixed_before (w : World) (moves : List (Move PresenceRequest Nat)) :
    ∀ step ∈ (presenceRun w moves).log.history, Fixed w step.before := by
  intro step hstep
  obtain ⟨later, earlier, heq⟩ := List.append_of_mem hstep
  exact (fixed_run w moves).2 step earlier ⟨later, heq.symm⟩

/-! ## Who stands as online -/

/-- Each agent is stored as online exactly if it stands as such. -/
def Stood (start : World) (σ : PresenceLog) : Prop :=
  ∀ a ∈ σ.shared.agents, a.status = "online" ↔ Standing start a σ.history

variable {σ : PresenceLog} {step : PresenceStep} {earlier : List PresenceStep} {a : AgentRow}

theorem standing_of_reported {status : String} (h : reported a.deviceId step = some status) :
    Standing start a (step :: earlier) ↔ status = "online" := by
  rw [Standing, h]

theorem standing_of_not_reported (h : reported a.deviceId step = none) :
    Standing start a (step :: earlier) ↔ ¬ TakesOffline a.lastHeartbeatAt step ∧ Standing start a earlier := by
  rw [Standing, h]

/-- Whether an agent stands as online is said by its device and its last heartbeat. -/
theorem standing_congr {b : AgentRow} (hdevice : b.deviceId = a.deviceId)
    (hlast : b.lastHeartbeatAt = a.lastHeartbeatAt) (history : List PresenceStep) :
    Standing start b history ↔ Standing start a history := by
  induction history with
  | nil => rw [Standing, Standing, hdevice]
  | cons step earlier ih => rw [Standing, Standing, hdevice, hlast, ih]

theorem onlineBy_iff (hw : AgentsKeyed w) (ha : a ∈ w.agents) : OnlineBy a.deviceId w ↔ a.status = "online" := by
  constructor
  · rintro ⟨b, hb, hdevice, honline⟩
    exact Table.eq_of_key hw.deviceIds hb ha hdevice ▸ honline
  · exact fun honline => ⟨a, ha, rfl, honline⟩

/-- A statement that neither reports nor reaps leaves it. -/
theorem Stood.perform_of_offAgents {write : Write} (h : Stood start σ) (hoff : write.OffAgents) :
    Stood start (σ.perform exec i q write) := by
  intro a ha
  rw [show (σ.perform exec i q write).shared.agents = σ.shared.agents from hoff.agents σ.shared] at ha
  have hreported : reported a.deviceId (⟨i, q, write, σ.shared⟩ : PresenceStep) = none := by
    cases write with
    | agents op => exact hoff.elim
    | _ => cases q <;> rfl
  have htakes : ¬ TakesOffline a.lastHeartbeatAt (⟨i, q, write, σ.shared⟩ : PresenceStep) := by
    rintro ⟨now, ⟨-, hwrite⟩, -⟩
    obtain rfl : write = _ := hwrite
    exact hoff
  exact (h a ha).trans ((and_iff_right htakes).symm.trans (standing_of_not_reported hreported).symm)

/-- The reaper takes offline whoever was not heard of in time. -/
theorem Stood.perform_reap {given : Option Date} {now : Date} (h : Stood start σ) :
    Stood start (σ.perform exec i (.reapStaleAgents given) (.agents (.update (stale now) AgentRow.gone))) := by
  intro a' ha'
  obtain ⟨a, ha, rfl⟩ := Table.mem_update.mp ha'
  have hrow : (if stale now a then a.gone else a).deviceId = a.deviceId ∧
      (if stale now a then a.gone else a).lastHeartbeatAt = a.lastHeartbeatAt := by
    split <;> exact ⟨rfl, rfl⟩
  refine status_reaped.trans (Iff.trans ?_ (standing_congr hrow.1 hrow.2 _).symm)
  refine Iff.trans ?_ (standing_of_not_reported rfl).symm
  -- The only time as of which this statement reaps is its own.
  have htakes : TakesOffline a.lastHeartbeatAt (⟨i, .reapStaleAgents given,
      .agents (.update (stale now) AgentRow.gone), σ.shared⟩ : PresenceStep) ↔
        online a.lastHeartbeatAt now = false := by
    constructor
    · rintro ⟨now', hreaps, hoff⟩
      rwa [reaps_iff.mp hreaps] at hoff
    · exact fun hoff => ⟨now, reaps_iff.mpr rfl, hoff⟩
  rw [htakes, Bool.not_eq_false, and_comm]
  exact and_congr_right fun _ => h a ha

/-- A heartbeat stores what it reports of its own agent. -/
theorem Stood.perform_heartbeat {principal : AgentPrincipal} {input : AgentHeartbeatRequest} {agent : AgentRow}
    {now : Date} (h : Stood start σ)
    (hkey : ∀ a ∈ σ.shared.agents, a.id = agent.id ↔ a.deviceId = principal.deviceId) :
    Stood start (σ.perform exec i (.heartbeat principal input)
      (.agents (.update (·.id = agent.id) (beaten agent input now)))) := by
  intro a' ha'
  obtain ⟨a, ha, rfl⟩ := Table.mem_update.mp ha'
  by_cases hid : a.id = agent.id
  · have hdevice := (hkey a ha).mp hid
    have hreported : reported (beaten agent input now a).deviceId (⟨i, .heartbeat principal input,
        .agents (.update (·.id = agent.id) (beaten agent input now)), σ.shared⟩ : PresenceStep) =
          some input.status := by
      simp [reported, beaten, hdevice]
    rw [if_pos (decide_eq_true hid)]
    refine Iff.trans ?_ (standing_of_reported hreported).symm
    by_cases honline : input.status = "online"
    · simp [beaten, honline]
    · simp [beaten, honline]
  · have hdevice : principal.deviceId ≠ a.deviceId := fun heq => hid ((hkey a ha).mpr heq.symm)
    rw [if_neg (by simpa using hid)]
    refine (h a ha).trans (Iff.trans ?_ (standing_of_not_reported (by simp [reported, hdevice])).symm)
    exact (and_iff_right fun ⟨_, ⟨⟨_, hrequest⟩, _⟩, _⟩ => nomatch hrequest).symm

/-- **Who is stored as online** is who stands as such, at every moment of a run. -/
theorem stood_run (hstart : AgentsKeyed start) (moves : List (Move PresenceRequest Nat)) :
    (presenceRun start moves).log.Always (Stood start) := by
  have hupholds : Upholds presenceMachine
      (fun step earlier => Wrote step (earlier.filter (·.thread = step.thread)) ∧ Fixed start step.before ∧
        ∀ s ∈ earlier, Fixed start s.before) (Stood start) := by
    refine ⟨fun i q write σ hσ hC => ?_, fun ms σ hσ => hσ⟩
    obtain ⟨hwrote, hnow, hpast⟩ := hC
    by_cases hoff : write.OffAgents
    · exact hσ.perform_of_offAgents hoff
    cases write with
    | agents op =>
      cases q with
      | heartbeat principal input =>
        obtain ⟨read, hread, agent, now, hfound, rfl⟩ := hwrote
        -- The agent that the heartbeat has read is still the one of the device.
        have hagent := List.mem_of_find?_eq_some hfound
        have hdevice : agent.deviceId = principal.deviceId := by simpa using List.find?_some hfound
        have hbefore := hpast read (List.mem_filter.mp hread).1
        refine hσ.perform_heartbeat fun a ha => ?_
        rw [hbefore.id_iff hnow hstart hagent ha, hdevice]
      | reapStaleAgents given =>
        obtain ⟨now, rfl⟩ := hwrote
        exact hσ.perform_reap
    | upsertAgent row now => cases q <;> exact hwrote.elim
    | _ => exact absurd trivial hoff
  refine hupholds.run (fun a ha => (onlineBy_iff hstart ha).symm) moves fun step earlier hsuffix => ?_
  exact ⟨wrote_run start moves step earlier hsuffix,
    fixed_before start moves step (hsuffix.subset List.mem_cons_self),
    fun s hs => fixed_before start moves s (hsuffix.subset (List.mem_cons_of_mem _ hs))⟩

/-! ## What is announced -/

/-- A statement that leaves the agents brings none of them online. -/
theorem not_bringsOnline (hw : AgentsKeyed step.before) (hoff : step.write.OffAgents) (agentId : String) :
    ¬ BringsOnline step agentId := by
  rintro ⟨⟨a, ha, hid, hstatus⟩, b, hb, hid', honline⟩
  rw [hoff.agents] at hb
  obtain rfl := Table.eq_of_key hw.ids ha hb (hid.trans hid'.symm)
  exact hstatus honline

/-- The reaper brings none of them online. -/
theorem not_bringsOnline_reap {now : Date} (hw : AgentsKeyed step.before)
    (hwrite : step.write = .agents (.update (stale now) AgentRow.gone)) (agentId : String) :
    ¬ BringsOnline step agentId := by
  rintro ⟨⟨a, ha, hid, hstatus⟩, b', hb', hid', honline⟩
  rw [hwrite] at hb'
  obtain ⟨b, hb, rfl⟩ := Table.mem_update.mp hb'
  have hkeeps : (if stale now b then b.gone else b).id = b.id := by
    split <;> rfl
  obtain rfl := Table.eq_of_key hw.ids ha hb (hid.trans (hkeeps.symm.trans hid').symm)
  exact hstatus (status_reaped.mp honline).1

/-- A heartbeat brings its own agent online if it reports that, and finds that the agent is not. -/
theorem bringsOnline_heartbeat {agent b : AgentRow} {input : AgentHeartbeatRequest} {now : Date} (hw : AgentsKeyed w)
    (hb : b ∈ w.agents) (hid : b.id = agent.id) (agentId : String) :
    BringsOnline (⟨i, q, .agents (.update (·.id = agent.id) (beaten agent input now)), w⟩ : PresenceStep) agentId ↔
      agentId = agent.id ∧ b.status ≠ "online" ∧ input.status = "online" := by
  constructor
  · rintro ⟨⟨a, ha, rfl, hstatus⟩, c', hc', hid', honline⟩
    obtain ⟨c, hc, rfl⟩ := Table.mem_update.mp hc'
    by_cases hsel : c.id = agent.id
    · -- The row is the one of the heartbeat.
      rw [if_pos (decide_eq_true hsel)] at hid' honline
      have hsame : a.id = agent.id := hid'.symm.trans hsel
      obtain rfl := Table.eq_of_key hw.ids ha hb (hsame.trans hid.symm)
      refine ⟨hsame, hstatus, ?_⟩
      by_contra hreport
      simp [beaten, hreport] at honline
    · rw [if_neg (by simpa using hsel)] at hid' honline
      obtain rfl := Table.eq_of_key hw.ids ha hc hid'.symm
      exact absurd honline hstatus
  · rintro ⟨rfl, hstatus, hreport⟩
    refine ⟨⟨b, hb, hid, hstatus⟩, _, Table.mem_update.mpr ⟨b, hb, rfl⟩, ?_⟩
    rw [if_pos (decide_eq_true hid)]
    exact ⟨hid, by simp [beaten, hreport]⟩

/-- Statements that neither announce nor store are steady, and there is nothing to announce. -/
theorem announced_of_quiet (hpublish : ∀ step ∈ own, ∀ agentId, ¬ Publishes step agentId)
    (haudit : ∀ step ∈ own, ¬ Audits step) (hbrings : ∀ step ∈ own, ∀ agentId, ¬ BringsOnline step agentId) :
    Announced own := by
  refine ⟨fun agentId => iff_of_false ?_ ?_, iff_of_false ?_ ?_⟩
  · rintro ⟨step, hstep, h⟩
    exact hpublish step hstep agentId h
  · rintro ⟨step, hstep, h⟩
    exact hbrings step hstep agentId h
  · rintro ⟨step, hstep, h⟩
    exact haudit step hstep h
  · rintro ⟨agentId, step, hstep, h⟩
    exact hbrings step hstep agentId h

section Beats

variable {principal : AgentPrincipal} {input : AgentHeartbeatRequest} {agent b : AgentRow}
  {read clock update device : World} {rest : List PresenceStep}

/-- A heartbeat is steady by the two worlds in which it has read and stored the status. -/
theorem steady_beat_iff (hrest : ∀ step ∈ rest, step.write.OffAgents ∧ step.write ≠ .select .agents) :
    Steady (rest ++ beatSteps i principal input agent read clock update device) ↔
      if input.status = "online" then
        (OnlineBy principal.deviceId read ↔ OnlineBy principal.deviceId update)
      else OnlineBy principal.deviceId read := by
  constructor
  · intro h
    exact h ⟨i, .heartbeat principal input, .select .agents, read⟩ (by simp [beatSteps])
      ⟨i, .heartbeat principal input,
        .agents (.update (·.id = agent.id) (beaten agent input clock.api.clock)), update⟩ (by simp [beatSteps])
      principal input _ rfl rfl rfl
  · intro h read' hread update' hupdate principal' input' op hselect hrequest hwrite
    -- No other statement reads the agents, and none stores any.
    have hfirst : read'.before = read := by
      rcases List.mem_append.mp hread with hread | hread
      · exact absurd hselect (hrest read' hread).2
      · simp only [beatSteps, List.mem_cons, List.not_mem_nil, or_false] at hread
        rcases hread with rfl | rfl | rfl | rfl
        · cases hselect
        · cases hselect
        · cases hselect
        · rfl
    have hsecond : update'.before = update ∧ update'.request = .heartbeat principal input := by
      rcases List.mem_append.mp hupdate with hupdate | hupdate
      · have hoff := (hrest update' hupdate).1
        rw [hwrite] at hoff
        exact hoff.elim
      · simp only [beatSteps, List.mem_cons, List.not_mem_nil, or_false] at hupdate
        rcases hupdate with rfl | rfl | rfl | rfl
        · cases hwrite
        · exact ⟨rfl, rfl⟩
        · cases hwrite
        · cases hwrite
    obtain ⟨rfl, rfl⟩ := PresenceRequest.heartbeat.inj (hrequest.symm.trans hsecond.2)
    rw [hfirst, hsecond.1]
    exact h

/-- What a heartbeat brings online, it does by the statement that stores the status. -/
theorem exists_bringsOnline_iff (hrest : ∀ step ∈ rest, step.write.OffAgents)
    (hkeyed : ∀ step ∈ rest ++ beatSteps i principal input agent read clock update device, AgentsKeyed step.before)
    (hb : b ∈ update.agents) (hid : b.id = agent.id) (agentId : String) :
    (∃ step ∈ rest ++ beatSteps i principal input agent read clock update device, BringsOnline step agentId) ↔
      agentId = agent.id ∧ b.status ≠ "online" ∧ input.status = "online" := by
  constructor
  · rintro ⟨step, hstep, hbrings⟩
    have hw := hkeyed step hstep
    rcases List.mem_append.mp hstep with hstep | hstep
    · exact absurd hbrings (not_bringsOnline hw (hrest step hstep) agentId)
    simp only [beatSteps, List.mem_cons, List.not_mem_nil, or_false] at hstep
    rcases hstep with rfl | rfl | rfl | rfl
    · exact absurd hbrings (not_bringsOnline hw trivial agentId)
    · exact (bringsOnline_heartbeat hw hb hid agentId).mp hbrings
    · exact absurd hbrings (not_bringsOnline hw trivial agentId)
    · exact absurd hbrings (not_bringsOnline hw trivial agentId)
  · intro h
    have hmem : (⟨i, .heartbeat principal input,
        .agents (.update (·.id = agent.id) (beaten agent input clock.api.clock)), update⟩ : PresenceStep) ∈
          rest ++ beatSteps i principal input agent read clock update device := by
      simp [beatSteps]
    exact ⟨_, hmem, (bringsOnline_heartbeat (hkeyed _ hmem) hb hid agentId).mpr h⟩

/-- A heartbeat that comes to its end announces its agent if it has read that the agent is not online. -/
theorem announced_beat_iff (hrest : ∀ step ∈ rest, step.write.OffAgents ∧ step.write ≠ .select .agents)
    (hown : ∀ step ∈ rest ++ beatSteps i principal input agent read clock update device, Fixed start step.before)
    (hstart : AgentsKeyed start) (hfound : read.agents.find? (·.deviceId = principal.deviceId) = some agent)
    (hpublished : ∀ agentId, (∃ step ∈ rest ++ beatSteps i principal input agent read clock update device,
      Publishes step agentId) ↔ agentId = agent.id ∧ agent.status ≠ "online")
    (haudited : (∃ step ∈ rest ++ beatSteps i principal input agent read clock update device, Audits step) ↔
      agent.status ≠ "online") :
    Announced (rest ++ beatSteps i principal input agent read clock update device) ↔
      Steady (rest ++ beatSteps i principal input agent read clock update device) := by
  have hread : Fixed start read := hown ⟨i, .heartbeat principal input, .select .agents, read⟩ (by simp [beatSteps])
  have hupdate : Fixed start update := hown ⟨i, .heartbeat principal input,
    .agents (.update (·.id = agent.id) (beaten agent input clock.api.clock)), update⟩ (by simp [beatSteps])
  have hagent := List.mem_of_find?_eq_some hfound
  have hdevice : agent.deviceId = principal.deviceId := by simpa using List.find?_some hfound
  obtain ⟨b, hb, hid, hb'⟩ := hread.exists_agent hupdate hagent
  have hbrings := exists_bringsOnline_iff (fun step hstep => (hrest step hstep).1)
    (fun step hstep => (hown step hstep).keyed hstart) hb hid
  have hannounced : Announced (rest ++ beatSteps i principal input agent read clock update device) ↔
      (agent.status ≠ "online" ↔ b.status ≠ "online" ∧ input.status = "online") := by
    constructor
    · intro h
      have heq := (hpublished agent.id).symm.trans ((h.published agent.id).trans (hbrings agent.id))
      simpa using heq
    · intro h
      refine ⟨fun agentId => ?_, ?_⟩
      · rw [hpublished, hbrings, h]
      · rw [haudited, h]
        exact ⟨fun hboth => ⟨agent.id, (hbrings agent.id).mpr ⟨rfl, hboth⟩⟩,
          fun ⟨agentId, hexists⟩ => ((hbrings agentId).mp hexists).2⟩
  rw [hannounced, steady_beat_iff hrest, ← hdevice, onlineBy_iff (hread.keyed hstart) hagent, ← hb',
    onlineBy_iff (hupdate.keyed hstart) hb]
  split <;> tauto

end Beats

/-- **A heartbeat announces what it brings online** exactly if it is steady. -/
theorem Course.announced_iff {principal : AgentPrincipal} {input : AgentHeartbeatRequest}
    (h : Course i principal input own) (hstart : AgentsKeyed start) (hown : ∀ step ∈ own, Fixed start step.before) :
    Announced own ↔ Steady own := by
  cases h with
  | mismatch =>
    refine iff_of_true (announced_of_quiet ?_ ?_ ?_) ?_ <;> intro step hstep <;> cases hstep
  | unheard read =>
    have honly : ∀ step ∈ ([⟨i, .heartbeat principal input, .select .agents, read⟩] : List PresenceStep),
        step.write = .select .agents := by
      intro step hstep
      rw [List.mem_singleton.mp hstep]
    refine iff_of_true (announced_of_quiet ?_ ?_ ?_) ?_
    · rintro step hstep agentId ⟨spaceId, hwrite⟩
      exact nomatch (honly step hstep).symm.trans hwrite
    · rintro step hstep ⟨row, hwrite, -⟩
      exact nomatch (honly step hstep).symm.trans hwrite
    · intro step hstep agentId
      refine not_bringsOnline ((hown step hstep).keyed hstart) ?_ agentId
      rw [honly step hstep]
      trivial
    · intro read' _ update hupdate principal' input' op _ _ hwrite
      exact nomatch (honly update hupdate).symm.trans hwrite
  | @vanished agent read update clock device hfound hnone =>
    -- No agent leaves.
    have hread := hown ⟨i, .heartbeat principal input, .select .agents, read⟩ (by simp [beatSteps])
    have hupdate := hown ⟨i, .heartbeat principal input,
      .agents (.update (·.id = agent.id) (beaten agent input clock.api.clock)), update⟩ (by simp [beatSteps])
    obtain ⟨b, hb, hid, -⟩ := hread.exists_agent hupdate (List.mem_of_find?_eq_some hfound)
    exact absurd ⟨b, hb, hid⟩ hnone
  | @orphaned agent read device clock update hfound hnone =>
    -- Nor does a device.
    have hdevice := hown ⟨i, .heartbeat principal input,
      .devices (.update (·.id = principal.deviceId) (seen input clock.api.clock)), device⟩ (by simp [beatSteps])
    have hread := hown ⟨i, .heartbeat principal input, .select .agents, read⟩ (by simp [beatSteps])
    obtain ⟨b, hb, -, hsame⟩ := hread.exists_agent hdevice (List.mem_of_find?_eq_some hfound)
    obtain ⟨d, hd, hid⟩ := (hdevice.keyed hstart).known b hb
    have hfrom : agent.deviceId = principal.deviceId := by simpa using List.find?_some hfound
    exact absurd ⟨d, hd, hid.trans (hsame.trans hfrom)⟩ hnone
  | @silent agent read clock update device hfound honline =>
    have hrest : ∀ step ∈ ([] : List PresenceStep), step.write.OffAgents ∧ step.write ≠ .select .agents := by
      simp
    refine announced_beat_iff hrest hown hstart hfound (fun agentId => ?_) ?_
    · simp [beatSteps, Publishes, honline]
    · simp [beatSteps, Audits, honline]
  | @told agent read clock update device live audit hfound hoff =>
    have hrest : ∀ step ∈ ([⟨i, .heartbeat principal input, .api (.audit (onlineRow principal agent)), audit⟩,
        ⟨i, .heartbeat principal input, .publishStatus agent.spaceId agent.id, live⟩] : List PresenceStep),
          step.write.OffAgents ∧ step.write ≠ .select .agents := by
      simp [Write.OffAgents]
    refine announced_beat_iff hrest hown hstart hfound (fun agentId => ?_) ?_
    · simp [beatSteps, Publishes, hoff, eq_comm]
    · simp [beatSteps, Audits, hoff, onlineRow]

/-- A call of the reaper announces nothing, and brings nothing online. -/
theorem announced_reap {given : Option Date} (h : Did (.reapStaleAgents given) i own) (hstart : AgentsKeyed start)
    (hown : ∀ step ∈ own, Fixed start step.before) : Announced own ∧ Steady own := by
  refine ⟨announced_of_quiet ?_ ?_ ?_, ?_⟩
  · rintro step hstep agentId ⟨spaceId, hwrite⟩
    rcases (h step hstep).2 with hclock | ⟨now, hreap⟩
    · exact nomatch hclock.symm.trans hwrite
    · exact nomatch hreap.symm.trans hwrite
  · rintro step hstep ⟨row, hwrite, -⟩
    rcases (h step hstep).2 with hclock | ⟨now, hreap⟩
    · exact nomatch hclock.symm.trans hwrite
    · exact nomatch hreap.symm.trans hwrite
  · intro step hstep agentId
    have hw := (hown step hstep).keyed hstart
    rcases (h step hstep).2 with hclock | ⟨now, hreap⟩
    · exact not_bringsOnline hw (hclock ▸ trivial) agentId
    · exact not_bringsOnline_reap hw hreap agentId
  · intro read _ update hupdate principal input op _ hrequest _
    exact nomatch (h update hupdate).1.symm.trans hrequest

/-! ## Runs -/

/-- **Stored presence** is the computed one after a reaping exactly if every agent that was heard of in time
stands as online; and a call that has come to an end has announced what it has brought online exactly if it is
steady. -/
theorem presence_iff (hstart : AgentsKeyed start) (moves : List (Move PresenceRequest Nat)) :
    (∀ step earlier now, step :: earlier <:+ (presenceRun start moves).log.history → Reaps step now →
      (Agree now (exec step.write step.before) ↔
        ∀ a ∈ step.before.agents, online a.lastHeartbeatAt now → Standing start a earlier)) ∧
      ∀ i q r, (presenceRun start moves).Ended i q r →
        (Announced ((presenceRun start moves).log.own i) ↔ Steady ((presenceRun start moves).log.own i)) := by
  constructor
  · rintro step earlier now hsuffix ⟨-, hwrite⟩
    have hstood := (stood_run hstart moves).2 step earlier hsuffix
    rw [hwrite, agree_reaped_iff]
    exact forall₂_congr fun a ha => imp_congr_right fun _ => hstood a ha
  · intro i q r hended
    obtain ⟨j, hdid⟩ := Concurrent.ended_run (K := fun q _ own => ∃ j, Did q j own)
      (fun j q => (traces_presenceHandler j q).mono fun _ _ hown => ⟨j, hown⟩) start moves hended
    have hown : ∀ step ∈ (presenceRun start moves).log.own i, Fixed start step.before := fun step hstep =>
      fixed_before start moves step (List.mem_filter.mp hstep).1
    cases q with
    | heartbeat principal input => exact Course.announced_iff hdid hstart hown
    | reapStaleAgents given =>
      obtain ⟨hannounced, hsteady⟩ := announced_reap hdid hstart hown
      exact iff_of_true hannounced hsteady

/-- The reaper, called at some moment of a run. -/
theorem history_reap {moves : List (Move PresenceRequest Nat)} {n : Nat}
    (hlength : (presenceRun start moves).threads.length = n) (now : Date) :
    (presenceRun start (moves ++ [.call (.reapStaleAgents (some now)), .step n])).log.history =
      ⟨n, .reapStaleAgents (some now), .agents (.update (stale now) AgentRow.gone),
        (presenceRun start moves).log.shared⟩ :: (presenceRun start moves).log.history := by
  have hafter : presenceRun start (moves ++ [.call (.reapStaleAgents (some now)), .step n]) =
      presenceMachine.step (.step n)
        (presenceMachine.step (.call (.reapStaleAgents (some now))) (presenceRun start moves)) := by
    rw [presenceRun, Run.run_append, Run.run_cons, Run.run_cons, Run.run_nil]
  rw [hafter]
  generalize presenceRun start moves = c at hlength ⊢
  have hthread : (c.threads ++ [⟨.reapStaleAgents (some now), presenceHandler (.reapStaleAgents (some now))⟩])[n]? =
      some ⟨.reapStaleAgents (some now), presenceHandler (.reapStaleAgents (some now))⟩ := by
    rw [← hlength, List.getElem?_concat_length]
  simp only [Machine.step, Config.advance, presenceMachine, hthread]
  rfl

/-! ## An agent that reports that it is unreachable -/

/-- A computer that was not heard of. -/
def asleep : World := { study with
  agents := [⟨"a1", "space", "d1", "offline", none, none, none, false, false⟩] }

/-- After a while the computer reports. -/
def reports (status : String) : List (Move PresenceRequest Nat) :=
  [.env 200000, .call (.heartbeat plainPrincipal { studyReport with status := status }),
    .step 0, .step 0, .step 0, .step 0, .step 0, .step 0]

theorem agentsKeyed_asleep : AgentsKeyed asleep := by
  refine ⟨by decide, by decide, fun a ha => ?_⟩
  obtain rfl := List.mem_singleton.mp ha
  exact ⟨_, List.mem_cons_self, rfl⟩

instance (now : Date) (w : World) : Decidable (Agree now w) :=
  inferInstanceAs (Decidable (∀ a ∈ w.agents, a.status = "online" ↔ online a.lastHeartbeatAt now))

/-- A computer that reports that it is online is stored as it is computed. -/
theorem presence_iff_online :
    Agree 200000 (exec (.agents (.update (stale 200000) AgentRow.gone))
      (presenceRun asleep (reports "online")).log.shared) := by
  have hlength : (presenceRun asleep (reports "online")).threads.length = 1 := by decide +kernel
  have honline : ∀ a ∈ (presenceRun asleep (reports "online")).log.shared.agents, a.status = "online" := by
    decide +kernel
  refine ((presence_iff agentsKeyed_asleep _).1 _ _ 200000 ⟨[], (history_reap hlength 200000).symm⟩
    ⟨⟨_, rfl⟩, rfl⟩).mpr fun a ha _ => ?_
  exact ((stood_run agentsKeyed_asleep (reports "online")).1 a ha).mp (honline a ha)

/-- One that reports that it is unreachable is announced, and is computed as online but not stored so. -/
theorem unreachable_disagrees :
    ¬ (∀ step earlier now, step :: earlier <:+ (presenceRun asleep (reports "unreachable" ++
        [.call (.reapStaleAgents (some 200000)), .step 1])).log.history → Reaps step now →
          Agree now (exec step.write step.before)) ∧
      (presenceRun asleep (reports "unreachable")).log.shared.statuses = [("space", "a1")] ∧
        ∀ a ∈ (presenceRun asleep (reports "unreachable")).log.shared.agents, a.status ≠ "online" := by
  refine ⟨fun hall => ?_, by decide +kernel, by decide +kernel⟩
  have hlength : (presenceRun asleep (reports "unreachable")).threads.length = 1 := by decide +kernel
  have hagree := hall _ _ 200000 ⟨[], (history_reap hlength 200000).symm⟩ ⟨⟨_, rfl⟩, rfl⟩
  exact absurd hagree (by decide +kernel)

end Account
