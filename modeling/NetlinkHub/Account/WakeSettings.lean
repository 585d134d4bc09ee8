import NetlinkHub.Account.Nonces
import NetlinkHub.Account.Writes
import NetlinkHub.Concurrent.Trace

/-! # What the owner sets about a computer

The owner registers the address that a wake is aimed at, and chooses the Wake Helpers. Both are columns of
the agent's row, and every heartbeat writes them, too: `settings_survive_iff` says which heartbeats leave
what the owner has set. -/

namespace Account

open Api (Date HttpException RequestContext notFound)
open Concurrent (Config Decides Log Machine Move Prog Step)
open Table (Op)

/-! ## The calls -/

/-- What `/[^0-9A-Fa-f]/g` leaves. -/
def hexDigit (c : Char) : Bool := c.isDigit || ('A' ≤ c && c ≤ 'F') || ('a' ≤ c && c ≤ 'f')

/-- `match(/.{2}/g)`. -/
def pairs : List Char → List String
  | a :: b :: rest => String.ofList [a, b] :: pairs rest
  | _ => []

/-- An address as it is stored: capital digits in pairs, with colons between them. -/
def formatMac (macAddress : String) : String :=
  ":".intercalate (pairs ((macAddress.toList.filter hexDigit).map Char.toUpper))

example : formatMac "00-1a-2b-3c-4d-5e" = "00:1A:2B:3C:4D:5E" := by decide +kernel

/-- `agent.findUnique`, and that the agent is in the Space. -/
def requireAgent (spaceId agentId : String) : Service Unit := do
  let found ← select .agents fun w => w.agents.find? (·.id = agentId)
  match found with
  | none => .raise (notFound "That computer was not found in this Space.")
  | some agent =>
    if agent.spaceId ≠ spaceId then .raise (notFound "That computer was not found in this Space.") else .done ()

/-- The row of an agent with another choice. -/
def AgentRow.withHelper (isWakeHelper : Bool) (a : AgentRow) : AgentRow := { a with isWakeHelper := isWakeHelper }

/-- The row of an agent with another address. -/
def AgentRow.withMac (macAddress : String) (a : AgentRow) : AgentRow :=
  { a with macAddress := some macAddress, wakeOnLanReady := true }

/-- `setWakeHelper`: the agent and the choice. -/
def setWakeHelper (userId spaceId agentId : String) (isWakeHelper : Bool) (context : RequestContext) :
    Service (String × Bool) := do
  lift (Api.requireOwner userId spaceId (some context))
  requireAgent spaceId agentId
  updateAgent agentId (AgentRow.withHelper isWakeHelper)
  .done (agentId, isWakeHelper)

/-- `registerMac`: the agent and the address as it is stored. -/
def registerMac (userId spaceId agentId macAddress : String) (context : RequestContext) :
    Service (String × String) := do
  lift (Api.requireOwner userId spaceId (some context))
  requireAgent spaceId agentId
  updateAgent agentId (AgentRow.withMac (formatMac macAddress))
  .done (agentId, formatMac macAddress)

/-! ## Any number of calls -/

/-- The calls that write what can be set about a computer. -/
inductive SettingsRequest where
  | setWakeHelper (userId spaceId agentId : String) (isWakeHelper : Bool) (context : RequestContext)
  | registerMac (userId spaceId agentId macAddress : String) (context : RequestContext)
  | heartbeat (principal : AgentPrincipal) (input : AgentHeartbeatRequest)
  deriving DecidableEq, Repr

/-- What a call is answered. -/
inductive SettingsResponse where
  | helper (agentId : String) (isWakeHelper : Bool)
  | mac (agentId macAddress : String)
  | beat (r : AgentHeartbeatResponse)
  deriving DecidableEq, Repr

/-- What each call runs. -/
def settingsHandler : SettingsRequest → Service SettingsResponse
  | .setWakeHelper userId spaceId agentId isWakeHelper context =>
    (fun r => .helper r.1 r.2) <$> setWakeHelper userId spaceId agentId isWakeHelper context
  | .registerMac userId spaceId agentId macAddress context =>
    (fun r => .mac r.1 r.2) <$> registerMac userId spaceId agentId macAddress context
  | .heartbeat principal input => .beat <$> heartbeat principal input

/-- What happens between two statements. -/
inductive Elsewhere where
  /-- An agent is enrolled, perhaps again. -/
  | enroll (row : AgentRow) (now : Date)
  /-- Anything but the agents. -/
  | rest (w : World)

/-- The world after it. -/
def settingsElsewhere : Elsewhere → World → World
  | .enroll row now, w => exec (.upsertAgent row now) w
  | .rest w', w => { w' with agents := w.agents }

/-- Any number of calls, statement by statement. -/
def settingsMachine : Machine World Write HttpException SettingsRequest Elsewhere SettingsResponse :=
  ⟨settingsHandler, exec, settingsElsewhere⟩

/-- The control plane after a run of such calls. -/
abbrev settingsRun (w : World) (moves : List (Move SettingsRequest Elsewhere)) :
    Config World Write HttpException SettingsRequest SettingsResponse :=
  Run.run settingsMachine.step moves (Config.initial w)

/-- The log of such a run. -/
abbrev SettingsLog := Log World Write SettingsRequest

/-- A statement of such a run. -/
abbrev SettingsStep := Step World Write SettingsRequest

/-! ## What survives -/

/-- The address that the statement registers for an agent that is there. -/
def macSet (agentId : String) (step : SettingsStep) : Option String :=
  match step.request, step.write with
  | .registerMac _ _ id macAddress _, .agents _ =>
    if id = agentId ∧ step.before.agents.any (·.id = agentId) then some (formatMac macAddress) else none
  | _, _ => none

/-- The choice that the statement makes for an agent that is there. -/
def helperSet (agentId : String) (step : SettingsStep) : Option Bool :=
  match step.request, step.write with
  | .setWakeHelper _ _ id isWakeHelper _, .agents _ =>
    if id = agentId ∧ step.before.agents.any (·.id = agentId) then some isWakeHelper else none
  | _, _ => none

/-- The address that was registered last. -/
def registeredMac (agentId : String) (history : List SettingsStep) : Option String :=
  history.findSome? (macSet agentId)

/-- The choice that was made last. -/
def chosenHelper (agentId : String) (history : List SettingsStep) : Option Bool :=
  history.findSome? (helperSet agentId)

/-- The row of the agent has a property. -/
def AgentHas (w : World) (agentId : String) (R : AgentRow → Prop) : Prop :=
  ∃ a, w.agents.find? (·.id = agentId) = some a ∧ R a

/-- Each agent has the address and the readiness that were registered last, and the choice that was made
last. -/
structure Survive (σ : SettingsLog) : Prop where
  mac : ∀ agentId mac, registeredMac agentId σ.history = some mac →
    AgentHas σ.shared agentId fun a => a.macAddress = some mac ∧ a.wakeOnLanReady = true
  helper : ∀ agentId choice, chosenHelper agentId σ.history = some choice →
    AgentHas σ.shared agentId fun a => a.isWakeHelper = choice

/-- The heartbeat, of an agent as it has read it, says what the owner has set: the address that it reports,
or had read if it reports none, was registered last, with readiness; and it reports the last choice. -/
structure Agrees (agent : AgentRow) (input : AgentHeartbeatRequest) (earlier : List SettingsStep) : Prop where
  mac : ∀ mac, registeredMac agent.id earlier = some mac →
    (input.macAddress <|> agent.macAddress) = some mac ∧ input.wakeOnLanReady = true
  helper : ∀ choice, chosenHelper agent.id earlier = some choice → input.isWakeHelper = choice

/-- A statement by which a heartbeat writes its report agrees with the owner. -/
def HeartbeatAgrees (step : SettingsStep) (earlier : List SettingsStep) : Prop :=
  ∀ principal input, step.request = .heartbeat principal input → ∀ agent now,
    step.write = .agents (.update (·.id = agent.id) (beaten agent input now)) → Agrees agent input earlier

/-! ## What each call may do to the agents -/

/-- What a call may do to the agents. -/
def SettingsWrite : SettingsRequest → Write → Prop
  | .setWakeHelper _ _ agentId isWakeHelper _, .agents op =>
    op = .update (·.id = agentId) (AgentRow.withHelper isWakeHelper)
  | .registerMac _ _ agentId macAddress _, .agents op =>
    op = .update (·.id = agentId) (AgentRow.withMac (formatMac macAddress))
  | .heartbeat _ input, .agents op =>
    ∃ agent now, op = .update (·.id = agent.id) (beaten agent input now)
  | _, .upsertAgent .. => False
  | _, _ => True

/-- The statement leaves the agents as they are. -/
def Write.OffAgents : Write → Prop
  | .agents _ => False
  | .upsertAgent .. => False
  | _ => True

theorem Write.OffAgents.settings {w : Write} (h : w.OffAgents) (q : SettingsRequest) : SettingsWrite q w := by
  cases w with
  | agents op => exact h.elim
  | upsertAgent row now => exact h.elim
  | _ => cases q <;> trivial

theorem Write.OffAgents.agents {w : Write} (h : w.OffAgents) (s : World) : (exec w s).agents = s.agents := by
  cases w with
  | agents op => exact h.elim
  | upsertAgent row now => exact h.elim
  | createNonce row =>
    simp only [exec]
    split <;> rfl
  | _ => rfl

theorem offAgents_owned (userId spaceId agentId : String) (context : RequestContext) :
    (lift (Api.requireOwner userId spaceId (some context)) >>= fun _ => requireAgent spaceId agentId).Only
      Write.OffAgents := by
  have howner : (lift (Api.requireOwner userId spaceId (some context))).Only Write.OffAgents :=
    Prog.Only.lift (Api.only_requireOwner ..) fun _ _ => trivial
  refine howner.bind fun _ => ?_
  unfold requireAgent
  rw [select_bind]
  refine .stmt trivial fun w => ?_
  split
  · trivial
  · split <;> trivial

variable {q : SettingsRequest} {R : Write → Prop}

theorem only_updateAgent {id : String} {data : AgentRow → AgentRow} (h : R (.agents (.update (·.id = id) data))) :
    (updateAgent id data).Only R := by
  refine .stmt h fun w => ?_
  split <;> trivial

/-- **What a call may do to the agents.** -/
theorem only_settingsHandler (q : SettingsRequest) : (settingsHandler q).Only (SettingsWrite q) := by
  cases q with
  | setWakeHelper userId spaceId agentId isWakeHelper context =>
    refine Prog.Only.map ?_ _
    unfold setWakeHelper
    rw [← Prog.bind_assoc]
    refine ((offAgents_owned ..).mono fun w hw => hw.settings _).bind fun _ => ?_
    exact (only_updateAgent (R := SettingsWrite (.setWakeHelper ..)) rfl).bind fun _ => trivial
  | registerMac userId spaceId agentId macAddress context =>
    refine Prog.Only.map ?_ _
    unfold registerMac
    rw [← Prog.bind_assoc]
    refine ((offAgents_owned ..).mono fun w hw => hw.settings _).bind fun _ => ?_
    exact (only_updateAgent (R := SettingsWrite (.registerMac ..)) rfl).bind fun _ => trivial
  | heartbeat principal input =>
    refine Prog.Only.map ?_ _
    unfold heartbeat
    split
    · trivial
    rw [select_bind]
    refine .stmt trivial fun w => ?_
    split
    · trivial
    · trivial
    rename_i agent _
    rw [newDate_bind]
    refine .stmt trivial fun w => (only_updateAgent ⟨agent, _, rfl⟩).bind fun _ => ?_
    refine Prog.Only.bind (.stmt trivial fun w => ?_) fun _ => ?_
    · split <;> trivial
    refine Prog.Only.bind ?_ fun _ => trivial
    unfold recordOnline
    split
    · trivial
    · exact .stmt trivial fun _ => .stmt trivial fun _ => trivial

/-! ## One statement -/

/-- What a statement makes of the row of an agent. -/
def Write.onAgent : Write → AgentRow → AgentRow
  | .agents (.update sel data), a => if sel a then data a else a
  | _, a => a

theorem SettingsWrite.find {w : Write} (h : SettingsWrite q w) {s : World} {agentId : String} {a : AgentRow}
    (ha : s.agents.find? (·.id = agentId) = some a) :
    (exec w s).agents.find? (·.id = agentId) = some (w.onAgent a) := by
  -- Every statement that is not about the agents leaves the row; the others are updates that keep its key.
  by_cases hw : w.OffAgents
  · rw [hw.agents, ha]
    cases w with
    | agents op => exact hw.elim
    | _ => rfl
  · obtain ⟨sel, data, rfl, hdata⟩ : ∃ sel data, w = .agents (.update sel data) ∧
        ∀ a, AgentRow.id (data a) = a.id := by
      cases w with
      | agents op =>
        cases q with
        | setWakeHelper userId spaceId id isWakeHelper context => exact ⟨_, _, congrArg _ h, fun _ => rfl⟩
        | registerMac userId spaceId id macAddress context => exact ⟨_, _, congrArg _ h, fun _ => rfl⟩
        | heartbeat principal input =>
          obtain ⟨agent, now, rfl⟩ := h
          exact ⟨_, _, rfl, fun _ => rfl⟩
      | upsertAgent row now => cases q <;> exact h.elim
      | _ => exact absurd trivial hw
    show ((Op.update sel data).apply s.agents).find? (·.id = agentId) = _
    rw [Table.find?_update hdata, ha]
    rfl

/-- What is known of what was set last is still so after a statement, if it is of what the statement sets,
and the statement leaves what was set before. -/
theorem agentHas_perform {V : Type} {sets : String → SettingsStep → Option V} {shows : V → AgentRow → Prop}
    {σ : SettingsLog} {i : Nat} {w : Write}
    (h : ∀ agentId v, σ.history.findSome? (sets agentId) = some v → AgentHas σ.shared agentId (shows v))
    (hw : SettingsWrite q w)
    (hset : ∀ agentId v, sets agentId ⟨i, q, w, σ.shared⟩ = some v →
      AgentHas σ.shared agentId fun a => shows v (w.onAgent a))
    (hkeep : ∀ agentId v a, sets agentId ⟨i, q, w, σ.shared⟩ = none →
      σ.history.findSome? (sets agentId) = some v → σ.shared.agents.find? (·.id = agentId) = some a →
        shows v a → shows v (w.onAgent a)) :
    ∀ agentId v, (σ.perform exec i q w).history.findSome? (sets agentId) = some v →
      AgentHas (σ.perform exec i q w).shared agentId (shows v) := by
  intro agentId v hlast
  rw [show (σ.perform exec i q w).history = ⟨i, q, w, σ.shared⟩ :: σ.history from rfl,
    List.findSome?_cons] at hlast
  cases hnow : sets agentId ⟨i, q, w, σ.shared⟩ with
  | some v' =>
    -- This statement is the last one to set it.
    rw [hnow] at hlast
    obtain rfl := Option.some.inj hlast
    obtain ⟨a, ha, hshows⟩ := hset agentId v' hnow
    exact ⟨_, hw.find ha, hshows⟩
  | none =>
    rw [hnow] at hlast
    obtain ⟨a, ha, hshows⟩ := h agentId v hlast
    exact ⟨_, hw.find ha, hkeep agentId v a hnow hlast ha hshows⟩

theorem id_of_find {s : World} {agentId : String} {a : AgentRow}
    (h : s.agents.find? (·.id = agentId) = some a) : a.id = agentId := by
  have hsel := List.find?_some h
  exact of_decide_eq_true hsel

theorem any_iff_find {s : World} {agentId : String} :
    s.agents.any (·.id = agentId) ↔ ∃ a, s.agents.find? (·.id = agentId) = some a := by
  rw [← Option.isSome_iff_exists, List.find?_isSome, List.any_eq_true]

/-- A statement that touches neither the address nor the choice. -/
theorem Survive.perform_of_offAgents {σ : SettingsLog} (h : Survive σ) {i : Nat} {w : Write}
    (hw : w.OffAgents) : Survive (σ.perform exec i q w) := by
  have hrow : ∀ a, w.onAgent a = a := by
    intro a
    cases w with
    | agents op => exact hw.elim
    | _ => rfl
  have hmac : ∀ agentId, macSet agentId ⟨i, q, w, σ.shared⟩ = none := by
    intro agentId
    cases w with
    | agents op => exact hw.elim
    | _ => cases q <;> rfl
  have hhelper : ∀ agentId, helperSet agentId ⟨i, q, w, σ.shared⟩ = none := by
    intro agentId
    cases w with
    | agents op => exact hw.elim
    | _ => cases q <;> rfl
  refine ⟨agentHas_perform h.mac (hw.settings q) (fun agentId v hset => ?_) fun _ v a _ _ _ hshows => ?_,
    agentHas_perform h.helper (hw.settings q) (fun agentId v hset => ?_) fun _ v a _ _ _ hshows => ?_⟩
  · rw [hmac] at hset
    cases hset
  · rw [hrow]
    exact hshows
  · rw [hhelper] at hset
    cases hset
  · rw [hrow]
    exact hshows

/-- What the owner sets is there, and the rest stays. -/
theorem Survive.perform_owner {σ : SettingsLog} (h : Survive σ) {i : Nat} {op : Op AgentRow}
    (hw : SettingsWrite q (.agents op)) (hq : ∀ principal input, q ≠ .heartbeat principal input) :
    Survive (σ.perform exec i q (.agents op)) := by
  cases q with
  | setWakeHelper userId spaceId id isWakeHelper context =>
    have hop : op = .update (·.id = id) (AgentRow.withHelper isWakeHelper) := hw
    subst hop
    refine ⟨agentHas_perform h.mac hw (fun agentId v hset => nomatch hset) fun agentId v a _ _ _ hshows => ?_,
      agentHas_perform h.helper hw (fun agentId v hset => ?_) fun agentId v a hset _ ha hshows => ?_⟩
    -- The choice has no part in the address, and is set for one agent only.
    · simpa only [Write.onAgent, apply_ite AgentRow.macAddress, apply_ite AgentRow.wakeOnLanReady,
        AgentRow.withHelper, ite_self] using hshows
    · obtain ⟨⟨rfl, hany⟩, hv⟩ := Option.ite_none_right_eq_some.mp hset
      obtain rfl := Option.some.inj hv
      obtain ⟨a, ha⟩ := any_iff_find.mp hany
      refine ⟨a, ha, ?_⟩
      simp [Write.onAgent, id_of_find ha, AgentRow.withHelper]
    · have hid : id ≠ agentId := fun hid => by
        simp [helperSet, hid, any_iff_find.mpr ⟨a, ha⟩] at hset
      simpa [Write.onAgent, id_of_find ha, hid.symm] using hshows
  | registerMac userId spaceId id macAddress context =>
    have hop : op = .update (·.id = id) (AgentRow.withMac (formatMac macAddress)) := hw
    subst hop
    refine ⟨agentHas_perform h.mac hw (fun agentId v hset => ?_) fun agentId v a hset _ ha hshows => ?_,
      agentHas_perform h.helper hw (fun agentId v hset => nomatch hset) fun agentId v a _ _ _ hshows => ?_⟩
    · obtain ⟨⟨rfl, hany⟩, hv⟩ := Option.ite_none_right_eq_some.mp hset
      obtain rfl := Option.some.inj hv
      obtain ⟨a, ha⟩ := any_iff_find.mp hany
      refine ⟨a, ha, ?_⟩
      simp [Write.onAgent, id_of_find ha, AgentRow.withMac]
    · have hid : id ≠ agentId := fun hid => by
        simp [macSet, hid, any_iff_find.mpr ⟨a, ha⟩] at hset
      simpa [Write.onAgent, id_of_find ha, hid.symm] using hshows
    · simpa only [Write.onAgent, apply_ite AgentRow.isWakeHelper, AgentRow.withMac, ite_self] using hshows
  | heartbeat principal input => exact absurd rfl (hq principal input)

/-- **A heartbeat** leaves what the owner has set exactly if it agrees. -/
theorem Survive.perform_heartbeat_iff {σ : SettingsLog} (h : Survive σ) {i : Nat} {principal : AgentPrincipal}
    {input : AgentHeartbeatRequest} {agent : AgentRow} {now : Date} :
    Survive (σ.perform exec i (.heartbeat principal input)
      (.agents (.update (·.id = agent.id) (beaten agent input now)))) ↔ Agrees agent input σ.history := by
  have hw : SettingsWrite (.heartbeat principal input)
      (.agents (.update (·.id = agent.id) (beaten agent input now))) := ⟨agent, now, rfl⟩
  have hbeaten : ∀ {a : AgentRow}, σ.shared.agents.find? (·.id = agent.id) = some a →
      Write.onAgent (.agents (.update (·.id = agent.id) (beaten agent input now))) a = beaten agent input now a := by
    intro a ha
    simp [Write.onAgent, id_of_find ha]
  constructor
  -- A heartbeat sets nothing, so what was set last is the same afterwards, and the row is what it has sent.
  · intro hafter
    refine ⟨fun mac hlast => ?_, fun choice hlast => ?_⟩
    · obtain ⟨a, ha, -⟩ := h.mac agent.id mac hlast
      obtain ⟨a', ha', hshows⟩ := hafter.mac agent.id mac hlast
      obtain rfl := Option.some.inj (ha'.symm.trans (hw.find ha))
      rw [hbeaten ha] at hshows
      exact hshows
    · obtain ⟨a, ha, -⟩ := h.helper agent.id choice hlast
      obtain ⟨a', ha', hshows⟩ := hafter.helper agent.id choice hlast
      obtain rfl := Option.some.inj (ha'.symm.trans (hw.find ha))
      rw [hbeaten ha] at hshows
      exact hshows
  · intro hagrees
    refine ⟨agentHas_perform h.mac hw (fun _ _ hset => nomatch hset) fun agentId mac a _ hlast ha hshows => ?_,
      agentHas_perform h.helper hw (fun _ _ hset => nomatch hset) fun agentId choice a _ hlast ha hshows => ?_⟩
    · by_cases hid : agentId = agent.id
      · subst hid
        rw [hbeaten ha]
        exact hagrees.mac mac hlast
      · simpa [Write.onAgent, id_of_find ha, hid] using hshows
    · by_cases hid : agentId = agent.id
      · subst hid
        rw [hbeaten ha]
        exact hagrees.helper choice hlast
      · simpa [Write.onAgent, id_of_find ha, hid] using hshows

/-! ## Runs -/

/-- Anything else leaves what the owner has set. -/
theorem Survive.elsewhere {σ : SettingsLog} (h : Survive σ) (e : Elsewhere) :
    Survive (σ.change (settingsElsewhere e)) := by
  have hrow : ∀ agentId a, σ.shared.agents.find? (·.id = agentId) = some a →
      ∃ a', (settingsElsewhere e σ.shared).agents.find? (·.id = agentId) = some a' ∧
        a'.macAddress = a.macAddress ∧ a'.wakeOnLanReady = a.wakeOnLanReady ∧ a'.isWakeHelper = a.isWakeHelper := by
    intro agentId a ha
    cases e with
    | rest w => exact ⟨a, ha, rfl, rfl, rfl⟩
    | enroll row now =>
      -- An agent that is enrolled again keeps what was set for it.
      simp only [settingsElsewhere, exec]
      split
      · rw [Table.find?_update fun a => show AgentRow.id { a with
          spaceId := row.spaceId, status := row.status, lastHeartbeatAt := some now } = a.id from rfl, ha,
          Option.map_some]
        refine ⟨_, rfl, ?_⟩
        split <;> exact ⟨rfl, rfl, rfl⟩
      · exact ⟨a, by rw [List.find?_append, ha, Option.some_or], rfl, rfl, rfl⟩
  refine ⟨fun agentId mac hlast => ?_, fun agentId choice hlast => ?_⟩
  · obtain ⟨a, ha, hmac, hready⟩ := h.mac agentId mac hlast
    obtain ⟨a', ha', hmac', hready', -⟩ := hrow agentId a ha
    exact ⟨a', ha', hmac'.trans hmac, hready'.trans hready⟩
  · obtain ⟨a, ha, hchoice⟩ := h.helper agentId choice hlast
    obtain ⟨a', ha', -, -, hchoice'⟩ := hrow agentId a ha
    exact ⟨a', ha', hchoice'.trans hchoice⟩

/-- **What decides whether settings survive** is whether heartbeats agree. -/
theorem decides_survive : Decides settingsMachine (fun step => SettingsWrite step.request step.write) Survive
    HeartbeatAgrees where
  step i q w σ hw hσ := by
    by_cases hbeat : ∃ principal input agent now, q = .heartbeat principal input ∧
        w = .agents (.update (·.id = agent.id) (beaten agent input now))
    · obtain ⟨principal, input, agent, now, rfl, rfl⟩ := hbeat
      refine hσ.perform_heartbeat_iff.trans ⟨?_, fun hagrees => hagrees principal input rfl agent now rfl⟩
      rintro hagrees _ _ ⟨⟩ agent' now' hwrite
      -- The statement says which agent it is, and what was read of the address.
      obtain ⟨hsel, hdata⟩ := Op.update.inj (Write.agents.inj hwrite)
      have hid : agent.id = agent'.id := by simpa using congrFun hsel agent
      have hmac := congrArg AgentRow.macAddress (congrFun hdata agent)
      refine ⟨fun mac hlast => ?_, fun choice hlast => hagrees.helper choice (hid ▸ hlast)⟩
      obtain ⟨hread, hready⟩ := hagrees.mac mac (hid ▸ hlast)
      exact ⟨hmac.symm.trans hread, hready⟩
    · -- Only the statement with which a heartbeat reports can take anything away.
      refine iff_of_true ?_ fun principal input hq agent now hwrite =>
        absurd ⟨principal, input, agent, now, hq, hwrite⟩ hbeat
      cases w with
      | agents op =>
        refine hσ.perform_owner hw fun principal input hq => ?_
        obtain rfl := hq
        obtain ⟨agent, now, rfl⟩ := hw
        exact hbeat ⟨principal, input, agent, now, rfl, rfl⟩
      | upsertAgent row now => cases q <;> exact hw.elim
      | _ => exact hσ.perform_of_offAgents trivial
  env e _ hσ := hσ.elsewhere e

theorem settingsWrite_run (w : World) (moves : List (Move SettingsRequest Elsewhere)) :
    ∀ step ∈ (settingsRun w moves).log.history, SettingsWrite step.request step.write :=
  Concurrent.only_run only_settingsHandler w moves

/-- **What the owner has set survives** at every moment of a run exactly when each heartbeat that writes its
report agrees with what was set last. -/
theorem settings_survive_iff (w : World) (moves : List (Move SettingsRequest Elsewhere)) :
    (∀ before after, moves = before ++ after → Survive (settingsRun w before).log) ↔
      ∀ step earlier, step :: earlier <:+ (settingsRun w moves).log.history → HeartbeatAgrees step earlier :=
  decides_survive.forall_reached_iff ⟨fun _ _ h => (nomatch h), fun _ _ h => (nomatch h)⟩ moves
    (settingsWrite_run w moves)

/-! ## A heartbeat that does not agree -/

/-- A Space with one computer. -/
def study : World := { plainWorld with
  api := { plainWorld.api with
    directory := { plainWorld.api.directory with
      spaces := [⟨"space", "u1"⟩] } }
  agents := [⟨"a1", "space", "d1", "online", none, none, none, false, false⟩] }

/-- What the computer reports. -/
def studyReport : AgentHeartbeatRequest where
  deviceId := "d1"
  status := "online"
  localIpAddress := none
  macAddress := some "02:00:00:00:00:01"
  wakeOnLanReady := false
  isWakeHelper := false
  appVersion := none

/-- The owner registers the address, and then the computer reports another one. -/
def registeredThenBeaten : List (Move SettingsRequest Elsewhere) :=
  [.call (.registerMac "u1" "space" "a1" "00-1a-2b-3c-4d-5e" ⟨none, none, none⟩), .step 0, .step 0, .step 0,
    .call (.heartbeat plainPrincipal studyReport), .step 1, .step 1, .step 1]

/-- The address that the owner has registered is gone after the next heartbeat. -/
theorem settings_lost : ¬ ∀ before after, registeredThenBeaten = before ++ after →
    Survive (settingsRun study before).log := by
  intro hall
  have hregistered : registeredMac "a1" (settingsRun study registeredThenBeaten).log.history =
      some "00:1A:2B:3C:4D:5E" := by decide +kernel
  obtain ⟨a, ha, hmac, -⟩ := (hall registeredThenBeaten [] rfl).mac "a1" _ hregistered
  have hrow : ((settingsRun study registeredThenBeaten).log.shared.agents.find? (·.id = "a1")).map
      (·.macAddress) = some (some "02:00:00:00:00:01") := by decide +kernel
  rw [ha, Option.map_some, hmac] at hrow
  exact absurd hrow (by decide)

end Account
