import NetlinkHub.Api.World

/-! # Permissions, audit and step-up codes

What the power and remote services share: the check that a member holds a permission, the audit record
of a refusal, and the consumption of a six-digit code. None of it touches a power command or a remote
session (`only_requirePermission`, `only_consume`). -/

namespace Api

open Concurrent (Prog)

/-! ## Audit -/

/-- `AuditService.record`. A failure to write is swallowed, so the call cannot raise. -/
def record (row : AuditRow) : Service Unit :=
  .perform (.audit row) fun _ => ()

@[simp] theorem record_bind {β : Type} (row : AuditRow) (f : Unit → Service β) :
    (record row >>= f) = .stmt (.audit row) fun _ => f () := rfl

/-! ## Permissions -/

/-- Why `evaluatePermission` refuses. -/
inductive Denial where
  | notGranted
  | principalSuspended
  | principalExpired
  deriving DecidableEq, Repr

/-- The text of a denial. -/
def Denial.text : Denial → String
  | notGranted => "not_granted"
  | principalSuspended => "principal_suspended"
  | principalExpired => "principal_expired"

/-- `evaluatePermission`. -/
def evaluatePermission (member : MemberRow) (permission : String) (now : Date) : Option Denial :=
  if member.suspended then some .principalSuspended
  else if member.expiresAt.any (· ≤ now) then some .principalExpired
  else if permission ∉ member.permissions then some .notGranted
  else none

/-- `describeDenial`. -/
def describeDenial (reason : Denial) (permission : String) : String :=
  match reason with
  | .principalSuspended => "Your access to this Space is paused."
  | .principalExpired => "Your access to this Space has expired."
  | .notGranted => "You do not have permission to do that (" ++ permission ++ ")."

/-- `spaceMember.findUnique` by Space and user. -/
def findMember (userId spaceId : String) (w : World) : Option MemberRow :=
  w.directory.members.find? fun m => m.spaceId = spaceId ∧ m.userId = userId

/-- `requirePermission`: the membership, which holds the permission. -/
def requirePermission (userId spaceId permission : String) (context : Option RequestContext) :
    Service MemberRow := do
  let membership ← select .members (findMember userId spaceId)
  match membership with
  | none => .raise (notFound "That Space was not found.")
  | some member => do
    let now ← newDate
    match evaluatePermission member permission now with
    | some reason => do
      record ⟨"permission.denied", "denied", some userId, none, none, some spaceId, context,
        [("permission", .text permission), ("reason", .text reason.text)]⟩
      .raise (forbidden (describeDenial reason permission))
    | none => .done member

/-- `requireOwner`. -/
def requireOwner (userId spaceId : String) (context : Option RequestContext) : Service Unit := do
  let space ← select .spaces fun w => w.directory.spaces.find? (·.id = spaceId)
  match space with
  | none => .raise (notFound "That Space was not found.")
  | some space =>
    if space.ownerId = userId then .done ()
    else do
      let membership ← select .members (findMember userId spaceId)
      match membership with
      | none => .raise (notFound "That Space was not found.")
      | some _ => do
        record ⟨"permission.denied", "denied", some userId, none, none, some spaceId, context,
          [("reason", .text "not_owner")]⟩
        .raise (forbidden "Only the owner of this Space can do that.")

/-! ## Agents -/

/-- `AGENT_OFFLINE_AFTER_SECONDS`. -/
def agentOfflineAfterSeconds : Int := 90

/-- `statusFromHeartbeat(...) === 'online'`. -/
def online (lastHeartbeatAt : Option Date) (now : Date) : Bool :=
  lastHeartbeatAt.any fun last => now - last ≤ agentOfflineAfterSeconds * 1000

/-- `agent.findUnique` by identifier. -/
def findAgent (id : String) (w : World) : Option AgentRow :=
  w.directory.agents.find? (·.id = id)

/-- `agent.findUnique` by device. -/
def findAgentByDevice (deviceId : String) (w : World) : Option AgentRow :=
  w.directory.agents.find? (·.deviceId = deviceId)

/-- The name of an agent's device. -/
def deviceName (agentId : String) (w : World) : String :=
  ((findAgent agentId w).map (·.deviceName)).getD ""

/-- The device that signed an agent request. -/
structure AgentPrincipal where
  userId : String
  deviceId : String
  deriving DecidableEq, Repr

/-! ## Step-up codes -/

/-- Why a code is refused. -/
inductive ConsumeFault where
  | notFound
  | expired
  | alreadyUsed
  | tooManyAttempts
  | invalidCode
  deriving DecidableEq, Repr

/-- `challenge.findUnique`. -/
def findChallenge (id : String) (w : World) : Option ChallengeRow :=
  w.challenges.find? (·.id = id)

/-- `challenge.update`: the row after the update. -/
def updateChallenge (id : String) (data : ChallengeRow → ChallengeRow) : Service ChallengeRow :=
  .stmt (.challenges (.update (·.id = id) data)) fun w => match findChallenge id w with
    | none => .raise databaseFault
    | some row => .done (data row)

/-- `consume`: the challenge that was used up. `hashSecret` is SHA-256. -/
def consume (hashSecret : String → String) (challengeId code purpose : String) :
    Service (Except ConsumeFault ChallengeRow) := do
  let challenge ← select .challenges (findChallenge challengeId)
  match challenge with
  | none => .done (.error .notFound)
  | some challenge =>
    if challenge.purpose ≠ purpose then .done (.error .notFound)
    else if challenge.consumedAt.isSome then .done (.error .alreadyUsed)
    else do
      let now ← newDate
      if challenge.expiresAt ≤ now then .done (.error .expired)
      else if challenge.attempts ≥ challenge.maxAttempts then .done (.error .tooManyAttempts)
      else if hashSecret code ≠ challenge.codeHash then do
        let updated ← updateChallenge challenge.id fun c => { c with attempts := c.attempts + 1 }
        if updated.maxAttempts - updated.attempts = 0 then do
          let burned ← newDate
          let _ ← updateChallenge challenge.id fun c => { c with consumedAt := some burned }
          .done (.error .invalidCode)
        else .done (.error .invalidCode)
      else do
        let used ← newDate
        let count ← Prog.perform (.challenges (.update
            (fun c => c.id = challenge.id ∧ c.consumedAt = none)
            fun c => { c with consumedAt := some used }))
          fun w => (w.challenges.filter fun c => c.id = challenge.id ∧ c.consumedAt = none).length
        if count = 0 then .done (.error .alreadyUsed) else .done (.ok challenge)

/-! ## What these programs may do -/

/-- The statement leaves power commands, remote sessions and signals as they are. -/
def Write.OnlyCodes : Write → Prop
  | .challenges _ => True
  | w => w.Quiet

theorem Write.Quiet.onlyCodes {w : Write} (h : w.Quiet) : w.OnlyCodes := by
  cases w <;> trivial

theorem only_requirePermission (userId spaceId permission : String)
    (context : Option RequestContext) :
    (requirePermission userId spaceId permission context).Only Write.Quiet := by
  unfold requirePermission
  simp only [select_bind, newDate_bind, record_bind]
  refine .stmt trivial fun w => ?_
  split
  · trivial
  · refine .stmt trivial fun w => ?_
    split
    · exact .stmt (quiet_audit (by simp)) fun _ => trivial
    · trivial

theorem only_requireOwner (userId spaceId : String) (context : Option RequestContext) :
    (requireOwner userId spaceId context).Only Write.Quiet := by
  unfold requireOwner
  simp only [select_bind, record_bind]
  refine .stmt trivial fun w => ?_
  split
  · trivial
  · split
    · trivial
    · refine .stmt trivial fun w => ?_
      split
      · trivial
      · exact .stmt (quiet_audit (by simp)) fun _ => trivial

theorem only_updateChallenge (id : String) (data : ChallengeRow → ChallengeRow) :
    (updateChallenge id data).Only Write.OnlyCodes := by
  refine .stmt trivial fun w => ?_
  split <;> trivial

theorem only_consume (hashSecret : String → String) (challengeId code purpose : String) :
    (consume hashSecret challengeId code purpose).Only Write.OnlyCodes := by
  unfold consume
  simp only [select_bind, newDate_bind, Prog.perform_bind]
  refine .stmt trivial fun w => ?_
  split
  · trivial
  split
  · trivial
  split
  · trivial
  refine .stmt trivial fun w => ?_
  split
  · trivial
  split
  · trivial
  split
  · -- A wrong code: the attempt is counted, and the last one burns the challenge.
    refine (only_updateChallenge _ _).bind fun updated => ?_
    split
    · refine .stmt trivial fun w => ?_
      exact (only_updateChallenge _ _).bind fun _ => trivial
    · trivial
  · refine .stmt trivial fun w => .stmt trivial fun w => ?_
    split <;> trivial

end Api
