import NetlinkHub.Sharing.Service

/-! # Allocations and their usage

The second half of `data.service.ts`: what an owner does to the allocation and the access of a member,
and `refreshUsage`, which folds what the provider reports into the counters of an allocation. -/

namespace Sharing

open Api (Date HttpException RequestContext Token badRequest forbidden notFound)
open Concurrent (Prog)
open Table (Op)

variable {P : Type}

/-! ## Usage -/

/-- `dataAllocation.findUnique`. -/
def findAllocation (id : String) (w : World P) : Option AllocationRow :=
  w.allocations.find? (·.id = id)

/-- `dataAllocation.update`: the row after it. -/
def updateAllocationRow (id : String) (data : AllocationRow → AllocationRow) : Service P AllocationRow :=
  .stmt (.updateAllocation id data) fun w => match findAllocation id w with
    | none => .raise Api.databaseFault
    | some a => .done (touch w.clock data a)

/-- `dataUsageEvent.create`, and whether it was created. -/
def createUsageEvent (row : UsageEventRow) : Service P Bool :=
  Prog.perform (.createUsageEvent row) fun w => ¬ w.usageEvents.any row.Clashes

/-- What has been used, altogether and on one day. -/
structure Usage where
  total : Nat
  today : Nat
  deriving DecidableEq, Repr

/-- The event was counted. -/
def Usage.add (C : Calendar) (today : Date) (event : ProviderUsageEvent) (u : Usage) : Usage :=
  ⟨u.total + event.bytes,
    if C.startOfDay event.occurredAt = today then u.today + event.bytes else u.today⟩

/-- A usage event as it is stored. -/
def ProviderUsageEvent.row (allocationId : String) (event : ProviderUsageEvent) : UsageEventRow :=
  ⟨allocationId, event.bytes, event.sessionSeconds, event.providerRef, event.occurredAt⟩

/-- The loop of `refreshUsage`: events that are stored already are not counted again. -/
def storeEvents (C : Calendar) (allocationId : String) (today : Date) :
    List ProviderUsageEvent → Usage → Service P Usage
  | [], used => .done used
  | event :: rest, used => do
    let created ← createUsageEvent (event.row allocationId)
    storeEvents C allocationId today rest (if created then used.add C today event else used)

/-- The counted day is not the day any more. -/
def AllocationRow.DayChanged (C : Calendar) (today : Date) (a : AllocationRow) : Prop :=
  a.usageDay.all fun day => C.startOfDay day ≠ today

instance (C : Calendar) (today : Date) : DecidablePred (AllocationRow.DayChanged C today) := fun a =>
  inferInstanceAs (Decidable (a.usageDay.all _ = true))

/-- What is counted before the provider is asked. -/
def AllocationRow.counted (C : Calendar) (today : Date) (a : AllocationRow) : Usage :=
  ⟨a.usedBytes, if a.DayChanged C today then 0 else a.usedTodayBytes⟩

/-- Only an active allocation makes `refreshUsage` ask the provider. -/
def pullUsage (D : Deployment P) (allocationId : String) (allocation : AllocationRow) (today : Date) :
    Service P Usage :=
  if allocation.status = .active then do
    let events ← ask (.getUsage allocationId allocation.updatedAt)
      (D.provider.getUsage allocationId allocation.updatedAt)
    storeEvents D.calendar allocationId today events (allocation.counted D.calendar today)
  else .done (allocation.counted D.calendar today)

/-- A limit is reached. -/
def AllocationRow.Reached (used : Usage) (a : AllocationRow) : Prop :=
  used.total ≥ a.totalBytes ∨ a.dailyBytes.any fun limit => used.today ≥ limit

instance (used : Usage) : DecidablePred (AllocationRow.Reached used) := fun _ =>
  inferInstanceAs (Decidable (_ ∨ _))

/-- The counters of an allocation are set. -/
def AllocationRow.withUsage (used : Usage) (today : Date) (a : AllocationRow) : AllocationRow :=
  { a with usedBytes := used.total, usedTodayBytes := used.today, usageDay := some today }

/-- An allocation after it was paused. -/
def AllocationRow.pausedAtDate (now : Date) (a : AllocationRow) : AllocationRow :=
  { a with status := .paused, pausedAt := some now }

/-- What the update at the end of `refreshUsage` sets. -/
def totalsOf (allocation : AllocationRow) (used : Usage) (today : Date) :
    Service P (AllocationRow → AllocationRow) :=
  if allocation.Reached used then do
    let now ← newDate
    .done fun a => (a.withUsage used today).pausedAtDate now
  else .done fun a => a.withUsage used today

/-- The update at the end of `refreshUsage`: the row after it. -/
def updateTotals (id : String) (data : AllocationRow → AllocationRow) : Service P AllocationRow :=
  .stmt (.updateTotals id data) fun w =>
    if w.refusesTotals then .raise Api.databaseFault
    else match findAllocation id w with
      | none => .raise Api.databaseFault
      | some a => .done (touch w.clock data a)

/-- The end of `refreshUsage`, once the usage is known. -/
def saveUsage (allocationId : String) (allocation : AllocationRow) (used : Usage) (today : Date) :
    Service P AllocationRow := do
  let data ← totalsOf allocation used today
  let updated ← updateTotals allocationId data
  Prog.perform (.publish ⟨allocation.spaceId, allocation.memberId, used.total⟩) fun _ => ()
  .done updated

/-- An allocation after it has expired. -/
def AllocationRow.lapsed (a : AllocationRow) : AllocationRow := { a with status := .expired }

/-- `refreshUsage`. -/
def refreshUsage (D : Deployment P) (allocationId : String) : Service P AllocationRow := do
  let found ← select .allocations (findAllocation allocationId)
  match found with
  | none => .raise Api.databaseFault
  | some allocation =>
    if allocation.status = .revoked then .done allocation
    else do
      let now ← dateNow
      if allocation.expiresAt ≤ now ∧ allocation.status ≠ .expired then
        updateAllocationRow allocationId AllocationRow.lapsed
      else do
        let now ← newDate
        let today := D.calendar.startOfDay now
        let used ← pullUsage D allocationId allocation today
        saveUsage allocationId allocation used today

/-- `spaceMember.findUnique` by Space and user. -/
def findMember (user : Token) (spaceId : String) (w : World P) : Option MemberRow :=
  w.members.find? (·.Of user spaceId)

/-- The allocation of a member. -/
def allocationFor (memberId : String) (w : World P) : Option AllocationRow :=
  w.allocations.find? (·.memberId = memberId)

/-- The name of a Space. -/
def spaceName (spaceId : String) (w : World P) : String :=
  ((w.spaces.find? (·.id = spaceId)).map (·.name)).getD ""

/-- `myAllocation`. -/
def myAllocation (D : Deployment P) (user : Token) (spaceId : String) : Service P MyAllocation := do
  requirePermission user spaceId "data.use" none
  let found ← select .members fun w => (findMember user spaceId w).bind fun m =>
    (allocationFor m.id w).map fun a => (a, spaceName spaceId w)
  match found with
  | none => .raise (notFound "You do not have a data allocation in this Space.")
  | some (allocation, name) => do
    let allocation ← refreshUsage D allocation.id
    .done
      { spaceId := spaceId
        spaceName := name
        status := allocation.status
        allocatedBytes := allocation.totalBytes
        usedBytes := allocation.usedBytes
        remainingBytes := remainingBytes allocation.totalBytes allocation.usedBytes
        dailyLimitBytes := allocation.dailyBytes
        usedTodayBytes := allocation.usedTodayBytes
        expiresAt := Api.toISOString allocation.expiresAt
        connected := allocation.status = .active }

/-- A member as `memberAccess` reads it: with its name, email, device and allocation. -/
structure MemberView where
  row : MemberRow
  name : String
  email : String
  deviceName : Option String
  allocation : Option AllocationRow
  deriving DecidableEq, Repr

/-- A member as it is read. -/
def memberView (w : World P) (m : MemberRow) : MemberView :=
  let user := w.account.users.find? (·.id = m.user.text)
  { row := m
    name := (user.map (·.name)).getD ""
    email := (user.map (·.email)).getD ""
    deviceName := (w.account.devices.find? fun d => d.userId = m.user.text ∧ d.revokedAt = none).map (·.name)
    allocation := allocationFor m.id w }

/-- The allocation of a row of the Member Access page. -/
def AllocationRow.access (a : AllocationRow) : AllocationAccess :=
  ⟨a.status, a.totalBytes, a.usedBytes, a.usedTodayBytes, remainingBytes a.totalBytes a.usedBytes,
    a.dailyBytes, Api.toISOString a.expiresAt⟩

/-- A row of the Member Access page. -/
def MemberView.access (m : MemberView) (allocation : Option AllocationRow) : MemberAccessRow :=
  { memberId := m.row.id
    userId := m.row.user.text
    name := m.name
    email := m.email
    role := m.row.role
    permissions := m.row.permissions
    suspended := m.row.suspended
    expiresAt := m.row.expiresAt.map Api.toISOString
    connected := match allocation with
      | some a => a.status = .active
      | none => m.deviceName.isSome
    approvedDeviceName := m.deviceName
    allocation := allocation.map (·.access) }

/-- The allocation of a member, refreshed if there is one. -/
def refreshFor (D : Deployment P) : Option AllocationRow → Service P (Option AllocationRow)
  | none => .done none
  | some a => some <$> refreshUsage D a.id

/-- The loop of `memberAccess`. -/
def accessRows (D : Deployment P) : List MemberView → Service P (List MemberAccessRow)
  | [] => .done []
  | m :: rest => do
    let allocation ← refreshFor D m.allocation
    let rows ← accessRows D rest
    .done (m.access allocation :: rows)

/-- `memberAccess`. -/
def memberAccess (D : Deployment P) (user : Token) (spaceId : String) :
    Service P (List MemberAccessRow) := do
  requirePermission user spaceId "members.manage" none
  let members ← select .members fun w =>
    (List.insertionSort (fun m n => m.createdAt ≤ n.createdAt)
      (w.members.filter (·.spaceId = spaceId))).map (memberView w)
  accessRows D members

/-! ## What an owner does -/

/-- `requireAllocation`. -/
def requireAllocation (spaceId memberId : String) : Service P AllocationRow := do
  let allocation ← select .allocations (allocationFor memberId)
  match allocation with
  | none => .raise (notFound "That member has no data allocation.")
  | some allocation =>
    if allocation.spaceId ≠ spaceId then .raise (notFound "That member has no data allocation.")
    else .done allocation

/-- An allocation after it was paused or resumed. -/
def AllocationRow.setPaused (paused : Bool) (pausedAt : Option Date) (a : AllocationRow) : AllocationRow :=
  { a with status := if paused then .paused else .active, pausedAt := pausedAt }

/-- `paused ? new Date() : null`. -/
def pausedSince (paused : Bool) : Service P (Option Date) :=
  if paused then some <$> newDate else .done none

/-- `pauseAllocation`: the status that it answers. -/
def pauseAllocation (user : Token) (spaceId memberId : String) (paused : Bool) (context : RequestContext) :
    Service P AllocationStatus := do
  requirePermission user spaceId "data.manage" (some context)
  let allocation ← requireAllocation spaceId memberId
  let pausedAt ← pausedSince paused
  let _ ← updateAllocationRow allocation.id (AllocationRow.setPaused paused pausedAt)
  record ⟨"data.allocation.paused", "success", some user.text, none, none, some spaceId, some context,
    [("paused", .flag paused)]⟩
  .done (if paused then .paused else .active)

/-- An allocation after its limits were changed. -/
def AllocationRow.limited (input : UpdateAllocationRequest) (a : AllocationRow) : AllocationRow :=
  { a with
    totalBytes := input.totalBytes.getD a.totalBytes
    dailyBytes := input.dailyBytes.getD a.dailyBytes
    expiresAt := input.expiresAt.getD a.expiresAt }

/-- `updateAllocation`. -/
def updateAllocation (user : Token) (spaceId memberId : String) (input : UpdateAllocationRequest)
    (context : RequestContext) : Service P Unit := do
  requirePermission user spaceId "data.manage" (some context)
  let allocation ← requireAllocation spaceId memberId
  Prog.raiseIf (input.totalBytes.any (· < allocation.usedBytes)) (badRequest
    "That is less than this person has already used. Revoke the allocation instead.")
  let _ ← updateAllocationRow allocation.id (AllocationRow.limited input)
  record ⟨"data.allocation.updated", "success", some user.text, none, none, some spaceId, some context,
    [("totalBytes", .text (bytesOr "unchanged" input.totalBytes)),
      ("dailyBytes", .text (bytesOr "unchanged" input.dailyBytes.join))]⟩

/-- An allocation after it was revoked. -/
def AllocationRow.revoked (now : Date) (a : AllocationRow) : AllocationRow :=
  { a with status := .revoked, revokedAt := some now }

/-- The allocation of a member whose access is revoked, if there is one. -/
def revokeAllocation : Option AllocationRow → Service P Unit
  | none => .done ()
  | some allocation => do
    let now ← newDate
    let _ ← updateAllocationRow allocation.id (AllocationRow.revoked now)
    .done ()

/-- A membership after its access was revoked. -/
def MemberRow.barred (m : MemberRow) : MemberRow := { m with permissions := [], suspended := true }

/-- `spaceMember.update`. -/
def updateMember (id : String) (data : MemberRow → MemberRow) : Service P Unit :=
  .stmt (.members (.update (·.id = id) data)) fun w =>
    if w.members.any (·.id = id) then .done () else .raise Api.databaseFault

/-- The end of `revokeAccess`: the allocation, the membership and the open windows. -/
def bar (user : Token) (spaceId memberId : String) (member : MemberRow)
    (allocation : Option AllocationRow) (context : RequestContext) : Service P Unit := do
  revokeAllocation allocation
  updateMember memberId MemberRow.barred
  Prog.perform (.revokeSpaceAccess member.user.text spaceId) fun _ => ()
  record ⟨"data.allocation.revoked", "success", some user.text, none, none, some spaceId, some context,
    [("memberId", .text memberId)]⟩

/-- `revokeAccess`. -/
def revokeAccess (user : Token) (spaceId memberId : String) (context : RequestContext) :
    Service P Unit := do
  requirePermission user spaceId "members.manage" (some context)
  let found ← select .members fun w =>
    (w.members.find? (·.id = memberId)).map fun m => (m, allocationFor m.id w)
  match found with
  | none => .raise (notFound "That member was not found.")
  | some (member, allocation) =>
    if member.spaceId ≠ spaceId then .raise (notFound "That member was not found.")
    else if member.role = "owner" then
      .raise (badRequest "The owner of a Space cannot be removed from it.")
    else bar user spaceId memberId member allocation context

end Sharing
