import NetlinkHub.Sharing.World

/-! # The spaces and data services

`spaces.service.ts` and `data.service.ts`, call by call: Spaces, the data pool, NetLink Passes from their
creation to their claim, the allocations that come of them, and the usage that the provider reports. -/

namespace Sharing

open Api (Date HttpException RequestContext Token badRequest forbidden notFound)
open Concurrent (Prog)
open Table (Op)

/-! ## The contract -/

/-- `OWNER_PERMISSIONS`: all there are. -/
def ownerPermissions : List String :=
  ["data.use", "data.manage", "devices.view", "devices.observe", "devices.control", "files.read",
    "files.upload", "files.delete", "printers.use", "power.wake", "power.restart", "power.shutdown",
    "power.lock", "power.sleep", "invitations.create", "members.manage"]

/-- `DATA_ONLY_PERMISSIONS`. -/
def dataOnlyPermissions : List String := ["data.use"]

/-- `PASS_KINDS`. -/
inductive PassKind where
  | dataOnly
  | custom
  deriving DecidableEq, Repr

/-- The text of a kind. -/
def PassKind.text : PassKind → String
  | dataOnly => "data_only"
  | custom => "custom"

/-- `CreatePassRequest`. -/
structure CreatePassRequest where
  email : Option String
  kind : PassKind
  permissions : List String
  totalBytes : Option Nat
  dailyBytes : Option Nat
  expiresAt : Date
  allowResharing : Bool
  deriving DecidableEq, Repr

/-- `UpdateAllocationRequest`. -/
structure UpdateAllocationRequest where
  totalBytes : Option Nat
  dailyBytes : Option (Option Nat)
  expiresAt : Option Date
  deriving DecidableEq, Repr

/-- `DataPoolSummary`. -/
structure DataPoolSummary where
  spaceId : String
  provider : String
  isDemo : Bool
  accountRef : String
  planName : Option String
  balanceBytes : Nat
  allocatedBytes : Nat
  usedBytes : Nat
  availableBytes : Nat
  memberCount : Nat
  deriving DecidableEq, Repr

/-- `PassSummary`. -/
structure PassSummary where
  id : String
  spaceId : String
  spaceName : String
  inviteeEmail : Option String
  kind : PassKind
  permissions : List String
  status : InvitationStatus
  totalBytes : Option Nat
  dailyBytes : Option Nat
  allowResharing : Bool
  expiresAt : String
  createdAt : String
  claimedAt : Option String
  claimToken : Option String
  deriving DecidableEq, Repr

/-- What `claimPass` answers. -/
structure ClaimedPass where
  spaceId : String
  spaceName : String
  permissions : List String
  deriving DecidableEq, Repr

/-- `MyAllocation`. -/
structure MyAllocation where
  spaceId : String
  spaceName : String
  status : AllocationStatus
  allocatedBytes : Nat
  usedBytes : Nat
  remainingBytes : Nat
  dailyLimitBytes : Option Nat
  usedTodayBytes : Nat
  expiresAt : String
  connected : Bool
  deriving DecidableEq, Repr

/-- `MemberAccessRow['allocation']`. -/
structure AllocationAccess where
  status : AllocationStatus
  allocatedBytes : Nat
  usedBytes : Nat
  usedTodayBytes : Nat
  remainingBytes : Nat
  dailyLimitBytes : Option Nat
  expiresAt : String
  deriving DecidableEq, Repr

/-- `MemberAccessRow`. -/
structure MemberAccessRow where
  memberId : String
  userId : String
  name : String
  email : String
  role : String
  permissions : List String
  suspended : Bool
  expiresAt : Option String
  connected : Bool
  approvedDeviceName : Option String
  allocation : Option AllocationAccess
  deriving DecidableEq, Repr

/-- `SpaceSummary` of a new Space. -/
structure SpaceSummary where
  id : String
  name : String
  ownerId : String
  createdAt : String
  isOwner : Bool
  agentCount : Nat
  onlineAgentCount : Nat
  memberCount : Nat
  resourceCount : Nat
  deriving DecidableEq, Repr

/-- `remainingBytes`. -/
def remainingBytes (total used : Nat) : Nat := total - used

/-- Days in the time zone of the server. -/
structure Calendar where
  startOfDay : Date → Date
  idem : ∀ d, startOfDay (startOfDay d) = startOfDay d

/-- What the platform and the configuration give to the services. -/
structure Deployment (P : Type) where
  provider : DataProviderAdapter P
  hashSecret : String → String
  calendar : Calendar

variable {P : Type}

/-! ## Spaces -/

/-- `space.create` with its first member. -/
def createSpace (space : SpaceRow) (owner : MemberRow) : Service P Unit :=
  .stmt (.createSpace space owner) fun w =>
    if w.TakesSpace space owner then .raise Api.databaseFault else .done ()

/-- What `create` and `ensureDefaultSpace` have in common: the Space, its owner and the audit record. -/
def openSpace (user : Token) (name : String) (context : Option RequestContext) : Service P SpaceRow := do
  let id ← randomUUID
  let memberId ← randomUUID
  let now ← newDate
  let space : SpaceRow := ⟨id, user.text, name, now⟩
  createSpace space ⟨memberId, id, user, "owner", ownerPermissions, false, none, now⟩
  record ⟨"space.created", "success", some user.text, none, none, some id, context, [("name", .text name)]⟩
  .done space

/-- `ensureDefaultSpace`. -/
def ensureDefaultSpace (user : Token) (context : Option RequestContext) : Service P String := do
  let existing ← select .spaces fun w =>
    (List.insertionSort (fun s t => s.createdAt ≤ t.createdAt)
      (w.spaces.filter (·.ownerId = user.text))).head?
  match existing with
  | some existing => .done existing.id
  | none => SpaceRow.id <$> openSpace user "My Home" context

/-- `create`. -/
def create (user : Token) (name : String) (context : RequestContext) : Service P SpaceSummary := do
  let space ← openSpace user name (some context)
  .done ⟨space.id, space.name, space.ownerId, Api.toISOString space.createdAt, true, 0, 0, 1, 0⟩

/-- `space.update`. -/
def updateSpace (id : String) (data : SpaceRow → SpaceRow) : Service P SpaceRow :=
  .stmt (.spaces (.update (·.id = id) data)) fun w => match w.spaces.find? (·.id = id) with
    | none => .raise Api.databaseFault
    | some row => .done (data row)

/-- `rename`: the identifier and the name. -/
def rename (user : Token) (spaceId name : String) (context : RequestContext) :
    Service P (String × String) := do
  requirePermission user spaceId "members.manage" (some context)
  let space ← updateSpace spaceId fun s => { s with name := name }
  .done (space.id, space.name)

/-! ## The pool -/

/-- A call of the provider. -/
def ask {α : Type} (call : ProviderCall) (answer : P → Except HttpException α) : Service P α :=
  .stmt (.provider call) fun w => match answer w.provider with
    | .error e => .raise e
    | .ok a => .done a

/-- `maskAccount`. -/
def maskAccount (ref : String) : String :=
  let units := (ref.toList.map Api.utf16Units).sum
  if units ≤ 4 then String.ofList (List.replicate units '•')
  else String.ofList (List.replicate (min (units - 4) 8) '•' ++
    (Api.sliceUnits 4 ref.toList.reverse).reverse)

/-- An allocation that counts towards what its pool has given out. -/
def AllocationStatus.Live (status : AllocationStatus) : Prop := status = .active ∨ status = .paused

instance : DecidablePred AllocationStatus.Live := fun _ => inferInstanceAs (Decidable (_ ∨ _))

/-- `dataPool.findUnique` by the Space. -/
def findPool (spaceId : String) (w : World P) : Option PoolRow := w.pools.find? (·.spaceId = spaceId)

/-- The allocations of a pool. -/
def allocationsOf (poolId : String) (w : World P) : List AllocationRow :=
  w.allocations.filter (·.poolId = poolId)

/-- What live allocations come to. -/
def allocatedBytes (rows : List AllocationRow) : Nat :=
  ((rows.filter fun a => a.status.Live).map (·.totalBytes)).sum

/-- `dataPool.findUnique` with its allocations. -/
def selectPool (spaceId : String) : Service P (Option (PoolRow × List AllocationRow)) :=
  select .pools fun w => (findPool spaceId w).map fun pool => (pool, allocationsOf pool.id w)

/-- `poolSummary`. -/
def poolSummary (A : DataProviderAdapter P) (user : Token) (spaceId : String) :
    Service P DataPoolSummary := do
  requirePermission user spaceId "data.manage" none
  let found ← selectPool spaceId
  match found with
  | none => .raise (notFound "This Space has no Data Pool yet.")
  | some (pool, allocations) => do
    let balance ← ask (.getBalance pool.accountRef) (A.getBalance pool.accountRef)
    let allocated := allocatedBytes allocations
    .done
      { spaceId := spaceId
        provider := pool.provider
        isDemo := ¬ A.isReal
        accountRef := maskAccount pool.accountRef
        planName := pool.planName
        balanceBytes := balance
        allocatedBytes := allocated
        usedBytes := (allocations.map (·.usedBytes)).sum
        availableBytes := balance - allocated
        memberCount := (allocations.filter fun a => a.status.Live).length }

/-- `dataPool.upsert`. -/
def upsertPool (row : PoolRow) (data : PoolRow → PoolRow) : Service P Unit :=
  .stmt (.upsertPool row data) fun w =>
    if ¬ w.pools.any (·.spaceId = row.spaceId) ∧ w.pools.any (·.id = row.id) then
      .raise Api.databaseFault
    else .done ()

/-- `connectPool`. -/
def connectPool (A : DataProviderAdapter P) (user : Token) (spaceId accountRef : String)
    (context : RequestContext) : Service P DataPoolSummary := do
  requireOwner user spaceId (some context)
  let account ← ask (.verifyAccount accountRef) (A.verifyAccount accountRef)
  Prog.raiseIf (¬ account.verified) (badRequest
    "That account could not be verified with the provider. Check the number and try again.")
  let plan ← ask (.getPlan account.accountRef) (A.getPlan account.accountRef)
  let id ← randomUUID
  upsertPool ⟨id, spaceId, A.name, account.accountRef, some plan⟩ fun p =>
    { p with accountRef := account.accountRef, planName := some plan, provider := A.name }
  poolSummary A user spaceId

/-! ## Passes -/

/-- `toPassSummary`. -/
def toPassSummary (invitation : InvitationRow) (spaceName : String) : Service P PassSummary := do
  let status ← if invitation.status = .pending then do
      let now ← dateNow
      .done (if invitation.expiresAt ≤ now then .expired else invitation.status)
    else .done invitation.status
  .done
    { id := invitation.id
      spaceId := invitation.spaceId
      spaceName := spaceName
      inviteeEmail := invitation.inviteeEmail
      kind := if invitation.permissions = dataOnlyPermissions then .dataOnly else .custom
      permissions := invitation.permissions
      status := status
      totalBytes := invitation.totalDataBytes
      dailyBytes := invitation.dailyDataBytes
      allowResharing := invitation.allowResharing
      expiresAt := Api.toISOString invitation.expiresAt
      createdAt := Api.toISOString invitation.createdAt
      claimedAt := invitation.claimedAt.map Api.toISOString
      claimToken := none }

/-- What a pass may carry, whatever the request asks for. -/
def passPermissions (input : CreatePassRequest) : List String :=
  match input.kind with
  | .dataOnly => dataOnlyPermissions
  | .custom => input.permissions

/-- The check of the amount, which only a Data-Only pass goes through. -/
def checkAmount (A : DataProviderAdapter P) (user : Token) (spaceId : String) (input : CreatePassRequest) :
    Service P Unit :=
  match input.kind with
  | .custom => .done ()
  | .dataOnly => do
    let pool ← selectPool spaceId
    match pool with
    | none => .raise (badRequest "Connect this Space to a data provider before sharing data.")
    | some _ => do
      let summary ← poolSummary A user spaceId
      Prog.raiseIf (input.totalBytes.getD 0 > summary.availableBytes)
        (badRequest "That is more data than this pool has left to give out.")

/-- The row that `createPass` inserts. -/
def newPass (user : Token) (spaceId : String) (input : CreatePassRequest) (id tokenHash : String)
    (now : Date) : InvitationRow :=
  { id := id
    spaceId := spaceId
    createdById := user.text
    inviteeEmail := input.email
    tokenHash := tokenHash
    permissions := passPermissions input
    status := .pending
    allowResharing := input.allowResharing
    expiresAt := input.expiresAt
    claimedAt := none
    claimedByUserId := none
    revokedAt := none
    createdAt := now
    totalDataBytes := input.totalBytes
    dailyDataBytes := input.dailyBytes }

/-- Rows that cannot stand beside a pass: identifiers and hashes are unique. -/
def InvitationRow.Clashes (row i : InvitationRow) : Bool := i.id = row.id ∨ i.tokenHash = row.tokenHash

/-- `invitation.create` with its Space: the name of the Space. -/
def createInvitation (row : InvitationRow) : Service P String :=
  .stmt (.invitations (.insert row.Clashes row)) fun w =>
    if w.invitations.any row.Clashes then .raise Api.databaseFault
    else .done (((w.spaces.find? (·.id = row.spaceId)).map (·.name)).getD "")

/-- `permissions.join(',') || 'none'`. -/
def joined (permissions : List String) : String :=
  let text := ",".intercalate permissions
  if text = "" then "none" else text

/-- `createPass`. -/
def createPass (D : Deployment P) (user : Token) (spaceId : String) (input : CreatePassRequest)
    (context : RequestContext) : Service P PassSummary := do
  requirePermission user spaceId "invitations.create" (some context)
  checkAmount D.provider user spaceId input
  let token ← lift (Prog.perform .random Account.World.secret)
  let id ← randomUUID
  let now ← newDate
  let invitation := newPass user spaceId input id (D.hashSecret token) now
  let spaceName ← createInvitation invitation
  record ⟨"invitation.created", "success", some user.text, none, none, some spaceId, some context,
    [("kind", .text input.kind.text), ("permissions", .text (joined (passPermissions input))),
      ("hasEmail", .flag (input.email.any (· ≠ "")))]⟩
  let summary ← toPassSummary invitation spaceName
  .done { summary with claimToken := some token }

/-- The loop of `listPasses`. -/
def toPassSummaries : List (InvitationRow × String) → Service P (List PassSummary)
  | [] => .done []
  | (invitation, spaceName) :: rest => do
    let summary ← toPassSummary invitation spaceName
    let summaries ← toPassSummaries rest
    .done (summary :: summaries)

/-- `listPasses`. -/
def listPasses (user : Token) (spaceId : String) : Service P (List PassSummary) := do
  requirePermission user spaceId "members.manage" none
  let invitations ← select .invitations fun w =>
    (List.insertionSort (fun i j => j.createdAt ≤ i.createdAt)
      (w.invitations.filter (·.spaceId = spaceId))).map fun i =>
        (i, ((w.spaces.find? (·.id = spaceId)).map (·.name)).getD "")
  toPassSummaries invitations

/-- `dataAllocation.upsert`. -/
def upsertAllocation (row : AllocationRow) (data : AllocationRow → AllocationRow) : Service P Unit :=
  .stmt (.upsertAllocation row data) fun w =>
    if ¬ w.allocations.any (·.memberId = row.memberId) ∧ w.allocations.any (·.id = row.id) then
      .raise Api.databaseFault
    else .done ()

/-- The input of `openAllocation`. -/
structure OpenAllocation where
  spaceId : String
  memberId : String
  totalBytes : Nat
  dailyBytes : Option Nat
  expiresAt : Date
  allowResharing : Bool
  subscriberRef : String
  deriving DecidableEq, Repr

/-- What `openAllocation` asks of the provider. -/
def OpenAllocation.forProvider (input : OpenAllocation) (accountRef : String) : CreateAllocationInput :=
  ⟨accountRef, input.subscriberRef, input.totalBytes, input.dailyBytes, input.expiresAt⟩

/-- The row that `openAllocation` creates. Its `updatedAt` is the database's. -/
def newAllocation (input : OpenAllocation) (poolId id : String) : AllocationRow :=
  { id := id
    poolId := poolId
    spaceId := input.spaceId
    memberId := input.memberId
    status := .active
    totalBytes := input.totalBytes
    dailyBytes := input.dailyBytes
    usedBytes := 0
    usedTodayBytes := 0
    usageDay := none
    expiresAt := input.expiresAt
    allowResharing := input.allowResharing
    updatedAt := 0
    pausedAt := none
    revokedAt := none }

/-- What `openAllocation` makes of an allocation that is there. -/
def reopened (input : OpenAllocation) (a : AllocationRow) : AllocationRow :=
  { a with
    totalBytes := input.totalBytes
    dailyBytes := input.dailyBytes
    expiresAt := input.expiresAt
    status := .active
    pausedAt := none
    revokedAt := none }

/-- `String(n)`, or `'none'`. -/
def bytesOr (none : String) (bytes : Option Nat) : String := (bytes.map toString).getD none

/-- `openAllocation`. -/
def openAllocation (A : DataProviderAdapter P) (input : OpenAllocation) : Service P Unit := do
  let pool ← select .pools (findPool input.spaceId)
  match pool with
  | none => .done ()
  | some pool => do
    let created := input.forProvider pool.accountRef
    let _ ← ask (.createAllocation created) (A.createAllocation created)
    let id ← randomUUID
    upsertAllocation (newAllocation input pool.id id) (reopened input)
    record ⟨"data.allocation.created", "success", none, none, none, some input.spaceId, none,
      [("totalBytes", .text (toString input.totalBytes)),
        ("dailyBytes", .text (bytesOr "none" input.dailyBytes))]⟩

/-- `spaceMember.upsert`: the row after it. -/
def upsertMember (row : MemberRow) (data : MemberRow → MemberRow) : Service P MemberRow :=
  .stmt (.upsertMember row data) fun w =>
    match w.members.find? (·.Of row.user row.spaceId) with
    | some m => .done (data m)
    | none => if w.members.any (·.id = row.id) then .raise Api.databaseFault else .done row

/-- A pass after it was claimed. -/
def InvitationRow.claimed (user : Token) (now : Date) (i : InvitationRow) : InvitationRow :=
  { i with status := .claimed, claimedAt := some now, claimedByUserId := some user.text }

/-- The pass of this identifier can be claimed. -/
def InvitationRow.Open (id : String) (i : InvitationRow) : Bool := i.id = id ∧ i.status = .pending

@[simp] theorem InvitationRow.open_iff {id : String} {i : InvitationRow} :
    i.Open id ↔ i.id = id ∧ i.status = .pending := decide_eq_true_iff

/-- What the claim of a pass opens, if it carries data. -/
def InvitationRow.allocation (i : InvitationRow) (user : Token) (memberId : String) (totalBytes : Nat) :
    OpenAllocation :=
  { spaceId := i.spaceId
    memberId := memberId
    totalBytes := totalBytes
    dailyBytes := i.dailyDataBytes
    expiresAt := i.expiresAt
    allowResharing := i.allowResharing
    subscriberRef := user.text }

/-- A pass that carries no data opens nothing. -/
def openFor (A : DataProviderAdapter P) (user : Token) (invitation : InvitationRow) (memberId : String) :
    Service P Unit :=
  match invitation.totalDataBytes with
  | none => .done ()
  | some totalBytes => openAllocation A (invitation.allocation user memberId totalBytes)

/-- The membership that a claim creates. -/
def newMember (user : Token) (invitation : InvitationRow) (id : String) (now : Date) : MemberRow :=
  ⟨id, invitation.spaceId, user, "invited_member", invitation.permissions, false,
    some invitation.expiresAt, now⟩

/-- What a claim makes of a membership that is there. -/
def rejoined (invitation : InvitationRow) (m : MemberRow) : MemberRow :=
  { m with permissions := invitation.permissions, expiresAt := some invitation.expiresAt, suspended := false }

/-- What follows once a pass is used up: the membership, the allocation and the open windows. -/
def join (A : DataProviderAdapter P) (user : Token) (invitation : InvitationRow) (spaceName : String)
    (context : RequestContext) : Service P ClaimedPass := do
  let id ← randomUUID
  let created ← newDate
  let member ← upsertMember (newMember user invitation id created) (rejoined invitation)
  openFor A user invitation member.id
  record ⟨"invitation.claimed", "success", some user.text, none, none, some invitation.spaceId,
    some context, [("permissions", .text (joined invitation.permissions))]⟩
  Prog.perform (.grantSpaceAccess user.text invitation.spaceId) fun _ => ()
  .done ⟨invitation.spaceId, spaceName, invitation.permissions⟩

/-- The end of `claimPass`, from the conditional update. -/
def redeem (A : DataProviderAdapter P) (user : Token) (invitation : InvitationRow) (spaceName : String)
    (context : RequestContext) : Service P ClaimedPass := do
  let now ← newDate
  let count ← Prog.perform
    (.invitations (.update (InvitationRow.Open invitation.id) (InvitationRow.claimed user now)))
    fun w => (w.invitations.filter (InvitationRow.Open invitation.id)).length
  if count = 0 then .raise (badRequest "This NetLink Pass has already been used.")
  else join A user invitation spaceName context

/-- `invitation.findUnique` by the hash of a token, with its Space. -/
def findPass (tokenHash : String) (w : World P) : Option (InvitationRow × SpaceRow) :=
  (w.invitations.find? (·.tokenHash = tokenHash)).bind fun i =>
    (w.spaces.find? (·.id = i.spaceId)).map (i, ·)

/-- What every pass that cannot be claimed is answered. -/
def passInvalid : HttpException := badRequest "This NetLink Pass is no longer valid."

/-- A pass that is sent to another address. -/
def InvitationRow.Elsewhere (i : InvitationRow) (email : String) : Bool :=
  i.inviteeEmail.any fun invitee => invitee ≠ "" ∧ invitee ≠ email

/-- `claimPass`, once the pass is found to be open: whether it is this user's. -/
def claimOpen (A : DataProviderAdapter P) (user : Token) (invitation : InvitationRow) (space : SpaceRow)
    (context : RequestContext) : Service P ClaimedPass := do
  let found ← select .users fun w => w.account.users.find? (·.id = user.text)
  match found with
  | none => .raise (notFound "Account not found.")
  | some account =>
    if invitation.Elsewhere account.email then do
      record ⟨"invitation.claimed", "denied", some user.text, none, none, some invitation.spaceId,
        some context, [("reason", .text "wrong_account")]⟩
      .raise (forbidden "This Pass was sent to a different email address.")
    else if space.ownerId = user.text then .raise (badRequest "You already own this Space.")
    else redeem A user invitation space.name context

/-- `claimPass`. -/
def claimPass (D : Deployment P) (user : Token) (token : String) (context : RequestContext) :
    Service P ClaimedPass := do
  let found ← select .invitations (findPass (D.hashSecret token))
  match found with
  | none => .raise passInvalid
  | some (invitation, space) =>
    if invitation.status ≠ .pending then .raise passInvalid
    else do
      let now ← dateNow
      if invitation.expiresAt ≤ now then .raise passInvalid
      else claimOpen D.provider user invitation space context

/-- A pass after it was revoked. -/
def InvitationRow.revoked (now : Date) (i : InvitationRow) : InvitationRow :=
  { i with status := .revoked, revokedAt := some now }

/-- `invitation.update`. -/
def updateInvitation (id : String) (data : InvitationRow → InvitationRow) : Service P Unit :=
  .stmt (.invitations (.update (·.id = id) data)) fun w =>
    if w.invitations.any (·.id = id) then .done () else .raise Api.databaseFault

/-- `revokePass`. -/
def revokePass (user : Token) (spaceId passId : String) (context : RequestContext) : Service P Unit := do
  requirePermission user spaceId "members.manage" (some context)
  let invitation ← select .invitations fun w => w.invitations.find? (·.id = passId)
  if invitation.all (·.spaceId ≠ spaceId) then .raise (notFound "That Pass was not found.")
  else do
    let now ← newDate
    updateInvitation passId (InvitationRow.revoked now)
    record ⟨"invitation.revoked", "success", some user.text, none, none, some spaceId, some context, []⟩

end Sharing
