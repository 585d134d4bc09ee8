import NetlinkHub.Account.Sessions

/-! # Spaces, passes and data

The tables of the spaces and data services: Spaces and their members, invitations (NetLink Passes), data
pools and the allocations of members, and the usage that the provider reports. They stand beside the
tables of the account, power and remote services, whose programs run in this world unchanged (`lift`): the
directory that those only read is made of the members and Spaces here. -/

namespace Sharing

open Api (Date HttpException RequestContext Token)
open Concurrent (Prog)
open Table (Op)

/-! ## Rows -/

deriving instance DecidableEq for Token

instance : Repr Token := ⟨fun t n => reprPrec t.text n⟩

/-- A Space. -/
structure SpaceRow where
  id : String
  ownerId : String
  name : String
  createdAt : Date
  deriving DecidableEq, Repr

/-- A membership. -/
structure MemberRow where
  id : String
  spaceId : String
  user : Token
  role : String
  permissions : List String
  suspended : Bool
  expiresAt : Option Date
  createdAt : Date
  deriving DecidableEq, Repr

/-- `InvitationStatus`. -/
inductive InvitationStatus where
  | pending
  | claimed
  | revoked
  | expired
  deriving DecidableEq, Repr

/-- The text of a status. -/
def InvitationStatus.text : InvitationStatus → String
  | pending => "pending"
  | claimed => "claimed"
  | revoked => "revoked"
  | expired => "expired"

/-- An invitation: a pass, stored by the hash of its token. -/
structure InvitationRow where
  id : String
  spaceId : String
  createdById : String
  inviteeEmail : Option String
  tokenHash : String
  permissions : List String
  status : InvitationStatus
  allowResharing : Bool
  expiresAt : Date
  claimedAt : Option Date
  claimedByUserId : Option String
  revokedAt : Option Date
  createdAt : Date
  totalDataBytes : Option Nat
  dailyDataBytes : Option Nat
  deriving DecidableEq, Repr

/-- The data pool of a Space. -/
structure PoolRow where
  id : String
  spaceId : String
  provider : String
  accountRef : String
  planName : Option String
  deriving DecidableEq, Repr

/-- `ALLOCATION_STATUSES`. -/
inductive AllocationStatus where
  | active
  | paused
  | expired
  | revoked
  deriving DecidableEq, Repr

/-- The text of a status. -/
def AllocationStatus.text : AllocationStatus → String
  | active => "active"
  | paused => "paused"
  | expired => "expired"
  | revoked => "revoked"

/-- The share of a member in a pool. -/
structure AllocationRow where
  id : String
  poolId : String
  spaceId : String
  memberId : String
  status : AllocationStatus
  totalBytes : Nat
  dailyBytes : Option Nat
  usedBytes : Nat
  usedTodayBytes : Nat
  usageDay : Option Date
  expiresAt : Date
  allowResharing : Bool
  updatedAt : Date
  pausedAt : Option Date
  revokedAt : Option Date
  deriving DecidableEq, Repr

/-- A piece of usage, as the provider reports it. -/
structure UsageEventRow where
  allocationId : String
  bytes : Nat
  sessionSeconds : Nat
  providerRef : String
  occurredAt : Date
  deriving DecidableEq, Repr

/-- A `data.usage` event. -/
structure UsageNotice where
  spaceId : String
  memberId : String
  usedBytes : Nat
  deriving DecidableEq, Repr

/-! ## The provider -/

/-- `ProviderAccount`. -/
structure ProviderAccount where
  accountRef : String
  verified : Bool
  displayName : Option String
  deriving DecidableEq, Repr

/-- The input of `createAllocation`. -/
structure CreateAllocationInput where
  accountRef : String
  subscriberRef : String
  totalBytes : Nat
  dailyBytes : Option Nat
  expiresAt : Date
  deriving DecidableEq, Repr

/-- `ProviderAllocation`. -/
structure ProviderAllocation where
  providerAllocationId : String
  status : AllocationStatus
  totalBytes : Nat
  dailyBytes : Option Nat
  expiresAt : Date
  deriving DecidableEq, Repr

/-- `ProviderUsage['events'][number]`. -/
structure ProviderUsageEvent where
  providerRef : String
  bytes : Nat
  sessionSeconds : Nat
  occurredAt : Date
  deriving DecidableEq, Repr

/-- What is asked of the provider. -/
inductive ProviderCall where
  | verifyAccount (accountRef : String)
  | getBalance (accountRef : String)
  | getPlan (accountRef : String)
  | createAllocation (input : CreateAllocationInput)
  | getUsage (providerAllocationId : String) (since : Date)
  deriving DecidableEq, Repr

/-- `DataProviderAdapter`, as far as it is called: what each operation answers, or raises, and what a call
leaves at the provider. -/
structure DataProviderAdapter (P : Type) where
  name : String
  isReal : Bool
  verifyAccount : String → P → Except HttpException ProviderAccount
  /-- `balanceBytes`. -/
  getBalance : String → P → Except HttpException Nat
  /-- The name of the plan. -/
  getPlan : String → P → Except HttpException String
  createAllocation : CreateAllocationInput → P → Except HttpException ProviderAllocation
  /-- `events`. -/
  getUsage : String → Date → P → Except HttpException (List ProviderUsageEvent)
  effect : ProviderCall → P → P

/-! ## The database and its statements -/

/-- Everything a statement can read or write. -/
structure World (P : Type) where
  /-- The tables of the account, power and remote services; but for the members and Spaces. -/
  account : Account.World
  spaces : List SpaceRow
  members : List MemberRow
  invitations : List InvitationRow
  pools : List PoolRow
  allocations : List AllocationRow
  usageEvents : List UsageEventRow
  /-- What the provider knows. -/
  provider : P
  /-- `data.usage` events and their Spaces. -/
  notices : List UsageNotice
  /-- The database refuses the next update of the totals of an allocation. -/
  refusesTotals : Bool

/-- The tables, for statements that only read. -/
inductive TableName where
  | spaces
  | members
  | users
  | invitations
  | pools
  | allocations
  deriving DecidableEq, Repr

/-- What a statement does to the database. -/
inductive Write where
  /-- A statement of the account, power or remote service. -/
  | account (w : Account.Write)
  /-- A read, also one with `include`. -/
  | select (table : TableName)
  | provider (call : ProviderCall)
  | spaces (op : Op SpaceRow)
  /-- `space.create` with its first member: identifiers are unique. -/
  | createSpace (space : SpaceRow) (owner : MemberRow)
  | members (op : Op MemberRow)
  /-- `spaceMember.upsert`: by Space and user, with what to create and what to update. -/
  | upsertMember (row : MemberRow) (data : MemberRow → MemberRow)
  | invitations (op : Op InvitationRow)
  /-- `dataPool.upsert`: by the Space. -/
  | upsertPool (row : PoolRow) (data : PoolRow → PoolRow)
  /-- `dataAllocation.update` by identifier. -/
  | updateAllocation (id : String) (data : AllocationRow → AllocationRow)
  /-- The update of an allocation at the end of `refreshUsage`. -/
  | updateTotals (id : String) (data : AllocationRow → AllocationRow)
  /-- `dataAllocation.upsert`: by the member. -/
  | upsertAllocation (row : AllocationRow) (data : AllocationRow → AllocationRow)
  /-- `dataUsageEvent.create`. -/
  | createUsageEvent (row : UsageEventRow)
  /-- `grantSpaceAccess`. -/
  | grantSpaceAccess (userId spaceId : String)
  /-- `revokeSpaceAccess`. -/
  | revokeSpaceAccess (userId spaceId : String)
  /-- `handleDisconnect`. -/
  | disconnect (socket : Nat)
  | publish (notice : UsageNotice)

variable {P : Type}

/-- The time. -/
def World.clock (w : World P) : Date := w.account.api.clock

/-- A membership as the services see it that check permissions. -/
def MemberRow.grant (m : MemberRow) : Api.MemberRow :=
  ⟨m.spaceId, m.user.text, m.role, m.permissions, m.suspended, m.expiresAt⟩

/-- The directory that the account, power and remote services read. -/
def World.directory (w : World P) : Api.Directory where
  agents := w.account.api.directory.agents
  members := w.members.map MemberRow.grant
  spaces := w.spaces.map fun s => ⟨s.id, s.ownerId⟩
  users := w.account.api.directory.users
  agentIds := w.account.api.directory.agentIds
  memberIds := by
    intro m hm
    obtain ⟨row, -, rfl⟩ := List.mem_map.mp hm
    exact row.user.oneLine

/-- The world of the account, power and remote services. -/
def World.view (w : World P) : Account.World :=
  { w.account with api := { w.account.api with directory := w.directory } }

/-- An update of an allocation sets `updatedAt`. -/
def touch (now : Date) (data : AllocationRow → AllocationRow) (a : AllocationRow) : AllocationRow :=
  { data a with updatedAt := now }

/-- `providerRef` is unique. -/
def UsageEventRow.Clashes (row e : UsageEventRow) : Bool := e.providerRef = row.providerRef

/-- A table after an upsert: the rows of one key are updated, or else a row is inserted, unless its
identifier is taken. -/
def upsert {R : Type} (sel clash : R → Bool) (row : R) (data : R → R) (rows : List R) : List R :=
  if rows.any sel then (Op.update sel data).apply rows else (Op.insert clash row).apply rows

/-- The membership of a user in a Space. -/
def MemberRow.Of (user : Token) (spaceId : String) (m : MemberRow) : Bool :=
  m.spaceId = spaceId ∧ m.user = user

@[simp] theorem MemberRow.of_iff {user : Token} {spaceId : String} {m : MemberRow} :
    m.Of user spaceId ↔ m.spaceId = spaceId ∧ m.user = user := decide_eq_true_iff

/-- A Space or its first member has an identifier that is taken. -/
def World.TakesSpace (w : World P) (space : SpaceRow) (owner : MemberRow) : Prop :=
  w.spaces.any (·.id = space.id) ∨ w.members.any fun m => m.id = owner.id ∨ m.Of owner.user owner.spaceId

instance (w : World P) (space : SpaceRow) (owner : MemberRow) : Decidable (w.TakesSpace space owner) :=
  inferInstanceAs (Decidable (_ ∨ _))

/-- The database after a statement. -/
def exec (A : DataProviderAdapter P) : Write → World P → World P
  | .account write, w => { w with account := Account.exec write w.view }
  | .select _, w => w
  | .provider call, w => { w with provider := A.effect call w.provider }
  | .spaces op, w => { w with spaces := op.apply w.spaces }
  | .createSpace space owner, w =>
    if w.TakesSpace space owner then w
    else { w with spaces := w.spaces ++ [space], members := w.members ++ [owner] }
  | .members op, w => { w with members := op.apply w.members }
  | .upsertMember row data, w =>
    { w with members := upsert (·.Of row.user row.spaceId) (·.id = row.id) row data w.members }
  | .invitations op, w => { w with invitations := op.apply w.invitations }
  | .upsertPool row data, w =>
    { w with pools := upsert (·.spaceId = row.spaceId) (·.id = row.id) row data w.pools }
  | .updateAllocation id data, w =>
    { w with allocations := (Op.update (·.id = id) (touch w.clock data)).apply w.allocations }
  | .updateTotals id data, w =>
    if w.refusesTotals then w
    else { w with allocations := (Op.update (·.id = id) (touch w.clock data)).apply w.allocations }
  | .upsertAllocation row data, w =>
    { w with
      allocations := upsert (·.memberId = row.memberId) (·.id = row.id) (touch w.clock id row)
        (touch w.clock data) w.allocations }
  | .createUsageEvent row, w =>
    { w with usageEvents := (Op.insert row.Clashes row).apply w.usageEvents }
  | .grantSpaceAccess userId spaceId, w =>
    { w with account := { w.account with subscribers := w.account.subscribers.map fun s =>
        if s.userId = userId ∧ spaceId ∉ s.spaceIds then { s with spaceIds := s.spaceIds ++ [spaceId] }
        else s } }
  | .revokeSpaceAccess userId spaceId, w =>
    { w with account := { w.account with subscribers := w.account.subscribers.map fun s =>
        if s.userId = userId then { s with spaceIds := s.spaceIds.filter (· ≠ spaceId) } else s } }
  | .disconnect socket, w =>
    { w with account := { w.account with
        subscribers := w.account.subscribers.filter (·.socket ≠ socket) } }
  | .publish notice, w => { w with notices := w.notices ++ [notice] }

variable {A : DataProviderAdapter P} {w : Write} {s : World P}

/-- Only a statement on the invitations touches them. -/
theorem invitations_exec (h : ∀ op, w ≠ .invitations op) : (exec A w s).invitations = s.invitations := by
  cases w with
  | invitations op => exact absurd rfl (h op)
  | createSpace space owner =>
    simp only [exec]
    split <;> rfl
  | updateTotals id data =>
    simp only [exec]
    split <;> rfl
  | _ => rfl

/-- The statement is one on the members. -/
def Write.OnMembers : Write → Prop
  | .createSpace .. => True
  | .members _ => True
  | .upsertMember .. => True
  | _ => False

/-- Only a statement on the members touches them. -/
theorem members_exec (h : ¬ w.OnMembers) : (exec A w s).members = s.members := by
  cases w with
  | createSpace space owner => exact absurd trivial h
  | members op => exact absurd trivial h
  | upsertMember row data => exact absurd trivial h
  | updateTotals id data =>
    simp only [exec]
    split <;> rfl
  | _ => rfl

/-- The statement is one on the allocations. -/
def Write.OnAllocations : Write → Prop
  | .updateAllocation .. => True
  | .updateTotals .. => True
  | .upsertAllocation .. => True
  | _ => False

/-- Only a statement on the allocations touches them. -/
theorem allocations_exec (h : ¬ w.OnAllocations) : (exec A w s).allocations = s.allocations := by
  cases w with
  | updateAllocation id data => exact absurd trivial h
  | updateTotals id data => exact absurd trivial h
  | upsertAllocation row data => exact absurd trivial h
  | createSpace space owner =>
    simp only [exec]
    split <;> rfl
  | _ => rfl

/-- A call of the spaces or data service. -/
abbrev Service (P α : Type) := Prog (World P) Write HttpException α

/-- A `SELECT`. -/
def select {α : Type} (table : TableName) (answer : World P → α) : Service P α :=
  .perform (.select table) answer

/-- A program of the account service. -/
def lift {α : Type} (p : Account.Service α) : Service P α := p.lift World.view .account

/-- A program of the power or remote service. -/
def liftApi {α : Type} (p : Api.Service α) : Service P α := lift (Account.lift p)

/-- `Date.now()`. -/
def dateNow : Service P Date := lift Account.dateNow

/-- `new Date()`. -/
def newDate : Service P Date := liftApi Api.newDate

/-- `randomUUID()`. -/
def randomUUID : Service P String := liftApi Api.randomUUID

/-- `AuditService.record`. -/
def record (row : Api.AuditRow) : Service P Unit := liftApi (Api.record row)

/-- `requirePermission`. -/
def requirePermission (user : Token) (spaceId permission : String) (context : Option RequestContext) :
    Service P Unit :=
  (fun _ => ()) <$> liftApi (Api.requirePermission user.text spaceId permission context)

/-- `requireOwner`. -/
def requireOwner (user : Token) (spaceId : String) (context : Option RequestContext) : Service P Unit :=
  liftApi (Api.requireOwner user.text spaceId context)

@[simp] theorem select_bind {α β : Type} (table : TableName) (answer : World P → α)
    (f : α → Service P β) :
    (select table answer >>= f) = .stmt (.select table) fun w => f (answer w) := rfl

@[simp] theorem dateNow_bind {β : Type} (f : Date → Service P β) :
    (dateNow >>= f) = .stmt (.account .dateNow) fun w => f w.clock := rfl

@[simp] theorem newDate_bind {β : Type} (f : Date → Service P β) :
    (newDate >>= f) = .stmt (.account (.api .clock)) fun w => f w.clock := rfl

@[simp] theorem randomUUID_bind {β : Type} (f : String → Service P β) :
    (randomUUID >>= f) = .stmt (.account (.api .random)) fun w => f w.account.api.uuid.text := rfl

@[simp] theorem record_bind {β : Type} (row : Api.AuditRow) (f : Unit → Service P β) :
    (record row >>= f) = .stmt (.account (.api (.audit row))) fun _ => f () := rfl

end Sharing
