import NetlinkHub.Account.Nonces
import NetlinkHub.Account.Writes
import NetlinkHub.Sharing.Allocations

/-! # The control plane with Spaces and data

Every request of the spaces and data services, and those of the account, power and remote services, as
one machine. What each request may do to the database is read off its program once (`only_handler`). -/

namespace Sharing

open Api (Date HttpException RequestContext Token)
open Concurrent (Config Log Machine Move Outline Prog Step)
open Table (Op)

/-! ## Requests -/

/-- A request to the control plane. -/
inductive Request where
  /-- A request to the account, power or remote service, or to the live gateway. -/
  | account (q : Account.Request)
  | ensureDefaultSpace (user : Token) (context : Option RequestContext)
  | createSpace (user : Token) (name : String) (context : RequestContext)
  | rename (user : Token) (spaceId name : String) (context : RequestContext)
  | connectPool (user : Token) (spaceId accountRef : String) (context : RequestContext)
  | poolSummary (user : Token) (spaceId : String)
  | createPass (user : Token) (spaceId : String) (input : CreatePassRequest) (context : RequestContext)
  | listPasses (user : Token) (spaceId : String)
  | claimPass (user : Token) (token : String) (context : RequestContext)
  | revokePass (user : Token) (spaceId passId : String) (context : RequestContext)
  | myAllocation (user : Token) (spaceId : String)
  | memberAccess (user : Token) (spaceId : String)
  | pauseAllocation (user : Token) (spaceId memberId : String) (paused : Bool) (context : RequestContext)
  | updateAllocation (user : Token) (spaceId memberId : String) (input : UpdateAllocationRequest)
    (context : RequestContext)
  | revokeAccess (user : Token) (spaceId memberId : String) (context : RequestContext)
  /-- A socket is closed. -/
  | disconnect (socket : Nat)
  deriving DecidableEq, Repr

/-- What a request is answered. -/
inductive Response where
  | account (r : Account.Response)
  | spaceId (id : String)
  | space (s : SpaceSummary)
  | renamed (id name : String)
  | pool (s : DataPoolSummary)
  | pass (s : PassSummary)
  | passes (ss : List PassSummary)
  | claimed (c : ClaimedPass)
  | revoked
  | mine (a : MyAllocation)
  | rows (rows : List MemberAccessRow)
  | status (status : AllocationStatus)
  | updated
  | closed
  deriving DecidableEq, Repr

variable {P : Type}

/-- What each request runs. -/
def handler (D : Deployment P) (F : Account.Platform) : Request → Service P Response
  | .account q => .account <$> lift (Account.handler F q)
  | .ensureDefaultSpace user context => .spaceId <$> Sharing.ensureDefaultSpace user context
  | .createSpace user name context => .space <$> create user name context
  | .rename user spaceId name context =>
    (fun r => .renamed r.1 r.2) <$> Sharing.rename user spaceId name context
  | .connectPool user spaceId accountRef context =>
    .pool <$> Sharing.connectPool D.provider user spaceId accountRef context
  | .poolSummary user spaceId => .pool <$> Sharing.poolSummary D.provider user spaceId
  | .createPass user spaceId input context => .pass <$> Sharing.createPass D user spaceId input context
  | .listPasses user spaceId => .passes <$> Sharing.listPasses user spaceId
  | .claimPass user token context => .claimed <$> Sharing.claimPass D user token context
  | .revokePass user spaceId passId context =>
    (fun _ => .revoked) <$> Sharing.revokePass user spaceId passId context
  | .myAllocation user spaceId => .mine <$> Sharing.myAllocation D user spaceId
  | .memberAccess user spaceId => .rows <$> Sharing.memberAccess D user spaceId
  | .pauseAllocation user spaceId memberId paused context =>
    .status <$> Sharing.pauseAllocation user spaceId memberId paused context
  | .updateAllocation user spaceId memberId input context =>
    (fun _ => .updated) <$> Sharing.updateAllocation user spaceId memberId input context
  | .revokeAccess user spaceId memberId context =>
    (fun _ => .revoked) <$> Sharing.revokeAccess user spaceId memberId context
  | .disconnect socket => (fun _ => .closed) <$> Prog.perform (.disconnect socket) fun _ => ()

/-! ## The environment -/

/-- What happens around the account service, but for what the live gateway does itself. -/
abbrev AccountOutside := {o : Account.Outside // match o with
  | .disconnect _ => False
  | .spaceAccess .. => False
  | _ => True}

/-- What happens between two statements. -/
inductive Outside (P : Type) where
  | account (o : AccountOutside)
  /-- The provider goes on by itself. -/
  | provider (p : P)
  /-- The database will refuse the next update of totals, or not. -/
  | refusesTotals (refuses : Bool)

/-- The world after it. -/
def outside : Outside P → World P → World P
  | .account o, w => { w with account := Account.outside o.1 w.account }
  | .provider p, w => { w with provider := p }
  | .refusesTotals refuses, w => { w with refusesTotals := refuses }

/-- Any number of requests, statement by statement. -/
def machine (D : Deployment P) (F : Account.Platform) :
    Machine (World P) Write HttpException Request (Outside P) Response :=
  ⟨handler D F, exec D.provider, outside⟩

/-- The control plane after a run. -/
abbrev run (D : Deployment P) (F : Account.Platform) (w : World P) (moves : List (Move Request (Outside P))) :
    Config (World P) Write HttpException Request Response :=
  Run.run (machine D F).step moves (Config.initial w)

/-- The log of such a run. -/
abbrev SharingLog (P : Type) := Log (World P) Write Request

/-- A statement of such a run. -/
abbrev SharingStep (P : Type) := Step (World P) Write Request

/-! ## What each request may do -/

/-- The statement reads the clock or the random source, or writes an audit record. -/
def Noted : Account.Write → Prop
  | .dateNow => True
  | .random => True
  | .select _ => True
  | .api w => w.Quiet
  | _ => False

/-- The requests that create a Space for a user. -/
def Request.Opens (user : Token) : Request → Prop
  | .ensureDefaultSpace user' _ => user' = user
  | .createSpace user' .. => user' = user
  | _ => False

/-- The requests that refresh the usage of allocations. -/
def Request.Refreshes : Request → Prop
  | .myAllocation .. => True
  | .memberAccess .. => True
  | _ => False

/-- What a request may do to the database. -/
inductive Does : Request → Write → Prop where
  | reads (q : Request) (table : TableName) : Does q (.select table)
  | notes (q : Request) {w : Account.Write} (h : Noted w) : Does q (.account w)
  | serves (q : Account.Request) {w : Account.Write} (h : Account.AccountWrite q w) :
    Does (.account q) (.account w)
  | asks (q : Request) {call : ProviderCall} (h : ∀ input, call ≠ .createAllocation input) :
    Does q (.provider call)
  | opensSpace {q : Request} {user : Token} (hq : q.Opens user) (id memberId name : String) (now : Date) :
    Does q (.createSpace ⟨id, user.text, name, now⟩
      ⟨memberId, id, user, "owner", ownerPermissions, false, none, now⟩)
  | renames (user : Token) (spaceId name : String) (context : RequestContext) :
    Does (.rename user spaceId name context) (.spaces (.update (·.id = spaceId) fun s => { s with name := name }))
  | connects (user : Token) (spaceId accountRef : String) (context : RequestContext) (row : PoolRow)
    (data : PoolRow → PoolRow) (h : row.spaceId = spaceId ∧ ∀ p, (data p).id = p.id ∧ (data p).spaceId = p.spaceId) :
    Does (.connectPool user spaceId accountRef context) (.upsertPool row data)
  | issues (user : Token) (spaceId : String) (input : CreatePassRequest) (context : RequestContext)
    (id tokenHash : String) (now : Date) :
    Does (.createPass user spaceId input context) (.invitations
      (.insert (newPass user spaceId input id tokenHash now).Clashes (newPass user spaceId input id tokenHash now)))
  | redeems (user : Token) (token : String) (context : RequestContext) (id : String) (now : Date) :
    Does (.claimPass user token context)
      (.invitations (.update (InvitationRow.Open id) (InvitationRow.claimed user now)))
  | joins (user : Token) (token : String) (context : RequestContext) (i : InvitationRow) (id : String)
    (now : Date) : Does (.claimPass user token context) (.upsertMember (newMember user i id now) (rejoined i))
  | orders (user : Token) (token : String) (context : RequestContext) (input : CreateAllocationInput) :
    Does (.claimPass user token context) (.provider (.createAllocation input))
  | opens (user : Token) (token : String) (context : RequestContext) (i : InvitationRow)
    (memberId poolId id : String) (totalBytes : Nat) :
    Does (.claimPass user token context) (.upsertAllocation
      (newAllocation (i.allocation user memberId totalBytes) poolId id)
      (reopened (i.allocation user memberId totalBytes)))
  | grants (user : Token) (token : String) (context : RequestContext) (spaceId : String) :
    Does (.claimPass user token context) (.grantSpaceAccess user.text spaceId)
  | revokesPass (user : Token) (spaceId passId : String) (context : RequestContext) (now : Date) :
    Does (.revokePass user spaceId passId context)
      (.invitations (.update (·.id = passId) (InvitationRow.revoked now)))
  | lapses {q : Request} (hq : q.Refreshes) (id : String) :
    Does q (.updateAllocation id AllocationRow.lapsed)
  | stores {q : Request} (hq : q.Refreshes) (row : UsageEventRow) : Does q (.createUsageEvent row)
  | counts {q : Request} (hq : q.Refreshes) (id : String) (used : Usage) (today : Date) :
    Does q (.updateTotals id fun a => a.withUsage used today)
  | stops {q : Request} (hq : q.Refreshes) (id : String) (used : Usage) (today now : Date) :
    Does q (.updateTotals id fun a => (a.withUsage used today).pausedAtDate now)
  | publishes {q : Request} (hq : q.Refreshes) (notice : UsageNotice) : Does q (.publish notice)
  | pauses (user : Token) (spaceId memberId : String) (paused : Bool) (context : RequestContext)
    (id : String) (pausedAt : Option Date) :
    Does (.pauseAllocation user spaceId memberId paused context)
      (.updateAllocation id (AllocationRow.setPaused paused pausedAt))
  | limits (user : Token) (spaceId memberId : String) (input : UpdateAllocationRequest)
    (context : RequestContext) (id : String) :
    Does (.updateAllocation user spaceId memberId input context)
      (.updateAllocation id (AllocationRow.limited input))
  | revokes (user : Token) (spaceId memberId : String) (context : RequestContext) (id : String) (now : Date) :
    Does (.revokeAccess user spaceId memberId context) (.updateAllocation id (AllocationRow.revoked now))
  | bars (user : Token) (spaceId memberId : String) (context : RequestContext) :
    Does (.revokeAccess user spaceId memberId context) (.members (.update (·.id = memberId) MemberRow.barred))
  | drops (user : Token) (spaceId memberId : String) (context : RequestContext) (userId : String) :
    Does (.revokeAccess user spaceId memberId context) (.revokeSpaceAccess userId spaceId)
  | disconnects (socket : Nat) : Does (.disconnect socket) (.disconnect socket)

variable {q : Request} {D : Deployment P}

/-- The statement leaves everything but the audit log and the live events as it is. -/
def Write.Bland : Write → Prop
  | .account w => Noted w
  | .select _ => True
  | _ => False

theorem Write.Bland.does {w : Write} (h : w.Bland) : Does q w := by
  cases w with
  | account w => exact .notes q h
  | select table => exact .reads q table
  | _ => exact h.elim

theorem bland_liftApi {α : Type} {p : Api.Service α} (h : p.Only Api.Write.Quiet) :
    (liftApi p : Service P α).Only Write.Bland := by
  have hnoted : (Account.lift p).Only Noted := h.lift fun _ hw => hw
  exact hnoted.lift fun _ hw => hw

theorem bland_requirePermission (user : Token) (spaceId permission : String)
    (context : Option RequestContext) :
    (requirePermission user spaceId permission context : Service P Unit).Only Write.Bland :=
  (bland_liftApi (Api.only_requirePermission ..)).map _

theorem only_requirePermission (user : Token) (spaceId permission : String)
    (context : Option RequestContext) :
    (requirePermission user spaceId permission context : Service P Unit).Only (Does q) :=
  (bland_requirePermission ..).mono fun _ hw => hw.does

theorem only_requireOwner (user : Token) (spaceId : String) (context : Option RequestContext) :
    (requireOwner user spaceId context : Service P Unit).Only (Does q) :=
  (bland_liftApi (Api.only_requireOwner ..)).mono fun _ hw => hw.does

theorem does_audit {row : Api.AuditRow} (h : row.action ≠ "remote.session.ended") :
    Does q (.account (.api (.audit row))) := .notes q h

theorem does_dateNow : Does q (.account .dateNow) := .notes q trivial

theorem does_newDate : Does q (.account (.api .clock)) := .notes q trivial

theorem does_randomUUID : Does q (.account (.api .random)) := .notes q trivial

theorem only_ask {α : Type} {call : ProviderCall} {answer : P → Except HttpException α}
    (h : Does q (.provider call)) : (ask call answer).Only (Does q) := by
  refine .stmt h fun w => ?_
  split <;> trivial

theorem only_openSpace {user : Token} (hq : q.Opens user) (name : String)
    (context : Option RequestContext) : (openSpace user name context : Service P SpaceRow).Only (Does q) := by
  unfold openSpace
  simp only [randomUUID_bind, newDate_bind]
  refine .stmt does_randomUUID fun w => .stmt does_randomUUID fun w' => .stmt does_newDate fun w'' => ?_
  refine Prog.Only.bind ?_ fun _ => .stmt (does_audit (by simp)) fun _ => trivial
  refine .stmt (.opensSpace hq ..) fun w => ?_
  split <;> trivial

theorem only_ensureDefaultSpace {user : Token} (hq : q.Opens user) (context : Option RequestContext) :
    (ensureDefaultSpace user context : Service P String).Only (Does q) := by
  unfold ensureDefaultSpace
  rw [select_bind]
  refine .stmt (.reads ..) fun w => ?_
  split
  · trivial
  · exact (only_openSpace hq ..).map _

theorem only_create {user : Token} (hq : q.Opens user) (name : String) (context : RequestContext) :
    (create user name context : Service P SpaceSummary).Only (Does q) :=
  (only_openSpace hq ..).bind fun _ => trivial

theorem only_rename (user : Token) (spaceId name : String) (context : RequestContext) :
    (rename user spaceId name context : Service P (String × String)).Only
      (Does (.rename user spaceId name context)) := by
  refine (only_requirePermission ..).bind fun _ => Prog.Only.bind ?_ fun _ => trivial
  refine .stmt (.renames ..) fun w => ?_
  split <;> trivial

theorem only_selectPool (spaceId : String) :
    (selectPool spaceId : Service P (Option (PoolRow × List AllocationRow))).Only (Does q) :=
  (Prog.only_perform _ _).mpr (.reads ..)

theorem only_poolSummary (A : DataProviderAdapter P) (user : Token) (spaceId : String) :
    (poolSummary A user spaceId).Only (Does q) := by
  refine (only_requirePermission ..).bind fun _ => (only_selectPool spaceId).bind fun found => ?_
  split
  · trivial
  · exact (only_ask (.asks q (by simp))).bind fun _ => trivial

theorem only_connectPool (A : DataProviderAdapter P) (user : Token) (spaceId accountRef : String)
    (context : RequestContext) : (connectPool A user spaceId accountRef context).Only
      (Does (.connectPool user spaceId accountRef context)) := by
  refine (only_requireOwner ..).bind fun _ => (only_ask (.asks _ (by simp))).bind fun account => ?_
  refine (Prog.only_raiseIf ..).bind fun _ => (only_ask (.asks _ (by simp))).bind fun plan => ?_
  rw [randomUUID_bind]
  refine .stmt does_randomUUID fun w => Prog.Only.bind ?_ fun _ => only_poolSummary ..
  refine .stmt (.connects _ _ _ _ _ _ ⟨rfl, fun _ => ⟨rfl, rfl⟩⟩) fun w => ?_
  split <;> trivial

theorem only_toPassSummary (invitation : InvitationRow) (spaceName : String) :
    (toPassSummary invitation spaceName : Service P PassSummary).Only (Does q) := by
  unfold toPassSummary
  simp only [dateNow_bind]
  split
  · exact .stmt does_dateNow fun _ => trivial
  · trivial

theorem only_checkAmount (A : DataProviderAdapter P) (user : Token) (spaceId : String)
    (input : CreatePassRequest) : (checkAmount A user spaceId input).Only (Does q) := by
  unfold checkAmount
  split
  · trivial
  · refine (only_selectPool spaceId).bind fun pool => ?_
    split
    · trivial
    · exact (only_poolSummary ..).bind fun _ => Prog.only_raiseIf ..

theorem only_createPass (user : Token) (spaceId : String) (input : CreatePassRequest)
    (context : RequestContext) : (createPass D user spaceId input context).Only
      (Does (.createPass user spaceId input context)) := by
  refine (only_requirePermission ..).bind fun _ => (only_checkAmount ..).bind fun _ => ?_
  have hrandom : (Prog.perform .random Account.World.secret : Account.Service String).Only Noted :=
    (Prog.only_perform _ _).mpr trivial
  have hsecret : (lift (Prog.perform .random Account.World.secret) : Service P String).Only
      (Does (.createPass user spaceId input context)) := hrandom.lift fun _ hw => .notes _ hw
  refine hsecret.bind fun token => ?_
  simp only [randomUUID_bind, newDate_bind]
  refine .stmt does_randomUUID fun w => .stmt does_newDate fun w' => Prog.Only.bind ?_ fun name => ?_
  · refine .stmt (.issues ..) fun w => ?_
    split <;> trivial
  · exact .stmt (does_audit (by simp)) fun _ => (only_toPassSummary ..).bind fun _ => trivial

theorem only_toPassSummaries (rows : List (InvitationRow × String)) :
    (toPassSummaries rows : Service P (List PassSummary)).Only (Does q) := by
  induction rows with
  | nil => trivial
  | cons row rows ih => exact (only_toPassSummary ..).bind fun _ => ih.bind fun _ => trivial

theorem only_listPasses (user : Token) (spaceId : String) :
    (listPasses user spaceId : Service P (List PassSummary)).Only (Does q) := by
  refine (only_requirePermission ..).bind fun _ => ?_
  exact .stmt (.reads ..) fun _ => only_toPassSummaries _

/-! ### Claims -/

section Claims

variable {user : Token} {token : String} {context : RequestContext}

theorem only_openFor (A : DataProviderAdapter P) (i : InvitationRow) (memberId : String) :
    (openFor A user i memberId).Only (Does (.claimPass user token context)) := by
  unfold openFor openAllocation
  split
  · trivial
  rw [select_bind]
  refine .stmt (.reads ..) fun w => ?_
  split
  · trivial
  refine (only_ask (.orders ..)).bind fun _ => ?_
  rw [randomUUID_bind]
  refine .stmt does_randomUUID fun w => Prog.Only.bind ?_ fun _ =>
    .stmt (does_audit (by simp)) fun _ => trivial
  refine .stmt (.opens ..) fun w => ?_
  split <;> trivial

theorem only_join (A : DataProviderAdapter P) (i : InvitationRow) (spaceName : String) :
    (join A user i spaceName context).Only (Does (.claimPass user token context)) := by
  unfold join
  simp only [randomUUID_bind, newDate_bind]
  refine .stmt does_randomUUID fun w => .stmt does_newDate fun w' => Prog.Only.bind ?_ fun member => ?_
  · refine .stmt (.joins ..) fun w => ?_
    split
    · trivial
    · split <;> trivial
  · refine (only_openFor ..).bind fun _ => .stmt (does_audit (by simp)) fun _ => ?_
    exact .stmt (.grants ..) fun _ => trivial

theorem only_redeem (A : DataProviderAdapter P) (i : InvitationRow) (spaceName : String) :
    (redeem A user i spaceName context).Only (Does (.claimPass user token context)) := by
  unfold redeem
  simp only [newDate_bind, Prog.perform_bind]
  refine .stmt does_newDate fun w => .stmt (.redeems ..) fun w' => ?_
  split
  · trivial
  · exact only_join ..

theorem only_claimOpen (A : DataProviderAdapter P) (i : InvitationRow) (space : SpaceRow) :
    (claimOpen A user i space context).Only (Does (.claimPass user token context)) := by
  unfold claimOpen
  rw [select_bind]
  refine .stmt (.reads ..) fun w => ?_
  split
  · trivial
  split
  · exact .stmt (does_audit (by simp)) fun _ => trivial
  split
  · trivial
  · exact only_redeem ..

theorem only_claimPass : (claimPass D user token context).Only (Does (.claimPass user token context)) := by
  unfold claimPass
  rw [select_bind]
  refine .stmt (.reads ..) fun w => ?_
  split
  · trivial
  split
  · trivial
  · rw [dateNow_bind]
    refine .stmt does_dateNow fun w => ?_
    split
    · trivial
    · exact only_claimOpen ..

end Claims

theorem only_revokePass (user : Token) (spaceId passId : String) (context : RequestContext) :
    (revokePass user spaceId passId context : Service P Unit).Only
      (Does (.revokePass user spaceId passId context)) := by
  refine (only_requirePermission ..).bind fun _ => ?_
  rw [select_bind]
  refine .stmt (.reads ..) fun w => ?_
  split
  · trivial
  · rw [newDate_bind]
    refine .stmt does_newDate fun w => Prog.Only.bind ?_ fun _ =>
      .stmt (does_audit (by simp)) fun _ => trivial
    refine .stmt (.revokesPass ..) fun w => ?_
    split <;> trivial

/-! ### Allocations -/

theorem only_updateAllocationRow {id : String} {data : AllocationRow → AllocationRow}
    (h : Does q (.updateAllocation id data)) :
    (updateAllocationRow id data : Service P AllocationRow).Only (Does q) := by
  refine .stmt h fun w => ?_
  split <;> trivial

theorem only_storeEvents (hq : q.Refreshes) (C : Calendar) (allocationId : String) (today : Date)
    (events : List ProviderUsageEvent) (used : Usage) :
    (storeEvents C allocationId today events used : Service P Usage).Only (Does q) := by
  induction events generalizing used with
  | nil => trivial
  | cons event events ih => exact .stmt (.stores hq _) fun _ => ih _

theorem only_pullUsage (hq : q.Refreshes) (allocationId : String) (a : AllocationRow) (today : Date) :
    (pullUsage D allocationId a today).Only (Does q) := by
  unfold pullUsage
  split
  · exact (only_ask (.asks q (by simp))).bind fun _ => only_storeEvents hq ..
  · trivial

theorem only_saveUsage (hq : q.Refreshes) (allocationId : String) (a : AllocationRow) (used : Usage)
    (today : Date) : (saveUsage allocationId a used today : Service P AllocationRow).Only (Does q) := by
  have hupdate : ∀ data, Does q (.updateTotals allocationId data) →
      (updateTotals allocationId data : Service P AllocationRow).Only (Does q) := by
    intro data h
    refine .stmt h fun w => ?_
    split
    · trivial
    · split <;> trivial
  unfold saveUsage totalsOf
  split
  · exact .stmt does_newDate fun _ => (hupdate _ (.stops hq ..)).bind fun _ =>
      .stmt (.publishes hq _) fun _ => trivial
  · exact (hupdate _ (.counts hq ..)).bind fun _ => .stmt (.publishes hq _) fun _ => trivial

theorem only_refreshUsage (hq : q.Refreshes) (allocationId : String) :
    (refreshUsage D allocationId).Only (Does q) := by
  unfold refreshUsage
  rw [select_bind]
  refine .stmt (.reads ..) fun w => ?_
  split
  · trivial
  split
  · trivial
  rw [dateNow_bind]
  refine .stmt does_dateNow fun w => ?_
  split
  · exact only_updateAllocationRow (.lapses hq _)
  · exact .stmt does_newDate fun _ => (only_pullUsage hq ..).bind fun _ => only_saveUsage hq ..

theorem only_myAllocation (user : Token) (spaceId : String) :
    (myAllocation D user spaceId).Only (Does (.myAllocation user spaceId)) := by
  refine (only_requirePermission ..).bind fun _ => ?_
  rw [select_bind]
  refine .stmt (.reads ..) fun w => ?_
  split
  · trivial
  · have hq : (Request.myAllocation user spaceId).Refreshes := trivial
    exact (only_refreshUsage hq _).bind fun _ => trivial

theorem only_accessRows (hq : q.Refreshes) (members : List MemberView) :
    (accessRows D members).Only (Does q) := by
  induction members with
  | nil => trivial
  | cons m members ih =>
    refine Prog.Only.bind ?_ fun _ => ih.bind fun _ => trivial
    unfold refreshFor
    split
    · trivial
    · exact (only_refreshUsage hq _).map _

theorem only_memberAccess (user : Token) (spaceId : String) :
    (memberAccess D user spaceId).Only (Does (.memberAccess user spaceId)) := by
  have hq : (Request.memberAccess user spaceId).Refreshes := trivial
  exact (only_requirePermission ..).bind fun _ => .stmt (.reads ..) fun _ => only_accessRows hq _

theorem only_requireAllocation (spaceId memberId : String) :
    (requireAllocation spaceId memberId : Service P AllocationRow).Only (Does q) := by
  unfold requireAllocation
  rw [select_bind]
  refine .stmt (.reads ..) fun w => ?_
  split
  · trivial
  · split <;> trivial

theorem only_pauseAllocation (user : Token) (spaceId memberId : String) (paused : Bool)
    (context : RequestContext) :
    (pauseAllocation user spaceId memberId paused context : Service P AllocationStatus).Only
      (Does (.pauseAllocation user spaceId memberId paused context)) := by
  refine (only_requirePermission ..).bind fun _ => (only_requireAllocation ..).bind fun a => ?_
  refine Prog.Only.bind ?_ fun pausedAt => (only_updateAllocationRow (.pauses ..)).bind fun _ =>
    .stmt (does_audit (by simp)) fun _ => trivial
  unfold pausedSince
  split
  · exact .stmt does_newDate fun _ => trivial
  · trivial

theorem only_updateAllocation (user : Token) (spaceId memberId : String) (input : UpdateAllocationRequest)
    (context : RequestContext) :
    (updateAllocation user spaceId memberId input context : Service P Unit).Only
      (Does (.updateAllocation user spaceId memberId input context)) :=
  (only_requirePermission ..).bind fun _ => (only_requireAllocation ..).bind fun _ =>
    (Prog.only_raiseIf ..).bind fun _ => (only_updateAllocationRow (.limits ..)).bind fun _ =>
      .stmt (does_audit (by simp)) fun _ => trivial

theorem only_revokeAccess (user : Token) (spaceId memberId : String) (context : RequestContext) :
    (revokeAccess user spaceId memberId context : Service P Unit).Only
      (Does (.revokeAccess user spaceId memberId context)) := by
  refine (only_requirePermission ..).bind fun _ => ?_
  rw [select_bind]
  refine .stmt (.reads ..) fun w => ?_
  split
  · trivial
  split
  · trivial
  split
  · trivial
  refine Prog.Only.bind ?_ fun _ => Prog.Only.bind ?_ fun _ =>
    .stmt (.drops ..) fun _ => .stmt (does_audit (by simp)) fun _ => trivial
  · unfold revokeAllocation
    split
    · trivial
    · exact .stmt does_newDate fun _ => (only_updateAllocationRow (.revokes ..)).bind fun _ => trivial
  · refine .stmt (.bars ..) fun w => ?_
    split <;> trivial

/-- **What a request may do.** -/
theorem only_handler (D : Deployment P) (F : Account.Platform) (q : Request) :
    (handler D F q).Only (Does q) := by
  cases q with
  | account q => exact ((Account.only_handler q).lift fun _ hw => .serves q hw).map _
  | ensureDefaultSpace user context =>
    have hq : (Request.ensureDefaultSpace user context).Opens user := rfl
    exact (only_ensureDefaultSpace hq _).map _
  | createSpace user name context =>
    have hq : (Request.createSpace user name context).Opens user := rfl
    exact (only_create hq ..).map _
  | rename user spaceId name context => exact (only_rename ..).map _
  | connectPool user spaceId accountRef context => exact (only_connectPool ..).map _
  | poolSummary user spaceId => exact (only_poolSummary ..).map _
  | createPass user spaceId input context => exact (only_createPass ..).map _
  | listPasses user spaceId => exact (only_listPasses ..).map _
  | claimPass user token context => exact only_claimPass.map _
  | revokePass user spaceId passId context => exact (only_revokePass ..).map _
  | myAllocation user spaceId => exact (only_myAllocation ..).map _
  | memberAccess user spaceId => exact (only_memberAccess ..).map _
  | pauseAllocation user spaceId memberId paused context => exact (only_pauseAllocation ..).map _
  | updateAllocation user spaceId memberId input context => exact (only_updateAllocation ..).map _
  | revokeAccess user spaceId memberId context => exact (only_revokeAccess ..).map _
  | disconnect socket => exact .stmt (.disconnects socket) fun _ => trivial

/-! ## A Space with a pool -/

/-- A provider with a balance of 100 bytes that takes every order and reports no usage. -/
def quietProvider : DataProviderAdapter Unit where
  name := "demo"
  isReal := false
  verifyAccount ref _ := .ok ⟨ref, true, none⟩
  getBalance _ _ := .ok 100
  getPlan _ _ := .ok "Demo 100 GB monthly"
  createAllocation input _ := .ok ⟨"demo-1", .active, input.totalBytes, input.dailyBytes, input.expiresAt⟩
  getUsage _ _ _ := .ok []
  effect _ p := p

theorem utc_idem (d : Int) : (d - d % 86400000) - (d - d % 86400000) % 86400000 = d - d % 86400000 := by
  omega

/-- Days in UTC. -/
def utc : Calendar := ⟨fun d => d - d % 86400000, utc_idem⟩

/-- The services with that provider. -/
def home : Deployment Unit := ⟨quietProvider, id, utc⟩

/-- The other services, which nothing is asked of. -/
def frontDesk : Account.Platform where
  crypto := Account.plainCrypto
  jwt := ⟨fun _ _ _ => "", fun _ _ => none⟩
  config := ⟨900, 30, 1⟩
  hashSecret := id
  signer := ⟨"key", fun _ => ""⟩
  ice := ⟨fun _ _ => [], false⟩
  schemas := ⟨fun _ => none, fun _ => none, fun _ => none, fun _ => none, fun _ => none, fun _ => none⟩

/-- The owner of the Space. -/
def ada : Token := ⟨"ada", by decide⟩

/-- A guest. -/
def ben : Token := ⟨"ben", by decide⟩

/-- A Space with a pool and no members but its owner. -/
def quietSpace : World Unit where
  account := { Account.plainWorld with
    api := { Account.plainWorld.api with clock := 1000 }
    users := [⟨"ada", "Ada", "ada@example.com", "", true, 0, none⟩,
      ⟨"ben", "Ben", "ben@example.com", "", true, 0, none⟩] }
  spaces := [⟨"space", "ada", "My Home", 0⟩]
  members := [⟨"m1", "space", ada, "owner", ownerPermissions, false, none, 0⟩]
  invitations := []
  pools := [⟨"pool", "space", "demo", "08031234567", none⟩]
  allocations := []
  usageEvents := []
  provider := ()
  notices := []
  refusesTotals := false

/-- A pass of the owner for so many bytes. -/
def passOf (id token : String) (totalBytes : Option Nat) : InvitationRow :=
  { id := id
    spaceId := "space"
    createdById := "ada"
    inviteeEmail := none
    tokenHash := token
    permissions := dataOnlyPermissions
    status := .pending
    allowResharing := false
    expiresAt := 2000
    claimedAt := none
    claimedByUserId := none
    revokedAt := none
    createdAt := 0
    totalDataBytes := totalBytes
    dailyDataBytes := none }

/-- Nothing is known of the client. -/
def noContext : RequestContext := ⟨none, none, none⟩

/-- A request, and so many statements of its thread. -/
def served (k : Nat) (q : Request) (statements : Nat) : List (Move Request (Outside Unit)) :=
  .call q :: List.replicate statements (.step k)

end Sharing
