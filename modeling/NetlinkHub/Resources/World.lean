import NetlinkHub.Account.Machine
import Mathlib.Data.Rat.Defs

/-! # Shared resources, transfers and print jobs

The tables behind `/files` and `/printers`, beside those of the account services, whose programs run in this
world unchanged (`lift`). A resource is one for each agent, kind and target: both the report of an agent and
the approval of an owner upsert it under that key. -/

namespace Resources

open Api (AuditRow Date HttpException)
open Concurrent (Prog)
open Table (Op)

/-! ## Rows -/

/-- `ResourceKind`. -/
inductive ResourceKind where
  | folder
  | printer
  deriving DecidableEq, Repr

/-- A value in the metadata of a resource. -/
inductive Scalar where
  | text (s : String)
  | number (x : ℚ)
  | flag (b : Bool)
  | null
  deriving DecidableEq

/-- `Boolean(...)`. -/
def Scalar.truthy : Scalar → Bool
  | text s => s ≠ ""
  | number x => x ≠ 0
  | flag b => b
  | null => false

/-- Free-form detail of a resource: the fields of an object, with distinct names. -/
abbrev Metadata := List (String × Scalar)

/-- What a resource is upserted by. -/
structure ResourceKey where
  agentId : String
  kind : ResourceKind
  target : String
  deriving DecidableEq, Repr

/-- Something that an agent offers: a folder, by its root path, or a printer, by its name. -/
structure ResourceRow where
  id : String
  spaceId : String
  agentId : String
  kind : ResourceKind
  name : String
  target : String
  enabled : Bool
  metadata : Option Metadata
  createdAt : Date
  deriving DecidableEq

/-- The key of a resource. -/
def ResourceRow.key (r : ResourceRow) : ResourceKey := ⟨r.agentId, r.kind, r.target⟩

/-- `isReadOnly`. -/
def isReadOnly (metadata : Option Metadata) : Bool :=
  metadata.any fun fields => (fields.lookup "readOnly").any Scalar.truthy

/-- `TRANSFER_DIRECTIONS`. -/
inductive TransferDirection where
  | download
  | upload
  deriving DecidableEq, Repr

/-- `TRANSFER_STATES`. -/
inductive TransferState where
  | pending
  | active
  | completed
  | failed
  | cancelled
  deriving DecidableEq, Repr

/-- The transfer has come to an end. -/
def TransferState.Settled : TransferState → Prop
  | completed => True
  | failed => True
  | cancelled => True
  | _ => False

instance : DecidablePred TransferState.Settled := fun s => by
  cases s <;> unfold TransferState.Settled <;> infer_instance

/-- A brokered transfer. -/
structure TransferRow where
  id : String
  spaceId : String
  resourceId : String
  agentId : String
  requestedById : String
  direction : TransferDirection
  path : String
  state : TransferState
  sizeBytes : Option Nat
  transferredBytes : Nat
  checksum : Option String
  detail : Option String
  createdAt : Date
  completedAt : Option Date
  deriving DecidableEq, Repr

/-- `PAPER_SIZES`. -/
inductive PaperSize where
  | a4
  | a5
  | letter
  | legal
  deriving DecidableEq, Repr

/-- The text of a paper size. -/
def PaperSize.text : PaperSize → String
  | a4 => "A4"
  | a5 => "A5"
  | letter => "Letter"
  | legal => "Legal"

/-- `PRINT_JOB_STATES`. -/
inductive PrintJobState where
  | queued
  | sent
  | printing
  | completed
  | failed
  deriving DecidableEq, Repr

/-- The print job has come to an end. -/
def PrintJobState.Settled : PrintJobState → Prop
  | completed => True
  | failed => True
  | _ => False

instance : DecidablePred PrintJobState.Settled := fun s => by
  cases s <;> unfold PrintJobState.Settled <;> infer_instance

/-- The text of a state. -/
def PrintJobState.text : PrintJobState → String
  | queued => "queued"
  | sent => "sent"
  | printing => "printing"
  | completed => "completed"
  | failed => "failed"

/-- A print job, with the PDF until the agent takes it. -/
structure PrintJobRow where
  id : String
  spaceId : String
  resourceId : String
  agentId : String
  requestedById : String
  printerName : String
  documentName : String
  document : Option String
  copies : Nat
  colour : Bool
  paperSize : PaperSize
  state : PrintJobState
  detail : Option String
  createdAt : Date
  collectedAt : Option Date
  completedAt : Option Date
  deriving DecidableEq, Repr

/-! ## The database and its statements -/

/-- Everything a statement can read or write. -/
structure World where
  /-- The tables of the other services, the audit log, the clock and the random source. -/
  account : Account.World
  resources : List ResourceRow
  transfers : List TransferRow
  printJobs : List PrintJobRow

/-- The tables, for statements that only read. -/
inductive TableName where
  | agents
  | resources
  | transfers
  | printJobs
  deriving DecidableEq, Repr

/-- `update` of an upsert of a resource: what is not given stays. -/
structure ResourceUpdate where
  name : String
  enabled : Option Bool
  metadata : Option Metadata
  deriving DecidableEq

/-- The row after the update. -/
def ResourceUpdate.apply (u : ResourceUpdate) (r : ResourceRow) : ResourceRow :=
  { r with
    name := u.name
    enabled := u.enabled.getD r.enabled
    metadata := u.metadata <|> r.metadata }

/-- The row of a resource after a change of sharing. -/
def ResourceRow.switched (enabled : Bool) (r : ResourceRow) : ResourceRow := { r with enabled := enabled }

/-- What a report of progress writes. -/
structure TransferUpdate where
  transferredBytes : Nat
  state : TransferState
  checksum : Option String
  detail : Option String
  completedAt : Option Date
  deriving DecidableEq, Repr

/-- The row after the update. -/
def TransferUpdate.apply (u : TransferUpdate) (t : TransferRow) : TransferRow :=
  { t with
    transferredBytes := u.transferredBytes
    state := u.state
    checksum := u.checksum
    detail := u.detail
    completedAt := u.completedAt }

/-- What the result of a print job writes. The document is dropped as well. -/
structure PrintJobUpdate where
  state : PrintJobState
  detail : Option String
  completedAt : Option Date
  deriving DecidableEq, Repr

/-- The row after the update. -/
def PrintJobUpdate.apply (u : PrintJobUpdate) (j : PrintJobRow) : PrintJobRow :=
  { j with state := u.state, detail := u.detail, document := none, completedAt := u.completedAt }

/-- What a statement does to the database. -/
inductive Write where
  /-- A statement of another service. -/
  | account (w : Account.Write)
  /-- A read, also one with `include`. -/
  | select (table : TableName)
  /-- `resource.upsert`: by the key of the row to create. -/
  | upsertResource (create : ResourceRow) (update : ResourceUpdate)
  /-- `resource.update`: whether it is enabled. -/
  | enableResource (id : String) (enabled : Bool)
  | createTransfer (row : TransferRow)
  | updateTransfer (id : String) (data : TransferUpdate)
  /-- `fileTransfer.findMany` of the work of an agent. -/
  | findTransfers (agentId : String)
  /-- `fileTransfer.updateMany`: the transfers that were handed over. -/
  | activateTransfers (ids : List String)
  | createPrintJob (row : PrintJobRow)
  | updatePrintJob (id : String) (data : PrintJobUpdate)
  /-- `printJob.findMany` of the work of an agent. -/
  | findPrintJobs (agentId : String)
  /-- `printJob.updateMany`: the print jobs that were handed over. -/
  | sendPrintJobs (ids : List String) (now : Date)

/-- The row of a transfer that was handed over. -/
def TransferRow.handedOver (t : TransferRow) : TransferRow := { t with state := .active }

/-- The row of a print job that was handed over. -/
def PrintJobRow.handedOver (now : Date) (j : PrintJobRow) : PrintJobRow :=
  { j with state := .sent, collectedAt := some now, document := none }

/-- `agent.findUnique` by identifier. -/
def findAgent (id : String) (w : World) : Option Account.AgentRow := w.account.agents.find? (·.id = id)

/-- A resource can be created: its identifier is free, and its agent is there. -/
def World.admitsResource (w : World) (row : ResourceRow) : Bool :=
  ¬ w.resources.any (·.id = row.id) ∧ (findAgent row.agentId w).isSome

/-- The database after a statement. -/
def exec : Write → World → World
  | .account write, w => { w with account := Account.exec write w.account }
  | .select _, w => w
  | .upsertResource create update, w =>
    if w.resources.any (·.key = create.key) then
      { w with resources := (Op.update (·.key = create.key) update.apply).apply w.resources }
    else if w.admitsResource create then { w with resources := w.resources ++ [create] }
    else w
  | .enableResource id enabled, w =>
    { w with resources := (Op.update (·.id = id) (ResourceRow.switched enabled)).apply w.resources }
  | .createTransfer row, w =>
    { w with transfers := (Op.insert (fun t => t.id = row.id) row).apply w.transfers }
  | .updateTransfer id data, w =>
    { w with transfers := (Op.update (·.id = id) data.apply).apply w.transfers }
  | .findTransfers _, w => w
  | .activateTransfers ids, w =>
    { w with transfers := (Op.update (·.id ∈ ids) TransferRow.handedOver).apply w.transfers }
  | .createPrintJob row, w =>
    { w with printJobs := (Op.insert (fun j => j.id = row.id) row).apply w.printJobs }
  | .updatePrintJob id data, w =>
    { w with printJobs := (Op.update (·.id = id) data.apply).apply w.printJobs }
  | .findPrintJobs _, w => w
  | .sendPrintJobs ids now, w =>
    { w with printJobs := (Op.update (·.id ∈ ids) (PrintJobRow.handedOver now)).apply w.printJobs }

/-- A call of a service. -/
abbrev Service (α : Type) := Prog World Write HttpException α

/-- A `SELECT`. -/
def select {α : Type} (table : TableName) (answer : World → α) : Service α :=
  .perform (.select table) answer

/-- A program of another service. -/
def lift {α : Type} (p : Account.Service α) : Service α := p.lift World.account .account

/-- `new Date()`. -/
def newDate : Service Date := lift Account.newDate

/-- `randomUUID()`. -/
def randomUUID : Service String := lift Account.randomUUID

/-- `AuditService.record`. -/
def record (row : AuditRow) : Service Unit := lift (Account.record row)

/-- `requirePermission`. -/
def requirePermission (userId spaceId permission : String) (context : Option Api.RequestContext) :
    Service Api.MemberRow :=
  lift (Account.lift (Api.requirePermission userId spaceId permission context))

/-- `requireOwner`. -/
def requireOwner (userId spaceId : String) (context : Option Api.RequestContext) : Service Unit :=
  lift (Account.lift (Api.requireOwner userId spaceId context))

@[simp] theorem select_bind {α β : Type} (table : TableName) (answer : World → α) (f : α → Service β) :
    (select table answer >>= f) = .stmt (.select table) fun w => f (answer w) := rfl

@[simp] theorem newDate_bind {β : Type} (f : Date → Service β) :
    (newDate >>= f) = .stmt (.account (.api .clock)) fun w => f w.account.api.clock := rfl

@[simp] theorem randomUUID_bind {β : Type} (f : String → Service β) :
    (randomUUID >>= f) = .stmt (.account (.api .random)) fun w => f w.account.api.uuid.text := rfl

@[simp] theorem record_bind {β : Type} (row : AuditRow) (f : Unit → Service β) :
    (record row >>= f) = .stmt (.account (.api (.audit row))) fun _ => f () := rfl

end Resources
