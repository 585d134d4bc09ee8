import NetlinkHub.Resources.World

/-! # Sharing, files and printing

`AgentsService` where it reports and shares resources, and `FilesService`: the approval of a folder,
transfers, operations on files, print jobs, and the work that an agent collects. -/

namespace Resources

open Account (AgentPrincipal)
open Api (Date HttpException RequestContext badRequest conflict forbidden notFound toISOString)
open Concurrent (Prog)

/-! ## Agents and their devices -/

/-- `agent.findUnique` by device. -/
def findAgentByDevice (deviceId : String) (w : World) : Option Account.AgentRow :=
  w.account.agents.find? (·.deviceId = deviceId)

/-- The device of an agent. -/
def deviceOf (agent : Account.AgentRow) (w : World) : Option Account.DeviceRow :=
  w.account.devices.find? (·.id = agent.deviceId)

/-- The device of an agent is revoked. -/
def deviceRevoked (agent : Account.AgentRow) (w : World) : Bool :=
  ((deviceOf agent w).bind (·.revokedAt)).isSome

/-- The name of an agent's device. -/
def agentName (agentId : String) (w : World) : String :=
  (((findAgent agentId w).bind fun agent => deviceOf agent w).map (·.name)).getD ""

/-- A resource with its agent, and whether the device of it is revoked. -/
structure Offer where
  resource : ResourceRow
  agent : Account.AgentRow
  revoked : Bool

/-- `resource.findUnique`, with its agent and device. -/
def findOffer (resourceId : String) (w : World) : Option Offer := do
  let resource ← w.resources.find? (·.id = resourceId)
  let agent ← findAgent resource.agentId w
  some ⟨resource, agent, deviceRevoked agent w⟩

/-! ## Resources -/

/-- `resource.upsert`: the row after it. -/
def upsertResource (create : ResourceRow) (update : ResourceUpdate) : Service ResourceRow :=
  .stmt (.upsertResource create update) fun w =>
    match w.resources.find? (·.key = create.key) with
    | some row => .done (update.apply row)
    | none => if w.admitsResource create then .done create else .raise Api.databaseFault

/-- One resource in the report of an agent. -/
structure ReportedResource where
  kind : ResourceKind
  name : String
  target : String
  metadata : Option Metadata
  deriving DecidableEq

/-- `AgentResourceReport`. -/
structure AgentResourceReport where
  deviceId : String
  resources : List ReportedResource
  deriving DecidableEq

/-- The row of a resource that an agent reports for the first time. It is not shared. -/
def ReportedResource.create (resource : ReportedResource) (agent : Account.AgentRow) (id : String)
    (createdAt : Date) : ResourceRow :=
  ⟨id, agent.spaceId, agent.id, resource.kind, resource.name, resource.target, false, resource.metadata,
    createdAt⟩

/-- What a report writes to a resource that is there. -/
def ReportedResource.update (resource : ReportedResource) : ResourceUpdate :=
  ⟨resource.name, none, resource.metadata⟩

/-- One round of the loop of `reportResources`. -/
def reportResource (agent : Account.AgentRow) (resource : ReportedResource) : Service Unit := do
  let id ← randomUUID
  let createdAt ← newDate
  let _ ← upsertResource (resource.create agent id createdAt) resource.update
  .done ()

/-- The loop of `reportResources`. -/
def reportEach (agent : Account.AgentRow) : List ReportedResource → Service Unit
  | [] => .done ()
  | resource :: resources => do
    reportResource agent resource
    reportEach agent resources

/-- `reportResources`: how many were accepted. -/
def reportResources (principal : AgentPrincipal) (input : AgentResourceReport) : Service Nat :=
  if input.deviceId ≠ principal.deviceId then
    .raise (badRequest "This report does not match the signing device.")
  else do
    let agent ← select .agents (findAgentByDevice principal.deviceId)
    match agent with
    | none => .raise (notFound "This installation is not enrolled in a Space.")
    | some agent => do
      reportEach agent input.resources
      .done input.resources.length

/-- The text of a kind. -/
def ResourceKind.text : ResourceKind → String
  | folder => "folder"
  | printer => "printer"

/-- `ResourceSummary`. -/
structure ResourceSummary where
  id : String
  spaceId : String
  agentId : String
  agentName : String
  kind : ResourceKind
  name : String
  target : String
  enabled : Bool
  metadata : Option Metadata
  createdAt : String
  deriving DecidableEq

/-- `setResourceEnabled`. -/
def setResourceEnabled (userId spaceId resourceId : String) (enabled : Bool) (context : RequestContext) :
    Service ResourceSummary := do
  requireOwner userId spaceId (some context)
  let resource ← select .resources fun w => w.resources.find? (·.id = resourceId)
  match resource with
  | none => .raise (notFound "That resource was not found.")
  | some resource =>
    if resource.spaceId ≠ spaceId then .raise (notFound "That resource was not found.")
    else do
      let updated ← Prog.perform (.enableResource resourceId enabled) fun w =>
        (w.resources.find? (·.id = resourceId)).map fun r => (r.switched enabled, agentName r.agentId w)
      match updated with
      | none => .raise Api.databaseFault
      | some (updated, agentName) => do
        record ⟨if enabled then "resource.enabled" else "resource.disabled", "success", some userId, none, none,
          some spaceId, some context,
          [("kind", .text resource.kind.text), ("name", .text resource.name)]⟩
        .done ⟨updated.id, updated.spaceId, updated.agentId, agentName, updated.kind, updated.name,
          updated.target, updated.enabled, updated.metadata, toISOString updated.createdAt⟩

/-! ## Approved folders -/

/-- `ApproveFolderRequest`. -/
structure ApproveFolderRequest where
  agentId : String
  name : String
  path : String
  readOnly : Bool
  deriving DecidableEq, Repr

/-- `ApprovedFolder`. -/
structure ApprovedFolder where
  resourceId : String
  agentId : String
  agentName : String
  name : String
  target : String
  readOnly : Bool
  agentOnline : Bool
  deriving DecidableEq, Repr

/-- The metadata of an approval. -/
def ApproveFolderRequest.metadata (input : ApproveFolderRequest) : Metadata :=
  [("readOnly", .flag input.readOnly)]

/-- The row of a folder that was not there before its approval. -/
def ApproveFolderRequest.create (input : ApproveFolderRequest) (spaceId id : String) (createdAt : Date) :
    ResourceRow :=
  ⟨id, spaceId, input.agentId, .folder, input.name, input.path, true, some input.metadata, createdAt⟩

/-- What an approval writes to a folder that is there. -/
def ApproveFolderRequest.update (input : ApproveFolderRequest) : ResourceUpdate :=
  ⟨input.name, some true, some input.metadata⟩

/-- `approveFolder`. -/
def approveFolder (userId spaceId : String) (input : ApproveFolderRequest) (context : RequestContext) :
    Service ApprovedFolder := do
  requireOwner userId spaceId (some context)
  let found ← select .agents fun w =>
    (findAgent input.agentId w).map fun agent => (agent, deviceRevoked agent w, agentName agent.id w)
  match found with
  | none => .raise (notFound "That computer was not found in this Space.")
  | some (agent, revoked, agentName) =>
    if agent.spaceId ≠ spaceId ∨ revoked then
      .raise (notFound "That computer was not found in this Space.")
    else do
      let id ← randomUUID
      let createdAt ← newDate
      let resource ← upsertResource (input.create spaceId id createdAt) input.update
      record ⟨"resource.enabled", "success", some userId, none, none, some spaceId, some context,
        [("kind", .text "folder"), ("name", .text input.name), ("readOnly", .flag input.readOnly)]⟩
      let now ← newDate
      .done ⟨resource.id, agent.id, agentName, resource.name, resource.target, input.readOnly,
        Api.online agent.lastHeartbeatAt now⟩

/-- A resource of a kind that is shared in a Space, with its agent. -/
def requireShared (kind : ResourceKind) (message spaceId resourceId : String) :
    Service (ResourceRow × Account.AgentRow) := do
  let found ← select .resources (findOffer resourceId)
  match found with
  | none => .raise (notFound message)
  | some offer =>
    if offer.resource.spaceId ≠ spaceId ∨ offer.resource.kind ≠ kind ∨ ¬ offer.resource.enabled ∨ offer.revoked then
      .raise (notFound message)
    else .done (offer.resource, offer.agent)

/-- `requireFolder`. -/
def requireFolder (spaceId resourceId : String) : Service (ResourceRow × Account.AgentRow) :=
  requireShared .folder "That folder is not shared in this Space." spaceId resourceId

/-- The agent has sent a heartbeat of late. -/
def requireOnline (agent : Account.AgentRow) (message : String) : Service Unit := do
  let now ← newDate
  Prog.raiseIf (¬ Api.online agent.lastHeartbeatAt now) (conflict message)

/-! ## Transfers -/

/-- `StartTransferRequest`. Sizes are given in decimal. -/
structure StartTransferRequest where
  resourceId : String
  direction : TransferDirection
  path : String
  sizeBytes : Option Nat
  offsetBytes : Nat
  deriving DecidableEq, Repr

/-- `Transfer`. -/
structure Transfer where
  id : String
  spaceId : String
  resourceId : String
  agentId : String
  direction : TransferDirection
  path : String
  state : TransferState
  sizeBytes : Option String
  transferredBytes : String
  checksum : Option String
  createdAt : String
  completedAt : Option String
  detail : Option String
  deriving DecidableEq, Repr

/-- `toTransfer`. -/
def toTransfer (t : TransferRow) : Transfer :=
  ⟨t.id, t.spaceId, t.resourceId, t.agentId, t.direction, t.path, t.state, t.sizeBytes.map toString,
    toString t.transferredBytes, t.checksum, toISOString t.createdAt, t.completedAt.map toISOString, t.detail⟩

/-- The text of a direction. -/
def TransferDirection.text : TransferDirection → String
  | download => "download"
  | upload => "upload"

/-- The permission that a direction needs. -/
def TransferDirection.permission : TransferDirection → String
  | download => "files.read"
  | upload => "files.upload"

/-- What is recorded of a transfer. -/
def TransferDirection.action : TransferDirection → String
  | download => "file.downloaded"
  | upload => "file.uploaded"

/-- `fileTransfer.create`. -/
def createTransfer (row : TransferRow) : Service TransferRow :=
  .stmt (.createTransfer row) fun w =>
    if w.transfers.any (·.id = row.id) then .raise Api.databaseFault else .done row

/-- `startTransfer`. -/
def startTransfer (userId spaceId : String) (input : StartTransferRequest) (context : RequestContext) :
    Service Transfer := do
  let _ ← requirePermission userId spaceId input.direction.permission (some context)
  let (resource, agent) ← requireFolder spaceId input.resourceId
  Prog.raiseIf (input.direction = .upload ∧ isReadOnly resource.metadata)
    (forbidden "That folder is shared read-only.")
  requireOnline agent "That computer is not online."
  let id ← randomUUID
  let createdAt ← newDate
  let transfer ← createTransfer ⟨id, spaceId, resource.id, resource.agentId, userId, input.direction, input.path,
    .pending, input.sizeBytes, input.offsetBytes, none, none, createdAt, none⟩
  record ⟨input.direction.action, "success", some userId, none, none, some spaceId, some context,
    [("path", .text input.path), ("direction", .text input.direction.text),
      ("resumedFrom", .text (toString input.offsetBytes))]⟩
  .done (toTransfer transfer)

/-- Who reports the progress of a transfer: its agent, or the user who has started it. -/
inductive Reporter where
  | agent (principal : AgentPrincipal)
  | user (userId : String)
  deriving DecidableEq, Repr

/-- `TransferProgress`. -/
structure TransferProgress where
  transferId : String
  transferredBytes : Nat
  state : TransferState
  checksum : Option String
  detail : Option String
  deriving DecidableEq, Repr

/-- The reporter is at one end of the transfer. -/
def requireEnd (reporter : Reporter) (transfer : TransferRow) : Service Unit :=
  match reporter with
  | .agent principal => do
    let agent ← select .agents (findAgentByDevice principal.deviceId)
    Prog.raiseIf (¬ agent.any (·.id = transfer.agentId))
      (forbidden "That transfer does not belong to this computer.")
  | .user userId => Prog.raiseIf (transfer.requestedById ≠ userId) (forbidden "That transfer was not started by you.")

/-- `new Date()` of what has come to an end. -/
def completedAt (settled : Bool) : Service (Option Date) :=
  if settled then some <$> newDate else .done none

/-- `recordProgress`. -/
def recordProgress (reporter : Reporter) (input : TransferProgress) : Service Transfer := do
  let found ← select .transfers fun w => w.transfers.find? (·.id = input.transferId)
  match found with
  | none => .raise (notFound "That transfer was not found.")
  | some transfer => do
    requireEnd reporter transfer
    let completed ← completedAt input.state.Settled
    let data : TransferUpdate := ⟨input.transferredBytes, input.state, input.checksum <|> transfer.checksum,
      input.detail <|> transfer.detail, completed⟩
    .stmt (.updateTransfer transfer.id data) fun w => match w.transfers.find? (·.id = transfer.id) with
      | none => .raise Api.databaseFault
      | some row => .done (toTransfer (data.apply row))

/-! ## Work -/

/-- A transfer that an agent is to serve. -/
structure WorkTransfer where
  id : String
  direction : TransferDirection
  rootPath : String
  resourceId : String
  readOnly : Bool
  path : String
  offsetBytes : String
  deriving DecidableEq, Repr

/-- A print job that an agent is to run. -/
structure WorkPrintJob where
  id : String
  printerName : String
  documentName : String
  documentBase64 : Option String
  copies : Nat
  colour : Bool
  paperSize : PaperSize
  deriving DecidableEq, Repr

/-- What `agentWork` answers. -/
structure AgentWork where
  transfers : List WorkTransfer
  printJobs : List WorkPrintJob
  deriving DecidableEq, Repr

/-- The transfers that wait for an agent, oldest first, at most twenty. -/
def waitingTransfers (agentId : String) (w : World) : List TransferRow :=
  ((w.transfers.filter fun t => t.agentId = agentId ∧ t.state = .pending).insertionSort
    fun t u => t.createdAt ≤ u.createdAt).take 20

/-- The print jobs that wait for an agent, oldest first, at most five. -/
def waitingPrintJobs (agentId : String) (w : World) : List PrintJobRow :=
  ((w.printJobs.filter fun j => j.agentId = agentId ∧ j.state = .queued).insertionSort
    fun j k => j.createdAt ≤ k.createdAt).take 5

/-- A transfer with its resource, as the agent is given it. -/
def toWorkTransfer (w : World) (t : TransferRow) : WorkTransfer :=
  let resource := w.resources.find? (·.id = t.resourceId)
  ⟨t.id, t.direction, (resource.map (·.target)).getD "", t.resourceId, isReadOnly (resource.bind (·.metadata)), t.path,
    toString t.transferredBytes⟩

/-- A print job, as the agent is given it. -/
def toWorkPrintJob (j : PrintJobRow) : WorkPrintJob :=
  ⟨j.id, j.printerName, j.documentName, j.document, j.copies, j.colour, j.paperSize⟩

/-- The transfers that an agent is handed over. -/
def collectTransfers (agentId : String) : Service (List WorkTransfer) := do
  let transfers ← Prog.perform (.findTransfers agentId) fun w =>
    (waitingTransfers agentId w).map (toWorkTransfer w)
  if transfers = [] then .done []
  else do
    Prog.perform (.activateTransfers (transfers.map (·.id))) fun _ => ()
    .done transfers

/-- The print jobs that an agent is handed over. -/
def collectPrintJobs (agentId : String) : Service (List WorkPrintJob) := do
  let printJobs ← Prog.perform (.findPrintJobs agentId) (waitingPrintJobs agentId)
  if printJobs = [] then .done []
  else do
    let now ← newDate
    Prog.perform (.sendPrintJobs (printJobs.map (·.id)) now) fun _ => ()
    .done (printJobs.map toWorkPrintJob)

/-- `agentWork`. -/
def agentWork (principal : AgentPrincipal) : Service AgentWork := do
  let agent ← select .agents (findAgentByDevice principal.deviceId)
  match agent with
  | none => .done ⟨[], []⟩
  | some agent => do
    let transfers ← collectTransfers agent.id
    let printJobs ← collectPrintJobs agent.id
    .done ⟨transfers, printJobs⟩

/-! ## File operations -/

/-- What is asked of the files in a folder. -/
inductive FileVerb where
  | mkdir
  | rename
  | delete
  deriving DecidableEq, Repr

/-- The text of it. -/
def FileVerb.text : FileVerb → String
  | mkdir => "mkdir"
  | rename => "rename"
  | delete => "delete"

/-- The permission that it needs. -/
def FileVerb.permission : FileVerb → String
  | delete => "files.delete"
  | _ => "files.upload"

/-- What is recorded of it. -/
def FileVerb.action : FileVerb → String
  | delete => "file.deleted"
  | _ => "file.uploaded"

/-- `FileOperation`. -/
structure FileOperation where
  resourceId : String
  operation : FileVerb
  path : String
  toPath : Option String
  confirmed : Bool
  deriving DecidableEq, Repr

/-- `requestOperation`. -/
def requestOperation (userId spaceId : String) (input : FileOperation) (context : RequestContext) :
    Service Unit := do
  let _ ← requirePermission userId spaceId input.operation.permission (some context)
  Prog.raiseIf (input.operation = .delete ∧ ¬ input.confirmed)
    (badRequest "Deleting is permanent. Confirm the deletion to go ahead.")
  Prog.raiseIf (input.operation = .rename ∧ input.toPath.getD "" = "")
    (badRequest "A rename needs a destination.")
  let (resource, agent) ← requireFolder spaceId input.resourceId
  Prog.raiseIf (isReadOnly resource.metadata) (forbidden "That folder is shared read-only.")
  requireOnline agent "That computer is not online."
  record ⟨input.operation.action, "success", some userId, none, none, some spaceId, some context,
    [("operation", .text input.operation.text), ("path", .text input.path),
      ("toPath", (input.toPath.map .text).getD .null)]⟩

/-! ## Printing -/

/-- `PrintJobRequest`. -/
structure PrintJobRequest where
  resourceId : String
  documentBase64 : String
  documentName : String
  copies : Nat
  colour : Bool
  paperSize : PaperSize
  deriving DecidableEq, Repr

/-- `PrintJob`. -/
structure PrintJob where
  id : String
  spaceId : String
  printerName : String
  documentName : String
  copies : Nat
  colour : Bool
  paperSize : PaperSize
  state : PrintJobState
  createdAt : String
  completedAt : Option String
  detail : Option String
  deriving DecidableEq, Repr

/-- `toPrintJob`. -/
def toPrintJob (j : PrintJobRow) : PrintJob :=
  ⟨j.id, j.spaceId, j.printerName, j.documentName, j.copies, j.colour, j.paperSize, j.state, toISOString j.createdAt,
    j.completedAt.map toISOString, j.detail⟩

/-- `looksLikePdf`. -/
def looksLikePdf (base64 : String) : Bool := "JVBERi".toList.isPrefixOf base64.toList

/-- `printJob.create`. -/
def createPrintJob (row : PrintJobRow) : Service PrintJobRow :=
  .stmt (.createPrintJob row) fun w =>
    if w.printJobs.any (·.id = row.id) then .raise Api.databaseFault else .done row

/-- `submitPrintJob`. -/
def submitPrintJob (userId spaceId : String) (input : PrintJobRequest) (context : RequestContext) :
    Service PrintJob := do
  let _ ← requirePermission userId spaceId "printers.use" (some context)
  Prog.raiseIf (¬ looksLikePdf input.documentBase64) (badRequest "Only PDF documents can be printed.")
  let (resource, agent) ← requireShared .printer "That printer was not found in this Space." spaceId input.resourceId
  requireOnline agent "The computer that printer is attached to is not online."
  let id ← randomUUID
  let createdAt ← newDate
  let job ← createPrintJob ⟨id, spaceId, resource.id, resource.agentId, userId, resource.target, input.documentName,
    some input.documentBase64, input.copies, input.colour, input.paperSize, .queued, none, createdAt, none, none⟩
  record ⟨"printer.job.submitted", "success", some userId, none, none, some spaceId, some context,
    [("printer", .text resource.name), ("documentName", .text input.documentName),
      ("copies", .number input.copies), ("colour", .flag input.colour), ("paperSize", .text input.paperSize.text)]⟩
  .done (toPrintJob job)

/-- `PrintJobResult`. -/
structure PrintJobResult where
  deviceId : String
  jobId : String
  state : PrintJobState
  detail : Option String
  deriving DecidableEq, Repr

/-- `recordPrintResult`. -/
def recordPrintResult (principal : AgentPrincipal) (input : PrintJobResult) : Service Unit :=
  if input.deviceId ≠ principal.deviceId then
    .raise (badRequest "This result does not match the signing device.")
  else do
    let found ← select .printJobs fun w => w.printJobs.find? (·.id = input.jobId)
    match found with
    | none => .raise (notFound "That print job was not found.")
    | some job => do
      let agent ← select .agents (findAgentByDevice principal.deviceId)
      Prog.raiseIf (¬ agent.any (·.id = job.agentId))
        (forbidden "That print job was not sent to this computer.")
      let completed ← completedAt input.state.Settled
      let updated ← Prog.perform (.updatePrintJob job.id ⟨input.state, input.detail, completed⟩) fun w =>
        w.printJobs.any (·.id = job.id)
      Prog.raiseIf (¬ updated) Api.databaseFault
      record ⟨"printer.job.result", if input.state = .failed then "failure" else "success",
        some job.requestedById, none, none, some job.spaceId, none,
        [("printer", .text job.printerName), ("state", .text input.state.text),
          ("detail", (input.detail.map .text).getD .null)]⟩

end Resources
