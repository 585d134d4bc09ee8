import NetlinkHub.Resources.Service
import NetlinkHub.Account.Writes

/-! # The services of resources, files and printing

The requests that enroll and revoke computers, share what they offer, and use it, as one machine. What each
of them may do to the tables is read off its program once (`only_handler`). -/

namespace Resources

open Account (AgentEnrollRequest AgentEnrollResponse AgentHeartbeatRequest AgentHeartbeatResponse AgentPrincipal
  AuthenticatedDevice)
open Api (HttpException RequestContext)
open Concurrent (Config Log Machine Move Prog Step)

/-! ## Requests -/

/-- A request, behind the guard of its route. -/
inductive Request where
  | enroll (input : AgentEnrollRequest) (context : RequestContext)
  | heartbeat (principal : AgentPrincipal) (input : AgentHeartbeatRequest)
  | revoke (userId deviceId : String) (context : RequestContext)
  | reportResources (principal : AgentPrincipal) (input : AgentResourceReport)
  | setResourceEnabled (userId spaceId resourceId : String) (enabled : Bool) (context : RequestContext)
  | approveFolder (userId spaceId : String) (input : ApproveFolderRequest) (context : RequestContext)
  | startTransfer (userId spaceId : String) (input : StartTransferRequest) (context : RequestContext)
  | recordProgress (reporter : Reporter) (input : TransferProgress)
  | agentWork (principal : AgentPrincipal)
  | requestOperation (userId spaceId : String) (input : FileOperation) (context : RequestContext)
  | submitPrintJob (userId spaceId : String) (input : PrintJobRequest) (context : RequestContext)
  | recordPrintResult (principal : AgentPrincipal) (input : PrintJobResult)
  deriving DecidableEq

/-- What a request is answered. -/
inductive Response where
  | enrolled (r : AgentEnrollResponse)
  | beat (r : AgentHeartbeatResponse)
  | device (d : AuthenticatedDevice)
  | accepted (n : Nat)
  | resource (r : ResourceSummary)
  | folder (f : ApprovedFolder)
  | transfer (t : Transfer)
  | work (w : AgentWork)
  | operation
  | printJob (j : PrintJob)
  | recorded
  deriving DecidableEq

/-- What each request runs. `hashSecret` is SHA-256. -/
def handler (hashSecret : String → String) : Request → Service Response
  | .enroll input context => .enrolled <$> lift (Account.enroll hashSecret input context)
  | .heartbeat principal input => .beat <$> lift (Account.heartbeat principal input)
  | .revoke userId deviceId context => .device <$> lift (Account.revoke userId deviceId context)
  | .reportResources principal input => .accepted <$> reportResources principal input
  | .setResourceEnabled userId spaceId resourceId enabled context =>
    .resource <$> setResourceEnabled userId spaceId resourceId enabled context
  | .approveFolder userId spaceId input context => .folder <$> approveFolder userId spaceId input context
  | .startTransfer userId spaceId input context => .transfer <$> startTransfer userId spaceId input context
  | .recordProgress reporter input => .transfer <$> recordProgress reporter input
  | .agentWork principal => .work <$> agentWork principal
  | .requestOperation userId spaceId input context =>
    (fun _ => .operation) <$> requestOperation userId spaceId input context
  | .submitPrintJob userId spaceId input context => .printJob <$> submitPrintJob userId spaceId input context
  | .recordPrintResult principal input => (fun _ => .recorded) <$> recordPrintResult principal input

/-- What happens between two statements. -/
def outside (e : Account.Outside) (w : World) : World := { w with account := Account.outside e w.account }

/-- Any number of requests, statement by statement. -/
def machine (hashSecret : String → String) :
    Machine World Write HttpException Request Account.Outside Response :=
  ⟨handler hashSecret, exec, outside⟩

/-- The services after a run. -/
abbrev resourcesRun (hashSecret : String → String) (w : World) (moves : List (Move Request Account.Outside)) :
    Config World Write HttpException Request Response :=
  Run.run (machine hashSecret).step moves (Config.initial w)

/-- The log of such a run. -/
abbrev ResourcesLog := Log World Write Request

/-- A statement of such a run. -/
abbrev ResourcesStep := Step World Write Request

/-! ## What each request may do -/

/-- The statement leaves each agent in its Space, but for an enrollment. -/
def KeepsPlaces : Account.Write → Prop
  | .agents (.update _ data) => ∀ a, (data a).id = a.id ∧ (data a).spaceId = a.spaceId
  | .agents _ => False
  | _ => True

/-- What a request may upsert: a report shares nothing, and an approval writes what the owner has decided. -/
def Request.MayUpsert : Request → ResourceRow → ResourceUpdate → Prop
  | reportResources .., create, update => create.enabled = false ∧ update.enabled = none
  | approveFolder _ _ input _, create, update =>
    create.key = ⟨input.agentId, .folder, input.path⟩ ∧ create.enabled ∧ create.metadata = some input.metadata ∧
      update = input.update
  | _, _, _ => False

/-- The request is a poll of an agent for its work. -/
def Request.Polls : Request → Prop
  | agentWork _ => True
  | _ => False

/-- What a request may do to the tables. -/
def ResourcesWrite (q : Request) : Write → Prop
  | .account w => KeepsPlaces w
  | .upsertResource create update => q.MayUpsert create update
  | .enableResource id enabled => ∃ userId spaceId context, q = .setResourceEnabled userId spaceId id enabled context
  | .createPrintJob row => row.state = .queued ∧ row.document.isSome
  | .activateTransfers _ => q.Polls
  | .sendPrintJobs .. => q.Polls
  | _ => True

/-- What a request may do to the tables that has nothing to do with step-up codes. -/
def ResourcesEffect (q : Request) : Write → Prop
  | .account (.api (.challenges _)) => False
  | w => ResourcesWrite q w

/-- What a request may do to the tables where it only reads and records of the power and remote services. -/
def ResourcesBound (q : Request) : Write → Prop
  | .account (.api (.audit _)) => True
  | .account (.api w) => w.Quiet
  | w => ResourcesWrite q w

variable {q : Request} {hashSecret : String → String}

theorem ResourcesEffect.resourcesWrite {w : Write} (h : ResourcesEffect q w) : ResourcesWrite q w := by
  cases w with
  | account w => cases w with
    | api w => trivial
    | _ => exact h
  | _ => exact h

theorem ResourcesBound.resourcesEffect {w : Write} (h : ResourcesBound q w) : ResourcesEffect q w := by
  cases w with
  | account w => cases w with
    | api w => cases w with
      | challenges op => exact h.elim
      | _ => trivial
    | _ => exact h
  | _ => exact h

/-- A program of the power or remote service leaves each agent in its Space. -/
theorem only_api {α : Type} (p : Api.Service α) : (Account.lift p).Only KeepsPlaces :=
  p.only_true.lift fun _ _ => trivial

theorem only_upsertAgentDevice (userId : String) (input : AgentEnrollRequest) (context : RequestContext) :
    (Account.upsertAgentDevice userId input context).Only KeepsPlaces := by
  unfold Account.upsertAgentDevice
  rw [Account.select_bind]
  refine .stmt trivial fun w => ?_
  split
  · split
    · trivial
    split
    · trivial
    rw [Account.newDate_bind]
    refine .stmt trivial fun _ => .stmt trivial fun w => ?_
    split <;> trivial
  rw [Account.select_bind]
  refine .stmt trivial fun w => ?_
  split
  · trivial
  simp only [Account.randomUUID_bind, Account.newDate_bind]
  refine .stmt trivial fun _ => .stmt trivial fun _ => .stmt trivial fun _ => .stmt trivial fun w => ?_
  split <;> trivial

theorem only_enroll (input : AgentEnrollRequest) (context : RequestContext) :
    (Account.enroll hashSecret input context).Only KeepsPlaces := by
  unfold Account.enroll
  rw [Account.select_bind]
  refine .stmt trivial fun w => ?_
  split
  · trivial
  split
  · trivial
  rw [Account.dateNow_bind]
  refine .stmt trivial fun w => ?_
  split
  · trivial
  rw [Account.newDate_bind]
  refine .stmt trivial fun _ => ?_
  rw [Prog.perform_bind]
  refine .stmt trivial fun w => ?_
  split
  · trivial
  refine (only_upsertAgentDevice _ _ _).bind fun device => ?_
  refine Prog.Only.bind ?_ fun agentId => .stmt trivial fun _ => .stmt trivial fun _ => trivial
  unfold Account.upsertAgent
  simp only [Account.randomUUID_bind, Account.newDate_bind]
  exact .stmt trivial fun _ => .stmt trivial fun _ => .stmt trivial fun _ => .stmt trivial fun _ => trivial

theorem only_heartbeat (principal : AgentPrincipal) (input : AgentHeartbeatRequest) :
    (Account.heartbeat principal input).Only KeepsPlaces := by
  unfold Account.heartbeat
  split
  · trivial
  rw [Account.select_bind]
  refine .stmt trivial fun w => ?_
  split
  · trivial
  · trivial
  rw [Account.newDate_bind]
  refine .stmt trivial fun w => ?_
  refine Prog.Only.bind (.stmt (fun a => ⟨rfl, rfl⟩) fun w => ?_) fun _ => ?_
  · split <;> trivial
  rw [Account.updateDevice_bind]
  refine .stmt trivial fun w => ?_
  split
  · trivial
  refine Prog.Only.bind ?_ fun _ => trivial
  unfold Account.recordOnline
  split
  · trivial
  · exact .stmt trivial fun _ => .stmt trivial fun _ => trivial

theorem only_revoke (userId deviceId : String) (context : RequestContext) :
    (Account.revoke userId deviceId context).Only KeepsPlaces := by
  have hown : (Account.requireOwnDevice userId deviceId).Only KeepsPlaces := by
    unfold Account.requireOwnDevice
    rw [Account.select_bind]
    refine .stmt trivial fun w => ?_
    split
    · trivial
    · split <;> trivial
  have hsessions : ∀ id, (Account.revokeDeviceSessions id "device_revoked").Only KeepsPlaces := by
    intro id
    unfold Account.revokeDeviceSessions
    rw [Account.newDate_bind]
    exact .stmt trivial fun _ => .stmt trivial fun _ => trivial
  have hsweep : ∀ device, (Account.sweepDevice userId device context).Only KeepsPlaces := by
    intro device
    unfold Account.sweepDevice
    refine (hsessions device.id).bind fun _ => ?_
    rw [Prog.perform_bind]
    refine .stmt trivial fun _ => (only_api _).bind fun _ => ?_
    refine Prog.Only.bind ?_ fun _ => .stmt trivial fun _ => trivial
    unfold Account.consumeChallenges
    rw [Account.newDate_bind]
    exact .stmt trivial fun _ => .stmt trivial fun _ => trivial
  unfold Account.revoke
  refine hown.bind fun device => ?_
  split
  · trivial
  rw [Account.newDate_bind]
  refine .stmt trivial fun _ => ?_
  rw [Account.updateDevice_bind]
  refine .stmt trivial fun w => ?_
  split
  · trivial
  · exact (hsweep device).bind fun _ => trivial

/-- A program of another service. -/
theorem only_lift {α : Type} {p : Account.Service α} (h : p.Only KeepsPlaces) :
    (lift p).Only (ResourcesWrite q) := h.lift fun _ hw => hw

/-- A program of the power or remote service that only reads and records. -/
theorem quiet_lift {α : Type} {p : Api.Service α} (h : p.Only Api.Write.Quiet) :
    (lift (Account.lift p)).Only (ResourcesBound q) := by
  have hlift : (Account.lift p).Only fun w => ∃ w', w = .api w' ∧ w'.Quiet := h.lift fun w hw => ⟨w, rfl, hw⟩
  refine hlift.lift ?_
  rintro _ ⟨w, rfl, hw⟩
  cases w with
  | audit row => trivial
  | _ => exact hw

theorem only_requirePermission (userId spaceId permission : String) (context : Option RequestContext) :
    (requirePermission userId spaceId permission context).Only (ResourcesBound q) :=
  quiet_lift (Api.only_requirePermission ..)

theorem only_requireOwner (userId spaceId : String) (context : Option RequestContext) :
    (requireOwner userId spaceId context).Only (ResourcesBound q) := quiet_lift (Api.only_requireOwner ..)

theorem only_upsertResource {create : ResourceRow} {update : ResourceUpdate} (h : q.MayUpsert create update) :
    (upsertResource create update).Only (ResourcesBound q) := by
  refine .stmt h fun w => ?_
  split
  · trivial
  · split <;> trivial

theorem only_requireShared (kind : ResourceKind) (message spaceId resourceId : String) :
    (requireShared kind message spaceId resourceId).Only (ResourcesBound q) := by
  unfold requireShared
  rw [select_bind]
  refine .stmt trivial fun w => ?_
  split
  · trivial
  · split <;> trivial

theorem only_requireOnline (agent : Account.AgentRow) (message : String) :
    (requireOnline agent message).Only (ResourcesBound q) := by
  unfold requireOnline
  rw [newDate_bind]
  exact .stmt trivial fun _ => Prog.only_raiseIf _ _

theorem only_completedAt (settled : Bool) : (completedAt settled).Only (ResourcesBound q) := by
  unfold completedAt
  split
  · exact (quiet_lift (p := Api.newDate) (.stmt trivial fun _ => trivial)).map _
  · trivial

theorem only_reportResources (principal : AgentPrincipal) (input : AgentResourceReport) :
    (reportResources principal input).Only (ResourcesBound (.reportResources principal input)) := by
  have heach : ∀ agent resources,
      (reportEach agent resources).Only (ResourcesBound (.reportResources principal input)) := by
    intro agent resources
    induction resources with
    | nil => trivial
    | cons resource resources ih =>
      refine Prog.Only.bind ?_ fun _ => ih
      unfold reportResource
      simp only [randomUUID_bind, newDate_bind]
      refine .stmt trivial fun _ => .stmt trivial fun _ => ?_
      exact (only_upsertResource (q := .reportResources principal input) ⟨rfl, rfl⟩).bind fun _ => trivial
  unfold reportResources
  split
  · trivial
  rw [select_bind]
  refine .stmt trivial fun w => ?_
  split
  · trivial
  · exact (heach _ _).bind fun _ => trivial

theorem only_setResourceEnabled (userId spaceId resourceId : String) (enabled : Bool) (context : RequestContext) :
    (setResourceEnabled userId spaceId resourceId enabled context).Only
      (ResourcesBound (.setResourceEnabled userId spaceId resourceId enabled context)) := by
  unfold setResourceEnabled
  refine (only_requireOwner _ _ _).bind fun _ => ?_
  rw [select_bind]
  refine .stmt trivial fun w => ?_
  split
  · trivial
  split
  · trivial
  rw [Prog.perform_bind]
  refine .stmt ⟨_, _, _, rfl⟩ fun w => ?_
  split
  · trivial
  · exact .stmt trivial fun _ => trivial

theorem only_approveFolder (userId spaceId : String) (input : ApproveFolderRequest) (context : RequestContext) :
    (approveFolder userId spaceId input context).Only
      (ResourcesBound (.approveFolder userId spaceId input context)) := by
  unfold approveFolder
  refine (only_requireOwner _ _ _).bind fun _ => ?_
  rw [select_bind]
  refine .stmt trivial fun w => ?_
  split
  · trivial
  split
  · trivial
  simp only [randomUUID_bind, newDate_bind]
  refine .stmt trivial fun _ => .stmt trivial fun _ => ?_
  refine (only_upsertResource (q := .approveFolder userId spaceId input context)
    ⟨rfl, rfl, rfl, rfl⟩).bind fun _ => ?_
  exact .stmt trivial fun _ => .stmt trivial fun _ => trivial

theorem only_startTransfer (userId spaceId : String) (input : StartTransferRequest) (context : RequestContext) :
    (startTransfer userId spaceId input context).Only (ResourcesBound q) := by
  unfold startTransfer
  refine (only_requirePermission _ _ _ _).bind fun _ => (only_requireShared _ _ _ _).bind fun found => ?_
  refine (Prog.only_raiseIf _ _).bind fun _ => (only_requireOnline _ _).bind fun _ => ?_
  simp only [randomUUID_bind, newDate_bind]
  refine .stmt trivial fun _ => .stmt trivial fun _ => Prog.Only.bind ?_ fun _ => .stmt trivial fun _ => trivial
  refine .stmt trivial fun w => ?_
  split <;> trivial

theorem only_recordProgress (reporter : Reporter) (input : TransferProgress) :
    (recordProgress reporter input).Only (ResourcesBound q) := by
  unfold recordProgress
  rw [select_bind]
  refine .stmt trivial fun w => ?_
  split
  · trivial
  refine Prog.Only.bind ?_ fun _ => (only_completedAt _).bind fun _ => .stmt trivial fun w => ?_
  · unfold requireEnd
    split
    · rw [select_bind]
      exact .stmt trivial fun _ => Prog.only_raiseIf _ _
    · exact Prog.only_raiseIf _ _
  · split <;> trivial

theorem only_agentWork (principal : AgentPrincipal) (hq : q.Polls) :
    (agentWork principal).Only (ResourcesBound q) := by
  unfold agentWork
  rw [select_bind]
  refine .stmt trivial fun w => ?_
  split
  · trivial
  refine Prog.Only.bind ?_ fun _ => Prog.Only.bind ?_ fun _ => trivial
  · unfold collectTransfers
    rw [Prog.perform_bind]
    refine .stmt trivial fun _ => ?_
    split
    · trivial
    · exact .stmt hq fun _ => trivial
  · unfold collectPrintJobs
    rw [Prog.perform_bind]
    refine .stmt trivial fun _ => ?_
    split
    · trivial
    · rw [newDate_bind]
      exact .stmt trivial fun _ => .stmt hq fun _ => trivial

theorem only_requestOperation (userId spaceId : String) (input : FileOperation) (context : RequestContext) :
    (requestOperation userId spaceId input context).Only (ResourcesBound q) := by
  unfold requestOperation
  refine (only_requirePermission _ _ _ _).bind fun _ => (Prog.only_raiseIf _ _).bind fun _ => ?_
  refine (Prog.only_raiseIf _ _).bind fun _ => (only_requireShared _ _ _ _).bind fun found => ?_
  refine (Prog.only_raiseIf _ _).bind fun _ => (only_requireOnline _ _).bind fun _ => ?_
  exact .stmt trivial fun _ => trivial

theorem only_submitPrintJob (userId spaceId : String) (input : PrintJobRequest) (context : RequestContext) :
    (submitPrintJob userId spaceId input context).Only (ResourcesBound q) := by
  unfold submitPrintJob
  refine (only_requirePermission _ _ _ _).bind fun _ => (Prog.only_raiseIf _ _).bind fun _ => ?_
  refine (only_requireShared _ _ _ _).bind fun found => (only_requireOnline _ _).bind fun _ => ?_
  simp only [randomUUID_bind, newDate_bind]
  refine .stmt trivial fun _ => .stmt trivial fun _ => Prog.Only.bind ?_ fun _ => .stmt trivial fun _ => trivial
  refine .stmt ⟨rfl, rfl⟩ fun w => ?_
  split <;> trivial

theorem only_recordPrintResult (principal : AgentPrincipal) (input : PrintJobResult) :
    (recordPrintResult principal input).Only (ResourcesBound q) := by
  unfold recordPrintResult
  split
  · trivial
  rw [select_bind]
  refine .stmt trivial fun w => ?_
  split
  · trivial
  rw [select_bind]
  refine .stmt trivial fun _ => (Prog.only_raiseIf _ _).bind fun _ => (only_completedAt _).bind fun _ => ?_
  rw [Prog.perform_bind]
  exact .stmt trivial fun _ => (Prog.only_raiseIf _ _).bind fun _ => .stmt trivial fun _ => trivial

/-- The requests of the services of resources, files and printing. -/
def Request.OfFiles : Request → Prop
  | enroll .. => False
  | heartbeat .. => False
  | revoke .. => False
  | _ => True

/-- What each of those may do. -/
theorem bound_handler (q : Request) (hq : q.OfFiles) : (handler hashSecret q).Only (ResourcesBound q) := by
  cases q with
  | enroll input context => exact hq.elim
  | heartbeat principal input => exact hq.elim
  | revoke userId deviceId context => exact hq.elim
  | reportResources principal input => exact (only_reportResources principal input).map _
  | setResourceEnabled userId spaceId resourceId enabled context =>
    exact (only_setResourceEnabled userId spaceId resourceId enabled context).map _
  | approveFolder userId spaceId input context => exact (only_approveFolder userId spaceId input context).map _
  | startTransfer userId spaceId input context => exact (only_startTransfer userId spaceId input context).map _
  | recordProgress reporter input => exact (only_recordProgress reporter input).map _
  | agentWork principal => exact (only_agentWork (q := .agentWork principal) principal trivial).map _
  | requestOperation userId spaceId input context =>
    exact (only_requestOperation userId spaceId input context).map _
  | submitPrintJob userId spaceId input context => exact (only_submitPrintJob userId spaceId input context).map _
  | recordPrintResult principal input => exact (only_recordPrintResult principal input).map _

/-- None of those has to do with step-up codes. -/
theorem effect_handler (q : Request) (hq : q.OfFiles) : (handler hashSecret q).Only (ResourcesEffect q) :=
  (bound_handler q hq).mono fun _ hw => hw.resourcesEffect

/-- **What each request may do.** -/
theorem only_handler (q : Request) : (handler hashSecret q).Only (ResourcesWrite q) := by
  cases q with
  | enroll input context => exact (only_lift (only_enroll input context)).map _
  | heartbeat principal input => exact (only_lift (only_heartbeat principal input)).map _
  | revoke userId deviceId context => exact (only_lift (only_revoke userId deviceId context)).map _
  | _ =>
    refine (effect_handler _ ?_).mono fun _ hw => hw.resourcesWrite
    trivial

/-! ## A computer at home -/

theorem oneLine_first : Api.OneLine "first" := by decide

theorem oneLine_random : Api.OneLine "random" := by decide

theorem oneLine_none : ∀ a ∈ ([] : List Api.AgentRow), Api.OneLine a.id ∧ Api.OneLine a.spaceId ∧ Api.OneLine a.deviceId :=
  List.forall_mem_nil _

/-- A computer that its owner has enrolled at home, and may enroll at the office. A member at home may use
the files. -/
def homeWorld : World where
  account :=
    { api :=
        { directory :=
            { agents := []
              members := [⟨"home", "ada", "owner", ["files.read", "files.upload", "printers.use"], false, none⟩,
                ⟨"home", "ben", "member", ["files.read", "files.upload", "printers.use"], false, none⟩]
              spaces := [⟨"home", "ada"⟩, ⟨"office", "ada"⟩]
              users := []
              agentIds := oneLine_none
              memberIds := by decide }
          challenges := []
          powerCommands := []
          remoteSessions := []
          remoteSignals := []
          audit := []
          published := []
          clock := 1000
          uuid := ⟨"first", oneLine_first⟩
          random := ⟨"random", oneLine_random⟩ }
      users := []
      accountGuards := []
      devices := [⟨"device", "ada", "install", "Study", "linux", "agent", none, none, "key", true, some 0, 0, none,
        none, none, none⟩]
      refreshTokens := []
      challenges := []
      enrollmentTokens := [⟨"token", "office", "Office", "ada", "office", 300000, none⟩]
      agents := [⟨"agent", "home", "device", "online", some 900, none, none, false, false⟩]
      requestNonces := []
      subscribers := []
      statuses := []
      outbox := []
      otp := "000000"
      secret := "secret"
      family := "family"
      lucky := false
      throttled := false
      refusesNonce := false
      refusesMail := false }
  resources := []
  transfers := []
  printJobs := []

end Resources
