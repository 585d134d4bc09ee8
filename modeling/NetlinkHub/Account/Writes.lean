import NetlinkHub.Account.Machine
import NetlinkHub.Api.StepUp

/-! # What a statement can do to a device

Which requests write to the devices and to what hangs on them (refresh tokens, agents, sockets, remote
sessions) is read off the programs once (`only_handler`). A device keeps its identity for good, one that
was revoked stays revoked, and no two have the same key (`devices_account`). -/

namespace Account

open Api (Date RequestContext)
open Concurrent (Log Outline Prog)
open Table (Evolves Op)

/-! ## Rows -/

/-- What a device is known by. -/
structure DeviceIdentity where
  id : String
  userId : String
  installationId : String
  publicKey : String
  deriving DecidableEq, Repr

/-- The identity of a device. -/
def DeviceRow.identity (d : DeviceRow) : DeviceIdentity :=
  ⟨d.id, d.userId, d.installationId, d.publicKey⟩

/-- What a device may become. -/
structure DeviceStays (d d' : DeviceRow) : Prop where
  identity : d'.identity = d.identity
  revoked : d.revokedAt.isSome → d'.revokedAt.isSome

/-- What a refresh token may become. -/
structure TokenStays (t t' : RefreshTokenRow) : Prop where
  device : t'.deviceId = t.deviceId
  revoked : t.revokedAt.isSome → t'.revokedAt.isSome
  rotated : t.rotatedAt.isSome → t'.rotatedAt.isSome

theorem DeviceStays.refl (d : DeviceRow) : DeviceStays d d := ⟨rfl, id⟩

theorem DeviceStays.trans {a b c : DeviceRow} (h : DeviceStays a b) (h' : DeviceStays b c) :
    DeviceStays a c := ⟨h'.identity.trans h.identity, h'.revoked ∘ h.revoked⟩

theorem DeviceStays.id_eq {d d' : DeviceRow} (h : DeviceStays d d') : d'.id = d.id :=
  congrArg DeviceIdentity.id h.identity

theorem DeviceStays.publicKey_eq {d d' : DeviceRow} (h : DeviceStays d d') : d'.publicKey = d.publicKey :=
  congrArg DeviceIdentity.publicKey h.identity

theorem DeviceStays.installationId_eq {d d' : DeviceRow} (h : DeviceStays d d') :
    d'.installationId = d.installationId := congrArg DeviceIdentity.installationId h.identity

/-! ## Statements -/

/-- The requests that make a device trusted. -/
def Request.Trusts : Request → Prop
  | .verifyDevice .. => True
  | _ => False

/-- The requests that hand out a refresh token. -/
def Request.Issues : Request → Prop
  | .verifyDevice .. => True
  | .refresh .. => True
  | _ => False

/-- The requests that create a remote session. -/
def Request.CreatesSession : Request → Prop
  | .viewer _ (.createSession ..) => True
  | _ => False

/-- The requests that enroll an agent. -/
def Request.Enrolls : Request → Prop
  | .enroll .. => True
  | _ => False

/-- The requests that open a socket. -/
def Request.Connects : Request → Prop
  | .connect .. => True
  | _ => False

/-- What a request may do to the devices and to what hangs on them. -/
def AccountWrite (q : Request) : Write → Prop
  | .api (.insertSession _) => q.CreatesSession
  | .devices (.insert clash row) => q.Enrolls ∧ clash = row.Clashes
  | .devices (.update _ data) => ∀ d, DeviceStays d (data d) ∧ ((data d).trusted → d.trusted ∨ q.Trusts)
  | .devices (.delete _) => False
  | .refreshTokens (.insert ..) => q.Issues
  | .refreshTokens (.update _ data) => ∀ t, TokenStays t (data t)
  | .refreshTokens (.delete _) => False
  | .agents (.update _ data) => ∀ a, (data a).id = a.id ∧ (data a).deviceId = a.deviceId
  | .agents _ => False
  | .upsertAgent .. => q.Enrolls
  | .subscribe _ => q.Connects
  | _ => True

/-- The statement leaves the devices and what hangs on them alone, but may end sessions and close
sockets. -/
def Write.Plain : Write → Prop
  | .api (.insertSession _) => False
  | .devices _ => False
  | .refreshTokens _ => False
  | .agents _ => False
  | .upsertAgent .. => False
  | .subscribe _ => False
  | _ => True

theorem Write.Plain.accountWrite {w : Write} (h : w.Plain) (q : Request) : AccountWrite q w := by
  cases w with
  | api w => cases w with
    | insertSession row => cases h
    | _ => trivial
  | devices op => cases h
  | refreshTokens op => cases h
  | agents op => cases h
  | upsertAgent row now => cases h
  | subscribe s => cases h
  | _ => trivial

/-- The statement keeps the step-up codes. -/
def Write.KeepsCodes : Write → Prop
  | .api w => w.KeepsCodes
  | _ => True

/-- What a request may do, with what it may do to step-up codes. -/
def AccountEffect (q : Request) : Write → Prop
  | .api (.challenges op) => (Api.Write.challenges op).KeepsCodes
  | w => AccountWrite q w

/-- The statement leaves the devices and what hangs on them alone, and keeps the step-up codes. -/
def Write.Sparing : Write → Prop
  | .api (.challenges op) => (Api.Write.challenges op).KeepsCodes
  | w => w.Plain

theorem AccountEffect.accountWrite {q : Request} {w : Write} (h : AccountEffect q w) : AccountWrite q w := by
  cases w with
  | api w => cases w with
    | challenges op => trivial
    | _ => exact h
  | _ => exact h

theorem AccountEffect.keepsCodes {q : Request} {w : Write} (h : AccountEffect q w) : w.KeepsCodes := by
  cases w with
  | api w => cases w with
    | challenges op => exact h
    | _ => trivial
  | _ => trivial

theorem Write.Sparing.plain {w : Write} (h : w.Sparing) : w.Plain := by
  cases w with
  | api w => cases w with
    | challenges op => trivial
    | _ => exact h
  | _ => exact h

theorem Write.Sparing.accountEffect {w : Write} (h : w.Sparing) (q : Request) : AccountEffect q w := by
  have hplain := h.plain.accountWrite q
  cases w with
  | api w => cases w with
    | challenges op => exact h
    | _ => exact hplain
  | _ => exact hplain

/-- The statement of a guard: it reads, or writes a nonce. -/
def Write.Gate : Write → Prop
  | .select _ => True
  | .dateNow => True
  | .random => True
  | .api .clock => True
  | .createNonce _ => True
  | .sweepNonces _ => True
  | _ => False

theorem Write.Gate.plain {w : Write} (h : w.Gate) : w.Plain := by
  cases w with
  | api w => cases w with
    | insertSession row => cases h
    | _ => trivial
  | devices op => cases h
  | refreshTokens op => cases h
  | agents op => cases h
  | upsertAgent row now => cases h
  | subscribe s => cases h
  | _ => trivial

theorem Write.Gate.sparing {w : Write} (h : w.Gate) : w.Sparing := by
  have hplain := h.plain
  cases w with
  | api w => cases w with
    | challenges op => exact h.elim
    | _ => exact hplain
  | _ => exact hplain

/-! ## The guards -/

variable {P : Platform} {q : Request} {crypto : Crypto} {jwt : Jwt} {config : SessionConfig}
  {hashSecret : String → String}

theorem only_consumeNonce (nonce : String) (sentAt : Date) :
    (consumeNonce nonce sentAt).Only Write.Gate := by
  unfold consumeNonce
  rw [Prog.perform_bind]
  refine .stmt trivial fun w => ?_
  split
  · trivial
  rw [Prog.perform_bind]
  refine .stmt trivial fun w => ?_
  split
  · rw [newDate_bind]
    exact .stmt trivial fun _ => .stmt trivial fun _ => trivial
  · trivial

theorem only_admitRequest (allowsUnenrolled : Bool) (h : Headers) (sentAt : Date) :
    (admitRequest allowsUnenrolled h sentAt).Only Write.Gate := by
  unfold admitRequest
  rw [select_bind]
  refine .stmt trivial fun w => ?_
  split
  · trivial
  · refine (only_consumeNonce ..).bind fun consumed => ?_
    split <;> trivial

theorem only_canActivate (allowsUnenrolled : Bool) (signed : SignedRequest) :
    (canActivate crypto allowsUnenrolled signed).Only Write.Gate := by
  unfold canActivate
  split
  · trivial
  split
  · trivial
  rw [dateNow_bind]
  refine .stmt trivial fun w => ?_
  split
  · trivial
  split
  · trivial
  · exact only_admitRequest ..

theorem only_accessTokenGuard (token : Option String) :
    (accessTokenGuard jwt token).Only Write.Gate := by
  unfold accessTokenGuard
  split
  · trivial
  refine Prog.Only.bind ?_ fun claims => ?_
  · unfold verifyAccessToken
    rw [dateNow_bind]
    refine .stmt trivial fun w => ?_
    split <;> trivial
  rw [select_bind]
  refine .stmt trivial fun w => ?_
  split
  · trivial
  split
  · trivial
  rw [select_bind]
  refine .stmt trivial fun w => ?_
  split <;> trivial

/-! ## The services of agents -/

theorem only_updateDevice {id : String} {data : DeviceRow → DeviceRow}
    (h : AccountEffect q (.devices (.update (·.id = id) data))) :
    (updateDevice id data).Only (AccountEffect q) := by
  refine .stmt h fun w => ?_
  split <;> trivial

theorem only_upsertAgentDevice (userId : String) (input : AgentEnrollRequest) (context : RequestContext)
    (hq : q.Enrolls) : (upsertAgentDevice userId input context).Only (AccountEffect q) := by
  unfold upsertAgentDevice
  rw [select_bind]
  refine .stmt trivial fun w => ?_
  split
  · split
    · trivial
    split
    · trivial
    rw [newDate_bind]
    exact .stmt trivial fun _ => only_updateDevice fun d => ⟨⟨rfl, id⟩, .inl⟩
  rw [select_bind]
  refine .stmt trivial fun w => ?_
  split
  · trivial
  simp only [randomUUID_bind, newDate_bind]
  refine .stmt trivial fun _ => .stmt trivial fun _ => .stmt trivial fun _ => .stmt ⟨hq, rfl⟩ fun w => ?_
  split <;> trivial

theorem only_enroll (input : AgentEnrollRequest) (context : RequestContext) (hq : q.Enrolls) :
    (enroll hashSecret input context).Only (AccountEffect q) := by
  unfold enroll
  rw [select_bind]
  refine .stmt trivial fun w => ?_
  split
  · trivial
  split
  · trivial
  rw [dateNow_bind]
  refine .stmt trivial fun w => ?_
  split
  · trivial
  rw [newDate_bind]
  refine .stmt trivial fun _ => ?_
  rw [Prog.perform_bind]
  refine .stmt trivial fun w => ?_
  split
  · trivial
  refine (only_upsertAgentDevice _ _ _ hq).bind fun device => ?_
  refine Prog.Only.bind ?_ fun agentId => .stmt trivial fun _ => .stmt trivial fun _ => trivial
  unfold upsertAgent
  simp only [randomUUID_bind, newDate_bind]
  exact .stmt trivial fun _ => .stmt trivial fun _ => .stmt trivial fun _ => .stmt hq fun _ => trivial

theorem only_heartbeat (principal : AgentPrincipal) (input : AgentHeartbeatRequest) :
    (heartbeat principal input).Only (AccountEffect q) := by
  unfold heartbeat
  split
  · trivial
  rw [select_bind]
  refine .stmt trivial fun w => ?_
  split
  · trivial
  · trivial
  rw [newDate_bind]
  refine .stmt trivial fun w => ?_
  refine Prog.Only.bind (.stmt (fun a => ⟨rfl, rfl⟩) fun w => ?_) fun _ => ?_
  · split <;> trivial
  refine (only_updateDevice ?_).bind fun _ => ?_
  · exact fun d => ⟨⟨rfl, id⟩, .inl⟩
  refine Prog.Only.bind (P := AccountEffect q) ?_ fun _ => trivial
  unfold recordOnline
  split
  · trivial
  · exact .stmt trivial fun _ => .stmt trivial fun _ => trivial

/-! ## The services of users -/

theorem only_createRefreshToken (row : RefreshTokenRow) (hq : q.Issues) :
    (createRefreshToken row).Only (AccountEffect q) := by
  refine .stmt hq fun w => ?_
  split <;> trivial

theorem only_issue (userId deviceId : String) (trusted : Bool) (familyId : String)
    (replacesId : Option String) (hq : q.Issues) :
    (issue jwt config hashSecret userId deviceId trusted familyId replacesId).Only (AccountEffect q) := by
  unfold issue
  simp only [dateNow_bind, randomUUID_bind, Prog.perform_bind]
  refine .stmt trivial fun _ => .stmt trivial fun _ => .stmt trivial fun _ => .stmt trivial fun _ => ?_
  refine (only_createRefreshToken _ hq).bind fun _ => Prog.Only.bind ?_ fun _ => trivial
  unfold markReplaced
  split
  · trivial
  · refine .stmt (fun t => ⟨rfl, id, id⟩) fun w => ?_
    split <;> trivial

theorem tokenStays_revoked (reason : String) (now : Date) (t : RefreshTokenRow) :
    TokenStays t (t.revoked reason now) := ⟨rfl, fun _ => rfl, id⟩

theorem only_revokeFamily (familyId reason : String) :
    (revokeFamily familyId reason).Only (AccountEffect q) := by
  unfold revokeFamily
  rw [newDate_bind]
  exact .stmt trivial fun _ => .stmt (tokenStays_revoked reason _) fun _ => trivial

theorem only_exchange (existing : RefreshTokenRow) (device : DeviceRow) (hq : q.Issues) :
    (exchange jwt config hashSecret existing device).Only (AccountEffect q) := by
  unfold exchange
  rw [newDate_bind]
  refine .stmt trivial fun _ => ?_
  rw [Prog.perform_bind]
  refine .stmt (fun t => ⟨rfl, id, fun _ => rfl⟩) fun _ => ?_
  split
  · exact (only_revokeFamily ..).bind fun _ => trivial
  · exact (only_issue _ _ _ _ _ hq).bind fun _ => trivial

theorem only_rotate (presentedToken : String) (hq : q.Issues) :
    (rotate jwt config hashSecret presentedToken).Only (AccountEffect q) := by
  unfold rotate
  rw [select_bind]
  refine .stmt trivial fun w => ?_
  split
  · trivial
  split
  · exact (only_revokeFamily ..).bind fun _ => trivial
  rw [dateNow_bind]
  refine .stmt trivial fun w => ?_
  split
  · trivial
  split
  · exact (only_revokeFamily ..).bind fun _ => trivial
  · exact only_exchange _ _ hq

theorem only_refresh (refreshToken : String) (context : RequestContext) (hq : q.Issues) :
    (refresh jwt config hashSecret refreshToken context).Only (AccountEffect q) := by
  unfold refresh
  refine (only_rotate _ hq).bind fun outcome => ?_
  split
  · exact .stmt trivial fun _ => trivial
  · trivial
  · rw [newDate_bind]
    refine .stmt trivial fun _ => (only_updateDevice ?_).bind fun _ => .stmt trivial fun _ => trivial
    exact fun d => ⟨⟨rfl, id⟩, .inl⟩

theorem only_updateChallenge (id : String) (data : ChallengeRow → ChallengeRow) :
    (updateChallenge id data).Only Write.Sparing := by
  refine .stmt trivial fun w => ?_
  split <;> trivial

theorem only_consume (challengeId code purpose : String) :
    (consume hashSecret challengeId code purpose).Only Write.Sparing := by
  unfold consume
  rw [select_bind]
  refine .stmt trivial fun w => ?_
  dsimp only
  split
  · trivial
  split
  · trivial
  split
  · trivial
  rw [dateNow_bind]
  refine .stmt trivial fun w => ?_
  split
  · trivial
  split
  · trivial
  split
  · refine (only_updateChallenge ..).bind fun updated => ?_
    split
    · rw [newDate_bind]
      exact .stmt trivial fun _ => (only_updateChallenge ..).bind fun _ => trivial
    · trivial
  · rw [newDate_bind]
    refine .stmt trivial fun _ => ?_
    rw [Prog.perform_bind]
    refine .stmt trivial fun _ => ?_
    split <;> trivial

theorem only_recordVerified (userId : String) (device : DeviceRow) (context : RequestContext) :
    (recordVerified userId device context).Only Write.Sparing := by
  unfold recordVerified
  rw [record_bind]
  refine .stmt trivial fun _ => ?_
  dsimp only
  split
  · exact .stmt trivial fun _ => .stmt trivial fun _ => trivial
  · exact .stmt trivial fun _ => trivial

theorem only_trustDevice (userId deviceId : String) (trust : Bool) (context : RequestContext)
    (htrusts : q.Trusts) (hissues : q.Issues) :
    (trustDevice jwt config hashSecret userId deviceId trust context).Only (AccountEffect q) := by
  unfold trustDevice
  rw [select_bind]
  refine .stmt trivial fun w => ?_
  split
  · trivial
  split
  · trivial
  refine Prog.Only.bind (P := AccountEffect q) ?_ fun trustedAt => ?_
  · unfold trustedSince
    split
    · exact .stmt trivial fun _ => trivial
    · trivial
  rw [newDate_bind]
  refine .stmt trivial fun _ => ?_
  refine (only_updateDevice ?_).bind fun device => ?_
  · exact fun d => ⟨⟨rfl, id⟩, fun _ => .inr htrusts⟩
  refine Prog.Only.bind (.stmt trivial fun _ => only_issue _ _ _ _ _ hissues) fun tokens => ?_
  exact ((only_recordVerified ..).mono fun w hw => hw.accountEffect q).bind fun _ => trivial

theorem only_verifyDevice (input : VerifyDeviceRequest) (context : RequestContext) (htrusts : q.Trusts)
    (hissues : q.Issues) :
    (verifyDevice jwt config hashSecret input context).Only (AccountEffect q) := by
  unfold verifyDevice
  refine Prog.Only.bind (.stmt trivial fun w => ?_) fun _ => ?_
  · split <;> trivial
  refine ((only_consume ..).mono fun w hw => hw.accountEffect q).bind fun result => ?_
  split
  · exact .stmt trivial fun _ => trivial
  split
  · trivial
  · exact only_trustDevice _ _ _ _ htrusts hissues

theorem only_handleConnection (socket : Nat) (token : Option String) (hq : q.Connects) :
    (handleConnection jwt socket token).Only (AccountEffect q) := by
  unfold handleConnection
  split
  · trivial
  rw [dateNow_bind]
  refine .stmt trivial fun w => ?_
  split
  · trivial
  rw [select_bind]
  refine .stmt trivial fun w => ?_
  split
  · trivial
  split
  · trivial
  rw [select_bind]
  exact .stmt trivial fun _ => .stmt hq fun _ => trivial

/-- A program of the power or remote service that creates no session. -/
theorem only_lift {α : Type} {p : Api.Service α} {R : Api.Write → Prop} (h : p.Only R)
    (hkeeps : p.Only Api.Write.KeepsCodes) (himp : ∀ w, R w → (Write.api w).Plain) :
    (lift p).Only Write.Sparing := by
  refine (h.and hkeeps).lift fun w hw => ?_
  have hplain := himp w hw.1
  cases w with
  | challenges op => exact hw.2
  | _ => exact hplain

theorem only_sweepDevice (userId : String) (device : DeviceRow) (context : RequestContext) :
    (sweepDevice userId device context).Only (AccountEffect q) := by
  have hsessions : (revokeDeviceSessions device.id "device_revoked").Only (AccountEffect q) := by
    unfold revokeDeviceSessions
    rw [newDate_bind]
    exact .stmt trivial fun _ => .stmt (tokenStays_revoked _ _) fun _ => trivial
  have hends : (lift (Api.endSessionsForDevice device.id)).Only Write.Sparing := by
    refine only_lift (Api.only_endSessionsForDevice _) (Api.keepsCodes_endSessionsForDevice _) fun w hw => ?_
    cases w with
    | insertSession row => cases hw
    | _ => trivial
  unfold sweepDevice
  refine hsessions.bind fun _ => ?_
  rw [Prog.perform_bind]
  refine .stmt trivial fun _ => (hends.mono fun w hw => hw.accountEffect q).bind fun _ => ?_
  refine Prog.Only.bind ?_ fun _ => .stmt trivial fun _ => trivial
  unfold consumeChallenges
  rw [newDate_bind]
  exact .stmt trivial fun _ => .stmt trivial fun _ => trivial

theorem only_revoke (userId deviceId : String) (context : RequestContext) :
    (revoke userId deviceId context).Only (AccountEffect q) := by
  unfold revoke
  refine Prog.Only.bind ?_ fun device => ?_
  · unfold requireOwnDevice
    rw [select_bind]
    refine .stmt trivial fun w => ?_
    split
    · trivial
    · split <;> trivial
  split
  · trivial
  rw [newDate_bind]
  refine .stmt trivial fun _ => ?_
  refine (only_updateDevice ?_).bind fun _ => ?_
  · exact fun d => ⟨⟨rfl, fun _ => rfl⟩, fun h => nomatch h⟩
  exact (only_sweepDevice ..).bind fun _ => trivial

/-! ## Requests -/

theorem only_powerCall (call : Api.PowerRequest) : (powerCall P call).Only Write.Sparing := by
  refine Prog.Only.map (only_lift (Api.only_powerHandler call) (Api.keepsCodes_powerHandler call) fun w hw => ?_) _
  cases w with
  | insertSession row => cases hw
  | _ => trivial

/-- A call of the remote service, for a request that may create a session if the call does. -/
theorem only_remoteCall (call : Api.RemoteRequest) (h : ∀ row, call.Creates row → q.CreatesSession) :
    (remoteCall P call).Only (AccountEffect q) := by
  have hkeeps : (Api.remoteHandler P.signer P.hashSecret P.ice call).Only Api.Write.KeepsCodes :=
    Api.keepsCodes_remoteHandler call
  refine Prog.Only.map (((Api.only_remoteHandler call).and hkeeps).lift fun w hw => ?_) _
  cases w with
  | insertSession row => exact h row hw.1
  | challenges op => exact hw.2
  | _ => trivial

theorem only_withBody {α β : Type} {input : Option α} {f : α → Service β} {R : Write → Prop}
    (h : ∀ input, (f input).Only R) : (withBody input f).Only R := by
  unfold withBody
  split
  · trivial
  · exact h _

theorem only_serveAgent (principal : AgentPrincipal) (body : Posix.Bytes) (route : AgentRoute) :
    (route.serve P principal body).Only (AccountEffect q) := by
  have hpower : ∀ call, (powerCall P call).Only (AccountEffect q) := fun call =>
    (only_powerCall call).mono fun w hw => hw.accountEffect q
  cases route with
  | heartbeat => exact only_withBody fun input => (only_heartbeat principal input).map _
  | collect => exact hpower _
  | result => exact only_withBody fun input => hpower _
  | grants => exact only_remoteCall _ fun row h => h.elim
  | signal sessionId => exact only_withBody fun input => only_remoteCall _ fun row h => h.elim
  | signals sessionId => exact only_remoteCall _ fun row h => h.elim
  | connected => exact only_withBody fun input => only_remoteCall _ fun row h => h.elim
  | violation => exact only_withBody fun input => only_remoteCall _ fun row h => h.elim

theorem only_serveViewer (principal : AuthenticatedPrincipal) {token : Option String}
    (call : ViewerCall) : (call.serve P principal).Only (AccountEffect (.viewer token call)) := by
  cases call with
  | createSession spaceId input context => exact only_remoteCall _ fun row _ => trivial
  | requestCommand spaceId input context =>
    exact (only_powerCall _).mono fun w hw => hw.accountEffect _
  | revoke deviceId context => exact (only_revoke ..).map _
  | _ => exact only_remoteCall _ fun row h => h.elim

/-- **What each request may do.** -/
theorem effect_handler (q : Request) : (handler P q).Only (AccountEffect q) := by
  cases q with
  | enroll signed context =>
    refine Prog.Only.map (((only_canActivate true signed).mono fun w hw => hw.sparing.accountEffect _).bind
      fun _ => ?_) _
    split
    · trivial
    · exact only_enroll _ _ trivial
  | agent route signed =>
    refine ((only_canActivate false signed).mono fun w hw => hw.sparing.accountEffect _).bind fun principal => ?_
    exact only_serveAgent principal signed.body route
  | viewer token call =>
    refine ((only_accessTokenGuard token).mono fun w hw => hw.sparing.accountEffect _).bind fun principal => ?_
    exact only_serveViewer principal call
  | verifyDevice input context => exact (only_verifyDevice (q := .verifyDevice input context) _ _ trivial trivial).map _
  | refresh refreshToken context => exact (only_refresh (q := .refresh refreshToken context) _ _ trivial).map _
  | connect socket token => exact (only_handleConnection (q := .connect socket token) _ _ trivial).map _

theorem only_handler (q : Request) : (handler P q).Only (AccountWrite q) :=
  (effect_handler q).mono fun _ hw => hw.accountWrite

/-! ## The table of devices -/

/-- No two devices have an identifier or a key in common. -/
structure DevicesApart (s : World) : Prop where
  ids : (s.devices.map (·.id)).Nodup
  keys : (s.devices.map (·.publicKey)).Nodup

/-- Every device is still there, as the device it was. -/
abbrev DevicesStay (s t : World) : Prop := Evolves DeviceStays s.devices t.devices

variable {s t u : World} {w : Write}

theorem DevicesStay.refl (s : World) : DevicesStay s s := Evolves.refl DeviceStays.refl _

theorem DevicesStay.trans (h : DevicesStay s t) (h' : DevicesStay t u) : DevicesStay s u :=
  Evolves.trans DeviceStays.trans h h'

/-- A device is beside none that it clashes with. -/
theorem DevicesApart.insert (h : DevicesApart s) (row : DeviceRow) :
    DevicesApart { s with devices := (Op.insert row.Clashes row).apply s.devices } := by
  refine ⟨Table.nodup_insert (fun r hr => ?_) h.ids, Table.nodup_insert (fun r hr => ?_) h.keys⟩
  · simp [DeviceRow.Clashes, hr]
  · simp [DeviceRow.Clashes, hr]

theorem DevicesApart.update (h : DevicesApart s) {sel : DeviceRow → Bool} {data : DeviceRow → DeviceRow}
    (hdata : ∀ d, DeviceStays d (data d)) :
    DevicesApart { s with devices := (Op.update sel data).apply s.devices } := by
  constructor
  · show (((Op.update sel data).apply s.devices).map (·.id)).Nodup
    rw [Table.map_update fun d => (hdata d).id_eq]
    exact h.ids
  · show (((Op.update sel data).apply s.devices).map (·.publicKey)).Nodup
    rw [Table.map_update fun d => (hdata d).publicKey_eq]
    exact h.keys

theorem devicesStay_update {sel : DeviceRow → Bool} {data : DeviceRow → DeviceRow}
    (hdata : ∀ d, DeviceStays d (data d)) :
    DevicesStay s { s with devices := (Op.update sel data).apply s.devices } :=
  Table.evolves_update DeviceStays.refl fun d _ _ => hdata d

theorem DevicesApart.congr (h : DevicesApart s) (heq : t.devices = s.devices) : DevicesApart t := by
  constructor
  · rw [heq]
    exact h.ids
  · rw [heq]
    exact h.keys

theorem DevicesStay.of_eq (heq : t.devices = s.devices) : DevicesStay s t := by
  rw [DevicesStay, heq]
  exact DevicesStay.refl s

/-- **What each statement keeps.** -/
theorem devices_perform (hw : AccountWrite q w) (h : DevicesApart s) :
    DevicesStay s (exec w s) ∧ DevicesApart (exec w s) := by
  by_cases hop : ∃ op, w = .devices op
  · obtain ⟨op, rfl⟩ := hop
    cases op with
    | insert clash row =>
      obtain ⟨-, rfl⟩ := hw
      exact ⟨Table.evolves_insert DeviceStays.refl, h.insert row⟩
    | update sel data => exact ⟨devicesStay_update fun d => (hw d).1, h.update fun d => (hw d).1⟩
    | delete sel => exact hw.elim
  · have heq := devices_exec (fun op hw' => hop ⟨op, hw'⟩) s
    exact ⟨.of_eq heq, h.congr heq⟩

/-- What happens outside keeps the devices as well. -/
theorem devices_outside (e : Outside) (h : DevicesApart s) :
    DevicesStay s (outside e s) ∧ DevicesApart (outside e s) := by
  cases e with
  | register row => exact ⟨Table.evolves_insert DeviceStays.refl, h.insert row⟩
  | describe deviceId x => exact ⟨devicesStay_update fun d => ⟨rfl, id⟩, h.update fun d => ⟨rfl, id⟩⟩
  | issueCode row =>
    simp only [outside]
    split
    · exact ⟨.refl s, h.congr rfl⟩
    · exact ⟨.refl s, h⟩
  | _ => exact ⟨.refl s, h.congr rfl⟩

/-- Devices keep apart, and stay. -/
def deviceOutline (P : Platform) : Outline (machine P) where
  inv σ := DevicesApart σ.shared
  rely σ τ := DevicesStay σ.shared τ.shared
  refl _ := .refl _
  trans h h' := h.trans h'
  env e _ h := (devices_outside e h).symm

/-- **Devices in a run.** At every moment no two have an identifier or a key in common; and a device
that is there at one moment is there ever after, under the same key, and revoked if it was. -/
theorem devicesStay_run (P : Platform) {s : World} (hs : DevicesApart s)
    (before after : List (Concurrent.Move Request Outside)) :
    DevicesApart (accountRun P s (before ++ after)).log.shared ∧
      DevicesStay (accountRun P s before).log.shared (accountRun P s (before ++ after)).log.shared := by
  rw [accountRun, Run.run_append]
  exact Outline.of_only (O := deviceOutline P) only_handler
    (fun i q w σ hw hσ => devices_perform hw hσ) hs before after

end Account
