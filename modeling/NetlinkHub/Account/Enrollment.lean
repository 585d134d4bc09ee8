import NetlinkHub.Account.Nonces
import NetlinkHub.Account.Writes

/-! # The key of an enrolled device

The guard of the enrollment verifies the request under the key in its headers, and the handler stores the
key in its body: nothing compares the two. A device that is enrolled has the key that signed its
enrollment exactly when the body repeats what the headers present (`enrolled_possessed_iff`). -/

namespace Account

open Api (HttpException RequestContext)
open Concurrent (Config Log Move Outline Prog Step)
open Posix (Bytes)

/-- An enrollment creates a device, or attaches one to an agent. -/
def Enrolled (step : AccountStep) (d : DeviceRow) : Prop :=
  match step.write with
  | .devices (.insert clash row) => row = d ∧ ¬ step.before.devices.any clash
  | .upsertAgent row _ => d ∈ step.before.devices ∧ d.id = row.deviceId
  | _ => False

/-- The request was signed with the private key of a public key: its signature verifies under it, which,
as Ed25519 cannot be forged, nobody else can bring about. -/
def SignedUnder (crypto : Crypto) (signed : SignedRequest) (key : Bytes) : Prop :=
  ∃ h, signed.headers = some h ∧ signed.verifies crypto h ∧ crypto.base64url h.publicKey = key

/-- The installation that the headers present. -/
def Presents (signed : SignedRequest) (installationId : String) : Prop :=
  ∃ h, signed.headers = some h ∧ h.installationId = installationId

/-- A device has the key that signed a request, and the installation that it presents. -/
def Possessed (crypto : Crypto) (signed : SignedRequest) (d : DeviceRow) : Prop :=
  SignedUnder crypto signed (crypto.base64url d.publicKey) ∧ Presents signed d.installationId

/-- The body of an enrollment names the key and the installation that its headers present. -/
def NamesItself (P : Platform) (signed : SignedRequest) : Prop :=
  ∀ h input, signed.headers = some h → P.schemas.enroll signed.body = some input →
    P.crypto.base64url input.publicKey = P.crypto.base64url h.publicKey ∧
      input.installationId = h.installationId

/-- A device has the key and the installation that the body of an enrollment names. -/
def Named (input : AgentEnrollRequest) (d : DeviceRow) : Prop :=
  d.publicKey = input.publicKey ∧ d.installationId = input.installationId

variable {P : Platform} {σ τ : AccountLog} {i : Nat} {q : Request} {input : AgentEnrollRequest}
  {signed : SignedRequest}

theorem Named.stays {d d' : DeviceRow} (h : Named input d) (hstays : DeviceStays d d') :
    Named input d' :=
  ⟨hstays.publicKey_eq.trans h.1, hstays.installationId_eq.trans h.2⟩

/-! ## The guard -/

/-- **Who passes the guard** has signed under the key in the headers. -/
theorem answers_canActivate (crypto : Crypto) (allowsUnenrolled : Bool) (signed : SignedRequest) :
    (canActivate crypto allowsUnenrolled signed).Answers fun _ =>
      ∃ h, signed.headers = some h ∧ signed.verifies crypto h := by
  unfold canActivate
  split
  · trivial
  rename_i h hheaders
  split
  · trivial
  rw [dateNow_bind]
  intro w
  dsimp only
  split
  · trivial
  split
  · trivial
  · rename_i hverifies
    exact (Prog.answers_true _).mono fun _ _ => ⟨h, hheaders, not_not.mp hverifies⟩

/-! ## What an enrollment enrolls -/

/-- What the statement enrolls was signed for, and is named by the body. -/
def Authentic (P : Platform) (step : AccountStep) : Prop :=
  ∀ signed context d, step.request = .enroll signed context → Enrolled step d →
    (∃ h, signed.headers = some h ∧ signed.verifies P.crypto h) ∧
      ∃ input, P.schemas.enroll signed.body = some input ∧ Named input d

/-- Devices keep apart, and every enrollment is authentic. -/
structure EnrollInv (P : Platform) (σ : AccountLog) : Prop where
  apart : DevicesApart σ.shared
  authentic : ∀ step ∈ σ.history, Authentic P step

theorem devicesStay_refl (σ : AccountLog) : DevicesStay σ.shared σ.shared := .refl _

theorem devicesStay_trans {σ τ υ : AccountLog} (h : DevicesStay σ.shared τ.shared)
    (h' : DevicesStay τ.shared υ.shared) : DevicesStay σ.shared υ.shared := h.trans h'

/-- Devices stay, and enrollments are authentic. -/
def enrollOutline (P : Platform) : Outline (machine P) where
  inv := EnrollInv P
  rely σ τ := DevicesStay σ.shared τ.shared
  refl := devicesStay_refl
  trans := @devicesStay_trans
  env e _ h := ⟨⟨(devices_outside e h.apart).2, h.authentic⟩, (devices_outside e h.apart).1⟩

/-- The enrollment has passed the guard, and its body has been read. -/
structure Proven (P : Platform) (q : Request) (input : AgentEnrollRequest) : Prop where
  passed : ∃ signed context, q = .enroll signed context ∧
    (∃ h, signed.headers = some h ∧ signed.verifies P.crypto h) ∧
      P.schemas.enroll signed.body = some input

theorem Proven.enrolls (h : Proven P q input) : q.Enrolls := by
  obtain ⟨signed, context, rfl, -⟩ := h.passed
  trivial

theorem Proven.authentic (h : Proven P q input) {w : Write} {s : World}
    (hnamed : ∀ d, Enrolled ⟨i, q, w, s⟩ d → Named input d) : Authentic P ⟨i, q, w, s⟩ := by
  obtain ⟨signed, context, rfl, hverifies, hinput⟩ := h.passed
  intro signed' context' d hrequest henrolled
  cases hrequest
  exact ⟨hverifies, input, hinput, hnamed d henrolled⟩

/-- A statement that keeps the devices is kept by the outline, if it is authentic. -/
theorem EnrollInv.perform {w : Write} (h : EnrollInv P σ) (hw : AccountWrite q w)
    (hauthentic : Authentic P ⟨i, q, w, σ.shared⟩) :
    DevicesStay σ.shared (exec w σ.shared) ∧ EnrollInv P (σ.perform exec i q w) := by
  obtain ⟨hstay, hapart⟩ := devices_perform hw h.apart
  exact ⟨hstay, hapart, List.forall_mem_cons.mpr ⟨hauthentic, h.authentic⟩⟩

/-- A statement of an enrollment that enrolls what the body names, if anything, and then the rest. -/
theorem safe_enrolled {α : Type} {w : Write} {next : World → Service α}
    {post : Except HttpException α → AccountLog → Prop} (hq : Proven P q input) (hw : AccountWrite q w)
    (hnamed : ∀ τ : AccountLog, DevicesStay σ.shared τ.shared → DevicesApart τ.shared →
      ∀ d, Enrolled ⟨i, q, w, τ.shared⟩ d → Named input d)
    (hnext : ∀ τ : AccountLog, DevicesStay σ.shared τ.shared →
      EnrollInv P (τ.perform exec i q w) →
        (enrollOutline P).Safe i q post (next τ.shared) (τ.perform exec i q w)) :
    (enrollOutline P).Safe i q post (.stmt w next) σ := by
  intro τ hlater hτ
  obtain ⟨hstay, hkept⟩ := hτ.perform hw (hq.authentic (hnamed τ hlater.1 hτ.apart))
  exact ⟨hstay, hkept, hnext τ hlater.1 hkept⟩

theorem Write.Plain.not_enrolled {w : Write} (h : w.Plain) {s : World} (d : DeviceRow) :
    ¬ Enrolled ⟨i, q, w, s⟩ d := by
  intro henrolled
  cases w with
  | devices op => exact h
  | upsertAgent row now => exact h
  | _ => exact henrolled

/-- A program that does not enroll. -/
theorem safe_plain {α : Type} {p : Service α} (hp : p.Only Write.Plain) :
    (enrollOutline P).Safe i q (fun _ _ => True) p σ :=
  Outline.Safe.of_only hp fun _ _ hw hτ => hτ.perform (hw.accountWrite q)
    fun _ _ d _ henrolled => absurd henrolled (hw.not_enrolled d)

/-- The device is in the table, and it is the one that the body names. -/
def NamedDevice (input : AgentEnrollRequest) (deviceId : String) (s : World) : Prop :=
  ∃ d ∈ s.devices, d.id = deviceId ∧ Named input d

theorem NamedDevice.stays {s t : World} {deviceId : String} (h : NamedDevice input deviceId s)
    (hstay : DevicesStay s t) : NamedDevice input deviceId t := by
  obtain ⟨d, hd, hid, hnamed⟩ := h
  obtain ⟨d', hd', hstays⟩ := hstay d hd
  exact ⟨d', hd', hstays.id_eq.trans hid, hnamed.stays hstays⟩

/-- What the device row behind an enrollment comes to. -/
def upsertPost (input : AgentEnrollRequest) : Except HttpException DeviceRow → AccountLog → Prop
  | .ok d, σ => NamedDevice input d.id σ.shared
  | .error _, _ => True

/-- The device that is found by a user and an installation. -/
theorem findInstallation_some {userId installationId : String} {w : World} {d : DeviceRow}
    (h : findInstallation userId installationId w = some d) :
    d ∈ w.devices ∧ d.installationId = installationId := by
  have hfound : d.userId = userId ∧ d.installationId = installationId := by
    simpa using List.find?_some h
  exact ⟨List.mem_of_find?_eq_some h, hfound.2⟩

/-- A re-enrolled device was registered under the key that the body names. -/
theorem safe_reenroll {existing : DeviceRow} {context : RequestContext} (hq : Proven P q input)
    (hnamed : NamedDevice input existing.id σ.shared) :
    (enrollOutline P).Safe i q (upsertPost input) (do
      let now ← newDate
      updateDevice existing.id (reenrolled existing input context now)) σ := by
  rw [newDate_bind]
  refine safe_enrolled hq trivial (fun _ _ _ d h => h.elim) fun τ hτ _ => ?_
  refine safe_enrolled hq (fun d => ⟨⟨rfl, id⟩, .inl⟩) (fun _ _ _ d h => h.elim) fun υ hυ _ => ?_
  split
  · trivial
  · rename_i row hrow
    have hid : row.id = existing.id := by simpa using List.find?_some hrow
    show NamedDevice input row.id _
    rw [hid]
    exact ((hnamed.stays hτ).stays hυ).stays (devicesStay_update fun d => ⟨rfl, id⟩)

/-- **The device row of an enrollment** is the one that the body names. -/
theorem safe_upsertAgentDevice (userId : String) (context : RequestContext) (hq : Proven P q input) :
    (enrollOutline P).Safe i q (upsertPost input) (upsertAgentDevice userId input context) σ := by
  unfold upsertAgentDevice
  rw [select_bind]
  refine safe_enrolled hq trivial (fun _ _ _ d h => h.elim) fun τ _ _ => ?_
  split
  · -- The installation is known: its key has to be the one in the body.
    rename_i existing hexisting
    obtain ⟨hmem, hinstallation⟩ := findInstallation_some hexisting
    split
    · trivial
    rename_i hkey
    split
    · trivial
    · exact safe_reenroll hq ⟨existing, hmem, rfl, not_not.mp hkey, hinstallation⟩
  rw [select_bind]
  refine safe_enrolled hq trivial (fun _ _ _ d h => h.elim) fun υ _ _ => ?_
  split
  · trivial
  -- A new device takes its key and its installation from the body.
  simp only [randomUUID_bind, newDate_bind]
  refine safe_enrolled hq trivial (fun _ _ _ d h => h.elim) fun _ _ _ => ?_
  refine safe_enrolled hq trivial (fun _ _ _ d h => h.elim) fun _ _ _ => ?_
  refine safe_enrolled hq trivial (fun _ _ _ d h => h.elim) fun _ _ _ => ?_
  refine safe_enrolled hq ⟨hq.enrolls, rfl⟩ (fun _ _ _ d h => ?_) fun φ _ _ => ?_
  · obtain ⟨rfl, -⟩ := h
    exact ⟨rfl, rfl⟩
  · split
    · trivial
    · rename_i hfree
      refine ⟨_, ?_, rfl, rfl, rfl⟩
      show _ ∈ (Table.Op.insert _ _).apply φ.shared.devices
      rw [Table.apply_insert, if_neg hfree]
      exact List.mem_append_right _ (List.mem_singleton_self _)

/-- The agent is attached to the device of the enrollment. -/
theorem safe_upsertAgent (spaceId : String) {deviceId : String} (hq : Proven P q input)
    (hdevice : NamedDevice input deviceId σ.shared) :
    (enrollOutline P).Safe i q (fun _ _ => True) (upsertAgent spaceId deviceId) σ := by
  unfold upsertAgent
  simp only [randomUUID_bind, newDate_bind]
  refine safe_enrolled hq trivial (fun _ _ _ d h => h.elim) fun τ hτ _ => ?_
  refine safe_enrolled hq trivial (fun _ _ _ d h => h.elim) fun υ hυ _ => ?_
  refine safe_enrolled hq trivial (fun _ _ _ d h => h.elim) fun φ hφ _ => ?_
  refine safe_enrolled hq hq.enrolls (fun ψ hψ hapart d ⟨hd, hid⟩ => ?_) fun _ _ _ => trivial
  -- One device for an identifier: the one of the enrollment.
  obtain ⟨d', hd', hid', hnamed⟩ := (((hdevice.stays hτ).stays hυ).stays hφ).stays hψ
  obtain rfl : d = d' := Table.eq_of_key hapart.ids hd hd' (hid.trans hid'.symm)
  exact hnamed

theorem safe_enrollClaimed (enrollment : EnrollmentTokenRow) (context : RequestContext)
    (hq : Proven P q input) (hσ : EnrollInv P σ) :
    (enrollOutline P).Safe i q (fun _ _ => True) (enrollClaimed enrollment input context) σ := by
  unfold enrollClaimed
  refine (safe_upsertAgentDevice _ context hq).bind hσ (fun device τ _ hτ hdevice => ?_)
    fun _ _ _ _ _ => trivial
  refine (safe_upsertAgent _ hq hdevice).bind hτ (fun agentId υ _ _ _ => ?_) fun _ _ _ _ _ => trivial
  exact safe_plain (.stmt trivial fun _ => .stmt trivial fun _ => trivial)

theorem safe_enroll (hashSecret : String → String) (context : RequestContext) (hq : Proven P q input) :
    (enrollOutline P).Safe i q (fun _ _ => True) (enroll hashSecret input context) σ := by
  unfold enroll
  rw [select_bind]
  refine safe_enrolled hq trivial (fun _ _ _ d h => h.elim) fun τ _ _ => ?_
  split
  · trivial
  split
  · trivial
  rw [dateNow_bind]
  refine safe_enrolled hq trivial (fun _ _ _ d h => h.elim) fun υ _ _ => ?_
  split
  · trivial
  rw [newDate_bind]
  refine safe_enrolled hq trivial (fun _ _ _ d h => h.elim) fun φ _ _ => ?_
  rw [Prog.perform_bind]
  refine safe_enrolled hq trivial (fun _ _ _ d h => h.elim) fun ψ _ hψ => ?_
  split
  · trivial
  · exact safe_enrollClaimed _ context hq hψ

/-- **Each request** enrolls authentically. -/
theorem safe_handler (hσ : EnrollInv P σ) :
    (enrollOutline P).Safe i q (fun _ _ => True) (handler P q) σ := by
  by_cases hq : q.Enrolls
  · cases q with
    | enroll signed context =>
      have hguard := (safe_plain (P := P) (i := i) (q := .enroll signed context) (σ := σ)
        ((only_canActivate true signed).mono fun _ hw => hw.plain)).answers
          (answers_canActivate P.crypto true signed)
      show (enrollOutline P).Safe i _ _ (_ <$> enrollRoute _ _ _ signed context) σ
      rw [enrollRoute, Prog.map_eq, Prog.bind_assoc]
      refine hguard.bind hσ (fun principal τ _ hτ hpost => ?_) fun _ _ _ _ _ => trivial
      have hverifies := hpost.2 principal rfl
      split
      · trivial
      · rename_i input hinput
        exact (safe_enroll _ context ⟨signed, context, rfl, hverifies, hinput⟩).bind hτ
          (fun _ _ _ _ _ => trivial) fun _ _ _ _ _ => trivial
    | _ => exact hq.elim
  · refine Outline.Safe.of_only (only_handler q) fun w τ hw hτ => hτ.perform hw ?_
    rintro signed context d rfl -
    exact absurd trivial hq

/-! ## Whole runs -/

theorem authentic_run (P : Platform) {w : World} (hw : DevicesApart w)
    (moves : List (Move Request Outside)) :
    ∀ step ∈ (accountRun P w moves).log.history, Authentic P step := by
  have hstable : ∀ (i : Nat) (_ : Request), (enrollOutline P).Stable i
      fun (_ : Except HttpException Response) _ => True := fun _ _ _ _ _ _ _ => trivial
  have hinitial : EnrollInv P ⟨w, []⟩ := ⟨hw, fun _ h => absurd h List.not_mem_nil⟩
  exact (Outline.sound hstable (fun i q σ hσ _ => safe_handler hσ) moves
    (Outline.good_initial hinitial)).1.inv.authentic

/-- **Possession of the key.** In every run of requests, a device that an enrollment creates or attaches
to an agent has the key that signed the enrollment, and the installation in its headers, exactly when the
body names them. -/
theorem enrolled_possessed_iff (P : Platform) (w : World) (hw : DevicesApart w)
    (moves : List (Move Request Outside)) :
    ∀ step ∈ (accountRun P w moves).log.history, ∀ signed context d,
      step.request = .enroll signed context → Enrolled step d →
        (Possessed P.crypto signed d ↔ NamesItself P signed) := by
  intro step hstep signed context d hrequest henrolled
  obtain ⟨⟨h, hheaders, hverifies⟩, input, hinput, hkey, hinstallation⟩ :=
    authentic_run P hw moves step hstep signed context d hrequest henrolled
  constructor
  · rintro ⟨⟨h', hheaders', -, hsigned⟩, h'', hheaders'', hpresented⟩ h₀ input' hheaders₀ hinput'
    -- There is one set of headers and one body.
    rw [hheaders] at hheaders' hheaders'' hheaders₀
    rw [hinput] at hinput'
    cases hheaders'
    cases hheaders''
    cases hheaders₀
    cases hinput'
    rw [← hkey, ← hinstallation]
    exact ⟨hsigned.symm, hpresented.symm⟩
  · intro hnames
    obtain ⟨hkey', hinstallation'⟩ := hnames h input hheaders hinput
    refine ⟨⟨h, hheaders, hverifies, ?_⟩, h, hheaders, ?_⟩
    · rw [hkey, hkey']
    · rw [hinstallation, hinstallation']

/-! ## An enrollment under another's key -/

/-- Another 32 bytes in base64url. -/
def otherKey : String := "AQEBAQEBAQEBAQEBAQEBAQEBAQEBAQEBAQEBAQEBAQE"

/-- The installation of a new computer. -/
def newInstallation : String := "6f9619ff-8b86-4d01-b42d-00cf4fc964ff"

/-- The body of an enrollment that names a key. -/
def enrollBody (key : String) : Bytes :=
  ("\x7b\"installationId\":\"" ++ newInstallation ++ "\",\"publicKey\":\"" ++ key ++
    "\",\"publicKeyAlgorithm\":\"ed25519\",\"name\":\"Study\",\"platform\":\"linux\"" ++
    ",\"kind\":\"agent\",\"enrollmentToken\":\"owner-enrollment-token\"\x7d").toList.map
      fun c => c.toNat.toUInt8

/-- A platform that is asked to read one body only, which names a key and has a digest. -/
def enrollPlatform (key digest : String) : Platform where
  crypto := { plainCrypto with digest := fun _ => digest }
  jwt := ⟨fun _ _ _ => "", fun _ _ => none⟩
  config := ⟨900, 30, 1⟩
  hashSecret _ := "78474c8c84ae185874888b00ba62ef7bdea7343f49d0753b55a5a3a015565d16"
  signer := ⟨"key", fun _ => ""⟩
  ice := ⟨fun _ _ => [], false⟩
  schemas :=
    { enroll := fun _ => some ⟨newInstallation, key, "Study", "linux", none, none, "owner-enrollment-token"⟩
      heartbeat := fun _ => none
      powerResult := fun _ => none
      remoteSignal := fun _ => none
      remoteConnected := fun _ => none
      remoteViolation := fun _ => none }

/-- The owner has issued a token. -/
def enrollWorld : World :=
  { plainWorld with
    devices := []
    enrollmentTokens := [⟨"t1", "space", "Home", "u1",
      "78474c8c84ae185874888b00ba62ef7bdea7343f49d0753b55a5a3a015565d16", 300000, none⟩] }

/-- An enrollment with the key of its headers, and the key of its body. -/
def enrollment (key : String) : SignedRequest :=
  ⟨some newInstallation, some plainKey, some "1970-01-01T00:00:00.000Z", some "n1", some plainSignature,
    "POST", "/api/agent/enroll", enrollBody key⟩

/-- It is carried out alone. -/
def enrollMoves (key : String) : List (Move Request Outside) :=
  .call (.enroll (enrollment key) ⟨none, none, none⟩) :: List.replicate 14 (.step 0)

/-- The device row of the enrollment. -/
def enrolledDevice (key : String) : DeviceRow :=
  ⟨"u", "u1", newInstallation, "Study", "linux", "agent", none, none, key, true, some 0, 0, some 0, none,
    none, none⟩

/-- The run of it. -/
abbrev enrollRun (key digest : String) : Config World Write HttpException Request Response :=
  accountRun (enrollPlatform key digest) enrollWorld (enrollMoves key)

/-- The statement that creates the device. -/
def enrollStep (key digest : String) : AccountStep where
  thread := 0
  request := .enroll (enrollment key) ⟨none, none, none⟩
  write := .devices (.insert (enrolledDevice key).Clashes (enrolledDevice key))
  before := (accountRun (enrollPlatform key digest) enrollWorld ((enrollMoves key).take 14)).log.shared

/-- The digest of the body that names the key of the headers. -/
def ownDigest : String := "AoK58ldRLpP0saK0QYpShWorDcOKENu5VXc6k4oJk8Y"

/-- The digest of the body that names another key. -/
def otherDigest : String := "9H8j94S4lYukk12O4NX4JyTlQQQKJ7RBLoCGMhwEUig"

theorem enrolled_possessed_own :
    enrollStep plainKey ownDigest ∈ (enrollRun plainKey ownDigest).log.history ∧
      Possessed (enrollPlatform plainKey ownDigest).crypto (enrollment plainKey)
        (enrolledDevice plainKey) := by
  have hmem : enrollStep plainKey ownDigest ∈ (enrollRun plainKey ownDigest).log.history :=
    List.mem_cons_self
  have hpossessed := (enrolled_possessed_iff (enrollPlatform plainKey ownDigest) enrollWorld ⟨.nil, .nil⟩
    (enrollMoves plainKey) _ hmem (enrollment plainKey) ⟨none, none, none⟩ (enrolledDevice plainKey) rfl
    ⟨rfl, by decide⟩).mpr
  refine ⟨hmem, hpossessed fun h input hheaders hinput => ?_⟩
  cases hheaders
  cases hinput
  exact ⟨rfl, rfl⟩

/-- A computer is enrolled under a key that did not sign its enrollment. -/
theorem enrolled_other :
    enrollStep otherKey otherDigest ∈ (enrollRun otherKey otherDigest).log.history ∧
      Enrolled (enrollStep otherKey otherDigest) (enrolledDevice otherKey) ∧
      ¬ Possessed (enrollPlatform otherKey otherDigest).crypto (enrollment otherKey)
        (enrolledDevice otherKey) := by
  refine ⟨List.mem_cons_self, ⟨rfl, by decide⟩, ?_⟩
  rintro ⟨⟨h, hheaders, -, hkey⟩, -⟩
  cases hheaders
  revert hkey
  decide

end Account
