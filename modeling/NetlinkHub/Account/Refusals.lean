import NetlinkHub.Account.Writes

/-! # Why a device is refused

The heartbeats and polls of an enrolled device, from the guard to the end of their services. The guard
refuses a well-signed request of the device for three reasons: the clock is too far from its timestamp, its
nonce is not let in, or the device is revoked. All of them have one status, and the services behind the
guard never use it (`safe_poll`). -/

namespace Account

open Api (Date HttpException)
open Concurrent (Log Outline Prog)
open Posix (Bytes)

/-- An exception that tells the device it is not welcome. -/
def Rejects (e : HttpException) : Prop := e.status = 401 ∨ e.status = 403

instance : DecidablePred Rejects := fun _ => inferInstanceAs (Decidable (_ ∨ _))

theorem not_rejects_badRequest {message : String} : ¬ Rejects (Api.badRequest message) := by
  simp [Rejects, Api.badRequest]

/-- Every device with a key is revoked; there may be none. -/
def Withdrawn (publicKey : String) (w : World) : Prop :=
  ∀ d ∈ w.devices, d.publicKey = publicKey → d.revokedAt.isSome

instance (publicKey : String) : DecidablePred (Withdrawn publicKey) := fun w =>
  inferInstanceAs (Decidable (∀ d ∈ w.devices, _))

/-- A device has a key and an installation. -/
def Registered (publicKey installationId : String) (w : World) : Prop :=
  ∃ d ∈ w.devices, d.publicKey = publicKey ∧ d.installationId = installationId

/-- The request presents a key and an installation, its timestamp can be read, and it is signed with the
private key. -/
def WellSigned (crypto : Crypto) (publicKey installationId : String) (signed : SignedRequest) : Prop :=
  ∃ h sentAt, signed.headers = some h ∧ h.publicKey = publicKey ∧ h.installationId = installationId ∧
    crypto.parseDate h.timestamp = some sentAt ∧ signed.verifies crypto h

/-- The timestamp of a request is not too far from the clock. -/
def InWindow (crypto : Crypto) (signed : SignedRequest) (w : World) : Prop :=
  ∀ h ∈ signed.headers, ∀ sentAt ∈ crypto.parseDate h.timestamp, ¬ Skewed w.api.clock sentAt

/-- The guard reads the clock when it shows about the time of the request, and the nonce that it records
is let in. -/
def Punctual (crypto : Crypto) (step : AccountStep) : Prop :=
  match step.request, step.write with
  | .agent _ signed, .dateNow => InWindow crypto signed step.before
  | .agent _ _, .createNonce row => step.before.admitsNonce row.nonce
  | _, _ => True

/-- A device that was registered stays registered. -/
theorem Registered.stays {publicKey installationId : String} {s t : World}
    (h : Registered publicKey installationId s) (hstay : DevicesStay s t) :
    Registered publicKey installationId t := by
  obtain ⟨d, hd, hkey, hinstallation⟩ := h
  obtain ⟨d', hd', hstays⟩ := hstay d hd
  exact ⟨d', hd', hstays.publicKey_eq.trans hkey, hstays.installationId_eq.trans hinstallation⟩

variable {P : Platform} {crypto : Crypto} {publicKey installationId : String} {σ τ : AccountLog} {i : Nat}
  {q : Request} {signed : SignedRequest} {route : AgentRoute}

/-! ## The guard -/

/-- Some statement of the thread found the device withdrawn, if the thread was punctual. -/
def Justified (crypto : Crypto) (publicKey : String) (i : Nat) (σ : AccountLog) : Prop :=
  (∀ step ∈ σ.own i, Punctual crypto step) → ∃ step ∈ σ.own i, Withdrawn publicKey step.before

/-- The device with a key is that of a principal. -/
def Identified (publicKey : String) (principal : AgentPrincipal) (w : World) : Prop :=
  ∃ d ∈ w.devices, d.publicKey = publicKey ∧ d.id = principal.deviceId

theorem Identified.stays {principal : AgentPrincipal} {s t : World}
    (h : Identified publicKey principal s) (hstay : DevicesStay s t) :
    Identified publicKey principal t := by
  obtain ⟨d, hd, hkey, hid⟩ := h
  obtain ⟨d', hd', hstays⟩ := hstay d hd
  exact ⟨d', hd', hstays.publicKey_eq.trans hkey, hstays.id_eq.trans hid⟩

/-- What the guard comes to. -/
def guardOutcome (crypto : Crypto) (publicKey : String) (i : Nat) :
    Except HttpException AgentPrincipal → AccountLog → Prop
  | .ok principal, σ => Identified publicKey principal σ.shared
  | .error _, σ => Justified crypto publicKey i σ

/-- A statement that the device has found withdrawn. -/
theorem justified_of_withdrawn {w : Write} (h : Withdrawn publicKey σ.shared) :
    Justified crypto publicKey i (σ.perform exec i q w) := by
  intro _
  refine ⟨⟨i, q, w, σ.shared⟩, ?_, h⟩
  rw [Log.own_perform_self]
  exact List.mem_cons_self

/-- A thread that was not punctual. -/
theorem justified_of_late {w : Write} (h : ¬ Punctual crypto ⟨i, q, w, σ.shared⟩) :
    Justified crypto publicKey i (σ.perform exec i q w) := by
  intro hpunctual
  rw [Log.own_perform_self] at hpunctual
  exact absurd (hpunctual _ List.mem_cons_self) h

/-- A statement that leaves devices alone, and then the rest. -/
theorem safe_device {α : Type} {w : Write} {next : World → Service α}
    {post : Except HttpException α → AccountLog → Prop} (hw : AccountWrite q w)
    (hnext : ∀ τ : AccountLog, DevicesStay σ.shared τ.shared → DevicesApart τ.shared →
      (deviceOutline P).Safe i q post (next τ.shared) (τ.perform exec i q w)) :
    (deviceOutline P).Safe i q post (.stmt w next) σ := by
  intro τ hlater hτ
  obtain ⟨hstay, hapart⟩ := devices_perform hw hτ
  exact ⟨hstay, hapart, hnext τ hlater.1 hτ⟩

/-- A program that hands out nothing leaves the devices alone. -/
theorem safe_true {α : Type} {p : Service α} (hp : p.Only (AccountWrite q)) :
    (deviceOutline P).Safe i q (fun _ _ => True) p σ :=
  Outline.Safe.of_only hp fun _ _ hw hτ => devices_perform hw hτ

/-- What `consumeNonce` comes to: it does not raise. -/
def nonceOutcome (crypto : Crypto) (publicKey : String) (i : Nat) :
    Except HttpException Bool → AccountLog → Prop
  | .ok true, _ => True
  | .ok false, σ => Justified crypto publicKey i σ
  | .error _, _ => False

theorem safe_consumeNonce_device (crypto : Crypto) (publicKey nonce : String) (sentAt : Date) :
    (deviceOutline P).Safe i (.agent route signed) (nonceOutcome crypto publicKey i)
      (consumeNonce nonce sentAt) σ := by
  unfold consumeNonce
  rw [Prog.perform_bind]
  refine safe_device trivial fun τ _ _ => ?_
  split
  · rename_i hnot
    exact justified_of_late hnot
  · -- From here on the answer is `true`.
    rw [Prog.perform_bind]
    refine safe_device trivial fun υ _ _ => ?_
    split
    · rw [newDate_bind]
      exact safe_device trivial fun _ _ _ => safe_device trivial fun _ _ _ => trivial
    · trivial

/-- The device that the guard finds by the key. -/
theorem findKey_of_registered {w : World} (hw : DevicesApart w)
    (h : Registered publicKey installationId w) :
    ∃ d ∈ w.devices, w.devices.find? (·.publicKey = publicKey) = some d ∧ d.publicKey = publicKey ∧
      d.installationId = installationId ∧ ∀ d' ∈ w.devices, d'.publicKey = publicKey → d' = d := by
  obtain ⟨d, hd, hkey, hinstallation⟩ := h
  have honly : ∀ d' ∈ w.devices, d'.publicKey = publicKey → d' = d := fun d' hd' hkey' =>
    Table.eq_of_key hw.keys hd' hd (hkey'.trans hkey.symm)
  refine ⟨d, hd, ?_, hkey, hinstallation, honly⟩
  cases hfind : w.devices.find? (·.publicKey = publicKey) with
  | none => exact absurd hkey (by simpa using List.find?_eq_none.mp hfind d hd)
  | some d' =>
    rw [honly d' (List.mem_of_find?_eq_some hfind) (by simpa using List.find?_some hfind)]

/-- **The guard** refuses a well-signed request of a registered device that is punctual only if the device
is withdrawn. -/
theorem safe_guard (hsigned : WellSigned crypto publicKey installationId signed)
    (hregistered : Registered publicKey installationId σ.shared) :
    (deviceOutline P).Safe i (.agent route signed) (guardOutcome crypto publicKey i)
      (canActivate crypto false signed) σ := by
  obtain ⟨h, sentAt, hheaders, hkey, hinstallation, hsent, hverifies⟩ := hsigned
  unfold canActivate
  rw [hheaders]
  dsimp only
  rw [hsent]
  dsimp only
  rw [dateNow_bind]
  refine safe_device trivial fun τ hτ _ => ?_
  split
  · rename_i hskewed
    exact justified_of_late fun hpunctual => hpunctual h hheaders sentAt hsent hskewed
  unfold admitRequest
  rw [select_bind]
  refine safe_device trivial fun υ hυ hapart => ?_
  obtain ⟨d, hd, hfind, hkeyd, hinstd, honly⟩ :=
    findKey_of_registered hapart ((hregistered.stays hτ).stays hυ)
  rw [hkey, hfind]
  dsimp only [admitDevice]
  rw [if_neg (not_not.mpr (hinstd.trans hinstallation.symm))]
  by_cases hrevoked : d.revokedAt.isSome
  · rw [if_pos hrevoked]
    refine justified_of_withdrawn fun d' hd' hkey' => ?_
    rw [honly d' hd' hkey']
    exact hrevoked
  · rw [if_neg hrevoked]
    dsimp only
    have hapart' : DevicesApart (υ.perform exec i (.agent route signed) (.select .devices)).shared :=
      hapart
    refine (safe_consumeNonce_device crypto publicKey _ _).bind hapart' (fun consumed φ hφ _ hpost => ?_)
      fun e φ _ _ hpost => ?_
    · cases consumed with
      | false => exact hpost
      | true => exact Identified.stays ⟨d, hd, hkeyd, rfl⟩ hφ
    · exact hpost.elim

/-! ## The services -/

/-- The answer tells the device that it is not welcome. -/
def Rejection : Except HttpException Response → Prop
  | .error e => Rejects e
  | .ok (.beat r) => r.revoked
  | .ok _ => False

theorem raises_updateSession (id : String) (change : Api.SessionChange) :
    (Api.updateSession id change).Raises (¬ Rejects ·) := by
  intro w
  dsimp only
  split
  · show ¬ Rejects _
    decide
  · trivial

theorem raises_close (sessionId : String) (reason : Api.RemoteEndReason) (actorUserId : Option String)
    (context : Option Api.RequestContext) :
    (Api.close sessionId reason actorUserId context).Raises (¬ Rejects ·) := by
  unfold Api.close Api.selectSession
  rw [Api.select_bind]
  intro w
  dsimp only
  split
  · show ¬ Rejects _
    decide
  split
  · trivial
  rw [Api.newDate_bind]
  intro w
  refine (raises_updateSession _ _).bind fun ended => ?_
  refine Prog.Raises.bind ?_ fun _ => trivial
  unfold Api.closeRest Api.connectedSeconds
  rw [Prog.perform_bind]
  intro w
  dsimp only
  split
  · exact fun _ _ => trivial
  · exact fun _ _ _ => trivial

theorem raises_expireStale : Api.expireStale.Raises (¬ Rejects ·) := by
  have heach : ∀ now sessions, (Api.closeEach now sessions).Raises (¬ Rejects ·) := by
    intro now sessions
    induction sessions with
    | nil => trivial
    | cons session rest ih =>
      unfold Api.closeEach
      split
      · exact ih
      · exact (raises_close _ _ _ _).bind fun _ => ih.bind fun _ => trivial
  exact fun _ _ => heach _ _

theorem raises_pendingGrantsFor (signer : Api.Signer) (principal : Api.AgentPrincipal) :
    (Api.pendingGrantsFor signer principal).Raises (¬ Rejects ·) := by
  unfold Api.pendingGrantsFor
  rw [Api.select_bind]
  intro w
  dsimp only
  split
  · trivial
  · exact raises_expireStale.bind fun _ _ => trivial

theorem raises_collectFor (signer : Api.Signer) (principal : Api.AgentPrincipal) :
    (Api.collectFor signer principal).Raises (¬ Rejects ·) := by
  have heach : ∀ now due, (Api.claimEach signer principal.deviceId now due).Raises (¬ Rejects ·) := by
    intro now due
    induction due with
    | nil => trivial
    | cons c due ih =>
      unfold Api.claimEach
      rw [Prog.perform_bind]
      intro w
      refine ih.bind fun signed => ?_
      split <;> trivial
  unfold Api.collectFor
  rw [Api.select_bind]
  intro w
  dsimp only
  split
  · trivial
  · exact fun _ _ _ => heach _ _

/-- What a poll comes to: a device that is turned away is withdrawn, if the poll was punctual. -/
def pollOutcome (crypto : Crypto) (publicKey : String) (i : Nat) (r : Except HttpException Response)
    (σ : AccountLog) : Prop := Rejection r → Justified crypto publicKey i σ

theorem raises_updateDevice (id : String) (data : DeviceRow → DeviceRow) :
    (updateDevice id data).Raises (¬ Rejects ·) := by
  intro w
  dsimp only
  split
  · show ¬ Rejects _
    decide
  · trivial

/-- The end of a heartbeat that is served. -/
def serveBeat (principal : AgentPrincipal) (agent : AgentRow) (input : AgentHeartbeatRequest)
    (now : Date) : Service AgentHeartbeatResponse := do
  updateAgent agent.id (beaten agent input now)
  let _ ← updateDevice principal.deviceId fun d =>
    { d with lastSeenAt := some now, appVersion := input.appVersion <|> d.appVersion }
  recordOnline principal agent
  .done ⟨true, false, none, some agent.id, agentHeartbeatIntervalSeconds⟩

theorem only_recordOnline (principal : AgentPrincipal) (agent : AgentRow) :
    (recordOnline principal agent).Only (AccountWrite q) := by
  unfold recordOnline
  split
  · trivial
  · exact .stmt trivial fun _ => .stmt trivial fun _ => trivial

theorem only_serveBeat (principal : AgentPrincipal) (agent : AgentRow) (input : AgentHeartbeatRequest)
    (now : Date) : (serveBeat principal agent input now).Only (AccountWrite q) := by
  refine Prog.Only.bind (.stmt (fun a => ⟨rfl, rfl⟩) fun w => ?_) fun _ => ?_
  · split <;> trivial
  have hdevice : ∀ now, (updateDevice principal.deviceId fun d =>
      { d with lastSeenAt := now, appVersion := input.appVersion <|> d.appVersion }).Only (AccountEffect q) :=
    fun now => only_updateDevice fun d => ⟨⟨rfl, id⟩, .inl⟩
  refine ((hdevice _).mono fun _ hw => hw.accountWrite).bind fun _ => ?_
  exact (only_recordOnline principal agent).bind fun _ => trivial

theorem raises_serveBeat (principal : AgentPrincipal) (agent : AgentRow) (input : AgentHeartbeatRequest)
    (now : Date) : (serveBeat principal agent input now).Raises (¬ Rejects ·) := by
  refine Prog.Raises.bind (fun w => ?_) fun _ => (raises_updateDevice _ _).bind fun _ => ?_
  · dsimp only
    split
    · trivial
    · show ¬ Rejects _
      decide
  refine Prog.Raises.bind ?_ fun _ => trivial
  unfold recordOnline
  split
  · trivial
  · exact fun _ _ => trivial

theorem answers_serveBeat (principal : AgentPrincipal) (agent : AgentRow) (input : AgentHeartbeatRequest)
    (now : Date) : (serveBeat principal agent input now).Answers (·.revoked = false) :=
  (Prog.answers_true _).bind fun _ _ => (Prog.answers_true _).bind fun _ _ =>
    (Prog.answers_true _).bind fun _ _ => rfl

/-- **The heartbeat** tells a device that it is revoked only if it is. -/
theorem safe_heartbeat {principal : AgentPrincipal} (input : AgentHeartbeatRequest)
    (hprincipal : Identified publicKey principal σ.shared) :
    (deviceOutline P).Safe i q
      (fun r τ => pollOutcome crypto publicKey i (r.map Response.beat) τ) (heartbeat principal input) σ := by
  unfold heartbeat
  split
  · exact fun hrejects => absurd hrejects not_rejects_badRequest
  rw [select_bind]
  refine safe_device trivial fun τ hτ hapart => ?_
  split
  · exact fun h => nomatch h
  · -- The device of the agent's row is the one that signed.
    rename_i agent revokedAt hfound
    refine fun _ => justified_of_withdrawn fun d hd hkey => ?_
    obtain ⟨a, ha, hpair⟩ := Option.map_eq_some_iff.mp hfound
    obtain ⟨row, hrow, hrevoked⟩ := Option.bind_eq_some_iff.mp (Prod.ext_iff.mp hpair).2
    obtain ⟨d', hd', hkey', hid'⟩ := hprincipal.stays hτ
    have hdevice : a.deviceId = principal.deviceId := by simpa using List.find?_some ha
    have hrowid : row.id = a.deviceId := by simpa using List.find?_some hrow
    obtain rfl : d = d' := Table.eq_of_key hapart.keys hd hd' (hkey.trans hkey'.symm)
    obtain rfl : d = row := Table.eq_of_key hapart.ids hd (List.mem_of_find?_eq_some hrow)
      (hid'.trans (hrowid.trans hdevice).symm)
    rw [hrevoked]
    rfl
  · -- A heartbeat that is served is answered without a rejection.
    rename_i agent hfound
    rw [newDate_bind]
    refine safe_device trivial fun υ _ hapart' => ?_
    have honly : (serveBeat principal agent input υ.shared.api.clock).Only (AccountWrite q) :=
      only_serveBeat principal agent input _
    have hserved := ((safe_true (P := P) (i := i) (σ := υ.perform exec i q (.api .clock)) honly).raises
      (raises_serveBeat principal agent input _)).answers (answers_serveBeat principal agent input _)
    refine hserved.mono hapart' fun r φ _ _ ⟨⟨_, hraises⟩, hanswers⟩ hrejects => ?_
    cases r with
    | ok a => exact absurd hrejects (by simp [Except.map, Rejection, hanswers a rfl])
    | error e => exact absurd hrejects (hraises e rfl)

/-- The routes that the loop of the agent polls. -/
def AgentRoute.Polled : AgentRoute → Prop
  | heartbeat => True
  | collect => True
  | grants => True
  | _ => False

/-- A poll of the power or remote service does not reject. -/
theorem safe_call {α : Type} {p : Api.Service α} {f : α → Response} (hf : ∀ a, ¬ Rejection (.ok (f a)))
    (honly : (f <$> lift p).Only (AccountWrite q)) (hraises : p.Raises (¬ Rejects ·))
    (hσ : DevicesApart σ.shared) :
    (deviceOutline P).Safe i q (pollOutcome crypto publicKey i) (f <$> lift p) σ := by
  have hanswers : (f <$> lift p).Answers fun r => ¬ Rejection (.ok r) :=
    (Prog.answers_true _).bind fun a _ => hf a
  refine ((safe_true honly).raises (hraises.lift.map f)).answers hanswers |>.mono hσ
    fun r φ _ _ ⟨⟨_, hraises⟩, hanswers⟩ hrejects => ?_
  cases r with
  | ok a => exact absurd hrejects (hanswers a rfl)
  | error e => exact absurd hrejects (hraises e rfl)

/-- What follows the guard. -/
theorem safe_servePolled {principal : AgentPrincipal} (hpolled : route.Polled) (body : Bytes)
    (hσ : DevicesApart σ.shared) (hprincipal : Identified publicKey principal σ.shared) :
    (deviceOutline P).Safe i q (pollOutcome crypto publicKey i) (route.serve P principal body) σ := by
  have honly := fun route => (only_serveAgent (P := P) (q := q) principal body route).mono fun _ hw => hw.accountWrite
  cases route with
  | heartbeat =>
    show (deviceOutline P).Safe i q _ (withBody _ _) σ
    unfold withBody
    split
    · exact fun hrejects => absurd hrejects not_rejects_badRequest
    · refine (safe_heartbeat _ hprincipal).bind hσ (fun a τ _ _ hpost => hpost) fun e τ _ _ hpost => hpost
  | collect =>
    exact safe_call (fun a => id) (honly .collect)
      ((raises_collectFor P.signer principal.toApi).map _) hσ
  | grants =>
    exact safe_call (fun a => id) (honly .grants)
      ((raises_pendingGrantsFor P.signer principal.toApi).map _) hσ
  | _ => exact hpolled.elim

/-- **A poll of a registered device** that is well signed and punctual is turned away only if the device
is withdrawn. -/
theorem safe_poll (hpolled : route.Polled)
    (hsigned : WellSigned P.crypto publicKey installationId signed)
    (hσ : DevicesApart σ.shared) (hregistered : Registered publicKey installationId σ.shared) :
    (deviceOutline P).Safe i (.agent route signed) (pollOutcome P.crypto publicKey i)
      (handler P (.agent route signed)) σ := by
  refine (safe_guard hsigned hregistered).bind hσ (fun principal τ _ hτ hprincipal => ?_)
    fun e τ _ _ hpost _ => hpost
  exact safe_servePolled hpolled signed.body hτ hprincipal

end Account
