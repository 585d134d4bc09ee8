import NetlinkHub.Account.Lockout
import NetlinkHub.Account.Writes

/-! # How a device comes to be trusted

Registration, sign-in, the verification of a device, the rotation of tokens, revocation and enrollment, by
any number of clients. A session is started, and a device becomes trusted, for reasons that the statements
of the run show (`sign_in_sound`): who presents a code knows nothing but its identifier, and what the code
is for was written down when a sign-in with the right password asked for it. -/

namespace Account

open Api (Date HttpException RequestContext)
open Concurrent (Config Log Machine Move Outline Prog Step)
open Posix (Bytes)
open Table (Evolves Op)

/-- The account services, and what the agent's enrollment takes from the platform. -/
structure AccountServices where
  auth : AuthService
  crypto : Crypto
  enrollSchema : Bytes → Option AgentEnrollRequest

/-- A call that has to do with signing in. -/
inductive SignInCall where
  | register (input : RegisterRequest) (context : RequestContext)
  | verifyEmail (input : VerifyEmailRequest) (context : RequestContext)
  | resendCode (challengeId : String)
  | login (input : LoginRequest) (context : RequestContext)
  | verifyDevice (input : VerifyDeviceRequest) (context : RequestContext)
  | refresh (refreshToken : String) (context : RequestContext)
  | logout (refreshToken : String) (context : RequestContext)
  | revoke (token : Option String) (deviceId : String) (context : RequestContext)
  | enroll (signed : SignedRequest) (context : RequestContext)
  deriving DecidableEq, Repr

/-- What it is answered. -/
inductive SignInAnswer where
  | challenge (r : ChallengeResponse)
  | done
  | signedIn (r : LoginResponse)
  | authenticated (r : AuthSuccess)
  | tokens (r : SessionTokens)
  | device (d : AuthenticatedDevice)
  | enrolled (r : AgentEnrollResponse)
  deriving DecidableEq, Repr

/-- What each call runs. -/
def signInHandler (F : AccountServices) : SignInCall → Service SignInAnswer
  | .register input context => .challenge <$> F.auth.register input context
  | .verifyEmail input context => (fun _ => .done) <$> F.auth.verifyEmail input context
  | .resendCode challengeId => .challenge <$> F.auth.resendCode challengeId
  | .login input context => .signedIn <$> F.auth.login input context
  | .verifyDevice input context =>
    .authenticated <$> verifyDevice F.auth.jwt F.auth.sessions F.auth.hashSecret input context
  | .refresh refreshToken context =>
    .tokens <$> refresh F.auth.jwt F.auth.sessions F.auth.hashSecret refreshToken context
  | .logout refreshToken context => (fun _ => .done) <$> F.auth.logout refreshToken context
  | .revoke token deviceId context => do
    let principal ← accessTokenGuard F.auth.jwt token
    .device <$> revoke principal.userId deviceId context
  | .enroll signed context =>
    .enrolled <$> enrollRoute F.crypto F.auth.hashSecret F.enrollSchema signed context

/-- The rest of the control plane may do anything but touch users, devices and codes. -/
def elsewhere (w' w : World) : World :=
  { w' with users := w.users, devices := w.devices, challenges := w.challenges }

/-- Any number of calls. -/
def signInMachine (F : AccountServices) :
    Machine World Write HttpException SignInCall World SignInAnswer :=
  ⟨signInHandler F, exec, elsewhere⟩

/-- The accounts after a run. -/
abbrev signInRun (F : AccountServices) (w : World) (moves : List (Move SignInCall World)) :
    Config World Write HttpException SignInCall SignInAnswer :=
  Run.run (signInMachine F).step moves (Config.initial w)

/-- A statement of such a run. -/
abbrev SignInStep := Step World Write SignInCall

/-- The log of such a run. -/
abbrev SignInLog := Log World Write SignInCall

/-! ## What the statements of a call show -/

/-- The purpose of a code for a device. -/
def deviceVerification : String := "device_verification"

/-- A refresh token that the statement adds. -/
def NewToken (step : SignInStep) (row : RefreshTokenRow) : Prop :=
  row ∈ (exec step.write step.before).refreshTokens ∧ ∀ t ∈ step.before.refreshTokens, t.id ≠ row.id

/-- A device that the statement makes trusted, or adds as one. -/
def BecomesTrusted (step : SignInStep) (d : DeviceRow) : Prop :=
  d ∈ (exec step.write step.before).devices ∧ d.trusted ∧
    ∀ d' ∈ step.before.devices, d'.id = d.id → ¬ d'.trusted

/-- A sign-in has found a user by the address in its request, and the password in its request is that of
the user. -/
def Presented (F : AccountServices) (own : List SignInStep) (user : UserRow) : Prop :=
  ∃ input context,
    (∃ look ∈ own, look.request = .login input context ∧ look.write = .select .users ∧
      findEmail input.email look.before = some user) ∧
    (∃ step ∈ own, step.request = .login input context ∧
      step.write = .verifyPassword (some user.id) user.passwordHash input.password) ∧
    F.auth.passwords.verify user.passwordHash input.password

/-- A sign-in has shown the password of a user, whom it has found verified and enabled. -/
def PasswordShown (F : AccountServices) (own : List SignInStep) (userId : String) : Prop :=
  ∃ user, Presented F own user ∧ user.id = userId ∧ user.emailVerified ∧ user.disabledAt = none

/-- A call has read a device of a user, as one that is trusted and not revoked. -/
def ReadTrusted (own : List SignInStep) (userId deviceId : String) : Prop :=
  ∃ look ∈ own, (∃ data, look.write = .devices (.update (·.id = deviceId) data)) ∧
    ∃ d, findDevice deviceId look.before = some d ∧ d.userId = userId ∧ d.trusted ∧ d.revokedAt = none

/-- What a code is for. -/
structure Binding where
  id : String
  userId : String
  deviceId : Option String
  purpose : String
  deriving DecidableEq, Repr

/-- What a challenge is for. -/
def ChallengeRow.binding (c : ChallengeRow) : Binding := ⟨c.id, c.userId, c.deviceId, c.purpose⟩

/-- A sign-in that has shown the password of a user has asked for a code for one of the user's devices. -/
def AskedFor (F : AccountServices) (history : List SignInStep) (b : Binding) : Prop :=
  ∃ step earlier, step :: earlier <:+ history ∧
    (∃ clash row, step.write = .challenges (.insert clash row) ∧ row.binding = b) ∧
    PasswordShown F (earlier.filter (·.thread = step.thread)) b.userId ∧
    ∃ d ∈ step.before.devices, b.deviceId = some d.id ∧ d.userId = b.userId

/-- A call has read a challenge, whose code is the one in its request, and has used it up. -/
def UsedUp (F : AccountServices) (own : List SignInStep) (b : Binding) : Prop :=
  ∃ input context c,
    (∃ look ∈ own, look.request = .verifyDevice input context ∧ look.write = .select .challenges ∧
      findChallenge input.challengeId look.before = some c) ∧
    c.binding = b ∧ F.auth.hashSecret input.code = c.codeHash ∧
    ∃ claim ∈ own, (∃ now, claim.write = .challenges (.update
        (fun r => r.id = c.id ∧ r.consumedAt = none) fun r => { r with consumedAt := some now })) ∧
      ∃ r ∈ claim.before.challenges, r.binding = b ∧ r.consumedAt = none

/-- A code for a user and a device was asked for by a sign-in with the user's password, and used up. -/
def CodeUsed (F : AccountServices) (history own : List SignInStep) (userId deviceId : String) : Prop :=
  ∃ b : Binding, b.userId = userId ∧ b.deviceId = some deviceId ∧ b.purpose = deviceVerification ∧
    UsedUp F own b ∧ AskedFor F history b

/-- A call has rotated a token of the same session. -/
def Rotated (own : List SignInStep) (row : RefreshTokenRow) : Prop :=
  ∃ look ∈ own, (∃ refreshToken context, look.request = .refresh refreshToken context) ∧
    ∃ t ∈ look.before.refreshTokens,
      t.familyId = row.familyId ∧ t.userId = row.userId ∧ t.deviceId = row.deviceId

/-- An enrollment has claimed a token that a user has issued. -/
def EnrolledBy (F : AccountServices) (own : List SignInStep) (userId : String) : Prop :=
  ∃ signed context input t, F.enrollSchema signed.body = some input ∧
    (∃ look ∈ own, look.request = .enroll signed context ∧ look.write = .select .enrollmentTokens ∧
      look.before.enrollmentTokens.find? (·.tokenHash = F.auth.hashSecret input.enrollmentToken) = some t) ∧
    t.userId = userId ∧ t.usedAt = none ∧
    ∃ claim ∈ own, (∃ now, claim.write = .enrollmentTokens (.update
        (fun r => r.id = t.id ∧ r.usedAt = none) fun r => { r with usedAt := some now })) ∧
      ∃ r ∈ claim.before.enrollmentTokens, r.id = t.id ∧ r.usedAt = none

/-- A session is started for a user that is verified and enabled: by a sign-in with the user's password on
a device that it has read as trusted, or with a code that such a sign-in has asked for. -/
structure SignedIn (F : AccountServices) (history own : List SignInStep) (w : World)
    (userId deviceId : String) : Prop where
  user : ∃ user ∈ findUser userId w, user.emailVerified ∧ user.disabledAt = none
  shown : PasswordShown F own userId ∧ ReadTrusted own userId deviceId ∨
    CodeUsed F history own userId deviceId

/-! ## What a statement may do -/

/-- What a user may become. -/
structure UserStays (u u' : UserRow) : Prop where
  id : u'.id = u.id
  verified : u.emailVerified → u'.emailVerified
  disabled : u'.disabledAt = u.disabledAt

/-- A statement that starts no session, makes no device trusted and issues no code for a device. -/
def Write.Harmless : Write → Prop
  | .users (.insert clash row) => ∀ u : UserRow, u.id = row.id → clash u
  | .users (.update _ data) => ∀ u, UserStays u (data u)
  | .users (.delete _) => False
  | .devices (.insert clash row) => clash = row.Clashes ∧ ¬ row.trusted
  | .devices (.update _ data) => ∀ d, DeviceStays d (data d) ∧ ((data d).trusted → d.trusted)
  | .devices (.delete _) => False
  | .refreshTokens (.insert ..) => False
  | .refreshTokens (.update _ data) => ∀ t, (data t).id = t.id
  | .refreshTokens (.delete _) => False
  | .challenges (.insert clash row) =>
    (∀ c : ChallengeRow, c.id = row.id → clash c) ∧ row.purpose ≠ deviceVerification
  | .challenges (.update _ data) => ∀ c, (data c).binding = c.binding
  | .challenges (.delete _) => False
  | _ => True

/-- What a statement may do, after the statements before it. -/
def Allowed (F : AccountServices) (history : List SignInStep) (step : SignInStep) : Prop :=
  let own := history.filter (·.thread = step.thread)
  match step.write with
  | .devices (.insert clash row) => clash = row.Clashes ∧ (row.trusted → EnrolledBy F own row.userId)
  | .devices (.update sel data) => ∀ d, DeviceStays d (data d) ∧
    (d ∈ step.before.devices → sel d → (data d).trusted → d.trusted ∨ CodeUsed F history own d.userId d.id)
  | .refreshTokens (.insert _ row) =>
    Rotated own row ∨ SignedIn F history own step.before row.userId row.deviceId
  | .challenges (.insert clash row) => (∀ c : ChallengeRow, c.id = row.id → clash c) ∧
    (row.purpose = deviceVerification → PasswordShown F own row.userId ∧
      ∃ d ∈ step.before.devices, row.deviceId = some d.id ∧ d.userId = row.userId)
  | w => w.Harmless

/-- What the world keeps of users, devices and codes. -/
structure Stays (s t : World) : Prop where
  users : Evolves UserStays s.users t.users
  devices : DevicesStay s t
  codes : Evolves (fun c c' : ChallengeRow => c'.binding = c.binding) s.challenges t.challenges

/-- Rows have identifiers of their own. -/
structure RowsApart (s : World) : Prop where
  users : (s.users.map (·.id)).Nodup
  devices : DevicesApart s
  codes : (s.challenges.map (·.id)).Nodup

/-- Every statement was allowed, and every code for a device was asked for. -/
structure TrustInv (F : AccountServices) (σ : SignInLog) : Prop where
  apart : RowsApart σ.shared
  past : ∀ step ∈ σ.history, Stays step.before σ.shared
  asked : ∀ c ∈ σ.shared.challenges, c.purpose = deviceVerification → AskedFor F σ.history c.binding
  allowed : ∀ step earlier, step :: earlier <:+ σ.history → Allowed F earlier step

variable {F : AccountServices} {s t u : World} {σ τ : SignInLog} {i : Nat} {q : SignInCall} {w : Write}

theorem UserStays.refl (u : UserRow) : UserStays u u := ⟨rfl, fun h => h, rfl⟩

theorem UserStays.trans {a b c : UserRow} (h : UserStays a b) (h' : UserStays b c) : UserStays a c :=
  ⟨h'.id.trans h.id, h'.verified ∘ h.verified, h'.disabled.trans h.disabled⟩

theorem Stays.refl (s : World) : Stays s s :=
  ⟨Evolves.refl UserStays.refl _, .refl s, fun c hc => ⟨c, hc, rfl⟩⟩

theorem Stays.trans (h : Stays s t) (h' : Stays t u) : Stays s u :=
  ⟨Evolves.trans UserStays.trans h.users h'.users, h.devices.trans h'.devices,
    Evolves.trans (fun h h' => Eq.trans h' h) h.codes h'.codes⟩

theorem Write.Harmless.allowed (h : w.Harmless) (history : List SignInStep) :
    Allowed F history ⟨i, q, w, s⟩ := by
  cases w with
  | devices op => cases op with
    | insert clash row => exact ⟨h.1, fun htrusted => absurd htrusted h.2⟩
    | update sel data => exact fun d => ⟨(h d).1, fun _ _ htrusted => .inl ((h d).2 htrusted)⟩
    | delete sel => exact h.elim
  | refreshTokens op => cases op with
    | insert clash row => exact h.elim
    | update sel data => exact h
    | delete sel => exact h.elim
  | challenges op => cases op with
    | insert clash row => exact ⟨h.1, fun hpurpose => absurd hpurpose h.2⟩
    | update sel data => exact h
    | delete sel => exact h.elim
  | _ => exact h

/-! ## What a run keeps -/

/-- A code that was asked for earlier was asked for. -/
theorem AskedFor.mono {history history' : List SignInStep} {b : Binding} (h : AskedFor F history b)
    (hsuffix : history <:+ history') : AskedFor F history' b := by
  obtain ⟨step, earlier, hstep, hasked⟩ := h
  exact ⟨step, earlier, hstep.trans hsuffix, hasked⟩

/-- Users stay, and keep apart, in whatever is allowed. -/
theorem Allowed.users {history : List SignInStep} (h : Allowed F history ⟨i, q, w, s⟩)
    (hs : (s.users.map (·.id)).Nodup) :
    Evolves UserStays s.users (exec w s).users ∧ ((exec w s).users.map (·.id)).Nodup := by
  by_cases hop : ∃ op, w = .users op
  · obtain ⟨op, rfl⟩ := hop
    cases op with
    | insert clash row => exact ⟨Table.evolves_insert UserStays.refl, Table.nodup_insert h hs⟩
    | update sel data =>
      refine ⟨Table.evolves_update UserStays.refl fun u _ _ => h u, ?_⟩
      show (((Op.update sel data).apply s.users).map (·.id)).Nodup
      rw [Table.map_update fun u => (h u).id]
      exact hs
    | delete sel => exact h.elim
  · rw [users_exec fun op hw => hop ⟨op, hw⟩]
    exact ⟨Evolves.refl UserStays.refl _, hs⟩

/-- Devices stay, and keep apart, in whatever is allowed. -/
theorem Allowed.devices {history : List SignInStep} (h : Allowed F history ⟨i, q, w, s⟩)
    (hs : DevicesApart s) : DevicesStay s (exec w s) ∧ DevicesApart (exec w s) := by
  by_cases hop : ∃ op, w = .devices op
  · obtain ⟨op, rfl⟩ := hop
    cases op with
    | insert clash row =>
      obtain ⟨rfl, -⟩ := h
      exact ⟨Table.evolves_insert DeviceStays.refl, hs.insert row⟩
    | update sel data => exact ⟨devicesStay_update fun d => (h d).1, hs.update fun d => (h d).1⟩
    | delete sel => exact h.elim
  · have heq : (exec w s).devices = s.devices := devices_exec (fun op hw => hop ⟨op, hw⟩) s
    exact ⟨.of_eq heq, hs.congr heq⟩

/-- Codes stay, and keep apart, in whatever is allowed. -/
theorem Allowed.codes {history : List SignInStep} (h : Allowed F history ⟨i, q, w, s⟩)
    (hs : (s.challenges.map (·.id)).Nodup) :
    Evolves (fun c c' : ChallengeRow => c'.binding = c.binding) s.challenges (exec w s).challenges ∧
      ((exec w s).challenges.map (·.id)).Nodup := by
  by_cases hop : ∃ op, w = .challenges op
  · obtain ⟨op, rfl⟩ := hop
    cases op with
    | insert clash row => exact ⟨Table.evolves_insert fun _ => rfl, Table.nodup_insert h.1 hs⟩
    | update sel data =>
      have hdata : ∀ c, (data c).binding = c.binding := h
      have hid : ∀ c, (data c).id = c.id := fun c => congrArg Binding.id (hdata c)
      refine ⟨Table.evolves_update (fun _ => rfl) fun c _ _ => hdata c, ?_⟩
      show (((Op.update sel data).apply s.challenges).map (·.id)).Nodup
      rw [Table.map_update hid]
      exact hs
    | delete sel => exact h.elim
  · rw [challenges_exec fun op hw => hop ⟨op, hw⟩]
    exact ⟨fun c hc => ⟨c, hc, rfl⟩, hs⟩

/-- **Whatever is allowed** keeps the rows, and keeps them apart. -/
theorem Allowed.stays {history : List SignInStep} (h : Allowed F history ⟨i, q, w, s⟩) (hs : RowsApart s) :
    Stays s (exec w s) ∧ RowsApart (exec w s) := by
  obtain ⟨husers, husers'⟩ := h.users hs.users
  obtain ⟨hdevices, hdevices'⟩ := h.devices hs.devices
  obtain ⟨hcodes, hcodes'⟩ := h.codes hs.codes
  exact ⟨⟨husers, hdevices, hcodes⟩, ⟨husers', hdevices', hcodes'⟩⟩

/-- A code for a device that is in the table after a statement was asked for, if it was there before or
the statement was allowed. -/
theorem Allowed.asked {history : List SignInStep} (h : Allowed F history ⟨i, q, w, s⟩)
    (hs : ∀ c ∈ s.challenges, c.purpose = deviceVerification → AskedFor F history c.binding) :
    ∀ c ∈ (exec w s).challenges, c.purpose = deviceVerification →
      AskedFor F (⟨i, q, w, s⟩ :: history) c.binding := by
  intro c hc hpurpose
  by_cases hop : ∃ op, w = .challenges op
  · obtain ⟨op, rfl⟩ := hop
    cases op with
    | insert clash row =>
      rcases Table.mem_insert hc with hold | rfl
      · exact (hs c hold hpurpose).mono (List.suffix_cons _ _)
      · obtain ⟨hshown, d, hd, hdevice, howner⟩ := h.2 hpurpose
        exact ⟨_, history, List.suffix_refl _, ⟨clash, c, rfl, rfl⟩, hshown, d, hd, hdevice, howner⟩
    | update sel data =>
      obtain ⟨r, hr, rfl⟩ := Table.mem_update.mp hc
      have hbinding : (if sel r then data r else r).binding = r.binding := by
        split
        · exact (h : ∀ c, (data c).binding = c.binding) r
        · rfl
      have hr' : r.purpose = deviceVerification := (congrArg Binding.purpose hbinding).symm.trans hpurpose
      rw [hbinding]
      exact (hs r hr hr').mono (List.suffix_cons _ _)
    | delete sel => exact h.elim
  · rw [challenges_exec fun op hw => hop ⟨op, hw⟩] at hc
    exact (hs c hc hpurpose).mono (List.suffix_cons _ _)

/-- **What a statement keeps** that is allowed. -/
theorem TrustInv.perform (h : TrustInv F σ) (hw : Allowed F σ.history ⟨i, q, w, σ.shared⟩) :
    Stays σ.shared (exec w σ.shared) ∧ TrustInv F (σ.perform exec i q w) := by
  obtain ⟨hstays, hapart⟩ := hw.stays h.apart
  refine ⟨hstays, hapart, List.forall_mem_cons.mpr ⟨hstays, fun step hstep => (h.past step hstep).trans hstays⟩,
    hw.asked h.asked, fun step earlier hsuffix => ?_⟩
  rcases List.suffix_cons_iff.mp hsuffix with heq | hsuffix
  · obtain ⟨rfl, rfl⟩ := List.cons.inj heq
    exact hw
  · exact h.allowed step earlier hsuffix

/-- What was allowed so far. -/
def trustOutline (F : AccountServices) : Outline (signInMachine F) where
  inv := TrustInv F
  rely σ τ := Stays σ.shared τ.shared
  refl σ := .refl σ.shared
  trans h h' := h.trans h'
  env e σ h := by
    have hsame : Stays σ.shared (elsewhere e σ.shared) :=
      ⟨Evolves.refl UserStays.refl _, .of_eq rfl, fun c hc => ⟨c, hc, rfl⟩⟩
    exact ⟨⟨⟨h.apart.users, h.apart.devices.congr rfl, h.apart.codes⟩,
      fun step hstep => (h.past step hstep).trans hsame, h.asked, h.allowed⟩, hsame⟩

/-! ## Programs -/

/-- A fact that stays true while rows stay and the statements of a call are kept. -/
def Lasting (i : Nat) (K : SignInLog → Prop) : Prop :=
  ∀ σ τ, Stays σ.shared τ.shared → σ.own i ⊆ τ.own i → K σ → K τ

theorem Lasting.later {K : SignInLog → Prop} (hK : Lasting i K) (hlater : (trustOutline F).Later i σ τ)
    (hσ : K σ) : K τ := by
  refine hK σ τ hlater.1 ?_ hσ
  rw [hlater.2]
  exact List.Subset.refl _

theorem own_subset_perform : σ.own i ⊆ (σ.perform exec i q w).own i :=
  Log.own_subset (List.suffix_cons _ _)

theorem Lasting.perform {K : SignInLog → Prop} (hK : Lasting i K)
    (hstays : Stays σ.shared (exec w σ.shared)) (hσ : K σ) : K (σ.perform exec i q w) :=
  hK σ _ hstays own_subset_perform hσ

/-- A fact about the statements of a call that more of them do not change. -/
theorem lasting_own {E : List SignInStep → Prop} (hE : ∀ own own', own ⊆ own' → E own → E own') :
    Lasting i fun σ => E (σ.own i) := fun _ _ _ hsub hσ => hE _ _ hsub hσ

/-- A statement that a call has carried out. -/
theorem lasting_exists {R : SignInStep → Prop} : Lasting i fun σ => ∃ step ∈ σ.own i, R step :=
  fun _ _ _ hsub ⟨step, hstep, h⟩ => ⟨step, hsub hstep, h⟩

/-- **A program of statements that are allowed while a fact holds.** -/
theorem safe_while {α : Type} {W : Write → Prop} {K : SignInLog → Prop} {p : Service α} (hp : p.Only W)
    (hK : Lasting i K)
    (hW : ∀ w τ, W w → TrustInv F τ → K τ → Allowed F τ.history ⟨i, q, w, τ.shared⟩) (hσ : K σ) :
    (trustOutline F).Safe i q (fun _ τ => K τ) p σ := by
  induction p generalizing σ with
  | done a => exact hσ
  | raise e => exact hσ
  | stmt w next ih =>
    intro τ hlater hτ
    have hKτ : K τ := hK.later hlater hσ
    obtain ⟨hstays, hkept⟩ := hτ.perform (hW w τ hp.1 hτ hKτ)
    exact ⟨hstays, hkept, ih τ.shared (hp.2 τ.shared) (hK.perform hstays hKτ)⟩

/-- A program of harmless statements keeps every fact that lasts. -/
theorem safe_harmless {α : Type} {K : SignInLog → Prop} {p : Service α} (hp : p.Only Write.Harmless)
    (hK : Lasting i K) (hσ : K σ) : (trustOutline F).Safe i q (fun _ τ => K τ) p σ :=
  safe_while hp hK (fun _ τ hw _ _ => hw.allowed τ.history) hσ

theorem lasting_true : Lasting i fun _ => True := fun _ _ _ _ _ => trivial

/-- A program of harmless statements. -/
theorem safe_of_harmless {α : Type} {p : Service α} (hp : p.Only Write.Harmless) :
    (trustOutline F).Safe i q (fun _ _ => True) p σ := safe_harmless hp lasting_true trivial

/-- One harmless statement, and the rest of the program. -/
theorem safe_statement {α : Type} {post : Except HttpException α → SignInLog → Prop}
    {next : World → Service α} (hw : w.Harmless)
    (hnext : ∀ τ, (trustOutline F).Later i σ τ → TrustInv F τ → TrustInv F (τ.perform exec i q w) →
      Stays τ.shared (exec w τ.shared) →
        (trustOutline F).Safe i q post (next τ.shared) (τ.perform exec i q w)) :
    (trustOutline F).Safe i q post (.stmt w next) σ := by
  intro τ hlater hτ
  obtain ⟨hstays, hkept⟩ := hτ.perform (hw.allowed τ.history)
  exact ⟨hstays, hkept, hnext τ hlater hτ hkept hstays⟩

/-! ## Harmless programs -/

theorem Write.Bland.harmless (h : w.Bland) : w.Harmless := by
  cases w with
  | users op => exact h.elim
  | devices op => exact h.elim
  | refreshTokens op => exact h.elim
  | challenges op => exact h.elim
  | _ => trivial

theorem Write.Gate.harmless (h : w.Gate) : w.Harmless := by
  cases w with
  | users op => exact h.elim
  | devices op => exact h.elim
  | refreshTokens op => exact h.elim
  | challenges op => exact h.elim
  | _ => trivial

theorem harmless_record {α : Type} (row : Api.AuditRow) {p : Service α} (hp : p.Only Write.Harmless) :
    (record row >>= fun _ => p).Only Write.Harmless := by
  rw [record_bind]
  exact .stmt trivial fun _ => hp

theorem harmless_limit {α : Type} (message : String) {p : Service α} (hp : p.Only Write.Harmless) :
    (enforceLimit message >>= fun _ => p).Only Write.Harmless := by
  rw [enforceLimit_bind]
  refine .stmt trivial fun w => ?_
  split
  · trivial
  · exact hp

theorem harmless_consumed (now : Date) : ∀ c : ChallengeRow, (c.consumed now).binding = c.binding :=
  fun _ => rfl

theorem harmless_issue {hashSecret : String → String} {input : IssueInput}
    (hinput : input.purpose ≠ deviceVerification) :
    (ChallengeService.issue hashSecret input).Only Write.Harmless := by
  refine (only_issueCode input).mono fun w hw => ?_
  unfold IssueWrite at hw
  split at hw
  · obtain ⟨-, now, rfl⟩ := hw
    exact harmless_consumed now
  · rename_i clash row
    obtain ⟨rfl, -, -, hpurpose, -⟩ := hw
    refine ⟨fun c hc => decide_eq_true hc, ?_⟩
    rw [hpurpose]
    exact hinput
  · trivial
  · exact hw.harmless

theorem harmless_resend {hashSecret : String → String} (challengeId : String) (exposeDevCode : Bool) :
    (ChallengeService.resend hashSecret challengeId exposeDevCode).Only Write.Harmless := by
  refine (only_resendCode challengeId exposeDevCode).mono fun w hw => ?_
  unfold ResendWrite at hw
  split at hw
  · obtain ⟨-, codeHash, now, rfl⟩ := hw
    exact fun _ => rfl
  · trivial
  · exact hw.harmless

theorem harmless_updateChallenge (id : String) {data : ChallengeRow → ChallengeRow}
    (h : ∀ c, (data c).binding = c.binding) : (updateChallenge id data).Only Write.Harmless := by
  unfold updateChallenge
  refine .stmt h fun w => ?_
  split <;> trivial

theorem harmless_updateUser (id : String) {data : UserRow → UserRow} (h : ∀ u, UserStays u (data u)) :
    (updateUser id data).Only Write.Harmless := by
  unfold updateUser
  refine .stmt h fun w => ?_
  split <;> trivial

theorem harmless_updateDevice (id : String) {data : DeviceRow → DeviceRow}
    (h : ∀ d, DeviceStays d (data d) ∧ ((data d).trusted → d.trusted)) :
    (updateDevice id data).Only Write.Harmless := by
  unfold updateDevice
  refine .stmt h fun w => ?_
  split <;> trivial

theorem harmless_consume {hashSecret : String → String} (challengeId code purpose : String) :
    (consume hashSecret challengeId code purpose).Only Write.Harmless := by
  unfold consume
  rw [select_bind]
  refine .stmt trivial fun w => ?_
  dsimp only
  split
  · trivial
  split
  · trivial
  split
  · trivial
  rw [dateNow_bind]
  refine .stmt trivial fun w => ?_
  split
  · trivial
  split
  · trivial
  split
  · refine Prog.Only.bind (harmless_updateChallenge _ fun _ => rfl) fun updated => ?_
    split
    · rw [newDate_bind]
      refine .stmt trivial fun _ => ?_
      exact Prog.Only.bind (harmless_updateChallenge _ fun _ => rfl) fun _ => trivial
    · trivial
  · rw [newDate_bind]
    refine .stmt trivial fun _ => ?_
    rw [Prog.perform_bind]
    refine .stmt (fun _ => rfl) fun _ => ?_
    split <;> trivial

theorem emailVerification_ne : "email_verification" ≠ deviceVerification := by decide

theorem harmless_register {A : AuthService} (input : RegisterRequest) (context : RequestContext) :
    (A.register input context).Only Write.Harmless := by
  unfold AuthService.register
  refine harmless_limit _ ?_
  rw [select_bind]
  refine .stmt trivial fun w => ?_
  split
  · unfold AuthService.registerAgain
    refine harmless_record _ ?_
    split
    · exact .stmt trivial fun _ => .stmt trivial fun _ => trivial
    · exact (harmless_issue emailVerification_ne).bind fun _ => trivial
  · unfold AuthService.registerNew
    rw [Prog.perform_bind]
    refine .stmt trivial fun w => ?_
    rw [randomUUID_bind]
    refine .stmt trivial fun w => ?_
    rw [newDate_bind]
    refine .stmt trivial fun w => Prog.Only.bind ?_ fun _ => harmless_record _ ?_
    · unfold createUser
      refine .stmt (fun u hu => decide_eq_true (.inl hu)) fun w => ?_
      split <;> trivial
    · refine Prog.Only.bind (harmless_issue emailVerification_ne) fun issued => ?_
      exact harmless_record _ trivial

theorem harmless_verifyEmail {A : AuthService} (input : VerifyEmailRequest) (context : RequestContext) :
    (A.verifyEmail input context).Only Write.Harmless := by
  unfold AuthService.verifyEmail
  refine harmless_limit _ ((harmless_consume ..).bind fun result => ?_)
  split
  · exact harmless_record _ trivial
  · refine Prog.Only.bind (harmless_updateUser _ fun u => ⟨rfl, fun _ => rfl, rfl⟩) fun _ => ?_
    exact .stmt trivial fun _ => trivial

theorem harmless_resendCode {A : AuthService} (challengeId : String) :
    (A.resendCode challengeId).Only Write.Harmless := by
  unfold AuthService.resendCode
  exact harmless_limit _ (harmless_resend ..)

theorem harmless_revokeFamily (familyId reason : String) :
    (revokeFamily familyId reason).Only Write.Harmless := by
  unfold revokeFamily
  rw [newDate_bind]
  exact .stmt trivial fun _ => .stmt (fun _ => rfl) fun _ => trivial

theorem harmless_logout {A : AuthService} (refreshToken : String) (context : RequestContext) :
    (A.logout refreshToken context).Only Write.Harmless := by
  unfold AuthService.logout revokeByToken
  refine Prog.Only.bind ?_ fun _ => .stmt trivial fun _ => trivial
  rw [select_bind]
  refine .stmt trivial fun w => ?_
  split
  · trivial
  · exact (harmless_revokeFamily ..).bind fun _ => trivial

/-- A program of the power or remote service does no harm. -/
theorem harmless_lift {α : Type} (p : Api.Service α) : (lift p).Only Write.Harmless :=
  Prog.Only.lift (Prog.only_true p) fun _ _ => trivial

theorem harmless_revoke (userId deviceId : String) (context : RequestContext) :
    (revoke userId deviceId context).Only Write.Harmless := by
  have hsweep : ∀ device, (sweepDevice userId device context).Only Write.Harmless := by
    intro device
    unfold sweepDevice revokeDeviceSessions consumeChallenges
    refine Prog.Only.bind ?_ fun killed => ?_
    · rw [newDate_bind]
      exact .stmt trivial fun _ => .stmt (fun _ => rfl) fun _ => trivial
    rw [Prog.perform_bind]
    refine .stmt trivial fun _ => (harmless_lift _).bind fun ended => Prog.Only.bind ?_ fun _ => ?_
    · rw [newDate_bind]
      exact .stmt trivial fun _ => .stmt (fun _ => rfl) fun _ => trivial
    · exact .stmt trivial fun _ => trivial
  unfold revoke
  refine Prog.Only.bind ?_ fun device => ?_
  · unfold requireOwnDevice
    rw [select_bind]
    refine .stmt trivial fun w => ?_
    split
    · trivial
    · split <;> trivial
  split
  · trivial
  rw [newDate_bind]
  refine .stmt trivial fun _ => Prog.Only.bind ?_ fun _ => (hsweep device).bind fun _ => trivial
  exact harmless_updateDevice _ fun d => ⟨⟨rfl, fun _ => rfl⟩, fun h => nomatch h⟩

/-! ## Starting a session -/

/-- What a rotation does: a token of the same session is added. -/
def RotateWrite (existing : RefreshTokenRow) : Write → Prop
  | .refreshTokens (.insert _ row) =>
    existing.familyId = row.familyId ∧ existing.userId = row.userId ∧ existing.deviceId = row.deviceId
  | w => w.Harmless

/-- Marking a token replaced does no harm. -/
theorem harmless_markReplaced (replacesId : Option String) (replacedById : String) :
    (markReplaced replacesId replacedById).Only Write.Harmless := by
  unfold markReplaced
  split
  · trivial
  · refine .stmt (fun _ => rfl) fun w => ?_
    split <;> trivial

theorem Write.Harmless.rotateWrite (h : w.Harmless) (existing : RefreshTokenRow) :
    RotateWrite existing w := by
  unfold RotateWrite
  split
  · exact h.elim
  · exact h

theorem only_exchangeToken {A : AuthService} (existing : RefreshTokenRow) (device : DeviceRow) :
    (exchange A.jwt A.sessions A.hashSecret existing device).Only (RotateWrite existing) := by
  have hharmless : ∀ {α : Type} {p : Service α}, p.Only Write.Harmless → p.Only (RotateWrite existing) :=
    fun hp => hp.mono fun w hw => hw.rotateWrite existing
  unfold exchange
  rw [newDate_bind]
  refine .stmt trivial fun w => ?_
  rw [Prog.perform_bind]
  refine .stmt (fun _ => rfl) fun w => ?_
  split
  · exact (hharmless (harmless_revokeFamily ..)).bind fun _ => trivial
  · unfold issue
    rw [dateNow_bind, Prog.stmt_bind]
    refine .stmt trivial fun w => ?_
    rw [dateNow_bind, Prog.stmt_bind]
    refine .stmt trivial fun w => ?_
    rw [Prog.perform_bind, Prog.stmt_bind]
    refine .stmt trivial fun w => ?_
    rw [randomUUID_bind, Prog.stmt_bind]
    refine .stmt trivial fun w => Prog.Only.bind ?_ fun _ => trivial
    refine (only_createToken _ fun _ => ⟨rfl, rfl, rfl⟩).bind fun _ => ?_
    exact (hharmless (harmless_markReplaced ..)).bind fun _ => trivial

/-- A rotation has read the token. -/
def ReadToken (existing : RefreshTokenRow) (own : List SignInStep) : Prop :=
  ∃ look ∈ own, (∃ refreshToken context, look.request = .refresh refreshToken context) ∧
    existing ∈ look.before.refreshTokens

theorem lasting_readToken (existing : RefreshTokenRow) : Lasting i fun σ => ReadToken existing (σ.own i) :=
  lasting_exists

/-- **A rotation** adds a token of the session that it has read. -/
theorem safe_rotateToken {refreshToken : String} {context : RequestContext} (A : AuthService)
    (hq : q = .refresh refreshToken context) (presentedToken : String) :
    (trustOutline F).Safe i q (fun _ _ => True)
      (rotate A.jwt A.sessions A.hashSecret presentedToken) σ := by
  unfold rotate
  rw [select_bind]
  refine safe_statement trivial fun τ _ _ _ _ => ?_
  split
  · trivial
  rename_i existing device hfound
  have hread : existing ∈ τ.shared.refreshTokens := by
    obtain ⟨t, ht, hmap⟩ := Option.bind_eq_some_iff.mp hfound
    obtain ⟨d, -, heq⟩ := Option.map_eq_some_iff.mp hmap
    obtain ⟨rfl, -⟩ := Prod.mk.inj heq
    exact List.mem_of_find?_eq_some ht
  have hown : ReadToken existing ((τ.perform exec i q (.select .refreshTokens)).own i) := by
    rw [Log.own_perform_self]
    exact ⟨_, List.mem_cons_self, ⟨_, _, hq⟩, hread⟩
  split
  · exact safe_of_harmless ((harmless_revokeFamily ..).bind fun _ => trivial)
  rw [dateNow_bind]
  refine safe_statement trivial fun υ hυ _ hυ' hstays => ?_
  have hown' : ReadToken existing ((υ.perform exec i q .dateNow).own i) :=
    (lasting_readToken existing).perform hstays ((lasting_readToken existing).later hυ hown)
  split
  · trivial
  split
  · exact safe_of_harmless ((harmless_revokeFamily ..).bind fun _ => trivial)
  · have hsafe := safe_while (F := F) (q := q) (only_exchangeToken (A := A) existing device)
      (lasting_readToken existing) (fun w φ hw _ hφ => ?_) hown'
    · exact hsafe.mono hυ' fun _ _ _ _ _ => trivial
    · unfold RotateWrite at hw
      split at hw
      · obtain ⟨look, hlook, hrequest, hmem⟩ := hφ
        exact .inl ⟨look, hlook, hrequest, existing, hmem, hw⟩
      · exact hw.allowed φ.history

/-- **A refresh** adds a token of the session that it has read. -/
theorem safe_refresh {refreshToken : String} {context : RequestContext} (A : AuthService)
    (hq : q = .refresh refreshToken context) (hσ : TrustInv F σ) :
    (trustOutline F).Safe i q (fun _ _ => True)
      (refresh A.jwt A.sessions A.hashSecret refreshToken context) σ := by
  unfold refresh
  refine (safe_rotateToken A hq refreshToken).bind hσ (fun outcome τ _ _ _ => ?_) fun _ _ _ _ _ => trivial
  refine safe_of_harmless ?_
  split
  · exact harmless_record _ trivial
  · trivial
  · rw [newDate_bind]
    refine .stmt trivial fun _ => Prog.Only.bind ?_ fun _ => harmless_record _ trivial
    exact harmless_updateDevice _ fun d => ⟨⟨rfl, id⟩, id⟩

/-- What the insertion of a token for a user and a device needs. -/
theorem StartWrite.allowed {userId deviceId : String} (hw : StartWrite userId deviceId w)
    {history : List SignInStep}
    (h : SignedIn F history (history.filter (·.thread = i)) s userId deviceId) :
    Allowed F history ⟨i, q, w, s⟩ := by
  unfold StartWrite at hw
  split at hw
  · obtain ⟨rfl, rfl⟩ := hw
    exact .inr h
  · exact hw.harmless.allowed history

/-- A session is started while a fact holds that calls for it. -/
theorem safe_start {K : SignInLog → Prop} {userId deviceId : String} (trusted : Bool) (hK : Lasting i K)
    (hsigned : ∀ τ, TrustInv F τ → K τ → SignedIn F τ.history (τ.own i) τ.shared userId deviceId)
    (hσ : K σ) :
    (trustOutline F).Safe i q (fun _ τ => K τ)
      (startSession F.auth.jwt F.auth.sessions F.auth.hashSecret userId deviceId trusted) σ :=
  safe_while (only_startSession ..) hK (fun _ τ hw hτ hKτ => hw.allowed (hsigned τ hτ hKτ)) hσ

/-! ## Enrollment -/

/-- What the device row behind an enrollment comes to: it is described, or added for the user. -/
def EnrollWrite (userId : String) : Write → Prop
  | .devices (.insert clash row) => clash = row.Clashes ∧ row.userId = userId
  | w => w.Harmless

theorem only_enrolledDevice (userId : String) (input : AgentEnrollRequest) (context : RequestContext) :
    (upsertAgentDevice userId input context).Only (EnrollWrite userId) := by
  unfold upsertAgentDevice
  rw [select_bind]
  refine .stmt trivial fun w => ?_
  split
  · split
    · trivial
    split
    · trivial
    rw [newDate_bind]
    refine .stmt trivial fun _ => .stmt (fun d => ⟨⟨rfl, id⟩, id⟩) fun w => ?_
    split <;> trivial
  rw [select_bind]
  refine .stmt trivial fun w => ?_
  split
  · trivial
  simp only [randomUUID_bind, newDate_bind]
  refine .stmt trivial fun _ => .stmt trivial fun _ => .stmt trivial fun _ => .stmt ⟨rfl, rfl⟩ fun w => ?_
  split <;> trivial

theorem EnrolledBy.mono {own own' : List SignInStep} {userId : String} (hsub : own ⊆ own')
    (h : EnrolledBy F own userId) : EnrolledBy F own' userId := by
  obtain ⟨signed, context, input, t, hinput, ⟨look, hlook, hfound⟩, huser, hused, claim, hclaim, hclaims⟩ := h
  exact ⟨signed, context, input, t, hinput, ⟨look, hsub hlook, hfound⟩, huser, hused, claim, hsub hclaim,
    hclaims⟩

theorem lasting_enrolledBy (userId : String) : Lasting i fun σ => EnrolledBy F (σ.own i) userId :=
  lasting_own fun _ _ => EnrolledBy.mono

theorem safe_enrollTrusted (enrollment : EnrollmentTokenRow) (input : AgentEnrollRequest)
    (context : RequestContext) (hσ : TrustInv F σ) (hby : EnrolledBy F (σ.own i) enrollment.userId) :
    (trustOutline F).Safe i q (fun _ _ => True) (enrollClaimed enrollment input context) σ := by
  unfold enrollClaimed
  have hdevice := safe_while (F := F) (q := q) (only_enrolledDevice enrollment.userId input context)
    (lasting_enrolledBy enrollment.userId) (fun w τ hw _ hτ => ?_) hby
  · refine hdevice.bind hσ (fun device τ _ _ _ => ?_) fun _ _ _ _ _ => trivial
    refine safe_of_harmless (Prog.Only.bind ?_ fun agentId => harmless_record _ (.stmt trivial fun _ => trivial))
    unfold upsertAgent
    simp only [randomUUID_bind, newDate_bind]
    exact .stmt trivial fun _ => .stmt trivial fun _ => .stmt trivial fun _ => .stmt trivial fun _ => trivial
  · unfold EnrollWrite at hw
    split at hw
    · obtain ⟨rfl, huser⟩ := hw
      refine ⟨rfl, fun _ => ?_⟩
      rw [huser]
      exact hτ
    · exact hw.allowed τ.history

/-- **An enrollment** adds a device for the user who has issued its token. -/
theorem safe_enrollCall {signed : SignedRequest} {context : RequestContext} {input : AgentEnrollRequest}
    (hq : q = .enroll signed context) (hinput : F.enrollSchema signed.body = some input) :
    (trustOutline F).Safe i q (fun _ _ => True) (enroll F.auth.hashSecret input context) σ := by
  unfold enroll
  rw [select_bind]
  refine safe_statement trivial fun τ _ _ _ _ => ?_
  split
  · trivial
  rename_i enrollment hfound
  split
  · trivial
  rename_i hunused
  rw [dateNow_bind]
  refine safe_statement trivial fun υ hυ _ _ _ => ?_
  split
  · trivial
  rw [newDate_bind]
  refine safe_statement trivial fun φ hφ _ _ _ => ?_
  rw [Prog.perform_bind]
  refine safe_statement trivial fun ψ hψ _ hkept _ => ?_
  split
  · trivial
  rename_i hcount
  refine safe_enrollTrusted enrollment input context hkept ?_
  have hlook : ⟨i, q, .select .enrollmentTokens, τ.shared⟩ ∈ ψ.own i := by
    rw [hψ.2, Log.own_perform_self, hφ.2, Log.own_perform_self, hυ.2, Log.own_perform_self]
    exact List.mem_cons_of_mem _ (List.mem_cons_of_mem _ List.mem_cons_self)
  rw [Log.own_perform_self]
  refine ⟨signed, context, input, enrollment, hinput,
    ⟨_, List.mem_cons_of_mem _ hlook, hq, rfl, hfound⟩, rfl, ?_, _, List.mem_cons_self, ⟨_, rfl⟩, ?_⟩
  · simpa using hunused
  · obtain ⟨r, hr⟩ := List.exists_mem_of_length_pos (Nat.pos_of_ne_zero hcount)
    obtain ⟨hmem, hr⟩ := List.mem_filter.mp hr
    exact ⟨r, hmem, of_decide_eq_true hr⟩

/-! ## Verifying a device -/

theorem UsedUp.mono {own own' : List SignInStep} {b : Binding} (hsub : own ⊆ own') (h : UsedUp F own b) :
    UsedUp F own' b := by
  obtain ⟨input, context, c, ⟨look, hlook, hfound⟩, hbinding, hcode, claim, hclaim, hclaims⟩ := h
  exact ⟨input, context, c, ⟨look, hsub hlook, hfound⟩, hbinding, hcode, claim, hsub hclaim, hclaims⟩

theorem lasting_usedUp (b : Binding) : Lasting i fun σ => UsedUp F (σ.own i) b :=
  lasting_own fun _ _ => UsedUp.mono

/-- The statements of a call are statements of the run. -/
theorem own_subset_history (σ : SignInLog) (i : Nat) : σ.own i ⊆ σ.history := List.filter_subset_self _

/-- A code that was used up was asked for, if it is for a device. -/
theorem UsedUp.asked {b : Binding} (h : UsedUp F (τ.own i) b) (hτ : TrustInv F τ)
    (hpurpose : b.purpose = deviceVerification) : AskedFor F τ.history b := by
  obtain ⟨input, context, c, ⟨look, hlook, -, -, hfound⟩, hbinding, -⟩ := h
  obtain ⟨hc, -⟩ := findChallenge_eq_some hfound
  obtain ⟨c', hc', hsame⟩ := (hτ.past look (own_subset_history τ i hlook)).codes c hc
  have hb : c'.binding = b := hsame.trans hbinding
  have := hτ.asked c' hc' ((congrArg Binding.purpose hb).trans hpurpose)
  rwa [hb] at this

/-- A user whose password was shown is verified and enabled ever after. -/
theorem PasswordShown.user {own : List SignInStep} {userId : String} (h : PasswordShown F own userId)
    (hτ : TrustInv F τ) (hown : own ⊆ τ.history) :
    ∃ user ∈ findUser userId τ.shared, user.emailVerified ∧ user.disabledAt = none := by
  obtain ⟨user, ⟨input, context, ⟨look, hlook, -, -, hfound⟩, -⟩, rfl, hverified, henabled⟩ := h
  have huser : user ∈ look.before.users := List.mem_of_find?_eq_some hfound
  obtain ⟨user', huser', hstays⟩ := (hτ.past look (hown hlook)).users user huser
  refine ⟨user', ?_, hstays.verified hverified, hstays.disabled.trans henabled⟩
  -- There is one user for an identifier.
  cases hfind : findUser user.id τ.shared with
  | none =>
    have := List.find?_eq_none.mp hfind user' huser'
    exact absurd (decide_eq_true hstays.id) this
  | some found =>
    have hid := List.find?_some hfind
    have hsame : found = user' := Table.eq_of_key hτ.apart.users (List.mem_of_find?_eq_some hfind) huser'
      ((of_decide_eq_true hid).trans hstays.id.symm)
    rw [hsame]
    rfl

/-- A user who has asked for a code is verified and enabled ever after. -/
theorem AskedFor.user {b : Binding} (h : AskedFor F τ.history b) (hτ : TrustInv F τ) :
    ∃ user ∈ findUser b.userId τ.shared, user.emailVerified ∧ user.disabledAt = none := by
  obtain ⟨step, earlier, hsuffix, -, hshown, -⟩ := h
  exact hshown.user hτ fun s hs =>
    hsuffix.subset (List.mem_cons_of_mem _ (List.mem_filter.mp hs).1)

/-- The device of a code is the user's ever after. -/
theorem AskedFor.owner {b : Binding} (h : AskedFor F τ.history b) (hτ : TrustInv F τ) {d : DeviceRow}
    (hd : d ∈ τ.shared.devices) (hdevice : b.deviceId = some d.id) : d.userId = b.userId := by
  obtain ⟨step, earlier, hsuffix, -, -, d₀, hd₀, hdevice₀, howner⟩ := h
  have hid : d₀.id = d.id := Option.some.inj (hdevice₀.symm.trans hdevice)
  obtain ⟨d', hd', hstays⟩ := (hτ.past step (hsuffix.subset List.mem_cons_self)).devices d₀ hd₀
  have hsame : d' = d := Table.eq_of_key hτ.apart.devices.ids hd' hd (hstays.id_eq.trans hid)
  have huser : d'.userId = d₀.userId := congrArg DeviceIdentity.userId hstays.identity
  rw [← hsame, huser]
  exact howner

/-- **The use of a code**: the code that is used up is one that the call has read, and it was right. -/
theorem safe_consumeCode {input : VerifyDeviceRequest} {context : RequestContext}
    (hq : q = .verifyDevice input context) :
    (trustOutline F).Safe i q (fun r τ => ∀ c, r = .ok (.ok c) →
        c.purpose = deviceVerification ∧ UsedUp F (τ.own i) c.binding)
      (consume F.auth.hashSecret input.challengeId input.code deviceVerification) σ := by
  unfold consume
  rw [select_bind]
  refine safe_statement trivial fun τ _ hτ _ _ => ?_
  cases hfound : findChallenge input.challengeId τ.shared with
  | none => exact nofun
  | some c =>
    dsimp only
    split
    · exact nofun
    rename_i hpurpose
    split
    · exact nofun
    rw [dateNow_bind]
    refine safe_statement trivial fun υ hυ _ _ _ => ?_
    split
    · exact nofun
    split
    · exact nofun
    split
    · -- A wrong code: the attempt is counted, and the last one burns the challenge.
      rw [updateChallenge_bind]
      refine safe_statement (fun _ => rfl) fun φ _ _ _ _ => ?_
      split
      · exact nofun
      split
      · rw [newDate_bind]
        refine safe_statement trivial fun ψ _ _ _ _ => ?_
        rw [updateChallenge_bind]
        refine safe_statement (fun _ => rfl) fun χ _ _ _ _ => ?_
        split <;> exact nofun
      · exact nofun
    · rename_i hcode
      rw [newDate_bind]
      refine safe_statement trivial fun φ hφ _ _ hstays => ?_
      rw [Prog.perform_bind]
      refine safe_statement (fun _ => rfl) fun ψ hψ hψinv _ _ => ?_
      split
      · exact nofun
      rename_i hcount
      rintro c' ⟨⟩
      have hlook : ⟨i, q, .select .challenges, τ.shared⟩ ∈ ψ.own i := by
        rw [hψ.2, Log.own_perform_self, hφ.2, Log.own_perform_self, hυ.2, Log.own_perform_self]
        exact List.mem_cons_of_mem _ (List.mem_cons_of_mem _ List.mem_cons_self)
      obtain ⟨hc, -⟩ := findChallenge_eq_some hfound
      obtain ⟨r, hr⟩ := List.exists_mem_of_length_pos (Nat.pos_of_ne_zero hcount)
      obtain ⟨hr, hmatches⟩ := List.mem_filter.mp hr
      obtain ⟨hid, hlive⟩ := of_decide_eq_true hmatches
      -- The row that is used up is the one that was read.
      have hbinding : r.binding = c.binding :=
        (hψinv.past _ (own_subset_history ψ i hlook)).codes.of_key (congrArg Binding.id) hψinv.apart.codes hc hr hid
      rw [Log.own_perform_self]
      exact ⟨not_not.mp hpurpose, input, context, c, ⟨_, List.mem_cons_of_mem _ hlook, hq, rfl, hfound⟩, rfl,
        not_not.mp hcode, _, List.mem_cons_self, ⟨_, rfl⟩, r, hr, hbinding, hlive⟩

/-- What was used up for a device of a user is a code that was asked for, for the device and its owner. -/
theorem UsedUp.codeUsed {b : Binding} (h : UsedUp F (τ.own i) b) (hτ : TrustInv F τ)
    (hpurpose : b.purpose = deviceVerification) {d : DeviceRow} (hd : d ∈ τ.shared.devices)
    (hdevice : b.deviceId = some d.id) : CodeUsed F τ.history (τ.own i) d.userId d.id := by
  have hasked : AskedFor F τ.history b := h.asked hτ hpurpose
  exact ⟨b, (hasked.owner hτ hd hdevice).symm, hdevice, hpurpose, h, hasked⟩

theorem harmless_recordVerified (userId : String) (device : DeviceRow) (context : RequestContext) :
    (recordVerified userId device context).Only Write.Harmless := by
  unfold recordVerified
  refine harmless_record _ ?_
  dsimp only
  split
  · exact .stmt trivial fun _ => .stmt trivial fun _ => trivial
  · exact .stmt trivial fun _ => trivial

/-- The device of a code is made trusted or not, and a session is started on it. -/
theorem safe_trustDevice {b : Binding} {deviceId : String} (trust : Bool) (context : RequestContext)
    (hpurpose : b.purpose = deviceVerification) (hdevice : b.deviceId = some deviceId)
    (hσ : UsedUp F (σ.own i) b) :
    (trustOutline F).Safe i q (fun _ _ => True)
      (trustDevice F.auth.jwt F.auth.sessions F.auth.hashSecret b.userId deviceId trust context) σ := by
  have hlasting := lasting_usedUp (F := F) (i := i) b
  unfold trustDevice
  rw [select_bind]
  refine safe_statement trivial fun τ hτ _ hτ' hstays => ?_
  split
  · trivial
  rename_i user hfound
  have huser : user.id = b.userId := by simpa using List.find?_some hfound
  split
  · trivial
  have hown : UsedUp F ((τ.perform exec i q (.select .users)).own i) b :=
    hlasting.perform hstays (hlasting.later hτ hσ)
  have hsince : (trustedSince trust).Only Write.Harmless := by
    unfold trustedSince
    split
    · exact .stmt trivial fun _ => trivial
    · trivial
  refine (safe_harmless hsince hlasting hown).bind hτ' (fun trustedAt υ _ _ hυ => ?_) fun _ _ _ _ _ => trivial
  rw [newDate_bind]
  refine safe_statement trivial fun φ hφ _ hφ' hstays => ?_
  have hown' : UsedUp F ((φ.perform exec i q (.api .clock)).own i) b :=
    hlasting.perform hstays (hlasting.later hφ hυ)
  rw [updateDevice_bind]
  intro ψ hψ hψinv
  have hownψ : UsedUp F (ψ.own i) b := hlasting.later hψ hown'
  have hallowed : Allowed F ψ.history ⟨i, q, .devices (.update (·.id = deviceId)
      (verifiedDevice trust trustedAt φ.shared.api.clock context)), ψ.shared⟩ := by
    refine fun d => ⟨⟨rfl, id⟩, fun hd hsel _ => .inr ?_⟩
    have hid : d.id = deviceId := of_decide_eq_true hsel
    exact hownψ.codeUsed hψinv hpurpose hd (hdevice.trans (congrArg some hid.symm))
  obtain ⟨hstays', hkept⟩ := hψinv.perform hallowed
  refine ⟨hstays', hkept, ?_⟩
  dsimp only
  split
  · trivial
  rename_i d hrow
  have hd : d.id = deviceId := by simpa using List.find?_some hrow
  have hown'' : UsedUp F ((ψ.perform exec i q _).own i) b := hlasting.perform hstays' hownψ
  refine (safe_start trust hlasting (fun χ hχ hχown => ?_) hown'').bind hkept
    (fun tokens χ _ _ _ => ?_) fun _ _ _ _ _ => trivial
  rotate_left
  · exact safe_of_harmless ((harmless_recordVerified ..).bind fun _ => trivial)
  · have hasked : AskedFor F χ.history b := hχown.asked hχ hpurpose
    show SignedIn F χ.history (χ.own i) χ.shared user.id d.id
    rw [huser, hd]
    exact ⟨hasked.user hχ, .inr ⟨b, rfl, hdevice, hpurpose, hχown, hasked⟩⟩

/-- **The verification of a device.** -/
theorem safe_verifyCall {input : VerifyDeviceRequest} {context : RequestContext}
    (hq : q = .verifyDevice input context) :
    (trustOutline F).Safe i q (fun _ _ => True)
      (verifyDevice F.auth.jwt F.auth.sessions F.auth.hashSecret input context) σ := by
  unfold verifyDevice
  rw [enforceLimit_bind]
  refine safe_statement trivial fun τ _ _ hτ' _ => ?_
  split
  · trivial
  refine (safe_consumeCode hq).bind hτ' (fun result υ _ _ hpost => ?_) fun _ _ _ _ _ => trivial
  split
  · exact safe_of_harmless (harmless_record _ trivial)
  · rename_i c
    obtain ⟨hpurpose, hused⟩ := hpost c rfl
    split
    · trivial
    · rename_i deviceId hdevice
      exact safe_trustDevice (b := c.binding) _ context hpurpose hdevice hused

/-! ## Sign-in -/

/-- The device that a sign-in goes on with is one of the user's, and if it is trusted and not revoked, the
call has read it so. -/
structure HasDevice (i : Nat) (userId : String) (d : DeviceRow) (σ : SignInLog) : Prop where
  there : ∃ d' ∈ σ.shared.devices, d'.id = d.id ∧ d'.userId = userId
  read : d.trusted → d.revokedAt = none → ReadTrusted (σ.own i) userId d.id

theorem ReadTrusted.mono {own own' : List SignInStep} {userId deviceId : String} (hsub : own ⊆ own')
    (h : ReadTrusted own userId deviceId) : ReadTrusted own' userId deviceId := by
  obtain ⟨look, hlook, hread⟩ := h
  exact ⟨look, hsub hlook, hread⟩

theorem Presented.mono {own own' : List SignInStep} {user : UserRow} (hsub : own ⊆ own')
    (h : Presented F own user) : Presented F own' user := by
  obtain ⟨input, context, ⟨look, hlook, hfound⟩, ⟨step, hstep, hverifies⟩, hcorrect⟩ := h
  exact ⟨input, context, ⟨look, hsub hlook, hfound⟩, ⟨step, hsub hstep, hverifies⟩, hcorrect⟩

theorem lasting_presented (user : UserRow) : Lasting i fun σ => Presented F (σ.own i) user :=
  lasting_own fun _ _ => Presented.mono

theorem lasting_hasDevice (userId : String) (d : DeviceRow) : Lasting i (HasDevice i userId d) := by
  rintro σ τ hstays hsub ⟨⟨d₁, hd₁, hid, huser⟩, hread⟩
  obtain ⟨d₂, hd₂, hsame⟩ := hstays.devices d₁ hd₁
  have huser₂ : d₂.userId = d₁.userId := congrArg DeviceIdentity.userId hsame.identity
  exact ⟨⟨d₂, hd₂, hsame.id_eq.trans hid, huser₂.trans huser⟩,
    fun htrusted hfree => (hread htrusted hfree).mono hsub⟩

/-- What a sign-in may go on with: nothing, or a device of the user. -/
abbrev devicePost (K : SignInLog → Prop) (i : Nat) (userId : String) (r : Except HttpException DeviceRow)
    (σ : SignInLog) : Prop := K σ ∧ ∀ d, r = .ok d → HasDevice i userId d σ

theorem devicePost_error {K : SignInLog → Prop} {userId : String} {e : HttpException} (hσ : K σ) :
    devicePost K i userId (.error e) σ := ⟨hσ, fun _ h => nomatch h⟩

/-- A known installation is described. -/
theorem safe_describe {K : SignInLog → Prop} {userId : String} {existing : DeviceRow}
    (identity : PresentedDevice) (context : RequestContext) (hK : Lasting i K)
    (hthere : ∃ d ∈ σ.shared.devices, d.id = existing.id ∧ d.userId = userId) (hσ : K σ) :
    (trustOutline F).Safe i q (devicePost K i userId)
      (updateDevice existing.id (signedInAgain existing identity context)) σ := by
  unfold updateDevice
  refine safe_statement (fun d => ⟨⟨rfl, id⟩, id⟩) fun τ hτ hτinv _ hstays => ?_
  have hkept : K (τ.perform exec i q (.devices (.update (·.id = existing.id)
      (signedInAgain existing identity context)))) := hK.perform hstays (hK.later hτ hσ)
  -- The row that is described is the one that was found.
  obtain ⟨d, hd, hid, huser⟩ := hthere
  obtain ⟨d', hd', hsame⟩ := hτ.1.devices d hd
  have huser' : d'.userId = userId := (congrArg DeviceIdentity.userId hsame.identity).trans huser
  split
  · exact devicePost_error hkept
  rename_i row hrow
  have hrowid : row.id = existing.id := by simpa using List.find?_some hrow
  have heq : row = d' := Table.eq_of_key hτinv.apart.devices.ids (List.mem_of_find?_eq_some hrow) hd'
    (hrowid.trans (hsame.id_eq.trans hid).symm)
  subst heq
  refine ⟨hkept, fun found hfound => ?_⟩
  obtain rfl := Except.ok.inj hfound
  constructor
  · obtain ⟨d'', hd'', hsame'⟩ := hstays.devices row hd'
    have huser'' : d''.userId = row.userId := congrArg DeviceIdentity.userId hsame'.identity
    exact ⟨d'', hd'', hsame'.id_eq, huser''.trans huser'⟩
  · intro htrusted hfree
    have hread : findDevice row.id τ.shared = some row := by
      show τ.shared.devices.find? (·.id = row.id) = some row
      rw [hrowid]
      exact hrow
    rw [Log.own_perform_self]
    refine ⟨_, List.mem_cons_self, ⟨signedInAgain existing identity context, ?_⟩, row, hread, huser',
      htrusted, hfree⟩
    show Write.devices (.update (·.id = existing.id) (signedInAgain existing identity context)) =
      .devices (.update (·.id = row.id) (signedInAgain existing identity context))
    rw [hrowid]

/-- A new installation is registered, as one that is not trusted. -/
theorem safe_createDevice {K : SignInLog → Prop} {row : DeviceRow} (huntrusted : ¬ row.trusted)
    (hK : Lasting i K) (hσ : K σ) :
    (trustOutline F).Safe i q (devicePost K i row.userId) (createDevice row) σ := by
  unfold createDevice
  refine safe_statement ⟨rfl, huntrusted⟩ fun τ hτ _ _ hstays => ?_
  have hkept : K (τ.perform exec i q (.devices (.insert row.Clashes row))) :=
    hK.perform hstays (hK.later hτ hσ)
  split
  · exact devicePost_error hkept
  rename_i hfree
  refine ⟨hkept, fun d hd => ?_⟩
  obtain rfl := Except.ok.inj hd
  refine ⟨⟨row, ?_, rfl, rfl⟩, fun htrusted => absurd htrusted huntrusted⟩
  show row ∈ (Op.insert row.Clashes row).apply τ.shared.devices
  rw [Table.apply_insert, if_neg hfree]
  exact List.mem_append_right _ (List.mem_singleton_self _)

/-- **The device of a sign-in.** -/
theorem safe_upsertDevice {K : SignInLog → Prop} (userId : String) (identity : PresentedDevice)
    (context : RequestContext) (hK : Lasting i K) (hσ : K σ) :
    (trustOutline F).Safe i q (devicePost K i userId)
      (upsertDevice userId identity context) σ := by
  unfold upsertDevice
  rw [select_bind]
  refine safe_statement trivial fun τ hτ _ _ hstays => ?_
  have hτK : K (τ.perform exec i q (.select .devices)) := hK.perform hstays (hK.later hτ hσ)
  split
  · rename_i existing hfound
    have hexisting : existing ∈ τ.shared.devices := List.mem_of_find?_eq_some hfound
    have huser : existing.userId = userId := by
      have hboth := List.find?_some hfound
      exact (of_decide_eq_true hboth).1
    split
    · rw [record_bind]
      exact safe_statement trivial fun υ hυ _ _ hstays' =>
        devicePost_error (hK.perform hstays' (hK.later hυ hτK))
    · exact safe_describe identity context hK ⟨existing, hexisting, rfl, huser⟩ hτK
  rw [select_bind]
  refine safe_statement trivial fun υ hυ _ _ hstays => ?_
  have hυK : K (υ.perform exec i q (.select .devices)) := hK.perform hstays (hK.later hυ hτK)
  split
  · exact devicePost_error hυK
  rw [randomUUID_bind]
  refine safe_statement trivial fun φ hφ _ _ hstays => ?_
  have hφK : K (φ.perform exec i q (.api .random)) := hK.perform hstays (hK.later hφ hυK)
  rw [newDate_bind]
  refine safe_statement trivial fun ψ hψ _ hψ' hstays => ?_
  have hψK : K (ψ.perform exec i q (.api .clock)) := hK.perform hstays (hK.later hψ hφK)
  refine (safe_createDevice Bool.false_ne_true hK hψK).bind hψ' (fun device χ _ _ hpost => ?_)
    fun e χ _ _ hpost => devicePost_error hpost.1
  rw [record_bind]
  refine safe_statement trivial fun ω hω _ _ hstays => ⟨hK.perform hstays (hK.later hω hpost.1), fun d hd => ?_⟩
  obtain rfl := Except.ok.inj hd
  exact (lasting_hasDevice userId device).perform hstays
    ((lasting_hasDevice userId device).later hω (hpost.2 device rfl))

/-- The user of a sign-in, with the password shown, and the device it goes on with. -/
structure Admitted (F : AccountServices) (i : Nat) (user : UserRow) (d : DeviceRow) (σ : SignInLog) : Prop where
  presented : Presented F (σ.own i) user
  device : HasDevice i user.id d σ

theorem lasting_admitted (user : UserRow) (d : DeviceRow) : Lasting i (Admitted F i user d) :=
  fun _ _ hstays hsub h => ⟨h.presented.mono hsub, lasting_hasDevice user.id d _ _ hstays hsub h.device⟩

variable {user : UserRow} {d : DeviceRow}

theorem Presented.shown {own : List SignInStep} (h : Presented F own user) (hverified : user.emailVerified)
    (henabled : user.disabledAt = none) : PasswordShown F own user.id :=
  ⟨user, h, rfl, hverified, henabled⟩

/-- The end of a sign-in on a trusted device. -/
theorem safe_loginTrusted (context : RequestContext) (hverified : user.emailVerified)
    (henabled : user.disabledAt = none) (htrusted : d.trusted) (hfree : d.revokedAt = none)
    (hinv : TrustInv F σ) (hσ : Admitted F i user d σ) :
    (trustOutline F).Safe i q (fun _ _ => True) (F.auth.loginTrusted user d context) σ := by
  unfold AuthService.loginTrusted
  refine (safe_start true (lasting_admitted user d) (fun τ hτ hadmitted => ?_) hσ).bind hinv
    (fun tokens τ _ _ _ => ?_) fun _ _ _ _ _ => trivial
  · have hshown : PasswordShown F (τ.own i) user.id := hadmitted.presented.shown hverified henabled
    exact ⟨hshown.user hτ (own_subset_history τ i), .inl ⟨hshown, hadmitted.device.read htrusted hfree⟩⟩
  · rw [newDate_bind]
    refine safe_of_harmless (.stmt trivial fun _ => Prog.Only.bind ?_ fun _ => harmless_record _ trivial)
    exact harmless_updateDevice _ fun d => ⟨⟨rfl, id⟩, id⟩

/-- The end of a sign-in on another device. -/
theorem safe_loginUntrusted (context : RequestContext) (hverified : user.emailVerified)
    (henabled : user.disabledAt = none) (hinv : TrustInv F σ) (hσ : Admitted F i user d σ) :
    (trustOutline F).Safe i q (fun _ _ => True) (F.auth.loginUntrusted user d context) σ := by
  unfold AuthService.loginUntrusted
  refine (safe_while (only_issueCode _) (lasting_admitted user d) (fun w τ hw hτ hadmitted => ?_) hσ).bind hinv
    (fun issued τ _ _ _ => safe_of_harmless (harmless_record _ trivial)) fun _ _ _ _ _ => trivial
  unfold IssueWrite at hw
  split at hw
  · obtain ⟨-, now, rfl⟩ := hw
    exact harmless_consumed now
  · -- The code is for the device of the user whose password was shown.
    obtain ⟨rfl, huser, hdevice, -, -⟩ := hw
    obtain ⟨d', hd', hid, howner⟩ := hadmitted.device.there
    refine ⟨fun c hc => decide_eq_true hc, fun _ => ?_⟩
    rw [huser, hdevice]
    exact ⟨hadmitted.presented.shown hverified henabled, d', hd', congrArg some hid.symm, howner⟩
  · exact Write.Harmless.allowed (w := .sendMail _) trivial τ.history
  · exact hw.harmless.allowed τ.history

theorem harmless_refuse (outcome : String) (userId : Option String) (reason : String)
    (context : RequestContext) :
    (AuthService.refuseLogin outcome userId reason context).Only Write.Harmless := by
  unfold AuthService.refuseLogin
  exact harmless_record _ trivial

/-- A sign-in of a user that is verified and enabled. -/
theorem safe_loginWithDevice (input : LoginRequest) (context : RequestContext)
    (hverified : user.emailVerified) (henabled : user.disabledAt = none) (hσ : Presented F (σ.own i) user) :
    (trustOutline F).Safe i q (fun _ _ => True) (F.auth.loginWithDevice user input context) σ := by
  have hupgrade : (F.auth.upgradeHash user input.password).Only Write.Harmless := by
    unfold AuthService.upgradeHash
    split
    · rw [Prog.perform_bind]
      exact .stmt trivial fun _ => harmless_updateUser _ fun u => ⟨rfl, fun h => h, rfl⟩
    · trivial
  unfold AuthService.loginWithDevice AccountGuardService.recordSuccess
  rw [Prog.perform_bind]
  refine safe_statement trivial fun τ hτ _ hτ' hstays => ?_
  have hτown := (lasting_presented (F := F) user).perform (q := q) hstays ((lasting_presented user).later hτ hσ)
  refine (safe_harmless hupgrade (lasting_presented user) hτown).bind hτ' (fun _ υ _ hυ hυown => ?_)
    fun _ _ _ _ _ => trivial
  refine (safe_upsertDevice user.id input.device context (lasting_presented user) hυown).bind hυ
    (fun device φ _ hφ hpost => ?_) fun _ _ _ _ _ => trivial
  have hadmitted : Admitted F i user device φ := ⟨hpost.1, hpost.2 device rfl⟩
  split
  · exact safe_of_harmless (harmless_record _ trivial)
  rename_i hfree
  split
  · rename_i htrusted
    exact safe_loginTrusted context hverified henabled htrusted (by simpa using hfree) hφ hadmitted
  · exact safe_loginUntrusted context hverified henabled hφ hadmitted

/-- The sign-in of a user whose account is not cooling off. -/
theorem safe_signInUser {input : LoginRequest} {context : RequestContext}
    (hq : q = .login input context) (hlook : ∃ look ∈ σ.own i, look.request = .login input context ∧
      look.write = .select .users ∧ findEmail input.email look.before = some user) :
    (trustOutline F).Safe i q (fun _ _ => True) (F.auth.loginUser user input context) σ := by
  unfold AuthService.loginUser AuthService.verifyPassword
  rw [Prog.perform_bind]
  refine safe_statement trivial fun τ hτ _ hτ' _ => ?_
  cases hcorrect : F.auth.passwords.verify user.passwordHash input.password with
  | false =>
    rw [if_pos Bool.false_ne_true]
    refine safe_of_harmless (Prog.Only.bind ?_ fun _ => harmless_refuse ..)
    unfold AccountGuardService.recordFailure
    rw [newDate_bind]
    refine .stmt trivial fun _ => ?_
    rw [select_bind]
    refine .stmt trivial fun _ => ?_
    rw [Prog.perform_bind]
    exact .stmt trivial fun _ => trivial
  | true =>
    rw [if_neg (not_not.mpr rfl)]
    have hpresented : Presented F ((τ.perform exec i q
        (.verifyPassword (some user.id) user.passwordHash input.password)).own i) user := by
      obtain ⟨look, hmem, hfound⟩ := hlook
      rw [Log.own_perform_self, hτ.2]
      exact ⟨input, context, ⟨look, List.mem_cons_of_mem _ hmem, hfound⟩,
        ⟨_, List.mem_cons_self, hq, rfl⟩, hcorrect⟩
    split
    · exact safe_of_harmless (harmless_refuse ..)
    rename_i henabled
    split
    · exact safe_of_harmless ((harmless_issue emailVerification_ne).bind fun _ => trivial)
    rename_i hverified
    exact safe_loginWithDevice input context (not_not.mp hverified) (by simpa using henabled) hpresented

/-- **A sign-in.** -/
theorem safe_signIn {input : LoginRequest} {context : RequestContext} (hq : q = .login input context) :
    (trustOutline F).Safe i q (fun _ _ => True) (F.auth.login input context) σ := by
  unfold AuthService.login
  rw [enforceLimit_bind]
  refine safe_statement trivial fun τ _ _ _ _ => ?_
  split
  · trivial
  rw [select_bind]
  refine safe_statement trivial fun υ _ _ hυ' _ => ?_
  cases hfound : findEmail input.email υ.shared with
  | none =>
    refine safe_of_harmless ?_
    unfold AuthService.verifyPassword
    rw [Prog.perform_bind]
    exact .stmt trivial fun _ => harmless_refuse ..
  | some user =>
    have hlook : ∃ look ∈ (υ.perform exec i q (.select .users)).own i, look.request = .login input context ∧
        look.write = .select .users ∧ findEmail input.email look.before = some user := by
      rw [Log.own_perform_self]
      exact ⟨_, List.mem_cons_self, hq, rfl, hfound⟩
    have hlocked : (AccountGuardService.lockedForSeconds user.id).Only Write.Harmless := by
      unfold AccountGuardService.lockedForSeconds
      rw [newDate_bind]
      refine .stmt trivial fun _ => ?_
      rw [select_bind]
      refine .stmt trivial fun _ => ?_
      split <;> trivial
    -- What the call has read, it has read for good.
    have hlasting : Lasting i fun σ : SignInLog => ∃ look ∈ σ.own i, look.request = .login input context ∧
        look.write = .select .users ∧ findEmail input.email look.before = some user :=
      lasting_exists
    refine (safe_harmless hlocked hlasting hlook).bind hυ' (fun locked φ _ _ hφ => ?_) fun _ _ _ _ _ => trivial
    split
    · exact safe_of_harmless (harmless_refuse ..)
    · exact safe_signInUser hq hφ

/-! ## Runs -/

/-- **Each call.** -/
theorem safe_signInHandler (hσ : TrustInv F σ) :
    (trustOutline F).Safe i q (fun _ _ => True) (signInHandler F q) σ := by
  have hmap : ∀ {α : Type} {p : Service α} (f : α → SignInAnswer),
      (trustOutline F).Safe i q (fun _ _ => True) p σ →
        (trustOutline F).Safe i q (fun _ _ => True) (f <$> p) σ :=
    fun f hp => hp.bind hσ (fun _ _ _ _ _ => trivial) fun _ _ _ _ _ => trivial
  cases q with
  | register input context => exact hmap _ (safe_of_harmless (harmless_register ..))
  | verifyEmail input context => exact hmap _ (safe_of_harmless (harmless_verifyEmail ..))
  | resendCode challengeId => exact hmap _ (safe_of_harmless (harmless_resendCode _))
  | login input context => exact hmap _ (safe_signIn rfl)
  | verifyDevice input context => exact hmap _ (safe_verifyCall rfl)
  | refresh refreshToken context => exact hmap _ (safe_refresh F.auth rfl hσ)
  | logout refreshToken context => exact hmap _ (safe_of_harmless (harmless_logout ..))
  | revoke token deviceId context =>
    refine safe_of_harmless (((only_accessTokenGuard token).mono fun _ hw => hw.harmless).bind fun _ => ?_)
    exact (harmless_revoke ..).map _
  | enroll signed context =>
    refine hmap _ ?_
    unfold enrollRoute
    refine (safe_of_harmless ((only_canActivate true signed).mono fun _ hw => hw.harmless)).bind hσ
      (fun principal τ _ _ _ => ?_) fun _ _ _ _ _ => trivial
    split
    · trivial
    · rename_i input hinput
      exact safe_enrollCall rfl hinput

/-- A run may start with any users, devices and sessions, and with no code for a device. -/
structure TrustStart (w : World) : Prop where
  apart : RowsApart w
  codes : ∀ c ∈ w.challenges, c.purpose ≠ deviceVerification

theorem TrustStart.inv {w : World} (h : TrustStart w) : TrustInv F ⟨w, []⟩ :=
  ⟨h.apart, fun _ hstep => absurd hstep List.not_mem_nil, fun c hc hpurpose => absurd hpurpose (h.codes c hc),
    fun _ _ hsuffix => absurd (hsuffix.subset List.mem_cons_self) List.not_mem_nil⟩

theorem trustInv_run (F : AccountServices) {w : World} (hw : TrustStart w)
    (moves : List (Move SignInCall World)) : TrustInv F (signInRun F w moves).log := by
  have hstable : ∀ (i : Nat) (_ : SignInCall), (trustOutline F).Stable i
      fun (_ : Except HttpException SignInAnswer) _ => True := fun _ _ _ _ _ _ _ => trivial
  exact (Outline.sound hstable (fun i q σ hσ _ => safe_signInHandler hσ) moves
    (Outline.good_initial hw.inv)).1.inv

/-- A token is added by a rotation of its session, or by a sign-in. -/
theorem Allowed.newToken {history : List SignInStep} {step : SignInStep} (h : Allowed F history step)
    {row : RefreshTokenRow} (hnew : NewToken step row) :
    Rotated (history.filter (·.thread = step.thread)) row ∨
      SignedIn F history (history.filter (·.thread = step.thread)) step.before row.userId row.deviceId := by
  obtain ⟨i, q, w, s⟩ := step
  obtain ⟨hrow, hfresh⟩ := hnew
  by_cases hop : ∃ op, w = .refreshTokens op
  · obtain ⟨op, rfl⟩ := hop
    cases op with
    | insert clash row' =>
      rcases Table.mem_insert hrow with hold | rfl
      · exact absurd rfl (hfresh row hold)
      · exact h
    | update sel data =>
      obtain ⟨t, ht, rfl⟩ := Table.mem_update.mp hrow
      refine absurd ?_ (hfresh t ht)
      split
      · exact ((h : ∀ t, (data t).id = t.id) t).symm
      · rfl
    | delete sel => exact h.elim
  · have hsame : (exec w s).refreshTokens = s.refreshTokens := refreshTokens_exec (fun op hw => hop ⟨op, hw⟩) s
    replace hrow : row ∈ (exec w s).refreshTokens := hrow
    rw [hsame] at hrow
    exact absurd rfl (hfresh row hrow)

/-- A device becomes trusted by a code for it, or by an enrollment for its user. -/
theorem Allowed.becomesTrusted {history : List SignInStep} {step : SignInStep} (h : Allowed F history step)
    {d : DeviceRow} (hd : BecomesTrusted step d) :
    CodeUsed F history (history.filter (·.thread = step.thread)) d.userId d.id ∨
      EnrolledBy F (history.filter (·.thread = step.thread)) d.userId := by
  obtain ⟨i, q, w, s⟩ := step
  obtain ⟨hmem, htrusted, hwas⟩ := hd
  by_cases hop : ∃ op, w = .devices op
  · obtain ⟨op, rfl⟩ := hop
    cases op with
    | insert clash row =>
      rcases Table.mem_insert hmem with hold | rfl
      · exact absurd htrusted (hwas d hold rfl)
      · exact .inr (h.2 htrusted)
    | update sel data =>
      obtain ⟨d', hd', rfl⟩ := Table.mem_update.mp hmem
      obtain ⟨hstays, hallowed⟩ := h d'
      by_cases hsel : sel d'
      · rw [if_pos hsel] at htrusted hwas ⊢
        have huser : (data d').userId = d'.userId := congrArg DeviceIdentity.userId hstays.identity
        rw [huser, hstays.id_eq]
        exact .inl ((hallowed hd' hsel htrusted).resolve_left (hwas d' hd' hstays.id_eq.symm))
      · rw [if_neg hsel] at htrusted hwas
        exact absurd htrusted (hwas d' hd' rfl)
    | delete sel => exact h.elim
  · have hsame : (exec w s).devices = s.devices := devices_exec (fun op hw => hop ⟨op, hw⟩) s
    replace hmem : d ∈ (exec w s).devices := hmem
    rw [hsame] at hmem
    exact absurd htrusted (hwas d hmem rfl)

/-- **Sign-in is sound.** In every run, whatever statement adds a refresh token has either rotated a token
of the same session, or starts a session for a user that is verified and enabled at that moment: in a
sign-in that has been shown the user's password and has read the device as a trusted and unrevoked one of
the user, or with a code for that user and device, which a sign-in with the user's password has asked for.
A device becomes trusted by such a code for it and its user, or by an enrollment whose token its user has
issued. -/
theorem sign_in_sound (F : AccountServices) (w : World) (hw : TrustStart w)
    (moves : List (Move SignInCall World)) :
    ∀ step earlier, step :: earlier <:+ (signInRun F w moves).log.history →
      let own := earlier.filter (·.thread = step.thread)
      (∀ row, NewToken step row → Rotated own row ∨ SignedIn F earlier own step.before row.userId row.deviceId) ∧
      (∀ d, BecomesTrusted step d → CodeUsed F earlier own d.userId d.id ∨ EnrolledBy F own d.userId) := by
  intro step earlier hsuffix own
  have hallowed : Allowed F earlier step := (trustInv_run F hw moves).allowed step earlier hsuffix
  exact ⟨fun row => hallowed.newToken, fun d => hallowed.becomesTrusted⟩

/-! ## A sign-in on a trusted device -/

/-- The services of `plainAuth`, where nothing is enrolled. -/
def plainServices : AccountServices := ⟨plainAuth, plainCrypto, fun _ => none⟩

/-- Somebody who knows the password, on the device of `plainWorld`. -/
def knowing : SignInCall :=
  .login ⟨"ada@example.com", "correct horse", ⟨"install", plainKey, "Study", "linux", none, none, "client"⟩⟩
    ⟨none, none, none⟩

/-- The sign-in, up to its token. -/
def signInKnowing : List (Move SignInCall World) := .call knowing :: List.replicate 14 (.step 0)

/-- The token of the sign-in. -/
def knowingToken : RefreshTokenRow :=
  ⟨"u", "u1", "d1", plainHash "secret", "family", 86400000 * 30, none, none, none, none⟩

theorem verified_start : TrustStart verified where
  apart :=
    { users := by simp [verified]
      devices := ⟨by simp [verified, plainWorld], by simp [verified, plainWorld]⟩
      codes := by simp [verified, plainWorld] }
  codes := by simp [verified, plainWorld]

/-- A session that is started on a trusted device. -/
theorem sign_in_sound_knowing :
    ∃ step earlier, (signInRun plainServices verified signInKnowing).log.history = step :: earlier ∧
      NewToken step knowingToken ∧
      (Rotated (earlier.filter (·.thread = step.thread)) knowingToken ∨
        SignedIn plainServices earlier (earlier.filter (·.thread = step.thread)) step.before "u1" "d1") := by
  have hnew : ∀ step earlier,
      (signInRun plainServices verified signInKnowing).log.history = step :: earlier →
        NewToken step knowingToken := by
    intro step earlier hhistory
    obtain ⟨rfl, -⟩ := List.cons.inj hhistory
    exact ⟨List.mem_cons_self, fun t ht => absurd ht List.not_mem_nil⟩
  refine ⟨_, _, rfl, hnew _ _ rfl, ?_⟩
  exact (sign_in_sound plainServices verified verified_start signInKnowing _ _ (List.suffix_refl _)).1
    knowingToken (hnew _ _ rfl)

end Account
