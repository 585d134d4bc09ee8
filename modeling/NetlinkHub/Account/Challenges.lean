import NetlinkHub.Account.Sessions

/-! # Six-digit codes by email

`ChallengeService`: a code is issued to a user for a purpose, sent again as a new code, and used up
(`consume`). What stands in the table is its hash; the code itself goes to the mail transport. -/

namespace Account

open Api (Date HttpException badRequest)
open Concurrent (Prog)

/-- `OTP_TTL_MINUTES`. -/
def otpTtlMinutes : Nat := 10

/-- `OTP_MAX_ATTEMPTS`. -/
def otpMaxAttempts : Nat := 5

/-- `OTP_RESEND_COOLDOWN_SECONDS`. -/
def otpResendCooldownSeconds : Nat := 60

/-- `OTP_MAX_RESENDS`. -/
def otpMaxResends : Nat := 3

/-- `ChallengeResponse`. -/
structure ChallengeResponse where
  challengeId : String
  purpose : String
  maskedEmail : String
  expiresAt : String
  resendAvailableAt : String
  attemptsRemaining : Nat
  resendsRemaining : Nat
  devCode : Option String
  deriving DecidableEq, Repr

/-- The characters before and after the last `@`. -/
def splitAtLast (email : List Char) : Option (List Char × List Char) :=
  match email.reverse.span (· ≠ '@') with
  | (_, []) => none
  | (domain, _ :: reversed) => some (reversed.reverse, domain.reverse)

/-- `maskEmail`. Addresses that have passed their schema are ASCII. -/
def maskEmail (email : String) : String :=
  let bullets (n : Nat) : List Char := List.replicate n '•'
  match splitAtLast email.toList with
  | none | some ([], _) => String.ofList (bullets (max email.length 3))
  | some (first :: rest, domain) =>
    let hidden := if rest.length ≤ 1 then bullets 1
      else bullets (min (rest.length - 1) 8) ++ rest.drop (rest.length - 1)
    String.ofList (first :: hidden ++ '@' :: domain)

example : maskEmail "abc@example.com" = "a•c@example.com" := by decide +kernel

/-- When a code that was sent then may be sent again. -/
def cooldownEndsAt (lastSentAt : Date) : Date := lastSentAt + otpResendCooldownSeconds * 1000

/-- `toResponse`. -/
def toResponse (id purpose : String) (expiresAt lastSentAt : Date) (attempts maxAttempts resendCount : Nat)
    (email : String) (devCode : Option String) : ChallengeResponse :=
  ⟨id, purpose, maskEmail email, Api.toISOString expiresAt, Api.toISOString (cooldownEndsAt lastSentAt),
    maxAttempts - attempts, otpMaxResends - resendCount, devCode⟩

/-- The input of `issue`. -/
structure IssueInput where
  userId : String
  userEmail : String
  userName : String
  purpose : String
  deviceId : Option String
  pendingDeviceName : Option String
  approximateLocation : Option String
  exposeDevCode : Bool
  deriving DecidableEq, Repr

/-- `IssuedChallenge`. -/
structure IssuedChallenge where
  response : ChallengeResponse
  code : String
  deriving DecidableEq, Repr

/-- What a fault of the mail transport becomes. -/
def mailFault : HttpException := ⟨500, "Internal server error"⟩

/-- `sendVerificationCode`. -/
def sendVerificationCode (mail : VerificationMail) : Service Unit :=
  .stmt (.sendMail mail) fun w => if w.refusesMail then .raise mailFault else .done ()

/-- A challenge after it was used up. -/
def ChallengeRow.consumed (now : Date) (c : ChallengeRow) : ChallengeRow :=
  { c with consumedAt := some now }

/-- A challenge after a new code was put in the place of its old one. -/
def ChallengeRow.resent (codeHash : String) (now : Date) (c : ChallengeRow) : ChallengeRow :=
  { c with
    codeHash := codeHash
    expiresAt := now + otpTtlMinutes * 60000
    lastSentAt := now
    resendCount := c.resendCount + 1
    attempts := 0 }

/-- The challenge is of a user, for a purpose, and not used up. -/
def ChallengeRow.IsLive (userId purpose : String) (c : ChallengeRow) : Bool :=
  c.userId = userId ∧ c.purpose = purpose ∧ c.consumedAt = none

/-- The challenge that is found is there. -/
theorem findChallenge_eq_some {id : String} {w : World} {c : ChallengeRow} (h : findChallenge id w = some c) :
    c ∈ w.challenges ∧ c.id = id := by
  have hid := List.find?_some h
  exact ⟨List.mem_of_find?_eq_some h, of_decide_eq_true hid⟩

theorem updateChallenge_bind {α : Type} (id : String) (data : ChallengeRow → ChallengeRow)
    (f : ChallengeRow → Service α) :
    (updateChallenge id data >>= f) = .stmt (.challenges (.update (·.id = id) data)) fun w =>
      match findChallenge id w with
      | none => .raise Api.databaseFault
      | some row => f (data row) := by
  unfold updateChallenge
  rw [Prog.stmt_bind]
  congr 1
  funext w
  cases findChallenge id w with
  | none => rfl
  | some row => rfl

/-- `challenge.create`: identifiers are unique. -/
def createChallenge (row : ChallengeRow) : Service Unit :=
  .stmt (.challenges (.insert (·.id = row.id) row)) fun w =>
    if w.challenges.any (·.id = row.id) then .raise Api.databaseFault else .done ()

namespace ChallengeService

/-- `issue`. -/
def issue (hashSecret : String → String) (input : IssueInput) : Service IssuedChallenge := do
  let superseded ← newDate
  Prog.perform (.challenges (.update (·.IsLive input.userId input.purpose) (·.consumed superseded)))
    fun _ => ()
  let code ← Prog.perform .random World.otp
  let now ← newDate
  let expiresAt : Date := now + otpTtlMinutes * 60000
  let id ← randomUUID
  createChallenge
    { id := id
      userId := input.userId
      deviceId := input.deviceId
      purpose := input.purpose
      codeHash := hashSecret code
      expiresAt := expiresAt
      consumedAt := none
      attempts := 0
      maxAttempts := otpMaxAttempts
      resendCount := 0
      lastSentAt := now
      pendingDeviceName := input.pendingDeviceName }
  sendVerificationCode ⟨input.userEmail, input.userName, code, input.purpose, input.pendingDeviceName,
    input.approximateLocation, otpTtlMinutes⟩
  .done ⟨toResponse id input.purpose expiresAt now 0 otpMaxAttempts 0 input.userEmail
    (if input.exposeDevCode then some code else none), code⟩

/-- The challenge with its user. -/
def findWithUser (challengeId : String) (w : World) : Option (ChallengeRow × UserRow) :=
  (findChallenge challengeId w).bind fun c => (w.users.find? (·.id = c.userId)).map (c, ·)

/-- The exception of a challenge that is gone or used up. -/
def noLongerValid : HttpException := badRequest "This verification request is no longer valid."

/-- The exception of a code that was sent a moment ago. -/
def pleaseWait (milliseconds : Int) : HttpException :=
  tooManyRequests ("Please wait " ++ toString (-(-milliseconds / 1000)) ++
    " seconds before requesting another code.")

/-- The exception of a challenge whose code was sent again as often as it may be. -/
def tooManyCodes : HttpException :=
  tooManyRequests "Too many codes requested. Please start again in a few minutes."

/-- The end of `resend`, once the challenge has been looked at. -/
def sendAgain (hashSecret : String → String) (challenge : ChallengeRow) (user : UserRow) (now : Date)
    (exposeDevCode : Bool) : Service ChallengeResponse := do
  let code ← Prog.perform .random World.otp
  let updated ← updateChallenge challenge.id (·.resent (hashSecret code) now)
  sendVerificationCode ⟨user.email, user.name, code, challenge.purpose, challenge.pendingDeviceName, none,
    otpTtlMinutes⟩
  .done (toResponse updated.id updated.purpose updated.expiresAt updated.lastSentAt updated.attempts
    updated.maxAttempts updated.resendCount user.email (if exposeDevCode then some code else none))

/-- `resend`. -/
def resend (hashSecret : String → String) (challengeId : String) (exposeDevCode : Bool) :
    Service ChallengeResponse := do
  let found ← select .challenges (findWithUser challengeId)
  match found with
  | none => .raise noLongerValid
  | some (challenge, user) =>
    if challenge.consumedAt.isSome then .raise noLongerValid
    else do
      let now ← newDate
      if now < cooldownEndsAt challenge.lastSentAt then
        .raise (pleaseWait (cooldownEndsAt challenge.lastSentAt - now))
      else if challenge.resendCount ≥ otpMaxResends then .raise tooManyCodes
      else sendAgain hashSecret challenge user now exposeDevCode

end ChallengeService

/-! ## What each of them does -/

/-- A statement that changes no table but the audit log. -/
def Write.Bland : Write → Prop
  | .api .clock => True
  | .api .random => True
  | .api (.audit _) => True
  | .select _ => True
  | .dateNow => True
  | .random => True
  | _ => False

/-- What `issue` does: challenges of the user for the purpose are used up, and one is created. -/
def IssueWrite (input : IssueInput) : Write → Prop
  | .challenges (.update sel data) =>
    sel = ChallengeRow.IsLive input.userId input.purpose ∧ ∃ now, data = ChallengeRow.consumed now
  | .challenges (.insert clash row) =>
    clash = (fun c => decide (c.id = row.id)) ∧ row.userId = input.userId ∧ row.deviceId = input.deviceId ∧
      row.purpose = input.purpose ∧ row.consumedAt = none
  | .sendMail _ => True
  | w => w.Bland

/-- What `resend` does: the code of the challenge is replaced. -/
def ResendWrite (challengeId : String) : Write → Prop
  | .challenges (.update sel data) =>
    sel = (fun c => decide (c.id = challengeId)) ∧ ∃ codeHash now, data = ChallengeRow.resent codeHash now
  | .sendMail _ => True
  | w => w.Bland

variable {hashSecret : String → String}

theorem only_sendVerificationCode {P : Write → Prop} (mail : VerificationMail) (h : P (.sendMail mail)) :
    (sendVerificationCode mail).Only P := by
  unfold sendVerificationCode
  refine .stmt h fun w => ?_
  split <;> trivial

theorem only_issueCode (input : IssueInput) :
    (ChallengeService.issue hashSecret input).Only (IssueWrite input) := by
  unfold ChallengeService.issue
  rw [newDate_bind]
  refine .stmt trivial fun w => ?_
  rw [Prog.perform_bind]
  refine .stmt ⟨rfl, _, rfl⟩ fun w => ?_
  rw [Prog.perform_bind]
  refine .stmt trivial fun w => ?_
  rw [newDate_bind]
  refine .stmt trivial fun w => ?_
  rw [randomUUID_bind]
  refine .stmt trivial fun w => Prog.Only.bind (.stmt ⟨rfl, rfl, rfl, rfl, rfl⟩ fun w => ?_) fun _ => ?_
  · split <;> trivial
  · exact (only_sendVerificationCode _ trivial).bind fun _ => trivial

theorem only_resendCode (challengeId : String) (exposeDevCode : Bool) :
    (ChallengeService.resend hashSecret challengeId exposeDevCode).Only (ResendWrite challengeId) := by
  unfold ChallengeService.resend
  rw [select_bind]
  refine .stmt trivial fun w => ?_
  cases hfound : ChallengeService.findWithUser challengeId w with
  | none => trivial
  | some found =>
    obtain ⟨challenge, user⟩ := found
    -- The challenge that is written to is the one of the request.
    obtain ⟨read, hread, hmap⟩ := Option.bind_eq_some_iff.mp hfound
    obtain ⟨user', -, heq⟩ := Option.map_eq_some_iff.mp hmap
    cases heq
    obtain ⟨-, rfl⟩ := findChallenge_eq_some hread
    dsimp only
    split
    · trivial
    rw [newDate_bind]
    refine .stmt trivial fun w => ?_
    split
    · trivial
    split
    · trivial
    unfold ChallengeService.sendAgain
    rw [Prog.perform_bind]
    refine .stmt trivial fun w => Prog.Only.bind (.stmt ⟨rfl, _, _, rfl⟩ fun w => ?_) fun updated => ?_
    · split <;> trivial
    · exact (only_sendVerificationCode _ trivial).bind fun _ => trivial

end Account
