import NetlinkHub.Account.Lockout

/-! # What a registration gives away

Somebody registers an address, presents codes and asks for new ones, one request after the other. If the
address has a verified account, each registration is answered with a decoy: a challenge that is in no
table. The decoy tells itself apart as soon as a code is presented for it (`decoy_told_apart`);
`disguised_iff` says which conversations are the same with and without an account. -/

namespace Account

open Api (Date HttpException RequestContext badRequest)
open Concurrent (Prog)
open Table (Op)

/-- The challenge that a request names: one that a registration has answered with, the first one being
number zero, or one that the client has made up. -/
inductive Name where
  | received (k : Nat)
  | madeUp (id : String)
  deriving DecidableEq, Repr

/-- What a client may ask about an address. -/
inductive Ask where
  | register (name password : String)
  | verifyEmail (challenge : Name) (code : String)
  | resendCode (challenge : Name)
  deriving DecidableEq, Repr

/-- One request of a client, and what it meets: how long the client has waited, whether the rate limiter
lets it through, and whether the mail transport takes a message. -/
structure Visit where
  ask : Ask
  context : RequestContext
  waited : Nat
  throttled : Bool
  refusesMail : Bool
  deriving DecidableEq, Repr

/-- What the random source gives to a request and how long its statements take. -/
structure Lot where
  uuid : Api.Token
  secret : String
  otp : String
  /-- The identifier that is drawn after another. -/
  next : Api.Token → Api.Token
  takes : Date → Nat

/-- The answer to a request. -/
inductive AskAnswer where
  | challenge (r : ChallengeResponse)
  | verified
  deriving DecidableEq, Repr

/-- The text of a name, for a client that has received these identifiers. -/
def Name.text (ids : List String) : Name → Option String
  | received k => ids[k]?
  | madeUp id => some id

/-- What a request runs, unless it names a challenge that was never received. -/
def Ask.serve (A : AuthService) (email : String) (ids : List String) (context : RequestContext) :
    Ask → Option (Service AskAnswer)
  | register name password => some (.challenge <$> A.register ⟨name, email, password⟩ context)
  | verifyEmail challenge code => (challenge.text ids).map fun id =>
    (fun _ => .verified) <$> A.verifyEmail ⟨id, code⟩ context
  | resendCode challenge => (challenge.text ids).map fun id => .challenge <$> A.resendCode id

/-- The world that a request meets. -/
def World.met (w : World) (v : Visit) (lot : Lot) : World :=
  { w with
    api := { w.api with clock := w.api.clock + v.waited, uuid := lot.uuid }
    secret := lot.secret
    otp := lot.otp
    throttled := v.throttled
    refusesMail := v.refusesMail }

/-- A statement of the request, and the time that it takes. -/
def Lot.exec (lot : Lot) (write : Write) (w : World) : World :=
  let w := Account.exec write w
  { w with api := { w.api with clock := w.api.clock + lot.takes w.api.clock, uuid := lot.next w.api.uuid } }

/-- An identifier that the request may draw. -/
def Lot.Draws (lot : Lot) (id : String) : Prop := ∃ n, (lot.next^[n] lot.uuid).text = id

/-- The identifier that a client receives with an answer. -/
def received : Except HttpException AskAnswer → List String
  | .ok (.challenge r) => [r.challengeId]
  | _ => []

/-- An answer without its identifier and its times. -/
def AskAnswer.seen : AskAnswer → AskAnswer
  | challenge r => challenge { r with challengeId := "", expiresAt := "", resendAvailableAt := "" }
  | verified => verified

/-- One request, undisturbed: what the client gets to see, the world after it, and the identifiers that the
client has received. They come from registrations only: a code that is sent again keeps its challenge. -/
def attend (A : AuthService) (email : String) (v : Visit) (lot : Lot) (w : World) (ids : List String) :
    Option (Except HttpException AskAnswer) × World × List String :=
  match v.ask.serve A email ids v.context with
  | none => (none, w.met v lot, ids)
  | some p =>
    let (r, t) := p.runAlone lot.exec (w.met v lot)
    (some (r.map AskAnswer.seen), t, match v.ask with
      | .register .. => ids ++ received r
      | _ => ids)

/-- What a client gets to see in a sequence of requests. -/
def converse (A : AuthService) (email : String) :
    List (Visit × Lot) → World → List String → List (Option (Except HttpException AskAnswer))
  | [], _, _ => []
  | (v, lot) :: rest, w, ids =>
    let (r, t, ids') := attend A email v lot w ids
    r :: converse A email rest t ids'

/-! ## Discretion -/

/-- A request that tells nothing, after so many registrations: it presents no code for a challenge that was
received, asks for no other code in the place of the latest one, and registers while the mail transport
takes messages; unless the rate limiter stops it. -/
def Visit.Discreet (v : Visit) (registered : Nat) : Prop :=
  v.throttled ∨ match v.ask with
    | .register .. => ¬ v.refusesMail
    | .verifyEmail (.received k) _ => registered ≤ k
    | .resendCode (.received k) => k + 1 ≠ registered
    | _ => True

instance (v : Visit) (registered : Nat) : Decidable (v.Discreet registered) := by
  unfold Visit.Discreet
  have : Decidable (match v.ask with
      | .register .. => ¬ v.refusesMail
      | .verifyEmail (.received k) _ => registered ≤ k
      | .resendCode (.received k) => k + 1 ≠ registered
      | _ => True) := by split <;> infer_instance
  infer_instance

/-- The registrations after a request. -/
def Visit.registered (v : Visit) (registered : Nat) : Nat :=
  match v.ask with
  | .register .. => if v.throttled then registered else registered + 1
  | _ => registered

/-- Every request of a sequence is discreet. -/
def AllDiscreet : List Visit → Nat → Prop
  | [], _ => True
  | v :: rest, registered => v.Discreet registered ∧ AllDiscreet rest (v.registered registered)

instance : ∀ visits registered, Decidable (AllDiscreet visits registered)
  | [], _ => isTrue trivial
  | v :: rest, registered =>
    have := instDecidableAllDiscreet rest (v.registered registered)
    inferInstanceAs (Decidable (_ ∧ _))

/-! ## What each call comes to -/

/-- A challenge as a client sees it that is new. -/
def blank (email : String) : AskAnswer :=
  .challenge ⟨"", "email_verification", maskEmail email, "", "", 5, 3, none⟩

variable {A : AuthService} {lot : Lot} {s t : World}

/-- The next identifier is one of the request. -/
def Lot.Ready (lot : Lot) (s : World) : Prop := ∃ n, s.api.uuid = lot.next^[n] lot.uuid

theorem Lot.Ready.exec (h : lot.Ready s) (write : Write) : lot.Ready (lot.exec write s) := by
  obtain ⟨n, hn⟩ := h
  refine ⟨n + 1, ?_⟩
  rw [Function.iterate_succ_apply', ← hn, ← uuid_exec write s]
  rfl

theorem Lot.Ready.draws (h : lot.Ready s) : lot.Draws s.api.uuid.text := by
  obtain ⟨n, hn⟩ := h
  exact ⟨n, by rw [hn]⟩

/-- The users, the codes and the mail transport are the same. -/
structure SameRows (s t : World) : Prop where
  users : t.users = s.users
  challenges : t.challenges = s.challenges
  refusesMail : t.refusesMail = s.refusesMail

theorem SameRows.rfl : SameRows s s := ⟨Eq.refl _, Eq.refl _, Eq.refl _⟩

theorem SameRows.trans {u : World} (h : SameRows s t) (h' : SameRows t u) : SameRows s u :=
  ⟨h'.users.trans h.users, h'.challenges.trans h.challenges, h'.refusesMail.trans h.refusesMail⟩

/-- One statement of a request, and the rest of it. -/
theorem ends_step {α : Type} {w : Write} {next : World → Service α}
    {post : Except HttpException α → World → Prop} (hready : lot.Ready s)
    (h : ∀ t, SameRows (exec w s) t → lot.Ready t → (next s).Ends lot.exec post t) :
    (Prog.stmt w next).Ends lot.exec post s := by
  rw [Prog.ends_stmt]
  exact h _ ⟨rfl, rfl, rfl⟩ (hready.exec w)

theorem sameRows_exec {w : Write} (h : w.Bland) (s : World) : SameRows s (exec w s) := by
  cases w with
  | api write =>
    cases write with
    | clock | random | audit _ => exact ⟨rfl, rfl, rfl⟩
    | _ => exact False.elim h
  | select _ | dateNow | random => exact .rfl
  | _ => exact False.elim h

/-- One statement that changes no table. -/
theorem ends_bland {α : Type} {w : Write} {next : World → Service α}
    {post : Except HttpException α → World → Prop} (hready : lot.Ready s) (hw : w.Bland)
    (h : ∀ t, SameRows s t → lot.Ready t → (next s).Ends lot.exec post t) :
    (Prog.stmt w next).Ends lot.exec post s :=
  ends_step hready fun t ht hready => h t ((sameRows_exec hw s).trans ht) hready

/-- The codes of a user are used up, and another one is put beside them. -/
def Issued (userId id : String) (s t : World) : Prop :=
  ∃ now row, t.challenges = (Op.update (·.IsLive userId "email_verification")
      (·.consumed now)).apply s.challenges ++ [row] ∧
    row.id = id ∧ row.userId = userId ∧ row.purpose = "email_verification" ∧ row.consumedAt = none

/-- What a registration is answered, and the identifier with it. -/
def Answers (refusesMail : Bool) (email id : String) (r : Except HttpException ChallengeResponse) : Prop :=
  if refusesMail then r = .error mailFault
  else ∃ response, r = .ok response ∧ response.challengeId = id ∧
    (AskAnswer.challenge response).seen = blank email

theorem ends_createChallenge {row : ChallengeRow} (hfresh : ∀ c ∈ s.challenges, c.id ≠ row.id) :
    (createChallenge row).Ends lot.exec (fun r t => r = .ok () ∧ t.users = s.users ∧
      t.challenges = s.challenges ++ [row] ∧ t.refusesMail = s.refusesMail) s := by
  have hfree : ¬ s.challenges.any (·.id = row.id) := by simpa using hfresh
  unfold createChallenge
  rw [Prog.ends_stmt, if_neg hfree]
  exact ⟨rfl, rfl, Table.apply_insert.trans (if_neg hfree), rfl⟩

theorem ends_sendVerificationCode (mail : VerificationMail) :
    (sendVerificationCode mail).Ends lot.exec (fun r t =>
      r = (if s.refusesMail then .error mailFault else .ok ()) ∧ t.users = s.users ∧
        t.challenges = s.challenges) s := by
  unfold sendVerificationCode
  rw [Prog.ends_stmt]
  split
  · exact ⟨rfl, rfl, rfl⟩
  · exact ⟨rfl, rfl, rfl⟩

/-- **The issue of a code.** -/
theorem ends_issue {hashSecret : String → String} {input : IssueInput}
    (hpurpose : input.purpose = "email_verification") (hdev : input.exposeDevCode = false)
    (hready : lot.Ready s) (hfresh : ∀ c ∈ s.challenges, ¬ lot.Draws c.id) :
    (ChallengeService.issue hashSecret input).Ends lot.exec (fun r t => t.users = s.users ∧
      ∃ id, lot.Draws id ∧ Issued input.userId id s t ∧
        Answers s.refusesMail input.userEmail id (r.map (·.response))) s := by
  unfold ChallengeService.issue
  rw [newDate_bind]
  refine ends_bland hready trivial fun s₁ h₁ hready => ?_
  rw [Prog.perform_bind]
  refine ends_step hready fun s₂ h₂ hready => ?_
  rw [Prog.perform_bind]
  refine ends_bland hready trivial fun s₃ h₃ hready => ?_
  rw [newDate_bind]
  refine ends_bland hready trivial fun s₄ h₄ hready => ?_
  rw [randomUUID_bind]
  have hdraws := hready.draws
  refine ends_bland hready trivial fun s₅ h₅ _ => ?_
  -- The statements so far have used up the codes of the user.
  obtain ⟨husers, hcodes, hmail⟩ := h₂.trans (h₃.trans (h₄.trans h₅))
  replace husers : s₅.users = s.users := husers.trans h₁.users
  replace hmail : s₅.refusesMail = s.refusesMail := hmail.trans h₁.refusesMail
  replace hcodes : s₅.challenges = (Op.update (·.IsLive input.userId input.purpose)
      (·.consumed s.api.clock)).apply s.challenges := by
    rw [← h₁.challenges]
    exact hcodes
  refine (ends_createChallenge fun c hc heq => ?_).bind (fun _ t ht => ?_) fun _ _ ht => nomatch ht.1
  · rw [hcodes] at hc
    obtain ⟨c₀, hc₀, rfl⟩ := Table.mem_update.mp hc
    rw [apply_ite ChallengeRow.id, show (c₀.consumed s.api.clock).id = c₀.id from rfl, ite_self] at heq
    refine hfresh c₀ hc₀ ?_
    rw [heq]
    exact hdraws
  obtain ⟨-, husers', hcodes', hmail'⟩ := ht
  refine (ends_sendVerificationCode _).bind (fun _ u hu => ?_) fun e u hu => ?_
  all_goals
    obtain ⟨hr, husers'', hcodes''⟩ := hu
    rw [hcodes', hcodes, hpurpose] at hcodes''
    rw [hmail', hmail] at hr
    have hissued : Issued input.userId _ s u := ⟨s.api.clock, _, hcodes'', rfl, rfl, rfl, rfl⟩
    refine ⟨husers''.trans (husers'.trans husers), _, hdraws, hissued, ?_⟩
    unfold Answers
    split at hr
  · nomatch hr
  · rename_i hmail
    rw [if_neg hmail, hdev, hpurpose]
    exact ⟨_, rfl, rfl, rfl⟩
  · rename_i hmail
    rw [if_pos hmail]
    obtain rfl := Except.error.inj hr
    rfl
  · nomatch hr

theorem ends_createUser {row : UserRow} (hfresh : ∀ u ∈ s.users, u.id ≠ row.id ∧ u.email ≠ row.email) :
    (createUser row).Ends lot.exec (fun r t => r = .ok () ∧ t.users = s.users ++ [row] ∧
      t.challenges = s.challenges ∧ t.refusesMail = s.refusesMail ∧ (lot.Ready s → lot.Ready t)) s := by
  have hfree : ¬ s.users.any fun u => u.id = row.id ∨ u.email = row.email := by simpa using hfresh
  unfold createUser
  rw [Prog.ends_stmt, if_neg hfree]
  exact ⟨rfl, Table.apply_insert.trans (if_neg hfree), rfl, rfl, fun h => h.exec _⟩

/-- What a registration does to an address without a verified account: it has an unverified one then, and
another code. -/
structure Joined (lot : Lot) (email id : String) (s t : World) : Prop where
  user : ∃ u, findEmail email t = some u ∧ ¬ u.emailVerified ∧ Issued u.id id s t ∧
    ∀ u', findEmail email s = some u' → u' = u
  users : ∀ u ∈ t.users, u ∈ s.users ∨ lot.Draws u.id

theorem findEmail_eq_some {email : String} {u : UserRow} (h : findEmail email s = some u) :
    u ∈ s.users ∧ u.email = email := by
  have hemail := List.find?_some h
  exact ⟨List.mem_of_find?_eq_some h, of_decide_eq_true hemail⟩

theorem findEmail_congr (email : String) (h : t.users = s.users) : findEmail email t = findEmail email s := by
  unfold findEmail
  rw [h]

/-- A registration of an address that has an unverified account. -/
theorem ends_registerAgain {existing : UserRow} {input : RegisterRequest} {context : RequestContext}
    (hdev : A.exposeDevCode = false) (hready : lot.Ready s)
    (hfound : findEmail input.email s = some existing) (hunverified : ¬ existing.emailVerified)
    (hfresh : ∀ c ∈ s.challenges, ¬ lot.Draws c.id) :
    (A.registerAgain existing input context).Ends lot.exec (fun r t => ∃ id, lot.Draws id ∧
      Joined lot input.email id s t ∧ Answers s.refusesMail input.email id r) s := by
  unfold AuthService.registerAgain
  rw [record_bind]
  refine ends_bland hready trivial fun s₁ h₁ hready => ?_
  obtain ⟨husers₁, hcodes₁, hmail₁⟩ := h₁
  rw [if_neg hunverified]
  rw [← hcodes₁] at hfresh
  refine (ends_issue rfl hdev hready hfresh).bind (fun issued t ht => ?_) fun e t ht => ?_
  all_goals
    obtain ⟨husers, id, hdraws, hissued, hanswers⟩ := ht
    have hjoined : Joined lot input.email id s t := by
      refine ⟨⟨existing, ?_, hunverified, ?_, fun u' hu' => Option.some.inj (hu'.symm.trans hfound)⟩,
        fun u hu => .inl ?_⟩
      · rw [findEmail_congr _ (husers.trans husers₁), hfound]
      · unfold Issued at hissued ⊢
        rw [← hcodes₁]
        exact hissued
      · rw [← husers₁, ← husers]
        exact hu
    rw [hmail₁] at hanswers
    rw [← (findEmail_eq_some hfound).2]
    exact ⟨id, hdraws, (findEmail_eq_some hfound).2 ▸ hjoined, hanswers⟩

/-- A registration of an address that has no account. -/
theorem ends_registerNew {input : RegisterRequest} {context : RequestContext}
    (hdev : A.exposeDevCode = false) (hready : lot.Ready s) (hfound : findEmail input.email s = none)
    (hfresh : ∀ c ∈ s.challenges, ¬ lot.Draws c.id) (hnew : ∀ u ∈ s.users, ¬ lot.Draws u.id) :
    (A.registerNew input context).Ends lot.exec (fun r t => ∃ id, lot.Draws id ∧
      Joined lot input.email id s t ∧ Answers s.refusesMail input.email id r) s := by
  unfold AuthService.registerNew
  rw [Prog.perform_bind]
  refine ends_bland hready trivial fun s₁ h₁ hready => ?_
  rw [randomUUID_bind]
  have hdraws := hready.draws
  refine ends_bland hready trivial fun s₂ h₂ hready => ?_
  rw [newDate_bind]
  refine ends_bland hready trivial fun s₃ h₃ hready => ?_
  obtain ⟨husers₃, hcodes₃, hmail₃⟩ := h₁.trans (h₂.trans h₃)
  refine (ends_createUser fun u hu => ?_).bind (fun _ s₄ h₄ => ?_) fun _ _ ht => nomatch ht.1
  · rw [husers₃] at hu
    refine ⟨fun heq => hnew u hu (heq ▸ hdraws), fun heq => ?_⟩
    have hnot := List.find?_eq_none.mp hfound u hu
    exact hnot (decide_eq_true heq)
  obtain ⟨-, husers₄, hcodes₄, hmail₄, hready₄⟩ := h₄
  rw [record_bind]
  refine ends_bland (hready₄ hready) trivial fun s₅ h₅ hready => ?_
  have husers₅ : s₅.users = s₄.users := h₅.users
  have hcodes₅ : s₅.challenges = s.challenges := h₅.challenges.trans (hcodes₄.trans hcodes₃)
  have hmail₅ : s₅.refusesMail = s.refusesMail := h₅.refusesMail.trans (hmail₄.trans hmail₃)
  rw [← hcodes₅] at hfresh
  -- The one user of that address is the new one.
  have hemail : ∀ t : World, t.users = s₅.users → findEmail input.email t =
      some ⟨s₁.api.uuid.text, input.name, input.email, A.passwords.hash s.secret input.password, false,
        s₂.api.clock, none⟩ := by
    intro t ht
    unfold findEmail
    rw [ht, husers₅, husers₄, husers₃, List.find?_append]
    refine Option.or_eq_some_iff.mpr (.inr ⟨hfound, ?_⟩)
    rw [List.find?_cons_of_pos]
    exact decide_eq_true rfl
  have hjoined : ∀ id (t : World), t.users = s₅.users → Issued s₁.api.uuid.text id s₅ t →
      Joined lot input.email id s t := by
    intro id t ht hissued
    refine ⟨⟨_, hemail t ht, Bool.false_ne_true, ?_, fun u' hu' => nomatch hfound.symm.trans hu'⟩,
      fun u hu => ?_⟩
    · unfold Issued at hissued ⊢
      rw [← hcodes₅]
      exact hissued
    · rw [ht, husers₅, husers₄, husers₃, List.mem_append, List.mem_singleton] at hu
      refine hu.imp_right fun heq => ?_
      rw [heq]
      exact hdraws
  rw [← hmail₅]
  refine (ends_issue rfl hdev hready hfresh).bind (fun issued t ht => ?_) fun e t ht => ?_
  all_goals obtain ⟨husers, id, hdraws, hissued, hanswers⟩ := ht
  · rw [record_bind, Prog.ends_stmt]
    exact ⟨id, hdraws, hjoined id _ husers hissued, hanswers⟩
  · exact ⟨id, hdraws, hjoined id t husers hissued, hanswers⟩

/-- A request that the rate limiter may stop. -/
theorem ends_limited {α : Type} {message : String} {p : Service α}
    {post : Except HttpException α → World → Prop} (hready : lot.Ready s)
    (hstop : s.throttled → ∀ t, SameRows s t → post (.error (tooManyRequests message)) t)
    (hgo : ¬ s.throttled → ∀ t, SameRows s t → lot.Ready t → p.Ends lot.exec post t) :
    (enforceLimit message >>= fun _ => p).Ends lot.exec post s := by
  unfold enforceLimit
  rw [Prog.stmt_bind]
  refine ends_bland hready trivial fun t ht hready => ?_
  split
  · rename_i hthrottled
    exact hstop hthrottled t ht
  · rename_i hthrottled
    exact hgo hthrottled t ht hready

/-- The refusal of the rate limiter, or the answer. -/
def limited {α : Type} (throttled : Bool) (message : String) (r : Except HttpException α) :
    Except HttpException α := if throttled then .error (tooManyRequests message) else r

/-- What the rate limiter says to a registration. -/
abbrev tooManyAccounts : String := "Too many accounts created from this network. Please try again later."

/-- What the rate limiter says to a code. -/
abbrev tooManyAttempts : String := "Too many verification attempts. Please wait a moment."

/-- What the rate limiter says to a client that asks for another code. -/
abbrev tooManyRequested : String := "Too many code requests. Please wait a moment."

/-- A code for a challenge that is in no table. -/
theorem ends_verifyEmail_unknown {id code : String} {context : RequestContext} (hready : lot.Ready s)
    (hunknown : findChallenge id s = none) :
    (A.verifyEmail ⟨id, code⟩ context).Ends lot.exec (fun r t =>
      r = limited s.throttled tooManyAttempts (.error (badRequest (describeChallengeFailure .notFound 0))) ∧
        SameRows s t) s := by
  unfold AuthService.verifyEmail
  refine ends_limited hready (fun hstop t ht => ⟨(if_pos hstop).symm, ht⟩) fun hgo t ht hready => ?_
  unfold consume
  rw [select_bind, Prog.stmt_bind]
  refine ends_bland hready trivial fun t₁ ht₁ hready => ?_
  have hread : findChallenge id t = none := by
    unfold findChallenge at hunknown ⊢
    rw [ht.challenges]
    exact hunknown
  rw [hread]
  refine ends_bland hready trivial fun t₂ ht₂ hready => ?_
  exact ⟨(if_neg hgo).symm, ht.trans (ht₁.trans ht₂)⟩

/-- Another code for a challenge that is in no table, or used up. -/
theorem ends_resendCode_gone {id : String} (hready : lot.Ready s)
    (hgone : ∀ c, findChallenge id s = some c → c.consumedAt ≠ none) :
    (A.resendCode id).Ends lot.exec (fun r t =>
      r = limited s.throttled tooManyRequested (.error ChallengeService.noLongerValid) ∧ SameRows s t) s := by
  unfold AuthService.resendCode
  refine ends_limited hready (fun hstop t ht => ⟨(if_pos hstop).symm, ht⟩) fun hgo t ht hready => ?_
  unfold ChallengeService.resend
  rw [select_bind]
  refine ends_bland hready trivial fun t₁ ht₁ hready => ?_
  have hanswer : (Prog.raise ChallengeService.noLongerValid : Service ChallengeResponse).Ends lot.exec
      (fun r t => r = limited s.throttled tooManyRequested (.error ChallengeService.noLongerValid) ∧
        SameRows s t) t₁ := ⟨(if_neg hgo).symm, ht.trans ht₁⟩
  cases hfound : ChallengeService.findWithUser id t with
  | none => exact hanswer
  | some found =>
    obtain ⟨c, hc, hmap⟩ := Option.bind_eq_some_iff.mp hfound
    obtain ⟨user, -, rfl⟩ := Option.map_eq_some_iff.mp hmap
    unfold findChallenge at hc hgone
    rw [ht.challenges] at hc
    have hused : c.consumedAt.isSome := Option.isSome_iff_ne_none.mpr (hgone c hc)
    simp only [hused, if_true]
    exact hanswer

/-- A registration of an address that has a verified account. -/
theorem ends_register_taken {existing : UserRow} {input : RegisterRequest} {context : RequestContext}
    (hready : lot.Ready s) (hfound : findEmail input.email s = some existing)
    (hverified : existing.emailVerified) :
    (A.register input context).Ends lot.exec (fun r t => SameRows s t ∧
      if s.throttled then r = .error (tooManyRequests tooManyAccounts)
      else ∃ response, r = .ok response ∧ lot.Draws response.challengeId ∧
        (AskAnswer.challenge response).seen = blank input.email) s := by
  unfold AuthService.register
  refine ends_limited hready (fun hstop t ht => ⟨ht, ?_⟩) fun hgo t ht hready => ?_
  · rw [if_pos hstop]
  rw [select_bind]
  refine ends_bland hready trivial fun t₁ ht₁ hready => ?_
  rw [findEmail_congr _ ht.users, hfound]
  dsimp only
  unfold AuthService.registerAgain
  rw [record_bind]
  refine ends_bland hready trivial fun t₂ ht₂ hready => ?_
  rw [if_pos hverified]
  unfold decoyChallenge
  rw [dateNow_bind]
  refine ends_bland hready trivial fun t₃ ht₃ hready => ?_
  rw [randomUUID_bind]
  have hdraws := hready.draws
  refine ends_bland hready trivial fun t₄ ht₄ _ => ?_
  refine ⟨ht.trans (ht₁.trans (ht₂.trans (ht₃.trans ht₄))), ?_⟩
  rw [if_neg hgo]
  exact ⟨_, rfl, hdraws, rfl⟩

/-- A registration of an address that has no verified account. -/
theorem ends_register_free {input : RegisterRequest} {context : RequestContext}
    (hdev : A.exposeDevCode = false) (hready : lot.Ready s)
    (hfree : ∀ u, findEmail input.email s = some u → ¬ u.emailVerified)
    (hfresh : ∀ c ∈ s.challenges, ¬ lot.Draws c.id) (hnew : ∀ u ∈ s.users, ¬ lot.Draws u.id) :
    (A.register input context).Ends lot.exec (fun r t =>
      if s.throttled then r = .error (tooManyRequests tooManyAccounts) ∧ SameRows s t
      else ∃ id, lot.Draws id ∧ Joined lot input.email id s t ∧
        Answers s.refusesMail input.email id r) s := by
  unfold AuthService.register
  refine ends_limited hready (fun hstop t ht => ?_) fun hgo t ht hready => ?_
  · rw [if_pos hstop]
    exact ⟨rfl, ht⟩
  rw [select_bind]
  refine ends_bland hready trivial fun t₁ ht₁ hready => ?_
  obtain ⟨husers, hcodes, hmail⟩ := ht.trans ht₁
  simp only [if_neg hgo]
  rw [findEmail_congr _ ht.users]
  rw [← hcodes] at hfresh
  rw [← husers] at hnew
  have hjoined : ∀ id t', Joined lot input.email id t₁ t' → Joined lot input.email id s t' := by
    intro id t' h
    obtain ⟨u, hfound, hunverified, hissued, hsame⟩ := h.user
    refine ⟨⟨u, hfound, hunverified, ?_, fun u' hu' => hsame u' ?_⟩, fun u hu => ?_⟩
    · unfold Issued at hissued ⊢
      rw [← hcodes]
      exact hissued
    · rw [findEmail_congr _ husers]
      exact hu'
    · rw [← husers]
      exact h.users u hu
  rw [← hmail]
  cases hfound : findEmail input.email s with
  | none =>
    rw [← findEmail_congr _ husers] at hfound
    refine (ends_registerNew hdev hready hfound hfresh hnew).mono fun r t' ht' => ?_
    obtain ⟨id, hdraws, h, hanswers⟩ := ht'
    exact ⟨id, hdraws, hjoined id t' h, hanswers⟩
  | some existing =>
    have hunverified := hfree existing hfound
    rw [← findEmail_congr _ husers] at hfound
    refine (ends_registerAgain hdev hready hfound hunverified hfresh).mono fun r t' ht' => ?_
    obtain ⟨id, hdraws, h, hanswers⟩ := ht'
    exact ⟨id, hdraws, hjoined id t' h, hanswers⟩

/-- What becomes of a code for a challenge that is there. -/
theorem ends_consume_known {hashSecret : String → String} {id code purpose : String} {c : ChallengeRow}
    (hready : lot.Ready s) (hread : findChallenge id s = some c) (hpurpose : c.purpose = purpose) :
    (consume hashSecret id code purpose).Ends lot.exec (fun r _ =>
      (∀ result, r = .ok result → ∀ n, result ≠ .error (.notFound, n)) ∧
        ∀ e, r = .error e → e = Api.databaseFault) s := by
  unfold consume
  rw [select_bind]
  refine ends_bland hready trivial fun t ht hready => ?_
  rw [hread]
  dsimp only
  rw [if_neg (not_not.mpr hpurpose)]
  refine Prog.Ends.of_answers ?_ ?_ t
  · split
    · exact fun _ heq => nomatch heq
    rw [dateNow_bind]
    intro w₁
    dsimp only
    split
    · exact fun _ heq => nomatch heq
    split
    · exact fun _ heq => nomatch heq
    split
    · rw [updateChallenge_bind]
      intro w₂
      dsimp only
      split
      · trivial
      split
      · rw [newDate_bind]
        intro w₃
        dsimp only
        rw [updateChallenge_bind]
        intro w₄
        dsimp only
        split
        · trivial
        · exact fun _ heq => nomatch heq
      · exact fun _ heq => nomatch heq
    · rw [newDate_bind]
      intro w₂
      dsimp only
      rw [Prog.perform_bind]
      intro w₃
      dsimp only
      split
      · exact fun _ heq => nomatch heq
      · exact fun _ heq => nomatch heq
  · split
    · trivial
    rw [dateNow_bind]
    intro w₁
    dsimp only
    split
    · trivial
    split
    · trivial
    split
    · rw [updateChallenge_bind]
      intro w₂
      dsimp only
      split
      · rfl
      split
      · rw [newDate_bind]
        intro w₃
        dsimp only
        rw [updateChallenge_bind]
        intro w₄
        dsimp only
        split
        · rfl
        · trivial
      · trivial
    · rw [newDate_bind]
      intro w₂
      dsimp only
      rw [Prog.perform_bind]
      intro w₃
      dsimp only
      split <;> trivial

/-- No other refusal of a code sounds as that of a challenge that is not found. -/
theorem describeChallengeFailure_ne {reason : Api.ConsumeFault} (h : reason ≠ .notFound) (n : Nat) :
    describeChallengeFailure reason n ≠ describeChallengeFailure .notFound 0 := by
  intro heq
  have hlength : (describeChallengeFailure reason n).length = 25 := congrArg String.length heq
  cases reason with
  | notFound => exact h rfl
  | expired =>
    replace hlength : "That code has expired. Request a new one.".length = 25 := hlength
    exact absurd hlength (by decide)
  | alreadyUsed =>
    replace hlength : "That code has already been used. Request a new one.".length = 25 := hlength
    exact absurd hlength (by decide)
  | tooManyAttempts =>
    replace hlength : "Too many incorrect codes. Request a new one.".length = 25 := hlength
    exact absurd hlength (by decide)
  | invalidCode =>
    simp only [describeChallengeFailure] at hlength
    split at hlength
    · have hlong : "That code is not correct. ".length = 26 := rfl
      rw [String.length_append, String.length_append] at hlength
      omega
    · exact absurd hlength (by decide)

/-- A code for a challenge that is there is never answered as if it were not. -/
theorem ends_verifyEmail_known {id code : String} {context : RequestContext} {c : ChallengeRow}
    (hready : lot.Ready s) (hread : findChallenge id s = some c) (hpurpose : c.purpose = "email_verification") :
    (A.verifyEmail ⟨id, code⟩ context).Ends lot.exec (fun r t =>
      if s.throttled then r = .error (tooManyRequests tooManyAttempts) ∧ SameRows s t
      else r ≠ .error (badRequest (describeChallengeFailure .notFound 0))) s := by
  unfold AuthService.verifyEmail
  refine ends_limited hready (fun hstop t ht => ?_) fun hgo t ht hready => ?_
  · rw [if_pos hstop]
    exact ⟨rfl, ht⟩
  simp only [if_neg hgo]
  have hread' : findChallenge id t = some c := by
    unfold findChallenge at hread ⊢
    rw [ht.challenges]
    exact hread
  refine (ends_consume_known hready hread' hpurpose).bind (fun result t' h => ?_) fun e t' h => ?_
  · have hreason := h.1 result rfl
    cases result with
    | error fault =>
      obtain ⟨reason, attempts⟩ := fault
      have hother : reason ≠ .notFound := fun heq => hreason attempts (by rw [heq])
      dsimp only
      rw [record_bind, Prog.ends_stmt]
      intro heq
      exact describeChallengeFailure_ne hother attempts
        (congrArg HttpException.message (Except.error.inj heq))
    | ok challenge =>
      dsimp only
      unfold updateUser
      rw [Prog.stmt_bind, Prog.ends_stmt]
      split
      · exact fun heq => nomatch heq
      · exact fun heq => nomatch Except.error.inj heq
  · rw [h.2 e rfl]
    exact fun heq => nomatch congrArg HttpException.status (Except.error.inj heq)

/-- Another code for a challenge that is live is never answered as if it were not. -/
theorem ends_resendCode_live {id : String} {c : ChallengeRow} {u : UserRow} (hready : lot.Ready s)
    (hread : findChallenge id s = some c) (hlive : c.consumedAt = none) (huser : u ∈ s.users)
    (howner : c.userId = u.id) :
    (A.resendCode id).Ends lot.exec (fun r t =>
      if s.throttled then r = .error (tooManyRequests tooManyRequested) ∧ SameRows s t
      else r ≠ .error ChallengeService.noLongerValid) s := by
  unfold AuthService.resendCode
  refine ends_limited hready (fun hstop t ht => ?_) fun hgo t ht hready => ?_
  · rw [if_pos hstop]
    exact ⟨rfl, ht⟩
  simp only [if_neg hgo]
  unfold ChallengeService.resend
  rw [select_bind]
  refine ends_bland hready trivial fun t₁ ht₁ hready => ?_
  cases hfound : ChallengeService.findWithUser id t with
  | none =>
    unfold ChallengeService.findWithUser findChallenge at hfound
    unfold findChallenge at hread
    rw [ht.challenges, hread, ht.users, Option.bind_some, Option.map_eq_none_iff, List.find?_eq_none] at hfound
    have hnot := hfound u huser
    exact absurd (decide_eq_true howner.symm) hnot
  | some found =>
    obtain ⟨c', hc', hmap⟩ := Option.bind_eq_some_iff.mp hfound
    obtain ⟨user, -, rfl⟩ := Option.map_eq_some_iff.mp hmap
    unfold findChallenge at hc' hread
    rw [ht.challenges] at hc'
    obtain rfl := Option.some.inj (hread.symm.trans hc')
    simp only [hlive, Option.isSome_none, Bool.false_eq_true, if_false]
    rw [newDate_bind, Prog.ends_stmt]
    split
    · exact fun heq => nomatch congrArg HttpException.status (Except.error.inj heq)
    split
    · exact fun heq => nomatch congrArg HttpException.status (Except.error.inj heq)
    have hraises : (ChallengeService.sendAgain A.hashSecret c user t₁.api.clock A.exposeDevCode).Raises
        fun e => e.status = 500 := by
      unfold ChallengeService.sendAgain
      rw [Prog.perform_bind]
      intro w₁
      dsimp only
      rw [updateChallenge_bind]
      intro w₂
      dsimp only
      split
      · rfl
      · unfold sendVerificationCode
        rw [Prog.stmt_bind]
        intro w₃
        dsimp only
        split
        · rfl
        · trivial
    refine (Prog.Ends.of_answers (Prog.answers_true _) hraises _).mono fun r t' h heq => ?_
    have hstatus := h.2 _ heq
    exact absurd hstatus (by decide)

/-! ## Conversations -/

/-- The name is one that a client has, after so many registrations. -/
def Name.Known (registered : Nat) : Name → Prop
  | received k => k < registered
  | madeUp _ => True

instance (registered : Nat) : ∀ name : Name, Decidable (name.Known registered)
  | .received k => inferInstanceAs (Decidable (k < registered))
  | .madeUp _ => isTrue trivial

/-- What a request is answered when the address has a verified account. -/
def decoyReply (email : String) (v : Visit) (registered : Nat) :
    Option (Except HttpException AskAnswer) :=
  match v.ask with
  | .register .. => some (limited v.throttled tooManyAccounts (.ok (blank email)))
  | .verifyEmail challenge _ =>
    if challenge.Known registered then
      some (limited v.throttled tooManyAttempts
        (.error (badRequest (describeChallengeFailure .notFound 0))))
    else none
  | .resendCode challenge =>
    if challenge.Known registered then
      some (limited v.throttled tooManyRequested (.error ChallengeService.noLongerValid))
    else none

/-- The identifier that a request makes up. -/
def Ask.madeUp : Ask → Option String
  | verifyEmail (.madeUp id) _ => some id
  | resendCode (.madeUp id) => some id
  | _ => none

/-- The identifiers that are drawn are new, and those that are made up are of no challenge. -/
structure Fresh (visits : List (Visit × Lot)) (w : World) : Prop where
  apart : visits.Pairwise fun v v' => ∀ id, v.2.Draws id → ¬ v'.2.Draws id
  users : ∀ v ∈ visits, ∀ u ∈ w.users, ¬ v.2.Draws u.id
  challenges : ∀ v ∈ visits, ∀ c ∈ w.challenges, ¬ v.2.Draws c.id
  madeUp : ∀ v ∈ visits, ∀ id ∈ v.1.ask.madeUp,
    (∀ c ∈ w.challenges, c.id ≠ id) ∧ ∀ v' ∈ visits, ¬ v'.2.Draws id

variable {v : Visit} {rest : List (Visit × Lot)} {w : World} {email : String} {ids : List String}

/-- After a request that adds rows with identifiers of its own only. -/
theorem Fresh.tail (h : Fresh ((v, lot) :: rest) w)
    (husers : ∀ u ∈ t.users, u ∈ w.users ∨ lot.Draws u.id)
    (hcodes : ∀ c ∈ t.challenges, (∃ c₀ ∈ w.challenges, c₀.id = c.id) ∨ lot.Draws c.id) :
    Fresh rest t := by
  obtain ⟨hfirst, hapart⟩ := List.pairwise_cons.mp h.apart
  refine ⟨hapart, fun v' hv' u hu => ?_, fun v' hv' c hc => ?_, fun v' hv' id hid => ⟨fun c hc heq => ?_, ?_⟩⟩
  · rcases husers u hu with hold | hdraws
    · exact h.users v' (List.mem_cons_of_mem _ hv') u hold
    · exact hfirst v' hv' u.id hdraws
  · rcases hcodes c hc with ⟨c₀, hc₀, hid⟩ | hdraws
    · rw [← hid]
      exact h.challenges v' (List.mem_cons_of_mem _ hv') c₀ hc₀
    · exact hfirst v' hv' c.id hdraws
  · obtain ⟨hother, hdrawn⟩ := h.madeUp v' (List.mem_cons_of_mem _ hv') id hid
    rcases hcodes c hc with ⟨c₀, hc₀, hid₀⟩ | hdraws
    · exact hother c₀ hc₀ (hid₀.trans heq)
    · exact hdrawn (v, lot) List.mem_cons_self (heq ▸ hdraws)
  · exact fun v'' hv'' =>
      (h.madeUp v' (List.mem_cons_of_mem _ hv') id hid).2 v'' (List.mem_cons_of_mem _ hv'')

theorem Fresh.tail_same (h : Fresh ((v, lot) :: rest) w) (husers : t.users = w.users)
    (hcodes : t.challenges = w.challenges) : Fresh rest t :=
  h.tail (fun _ hu => .inl (husers ▸ hu)) fun c hc => .inl ⟨c, hcodes ▸ hc, rfl⟩

theorem ready_met (w : World) (v : Visit) (lot : Lot) : lot.Ready (w.met v lot) := ⟨0, rfl⟩

/-- A request runs what it serves. -/
theorem attend_eq {α : Type} {p : Service α} {f : α → AskAnswer}
    (h : v.ask.serve A email ids v.context = some (f <$> p)) :
    attend A email v lot w ids =
      let (r, t) := p.runAlone lot.exec (w.met v lot)
      (some ((r.map f).map AskAnswer.seen), t, match v.ask with
        | .register .. => ids ++ received (r.map f)
        | _ => ids) := by
  unfold attend
  rw [h]
  dsimp only
  rw [Prog.runAlone_map]

theorem Name.text_known {challenge : Name} {id : String} (h : challenge.text ids = some id) :
    challenge.Known ids.length := by
  cases challenge with
  | received k => exact (List.getElem?_eq_some_iff.mp h).1
  | madeUp id' => trivial

theorem Name.not_known {challenge : Name} (h : challenge.text ids = none) :
    ¬ challenge.Known ids.length := by
  cases challenge with
  | received k => exact Nat.not_lt.mpr (List.getElem?_eq_none_iff.mp h)
  | madeUp id => nomatch h

/-- A request that names a challenge which was never received is not made. -/
theorem attend_unnamed (h : v.ask.serve A email ids v.context = none) :
    attend A email v lot w ids = (none, w.met v lot, ids) := by
  unfold attend
  rw [h]

/-- The address has a verified account, and nothing that was received is in a table. -/
structure Taken (email : String) (ids : List String) (w : World) : Prop where
  account : ∃ u, findEmail email w = some u ∧ u.emailVerified
  unknown : ∀ id ∈ ids, findChallenge id w = none

/-- What holds after a request. -/
structure Attended (inv : List String → World → Prop) (rest : List (Visit × Lot)) (v : Visit)
    (ids ids' : List String) (t : World) : Prop where
  fresh : Fresh rest t
  inv : inv ids' t
  length : ids'.length = v.registered ids.length

theorem findChallenge_eq_none {id : String} : findChallenge id w = none ↔ ∀ c ∈ w.challenges, c.id ≠ id := by
  unfold findChallenge
  rw [List.find?_eq_none]
  exact forall₂_congr fun c _ => by rw [decide_eq_true_iff]

theorem Taken.same (h : Taken email ids w) (husers : t.users = w.users)
    (hcodes : t.challenges = w.challenges) : Taken email ids t := by
  obtain ⟨u, hfound, hverified⟩ := h.account
  refine ⟨⟨u, (findEmail_congr email husers).trans hfound, hverified⟩, fun id hid => ?_⟩
  have hnone := h.unknown id hid
  unfold findChallenge at hnone ⊢
  rw [hcodes]
  exact hnone

/-- No name is of a challenge in the table. -/
theorem Taken.text_unknown (h : Taken email ids w) {challenge : Name} {id : String}
    (htext : challenge.text ids = some id)
    (hmadeUp : ∀ id, challenge = .madeUp id → findChallenge id w = none) : findChallenge id w = none := by
  cases challenge with
  | received k => exact h.unknown id (List.mem_of_getElem? htext)
  | madeUp id' =>
    obtain rfl := Option.some.inj htext
    exact hmadeUp id' rfl

/-- The request is answered like one about an address with a verified account, and moves nothing. -/
structure Unmoved (A : AuthService) (email : String) (v : Visit) (lot : Lot) (w : World) (ids : List String) :
    Prop where
  reply : (attend A email v lot w ids).1 = decoyReply email v ids.length
  received : (attend A email v lot w ids).2.2 = ids
  users : (attend A email v lot w ids).2.1.users = w.users
  challenges : (attend A email v lot w ids).2.1.challenges = w.challenges
  asks : ∀ name password, v.ask ≠ .register name password

theorem Unmoved.attended {inv : List String → World → Prop} (h : Unmoved A email v lot w ids)
    (hfresh : Fresh ((v, lot) :: rest) w)
    (hinv : ∀ t : World, t.users = w.users → t.challenges = w.challenges → inv ids t) :
    Attended inv rest v ids (attend A email v lot w ids).2.2 (attend A email v lot w ids).2.1 := by
  refine ⟨hfresh.tail_same h.users h.challenges, ?_, ?_⟩
  · rw [h.received]
    exact hinv _ h.users h.challenges
  · rw [h.received]
    unfold Visit.registered
    split
    · rename_i heq
      exact absurd heq (h.asks _ _)
    · rfl

section

variable {context : RequestContext} {waited : Nat} {throttled refusesMail : Bool} {challenge : Name}
  {code id : String}

theorem unmoved_verifyEmail_unnamed (htext : challenge.text ids = none) :
    Unmoved A email ⟨.verifyEmail challenge code, context, waited, throttled, refusesMail⟩ lot w ids := by
  have hserve : (Ask.verifyEmail challenge code).serve A email ids context = none :=
    congrArg (Option.map _) htext
  constructor
  all_goals try rw [attend_unnamed hserve]
  · exact (if_neg (Name.not_known htext)).symm
  · rfl
  · rfl
  · exact fun _ _ heq => nomatch heq

theorem unmoved_resendCode_unnamed (htext : challenge.text ids = none) :
    Unmoved A email ⟨.resendCode challenge, context, waited, throttled, refusesMail⟩ lot w ids := by
  have hserve : (Ask.resendCode challenge).serve A email ids context = none :=
    congrArg (Option.map _) htext
  constructor
  all_goals try rw [attend_unnamed hserve]
  · exact (if_neg (Name.not_known htext)).symm
  · rfl
  · rfl
  · exact fun _ _ heq => nomatch heq

theorem unmoved_verifyEmail (htext : challenge.text ids = some id)
    (hends : (A.verifyEmail ⟨id, code⟩ context).Ends lot.exec (fun r t =>
      r = limited throttled tooManyAttempts (.error (badRequest (describeChallengeFailure .notFound 0))) ∧
        t.users = w.users ∧ t.challenges = w.challenges)
      (w.met ⟨.verifyEmail challenge code, context, waited, throttled, refusesMail⟩ lot)) :
    Unmoved A email ⟨.verifyEmail challenge code, context, waited, throttled, refusesMail⟩ lot w ids := by
  have hserve : (Ask.verifyEmail challenge code).serve A email ids context =
      some ((fun _ => .verified) <$> A.verifyEmail ⟨id, code⟩ context) := congrArg (Option.map _) htext
  obtain ⟨hr, husers, hcodes⟩ := hends
  constructor
  all_goals try rw [attend_eq hserve]
  · refine Eq.trans ?_ (if_pos (Name.text_known htext)).symm
    dsimp only
    rw [hr]
    cases throttled with
    | true => rfl
    | false => rfl
  · exact husers
  · exact hcodes
  · exact fun _ _ heq => nomatch heq

theorem unmoved_verifyEmail_unknown (htext : challenge.text ids = some id)
    (hunknown : findChallenge id w = none) :
    Unmoved A email ⟨.verifyEmail challenge code, context, waited, throttled, refusesMail⟩ lot w ids :=
  unmoved_verifyEmail htext ((ends_verifyEmail_unknown
    (ready_met w ⟨.verifyEmail challenge code, context, waited, throttled, refusesMail⟩ lot) hunknown).mono
      fun _ _ h => ⟨h.1, h.2.users, h.2.challenges⟩)

theorem unmoved_resendCode (htext : challenge.text ids = some id)
    (hends : (A.resendCode id).Ends lot.exec (fun r t =>
      r = limited throttled tooManyRequested (.error ChallengeService.noLongerValid) ∧
        t.users = w.users ∧ t.challenges = w.challenges)
      (w.met ⟨.resendCode challenge, context, waited, throttled, refusesMail⟩ lot)) :
    Unmoved A email ⟨.resendCode challenge, context, waited, throttled, refusesMail⟩ lot w ids := by
  have hserve : (Ask.resendCode challenge).serve A email ids context =
      some (.challenge <$> A.resendCode id) := congrArg (Option.map _) htext
  obtain ⟨hr, husers, hcodes⟩ := hends
  constructor
  all_goals try rw [attend_eq hserve]
  · refine Eq.trans ?_ (if_pos (Name.text_known htext)).symm
    dsimp only
    rw [hr]
    cases throttled with
    | true => rfl
    | false => rfl
  · exact husers
  · exact hcodes
  · exact fun _ _ heq => nomatch heq

theorem unmoved_resendCode_gone (htext : challenge.text ids = some id)
    (hgone : ∀ c, findChallenge id w = some c → c.consumedAt ≠ none) :
    Unmoved A email ⟨.resendCode challenge, context, waited, throttled, refusesMail⟩ lot w ids :=
  unmoved_resendCode htext ((ends_resendCode_gone
    (ready_met w ⟨.resendCode challenge, context, waited, throttled, refusesMail⟩ lot) hgone).mono
      fun _ _ h => ⟨h.1, h.2.users, h.2.challenges⟩)

end

/-- **A request about an address with a verified account.** -/
theorem attend_taken (hfresh : Fresh ((v, lot) :: rest) w) (htaken : Taken email ids w) :
    (attend A email v lot w ids).1 = decoyReply email v ids.length ∧
      Attended (Taken email) rest v ids (attend A email v lot w ids).2.2 (attend A email v lot w ids).2.1 := by
  have hmade : ∀ id ∈ v.ask.madeUp, findChallenge id w = none := fun id hid =>
    findChallenge_eq_none.mpr (hfresh.madeUp (v, lot) List.mem_cons_self id hid).1
  obtain ⟨ask, context, waited, throttled, refusesMail⟩ := v
  cases ask with
  | register name password =>
    obtain ⟨existing, hfound, hverified⟩ := htaken.account
    have hends : (A.register ⟨name, email, password⟩ context).Ends lot.exec _ _ := ends_register_taken
      (ready_met w ⟨.register name password, context, waited, throttled, refusesMail⟩ lot) hfound hverified
    rw [attend_eq rfl]
    unfold Prog.Ends at hends
    generalize (A.register ⟨name, email, password⟩ context).runAlone lot.exec _ = ended at hends ⊢
    obtain ⟨r, t⟩ := ended
    obtain ⟨hsame, hanswer⟩ := hends
    have hfresh' : Fresh rest t := hfresh.tail_same hsame.users hsame.challenges
    have htaken' : Taken email ids t := htaken.same hsame.users hsame.challenges
    cases throttled with
    | true =>
      obtain rfl : r = _ := hanswer
      refine ⟨rfl, hfresh', ?_, ?_⟩
      · show Taken email (ids ++ []) t
        rwa [List.append_nil]
      · show (ids ++ []).length = ids.length
        rw [List.append_nil]
    | false =>
      obtain ⟨response, rfl, hdraws, hseen⟩ := hanswer
      refine ⟨?_, hfresh', ⟨htaken'.account, fun id hid => ?_⟩, ?_⟩
      · show some (Except.ok (AskAnswer.challenge response).seen) = some (.ok (blank email))
        rw [hseen]
      · rcases List.mem_append.mp hid with hold | hnew
        · exact htaken'.unknown id hold
        · obtain rfl := List.mem_singleton.mp hnew
          refine findChallenge_eq_none.mpr fun c hc heq => ?_
          have hc' : c ∈ w.challenges := hsame.challenges ▸ hc
          exact hfresh.challenges (_, lot) List.mem_cons_self c hc' (heq ▸ hdraws)
      · exact List.length_append
  | verifyEmail challenge code =>
    have hunmoved : Unmoved A email ⟨.verifyEmail challenge code, context, waited, throttled, refusesMail⟩
        lot w ids := by
      cases htext : challenge.text ids with
      | none => exact unmoved_verifyEmail_unnamed htext
      | some id => exact unmoved_verifyEmail_unknown htext (htaken.text_unknown htext fun id' heq =>
          hmade id' (by rw [heq]; rfl))
    exact ⟨hunmoved.reply, hunmoved.attended hfresh fun _ husers hcodes => htaken.same husers hcodes⟩
  | resendCode challenge =>
    have hunmoved : Unmoved A email ⟨.resendCode challenge, context, waited, throttled, refusesMail⟩
        lot w ids := by
      cases htext : challenge.text ids with
      | none => exact unmoved_resendCode_unnamed htext
      | some id =>
        have hunknown := htaken.text_unknown htext fun id' heq => hmade id' (by rw [heq]; rfl)
        exact unmoved_resendCode_gone htext fun c hc => nomatch hunknown.symm.trans hc
    exact ⟨hunmoved.reply, hunmoved.attended hfresh fun _ husers hcodes => htaken.same husers hcodes⟩

/-- The address has no verified account, and each identifier that was received is of one of its codes: the
latest one is live, the others are used up. -/
structure Free (email : String) (ids : List String) (w : World) : Prop where
  unverified : ∀ u, findEmail email w = some u → ¬ u.emailVerified
  code : ∀ k id, ids[k]? = some id → ∃ c u, findChallenge id w = some c ∧
    c.purpose = "email_verification" ∧ findEmail email w = some u ∧ c.userId = u.id ∧
      (c.consumedAt = none ↔ k + 1 = ids.length)

theorem Free.same (h : Free email ids w) (husers : t.users = w.users)
    (hcodes : t.challenges = w.challenges) : Free email ids t := by
  refine ⟨fun u hu => h.unverified u ?_, fun k id hid => ?_⟩
  · rw [← findEmail_congr email husers]
    exact hu
  · obtain ⟨c, u, hread, hpurpose, hfound, howner, hlive⟩ := h.code k id hid
    refine ⟨c, u, ?_, hpurpose, (findEmail_congr email husers).trans hfound, howner, hlive⟩
    unfold findChallenge at hread ⊢
    rw [hcodes]
    exact hread

/-- The codes of a user are used up by the issue of another one. -/
theorem Issued.find_old {userId id id' : String} {c : ChallengeRow} (h : Issued userId id s t)
    (hread : findChallenge id' s = some c) (howner : c.userId = userId)
    (hpurpose : c.purpose = "email_verification") :
    ∃ c', findChallenge id' t = some c' ∧ c'.purpose = "email_verification" ∧ c'.userId = userId ∧
      c'.consumedAt ≠ none := by
  obtain ⟨now, row, hcodes, -⟩ := h
  refine ⟨if c.IsLive userId "email_verification" then c.consumed now else c, ?_, ?_, ?_, ?_⟩
  · unfold findChallenge at hread ⊢
    have hkey : ∀ c : ChallengeRow, (c.consumed now).id = c.id := fun _ => rfl
    rw [hcodes, List.find?_append, Table.find?_update hkey id', hread]
    rfl
  · split <;> exact hpurpose
  · split <;> exact howner
  · split
    · exact Option.some_ne_none now
    · rename_i hnot
      intro hlive
      exact hnot (decide_eq_true ⟨howner, hpurpose, hlive⟩)

theorem Issued.find_new {userId id : String} (h : Issued userId id s t)
    (hfresh : ∀ c ∈ s.challenges, c.id ≠ id) :
    ∃ c, findChallenge id t = some c ∧ c.purpose = "email_verification" ∧ c.userId = userId ∧
      c.consumedAt = none := by
  obtain ⟨now, row, hcodes, hid, howner, hpurpose, hlive⟩ := h
  refine ⟨row, ?_, hpurpose, howner, hlive⟩
  unfold findChallenge
  rw [hcodes, List.find?_append, Option.or_eq_some_iff]
  refine .inr ⟨?_, ?_⟩
  · rw [List.find?_eq_none]
    intro c hc heq
    obtain ⟨c₀, hc₀, rfl⟩ := Table.mem_update.mp hc
    refine hfresh c₀ hc₀ ?_
    replace heq := of_decide_eq_true heq
    split at heq
    · exact heq
    · exact heq
  · exact List.find?_cons_of_pos (decide_eq_true hid)

/-- **A registration that is answered keeps the codes in order.** -/
theorem Free.joined {id : String} (h : Free email ids w) (hjoined : Joined lot email id w t)
    (hfresh : ∀ c ∈ w.challenges, c.id ≠ id) : Free email (ids ++ [id]) t := by
  obtain ⟨u, hfound, hunverified, hissued, hsame⟩ := hjoined.user
  refine ⟨fun u' hu' => ?_, fun k id' hid' => ?_⟩
  · obtain rfl := Option.some.inj (hfound.symm.trans hu')
    exact hunverified
  rw [List.length_append, List.length_singleton, Nat.add_right_cancel_iff]
  rcases Nat.lt_or_ge k ids.length with hk | hk
  · rw [List.getElem?_append_left hk] at hid'
    obtain ⟨c, u', hread, hpurpose, hfound', howner, -⟩ := h.code k id' hid'
    obtain rfl := hsame u' hfound'
    obtain ⟨c', hread', hpurpose', howner', hused⟩ := hissued.find_old hread howner hpurpose
    exact ⟨c', u', hread', hpurpose', hfound, howner', iff_of_false hused (Nat.ne_of_lt hk)⟩
  · rw [List.getElem?_append_right hk] at hid'
    obtain ⟨hlt, hid'⟩ := List.getElem?_eq_some_iff.mp hid'
    rw [List.length_singleton] at hlt
    have hlast : k = ids.length := by omega
    subst hlast
    obtain rfl : id = id' := by simpa using hid'
    obtain ⟨c, hread, hpurpose, howner, hlive⟩ := hissued.find_new hfresh
    exact ⟨c, u, hread, hpurpose, hfound, howner, iff_of_true hlive rfl⟩

theorem verifyEmail_seen {r : Except HttpException Unit} {e : HttpException}
    (h : (r.map fun _ => AskAnswer.verified).map AskAnswer.seen = .error e) : r = .error e := by
  cases r with
  | error e' => exact congrArg _ (Except.error.inj h)
  | ok u => nomatch h

theorem resendCode_seen {r : Except HttpException ChallengeResponse} {e : HttpException}
    (h : (r.map AskAnswer.challenge).map AskAnswer.seen = .error e) : r = .error e := by
  cases r with
  | error e' => exact congrArg _ (Except.error.inj h)
  | ok response => nomatch h

theorem Free.quiet (hfree : Free email ids w) (hfresh : Fresh ((v, lot) :: rest) w)
    (h : Unmoved A email v lot w ids) (hdiscreet : v.Discreet ids.length) :
    ((attend A email v lot w ids).1 = decoyReply email v ids.length ↔ v.Discreet ids.length) ∧
      (v.Discreet ids.length → Attended (Free email) rest v ids (attend A email v lot w ids).2.2
        (attend A email v lot w ids).2.1) :=
  ⟨iff_of_true h.reply hdiscreet, fun _ => h.attended hfresh fun _ husers hcodes => hfree.same husers hcodes⟩

/-- **A request about an address without a verified account.** -/
theorem attend_free (hdev : A.exposeDevCode = false) (hfresh : Fresh ((v, lot) :: rest) w)
    (hfree : Free email ids w) :
    ((attend A email v lot w ids).1 = decoyReply email v ids.length ↔ v.Discreet ids.length) ∧
      (v.Discreet ids.length → Attended (Free email) rest v ids (attend A email v lot w ids).2.2
        (attend A email v lot w ids).2.1) := by
  have hmade : ∀ id ∈ v.ask.madeUp, findChallenge id w = none := fun id hid =>
    findChallenge_eq_none.mpr (hfresh.madeUp (v, lot) List.mem_cons_self id hid).1
  obtain ⟨ask, context, waited, throttled, refusesMail⟩ := v
  cases ask with
  | register name password =>
    have hends : (A.register ⟨name, email, password⟩ context).Ends lot.exec _ _ := ends_register_free hdev
      (ready_met w ⟨.register name password, context, waited, throttled, refusesMail⟩ lot)
      hfree.unverified (hfresh.challenges (_, lot) List.mem_cons_self)
      (hfresh.users (_, lot) List.mem_cons_self)
    rw [attend_eq rfl]
    unfold Prog.Ends at hends
    generalize (A.register ⟨name, email, password⟩ context).runAlone lot.exec _ = ended at hends ⊢
    obtain ⟨r, t⟩ := ended
    cases throttled with
    | true =>
      obtain ⟨hr, hsame⟩ := hends
      obtain rfl : r = _ := hr
      refine ⟨⟨fun _ => .inl rfl, fun _ => rfl⟩, fun _ => ⟨hfresh.tail_same hsame.users hsame.challenges, ?_, ?_⟩⟩
      · show Free email (ids ++ []) t
        rw [List.append_nil]
        exact hfree.same hsame.users hsame.challenges
      · show (ids ++ []).length = ids.length
        rw [List.append_nil]
    | false =>
      obtain ⟨id, hdraws, hjoined, hanswers⟩ := hends
      have hnew : ∀ c ∈ w.challenges, c.id ≠ id := fun c hc heq =>
        hfresh.challenges (_, lot) List.mem_cons_self c hc (heq ▸ hdraws)
      cases refusesMail with
      | true =>
        obtain rfl : r = _ := hanswers
        -- The fault of the mail transport is no decoy.
        have hindiscreet : ¬ Visit.Discreet ⟨.register name password, context, waited, false, true⟩ ids.length :=
          fun h => h.elim Bool.false_ne_true fun h => h rfl
        exact ⟨⟨fun h => (nomatch Option.some.inj h), fun h => absurd h hindiscreet⟩,
          fun h => absurd h hindiscreet⟩
      | false =>
        obtain ⟨response, rfl, rfl, hseen⟩ := hanswers
        replace hjoined : Joined lot email response.challengeId w t := ⟨hjoined.user, hjoined.users⟩
        refine ⟨⟨fun _ => .inr Bool.false_ne_true, fun _ => ?_⟩, fun _ => ⟨?_, hfree.joined hjoined hnew, ?_⟩⟩
        · show some (Except.ok (AskAnswer.challenge response).seen) = some (.ok (blank email))
          rw [hseen]
        · refine hfresh.tail hjoined.users fun c hc => ?_
          obtain ⟨u, -, -, ⟨now, row, hcodes, hid, -⟩, -⟩ := hjoined.user
          rw [hcodes, List.mem_append, List.mem_singleton] at hc
          rcases hc with hc | rfl
          · obtain ⟨c₀, hc₀, rfl⟩ := Table.mem_update.mp hc
            refine .inl ⟨c₀, hc₀, ?_⟩
            split <;> rfl
          · exact .inr (hid ▸ hdraws)
        · exact List.length_append
  | verifyEmail challenge code =>
    cases htext : challenge.text ids with
    | none =>
      refine hfree.quiet hfresh (unmoved_verifyEmail_unnamed htext) ?_
      cases challenge with
      | received k => exact .inr (List.getElem?_eq_none_iff.mp htext)
      | madeUp id => exact .inr trivial
    | some id =>
      cases challenge with
      | madeUp id' =>
        obtain rfl := Option.some.inj htext
        exact hfree.quiet hfresh (unmoved_verifyEmail_unknown htext (hmade _ rfl)) (.inr trivial)
      | received k =>
        obtain ⟨c, u, hread, hpurpose, -, -, -⟩ := hfree.code k id htext
        have hends : (A.verifyEmail ⟨id, code⟩ context).Ends lot.exec _ _ := ends_verifyEmail_known
          (ready_met w ⟨.verifyEmail (.received k) code, context, waited, throttled, refusesMail⟩ lot)
          hread hpurpose
        have hserve : (Ask.verifyEmail (.received k) code).serve A email ids context =
            some ((fun _ => .verified) <$> A.verifyEmail ⟨id, code⟩ context) :=
          congrArg (Option.map _) htext
        have hk : k < ids.length := Name.text_known htext
        cases throttled with
        | true =>
          exact hfree.quiet hfresh (unmoved_verifyEmail htext (hends.mono fun _ _ h =>
            ⟨h.1, h.2.users, h.2.challenges⟩)) (.inl rfl)
        | false =>
          -- The answer to a code for a live challenge is never that of the decoy.
          have hindiscreet : ¬ Visit.Discreet
              ⟨.verifyEmail (.received k) code, context, waited, false, refusesMail⟩ ids.length :=
            fun h => h.elim Bool.false_ne_true (Nat.not_le.mpr hk)
          refine ⟨⟨fun h => absurd ?_ hends, fun h => absurd h hindiscreet⟩, fun h => absurd h hindiscreet⟩
          rw [attend_eq hserve] at h
          exact verifyEmail_seen (Option.some.inj (h.trans (if_pos hk)))
  | resendCode challenge =>
    cases htext : challenge.text ids with
    | none =>
      refine hfree.quiet hfresh (unmoved_resendCode_unnamed htext) ?_
      cases challenge with
      | received k =>
        have hk : ids.length ≤ k := List.getElem?_eq_none_iff.mp htext
        exact .inr (show k + 1 ≠ ids.length by omega)
      | madeUp id => exact .inr trivial
    | some id =>
      cases challenge with
      | madeUp id' =>
        obtain rfl := Option.some.inj htext
        have hunknown := hmade _ rfl
        exact hfree.quiet hfresh (unmoved_resendCode_gone htext fun c hc => nomatch hunknown.symm.trans hc)
          (.inr trivial)
      | received k =>
        obtain ⟨c, u, hread, -, hfound, howner, hlive⟩ := hfree.code k id htext
        by_cases hlatest : k + 1 = ids.length
        · have hends := ends_resendCode_live (A := A)
            (ready_met w ⟨.resendCode (.received k), context, waited, throttled, refusesMail⟩ lot)
            hread (hlive.mpr hlatest) (findEmail_eq_some hfound).1 howner
          have hserve : (Ask.resendCode (.received k)).serve A email ids context =
              some (.challenge <$> A.resendCode id) := congrArg (Option.map _) htext
          cases throttled with
          | true =>
            exact hfree.quiet hfresh (unmoved_resendCode htext (hends.mono fun _ _ h =>
              ⟨h.1, h.2.users, h.2.challenges⟩)) (.inl rfl)
          | false =>
            have hindiscreet : ¬ Visit.Discreet
                ⟨.resendCode (.received k), context, waited, false, refusesMail⟩ ids.length :=
              fun h => h.elim Bool.false_ne_true fun h => h hlatest
            refine ⟨⟨fun h => absurd ?_ hends, fun h => absurd h hindiscreet⟩, fun h => absurd h hindiscreet⟩
            rw [attend_eq hserve] at h
            exact resendCode_seen (Option.some.inj (h.trans (if_pos (Name.text_known htext))))
        · refine hfree.quiet hfresh (unmoved_resendCode_gone htext fun c' hc' hlive' => ?_) (.inr hlatest)
          obtain rfl := Option.some.inj (hread.symm.trans hc')
          exact hlatest (hlive.mp hlive')

theorem converse_cons (rest : List (Visit × Lot)) : converse A email ((v, lot) :: rest) w ids =
    (attend A email v lot w ids).1 ::
      converse A email rest (attend A email v lot w ids).2.1 (attend A email v lot w ids).2.2 := rfl

/-- The visits with what the random source gives in the world without the account. -/
abbrev inFree (visits : List (Visit × Lot × Lot)) : List (Visit × Lot) := visits.map fun v => (v.1, v.2.1)

/-- The visits with what the random source gives in the world with the account. -/
abbrev inTaken (visits : List (Visit × Lot × Lot)) : List (Visit × Lot) := visits.map fun v => (v.1, v.2.2)

/-- Two conversations that have run alike so far run on alike as long as every request is discreet. -/
theorem converse_iff (hdev : A.exposeDevCode = false) (visits : List (Visit × Lot × Lot)) {w₀ w₁ : World}
    {ids₀ ids₁ : List String} (hfresh₀ : Fresh (inFree visits) w₀) (hfresh₁ : Fresh (inTaken visits) w₁)
    (hfree : Free email ids₀ w₀) (htaken : Taken email ids₁ w₁) (hlength : ids₁.length = ids₀.length) :
    converse A email (inFree visits) w₀ ids₀ = converse A email (inTaken visits) w₁ ids₁ ↔
      AllDiscreet (visits.map Prod.fst) ids₀.length := by
  induction visits generalizing w₀ w₁ ids₀ ids₁ with
  | nil => exact iff_of_true rfl trivial
  | cons head tail ih =>
    obtain ⟨v, lot₀, lot₁⟩ := head
    obtain ⟨hreply₀, hafter₀⟩ := attend_free hdev hfresh₀ hfree
    obtain ⟨hreply₁, hafter₁⟩ := attend_taken (A := A) hfresh₁ htaken
    rw [hlength] at hreply₁
    show converse A email ((v, lot₀) :: inFree tail) w₀ ids₀ = converse A email ((v, lot₁) :: inTaken tail) w₁ ids₁ ↔
      v.Discreet ids₀.length ∧ AllDiscreet (tail.map Prod.fst) (v.registered ids₀.length)
    rw [converse_cons, converse_cons, List.cons_eq_cons, hreply₁, hreply₀]
    refine and_congr_right fun hdiscreet => ?_
    have hafter₀ := hafter₀ hdiscreet
    rw [← hafter₀.length]
    refine ih hafter₀.fresh hafter₁.fresh hafter₀.inv hafter₁.inv ?_
    rw [hafter₀.length, hafter₁.length, hlength]

/-- **What a registration gives away.** A conversation about an address runs the same, identifiers and times
aside, whether or not the address has a verified account, just when every request is discreet. -/
theorem disguised_iff (hdev : A.exposeDevCode = false) (visits : List (Visit × Lot × Lot)) {w₀ w₁ : World}
    (hfresh₀ : Fresh (inFree visits) w₀) (hfresh₁ : Fresh (inTaken visits) w₁)
    (hfree : ∀ u, findEmail email w₀ = some u → ¬ u.emailVerified)
    (htaken : ∃ u, findEmail email w₁ = some u ∧ u.emailVerified) :
    converse A email (inFree visits) w₀ [] = converse A email (inTaken visits) w₁ [] ↔
      AllDiscreet (visits.map Prod.fst) 0 := by
  refine converse_iff hdev visits hfresh₀ hfresh₁ ⟨hfree, fun k id hid => ?_⟩ ⟨htaken, fun id hid => ?_⟩ rfl
  · rw [List.getElem?_nil] at hid
    nomatch hid
  · nomatch hid

/-- A lot with one identifier. -/
def plainLot (uuid : Api.Token) (otp : String) : Lot := ⟨uuid, "salt", otp, id, fun _ => 0⟩

theorem draws_plainLot {uuid : Api.Token} {otp id : String} : (plainLot uuid otp).Draws id ↔ uuid.text = id := by
  unfold Lot.Draws plainLot
  simp only [Function.iterate_id, id_eq, exists_const]

/-- A visit that nothing is in the way of. -/
def plainVisit (ask : Ask) : Visit := ⟨ask, ⟨none, none, none⟩, 1000, false, false⟩

/-- Somebody registers an address and tries a code. -/
def registerAndTry : List (Visit × Lot × Lot) :=
  [(plainVisit (.register "Eve" "open sesame"), plainLot ⟨"a1", by decide⟩ "123456",
      plainLot ⟨"b1", by decide⟩ "123456"),
    (plainVisit (.verifyEmail (.received 0) "000000"), plainLot ⟨"a2", by decide⟩ "",
      plainLot ⟨"b2", by decide⟩ "")]

/-- Somebody registers an address twice and asks for another code for the first registration. -/
def registerTwice : List (Visit × Lot × Lot) :=
  [(plainVisit (.register "Eve" "open sesame"), plainLot ⟨"a1", by decide⟩ "123456",
      plainLot ⟨"b1", by decide⟩ "123456"),
    (plainVisit (.register "Eve" "open sesame"), plainLot ⟨"a2", by decide⟩ "234567",
      plainLot ⟨"b2", by decide⟩ "234567"),
    (plainVisit (.resendCode (.received 0)), plainLot ⟨"a3", by decide⟩ "", plainLot ⟨"b3", by decide⟩ "")]

theorem fresh_registerTwice : Fresh (inFree registerTwice) plainWorld := by
  constructor
  · simp [registerTwice, draws_plainLot]
  · simp [registerTwice, plainWorld]
  · simp [registerTwice, plainWorld]
  · simp [registerTwice, draws_plainLot, plainWorld, plainVisit, Ask.madeUp]

theorem fresh_registerTwice_verified : Fresh (inTaken registerTwice) verified := by
  constructor
  · simp [registerTwice, draws_plainLot]
  · simp [registerTwice, draws_plainLot, verified]
  · simp [registerTwice, verified, plainWorld]
  · simp [registerTwice, draws_plainLot, plainVisit, Ask.madeUp]

/-- Two registrations, and another code for the first one: they run the same. -/
theorem disguised_registerTwice :
    converse plainAuth "ada@example.com" (inFree registerTwice) plainWorld [] =
      converse plainAuth "ada@example.com" (inTaken registerTwice) verified [] :=
  (disguised_iff rfl registerTwice fresh_registerTwice fresh_registerTwice_verified
    (fun _ h => nomatch h) ⟨_, rfl, rfl⟩).mpr (by decide)

/-- The hashes of two codes. -/
def otpHash (code : String) : String :=
  if code = "123456" then "8d969eef6ecad3c29a3a629280e686cf0c3f5d5a86aff3ca12020c923adc6c92"
  else "91b4d142823f7d20c5f08df69122de43f35f057a988d9619f6d3138485c9a203"

/-- A registration and a wrong code: the decoy does not count the attempts. -/
theorem decoy_told_apart :
    plainAuth.exposeDevCode = false ∧
      converse { plainAuth with hashSecret := otpHash } "ada@example.com" (inFree registerAndTry)
          plainWorld [] =
        [some (.ok (blank "ada@example.com")),
          some (.error (badRequest "That code is not correct. 4 attempts remaining."))] ∧
      converse { plainAuth with hashSecret := otpHash } "ada@example.com" (inTaken registerAndTry)
          verified [] =
        [some (.ok (blank "ada@example.com")), some (.error (badRequest "That code is not correct."))] := by
  refine ⟨rfl, ?_, ?_⟩
  · rfl
  · rfl

end Account
