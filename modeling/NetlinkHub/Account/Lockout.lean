import NetlinkHub.Account.Families
import NetlinkHub.Account.Nonces
import NetlinkHub.Account.SignIn

/-! # The count of failed sign-ins

A failed sign-in reads the count of its account, and writes it back one higher in a later statement. The
lock always fits the count that is stored, and no password is verified for a sign-in that finds its account
locked. The count itself misses failures that are recorded together (`failure_lost`); where every write
finds the count as it was read (`GuardUpToDate`), it is the number of failed verifications since the last
success or quiet spell (`lock_counts`). -/

namespace Account

open AccountGuardService
open Api (Date HttpException RequestContext)
open Concurrent (Config Log Machine Move Outline Prog Step)
open Table (Op)

/-- A sign-in. -/
structure LoginCall where
  input : LoginRequest
  context : RequestContext
  deriving DecidableEq, Repr

/-- What happens between two statements: time passes, and the rest of the control plane does anything but
touch the counts of failed sign-ins. -/
inductive Aside where
  | tick (ms : Nat)
  | rest (w : World)

/-- The world after it. -/
def aside : Aside → World → World
  | .tick ms, w => { w with api := { w.api with clock := w.api.clock + ms } }
  | .rest w', w =>
    { w' with api := { w'.api with clock := w.api.clock }, accountGuards := w.accountGuards }

/-- Any number of sign-ins. -/
def loginMachine (A : AuthService) : Machine World Write HttpException LoginCall Aside LoginResponse :=
  ⟨fun q => A.login q.input q.context, exec, aside⟩

/-- The accounts after a run. -/
abbrev loginRun (A : AuthService) (w : World) (moves : List (Move LoginCall Aside)) :
    Config World Write HttpException LoginCall LoginResponse :=
  Run.run (loginMachine A).step moves (Config.initial w)

/-- A statement of such a run. -/
abbrev LoginStep := Step World Write LoginCall

/-- The log of such a run. -/
abbrev LoginLog := Log World Write LoginCall

/-! ## Failures and locks -/

/-- The account is locked. -/
def LockedAt (userId : String) (w : World) : Prop :=
  ∃ row ∈ findGuard userId w, ∃ lockedUntil ∈ row.lockedUntil, w.api.clock < lockedUntil

instance (userId : String) : DecidablePred (LockedAt userId) := fun w =>
  inferInstanceAs (Decidable (∃ row ∈ findGuard userId w, ∃ lockedUntil ∈ row.lockedUntil,
    @LT.lt Int _ w.api.clock lockedUntil))

/-- The statement reads the count of an account. -/
def LooksGuard (step : LoginStep) : Bool :=
  match step.write with
  | .select .accountGuards => true
  | _ => false

/-- The statement reads a user. -/
def LooksUser (step : LoginStep) : Bool :=
  match step.write with
  | .select .users => true
  | _ => false

/-- The account of a sign-in, by its statements. -/
def accountOf (own : List LoginStep) : Option String :=
  (own.find? LooksUser).bind fun look => (findEmail look.request.input.email look.before).map (·.id)

/-- The statement verifies a password for an account. -/
def Verifies (userId : String) (step : LoginStep) : Prop :=
  match step.write with
  | .verifyPassword user _ _ => user = some userId
  | _ => False

/-- The statement verifies a password for an account, which fails. -/
def Fails (A : AuthService) (userId : String) (step : LoginStep) : Prop :=
  match step.write with
  | .verifyPassword user storedHash password =>
    user = some userId ∧ A.passwords.verify storedHash password = false
  | _ => False

instance (A : AuthService) (userId : String) : DecidablePred (Fails A userId) := fun step => by
  unfold Fails
  split <;> infer_instance

/-- The statement records a failure of an account. -/
def RecordsFailure (userId : String) (step : LoginStep) : Prop :=
  match step.write with
  | .upsertGuard row _ => row.userId = userId
  | _ => False

instance (userId : String) : DecidablePred (RecordsFailure userId) := fun step => by
  unfold RecordsFailure
  split <;> infer_instance

/-- The failures with one more at a time. -/
def tallyFailure (now : Date) : Option (Nat × Date) → Nat × Date
  | none => (1, now)
  | some (n, last) => (if now - last > decaySeconds * 1000 then 1 else n + 1, now)

/-- How many failures of an account there were since its last success or quiet spell, with the time of the
last one: of those that the history records, after those of the world at its start. -/
def tally (w : World) (userId : String) : List LoginStep → Option (Nat × Date)
  | [] => (findGuard userId w).map fun row => (row.failures, row.lastFailure)
  | step :: earlier =>
    match step.write with
    | .upsertGuard row _ =>
      if row.userId = userId then some (tallyFailure row.lastFailure (tally w userId earlier))
      else tally w userId earlier
    | .deleteGuard userId' => if userId' = userId then none else tally w userId earlier
    | _ => tally w userId earlier

/-- A failure is recorded on the count that its call has read, and a sign-in that starts on a locked account
finds it locked when it looks. -/
def GuardUpToDate (own : List LoginStep) (step : LoginStep) : Prop :=
  match step.write with
  | .upsertGuard row _ => ∀ look ∈ own.find? LooksGuard,
      findGuard row.userId look.before = findGuard row.userId step.before
  | .select .accountGuards => own.any LooksGuard ∨ ∀ userId ∈ accountOf own, ∀ first ∈ own.getLast?,
      LockedAt userId first.before → LockedAt userId step.before
  | _ => True

instance (own : List LoginStep) : DecidablePred (GuardUpToDate own) := fun step => by
  unfold GuardUpToDate
  split <;> infer_instance

/-- Every statement of a history is up to date. -/
def AllGuardUpToDate : List LoginStep → Prop
  | [] => True
  | step :: earlier =>
    GuardUpToDate (earlier.filter (·.thread = step.thread)) step ∧ AllGuardUpToDate earlier

instance : DecidablePred AllGuardUpToDate := fun steps => by
  induction steps with
  | nil => exact isTrue trivial
  | cons step earlier ih => exact @instDecidableAnd _ _ inferInstance ih

/-- The lock of an account fits its failures. -/
def AccountGuardRow.Fits (row : AccountGuardRow) : Prop :=
  row.lockedUntil = lockUntil row.failures row.lastFailure

instance : DecidablePred AccountGuardRow.Fits := fun row =>
  inferInstanceAs (Decidable (row.lockedUntil = _))

/-! ## The outline -/

variable {A : AuthService} {start : World} {σ τ : LoginLog} {i : Nat} {q : LoginCall} {w : Write}
  {userId : String}

/-- A password that was verified for an account was verified for a sign-in that has found it unlocked, and
did not start while it was locked. -/
structure Checked (σ : LoginLog) (i : Nat) (userId : String) : Prop where
  found : ∃ look ∈ σ.own i, LooksGuard look ∧ ¬ LockedAt userId look.before
  started : AllGuardUpToDate σ.history → ∀ first ∈ (σ.own i).getLast?, ¬ LockedAt userId first.before

/-- Locks fit, counts are tallied, and passwords are verified for accounts that are not locked. -/
structure LockInv (start : World) (σ : LoginLog) : Prop where
  fits : ∀ row ∈ σ.shared.accountGuards, row.Fits
  tallied : AllGuardUpToDate σ.history → ∀ userId,
    (findGuard userId σ.shared).map (fun row => (row.failures, row.lastFailure)) =
      tally start userId σ.history
  checked : ∀ i userId, (∃ step ∈ σ.own i, Verifies userId step) → Checked σ i userId

/-- Time passes, and the history grows. -/
structure LockRely (σ τ : LoginLog) : Prop where
  clock : σ.shared.api.clock ≤ τ.shared.api.clock
  history : σ.history <:+ τ.history

/-- The counts of all accounts. -/
def lockOutline (A : AuthService) (start : World) : Outline (loginMachine A) where
  inv := LockInv start
  rely := LockRely
  refl σ := ⟨le_refl _, List.suffix_refl _⟩
  trans h h' := ⟨h.clock.trans h'.clock, h.history.trans h'.history⟩
  env e σ h := by
    cases e with
    | tick ms =>
      exact ⟨⟨h.fits, h.tallied, fun i u hv => ⟨(h.checked i u hv).found, (h.checked i u hv).started⟩⟩,
        Int.le_add_of_nonneg_right (Int.natCast_nonneg ms), List.suffix_refl _⟩
    | rest w =>
      exact ⟨⟨h.fits, h.tallied, fun i u hv => ⟨(h.checked i u hv).found, (h.checked i u hv).started⟩⟩,
        le_refl _, List.suffix_refl _⟩

/-! ## Statements -/

theorem AllGuardUpToDate.suffix {earlier history : List LoginStep} (h : AllGuardUpToDate history)
    (hsuffix : earlier <:+ history) : AllGuardUpToDate earlier := by
  obtain ⟨new, rfl⟩ := hsuffix
  induction new with
  | nil => exact h
  | cons step new ih => exact ih h.2

/-- The clock does not go back in a statement. -/
theorem clock_exec (w : Write) (s : World) : (exec w s).api.clock = s.api.clock := by
  cases w with
  | api w => cases w <;> rfl
  | upsertAgent row now =>
    simp only [exec]
    split <;> rfl
  | createNonce row =>
    simp only [exec]
    split <;> rfl
  | _ => rfl

/-- Only three statements touch the counts or the tally, or verify a password. -/
def Write.Aloof : Write → Prop
  | .upsertGuard .. => False
  | .deleteGuard _ => False
  | .verifyPassword (some _) .. => False
  | _ => True

theorem Write.Aloof.guards_exec (h : w.Aloof) (s : World) : (exec w s).accountGuards = s.accountGuards := by
  cases w with
  | upsertGuard row data => exact h.elim
  | deleteGuard userId => exact h.elim
  | upsertAgent row now =>
    simp only [exec]
    split <;> rfl
  | createNonce row =>
    simp only [exec]
    split <;> rfl
  | _ => rfl

theorem Write.Aloof.tally (h : w.Aloof) {s : World} (earlier : List LoginStep) :
    Account.tally start userId (⟨i, q, w, s⟩ :: earlier) = Account.tally start userId earlier := by
  cases w with
  | upsertGuard row data => exact h.elim
  | deleteGuard userId => exact h.elim
  | _ => rfl

/-- A statement that verifies nothing adds nothing to be checked. -/
theorem LockInv.checked_perform (h : LockInv start σ)
    (hnow : ∀ userId, Verifies userId ⟨i, q, w, σ.shared⟩ → Checked σ i userId) (j : Nat) (userId : String)
    (hv : ∃ step ∈ (σ.perform exec i q w).own j, Verifies userId step) :
    Checked (σ.perform exec i q w) j userId := by
  by_cases hij : i = j
  · subst hij
    have hwas : Checked σ i userId := by
      obtain ⟨step, hstep, hverifies⟩ := hv
      rw [Log.own_perform_self] at hstep
      rcases List.mem_cons.mp hstep with rfl | hstep
      · exact hnow userId hverifies
      · exact h.checked i userId ⟨step, hstep, hverifies⟩
    obtain ⟨look, hlook, hlooks, hfree⟩ := hwas.found
    constructor
    · rw [Log.own_perform_self]
      exact ⟨look, List.mem_cons_of_mem _ hlook, hlooks, hfree⟩
    · intro hall first hfirst
      -- The first statement of the call is still the same.
      rw [Log.own_perform_self, List.getLast?_cons_of_ne_nil (List.ne_nil_of_mem hlook)] at hfirst
      exact hwas.started hall.2 first hfirst
  · rw [Log.own_perform_of_ne _ _ _ _ hij] at hv
    have hwas := h.checked j userId hv
    constructor
    · rw [Log.own_perform_of_ne _ _ _ _ hij]
      exact hwas.found
    · rw [Log.own_perform_of_ne _ _ _ _ hij]
      exact fun hall => hwas.started hall.2

theorem LockRely.perform : LockRely σ (σ.perform exec i q w) :=
  ⟨(clock_exec w σ.shared).ge, List.suffix_cons _ _⟩

/-- **What a statement keeps that leaves the counts alone.** -/
theorem LockInv.aloof (h : LockInv start σ) (hw : w.Aloof) : LockInv start (σ.perform exec i q w) := by
  have hguards : (σ.perform exec i q w).shared.accountGuards = σ.shared.accountGuards :=
    hw.guards_exec σ.shared
  refine ⟨fun row hrow => ?_, fun hall userId => ?_, h.checked_perform fun userId hverifies => ?_⟩
  · rw [hguards] at hrow
    exact h.fits row hrow
  · refine Eq.trans ?_ ((h.tallied hall.2 userId).trans (hw.tally σ.history).symm)
    unfold findGuard
    rw [hguards]
  · unfold Verifies at hverifies
    split at hverifies
    · rename_i hwrite
      cases hwrite
      subst hverifies
      exact hw.elim
    · exact hverifies.elim

/-- **What a success keeps.** -/
theorem LockInv.delete (h : LockInv start σ) (userId : String) :
    LockInv start (σ.perform exec i q (.deleteGuard userId)) := by
  refine ⟨fun row hrow => h.fits row (List.mem_of_mem_filter hrow), fun hall userId' => ?_,
    h.checked_perform fun _ => False.elim⟩
  show ((σ.shared.accountGuards.filter fun row => ¬ decide (row.userId = userId)).find? _).map _ =
    if userId = userId' then none else tally start userId' σ.history
  rw [List.find?_filter]
  split
  · rename_i heq
    subst heq
    rw [List.find?_eq_none.mpr, Option.map_none]
    simp
  · rename_i hne
    refine Eq.trans ?_ (h.tallied hall.2 userId')
    unfold findGuard
    congr 2
    funext row
    by_cases hrow : row.userId = userId'
    · simp [hrow, Ne.symm hne]
    · simp [hrow]

/-- The count of an account after a failure was recorded. -/
theorem findGuard_upsert (row : AccountGuardRow) (data : AccountGuardRow → AccountGuardRow)
    (hdata : ∀ r, (data r).userId = r.userId) (userId : String) (s : World) :
    findGuard userId (exec (.upsertGuard row data) s) =
      if row.userId = userId then some ((findGuard userId s).elim row data) else findGuard userId s := by
  unfold findGuard
  show List.find? _ (if s.accountGuards.any (·.userId = row.userId) then
    (Op.update (·.userId = row.userId) data).apply s.accountGuards else s.accountGuards ++ [row]) = _
  split
  · rename_i hany
    rw [Table.find?_update hdata]
    cases hfound : s.accountGuards.find? (·.userId = userId) with
    | none =>
      have hne : row.userId ≠ userId := by
        rintro rfl
        obtain ⟨r, hr, heq⟩ := List.any_eq_true.mp hany
        exact List.find?_eq_none.mp hfound r hr heq
      rw [if_neg hne, Option.map_none]
    | some r =>
      have hr : r.userId = userId := by simpa using List.find?_some hfound
      rw [Option.map_some, hr]
      by_cases hsame : row.userId = userId
      · simp [hsame]
      · simp [hsame, Ne.symm hsame]
  · rename_i hany
    have hfree : ∀ r ∈ s.accountGuards, r.userId ≠ row.userId := by simpa using hany
    rw [List.find?_append]
    by_cases hsame : row.userId = userId
    · subst hsame
      rw [List.find?_eq_none.mpr (by simpa using hfree)]
      simp
    · simp [hsame]

/-- The row of a failure. -/
def failureRow (userId : String) (existing : Option AccountGuardRow) (now : Date) : AccountGuardRow :=
  ⟨userId, countFailure existing now, now, now, lockUntil (countFailure existing now) now⟩

/-- The row of an account after another failure. -/
def failedAgain (existing : Option AccountGuardRow) (now : Date) (row : AccountGuardRow) : AccountGuardRow :=
  { row with
    failures := countFailure existing now
    firstFailure := if existing.any (decayed · now) then now else row.firstFailure
    lastFailure := now
    lockedUntil := lockUntil (countFailure existing now) now }

/-- A failure on the count of an account is tallied. -/
theorem tallyFailure_eq (existing : Option AccountGuardRow) (now : Date) :
    tallyFailure now (existing.map fun row => (row.failures, row.lastFailure)) =
      (countFailure existing now, now) := by
  cases existing with
  | none => rfl
  | some row => simp [tallyFailure, countFailure, decayed]

/-- **What a failure keeps**, when it is recorded on the count that its call has read. -/
theorem LockInv.upsert (h : LockInv start σ) {userId : String} {now : Date} {look : LoginStep}
    (hlook : (σ.own i).find? LooksGuard = some look) :
    LockInv start (σ.perform exec i q (.upsertGuard (failureRow userId (findGuard userId look.before) now)
      (failedAgain (findGuard userId look.before) now))) := by
  refine ⟨fun row hrow => ?_, fun hall userId' => ?_, h.checked_perform fun _ => False.elim⟩
  · replace hrow : row ∈ if σ.shared.accountGuards.any (·.userId = userId) then
        (Op.update (·.userId = userId) (failedAgain (findGuard userId look.before) now)).apply
          σ.shared.accountGuards
      else σ.shared.accountGuards ++ [failureRow userId (findGuard userId look.before) now] := hrow
    split at hrow
    · obtain ⟨r, hr, rfl⟩ := Table.mem_update.mp hrow
      split
      · rfl
      · exact h.fits r hr
    · rcases List.mem_append.mp hrow with hrow | hrow
      · exact h.fits row hrow
      · rw [List.mem_singleton.mp hrow]
        rfl
  · have hsame : findGuard userId look.before = findGuard userId σ.shared := hall.1 look hlook
    have hbefore := h.tallied hall.2 userId'
    show (findGuard userId' (exec _ σ.shared)).map _ = if userId = userId' then _ else tally start userId' σ.history
    have hfound : findGuard userId' (exec (.upsertGuard (failureRow userId (findGuard userId look.before) now)
        (failedAgain (findGuard userId look.before) now)) σ.shared) =
        if userId = userId' then some ((findGuard userId' σ.shared).elim
          (failureRow userId (findGuard userId look.before) now)
          (failedAgain (findGuard userId look.before) now))
        else findGuard userId' σ.shared := findGuard_upsert _ (failedAgain _ now) (fun _ => rfl) userId' σ.shared
    rw [hfound, hsame]
    by_cases heq : userId = userId'
    · subst heq
      rw [if_pos rfl, if_pos rfl, ← hbefore]
      show _ = some (tallyFailure now _)
      rw [tallyFailure_eq]
      cases findGuard userId σ.shared with
      | none => rfl
      | some row => rfl
    · rw [if_neg heq, if_neg heq]
      exact hbefore

/-- **What a verification keeps**, when its call has found the account unlocked. -/
theorem LockInv.verify (h : LockInv start σ) {storedHash password : String} (hchecked : Checked σ i userId) :
    LockInv start (σ.perform exec i q (.verifyPassword (some userId) storedHash password)) := by
  refine ⟨h.fits, fun hall => h.tallied hall.2, h.checked_perform fun userId' hverifies => ?_⟩
  obtain rfl : userId = userId' := Option.some.inj hverifies
  exact hchecked

/-! ## Programs -/

/-- The seconds that a sign-in finds its account to be locked for. -/
def lockedSeconds (userId : String) (w : World) (now : Date) : Nat :=
  ((findGuard userId w).bind (·.lockedUntil)).elim 0 (remainingSeconds · now)

theorem lockedForSeconds_bind {α : Type} (userId : String) (f : Nat → Service α) :
    (lockedForSeconds userId >>= f) = .stmt (.api .clock) fun w => .stmt (.select .accountGuards) fun w' =>
      f (lockedSeconds userId w' w.api.clock) := by
  unfold lockedForSeconds
  rw [newDate_bind, Prog.stmt_bind]
  congr 1
  funext w
  rw [select_bind, Prog.stmt_bind]
  congr 1
  funext w'
  unfold lockedSeconds
  cases (findGuard userId w').bind (·.lockedUntil) with
  | none => rfl
  | some lockedUntil => rfl

theorem recordFailure_bind {α : Type} (userId : String) (f : Service α) :
    (recordFailure userId >>= fun _ => f) = .stmt (.api .clock) fun w =>
      .stmt (.select .accountGuards) fun w' =>
        .stmt (.upsertGuard (failureRow userId (findGuard userId w') w.api.clock)
          (failedAgain (findGuard userId w') w.api.clock)) fun _ => f := rfl

/-- An account that has no seconds left is not locked. -/
theorem not_lockedAt {s : World} {now : Date} (h : lockedSeconds userId s now = 0) (hnow : now ≤ s.api.clock) :
    ¬ LockedAt userId s := by
  rintro ⟨row, hrow, lockedUntil, hlocked, hlt⟩
  rw [Option.mem_def] at hrow hlocked
  unfold lockedSeconds remainingSeconds at h
  rw [hrow, Option.bind_some, hlocked] at h
  simp only [Option.elim_some] at h
  have hlater : @LT.lt Int _ now lockedUntil := lt_of_le_of_lt hnow hlt
  omega

/-- Every failed verification of a call has been recorded, once. -/
def Balanced (A : AuthService) (own : List LoginStep) : Prop :=
  ∀ userId, own.countP (Fails A userId ·) = own.countP (RecordsFailure userId ·)

/-- A statement that neither verifies a password for an account nor records a failure. -/
def Write.Settled : Write → Prop
  | .upsertGuard .. => False
  | .verifyPassword (some _) .. => False
  | _ => True

/-- A failed verification for an account is yet to be recorded. -/
def Owes (A : AuthService) (userId : String) (own : List LoginStep) : Prop :=
  ∀ userId', own.countP (Fails A userId' ·) =
    own.countP (RecordsFailure userId' ·) + if userId' = userId then 1 else 0

theorem Write.Settled.not_fails (h : w.Settled) {s : World} : ¬ Fails A userId ⟨i, q, w, s⟩ := by
  unfold Fails
  split
  · rename_i hwrite
    cases hwrite
    rintro ⟨rfl, -⟩
    exact h
  · exact not_false

theorem Write.Settled.not_records (h : w.Settled) {s : World} : ¬ RecordsFailure userId ⟨i, q, w, s⟩ := by
  unfold RecordsFailure
  split
  · rename_i hwrite
    cases hwrite
    exact h.elim
  · exact not_false

theorem countP_step (p : LoginStep → Prop) [DecidablePred p] (step : LoginStep) (own : List LoginStep) :
    (step :: own).countP (p ·) = own.countP (p ·) + if p step then 1 else 0 := by
  simp [List.countP_cons]

theorem Write.Settled.balanced (h : w.Settled) {s : World} {own : List LoginStep} (hown : Balanced A own) :
    Balanced A (⟨i, q, w, s⟩ :: own) := by
  intro userId
  rw [countP_step, countP_step, if_neg h.not_fails, if_neg h.not_records]
  exact hown userId

theorem Write.Settled.owes (h : w.Settled) {s : World} {own : List LoginStep} (hown : Owes A userId own) :
    Owes A userId (⟨i, q, w, s⟩ :: own) := by
  intro userId'
  rw [countP_step, countP_step, if_neg h.not_fails, if_neg h.not_records]
  exact hown userId'

theorem fails_verifyPassword {user : Option String} {storedHash password : String} {s : World} :
    Fails A userId ⟨i, q, .verifyPassword user storedHash password, s⟩ ↔
      user = some userId ∧ A.passwords.verify storedHash password = false := Iff.rfl

theorem not_records_verifyPassword {user : Option String} {storedHash password : String} {s : World} :
    ¬ RecordsFailure userId ⟨i, q, .verifyPassword user storedHash password, s⟩ := not_false

/-- A right password leaves the balance as it is. -/
theorem Balanced.verified {own : List LoginStep} {s : World} {storedHash password : String}
    (hown : Balanced A own) (hmatches : A.passwords.verify storedHash password = true) :
    Balanced A (⟨i, q, .verifyPassword (some userId) storedHash password, s⟩ :: own) := by
  intro userId'
  rw [countP_step, countP_step, if_neg not_records_verifyPassword, if_neg]
  · exact hown userId'
  · rw [fails_verifyPassword, hmatches]
    exact fun h => Bool.noConfusion h.2

/-- A wrong password is a failure to be recorded. -/
theorem Balanced.failed {own : List LoginStep} {s : World} {storedHash password : String}
    (hown : Balanced A own) (hfails : A.passwords.verify storedHash password = false) :
    Owes A userId (⟨i, q, .verifyPassword (some userId) storedHash password, s⟩ :: own) := by
  intro userId'
  rw [countP_step, countP_step, if_neg not_records_verifyPassword, hown userId', Nat.add_zero]
  congr 1
  refine if_congr ?_ rfl rfl
  rw [fails_verifyPassword, Option.some.injEq]
  exact ⟨fun h => h.1.symm, fun h => ⟨h.symm, hfails⟩⟩

/-- And then it is recorded. -/
theorem Owes.recorded {own : List LoginStep} {s : World} {row : AccountGuardRow}
    {data : AccountGuardRow → AccountGuardRow} (hown : Owes A userId own) (hrow : row.userId = userId) :
    Balanced A (⟨i, q, .upsertGuard row data, s⟩ :: own) := by
  intro userId'
  have hfails : ¬ Fails A userId' ⟨i, q, .upsertGuard row data, s⟩ := not_false
  have hrecords : RecordsFailure userId' ⟨i, q, .upsertGuard row data, s⟩ ↔ userId' = userId :=
    ⟨fun h => Eq.trans (Eq.symm h) hrow, fun h => hrow.trans h.symm⟩
  rw [countP_step, countP_step, if_neg hfails, Nat.add_zero, hown userId', if_congr hrecords rfl rfl]

theorem LockInv.settled (h : LockInv start σ) (hw : w.Settled) : LockInv start (σ.perform exec i q w) := by
  cases w with
  | deleteGuard userId => exact h.delete userId
  | upsertGuard row data => exact hw.elim
  | verifyPassword user storedHash password =>
    refine h.aloof ?_
    cases user with
    | none => trivial
    | some userId => exact hw.elim
  | _ => exact h.aloof trivial

/-- A program of such statements. -/
theorem keeps_settled {α : Type} {p : Service α} (h : p.Only Write.Settled) :
    (lockOutline A start).Keeps i q (Balanced A) p :=
  Outline.keeps_of_only h fun _ _ hw hσ hown => ⟨.perform, hσ.settled hw, hw.balanced hown⟩

theorem Write.Bland.settled (h : w.Bland) : w.Settled := by
  unfold Write.Settled
  split
  · exact h
  · exact h
  · trivial

theorem settled_issue {hashSecret : String → String} (input : IssueInput) :
    (ChallengeService.issue hashSecret input).Only Write.Settled := by
  refine (only_issueCode input).mono fun w hw => ?_
  unfold IssueWrite at hw
  split at hw
  · trivial
  · trivial
  · trivial
  · exact hw.settled

theorem settled_refuseLogin (outcome : String) (user : Option String) (reason : String)
    (context : RequestContext) : (AuthService.refuseLogin outcome user reason context).Only Write.Settled := by
  unfold AuthService.refuseLogin
  rw [record_bind]
  exact .stmt trivial fun _ => trivial

theorem settled_loginTrusted (user : UserRow) (device : DeviceRow) (context : RequestContext) :
    (A.loginTrusted user device context).Only Write.Settled := by
  unfold AuthService.loginTrusted
  refine Prog.Only.bind ((only_startSession ..).mono fun w hw => ?_) fun tokens => ?_
  · unfold StartWrite at hw
    split at hw
    · trivial
    · exact hw.settled
  rw [newDate_bind]
  refine .stmt trivial fun w => Prog.Only.bind (.stmt trivial fun w => ?_) fun device => ?_
  · split <;> trivial
  · rw [record_bind]
    exact .stmt trivial fun _ => trivial

theorem settled_loginWithDevice (user : UserRow) (input : LoginRequest) (context : RequestContext) :
    (A.loginWithDevice user input context).Only Write.Settled := by
  unfold AuthService.loginWithDevice AccountGuardService.recordSuccess
  rw [Prog.perform_bind]
  refine .stmt trivial fun w => Prog.Only.bind ?_ fun _ => Prog.Only.bind ?_ fun device => ?_
  · unfold AuthService.upgradeHash
    split
    · rw [Prog.perform_bind]
      refine .stmt trivial fun w => .stmt trivial fun w => ?_
      split <;> trivial
    · trivial
  · refine (only_upsertDevice ..).mono fun w hw => ?_
    unfold PresentWrite at hw
    split at hw
    · trivial
    · trivial
    · exact hw.settled
  split
  · rw [record_bind]
    exact .stmt trivial fun _ => trivial
  split
  · exact settled_loginTrusted user device context
  · unfold AuthService.loginUntrusted
    refine (settled_issue _).bind fun issued => ?_
    rw [record_bind]
    exact .stmt trivial fun _ => trivial

/-! ## One sign-in -/

/-- An aloof statement, and the rest of the program. -/
theorem safe_aloof {α : Type} {post : Except HttpException α → LoginLog → Prop} {next : World → Service α}
    (hw : w.Aloof)
    (hnext : ∀ τ, (lockOutline A start).Later i σ τ → LockInv start τ →
      (lockOutline A start).Safe i q post (next τ.shared) (τ.perform exec i q w)) :
    (lockOutline A start).Safe i q post (.stmt w next) σ :=
  fun τ hlater hτ => ⟨.perform, hτ.aloof hw, hnext τ hlater hτ⟩

/-- What holds when a sign-in ends. -/
abbrev loginPost (A : AuthService) (i : Nat) (_ : Except HttpException LoginResponse) (σ : LoginLog) : Prop :=
  Balanced A (σ.own i)

/-- A program of settled statements, when every failure of the call has been recorded. -/
theorem safe_settled {p : Service LoginResponse} (h : p.Only Write.Settled) (hσ : LockInv start σ)
    (hown : Balanced A (σ.own i)) : (lockOutline A start).Safe i q (loginPost A i) p σ :=
  (keeps_settled h).safe σ hσ hown

/-- **One sign-in** on an account that is not cooling off. -/
theorem safe_loginUser {user : UserRow} {input : LoginRequest} {context : RequestContext}
    (hchecked : ∀ τ, (lockOutline A start).Later i σ τ → Checked τ i user.id) (hown : Balanced A (σ.own i)) :
    (lockOutline A start).Safe i q (loginPost A i) (A.loginUser user input context) σ := by
  unfold AuthService.loginUser AuthService.verifyPassword
  rw [Prog.perform_bind]
  intro τ hlater hτ
  have hτ' : LockInv start (τ.perform exec i q
      (.verifyPassword (some user.id) user.passwordHash input.password)) := hτ.verify (hchecked τ hlater)
  rw [← hlater.2] at hown
  refine ⟨.perform, hτ', ?_⟩
  cases hmatches : A.passwords.verify user.passwordHash input.password with
  | true =>
    rw [if_neg (not_not.mpr rfl)]
    refine safe_settled ?_ hτ' ?_
    · split
      · exact settled_refuseLogin ..
      split
      · exact (settled_issue _).bind fun _ => trivial
      · exact settled_loginWithDevice ..
    · rw [Log.own_perform_self]
      exact hown.verified hmatches
  | false =>
    rw [if_pos Bool.false_ne_true, recordFailure_bind]
    have howes : Owes A user.id ((τ.perform exec i q
        (.verifyPassword (some user.id) user.passwordHash input.password)).own i) := by
      rw [Log.own_perform_self]
      exact hown.failed hmatches
    refine safe_aloof trivial fun τ₁ hlater₁ _ => safe_aloof trivial fun τ₂ hlater₂ _ => ?_
    -- The newest look at the count is the one of `recordFailure`.
    intro τ₃ hlater₃ hτ₃
    have hown₃ : τ₃.own i = ⟨i, q, .select .accountGuards, τ₂.shared⟩ ::
        ⟨i, q, .api .clock, τ₁.shared⟩ ::
          (τ.perform exec i q (.verifyPassword (some user.id) user.passwordHash input.password)).own i := by
      rw [hlater₃.2, Log.own_perform_self, hlater₂.2, Log.own_perform_self, hlater₁.2]
      rfl
    have hlook : (τ₃.own i).find? LooksGuard = some ⟨i, q, .select .accountGuards, τ₂.shared⟩ := by
      rw [hown₃]
      rfl
    have hkept : LockInv start (τ₃.perform exec i q (.upsertGuard
        (failureRow user.id (findGuard user.id τ₂.shared) τ₁.shared.api.clock)
        (failedAgain (findGuard user.id τ₂.shared) τ₁.shared.api.clock))) := hτ₃.upsert hlook
    refine ⟨.perform, hkept, safe_settled (settled_refuseLogin ..) hkept ?_⟩
    rw [Log.own_perform_self, hown₃]
    refine Owes.recorded (Write.Settled.owes (by trivial) (Write.Settled.owes (by trivial) howes)) rfl

/-- **One sign-in.** -/
theorem safe_login (hown : σ.own i = []) :
    (lockOutline A start).Safe i q (loginPost A i) (A.login q.input q.context) σ := by
  have hnil : Balanced A [] := fun _ => rfl
  unfold AuthService.login
  rw [enforceLimit_bind]
  refine safe_aloof trivial fun τ₁ hlater₁ hτ₁ => ?_
  have hown₁ : (τ₁.perform exec i q .random).own i = [⟨i, q, .random, τ₁.shared⟩] := by
    rw [Log.own_perform_self, hlater₁.2, hown]
  have hbalanced₁ : Balanced A [⟨i, q, .random, τ₁.shared⟩] :=
    Write.Settled.balanced (by trivial) hnil
  split
  · refine safe_settled trivial (hτ₁.aloof trivial) ?_
    rw [hown₁]
    exact hbalanced₁
  rw [select_bind]
  refine safe_aloof trivial fun τ₂ hlater₂ hτ₂ => ?_
  have hown₂ : (τ₂.perform exec i q (.select .users)).own i =
      [⟨i, q, .select .users, τ₂.shared⟩, ⟨i, q, .random, τ₁.shared⟩] := by
    rw [Log.own_perform_self, hlater₂.2, hown₁]
  have hbalanced₂ : Balanced A [⟨i, q, .select .users, τ₂.shared⟩, ⟨i, q, .random, τ₁.shared⟩] :=
    Write.Settled.balanced (by trivial) hbalanced₁
  cases hfound : findEmail q.input.email τ₂.shared with
  | none =>
    refine safe_settled ?_ (hτ₂.aloof trivial) (hown₂ ▸ hbalanced₂)
    unfold AuthService.verifyPassword
    rw [Prog.perform_bind]
    exact .stmt trivial fun _ => settled_refuseLogin ..
  | some user =>
    dsimp only
    rw [lockedForSeconds_bind]
    refine safe_aloof trivial fun τ₃ hlater₃ hτ₃ => ?_
    have hown₃ : (τ₃.perform exec i q (.api .clock)).own i =
        [⟨i, q, .api .clock, τ₃.shared⟩, ⟨i, q, .select .users, τ₂.shared⟩, ⟨i, q, .random, τ₁.shared⟩] := by
      rw [Log.own_perform_self, hlater₃.2, hown₂]
    have hbalanced₃ : Balanced A [⟨i, q, .api .clock, τ₃.shared⟩, ⟨i, q, .select .users, τ₂.shared⟩,
        ⟨i, q, .random, τ₁.shared⟩] := Write.Settled.balanced (by trivial) hbalanced₂
    refine safe_aloof trivial fun τ₄ hlater₄ hτ₄ => ?_
    have hown₄ : (τ₄.perform exec i q (.select .accountGuards)).own i =
        [⟨i, q, .select .accountGuards, τ₄.shared⟩, ⟨i, q, .api .clock, τ₃.shared⟩,
          ⟨i, q, .select .users, τ₂.shared⟩, ⟨i, q, .random, τ₁.shared⟩] := by
      rw [Log.own_perform_self, hlater₄.2, hown₃]
    have hbalanced₄ : Balanced A [⟨i, q, .select .accountGuards, τ₄.shared⟩, ⟨i, q, .api .clock, τ₃.shared⟩,
        ⟨i, q, .select .users, τ₂.shared⟩, ⟨i, q, .random, τ₁.shared⟩] :=
      Write.Settled.balanced (by trivial) hbalanced₃
    split
    · exact safe_settled (settled_refuseLogin ..) (hτ₄.aloof trivial) (hown₄ ▸ hbalanced₄)
    rename_i hzero
    refine safe_loginUser (fun υ hlater => ?_) (hown₄ ▸ hbalanced₄)
    have hclock : τ₃.shared.api.clock ≤ τ₄.shared.api.clock := hlater₄.1.clock
    have hfree : ¬ LockedAt user.id τ₄.shared := not_lockedAt (Nat.eq_zero_of_not_pos hzero) hclock
    refine ⟨⟨⟨i, q, .select .accountGuards, τ₄.shared⟩, ?_, rfl, hfree⟩, fun hall first hfirst hlocked => hfree ?_⟩
    · rw [hlater.2, hown₄]
      exact List.mem_cons_self
    · rw [hlater.2, hown₄] at hfirst
      have hlook : GuardUpToDate (τ₄.own i) ⟨i, q, .select .accountGuards, τ₄.shared⟩ :=
        (hall.suffix hlater.1.history).1
      rw [hlater₄.2, hown₃] at hlook
      have haccount : accountOf [⟨i, q, .api .clock, τ₃.shared⟩, ⟨i, q, .select .users, τ₂.shared⟩,
          ⟨i, q, .random, τ₁.shared⟩] = some user.id := by
        show (findEmail q.input.email τ₂.shared).map _ = _
        rw [hfound]
        rfl
      exact hlook.resolve_left Bool.false_ne_true user.id haccount first hfirst hlocked

/-! ## Runs -/

theorem stable_loginPost (i : Nat) (_ : LoginCall) : (lockOutline A start).Stable i (loginPost A i) := by
  intro r σ τ hlater h
  show Balanced A (τ.own i)
  rw [hlater.2]
  exact h

theorem LockInv.initial (hw : ∀ row ∈ start.accountGuards, row.Fits) : LockInv start ⟨start, []⟩ :=
  ⟨hw, fun _ _ => rfl, fun _ _ ⟨_, hstep, _⟩ => absurd hstep List.not_mem_nil⟩

theorem good_loginRun (hw : ∀ row ∈ start.accountGuards, row.Fits) (moves : List (Move LoginCall Aside)) :
    (lockOutline A start).Good (fun i _ => loginPost A i) (loginRun A start moves) :=
  (Outline.sound stable_loginPost (fun _ _ _ _ hown => safe_login hown) moves
    (Outline.good_initial (LockInv.initial hw))).1

/-- How many failures of an account a tally counts. -/
def tallied (w : World) (userId : String) (history : List LoginStep) : Nat :=
  (tally w userId history).elim 0 Prod.fst

/-- The stored count of failures of an account. -/
def storedFailures (userId : String) (w : World) : Nat := (findGuard userId w).elim 0 (·.failures)

/-- **The lock counts every failure** as long as every write finds the count as its call has read it. In
every run the lock of an account with at least `THRESHOLD` failures lasts for the time that they call for,
from the last of them; a password is verified for a sign-in that has looked and found the account unlocked;
and once all sign-ins have finished, every failed verification was recorded. If every statement is up to
date, the stored count is the number of failures since the last success or quiet spell, and a password is
verified for no sign-in that started while the account was locked. -/
theorem lock_counts (A : AuthService) (w : World) (hw : ∀ row ∈ w.accountGuards, row.Fits)
    (moves : List (Move LoginCall Aside)) :
    let c := loginRun A w moves
    (∀ row ∈ c.log.shared.accountGuards, 5 ≤ row.failures →
      row.lockedUntil = some (row.lastFailure + (min (30 * 2 ^ (row.failures - 5)) 900 : Nat) * 1000)) ∧
    (∀ i userId, (∃ step ∈ c.log.own i, Verifies userId step) →
      ∃ look ∈ c.log.own i, LooksGuard look ∧ ¬ LockedAt userId look.before) ∧
    (c.Finished → ∀ userId,
      c.log.history.countP (Fails A userId ·) = c.log.history.countP (RecordsFailure userId ·)) ∧
    (AllGuardUpToDate c.log.history →
      (∀ userId, storedFailures userId c.log.shared = tallied w userId c.log.history) ∧
      ∀ i userId, (∃ step ∈ c.log.own i, Verifies userId step) →
        ∀ first ∈ (c.log.own i).getLast?, ¬ LockedAt userId first.before) := by
  intro c
  have hc : (lockOutline A w).Good (fun i _ => loginPost A i) c := good_loginRun hw moves
  refine ⟨fun row hrow hmany => ?_, fun i userId hverifies => (hc.inv.checked i userId hverifies).found,
    fun hfinished userId => ?_, fun hall => ⟨fun userId => ?_, fun i userId hverifies =>
      (hc.inv.checked i userId hverifies).started hall⟩⟩
  · have hfits := hc.inv.fits row hrow
    unfold AccountGuardRow.Fits lockUntil at hfits
    rw [if_pos (show row.failures ≥ threshold from hmany)] at hfits
    exact hfits
  · rw [c.log.countP_history _ hc.threads, c.log.countP_history _ hc.threads]
    refine Finset.sum_congr rfl fun i hi => ?_
    obtain ⟨_, _, hbalanced⟩ := hc.finished hfinished (Finset.mem_range.mp hi)
    exact hbalanced userId
  · have htally := hc.inv.tallied hall userId
    unfold storedFailures tallied
    rw [← htally]
    cases findGuard userId c.log.shared with
    | none => rfl
    | some row => rfl

/-! ## Two failures at once -/

/-- Passwords that are stored as they are, and a signing key that is never used. -/
def plainAuth : AuthService where
  passwords := ⟨fun _ password => password, fun storedHash password => storedHash = password, fun _ => false⟩
  jwt := plainJwt
  sessions := ⟨900, 30, 1⟩
  hashSecret := plainHash
  exposeDevCode := false

/-- Somebody who guesses a password. -/
def guessing : LoginCall where
  input := ⟨"ada@example.com", "sesame", ⟨"install", plainKey, "Study", "linux", none, none, "client"⟩⟩
  context := ⟨none, none, none⟩

/-- A user with a verified address. -/
def verified : World :=
  { plainWorld with users := [⟨"u1", "Ada", "ada@example.com", "correct horse", true, 0, none⟩] }

/-- A run from there. -/
abbrev plainLogins (moves : List (Move LoginCall Aside)) :
    Config World Write HttpException LoginCall LoginResponse := loginRun plainAuth verified moves

/-- Two guesses, one after the other. -/
def guessTwice : List (Move LoginCall Aside) :=
  Move.call guessing :: List.replicate 9 (Move.step 0) ++
    Move.call guessing :: List.replicate 9 (Move.step 1)

/-- Two guesses, of which the second one reads the count before the first one has written it. -/
def guessMeanwhile : List (Move LoginCall Aside) :=
  [Move.call guessing, Move.call guessing] ++ List.replicate 7 (Move.step 0) ++
    List.replicate 9 (Move.step 1) ++ List.replicate 2 (Move.step 0)

/-- Two failures, one after the other, are both counted. -/
theorem lock_counts_twice :
    storedFailures "u1" (plainLogins guessTwice).log.shared = 2 := by
  obtain ⟨-, -, -, hcounted⟩ := lock_counts plainAuth verified (by simp [verified, plainWorld]) guessTwice
  rw [(hcounted (by decide +kernel)).1 "u1"]
  decide +kernel

/-- Of two failures at once, one is lost. -/
theorem failure_lost :
    (plainLogins guessMeanwhile).Finished ∧
      (plainLogins guessMeanwhile).log.history.countP (Fails plainAuth "u1" ·) = 2 ∧
      tallied verified "u1" (plainLogins guessMeanwhile).log.history = 2 ∧
      storedFailures "u1" (plainLogins guessMeanwhile).log.shared = 1 := by
  refine ⟨?_, by decide +kernel, by decide +kernel, by decide +kernel⟩
  have hthreads : (plainLogins guessMeanwhile).threads =
      [⟨guessing, .raise genericLoginFailure⟩, ⟨guessing, .raise genericLoginFailure⟩] := rfl
  intro t ht
  rw [hthreads] at ht
  rcases List.mem_cons.mp ht with rfl | ht
  · exact .inr ⟨_, rfl⟩
  · rw [List.mem_singleton.mp ht]
    exact .inr ⟨_, rfl⟩

end Account
