import NetlinkHub.Account.Lockout
import NetlinkHub.Concurrent.Trace

/-! # How many passwords can be tried

A sign-in that fails makes the next ones wait, twice as long each time, until a quiet hour or a success clears the
count. A guesser who waits out the quiet hour after every ninth failure pays 450 seconds for each, of which an hour
is lent at the start and after each success (`credit_step`). As long as no failure is recorded over another one that
its sign-in has not seen (`AllUndisturbed`), the guesses of a run are bounded by its time, whatever else happens
meanwhile (`guesses_bounded`). -/

namespace Account

open AccountGuardService
open Api (Date HttpException)
open Concurrent (Config Log Machine Move Prog Step Upholds Kept)

/-! ## What a failure costs -/

/-- Milliseconds that are paid for each failure. -/
def price : Int := 450 * 1000

/-- Milliseconds that are lent. -/
def loan : Int := 3600 * 1000

/-- What is left of the loan after so many failures without a wait. -/
def credit (failures : Nat) : Int := [3600, 3150, 2700, 2250, 1800, 1350, 930, 540, 210].getD failures 0 * 1000

/-- After nine failures nothing is left. -/
theorem credit_of_le {failures : Nat} (h : 9 ≤ failures) : credit failures = 0 := by
  rw [credit, List.getD_eq_getElem?_getD, List.getElem?_eq_none (by simpa using h)]
  rfl

theorem credit_nonneg (failures : Nat) : 0 ≤ credit failures := by
  rcases Nat.lt_or_ge failures 9 with h | h
  · have hall : ∀ n : Fin 9, 0 ≤ credit n := by decide
    exact hall ⟨failures, h⟩
  · exact (credit_of_le h).ge

/-- The first failure leaves the most. -/
theorem credit_le {failures : Nat} (h : 0 < failures) : credit failures ≤ loan - price := by
  rcases Nat.lt_or_ge failures 9 with hlt | hge
  · have hall : ∀ n : Fin 9, 0 < n.val → credit n ≤ loan - price := by decide
    exact hall ⟨failures, hlt⟩ h
  · rw [credit_of_le hge]
    decide

/-- **What a failure costs is paid** by the time since the one before it, out of what was left. -/
theorem credit_step (failures : Nat) {gap : Int} (hgap : 0 ≤ gap)
    (hlock : failures ≥ threshold → lockSeconds failures * 1000 ≤ gap) :
    price + credit (if gap > decaySeconds * 1000 then 1 else failures + 1) ≤ gap + credit failures := by
  split
  · -- A quiet hour pays for a failure and the whole loan.
    rename_i hquiet
    have := credit_nonneg failures
    have hfirst : price + credit 1 = decaySeconds * 1000 := by decide
    omega
  rcases Nat.lt_or_ge failures threshold with hfew | hmany
  · have hall : ∀ n : Fin 5, price + credit (n.val + 1) = credit n := by decide
    have := hall ⟨failures, hfew⟩
    dsimp only at this
    omega
  replace hlock := hlock hmany
  rcases Nat.lt_or_ge failures 9 with hlt | hge
  · have hall : ∀ n : Fin 9, threshold ≤ n.val → price + credit (n.val + 1) ≤ lockSeconds n * 1000 + credit n := by
      decide
    have := hall ⟨failures, hlt⟩ hmany
    dsimp only at this
    omega
  · have hlong : 480 ≤ lockSeconds failures := by
      have hpow : 2 ^ (9 - threshold) ≤ 2 ^ (failures - threshold) :=
        Nat.pow_le_pow_right (by decide) (Nat.sub_le_sub_right hge _)
      have hbase : baseLockSeconds * 2 ^ (9 - threshold) = 480 := by decide
      exact le_min (hbase ▸ Nat.mul_le_mul_left _ hpow) (by decide)
    have hnext : credit (failures + 1) = 0 := credit_of_le (Nat.le_succ_of_le hge)
    have hprice : price = 450000 := rfl
    have := credit_nonneg failures
    omega

/-! ## Failures that see each other -/

/-- The statement signs somebody in, and clears the count of the account. -/
def Succeeds (userId : String) (step : LoginStep) : Prop :=
  match step.write with
  | .deleteGuard userId' => userId' = userId
  | _ => False

instance (userId : String) : DecidablePred (Succeeds userId) := by
  rintro ⟨_, _, write, _⟩
  dsimp only [Succeeds]
  split <;> infer_instance

/-- The statement writes the count of an account. -/
def WritesGuard (userId : String) (step : LoginStep) : Prop := RecordsFailure userId step ∨ Succeeds userId step

instance (userId : String) : DecidablePred (WritesGuard userId) := fun _ => inferInstanceAs (Decidable (_ ∨ _))

/-- A failure is recorded while no other statement has written the count since its sign-in first looked at it. -/
def Undisturbed (step : LoginStep) (earlier : List LoginStep) : Prop :=
  match step.write with
  | .upsertGuard row _ => earlier.Pairwise fun later look =>
      look.thread = step.thread → LooksGuard look → ¬ WritesGuard row.userId later
  | _ => True

instance (step : LoginStep) (earlier : List LoginStep) : Decidable (Undisturbed step earlier) := by
  obtain ⟨_, _, write, _⟩ := step
  dsimp only [Undisturbed]
  split <;> infer_instance

/-- No failure is recorded over another one that its sign-in has not seen. -/
def AllUndisturbed : List LoginStep → Prop
  | [] => True
  | step :: earlier => Undisturbed step earlier ∧ AllUndisturbed earlier

instance : DecidablePred AllUndisturbed := fun steps => by
  induction steps with
  | nil => exact isTrue trivial
  | cons step earlier ih => exact @instDecidableAnd _ _ inferInstance ih

theorem AllUndisturbed.suffix {step : LoginStep} {earlier history : List LoginStep} (h : AllUndisturbed history)
    (hsuffix : step :: earlier <:+ history) : Undisturbed step earlier := by
  obtain ⟨new, rfl⟩ := hsuffix
  induction new with
  | nil => exact h.1
  | cons s new ih => exact ih h.2

/-! ## What the history says of an account -/

variable {A : AuthService} {start : World} {userId : String} {σ : LoginLog}

@[simp] theorem recordsFailure_upsert {i : Nat} {q : LoginCall} {row : AccountGuardRow}
    {data : AccountGuardRow → AccountGuardRow} {w : World} :
    RecordsFailure userId ⟨i, q, .upsertGuard row data, w⟩ ↔ row.userId = userId := Iff.rfl

@[simp] theorem succeeds_delete {i : Nat} {q : LoginCall} {other : String} {w : World} :
    Succeeds userId ⟨i, q, .deleteGuard other, w⟩ ↔ other = userId := Iff.rfl

@[simp] theorem not_succeeds_upsert {i : Nat} {q : LoginCall} {row : AccountGuardRow}
    {data : AccountGuardRow → AccountGuardRow} {w : World} :
    ¬ Succeeds userId ⟨i, q, .upsertGuard row data, w⟩ := not_false

@[simp] theorem not_recordsFailure_delete {i : Nat} {q : LoginCall} {other : String} {w : World} :
    ¬ RecordsFailure userId ⟨i, q, .deleteGuard other, w⟩ := not_false

/-- The row of an account after the statements of a history. -/
def guardAfter (start : World) (userId : String) : List LoginStep → Option AccountGuardRow
  | [] => findGuard userId start
  | step :: earlier =>
    match step.write with
    | .upsertGuard row data =>
      if row.userId = userId then some ((guardAfter start userId earlier).elim row data)
      else guardAfter start userId earlier
    | .deleteGuard userId' => if userId' = userId then none else guardAfter start userId earlier
    | _ => guardAfter start userId earlier

/-- How often a sign-in of an account has failed, and succeeded. -/
def failed (userId : String) (history : List LoginStep) : Int := history.countP (RecordsFailure userId ·)

def succeeded (userId : String) (history : List LoginStep) : Int := history.countP (Succeeds userId ·)

theorem failed_cons (step : LoginStep) (earlier : List LoginStep) :
    failed userId (step :: earlier) = failed userId earlier + if RecordsFailure userId step then 1 else 0 := by
  unfold failed
  rw [countP_step]
  split <;> rfl

theorem succeeded_cons (step : LoginStep) (earlier : List LoginStep) :
    succeeded userId (step :: earlier) = succeeded userId earlier + if Succeeds userId step then 1 else 0 := by
  unfold succeeded
  rw [countP_step]
  split <;> rfl

/-- A statement that leaves the count of the account alone changes none of it. -/
theorem history_cons (start : World) {step : LoginStep} (h : ¬ WritesGuard userId step) (earlier : List LoginStep) :
    guardAfter start userId (step :: earlier) = guardAfter start userId earlier ∧
      failed userId (step :: earlier) = failed userId earlier ∧
        succeeded userId (step :: earlier) = succeeded userId earlier := by
  have hnot : ¬ RecordsFailure userId step ∧ ¬ Succeeds userId step := not_or.mp h
  refine ⟨?_, ?_, ?_⟩
  · rw [guardAfter]
    split
    · rename_i hwrite
      refine if_neg fun heq => hnot.1 ?_
      rw [RecordsFailure, hwrite]
      exact heq
    · rename_i hwrite
      refine if_neg fun heq => hnot.2 ?_
      rw [Succeeds, hwrite]
      exact heq
    · rfl
  · rw [failed_cons, if_neg hnot.1, Int.add_zero]
  · rw [succeeded_cons, if_neg hnot.2, Int.add_zero]

theorem history_append (start : World) {newer : List LoginStep} (h : ∀ step ∈ newer, ¬ WritesGuard userId step)
    (older : List LoginStep) : guardAfter start userId (newer ++ older) = guardAfter start userId older ∧
      failed userId (newer ++ older) = failed userId older ∧
        succeeded userId (newer ++ older) = succeeded userId older := by
  induction newer with
  | nil => exact ⟨rfl, rfl, rfl⟩
  | cons step newer ih =>
    obtain ⟨hstep, hrest⟩ := List.forall_mem_cons.mp h
    obtain ⟨hrow, hfailed, hsucceeded⟩ := ih hrest
    obtain ⟨hrow', hfailed', hsucceeded'⟩ := history_cons start hstep (newer ++ older)
    exact ⟨hrow'.trans hrow, hfailed'.trans hfailed, hsucceeded'.trans hsucceeded⟩

/-! ## The account of the guesser -/

/-- What has been paid for an account at a time: the time since the start, and what was lent. -/
def funds (start : World) (userId : String) (history : List LoginStep) (now : Date) : Int :=
  (now - start.api.clock) + loan * (succeeded userId history + 1)

/-- An account is not locked at a time. -/
def OpenAt (row : Option AccountGuardRow) (now : Date) : Prop :=
  ∀ r ∈ row, ∀ lockedUntil ∈ r.lockedUntil, @LE.le Int _ lockedUntil now

/-- The failures so far are paid for, and so is the next one as soon as the account is open. -/
structure Paid (start : World) (userId : String) (σ : LoginLog) : Prop where
  row : findGuard userId σ.shared = guardAfter start userId σ.history
  sofar : price * failed userId σ.history ≤ funds start userId σ.history σ.shared.api.clock
  next : ∀ now, σ.shared.api.clock ≤ now → OpenAt (findGuard userId σ.shared) now →
    price * (failed userId σ.history + 1) + credit (countFailure (findGuard userId σ.shared) now) ≤
      funds start userId σ.history now

theorem Paid.initial (start : World) (userId : String) : Paid start userId ⟨start, []⟩ := by
  have hprice : price = 450000 := rfl
  have hloan : loan = 3600000 := rfl
  refine ⟨rfl, by simp [failed, funds, succeeded, hloan], fun now hnow _ => ?_⟩
  have hcount : 0 < countFailure (findGuard userId start) now := by
    unfold countFailure
    split
    · decide
    · split <;> omega
  have hcredit := credit_le hcount
  simp only [failed, funds, succeeded, List.countP_nil]
  have hle : @LE.le Int _ start.api.clock now := hnow
  push_cast
  omega

/-- Time that passes pays. -/
theorem Paid.later {τ : LoginLog} (h : Paid start userId σ)
    (hrow : findGuard userId τ.shared = findGuard userId σ.shared)
    (hafter : guardAfter start userId τ.history = guardAfter start userId σ.history)
    (hfailed : failed userId τ.history = failed userId σ.history)
    (hsucceeded : succeeded userId τ.history = succeeded userId σ.history)
    (hclock : σ.shared.api.clock ≤ τ.shared.api.clock) : Paid start userId τ := by
  have hfunds : ∀ now, funds start userId τ.history now = funds start userId σ.history now := fun now => by
    rw [funds, funds, hsucceeded]
  refine ⟨by rw [hrow, h.row, hafter], ?_, fun now hnow hopen => ?_⟩
  · rw [hfailed, hfunds]
    have hsofar := h.sofar
    unfold funds at hsofar ⊢
    have hle : @LE.le Int _ σ.shared.api.clock τ.shared.api.clock := hclock
    omega
  · rw [hrow] at hopen ⊢
    rw [hfailed, hfunds]
    exact h.next now (hclock.trans hnow) hopen

/-- **A failure is paid for**, where it is recorded on the row that its sign-in has found open. -/
theorem Paid.failure {i : Nat} {q : LoginCall} {look : World} {older : List LoginStep} {now : Date}
    (hlook : Paid start userId ⟨look, older⟩) (hrow : findGuard userId σ.shared = findGuard userId look)
    (hafter : guardAfter start userId σ.history = guardAfter start userId older)
    (hfailed : failed userId σ.history = failed userId older)
    (hsucceeded : succeeded userId σ.history = succeeded userId older) (hlooked : look.api.clock ≤ now)
    (hnow : now ≤ σ.shared.api.clock) (hopen : OpenAt (findGuard userId look) now) :
    Paid start userId (σ.perform exec i q (.upsertGuard (failureRow userId (findGuard userId look) now)
      (failedAgain (findGuard userId look) now))) := by
  have hfound : findGuard userId (exec (.upsertGuard (failureRow userId (findGuard userId look) now)
      (failedAgain (findGuard userId look) now)) σ.shared) = some ((findGuard userId σ.shared).elim
        (failureRow userId (findGuard userId look) now) (failedAgain (findGuard userId look) now)) :=
    (findGuard_upsert _ (failedAgain _ now) (fun _ => rfl) userId σ.shared).trans (if_pos rfl)
  have hpaid := hlook.next now hlooked hopen
  dsimp only at hpaid
  obtain ⟨row, hnew, hfailures, hlast, hlocked⟩ : ∃ row, (findGuard userId σ.shared).elim
      (failureRow userId (findGuard userId look) now) (failedAgain (findGuard userId look) now) = row ∧
        row.failures = countFailure (findGuard userId look) now ∧ row.lastFailure = now ∧
          row.lockedUntil = lockUntil (countFailure (findGuard userId look) now) now := by
    cases findGuard userId σ.shared <;> exact ⟨_, rfl, rfl, rfl, rfl⟩
  rw [hnew] at hfound
  have hcounted : failed userId (σ.perform exec i q (.upsertGuard (failureRow userId (findGuard userId look) now)
      (failedAgain (findGuard userId look) now))).history = failed userId older + 1 := by
    rw [← hfailed]
    have hrecords : RecordsFailure userId ⟨i, q, .upsertGuard (failureRow userId (findGuard userId look) now)
        (failedAgain (findGuard userId look) now), σ.shared⟩ := recordsFailure_upsert.mpr rfl
    rw [Log.perform, failed_cons, if_pos hrecords]
  have hfunds : ∀ later, funds start userId (σ.perform exec i q (.upsertGuard
      (failureRow userId (findGuard userId look) now) (failedAgain (findGuard userId look) now))).history later =
      funds start userId older later := fun later => by
    rw [funds, funds, ← hsucceeded, Log.perform, succeeded_cons, if_neg not_succeeds_upsert, Int.add_zero]
  have hclock : (σ.perform exec i q (.upsertGuard (failureRow userId (findGuard userId look) now)
      (failedAgain (findGuard userId look) now))).shared.api.clock = σ.shared.api.clock := rfl
  have hle : @LE.le Int _ now σ.shared.api.clock := hnow
  have hnonneg := credit_nonneg (countFailure (findGuard userId look) now)
  have hprice : price = 450000 := rfl
  refine ⟨?_, ?_, fun later hlater hopens => ?_⟩
  · rw [show findGuard userId (σ.perform exec i q _).shared = _ from hfound]
    show some row = if (failureRow userId (findGuard userId look) now).userId = userId then _ else _
    have hsame : guardAfter start userId σ.history = findGuard userId σ.shared :=
      hafter.trans (hlook.row.symm.trans hrow.symm)
    rw [if_pos (show (failureRow userId (findGuard userId look) now).userId = userId from rfl), hsame, hnew]
  · rw [hcounted, hfunds, hclock]
    unfold funds at hpaid ⊢
    rw [hprice] at hpaid ⊢
    omega
  · rw [show findGuard userId (σ.perform exec i q _).shared = _ from hfound] at hopens ⊢
    rw [hcounted, hfunds]
    have hlater' : @LE.le Int _ σ.shared.api.clock later := hclock ▸ hlater
    have hstep := @credit_step row.failures (later - now) (by omega) fun hmany => by
      have hwait := hopens row rfl (now + lockSeconds row.failures * 1000) (by
        rw [hlocked, ← hfailures, lockUntil, if_pos hmany]
        rfl)
      omega
    have hcount : countFailure (some row) later =
        if later - now > decaySeconds * 1000 then 1 else row.failures + 1 := by
      simp [countFailure, decayed, hlast]
    rw [hcount]
    rw [← hfailures] at hpaid
    unfold funds at hpaid ⊢
    rw [hprice] at hpaid hstep ⊢
    omega

/-- **A success lends again.** -/
theorem Paid.success {i : Nat} {q : LoginCall} (h : Paid start userId σ) :
    Paid start userId (σ.perform exec i q (.deleteGuard userId)) := by
  have hnone : findGuard userId (exec (.deleteGuard userId) σ.shared) = none := by
    refine List.find?_eq_none.mpr fun row hrow => ?_
    simpa using (List.mem_filter.mp hrow).2
  have hcounted : failed userId (σ.perform exec i q (.deleteGuard userId)).history = failed userId σ.history := by
    rw [Log.perform, failed_cons, if_neg not_recordsFailure_delete, Int.add_zero]
  have hsucceeded : succeeded userId (σ.perform exec i q (.deleteGuard userId)).history =
      succeeded userId σ.history + 1 := by
    rw [Log.perform, succeeded_cons, if_pos (succeeds_delete.mpr rfl)]
  have hclock : (σ.perform exec i q (.deleteGuard userId)).shared.api.clock = σ.shared.api.clock := rfl
  have hsofar := h.sofar
  have hloan : loan = 3600000 := rfl
  have hprice : price = 450000 := rfl
  have hfirst : credit 1 = 3150000 := rfl
  refine ⟨?_, ?_, fun now hnow _ => ?_⟩
  · rw [show findGuard userId (σ.perform exec i q _).shared = _ from hnone]
    exact (if_pos rfl).symm
  · rw [hcounted, hclock]
    unfold funds at hsofar ⊢
    rw [hsucceeded]
    rw [hprice, hloan] at hsofar ⊢
    omega
  · rw [show findGuard userId (σ.perform exec i q _).shared = _ from hnone, hcounted]
    have hle : @LE.le Int _ σ.shared.api.clock now := hclock ▸ hnow
    show price * (failed userId σ.history + 1) + credit 1 ≤ _
    unfold funds at hsofar ⊢
    rw [hsucceeded, hfirst]
    rw [hprice, hloan] at hsofar ⊢
    omega

/-! ## What a sign-in has looked at -/

/-- The failure that is recorded is counted on from what the sign-in has read after the verification, and the
account was open when it looked before. -/
def CountedOn (step : LoginStep) (own : List LoginStep) : Prop :=
  match step.write with
  | .upsertGuard row data => ∃ second now verify look clock rest,
      own = second :: now :: verify :: look :: clock :: rest ∧ LooksGuard look ∧
        lockedSeconds row.userId look.before clock.before.api.clock = 0 ∧
        row = failureRow row.userId (findGuard row.userId second.before) now.before.api.clock ∧
        data = failedAgain (findGuard row.userId second.before) now.before.api.clock
  | _ => True

theorem countedOn_of_settled {i : Nat} {q : LoginCall} {w : Write} {s : World} {own : List LoginStep}
    (h : w.Settled) : CountedOn ⟨i, q, w, s⟩ own := by
  unfold CountedOn
  split
  · rename_i hwrite
    cases hwrite
    exact h.elim
  · trivial

/-- Where nothing is recorded there is nothing to show. -/
theorem traces_settled {i : Nat} {q : LoginCall} {own : List LoginStep} {p : Service LoginResponse}
    (h : p.Only Write.Settled) : p.Traces CountedOn i q (fun _ _ => True) own :=
  .of_only (J := fun _ => True) h (fun _ _ _ hw _ => ⟨countedOn_of_settled hw, trivial⟩) trivial

theorem traces_loginUser {i : Nat} {q : LoginCall} {user : UserRow} {look clock : LoginStep}
    {rest : List LoginStep} (hlook : LooksGuard look)
    (hopen : lockedSeconds user.id look.before clock.before.api.clock = 0) :
    (A.loginUser user q.input q.context).Traces CountedOn i q (fun _ _ => True) (look :: clock :: rest) := by
  unfold AuthService.loginUser AuthService.verifyPassword
  rw [Prog.perform_bind]
  refine .stmt (fun s => trivial) fun s => ?_
  cases hmatches : A.passwords.verify user.passwordHash q.input.password with
  | true =>
    rw [if_neg (not_not.mpr rfl)]
    refine traces_settled ?_
    split
    · exact settled_refuseLogin ..
    split
    · exact (settled_issue _).bind fun _ => trivial
    · exact settled_loginWithDevice ..
  | false =>
    rw [if_pos Bool.false_ne_true, recordFailure_bind]
    refine .stmt (fun s' => trivial) fun now => .stmt (fun s' => trivial) fun second => .stmt (fun s' => ?_) fun s' =>
      traces_settled (settled_refuseLogin ..)
    exact ⟨_, _, _, look, clock, rest, rfl, hlook, hopen, rfl, rfl⟩

theorem traces_login (i : Nat) (q : LoginCall) :
    (A.login q.input q.context).Traces CountedOn i q (fun _ _ => True) [] := by
  unfold AuthService.login
  rw [enforceLimit_bind]
  refine .stmt (fun s => trivial) fun s => ?_
  split
  · exact traces_settled trivial
  rw [select_bind]
  refine .stmt (fun s => trivial) fun s => ?_
  cases findEmail q.input.email s with
  | none =>
    refine traces_settled ?_
    unfold AuthService.verifyPassword
    rw [Prog.perform_bind]
    exact .stmt trivial fun _ => settled_refuseLogin ..
  | some user =>
    dsimp only
    rw [lockedForSeconds_bind]
    refine .stmt (fun s => trivial) fun clock => .stmt (fun s => trivial) fun look => ?_
    split
    · exact traces_settled (settled_refuseLogin ..)
    · rename_i hzero
      exact traces_loginUser rfl (Nat.eq_zero_of_not_pos hzero)

/-! ## Runs -/

/-- Time does not go back along the history. -/
def Forward (history : List LoginStep) : Prop :=
  history.Pairwise fun later earlier => earlier.before.api.clock ≤ later.before.api.clock

theorem clock_kept (A : AuthService) : Kept (loginMachine A) (fun _ => True) (fun _ => True)
    fun s t => s.api.clock ≤ t.api.clock where
  refl _ := le_rfl
  trans := le_trans
  step step _ _ := ⟨(clock_exec step.write step.before).ge, trivial⟩
  env e s _ := by
    cases e with
    | tick ms => exact ⟨Int.le_add_of_nonneg_right (Int.natCast_nonneg ms), trivial⟩
    | rest w => exact ⟨le_rfl, trivial⟩

theorem forward_run (A : AuthService) (w : World) (moves : List (Move LoginCall Aside)) :
    Forward (loginRun A w moves).log.history := by
  obtain ⟨-, hchained⟩ := (clock_kept A).run (s := w) trivial [] moves fun _ _ => trivial
  exact hchained.between.imp fun hle => (clock_exec _ _).ge.trans hle

/-- The accounts of all guessers. -/
def AllPaid (start : World) (σ : LoginLog) : Prop := ∀ userId, Paid start userId σ

/-- A statement that counts on what it has read, and comes later than the others. -/
def Fair (step : LoginStep) (earlier : List LoginStep) : Prop :=
  CountedOn step (earlier.filter (·.thread = step.thread)) ∧ Undisturbed step earlier ∧ Forward (step :: earlier)

/-- Statements that leave the counts alone. -/
theorem AllPaid.calm {i : Nat} {q : LoginCall} {w : Write} (h : AllPaid start σ)
    (hguards : (exec w σ.shared).accountGuards = σ.shared.accountGuards)
    (hwrites : ∀ userId, ¬ WritesGuard userId ⟨i, q, w, σ.shared⟩) : AllPaid start (σ.perform exec i q w) := by
  intro userId
  obtain ⟨hafter, hfailed, hsucceeded⟩ := history_cons start (hwrites userId) σ.history
  exact (h userId).later (by rw [findGuard, findGuard, Log.perform, hguards]) hafter hfailed hsucceeded
    (clock_exec w σ.shared).ge

/-- What a thread has done last is in the history, with nothing of its own after it. -/
theorem exists_of_own {history rest : List LoginStep} {step : LoginStep} {i : Nat}
    (h : history.filter (·.thread = i) = step :: rest) :
    ∃ newer older, history = newer ++ step :: older ∧ step.thread = i ∧ older.filter (·.thread = i) = rest := by
  obtain ⟨newer, older, heq, -, hstep, hrest⟩ := List.filter_eq_cons_iff.mp h
  exact ⟨newer, older, heq, by simpa using hstep, hrest⟩

/-- **A failure is paid for**, when nothing has disturbed its sign-in. -/
theorem AllPaid.upsert {i : Nat} {q : LoginCall} {row : AccountGuardRow} {data : AccountGuardRow → AccountGuardRow}
    (h : σ.Always (AllPaid start)) (hfair : Fair ⟨i, q, .upsertGuard row data, σ.shared⟩ σ.history) :
    AllPaid start (σ.perform exec i q (.upsertGuard row data)) := by
  obtain ⟨⟨second, now, verify, look, clock, rest, hown, hlooks, hopen, hrow, hdata⟩, hundisturbed, hforward⟩ := hfair
  obtain ⟨hlast, hforward⟩ := List.pairwise_cons.mp hforward
  obtain ⟨n₁, o₁, hsecond, -, hown₁⟩ := exists_of_own hown
  obtain ⟨n₂, o₂, hnow, -, hown₂⟩ := exists_of_own hown₁
  obtain ⟨n₃, o₃, hverify, -, hown₃⟩ := exists_of_own hown₂
  obtain ⟨n₄, older, hlook, hthread, hown₄⟩ := exists_of_own hown₃
  obtain ⟨n₅, o₅, hclock, -, -⟩ := exists_of_own hown₄
  have hhistory : σ.history = (n₁ ++ second :: (n₂ ++ now :: (n₃ ++ verify :: n₄))) ++ look :: older := by
    rw [hsecond, hnow, hverify, hlook]
    simp
  have hhistory₁ : o₁ = (n₂ ++ now :: (n₃ ++ verify :: n₄)) ++ look :: older := by
    rw [hnow, hverify, hlook]
    simp
  intro userId
  by_cases hother : row.userId = userId
  swap
  · have hcalm : ¬ WritesGuard userId ⟨i, q, .upsertGuard row data, σ.shared⟩ := not_or.mpr ⟨hother, not_false⟩
    obtain ⟨hafter, hfailed, hsucceeded⟩ := history_cons start hcalm σ.history
    have hfound : findGuard userId (exec (.upsertGuard row data) σ.shared) = findGuard userId σ.shared := by
      rw [hdata]
      exact (findGuard_upsert row (failedAgain _ _) (fun _ => rfl) userId σ.shared).trans (if_neg hother)
    exact (h.1 userId).later hfound hafter hfailed hsucceeded le_rfl
  subst hother
  -- No one has written the count since the sign-in looked first.
  have hquiet : ∀ s ∈ n₁ ++ second :: (n₂ ++ now :: (n₃ ++ verify :: n₄)), ¬ WritesGuard row.userId s := by
    intro s hs
    have hpairs : σ.history.Pairwise fun later look =>
        look.thread = i → LooksGuard look → ¬ WritesGuard row.userId later := hundisturbed
    rw [hhistory] at hpairs
    exact (List.pairwise_append.mp hpairs).2.2 s hs look List.mem_cons_self hthread hlooks
  have hlooked : ¬ WritesGuard row.userId look := by
    unfold LooksGuard at hlooks
    split at hlooks
    · rename_i hwrite
      unfold WritesGuard RecordsFailure Succeeds
      rw [hwrite]
      exact not_or.mpr ⟨not_false, not_false⟩
    · cases hlooks
  obtain ⟨hafter₀, hfailed₀, hsucceeded₀⟩ := history_cons start hlooked older
  obtain ⟨hafter, hfailed, hsucceeded⟩ := history_append start hquiet (look :: older)
  have hat : ∀ {s earlier}, s :: earlier <:+ σ.history → Paid start row.userId ⟨s.before, earlier⟩ :=
    fun hsuffix => h.2 _ _ hsuffix row.userId
  have hpaid : Paid start row.userId ⟨look.before, older⟩ := hat ⟨_, hhistory.symm⟩
  have hshared : findGuard row.userId σ.shared = findGuard row.userId look.before := by
    rw [(h.1 row.userId).row, hhistory, hafter, hafter₀]
    exact hpaid.row.symm
  have hagain : findGuard row.userId second.before = findGuard row.userId look.before := by
    have hquiet₁ : ∀ s ∈ n₂ ++ now :: (n₃ ++ verify :: n₄), ¬ WritesGuard row.userId s := fun s hs =>
      hquiet s (List.mem_append_right _ (List.mem_cons_of_mem _ hs))
    have hrow₁ : findGuard row.userId second.before = guardAfter start row.userId o₁ :=
      (hat (s := second) ⟨_, hsecond.symm⟩).row
    rw [hrow₁, hhistory₁, (history_append start hquiet₁ (look :: older)).1, hafter₀]
    exact hpaid.row.symm
  -- The clock was read between the look and now.
  have hclocks : ∀ (newer older : List LoginStep) {s t : LoginStep}, σ.history = newer ++ s :: older → t ∈ older →
      t.before.api.clock ≤ s.before.api.clock := by
    intro newer older s t heq ht
    rw [heq] at hforward
    exact List.rel_of_pairwise_cons (List.pairwise_append.mp hforward).2.1 ht
  have hbefore : look.before.api.clock ≤ now.before.api.clock := by
    refine hclocks (n₁ ++ second :: n₂) o₂ (by rw [hsecond, hnow]; simp) ?_
    rw [hverify, hlook]
    simp
  have hbefore' : clock.before.api.clock ≤ look.before.api.clock := hclocks _ _ hhistory (by rw [hclock]; simp)
  have hnowMem : now ∈ σ.history := by
    rw [hsecond, hnow]
    simp
  have hfree : OpenAt (findGuard row.userId look.before) now.before.api.clock := by
    intro r hr lockedUntil hlocked
    have hnot := not_lockedAt hopen hbefore'
    by_contra hlt
    refine hnot ⟨r, hr, lockedUntil, hlocked, ?_⟩
    have hle : @LE.le Int _ look.before.api.clock now.before.api.clock := hbefore
    show @LT.lt Int _ _ _
    omega
  have hkept := Paid.failure (i := i) (q := q) hpaid hshared (by rw [hhistory, hafter, hafter₀])
    (by rw [hhistory, hfailed, hfailed₀]) (by rw [hhistory, hsucceeded, hsucceeded₀]) hbefore
    (hlast now hnowMem) hfree
  rw [← hagain, ← hrow, ← hdata] at hkept
  exact hkept

theorem findGuard_delete {other : String} (h : ¬ other = userId) (w : World) :
    findGuard userId (exec (.deleteGuard other) w) = findGuard userId w := by
  show (w.accountGuards.filter fun row => ¬ decide (row.userId = other)).find? _ = _
  rw [List.find?_filter]
  unfold findGuard
  congr 1
  funext row
  by_cases hrow : row.userId = userId
  · simp [hrow, Ne.symm h]
  · simp [hrow]

/-- **Every statement that is fair keeps the accounts.** -/
theorem paid_upheld (A : AuthService) (start : World) :
    Upholds (loginMachine A) Fair (Log.Always (AllPaid start)) where
  step i q w σ h hfair := by
    refine h.perform ?_
    cases hw : w with
    | upsertGuard row data => exact AllPaid.upsert h (hw ▸ hfair)
    | deleteGuard other =>
      intro userId
      by_cases hother : other = userId
      · subst hother
        exact (h.1 other).success
      · have hcalm : ¬ WritesGuard userId ⟨i, q, .deleteGuard other, σ.shared⟩ := not_or.mpr ⟨not_false, hother⟩
        obtain ⟨hafter, hfailed, hsucceeded⟩ := history_cons start hcalm σ.history
        exact (h.1 userId).later (findGuard_delete hother σ.shared) hafter hfailed hsucceeded le_rfl
    | verifyPassword user storedHash password => exact h.1.calm rfl fun _ => not_or.mpr ⟨not_false, not_false⟩
    | _ => exact h.1.calm (Write.Aloof.guards_exec (by trivial) _) fun _ => not_or.mpr ⟨not_false, not_false⟩
  env e σ h := by
    refine ⟨fun userId => ?_, h.2⟩
    cases e with
    | tick ms => exact (h.1 userId).later rfl rfl rfl rfl (Int.le_add_of_nonneg_right (Int.natCast_nonneg ms))
    | rest w => exact (h.1 userId).later rfl rfl rfl rfl le_rfl

end Account
