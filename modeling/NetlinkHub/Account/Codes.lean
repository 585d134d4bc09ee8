import NetlinkHub.Account.Challenges
import NetlinkHub.Account.Nonces

/-! # Codes under concurrency

`issue`, `resend` and `consume` each read a challenge, check its counters and flags, and write in a later
statement. A challenge is used up once whatever the order (`codes_limited`), since that write repeats its
check. The others do not: a write that finds the challenge changed since it was read lets a guess, a
resend or a second code through (`superseded_accepted`), and where every write finds what its call has
checked (`UpToDate`) all the limits hold. -/

namespace Account

open Api (Date HttpException)
open Concurrent (Config Log Machine Move Outline Prog Step)
open Table (Evolves Op)

/-- A call of `ChallengeService`. -/
inductive ChallengeCall where
  | issue (input : IssueInput)
  | resend (challengeId : String) (exposeDevCode : Bool)
  | consume (challengeId code purpose : String)
  deriving DecidableEq, Repr

/-- What a call comes to. -/
inductive ChallengeAnswer where
  | issued (challenge : IssuedChallenge)
  | resent (response : ChallengeResponse)
  | consumed (result : Except (Api.ConsumeFault × Nat) ChallengeRow)

/-- What each call runs. -/
def challengeHandler (hashSecret : String → String) : ChallengeCall → Service ChallengeAnswer
  | .issue input => .issued <$> ChallengeService.issue hashSecret input
  | .resend challengeId exposeDevCode =>
    .resent <$> ChallengeService.resend hashSecret challengeId exposeDevCode
  | .consume challengeId code purpose => .consumed <$> consume hashSecret challengeId code purpose

/-- Any number of calls; the rest of the control plane does anything but touch the challenges. -/
def challengeMachine (hashSecret : String → String) :
    Machine World Write HttpException ChallengeCall World ChallengeAnswer :=
  ⟨challengeHandler hashSecret, exec, fun w' w => { w' with challenges := w.challenges }⟩

/-- The challenges after a run. -/
abbrev challengeRun (hashSecret : String → String) (w : World) (moves : List (Move ChallengeCall World)) :
    Config World Write HttpException ChallengeCall ChallengeAnswer :=
  Run.run (challengeMachine hashSecret).step moves (Config.initial w)

/-- A statement of such a run. -/
abbrev ChallengeStep := Step World Write ChallengeCall

/-- The log of such a run. -/
abbrev ChallengeLog := Log World Write ChallengeCall

/-! ## Guesses and resends -/

/-- The statement reads challenges. -/
def Looks (step : ChallengeStep) : Bool :=
  match step.write with
  | .select .challenges => true
  | _ => false

/-- The statement writes to the challenges. -/
def WritesCode (step : ChallengeStep) : Bool :=
  match step.write with
  | .challenges _ => true
  | _ => false

/-- A challenge as a call has read it, by the statements of the call. -/
def readBy (own : List ChallengeStep) (id : String) : Option ChallengeRow :=
  (own.find? Looks).bind fun look => findChallenge id look.before

/-- The code that a call has compared with its guess, once the outcome is recorded: the challenge, and how
often its code had been replaced. -/
def guessOf (own : List ChallengeStep) : Option (String × Nat) :=
  match own with
  | ⟨_, .consume id _ _, _, _⟩ :: _ =>
    if own.any WritesCode then (readBy own id).map fun c => (id, c.resendCount) else none
  | _ => none

/-- How many of the first calls have compared a code with a guess. -/
def guesses (id : String) (n calls : Nat) (σ : ChallengeLog) : Nat :=
  ((Finset.range calls).filter fun i => guessOf (σ.own i) = some (id, n)).card

/-- The statement replaces the code of a challenge. -/
def Resends (id : String) (step : ChallengeStep) : Prop :=
  match step.request with
  | .resend id' _ => id' = id ∧ WritesCode step ∧ step.before.challenges.any (·.id = id)
  | _ => False

instance (id : String) : DecidablePred (Resends id) := fun step => by
  unfold Resends
  split <;> infer_instance

/-- How often the code of a challenge was replaced. -/
def resends (id : String) (steps : List ChallengeStep) : Nat := steps.countP (Resends id ·)

/-- The statement uses up a challenge. -/
def Closes (id : String) (step : ChallengeStep) : Prop :=
  ∃ c ∈ step.before.challenges, c.id = id ∧ c.consumedAt = none ∧
    ∃ c' ∈ (exec step.write step.before).challenges, c'.id = id ∧ c'.consumedAt.isSome

instance (id : String) : DecidablePred (Closes id) := fun step =>
  inferInstanceAs (Decidable (∃ c ∈ step.before.challenges, _))

/-- How often a challenge was used up. -/
def closings (id : String) (steps : List ChallengeStep) : Nat := steps.countP (Closes id ·)

/-- A write finds what its call has checked: a guess is recorded on the code it was compared with, while
the challenge is not used up and has attempts left; a code is replaced while resends are left; and a
challenge is created when its user has no other for the purpose that is not used up. -/
def UpToDate (own : List ChallengeStep) (step : ChallengeStep) : Prop :=
  match step.request, step.write with
  | .consume id _ _, .challenges _ =>
    own.any WritesCode ∨ ∀ read ∈ readBy own id, ∀ c ∈ step.before.challenges, c.id = id →
      c.consumedAt = none ∧ c.resendCount = read.resendCount ∧ c.attempts < c.maxAttempts
  | .resend id _, .challenges _ =>
    ∀ c ∈ step.before.challenges, c.id = id → c.resendCount < otpMaxResends
  | .issue input, .challenges (.insert ..) =>
    ∀ c ∈ step.before.challenges, c.userId = input.userId → c.purpose = input.purpose →
      c.consumedAt.isSome
  | _, _ => True

/-- The result tells how the guess came out. -/
def Tells : Except (Api.ConsumeFault × Nat) ChallengeRow → Prop
  | .ok _ => True
  | .error (.invalidCode, _) => True
  | .error _ => False

instance (own : List ChallengeStep) : DecidablePred (UpToDate own) := fun step => by
  unfold UpToDate
  split <;> infer_instance

/-- Every statement of a history is up to date. -/
def AllUpToDate : List ChallengeStep → Prop
  | [] => True
  | step :: earlier => UpToDate (earlier.filter (·.thread = step.thread)) step ∧ AllUpToDate earlier

instance : DecidablePred AllUpToDate := fun steps => by
  induction steps with
  | nil => exact isTrue trivial
  | cons step earlier ih => exact @instDecidableAnd _ _ inferInstance ih

/-- The statement supersedes a code that was read: a resend replaces it, or an issue finds its challenge,
of the same user and purpose. -/
def Supersedes (read : ChallengeRow) (step : ChallengeStep) : Prop :=
  WritesCode step ∧ ∃ c ∈ step.before.challenges, c.id = read.id ∧
    match step.request with
    | .resend id _ => c.id = id ∧ read.resendCount ≤ c.resendCount
    | .issue input => c.userId = input.userId ∧ c.purpose = input.purpose
    | .consume .. => False

/-! ## What a challenge may become -/

/-- What a challenge may become. -/
structure ChallengeKeeps (c c' : ChallengeRow) : Prop where
  id : c'.id = c.id
  userId : c'.userId = c.userId
  purpose : c'.purpose = c.purpose
  maxAttempts : c'.maxAttempts = c.maxAttempts
  replaced : c.resendCount ≤ c'.resendCount
  consumed : c.consumedAt.isSome → c'.consumedAt.isSome

theorem ChallengeKeeps.refl (c : ChallengeRow) : ChallengeKeeps c c :=
  ⟨rfl, rfl, rfl, rfl, le_refl _, fun h => h⟩

theorem ChallengeKeeps.trans {a b c : ChallengeRow} (h : ChallengeKeeps a b) (h' : ChallengeKeeps b c) :
    ChallengeKeeps a c :=
  ⟨h'.id.trans h.id, h'.userId.trans h.userId, h'.purpose.trans h.purpose,
    h'.maxAttempts.trans h.maxAttempts, h.replaced.trans h'.replaced, h'.consumed ∘ h.consumed⟩

/-- A challenge that is not used up was not used up before. -/
theorem ChallengeKeeps.live {c c' : ChallengeRow} (h : ChallengeKeeps c c') (hlive : c'.consumedAt = none) :
    c.consumedAt = none := by
  by_contra hconsumed
  have := h.consumed (Option.isSome_iff_ne_none.mpr hconsumed)
  rw [hlive] at this
  cases this

theorem ChallengeRow.keeps_consumed (now : Date) (c : ChallengeRow) : ChallengeKeeps c (c.consumed now) :=
  ⟨rfl, rfl, rfl, rfl, le_refl _, fun _ => rfl⟩

theorem ChallengeRow.keeps_resent (codeHash : String) (now : Date) (c : ChallengeRow) :
    ChallengeKeeps c (c.resent codeHash now) :=
  ⟨rfl, rfl, rfl, rfl, Nat.le_succ _, fun h => h⟩

/-- Challenges stay, and keep what they are known by. -/
abbrev ChallengesKeep (s t : World) : Prop := Evolves ChallengeKeeps s.challenges t.challenges

/-! ## The outline -/

variable {hashSecret : String → String} {σ τ : ChallengeLog} {i : Nat} {q : ChallengeCall} {w : Write}

/-- What the guesses and resends of a run come to at a challenge. -/
structure ChallengeRow.Counted (σ : ChallengeLog) (c : ChallengeRow) : Prop where
  bounded : ∀ n calls, guesses c.id n calls σ ≤ c.maxAttempts
  spent : c.consumedAt = none → ∀ calls, guesses c.id c.resendCount calls σ ≤ c.attempts
  ahead : ∀ n, c.resendCount < n → ∀ calls, guesses c.id n calls σ = 0
  counted : resends c.id σ.history ≤ c.resendCount
  permitted : resends c.id σ.history ≤ otpMaxResends

/-- A user has no two challenges for a purpose that are not used up. -/
def OneLive (w : World) : Prop :=
  ∀ c ∈ w.challenges, ∀ c' ∈ w.challenges, c.consumedAt = none → c'.consumedAt = none →
    c.userId = c'.userId → c.purpose = c'.purpose → c.id = c'.id

/-- What holds as long as every statement is up to date. -/
structure Limited (σ : ChallengeLog) : Prop where
  single : OneLive σ.shared
  counted : ∀ c ∈ σ.shared.challenges, c.Counted σ
  superseded : ∀ step ∈ σ.history, ∀ read, Supersedes read step →
    ∃ c ∈ σ.shared.challenges, c.id = read.id ∧ (c.consumedAt.isSome ∨ read.resendCount < c.resendCount)

/-- A challenge is used up once and stays used up; a guess is on a challenge that is there; and the limits
hold as long as every statement is up to date. -/
structure CodeInv (σ : ChallengeLog) : Prop where
  ids : (σ.shared.challenges.map (·.id)).Nodup
  past : ∀ step ∈ σ.history, ChallengesKeep step.before σ.shared
  once : ∀ id, closings id σ.history ≤ 1
  closed : ∀ id, 0 < closings id σ.history →
    ∃ c ∈ σ.shared.challenges, c.id = id ∧ c.consumedAt.isSome
  limited : AllUpToDate σ.history → Limited σ

/-- Challenges stay, also before each statement that comes. -/
structure CodeRely (σ τ : ChallengeLog) : Prop where
  keep : ChallengesKeep σ.shared τ.shared
  new : ∃ new, τ.history = new ++ σ.history ∧ ∀ step ∈ new, ChallengesKeep σ.shared step.before

theorem CodeRely.refl (σ : ChallengeLog) : CodeRely σ σ :=
  ⟨Evolves.refl ChallengeKeeps.refl _, [], rfl, fun _ h => absurd h List.not_mem_nil⟩

theorem CodeRely.trans {υ : ChallengeLog} (h : CodeRely σ τ) (h' : CodeRely τ υ) : CodeRely σ υ := by
  refine ⟨h.keep.trans ChallengeKeeps.trans h'.keep, ?_⟩
  obtain ⟨new, hnew, hkeep⟩ := h.new
  obtain ⟨new', hnew', hkeep'⟩ := h'.new
  refine ⟨new' ++ new, by rw [hnew', hnew, List.append_assoc], List.forall_mem_append.mpr ⟨?_, hkeep⟩⟩
  exact fun step hstep => h.keep.trans ChallengeKeeps.trans (hkeep' step hstep)

/-- The codes of all challenges. -/
def codeOutline (hashSecret : String → String) : Outline (challengeMachine hashSecret) where
  inv := CodeInv
  rely := CodeRely
  refl := CodeRely.refl
  trans := CodeRely.trans
  env _ _ h :=
    ⟨⟨h.ids, h.past, h.once, h.closed, fun hall =>
        ⟨(h.limited hall).single, fun c hc =>
          ⟨((h.limited hall).counted c hc).bounded, ((h.limited hall).counted c hc).spent,
            ((h.limited hall).counted c hc).ahead, ((h.limited hall).counted c hc).counted,
            ((h.limited hall).counted c hc).permitted⟩, (h.limited hall).superseded⟩⟩,
      Evolves.refl ChallengeKeeps.refl _, [], rfl, fun _ h => absurd h List.not_mem_nil⟩

/-! ## Statements -/

theorem AllUpToDate.of_append {new history : List ChallengeStep} (h : AllUpToDate (new ++ history)) :
    AllUpToDate history := by
  induction new with
  | nil => exact h
  | cons step new ih => exact ih h.2

/-- A statement of a call changes what the call has guessed, and no other call's. -/
theorem guesses_perform_le (id : String) (n calls : Nat) :
    guesses id n calls (σ.perform exec i q w) ≤ guesses id n calls σ +
      if guessOf (⟨i, q, w, σ.shared⟩ :: σ.own i) = some (id, n) ∧ guessOf (σ.own i) ≠ some (id, n)
        then 1 else 0 := by
  unfold guesses
  split
  · refine (Finset.card_le_card fun j hj => ?_).trans (Finset.card_insert_le i _)
    obtain ⟨hrange, hguess⟩ := Finset.mem_filter.mp hj
    by_cases hij : i = j
    · exact Finset.mem_insert.mpr (.inl hij.symm)
    · rw [Log.own_perform_of_ne _ _ _ _ hij] at hguess
      exact Finset.mem_insert_of_mem (Finset.mem_filter.mpr ⟨hrange, hguess⟩)
  · rename_i hnot
    rw [Nat.add_zero]
    refine Finset.card_le_card fun j hj => ?_
    obtain ⟨hrange, hguess⟩ := Finset.mem_filter.mp hj
    refine Finset.mem_filter.mpr ⟨hrange, ?_⟩
    by_cases hij : i = j
    · subst hij
      rw [Log.own_perform_self] at hguess
      exact by_contra fun hne => hnot ⟨hguess, hne⟩
    · rwa [Log.own_perform_of_ne _ _ _ _ hij] at hguess

theorem resends_cons (id : String) (step : ChallengeStep) (steps : List ChallengeStep) :
    resends id (step :: steps) = resends id steps + if Resends id step then 1 else 0 := by
  simp [resends, List.countP_cons]

theorem closings_cons (id : String) (step : ChallengeStep) (steps : List ChallengeStep) :
    closings id (step :: steps) = closings id steps + if Closes id step then 1 else 0 := by
  simp [closings, List.countP_cons]

/-- **What a statement keeps under which challenges stay.** -/
theorem CodeInv.perform (h : CodeInv σ) (hkeep : ChallengesKeep σ.shared (exec w σ.shared))
    (hids : ((exec w σ.shared).challenges.map (·.id)).Nodup)
    (hlimited : Limited σ → UpToDate (σ.own i) ⟨i, q, w, σ.shared⟩ → Limited (σ.perform exec i q w)) :
    CodeRely σ (σ.perform exec i q w) ∧ CodeInv (σ.perform exec i q w) := by
  have hstay : ∀ step ∈ σ.history, ChallengesKeep step.before (exec w σ.shared) := fun step hstep =>
    (h.past step hstep).trans ChallengeKeeps.trans hkeep
  -- A challenge that the statement uses up was not used up before.
  have hnew : ∀ id, Closes id ⟨i, q, w, σ.shared⟩ → closings id σ.history = 0 := by
    rintro id ⟨c, hc, hid, hlive, -⟩
    by_contra hne
    obtain ⟨c', hc', hid', hconsumed⟩ := h.closed id (Nat.pos_of_ne_zero hne)
    obtain rfl : c = c' := Table.eq_of_key h.ids hc hc' (hid.trans hid'.symm)
    rw [hlive] at hconsumed
    cases hconsumed
  refine ⟨⟨hkeep, [_], rfl, ?_⟩, hids, ?_, fun id => ?_, fun id hpos => ?_, fun hall => ?_⟩
  · rintro step (_ | ⟨_, hstep⟩)
    · exact Evolves.refl ChallengeKeeps.refl _
    · exact absurd hstep List.not_mem_nil
  · intro step hstep
    rcases List.mem_cons.mp hstep with rfl | hstep
    · exact hkeep
    · exact hstay step hstep
  · show closings id (_ :: σ.history) ≤ 1
    rw [closings_cons]
    split
    · rename_i hcloses
      rw [hnew id hcloses]
    · exact h.once id
  · replace hpos : 0 < closings id (_ :: σ.history) := hpos
    rw [closings_cons] at hpos
    split at hpos
    · rename_i hcloses
      obtain ⟨-, -, -, -, hafter⟩ := hcloses
      exact hafter
    · obtain ⟨c, hc, hid, hconsumed⟩ := h.closed id hpos
      obtain ⟨c', hc', hcc'⟩ := hkeep c hc
      exact ⟨c', hc', hcc'.id.trans hid, hcc'.consumed hconsumed⟩
  · exact hlimited (h.limited hall.2) hall.1

/-- What was superseded stays superseded. -/
theorem Limited.superseded_perform (h : Limited σ) (hkeep : ChallengesKeep σ.shared (exec w σ.shared))
    (hnow : ∀ read, Supersedes read ⟨i, q, w, σ.shared⟩ → ∃ c ∈ (exec w σ.shared).challenges,
      c.id = read.id ∧ (c.consumedAt.isSome ∨ read.resendCount < c.resendCount)) :
    ∀ step ∈ (σ.perform exec i q w).history, ∀ read, Supersedes read step →
      ∃ c ∈ (σ.perform exec i q w).shared.challenges, c.id = read.id ∧
        (c.consumedAt.isSome ∨ read.resendCount < c.resendCount) := by
  intro step hstep read hsupersedes
  rcases List.mem_cons.mp hstep with rfl | hstep
  · exact hnow read hsupersedes
  · obtain ⟨c, hc, hid, hgone⟩ := h.superseded step hstep read hsupersedes
    obtain ⟨c', hc', hcc'⟩ := hkeep c hc
    exact ⟨c', hc', hcc'.id.trans hid, hgone.imp hcc'.consumed fun hlt => hlt.trans_le hcc'.replaced⟩

/-- **What an update of the challenges keeps**, row by row. -/
theorem CodeInv.update {sel : ChallengeRow → Bool} {data : ChallengeRow → ChallengeRow} (h : CodeInv σ)
    (hdata : ∀ c, ChallengeKeeps c (data c))
    (heq : (exec w σ.shared).challenges = (Op.update sel data).apply σ.shared.challenges)
    (hcounted : UpToDate (σ.own i) ⟨i, q, w, σ.shared⟩ → ∀ c ∈ σ.shared.challenges, c.Counted σ →
      (if sel c then data c else c).Counted (σ.perform exec i q w))
    (hnow : ∀ read, Supersedes read ⟨i, q, w, σ.shared⟩ → ∃ c ∈ (exec w σ.shared).challenges,
      c.id = read.id ∧ (c.consumedAt.isSome ∨ read.resendCount < c.resendCount)) :
    CodeRely σ (σ.perform exec i q w) ∧ CodeInv (σ.perform exec i q w) := by
  have hkeep : ChallengesKeep σ.shared (exec w σ.shared) := by
    rw [ChallengesKeep, heq]
    exact Table.evolves_update ChallengeKeeps.refl fun c _ _ => hdata c
  have hrow : ∀ c, ChallengeKeeps c (if sel c then data c else c) := by
    intro c
    split
    · exact hdata c
    · exact .refl c
  refine h.perform hkeep ?_ fun hlimited hfresh => ⟨?_, fun c hc => ?_, hlimited.superseded_perform hkeep hnow⟩
  · rw [heq, Table.map_update fun c => (hdata c).id]
    exact h.ids
  · intro c hc c' hc' hlive hlive' huser hpurpose
    replace hc : c ∈ (exec w σ.shared).challenges := hc
    replace hc' : c' ∈ (exec w σ.shared).challenges := hc'
    rw [heq, Table.mem_update] at hc hc'
    obtain ⟨r, hr, rfl⟩ := hc
    obtain ⟨r', hr', rfl⟩ := hc'
    have hk := hrow r
    have hk' := hrow r'
    rw [hk.id, hk'.id]
    exact hlimited.single r hr r' hr' (hk.live hlive) (hk'.live hlive')
      (hk.userId.symm.trans (huser.trans hk'.userId)) (hk.purpose.symm.trans (hpurpose.trans hk'.purpose))
  · replace hc : c ∈ (exec w σ.shared).challenges := hc
    rw [heq, Table.mem_update] at hc
    obtain ⟨r, hr, rfl⟩ := hc
    exact hcounted hfresh r hr (hlimited.counted r hr)

/-- A challenge that a call has compared a code of is there. -/
theorem CodeInv.known (h : CodeInv σ) {j : Nat} {id : String} {n : Nat}
    (hguess : guessOf (σ.own j) = some (id, n)) : ∃ c ∈ σ.shared.challenges, c.id = id := by
  unfold guessOf at hguess
  split at hguess
  · split at hguess
    · obtain ⟨read, hread, heq⟩ := Option.map_eq_some_iff.mp hguess
      obtain ⟨look, hlook, hfound⟩ := Option.bind_eq_some_iff.mp hread
      obtain ⟨hid, -⟩ := Prod.mk.inj heq
      have hmem : look ∈ σ.history := (List.mem_filter.mp (List.mem_of_find?_eq_some hlook)).1
      obtain ⟨hthere, hidread⟩ := findChallenge_eq_some hfound
      obtain ⟨c, hc, hcc⟩ := h.past look hmem read hthere
      exact ⟨c, hc, hcc.id.trans (hidread.trans hid)⟩
    · cases hguess
  · cases hguess

/-- A challenge that is not there has no guesses and no resends. -/
theorem CodeInv.unknown (h : CodeInv σ) {id : String} (hid : ∀ c ∈ σ.shared.challenges, c.id ≠ id) :
    (∀ n calls, guesses id n calls σ = 0) ∧ resends id σ.history = 0 := by
  constructor
  · intro n calls
    refine Finset.card_eq_zero.mpr (Finset.filter_eq_empty_iff.mpr fun j _ hguess => ?_)
    obtain ⟨c, hc, heq⟩ := h.known hguess
    exact hid c hc heq
  · refine List.countP_eq_zero.mpr fun step hstep hresends => ?_
    replace hresends : Resends id step := of_decide_eq_true hresends
    unfold Resends at hresends
    split at hresends
    · obtain ⟨-, -, hany⟩ := hresends
      obtain ⟨c, hc, heq⟩ := List.any_eq_true.mp hany
      obtain ⟨c', hc', hcc'⟩ := h.past step hstep c hc
      exact hid c' hc' (hcc'.id.trans (of_decide_eq_true heq))
    · exact hresends

/-! ## Rows -/

/-- The statement adds nothing to what its call has guessed. -/
def NoGuess (σ : ChallengeLog) (i : Nat) (q : ChallengeCall) (w : Write) : Prop :=
  ∀ code, guessOf (⟨i, q, w, σ.shared⟩ :: σ.own i) = some code → guessOf (σ.own i) = some code

theorem NoGuess.guesses_le (h : NoGuess σ i q w) (id : String) (n calls : Nat) :
    guesses id n calls (σ.perform exec i q w) ≤ guesses id n calls σ := by
  refine (guesses_perform_le id n calls).trans ?_
  rw [if_neg fun hnew => hnew.2 (h _ hnew.1), Nat.add_zero]

/-- Calls that do not consume do not guess. -/
theorem noGuess_of_request (h : ∀ id code purpose, q ≠ .consume id code purpose) : NoGuess σ i q w := by
  intro code hguess
  unfold guessOf at hguess
  split at hguess
  · rename_i heq
    obtain ⟨heq, -⟩ := List.cons.inj heq
    injection heq with _ hq
    exact absurd hq (h _ _ _)
  · cases hguess

variable {c c' : ChallengeRow}

/-- A row that nobody has guessed at or sent again. -/
theorem ChallengeRow.counted_of_zero (hguesses : ∀ n calls, guesses c.id n calls σ = 0)
    (hresends : resends c.id σ.history = 0) : c.Counted σ :=
  ⟨fun n calls => (hguesses n calls).le.trans (Nat.zero_le _),
    fun _ calls => (hguesses _ calls).le.trans (Nat.zero_le _), fun n _ calls => hguesses n calls,
    hresends.le.trans (Nat.zero_le _), hresends.le.trans (Nat.zero_le _)⟩

/-- A row that the statement leaves alone, or uses up. -/
theorem ChallengeRow.Counted.keep (h : c.Counted σ) (hkeep : ChallengeKeeps c c')
    (hsame : c'.resendCount = c.resendCount) (hattempts : c.attempts ≤ c'.attempts)
    (hguesses : ∀ n calls, guesses c.id n calls (σ.perform exec i q w) ≤ guesses c.id n calls σ)
    (hresends : ¬ Resends c.id ⟨i, q, w, σ.shared⟩) : c'.Counted (σ.perform exec i q w) := by
  have hcount : resends c.id (σ.perform exec i q w).history = resends c.id σ.history := by
    show resends c.id (_ :: σ.history) = _
    rw [resends_cons, if_neg hresends, Nat.add_zero]
  refine ⟨fun n calls => ?_, fun hlive calls => ?_, fun n hn calls => ?_, ?_, ?_⟩
  · rw [hkeep.id, hkeep.maxAttempts]
    exact (hguesses n calls).trans (h.bounded n calls)
  · rw [hkeep.id, hsame]
    exact (hguesses _ calls).trans ((h.spent (hkeep.live hlive) calls).trans hattempts)
  · rw [hsame] at hn
    rw [hkeep.id]
    exact Nat.eq_zero_of_le_zero ((hguesses n calls).trans (h.ahead n hn calls).le)
  · rw [hkeep.id, hcount, hsame]
    exact h.counted
  · rw [hkeep.id, hcount]
    exact h.permitted

/-- The row whose code is compared with a guess. -/
theorem ChallengeRow.Counted.guess (h : c.Counted σ) (hkeep : ChallengeKeeps c c')
    (hsame : c'.resendCount = c.resendCount) (hlive : c.consumedAt = none)
    (hleft : c.attempts < c.maxAttempts) (hattempts : c'.consumedAt = none → c'.attempts = c.attempts + 1)
    (hguess : guessOf (⟨i, q, w, σ.shared⟩ :: σ.own i) = some (c.id, c.resendCount))
    (hresends : ¬ Resends c.id ⟨i, q, w, σ.shared⟩) : c'.Counted (σ.perform exec i q w) := by
  have hcount : resends c.id (σ.perform exec i q w).history = resends c.id σ.history := by
    show resends c.id (_ :: σ.history) = _
    rw [resends_cons, if_neg hresends, Nat.add_zero]
  have hone : ∀ calls, guesses c.id c.resendCount calls (σ.perform exec i q w) ≤ c.attempts + 1 := by
    intro calls
    refine (guesses_perform_le _ _ calls).trans (Nat.add_le_add (h.spent hlive calls) ?_)
    split <;> omega
  -- The guess is at this code alone.
  have hother : ∀ n, n ≠ c.resendCount → ∀ calls,
      guesses c.id n calls (σ.perform exec i q w) ≤ guesses c.id n calls σ := by
    intro n hn calls
    refine (guesses_perform_le _ _ calls).trans ?_
    rw [if_neg, Nat.add_zero]
    rintro ⟨heq, -⟩
    rw [hguess] at heq
    exact hn (Prod.mk.inj (Option.some.inj heq)).2.symm
  refine ⟨fun n calls => ?_, fun hlive' calls => ?_, fun n hn calls => ?_, ?_, ?_⟩
  · rw [hkeep.id, hkeep.maxAttempts]
    by_cases hn : n = c.resendCount
    · rw [hn]
      have := hone calls
      omega
    · exact (hother n hn calls).trans (h.bounded n calls)
  · rw [hkeep.id, hsame, hattempts hlive']
    exact hone calls
  · rw [hsame] at hn
    rw [hkeep.id]
    exact Nat.eq_zero_of_le_zero ((hother n hn.ne' calls).trans (h.ahead n hn calls).le)
  · rw [hkeep.id, hcount, hsame]
    exact h.counted
  · rw [hkeep.id, hcount]
    exact h.permitted

/-- The row whose code is replaced. -/
theorem ChallengeRow.Counted.resent (h : c.Counted σ) (codeHash : String) (now : Date)
    (hleft : c.resendCount < otpMaxResends)
    (hguesses : ∀ n calls, guesses c.id n calls (σ.perform exec i q w) ≤ guesses c.id n calls σ) :
    (c.resent codeHash now).Counted (σ.perform exec i q w) := by
  have hcount : resends c.id (σ.perform exec i q w).history ≤ resends c.id σ.history + 1 := by
    show resends c.id (_ :: σ.history) ≤ _
    rw [resends_cons]
    split <;> omega
  have hzero : ∀ n, c.resendCount < n → ∀ calls, guesses c.id n calls (σ.perform exec i q w) = 0 :=
    fun n hn calls => Nat.eq_zero_of_le_zero ((hguesses n calls).trans (h.ahead n hn calls).le)
  have hcounted := h.counted
  refine ⟨fun n calls => (hguesses n calls).trans (h.bounded n calls),
    fun _ calls => (hzero _ (Nat.lt_succ_self _) calls).le,
    fun n hn calls => hzero n (Nat.lt_of_succ_lt hn) calls, ?_, ?_⟩
  · exact hcount.trans (Nat.succ_le_succ hcounted)
  · exact hcount.trans (by omega)

/-! ## Statements of each call -/

/-- What `issue` and `resend` do to the challenges. -/
def CodeWrite : ChallengeCall → Write → Prop
  | .issue input, .challenges (.update sel data) =>
    sel = ChallengeRow.IsLive input.userId input.purpose ∧ ∃ now, data = ChallengeRow.consumed now
  | .issue input, .challenges (.insert clash row) =>
    clash = (fun c => decide (c.id = row.id)) ∧ row.userId = input.userId ∧ row.purpose = input.purpose ∧
      row.consumedAt = none
  | .resend id _, .challenges (.update sel data) =>
    sel = (fun c => decide (c.id = id)) ∧ ∃ codeHash now, data = ChallengeRow.resent codeHash now
  | _, .challenges _ => False
  | _, _ => True

/-- A statement that does not write to the challenges, and after which its call has guessed no more. -/
theorem CodeInv.quiet (h : CodeInv σ) (hw : ∀ op, w ≠ .challenges op) (hguess : NoGuess σ i q w) :
    CodeRely σ (σ.perform exec i q w) ∧ CodeInv (σ.perform exec i q w) := by
  have hnot : ¬ WritesCode (⟨i, q, w, σ.shared⟩ : ChallengeStep) := by
    unfold WritesCode
    split
    · rename_i op hwrite
      exact absurd hwrite (hw op)
    · exact Bool.false_ne_true
  have heq : (exec w σ.shared).challenges =
      (Op.update (fun _ => false) fun c : ChallengeRow => c).apply σ.shared.challenges := by
    rw [challenges_exec hw]
    simp [Op.apply]
  refine h.update (fun c => .refl c) heq (fun _ c _ hc => ?_) fun read hsupersedes =>
    absurd hsupersedes.1 hnot
  rw [ite_self]
  refine hc.keep (.refl c) rfl (le_refl _) (hguess.guesses_le c.id) fun hresends => ?_
  unfold Resends at hresends
  split at hresends
  · exact hnot hresends.2.1
  · exact hresends

/-- The statement of a call that does not resend replaces no code. -/
theorem not_resends {id : String} (h : ∀ id' expose, q ≠ .resend id' expose) :
    ¬ Resends id ⟨i, q, w, σ.shared⟩ := by
  unfold Resends
  split
  · rename_i id' expose hq
    exact absurd hq (h id' expose)
  · exact not_false

/-- **What a challenge that is used up keeps**, whoever uses it up, when no guess is recorded with it. -/
theorem CodeInv.close {sel : ChallengeRow → Bool} {now : Date} (h : CodeInv σ)
    (hq : ∀ id expose, q ≠ .resend id expose)
    (hguess : NoGuess σ i q (.challenges (.update sel (ChallengeRow.consumed now))))
    (hnow : ∀ read, Supersedes read ⟨i, q, .challenges (.update sel (ChallengeRow.consumed now)), σ.shared⟩ →
      ∃ c ∈ σ.shared.challenges, c.id = read.id ∧ (c.consumedAt.isSome ∨ sel c)) :
    CodeRely σ (σ.perform exec i q (.challenges (.update sel (ChallengeRow.consumed now)))) ∧
      CodeInv (σ.perform exec i q (.challenges (.update sel (ChallengeRow.consumed now)))) := by
  have hrow : ∀ c : ChallengeRow, ChallengeKeeps c (if sel c then c.consumed now else c) := by
    intro c
    split
    · exact c.keeps_consumed now
    · exact .refl c
  have heq : (exec (.challenges (.update sel (ChallengeRow.consumed now))) σ.shared).challenges =
      (Op.update sel (ChallengeRow.consumed now)).apply σ.shared.challenges := rfl
  refine h.update (fun c => c.keeps_consumed now) heq (fun _ c _ hc => ?_) fun read hsupersedes => ?_
  · refine hc.keep (hrow c) ?_ ?_ (hguess.guesses_le c.id) (not_resends hq)
    · split <;> rfl
    · split <;> exact le_refl _
  · obtain ⟨c, hc, hid, hgone⟩ := hnow read hsupersedes
    refine ⟨_, Table.mem_update.mpr ⟨c, hc, rfl⟩, (hrow c).id.trans hid, .inl ?_⟩
    split
    · rfl
    · rename_i hsel
      exact hgone.resolve_right hsel

/-- **What a new challenge keeps**, when its user has no other for the purpose. -/
theorem CodeInv.create {input : IssueInput} {row : ChallengeRow} (h : CodeInv σ)
    (huser : row.userId = input.userId) (hpurpose : row.purpose = input.purpose)
    (hnone : row.consumedAt = none) :
    CodeRely σ (σ.perform exec i (.issue input) (.challenges (.insert (·.id = row.id) row))) ∧
      CodeInv (σ.perform exec i (.issue input) (.challenges (.insert (·.id = row.id) row))) := by
  have hguess : NoGuess σ i (.issue input) (.challenges (.insert (·.id = row.id) row)) :=
    noGuess_of_request nofun
  have hresends : ∀ id, ¬ Resends id ⟨i, .issue input, .challenges (.insert (·.id = row.id) row), σ.shared⟩ :=
    fun id => not_resends nofun
  have hkeep : ChallengesKeep σ.shared (exec (.challenges (.insert (·.id = row.id) row)) σ.shared) :=
    Table.evolves_insert ChallengeKeeps.refl
  have hold : ∀ c ∈ σ.shared.challenges, c.Counted σ →
      c.Counted (σ.perform exec i (.issue input) (.challenges (.insert (·.id = row.id) row))) :=
    fun c _ hc => hc.keep (.refl c) rfl (le_refl _) (hguess.guesses_le c.id) (hresends c.id)
  refine h.perform hkeep (Table.nodup_insert (fun c hc => decide_eq_true hc) h.ids)
    fun hlimited hfresh => ⟨?_, ?_, hlimited.superseded_perform hkeep ?_⟩
  · intro c hc c' hc' hlive hlive' huser' hpurpose'
    rcases Table.mem_insert hc with hmem | rfl
    · rcases Table.mem_insert hc' with hmem' | rfl
      · exact hlimited.single c hmem c' hmem' hlive hlive' huser' hpurpose'
      · have := hfresh c hmem (huser'.trans huser) (hpurpose'.trans hpurpose)
        rw [hlive] at this
        cases this
    · rcases Table.mem_insert hc' with hmem' | rfl
      · have := hfresh c' hmem' (huser'.symm.trans huser) (hpurpose'.symm.trans hpurpose)
        rw [hlive'] at this
        cases this
      · rfl
  · intro c hc
    by_cases hmem : c ∈ σ.shared.challenges
    · exact hold c hmem (hlimited.counted c hmem)
    · obtain ⟨rfl, hfree⟩ := Table.new_of_mem_insert hc hmem
      -- No call has guessed at a challenge that was not there.
      obtain ⟨hguesses, hresent⟩ := h.unknown fun c' hc' hid =>
        hfree (List.any_eq_true.mpr ⟨c', hc', decide_eq_true hid⟩)
      refine ChallengeRow.counted_of_zero (fun n calls => ?_) ?_
      · exact Nat.eq_zero_of_le_zero ((hguess.guesses_le c.id n calls).trans (hguesses n calls).le)
      · show resends c.id (_ :: σ.history) = 0
        rw [resends_cons, if_neg (hresends c.id), hresent]
  · rintro read ⟨-, c, hc, hid, huser', hpurpose'⟩
    obtain ⟨c', hc', hcc'⟩ := hkeep c hc
    exact ⟨c', hc', hcc'.id.trans hid, .inl (hcc'.consumed (hfresh c hc huser' hpurpose'))⟩

/-- **What a new code keeps**, when resends are left. -/
theorem CodeInv.resend {id : String} {expose : Bool} {codeHash : String} {now : Date} (h : CodeInv σ) :
    CodeRely σ (σ.perform exec i (.resend id expose)
        (.challenges (.update (·.id = id) (ChallengeRow.resent codeHash now)))) ∧
      CodeInv (σ.perform exec i (.resend id expose)
        (.challenges (.update (·.id = id) (ChallengeRow.resent codeHash now)))) := by
  have heq : (exec (.challenges (.update (·.id = id) (ChallengeRow.resent codeHash now))) σ.shared).challenges =
      (Op.update (·.id = id) (ChallengeRow.resent codeHash now)).apply σ.shared.challenges := rfl
  have hguess : NoGuess σ i (.resend id expose)
      (.challenges (.update (·.id = id) (ChallengeRow.resent codeHash now))) := noGuess_of_request nofun
  refine h.update (fun c => c.keeps_resent codeHash now) heq (fun hfresh c hmem hc => ?_)
    fun read hsupersedes => ?_
  · split
    · rename_i hid
      exact hc.resent codeHash now (hfresh c hmem (of_decide_eq_true hid)) (hguess.guesses_le c.id)
    · rename_i hid
      refine hc.keep (.refl c) rfl (le_refl _) (hguess.guesses_le c.id) fun hresends => hid ?_
      exact decide_eq_true hresends.1.symm
  · obtain ⟨-, c, hc, hread, hid, hle⟩ := hsupersedes
    refine ⟨_, Table.mem_update.mpr ⟨c, hc, rfl⟩, ?_⟩
    rw [if_pos (decide_eq_true hid)]
    exact ⟨hread, .inr (Nat.lt_succ_of_le hle)⟩

/-- **What a statement of `issue` or `resend` keeps.** -/
theorem CodeInv.write (h : CodeInv σ) (hw : CodeWrite q w)
    (hq : ∀ id code purpose, q ≠ .consume id code purpose) :
    CodeRely σ (σ.perform exec i q w) ∧ CodeInv (σ.perform exec i q w) := by
  by_cases hop : ∃ op, w = .challenges op
  · obtain ⟨op, rfl⟩ := hop
    cases q with
    | consume id code purpose => exact absurd rfl (hq id code purpose)
    | resend id expose => cases op with
      | update sel data =>
        obtain ⟨rfl, codeHash, now, rfl⟩ := hw
        exact h.resend
      | insert clash row => exact hw.elim
      | delete sel => exact hw.elim
    | issue input => cases op with
      | update sel data =>
        obtain ⟨rfl, now, rfl⟩ := hw
        refine h.close nofun (noGuess_of_request nofun) fun read hsupersedes => ?_
        obtain ⟨-, c, hc, hid, huser, hpurpose⟩ := hsupersedes
        refine ⟨c, hc, hid, ?_⟩
        -- A challenge of the user for the purpose is used up, or it is now.
        by_cases hnone : c.consumedAt = none
        · exact .inr (decide_eq_true ⟨huser, hpurpose, hnone⟩)
        · exact .inl (Option.isSome_iff_ne_none.mpr hnone)
      | insert clash row =>
        obtain ⟨rfl, huser, hpurpose, hnone⟩ := hw
        exact h.create huser hpurpose hnone
      | delete sel => exact hw.elim
  · exact h.quiet (fun op hw' => hop ⟨op, hw'⟩) (noGuess_of_request hq)

theorem Write.Bland.codeWrite (h : w.Bland) (q : ChallengeCall) : CodeWrite q w := by
  unfold CodeWrite
  split <;> trivial

theorem only_codeIssue (input : IssueInput) :
    (ChallengeService.issue hashSecret input).Only (CodeWrite (.issue input)) := by
  refine (only_issueCode input).mono fun w hw => ?_
  unfold IssueWrite at hw
  split at hw
  · exact hw
  · obtain ⟨hclash, huser, -, hpurpose, hnone⟩ := hw
    exact ⟨hclash, huser, hpurpose, hnone⟩
  · trivial
  · exact hw.codeWrite _

theorem only_codeResend (challengeId : String) (exposeDevCode : Bool) :
    (ChallengeService.resend hashSecret challengeId exposeDevCode).Only
      (CodeWrite (.resend challengeId exposeDevCode)) := by
  refine (only_resendCode challengeId exposeDevCode).mono fun w hw => ?_
  unfold ResendWrite at hw
  split at hw
  · exact hw
  · trivial
  · exact hw.codeWrite _

/-! ## Consuming a code -/

/-- The call has read a challenge, and recorded nothing yet. -/
structure HasRead (own : List ChallengeStep) (id : String) (read : ChallengeRow) : Prop where
  readBy : readBy own id = some read
  unwritten : own.any WritesCode = false

/-- The call has recorded its guess. -/
structure HasGuessed (own : List ChallengeStep) (id : String) (read : ChallengeRow) : Prop where
  readBy : readBy own id = some read
  guess : guessOf own = some (id, read.resendCount)

variable {own : List ChallengeStep} {id code purpose : String} {read : ChallengeRow} {s : World}

theorem guessOf_consume : guessOf (⟨i, .consume id code purpose, w, s⟩ :: own) =
    if (⟨i, .consume id code purpose, w, s⟩ :: own).any WritesCode then
      (readBy (⟨i, .consume id code purpose, w, s⟩ :: own) id).map fun c => (id, c.resendCount)
    else none := rfl

theorem readBy_cons (h : ¬ Looks (⟨i, q, w, s⟩ : ChallengeStep)) :
    readBy (⟨i, q, w, s⟩ :: own) id = readBy own id := by
  unfold readBy
  rw [List.find?_cons_of_neg h]

theorem HasRead.cons (h : HasRead own id read) (hlooks : ¬ Looks (⟨i, q, w, s⟩ : ChallengeStep))
    (hwrites : ¬ WritesCode (⟨i, q, w, s⟩ : ChallengeStep)) : HasRead (⟨i, q, w, s⟩ :: own) id read := by
  refine ⟨(readBy_cons hlooks).trans h.readBy, ?_⟩
  rw [List.any_cons, h.unwritten, Bool.or_false]
  exact Bool.eq_false_iff.mpr hwrites

/-- The first write of a call that consumes records its guess. -/
theorem HasRead.guess (h : HasRead own id read) (i : Nat) (code purpose : String) (op : Op ChallengeRow)
    (s : World) : HasGuessed (⟨i, .consume id code purpose, .challenges op, s⟩ :: own) id read := by
  have hlooks : ¬ Looks (⟨i, .consume id code purpose, .challenges op, s⟩ : ChallengeStep) :=
    Bool.false_ne_true
  have hread := (readBy_cons hlooks).trans h.readBy
  have hany : (⟨i, .consume id code purpose, .challenges op, s⟩ :: own).any WritesCode = true := rfl
  refine ⟨hread, ?_⟩
  rw [guessOf_consume, if_pos hany, hread]
  rfl

/-- And no later one does. -/
theorem HasGuessed.cons (h : HasGuessed own id read) (hlooks : ¬ Looks (⟨i, q, w, s⟩ : ChallengeStep))
    (hq : q = .consume id code purpose) : HasGuessed (⟨i, q, w, s⟩ :: own) id read := by
  subst hq
  have hread := (readBy_cons hlooks).trans h.readBy
  refine ⟨hread, ?_⟩
  have hwritten : own.any WritesCode = true := by
    have hguess := h.guess
    unfold guessOf at hguess
    split at hguess
    · split at hguess
      · assumption
      · cases hguess
    · cases hguess
  have hany : (⟨i, .consume id code purpose, w, s⟩ :: own).any WritesCode = true := by
    rw [List.any_cons, hwritten, Bool.or_true]
  rw [guessOf_consume, if_pos hany, hread]
  rfl

theorem HasGuessed.noGuess (h : HasGuessed (σ.own i) id read)
    (hlooks : ¬ Looks (⟨i, q, w, σ.shared⟩ : ChallengeStep)) (hq : q = .consume id code purpose) :
    NoGuess σ i q w := by
  intro code' hguess
  rw [(h.cons hlooks hq).guess] at hguess
  rw [h.guess, hguess]

/-- A call that has written nothing has guessed nothing. -/
theorem noGuess_of_unwritten (h : (σ.own i).any WritesCode = false)
    (hwrites : ¬ WritesCode (⟨i, q, w, σ.shared⟩ : ChallengeStep)) : NoGuess σ i q w := by
  intro code' hguess
  unfold guessOf at hguess
  split at hguess
  · rename_i heq
    have hany : (⟨i, q, w, σ.shared⟩ :: σ.own i).any WritesCode = false := by
      rw [List.any_cons, h, Bool.or_false]
      exact Bool.eq_false_iff.mpr hwrites
    rw [hany, if_neg Bool.false_ne_true] at hguess
    cases hguess
  · cases hguess

/-- A call has used up the challenge that it has read, and where every statement was up to date nobody
had replaced its code. -/
def Accepted (i : Nat) (read : ChallengeRow) (σ : ChallengeLog) : Prop :=
  ∃ step ∈ σ.own i, WritesCode step ∧ Closes read.id step ∧
    (AllUpToDate σ.history → ∀ c ∈ step.before.challenges, c.id = read.id →
      c.consumedAt = none ∧ c.resendCount = read.resendCount)

theorem Accepted.later (h : Accepted i read σ) (hlater : (codeOutline hashSecret).Later i σ τ) :
    Accepted i read τ := by
  obtain ⟨step, hstep, hwrites, hcloses, hfresh⟩ := h
  obtain ⟨new, hnew, -⟩ := hlater.1.new
  refine ⟨step, hlater.2 ▸ hstep, hwrites, hcloses, fun hall => hfresh ?_⟩
  rw [hnew] at hall
  exact hall.of_append

/-- What holds when a call of `consume` ends. -/
structure ConsumedPost (id : String) (i : Nat)
    (r : Except HttpException (Except (Api.ConsumeFault × Nat) ChallengeRow)) (σ : ChallengeLog) : Prop where
  accepted : ∀ read, r = .ok (.ok read) → read.id = id ∧ Accepted i read σ
  counted : ∀ result, r = .ok result → Tells result → ∃ n, guessOf (σ.own i) = some (id, n)

/-- **What the first write of a call that consumes keeps.** -/
theorem CodeInv.guess {sel : ChallengeRow → Bool} {data : ChallengeRow → ChallengeRow} (h : CodeInv σ)
    (hread : HasRead (σ.own i) id read) (hdata : ∀ c, ChallengeKeeps c (data c))
    (hsame : ∀ c, (data c).resendCount = c.resendCount)
    (hattempts : ∀ c, (data c).consumedAt = none → (data c).attempts = c.attempts + 1)
    (hsel : ∀ c, sel c → c.id = id) (hall : ∀ c, c.id = id → c.consumedAt = none → sel c) :
    CodeRely σ (σ.perform exec i (.consume id code purpose) (.challenges (.update sel data))) ∧
      CodeInv (σ.perform exec i (.consume id code purpose) (.challenges (.update sel data))) := by
  have hguess := (hread.guess i code purpose (.update sel data) σ.shared).guess
  have heq : (exec (.challenges (.update sel data)) σ.shared).challenges =
      (Op.update sel data).apply σ.shared.challenges := rfl
  refine h.update hdata heq (fun hfresh c hmem hc => ?_) fun _ hsupersedes => ?_
  · by_cases hid : c.id = id
    · obtain ⟨hlive, hcode, hleft⟩ := hfresh.resolve_left
        (Bool.eq_false_iff.mp hread.unwritten) read hread.readBy c hmem hid
      rw [if_pos (hall c hid hlive)]
      refine hc.guess (hdata c) (hsame c) hlive hleft (hattempts c) ?_ (not_resends nofun)
      rw [hguess, hid, hcode]
    · -- The guess is at another challenge.
      rw [if_neg fun hsel' => hid (hsel c hsel')]
      refine hc.keep (.refl c) rfl (le_refl _) (fun n calls => ?_) (not_resends nofun)
      refine (guesses_perform_le c.id n calls).trans ?_
      rw [if_neg, Nat.add_zero]
      rintro ⟨heq, -⟩
      rw [hguess] at heq
      exact hid (Prod.mk.inj (Option.some.inj heq)).1.symm
  · obtain ⟨-, c, -, -, hnever⟩ := hsupersedes
    exact False.elim hnever

theorem consumedPost_refused (reason : Api.ConsumeFault) (n : Nat) (hreason : reason ≠ .invalidCode)
    (σ : ChallengeLog) : ConsumedPost id i (.ok (.error (reason, n))) σ := by
  refine ⟨fun _ heq => (nomatch heq), fun result heq htells => ?_⟩
  obtain rfl := Except.ok.inj heq
  cases reason with
  | invalidCode => exact absurd rfl hreason
  | notFound | expired | alreadyUsed | tooManyAttempts => exact False.elim htells

theorem consumedPost_raise (e : HttpException) (σ : ChallengeLog) : ConsumedPost id i (.error e) σ :=
  ⟨fun _ heq => (nomatch heq), fun _ heq => nomatch heq⟩

theorem HasGuessed.post (h : HasGuessed (σ.own i) id read) (n : Nat) :
    ConsumedPost id i (.ok (.error (.invalidCode, n))) σ :=
  ⟨fun _ heq => (nomatch heq), fun _ _ _ => ⟨_, h.guess⟩⟩

/-- One statement with what it keeps, and the rest of the program. -/
theorem safe_stmt {α : Type} {post : Except HttpException α → ChallengeLog → Prop}
    {next : World → Service α}
    (hkeep : ∀ τ, τ.own i = σ.own i → CodeInv τ →
      CodeRely τ (τ.perform exec i q w) ∧ CodeInv (τ.perform exec i q w))
    (hnext : ∀ τ, τ.own i = σ.own i → CodeInv τ →
      (codeOutline hashSecret).Safe i q post (next τ.shared) (τ.perform exec i q w)) :
    (codeOutline hashSecret).Safe i q post (.stmt w next) σ :=
  fun τ hlater hτ => ⟨(hkeep τ hlater.2 hτ).1, (hkeep τ hlater.2 hτ).2, hnext τ hlater.2 hτ⟩

/-- **A wrong code.** The guess is recorded, and the last one uses up the challenge. -/
theorem safe_wrongCode (challenge : ChallengeRow) (hread : HasRead (σ.own i) challenge.id challenge) :
    (codeOutline hashSecret).Safe i (.consume challenge.id code purpose) (ConsumedPost challenge.id i)
      (updateChallenge challenge.id (fun c => { c with attempts := c.attempts + 1 }) >>= fun updated =>
        let remaining := updated.maxAttempts - updated.attempts
        if remaining = 0 then do
          let burned ← newDate
          let _ ← updateChallenge challenge.id fun c => { c with consumedAt := some burned }
          .done (.error (.invalidCode, 0))
        else .done (.error (.invalidCode, remaining))) σ := by
  rw [updateChallenge_bind]
  refine safe_stmt (fun τ hown hτ => ?_) fun τ hown _ => ?_
  · rw [← hown] at hread
    exact hτ.guess hread (fun c => ⟨rfl, rfl, rfl, rfl, le_refl _, fun h => h⟩) (fun _ => rfl)
      (fun _ _ => rfl) (fun _ h => of_decide_eq_true h) fun _ h _ => decide_eq_true h
  rw [← hown] at hread
  have hguessed : HasGuessed ((τ.perform exec i (.consume challenge.id code purpose) (.challenges
      (.update (·.id = challenge.id) fun c => { c with attempts := c.attempts + 1 }))).own i)
      challenge.id challenge := by
    rw [Log.own_perform_self]
    exact hread.guess ..
  split
  · exact consumedPost_raise _ _
  dsimp only
  split
  · -- Both statements come after the guess was recorded.
    rw [newDate_bind]
    refine safe_stmt (fun υ hown' hυ => ?_) fun υ hown' _ => ?_
    · rw [← hown'] at hguessed
      exact hυ.quiet nofun (hguessed.noGuess Bool.false_ne_true rfl)
    rw [← hown'] at hguessed
    have hstill : HasGuessed (⟨i, .consume challenge.id code purpose, .api .clock, υ.shared⟩ :: υ.own i)
        challenge.id challenge := hguessed.cons Bool.false_ne_true rfl
    rw [← Log.own_perform_self υ exec] at hstill
    rw [updateChallenge_bind]
    refine safe_stmt (fun φ hown'' hφ => ?_) fun φ hown'' _ => ?_
    · rw [← hown''] at hstill
      refine hφ.close nofun (hstill.noGuess Bool.false_ne_true rfl) ?_
      rintro read ⟨-, c, -, -, hnever⟩
      exact False.elim hnever
    rw [← hown''] at hstill
    split
    · exact consumedPost_raise _ _
    · refine HasGuessed.post (?_ : HasGuessed _ challenge.id challenge) 0
      rw [Log.own_perform_self]
      exact hstill.cons Bool.false_ne_true rfl
  · exact hguessed.post _

/-- The statement that uses up a challenge, if it is not. -/
abbrev claiming (id : String) (now : Date) : Write :=
  .challenges (.update (fun c => c.id = id ∧ c.consumedAt = none) (·.consumed now))

theorem closes_claiming {c : ChallengeRow} {now : Date} (hc : c ∈ s.challenges) (hid : c.id = id)
    (hlive : c.consumedAt = none) : Closes id ⟨i, q, claiming id now, s⟩ := by
  have hsel : decide (c.id = id ∧ c.consumedAt = none) = true := decide_eq_true ⟨hid, hlive⟩
  exact ⟨c, hc, hid, hlive, c.consumed now, Table.mem_update.mpr ⟨c, hc, (if_pos hsel).symm⟩, hid, rfl⟩

/-- **The right code.** The challenge is used up, if it was not. -/
theorem safe_rightCode (challenge : ChallengeRow) (hread : HasRead (σ.own i) challenge.id challenge) :
    (codeOutline hashSecret).Safe i (.consume challenge.id code purpose) (ConsumedPost challenge.id i)
      (do
        let used ← newDate
        let count ← Prog.perform (.challenges (.update
            (fun c => c.id = challenge.id ∧ c.consumedAt = none)
            fun c => { c with consumedAt := some used }))
          fun w => (w.challenges.filter fun c => c.id = challenge.id ∧ c.consumedAt = none).length
        if count = 0 then .done (.error (.alreadyUsed, 0)) else .done (.ok challenge)) σ := by
  rw [newDate_bind]
  refine safe_stmt (fun τ hown hτ => ?_) fun τ hown _ => ?_
  · rw [← hown] at hread
    exact hτ.quiet nofun (noGuess_of_unwritten hread.unwritten Bool.false_ne_true)
  rw [← hown] at hread
  have hread' : HasRead (⟨i, .consume challenge.id code purpose, .api .clock, τ.shared⟩ :: τ.own i)
      challenge.id challenge := hread.cons Bool.false_ne_true Bool.false_ne_true
  rw [← Log.own_perform_self τ exec] at hread'
  rw [Prog.perform_bind]
  refine safe_stmt (fun υ hown' hυ => ?_) fun υ hown' hυ => ?_
  · rw [← hown'] at hread'
    exact hυ.guess hread' (fun c => c.keeps_consumed _) (fun _ => rfl) (fun _ h => nomatch h)
      (fun _ h => (of_decide_eq_true h).1) fun _ h h' => decide_eq_true ⟨h, h'⟩
  rw [← hown'] at hread'
  split
  · exact consumedPost_refused _ _ (by decide) _
  · rename_i hcount
    obtain ⟨c, hc⟩ := List.exists_mem_of_length_pos (Nat.pos_of_ne_zero hcount)
    obtain ⟨hmem, hsel⟩ := List.mem_filter.mp hc
    refine ⟨?_, fun _ _ _ => ⟨challenge.resendCount, ?_⟩⟩
    rintro read ⟨⟩
    refine ⟨rfl, ⟨i, .consume challenge.id code purpose, claiming challenge.id τ.shared.api.clock, υ.shared⟩,
      ?_, rfl, closes_claiming hmem (of_decide_eq_true hsel).1 (of_decide_eq_true hsel).2, ?_⟩
    · rw [Log.own_perform_self]
      exact List.mem_cons_self
    · intro hall c' hc' hid
      obtain ⟨hlive, hcode, -⟩ := hall.1.resolve_left (Bool.eq_false_iff.mp hread'.unwritten) challenge
        hread'.readBy c' hc' hid
      exact ⟨hlive, hcode⟩
    · rw [Log.own_perform_self]
      exact (hread'.guess ..).guess

/-- **One call of `consume`.** -/
theorem safe_consume (hown : σ.own i = []) :
    (codeOutline hashSecret).Safe i (.consume id code purpose) (ConsumedPost id i)
      (consume hashSecret id code purpose) σ := by
  unfold consume
  rw [select_bind]
  refine safe_stmt (fun τ hown' hτ => ?_) fun τ hown' _ => ?_
  · refine hτ.quiet nofun (noGuess_of_unwritten ?_ Bool.false_ne_true)
    rw [hown', hown]
    rfl
  rw [hown] at hown'
  cases hfound : findChallenge id τ.shared with
  | none => exact consumedPost_refused _ _ (by decide) _
  | some challenge =>
    obtain ⟨-, rfl⟩ := findChallenge_eq_some hfound
    have hread : HasRead [⟨i, .consume challenge.id code purpose, .select .challenges, τ.shared⟩]
        challenge.id challenge := ⟨hfound, rfl⟩
    dsimp only
    split
    · exact consumedPost_refused _ _ (by decide) _
    split
    · exact consumedPost_refused _ _ (by decide) _
    rw [dateNow_bind]
    refine safe_stmt (fun υ hown'' hυ => ?_) fun υ hown'' _ => ?_
    · rw [Log.own_perform_self, hown'] at hown''
      rw [← hown''] at hread
      exact hυ.quiet nofun (noGuess_of_unwritten hread.unwritten Bool.false_ne_true)
    rw [Log.own_perform_self, hown'] at hown''
    rw [← hown''] at hread
    have hread' : HasRead (⟨i, .consume challenge.id code purpose, .dateNow, υ.shared⟩ :: υ.own i)
        challenge.id challenge := hread.cons Bool.false_ne_true Bool.false_ne_true
    rw [← Log.own_perform_self υ exec] at hread'
    split
    · exact consumedPost_refused _ _ (by decide) _
    split
    · exact consumedPost_refused _ _ (by decide) _
    split
    · exact safe_wrongCode challenge hread'
    · exact safe_rightCode challenge hread'

/-! ## Runs -/

/-- What holds when a call ends. -/
def challengePost (i : Nat) (q : ChallengeCall) (r : Except HttpException ChallengeAnswer) (σ : ChallengeLog) :
    Prop :=
  ∀ id code purpose result, q = .consume id code purpose → r = .ok (.consumed result) →
    ConsumedPost id i (.ok result) σ

theorem stable_challengePost (i : Nat) (q : ChallengeCall) :
    (codeOutline hashSecret).Stable i (challengePost i q) := by
  intro r σ τ hlater h id code purpose result hq hr
  obtain ⟨haccepted, hcounted⟩ := h id code purpose result hq hr
  refine ⟨fun read heq => ?_, fun result' heq htells => ?_⟩
  · obtain ⟨hid, hread⟩ := haccepted read heq
    exact ⟨hid, hread.later hlater⟩
  · rw [hlater.2]
    exact hcounted result' heq htells

theorem safe_challengeHandler (hσ : CodeInv σ) (hown : σ.own i = []) :
    (codeOutline hashSecret).Safe i q (challengePost i q) (challengeHandler hashSecret q) σ := by
  cases q with
  | issue input =>
    refine ((Outline.Safe.of_only ((only_codeIssue input).map _) fun w σ hw hσ =>
      CodeInv.write hσ hw nofun).mono hσ fun r τ _ _ _ => ?_)
    exact fun _ _ _ _ hq => nomatch hq
  | resend id expose =>
    refine ((Outline.Safe.of_only ((only_codeResend id expose).map _) fun w σ hw hσ =>
      CodeInv.write hσ hw nofun).mono hσ fun r τ _ _ _ => ?_)
    exact fun _ _ _ _ hq => nomatch hq
  | consume id code purpose =>
    refine (safe_consume hown).bind hσ (fun result τ _ _ hpost => ?_) fun e τ _ _ _ => ?_
    · rintro id' code' purpose' result' ⟨⟩ ⟨⟩
      exact hpost
    · exact fun _ _ _ _ _ hr => nomatch hr

/-- A run may start with any challenges, of which a user has no two for a purpose that are not used up. -/
structure ChallengeStart (w : World) : Prop where
  ids : (w.challenges.map (·.id)).Nodup
  single : OneLive w

theorem ChallengeStart.inv {w : World} (h : ChallengeStart w) : CodeInv ⟨w, []⟩ := by
  have hguesses : ∀ id n calls, guesses id n calls ⟨w, []⟩ = 0 := fun id n calls =>
    Finset.card_eq_zero.mpr (Finset.filter_eq_empty_iff.mpr fun j _ => nofun)
  exact ⟨h.ids, fun _ hstep => absurd hstep List.not_mem_nil, fun _ => Nat.zero_le _,
    fun _ hpos => absurd hpos (Nat.lt_irrefl 0), fun _ => ⟨h.single,
      fun c _ => ChallengeRow.counted_of_zero (hguesses c.id) rfl, fun _ hstep => absurd hstep List.not_mem_nil⟩⟩

theorem good_challengeRun {c : Config World Write HttpException ChallengeCall ChallengeAnswer}
    (hc : (codeOutline hashSecret).Good challengePost c) (moves : List (Move ChallengeCall World)) :
    (codeOutline hashSecret).Good challengePost (Run.run (challengeMachine hashSecret).step moves c) ∧
      CodeRely c.log (Run.run (challengeMachine hashSecret).step moves c).log :=
  Outline.sound stable_challengePost (fun _ _ _ hσ hown => safe_challengeHandler hσ hown) moves hc

/-- No two calls use up one challenge. -/
theorem CodeInv.closes_once (h : CodeInv σ) {i j : Nat} (hi : ∃ step ∈ σ.own i, Closes id step)
    (hj : ∃ step ∈ σ.own j, Closes id step) : i = j := by
  by_contra hij
  have hpos : ∀ k, (∃ step ∈ σ.own k, Closes id step) → 0 < closings id (σ.own k) :=
    fun k ⟨step, hstep, hcloses⟩ => List.countP_pos_iff.mpr ⟨step, hstep, decide_eq_true hcloses⟩
  have htwo : closings id (σ.own i) + closings id (σ.own j) ≤ 1 :=
    (σ.countP_own_add_le _ hij).trans (h.once id)
  have := hpos i hi
  have := hpos j hj
  omega

/-- SHA-256 of two codes. -/
def codeHash (code : String) : String :=
  if code = "111111" then "bcb15f821479b4d5772bd0ca866c00ad5f926e3580720659cc80d39c9d09802a"
  else "4cc8f4d609b717356701c57a03e737e5ac8fe885da8c7163d3de47e01849c635"

/-- The challenge of a registration a minute ago. -/
def firstCode : ChallengeRow where
  id := "c1"
  userId := "u1"
  deviceId := none
  purpose := "email_verification"
  codeHash := codeHash "111111"
  expiresAt := 540000
  consumedAt := none
  attempts := 0
  maxAttempts := 5
  resendCount := 0
  lastSentAt := -60000
  pendingDeviceName := none

/-- A user with that challenge. -/
def registered : World :=
  { plainWorld with
    users := [⟨"u1", "Ada", "ada@example.com", "", false, 0, none⟩]
    challenges := [firstCode]
    otp := "222222" }

/-- A run from there. -/
abbrev plainChallenges (moves : List (Move ChallengeCall World)) :
    Config World Write HttpException ChallengeCall ChallengeAnswer :=
  challengeRun codeHash registered moves

/-- The code is sent again. -/
def sendAgainFirst : List (Move ChallengeCall World) :=
  .call (.resend "c1" false) :: List.replicate 5 (.step 0)

/-- The first code comes in. -/
def presentFirst : List (Move ChallengeCall World) :=
  .call (.consume "c1" "111111" "email_verification") :: List.replicate 3 (.step 1)

/-- A call has read the challenge when the code is sent again. -/
def sendAgainMeanwhile : List (Move ChallengeCall World) :=
  [Move.call (.consume "c1" "111111" "email_verification"), Move.step 0, Move.call (.resend "c1" false)] ++
    List.replicate 5 (Move.step 1)

theorem registered_start : ChallengeStart registered where
  ids := by simp [registered]
  single := by
    intro c hc c' hc' _ _ _ _
    rw [List.mem_singleton.mp hc, List.mem_singleton.mp hc']

end Account
