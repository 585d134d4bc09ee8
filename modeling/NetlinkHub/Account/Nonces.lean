import NetlinkHub.Account.Guard
import NetlinkHub.Go.Text

/-! # A signed request is accepted once

Any number of runs of the guard over the table of nonces, statement by statement. A row is swept no
earlier than ten minutes after the timestamp of its request, and a copy of the request passes the check
of its timestamp for five: as long as no copy is held up between that check and its nonce until the row
may be gone, one copy is accepted (`accepted_once`). A copy that is held up longer is accepted again
(`accepted_twice`). -/

namespace Account

open Api (Date HttpException)
open Concurrent (Config Log Machine Move Outline Prog Step)

/-- A request on a route, and whether the route allows a device that is not enrolled. -/
structure GuardRequest where
  allowsUnenrolled : Bool
  signed : SignedRequest
  deriving DecidableEq, Repr

/-- What happens between two statements of the guard: the clock goes on, and the rest of the control
plane does anything but touch the nonces. -/
inductive Meanwhile where
  | tick (ms : Nat)
  | rest (w : World)

/-- The world after it. -/
def meanwhile : Meanwhile → World → World
  | .tick ms, w => { w with api := { w.api with clock := w.api.clock + ms } }
  | .rest w', w =>
    { w' with api := { w'.api with clock := w.api.clock }, requestNonces := w.requestNonces }

/-- Any number of requests before the guard. -/
def guardMachine (crypto : Crypto) :
    Machine World Write HttpException GuardRequest Meanwhile AgentPrincipal :=
  ⟨fun q => canActivate crypto q.allowsUnenrolled q.signed, exec, meanwhile⟩

/-- The guard after a run. -/
abbrev guardRun (crypto : Crypto) (w : World) (moves : List (Move GuardRequest Meanwhile)) :
    Config World Write HttpException GuardRequest AgentPrincipal :=
  Run.run (guardMachine crypto).step moves (Config.initial w)

/-- A statement of the guard, with the world it found. -/
abbrev GuardStep := Step World Write GuardRequest

/-- The statement records a nonce. -/
def Records (step : GuardStep) (row : RequestNonceRow) : Prop :=
  step.write = .createNonce row ∧ step.before.admitsNonce row.nonce

/-- The statement leaves the nonces as they are. -/
def Untouched (step : GuardStep) : Prop :=
  (exec step.write step.before).requestNonces = step.before.requestNonces

/-- The statement does not record a nonce later than its row expires. -/
def OnTime (step : GuardStep) : Prop :=
  match step.write with
  | .createNonce row => step.before.api.clock ≤ row.expiresAt
  | _ => True

instance : DecidablePred OnTime := fun step => by
  unfold OnTime
  split <;> infer_instance

/-- No copy of a request comes to record its nonce when the row of another copy may have been swept. -/
def InTime (history : List GuardStep) : Prop := ∀ step ∈ history, OnTime step

theorem InTime.le {history : List GuardStep} {step : GuardStep} {row : RequestNonceRow}
    (h : InTime history) (hstep : step ∈ history) (hwrite : step.write = .createNonce row) :
    step.before.api.clock ≤ row.expiresAt := by
  have hontime := h step hstep
  rw [OnTime, hwrite] at hontime
  exact hontime

/-- Two requests carry the same nonce and the same timestamp, as the copies of one request do. -/
def Copies (q q' : GuardRequest) : Prop :=
  q.signed.nonce = q'.signed.nonce ∧ q.signed.timestamp = q'.signed.timestamp

theorem headers_of_copies {q q' : GuardRequest} {h h' : Headers} (hcopies : Copies q q')
    (hheaders : q.signed.headers = some h) (hheaders' : q'.signed.headers = some h') :
    h.nonce = h'.nonce ∧ h.timestamp = h'.timestamp := by
  simp only [SignedRequest.headers, Option.bind_eq_bind, Option.bind_eq_some_iff, Option.some.injEq]
    at hheaders hheaders'
  obtain ⟨_, -, _, -, timestamp, htimestamp, nonce, hnonce, _, -, rfl⟩ := hheaders
  obtain ⟨_, -, _, -, timestamp', htimestamp', nonce', hnonce', _, -, rfl⟩ := hheaders'
  rw [hcopies.1, hnonce'] at hnonce
  rw [hcopies.2, htimestamp'] at htimestamp
  exact ⟨(Option.some.inj hnonce).symm, (Option.some.inj htimestamp).symm⟩

/-! ## The outline -/

/-- A recorded nonce is in the table until the clock is past its expiry. -/
structure NonceInv (σ : Log World Write GuardRequest) : Prop where
  kept : ∀ step ∈ σ.history, ∀ row, Records step row →
    row ∈ σ.shared.requestNonces ∨ row.expiresAt < σ.shared.api.clock
  once : σ.history.Pairwise fun later earlier => ∀ row row', Records later row → Records earlier row' →
    row.nonce = row'.nonce → row'.expiresAt < later.before.api.clock

variable {crypto : Crypto} {σ τ : Log World Write GuardRequest} {i : Nat} {q : GuardRequest}

/-- The clock does not go back. -/
def nonceOutline (crypto : Crypto) : Outline (guardMachine crypto) where
  inv := NonceInv
  rely σ τ := σ.shared.api.clock ≤ τ.shared.api.clock
  refl σ := le_refl _
  trans h h' := le_trans h h'
  env e σ h := by
    cases e with
    | tick ms =>
      have hle : σ.shared.api.clock ≤ σ.shared.api.clock + ms :=
        le_add_of_nonneg_right (Int.natCast_nonneg ms)
      refine ⟨⟨fun step hstep row hrow => ?_, h.once⟩, hle⟩
      exact (h.kept step hstep row hrow).imp_right fun hlt => lt_of_lt_of_le hlt hle
    | rest w => exact ⟨⟨h.kept, h.once⟩, le_refl _⟩

/-- A statement that leaves the nonces and the clock alone. -/
theorem NonceInv.untouched (h : NonceInv σ) {w : Write} (hnot : ∀ row, w ≠ .createNonce row)
    (hnonces : (exec w σ.shared).requestNonces = σ.shared.requestNonces)
    (hclock : (exec w σ.shared).api.clock = σ.shared.api.clock) :
    NonceInv (σ.perform exec i q w) := by
  constructor
  · intro step hstep row hrow
    rcases List.mem_cons.mp hstep with rfl | hstep
    · exact absurd hrow.1 (hnot row)
    · show row ∈ (exec w σ.shared).requestNonces ∨ _ < (exec w σ.shared).api.clock
      rw [hnonces, hclock]
      exact h.kept step hstep row hrow
  · exact List.pairwise_cons.mpr ⟨fun _ _ row _ hrow => absurd hrow.1 (hnot row), h.once⟩

/-- A nonce that the table lets in is not there, so an earlier row of it has expired. -/
theorem NonceInv.createNonce (h : NonceInv σ) (row : RequestNonceRow) :
    NonceInv (σ.perform exec i q (.createNonce row)) := by
  have hsub : σ.shared.requestNonces ⊆ (exec (.createNonce row) σ.shared).requestNonces := by
    simp only [exec]
    split
    · exact List.subset_append_left _ _
    · exact List.Subset.refl _
  have hclock : (exec (.createNonce row) σ.shared).api.clock = σ.shared.api.clock := by
    simp only [exec]
    split <;> rfl
  constructor
  · intro step hstep row' hrow
    show row' ∈ (exec (.createNonce row) σ.shared).requestNonces ∨
      row'.expiresAt < (exec (.createNonce row) σ.shared).api.clock
    rcases List.mem_cons.mp hstep with rfl | hstep
    · obtain ⟨hwrite, hadmits⟩ := hrow
      cases hwrite
      left
      simp only [exec]
      rw [if_pos hadmits]
      exact List.mem_append_right _ (List.mem_singleton_self row)
    · rw [hclock]
      exact (h.kept step hstep row' hrow).imp_left fun hmem => hsub hmem
  · refine List.pairwise_cons.mpr ⟨fun earlier hearlier row' row'' hrow' hrow'' heq => ?_, h.once⟩
    obtain ⟨hwrite, hadmits⟩ := hrow'
    cases hwrite
    -- Were the earlier row still there, the table would not let the nonce in.
    rcases h.kept earlier hearlier row'' hrow'' with hmem | hlt
    · exfalso
      have hfree := (of_decide_eq_true hadmits).2
      exact hfree (List.any_eq_true.mpr ⟨row'', hmem, decide_eq_true heq.symm⟩)
    · exact hlt

/-- The sweep takes rows that have expired at a time that has been. -/
theorem NonceInv.sweepNonces (h : NonceInv σ) {now : Date} (hnow : now ≤ σ.shared.api.clock) :
    NonceInv (σ.perform exec i q (.sweepNonces now)) := by
  constructor
  · intro step hstep row hrow
    rcases List.mem_cons.mp hstep with rfl | hstep
    · cases hrow.1
    · show row ∈ (exec (.sweepNonces now) σ.shared).requestNonces ∨ _ < σ.shared.api.clock
      rcases h.kept step hstep row hrow with hmem | hlt
      · rcases lt_or_ge row.expiresAt now with hexp | hexp
        · exact .inr (lt_of_lt_of_le hexp hnow)
        · left
          exact List.mem_filter.mpr ⟨hmem, by simpa using hexp⟩
      · exact .inr hlt
  · exact List.pairwise_cons.mpr ⟨fun _ _ row _ hrow => (nomatch hrow.1), h.once⟩

/-! ## The guard -/

/-- The row of a request whose headers and timestamp can be read. -/
def RowOf (crypto : Crypto) (q : GuardRequest) (row : RequestNonceRow) : Prop :=
  ∃ h sentAt, q.signed.headers = some h ∧ crypto.parseDate h.timestamp = some sentAt ∧
    row = ⟨h.nonce, "agent", nonceExpiresAt sentAt⟩

/-- A request that is let in has recorded its nonce; one that is refused has left the table alone. -/
def guardPost (crypto : Crypto) (i : Nat) (q : GuardRequest) :
    Except HttpException AgentPrincipal → Log World Write GuardRequest → Prop
  | .ok _, σ => ∃ row, RowOf crypto q row ∧ ∃ step ∈ σ.own i, Records step row
  | .error _, σ => ∀ step ∈ σ.own i, Untouched step

theorem stable_guardPost (crypto : Crypto) (i : Nat) (q : GuardRequest) :
    (nonceOutline crypto).Stable i (guardPost crypto i q) := by
  intro r σ τ hlater hpost
  cases r with
  | ok principal =>
    show ∃ row, RowOf crypto q row ∧ ∃ step ∈ τ.own i, Records step row
    rw [hlater.2]
    exact hpost
  | error e =>
    show ∀ step ∈ τ.own i, _
    rw [hlater.2]
    exact hpost

/-- A thread has recorded a nonce. -/
def Recorded (i : Nat) (row : RequestNonceRow) (σ : Log World Write GuardRequest) : Prop :=
  ∃ step ∈ σ.own i, Records step row

theorem Recorded.later {row : RequestNonceRow} (h : Recorded i row σ)
    (hlater : (nonceOutline crypto).Later i σ τ) : Recorded i row τ := by
  rw [Recorded, hlater.2]
  exact h

theorem Recorded.perform {row : RequestNonceRow} (h : Recorded i row σ) (w : Write) :
    Recorded i row (σ.perform exec i q w) := by
  obtain ⟨step, hstep, hrecords⟩ := h
  refine ⟨step, ?_, hrecords⟩
  rw [Log.own_perform_self]
  exact List.mem_cons_of_mem _ hstep

theorem recorded_createNonce {row : RequestNonceRow} (hadmits : σ.shared.admitsNonce row.nonce) :
    Recorded i row (σ.perform exec i q (.createNonce row)) := by
  refine ⟨⟨i, q, .createNonce row, σ.shared⟩, ?_, rfl, hadmits⟩
  rw [Log.own_perform_self]
  exact List.mem_cons_self

/-- What `consumeNonce` answers, and what it has done. -/
def consumePost (i : Nat) (row : RequestNonceRow) :
    Except HttpException Bool → Log World Write GuardRequest → Prop
  | .ok true, σ => Recorded i row σ
  | .ok false, σ => ∀ step ∈ σ.own i, Untouched step
  | .error _, _ => False

theorem safe_consumeNonce (nonce : String) (sentAt : Date) (hown : ∀ step ∈ σ.own i, Untouched step) :
    (nonceOutline crypto).Safe i q (consumePost i ⟨nonce, "agent", nonceExpiresAt sentAt⟩)
      (consumeNonce nonce sentAt) σ := by
  unfold consumeNonce
  rw [Prog.perform_bind]
  intro τ hlater hτ
  refine ⟨?_, hτ.createNonce _, ?_⟩
  · show τ.shared.api.clock ≤ (exec _ τ.shared).api.clock
    simp only [exec]
    split <;> exact le_refl _
  rw [← hlater.2] at hown
  dsimp only
  split
  · -- The nonce is taken, and the table stays as it was.
    rename_i hnot
    show ∀ step ∈ (τ.perform exec i q _).own i, Untouched step
    rw [Log.own_perform_self, List.forall_mem_cons]
    refine ⟨?_, hown⟩
    simp only [Untouched, exec]
    rw [if_neg hnot]
  · rename_i hadmits
    have hrecorded : Recorded i ⟨nonce, "agent", nonceExpiresAt sentAt⟩ (τ.perform exec i q _) :=
      recorded_createNonce (not_not.mp hadmits)
    rw [Prog.perform_bind]
    intro υ hlaterυ hυ
    refine ⟨le_refl _, hυ.untouched (fun _ h => by cases h) rfl rfl, ?_⟩
    have hrandom := (hrecorded.later hlaterυ).perform (q := q) .random
    dsimp only
    split
    · rw [newDate_bind]
      intro φ hlaterφ hφ
      refine ⟨le_refl _, hφ.untouched (fun _ h => by cases h) rfl rfl, ?_⟩
      intro ψ hlaterψ hψ
      -- The sweep takes what had expired when the clock was read.
      refine ⟨le_refl _, hψ.sweepNonces hlaterψ.1, ?_⟩
      exact (((hrandom.later hlaterφ).perform _).later hlaterψ).perform _
    · exact hrandom

theorem safe_admitRequest {h : Headers} {sentAt : Date} (hheaders : q.signed.headers = some h)
    (hsent : crypto.parseDate h.timestamp = some sentAt)
    (hown : ∀ step ∈ σ.own i, Untouched step) :
    (nonceOutline crypto).Safe i q (guardPost crypto i q)
      (admitRequest q.allowsUnenrolled h sentAt) σ := by
  unfold admitRequest
  rw [select_bind]
  intro τ hlater hτ
  have hτ' : NonceInv (τ.perform exec i q (.select .devices)) := hτ.untouched (fun _ => nofun) rfl rfl
  refine ⟨le_refl _, hτ', ?_⟩
  have hselect : ∀ step ∈ (τ.perform exec i q (.select .devices)).own i, Untouched step := by
    rw [Log.own_perform_self, hlater.2, List.forall_mem_cons]
    exact ⟨rfl, hown⟩
  dsimp only
  split
  · exact hselect
  · refine (safe_consumeNonce h.nonce sentAt hselect).bind hτ' (fun consumed υ _ hυ hpost => ?_)
      fun e υ _ _ hpost => hpost.elim
    cases consumed with
    | false => exact hpost
    | true =>
      exact ⟨_, ⟨h, sentAt, hheaders, hsent, rfl⟩, hpost⟩

/-- **One request before the guard.** -/
theorem safe_canActivate (hown : σ.own i = []) :
    (nonceOutline crypto).Safe i q (guardPost crypto i q)
      (canActivate crypto q.allowsUnenrolled q.signed) σ := by
  have hnone : ∀ step ∈ σ.own i, Untouched step := by
    rw [hown]
    exact fun step hstep => absurd hstep List.not_mem_nil
  unfold canActivate
  split
  · exact hnone
  rename_i h hheaders
  split
  · exact hnone
  rename_i sentAt hsent
  rw [dateNow_bind]
  intro τ hlater hτ
  have hτ' : NonceInv (τ.perform exec i q .dateNow) := hτ.untouched (fun _ => nofun) rfl rfl
  refine ⟨le_refl _, hτ', ?_⟩
  have hread : ∀ step ∈ (τ.perform exec i q .dateNow).own i, Untouched step := by
    rw [Log.own_perform_self, hlater.2, List.forall_mem_cons]
    exact ⟨rfl, hnone⟩
  dsimp only
  split
  · exact hread
  split
  · exact hread
  · exact safe_admitRequest hheaders hsent hread

/-! ## Whole runs -/

theorem nonceInv_initial (w : World) : NonceInv ⟨w, []⟩ :=
  ⟨fun _ hstep => absurd hstep List.not_mem_nil, .nil⟩

/-- The rows of two copies are the same. -/
theorem Copies.row_eq {q' : GuardRequest} {row row' : RequestNonceRow} (h : Copies q q')
    (hrow : RowOf crypto q row) (hrow' : RowOf crypto q' row') : row = row' := by
  obtain ⟨headers, sentAt, hheaders, hsent, rfl⟩ := hrow
  obtain ⟨headers', sentAt', hheaders', hsent', rfl⟩ := hrow'
  obtain ⟨hnonce, htimestamp⟩ := headers_of_copies h hheaders hheaders'
  rw [htimestamp, hsent'] at hsent
  cases hsent
  rw [hnonce]

theorem good_guardRun (crypto : Crypto) (w : World) (moves : List (Move GuardRequest Meanwhile)) :
    (nonceOutline crypto).Good (guardPost crypto) (guardRun crypto w moves) := by
  refine (Outline.sound (stable_guardPost crypto) (fun i q σ _ hown => ?_) moves
    (Outline.good_initial (nonceInv_initial w))).1
  exact safe_canActivate hown

/-- **A signed request is accepted once.** In every run of requests before the guard, repeated, delayed
and interleaved with sweeps: of the copies of one request at most one is let in, as long as none comes to
record its nonce after the row of that nonce may have been swept; and a request that is refused, for
whatever reason, leaves the table of nonces as it was. -/
theorem accepted_once (crypto : Crypto) (w : World) (moves : List (Move GuardRequest Meanwhile)) :
    (InTime (guardRun crypto w moves).log.history → ∀ i j q q' principal principal',
      (guardRun crypto w moves).Answered i q principal →
      (guardRun crypto w moves).Answered j q' principal' → Copies q q' → i = j) ∧
    ∀ i q e, (guardRun crypto w moves).threads[i]? = some ⟨q, .raise e⟩ →
      ∀ step ∈ (guardRun crypto w moves).log.own i, Untouched step := by
  have hgood := good_guardRun crypto w moves
  refine ⟨fun hintime i j q q' principal principal' hi hj hcopies => ?_,
    fun i q e he => hgood.safe i _ he⟩
  by_contra hij
  obtain ⟨row, hrow, step, hstep, hrecords⟩ := hgood.answered hi
  obtain ⟨row', hrow', step', hstep', hrecords'⟩ := hgood.answered hj
  obtain rfl := hcopies.row_eq hrow hrow'
  have hle := hintime.le (List.mem_of_mem_filter hstep) hrecords.1
  have hle' := hintime.le (List.mem_of_mem_filter hstep') hrecords'.1
  -- Whichever came second found the clock past the expiry of their row.
  rcases Log.rel_of_pairwise hgood.inv.once hij hstep hstep' with hlater | hlater
  · exact absurd (hlater row row hrecords hrecords' rfl) (not_lt.mpr hle)
  · exact absurd (hlater row row hrecords' hrecords rfl) (not_lt.mpr hle')

/-! ## Two copies of one request -/

/-- 32 bytes in base64url. -/
def plainKey : String := "AAAAAAAAAAAAAAAAAAAAAAAAAAAAAAAAAAAAAAAAAAA"

/-- 64 bytes in base64url. -/
def plainSignature : String := String.ofList (List.replicate 86 'A')

/-- A platform on which every signature is good. -/
def plainCrypto : Crypto where
  parseDate text :=
    if text = "1970-01-01T00:00:00.000Z" then some 0
    else if text = "1970-01-01T00:10:01.000Z" then some 601000
    else none
  base64url text := (Text.rawURLDecode text).getD []
  digest _ := "47DEQpj8HBSa-_TImW-5JCeuQeRkm5NMpJWZG3hSuFU"
  scheme _ _ _ := true

/-- A control plane with one enrolled device. -/
def plainWorld : World where
  api := ⟨⟨[], [], [], [], nofun, nofun⟩, [], [], [], [], [], [], 0, ⟨"u", by decide⟩, ⟨"r", by decide⟩⟩
  users := []
  accountGuards := []
  devices := [⟨"d1", "u1", "install", "Study", "linux", "agent", none, none, plainKey, true, some 0, 0,
    none, none, none, none⟩]
  refreshTokens := []
  challenges := []
  enrollmentTokens := []
  agents := []
  requestNonces := []
  subscribers := []
  statuses := []
  outbox := []
  otp := "000000"
  secret := "secret"
  family := "family"
  lucky := false
  throttled := false
  refusesNonce := false
  refusesMail := false

/-- A heartbeat with a timestamp and a nonce. -/
def plainRequest (timestamp nonce : String) : GuardRequest where
  allowsUnenrolled := false
  signed := ⟨some "install", some plainKey, some timestamp, some nonce, some plainSignature, "POST",
    "/api/agent/heartbeat", []⟩

/-- A heartbeat of the first moment. -/
def earlyRequest : GuardRequest := plainRequest "1970-01-01T00:00:00.000Z" "n1"

/-- Both copies of a request pass the check of the timestamp, and the second is held up. -/
def heldUp : List (Move GuardRequest Meanwhile) :=
  [.call earlyRequest, .call earlyRequest, .step 0, .step 1, .step 0, .step 0, .step 0]

/-- Ten minutes later another request comes in and sweeps the table, and then the second copy goes on. -/
def sweptMeanwhile : List (Move GuardRequest Meanwhile) :=
  [.env (.tick 601000), .call (plainRequest "1970-01-01T00:10:01.000Z" "n2"), .step 2, .step 2, .step 2,
    .env (.rest { plainWorld with lucky := true }), .step 2, .step 2, .step 2, .env (.rest plainWorld),
    .step 1, .step 1, .step 1]

/-- The device of `plainWorld`. -/
def plainPrincipal : AgentPrincipal := ⟨"d1", "u1", "install", plainKey⟩

/-- A request, and then a copy of it. -/
def inTurn : List (Move GuardRequest Meanwhile) :=
  [.call earlyRequest, .step 0, .step 0, .step 0, .step 0, .env (.tick 1000),
    .call earlyRequest, .step 1, .step 1, .step 1]

/-- The copy is refused, and it is refused wherever it comes. -/
theorem accepted_once_inTurn :
    (guardRun plainCrypto plainWorld inTurn).Answered 0 earlyRequest plainPrincipal ∧
      ∀ j principal, (guardRun plainCrypto plainWorld inTurn).Answered j earlyRequest principal →
        0 = j := by
  have hfirst : (guardRun plainCrypto plainWorld inTurn).Answered 0 earlyRequest plainPrincipal := rfl
  have hintime : InTime (guardRun plainCrypto plainWorld inTurn).log.history := by
    unfold InTime
    decide
  refine ⟨hfirst, fun j principal hj => ?_⟩
  exact (accepted_once plainCrypto plainWorld inTurn).1 hintime 0 j _ _ _ principal hfirst hj ⟨rfl, rfl⟩

/-- The second copy is accepted as the first one was. -/
theorem accepted_twice :
    (guardRun plainCrypto plainWorld (heldUp ++ sweptMeanwhile)).Answered 0 earlyRequest plainPrincipal ∧
      (guardRun plainCrypto plainWorld (heldUp ++ sweptMeanwhile)).Answered 1 earlyRequest
        plainPrincipal := ⟨rfl, rfl⟩

end Account
