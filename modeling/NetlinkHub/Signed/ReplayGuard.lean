import Mathlib.Order.Lattice
import Mathlib.Data.List.Basic

/-! # A replay guard that forgets

A set of spent nonces, each kept until an expiry. Remembering a nonce first drops every entry whose
expiry is past, and then refuses a nonce that is still there. Over a run of attempts in the order of
time, a nonce is accepted once exactly when no later attempt with it comes after the expiry its first
attempt brought along (`accepted_once_iff`). What is refused never counts: taking refused requests out of a
run changes no other answer (`results_kept`). Nonces and times are of any type. -/

namespace ReplayGuard

variable {N T : Type*} [DecidableEq N] [LinearOrder T]

/-- Drop the entries whose expiry is before the reading of the clock. -/
def prune (reading : T) (seen : List (N × T)) : List (N × T) :=
  seen.filter fun entry => ¬ entry.2 < reading

/-- Record a nonce as spent, and say whether it was not spent before. -/
def remember (reading : T) (nonce : N) (expiry : T) (seen : List (N × T)) : Bool × List (N × T) :=
  if nonce ∈ (prune reading seen).map Prod.fst then (false, prune reading seen)
  else (true, (nonce, expiry) :: prune reading seen)

/-- One attempt to spend a nonce. -/
structure Attempt (N T : Type*) where
  nonce : N
  expiry : T
  reading : T

/-- The attempts of a run that are accepted. -/
def accepted : List (Attempt N T) → List (N × T) → List (Attempt N T)
  | [], _ => []
  | a :: rest, seen =>
    let (fresh, seen) := remember a.reading a.nonce a.expiry seen
    if fresh then a :: accepted rest seen else accepted rest seen

/-- The attempts with a nonce. -/
abbrev withNonce (x : N) (as : List (Attempt N T)) : List (Attempt N T) :=
  as.filter (·.nonce = x)

/-- No later attempt with the nonce reads a clock past the expiry of the first one. -/
def Kept (x : N) (as : List (Attempt N T)) : Prop :=
  ∀ first rest, withNonce x as = first :: rest → ∀ a ∈ rest, a.reading ≤ first.expiry

variable {x nonce : N} {expiry reading u : T} {seen : List (N × T)} {as : List (Attempt N T)}
  {a : Attempt N T}

/-! ## One attempt -/

omit [DecidableEq N] in
theorem mem_prune {entry : N × T} :
    entry ∈ prune reading seen ↔ entry ∈ seen ∧ reading ≤ entry.2 := by
  simp [prune]

/-- An entry that has not expired is still there after an attempt, whatever the attempt. -/
theorem mem_remember_of_le (h : (x, u) ∈ seen) (hle : reading ≤ u) :
    (x, u) ∈ (remember reading nonce expiry seen).2 := by
  have hp : (x, u) ∈ prune reading seen := mem_prune.mpr ⟨h, hle⟩
  unfold remember
  split
  · exact hp
  · exact List.mem_cons_of_mem _ hp

/-- A nonce with an entry that has not expired is refused. -/
theorem remember_eq_false (h : (nonce, u) ∈ seen) (hle : reading ≤ u) :
    (remember reading nonce expiry seen).1 = false := by
  rw [remember, if_pos (List.mem_map.mpr ⟨_, mem_prune.mpr ⟨h, hle⟩, rfl⟩)]

/-- A nonce all of whose entries have expired is accepted. -/
theorem remember_eq_true (h : ∀ entry ∈ seen, entry.1 = nonce → entry.2 < reading) :
    remember reading nonce expiry seen = (true, (nonce, expiry) :: prune reading seen) := by
  rw [remember, if_neg]
  intro hmem
  obtain ⟨entry, hentry, hnonce⟩ := List.mem_map.mp hmem
  obtain ⟨hseen, hle⟩ := mem_prune.mp hentry
  exact absurd hle (not_le.mpr (h entry hseen hnonce))

/-- An entry after an attempt is one from before, or the attempt's own, accepted. -/
theorem mem_remember {entry : N × T} (h : entry ∈ (remember reading nonce expiry seen).2) :
    entry ∈ seen ∨ (entry = (nonce, expiry) ∧ (remember reading nonce expiry seen).1 = true) := by
  unfold remember at h ⊢
  split at h
  · exact .inl (mem_prune.mp h).1
  · rename_i hfresh
    rcases List.mem_cons.mp h with h | h
    · exact .inr ⟨h, by rw [if_neg hfresh]⟩
    · exact .inl (mem_prune.mp h).1

/-- The entry of an accepted nonce is there afterwards. -/
theorem mem_of_remember (h : (remember reading nonce expiry seen).1 = true) :
    (nonce, expiry) ∈ (remember reading nonce expiry seen).2 := by
  unfold remember at h ⊢
  split
  · rename_i hspent
    rw [if_pos hspent] at h
    cases h
  · exact List.mem_cons_self

/-! ## A run of attempts -/

theorem accepted_cons (a : Attempt N T) (as : List (Attempt N T)) (seen : List (N × T)) :
    accepted (a :: as) seen = if (remember a.reading a.nonce a.expiry seen).1
      then a :: accepted as (remember a.reading a.nonce a.expiry seen).2
      else accepted as (remember a.reading a.nonce a.expiry seen).2 := rfl

/-- What is accepted was attempted. -/
theorem accepted_subset (as : List (Attempt N T)) (seen : List (N × T)) :
    accepted as seen ⊆ as := by
  induction as generalizing seen with
  | nil => exact List.Subset.refl _
  | cons a as ih =>
    rw [accepted_cons]
    split
    · exact List.cons_subset_cons a (ih _)
    · exact List.subset_cons_of_subset a (ih _)

/-- **A remembered nonce is refused** as long as every attempt with it comes before its entry
expires. -/
theorem not_accepted_of_mem (h : (x, u) ∈ seen)
    (hsorted : as.Pairwise fun a b => a.reading ≤ b.reading)
    (hle : ∀ a ∈ as, a.nonce = x → a.reading ≤ u) : ∀ a ∈ accepted as seen, a.nonce ≠ x := by
  induction as generalizing seen with
  | nil => simp [accepted]
  | cons b as ih =>
    rw [List.pairwise_cons] at hsorted
    by_cases hlater : ∃ a ∈ b :: as, a.nonce = x
    · -- The attempt `b` comes no later than one with the nonce, so the entry outlives it.
      have hb : b.reading ≤ u := by
        obtain ⟨a, ha, hax⟩ := hlater
        rcases List.mem_cons.mp ha with rfl | has
        · exact hle a ha hax
        · exact (hsorted.1 a has).trans (hle a ha hax)
      have hkept : (x, u) ∈ (remember b.reading b.nonce b.expiry seen).2 := mem_remember_of_le h hb
      have hrest := ih hkept hsorted.2 fun a ha => hle a (List.mem_cons_of_mem _ ha)
      rw [accepted_cons]
      split
      · rename_i hfresh
        rw [List.forall_mem_cons]
        refine ⟨fun hx => ?_, hrest⟩
        subst hx
        rw [remember_eq_false h hb] at hfresh
        cases hfresh
      · exact hrest
    · intro a ha hx
      exact hlater ⟨a, accepted_subset _ _ ha, hx⟩

/-- **A forgotten nonce is accepted again**: some attempt with it comes after every entry it has. -/
theorem exists_accepted_of_lt (hall : ∀ entry ∈ seen, entry.1 = x → entry.2 ≤ u)
    (hlate : ∃ a ∈ as, a.nonce = x ∧ u < a.reading) : ∃ a ∈ accepted as seen, a.nonce = x := by
  induction as generalizing seen with
  | nil => simp at hlate
  | cons b as ih =>
    rw [accepted_cons]
    by_cases hb : b.nonce = x ∧ (remember b.reading b.nonce b.expiry seen).1 = true
    · rw [if_pos hb.2]
      exact ⟨b, List.mem_cons_self, hb.1⟩
    · have hlater : ∃ a ∈ as, a.nonce = x ∧ u < a.reading := by
        obtain ⟨a, ha, hax, hlt⟩ := hlate
        rcases List.mem_cons.mp ha with rfl | ha
        · refine absurd ⟨hax, ?_⟩ hb
          rw [remember_eq_true fun entry hentry he => lt_of_le_of_lt (hall entry hentry (he.trans hax)) hlt]
        · exact ⟨a, ha, hax, hlt⟩
      have hall' : ∀ entry ∈ (remember b.reading b.nonce b.expiry seen).2,
          entry.1 = x → entry.2 ≤ u := by
        intro entry hentry hx
        rcases mem_remember hentry with h | ⟨rfl, hfresh⟩
        · exact hall entry h hx
        · exact absurd ⟨hx, hfresh⟩ hb
      obtain ⟨a, ha, hax⟩ := ih hall' hlater
      split
      · exact ⟨a, List.mem_cons_of_mem _ ha, hax⟩
      · exact ⟨a, ha, hax⟩

/-- **Accepted once.** Over a run of attempts in the order of time, from a guard that has no entry
for a nonce, the nonce is accepted at most once exactly when its first entry is kept until the last
attempt with it. -/
theorem accepted_once_iff (hnone : ∀ entry ∈ seen, entry.1 ≠ x)
    (hsorted : as.Pairwise fun a b => a.reading ≤ b.reading) :
    (withNonce x (accepted as seen)).length ≤ 1 ↔ Kept x as := by
  induction as generalizing seen with
  | nil => simp [accepted, Kept]
  | cons b as ih =>
    rw [List.pairwise_cons] at hsorted
    by_cases hb : b.nonce = x
    · subst hb
      have hfresh : remember b.reading b.nonce b.expiry seen =
          (true, (b.nonce, b.expiry) :: prune b.reading seen) :=
        remember_eq_true fun entry hentry he => absurd he (hnone entry hentry)
      have hmem : (b.nonce, b.expiry) ∈ (b.nonce, b.expiry) :: prune b.reading seen :=
        List.mem_cons_self
      have hnotin : (withNonce b.nonce (accepted as
          ((b.nonce, b.expiry) :: prune b.reading seen))).length = 0 ↔
          ∀ a ∈ as, a.nonce = b.nonce → a.reading ≤ b.expiry := by
        rw [List.length_eq_zero_iff, List.filter_eq_nil_iff]
        constructor
        · intro hno a ha hax
          by_contra hlt
          have hentries : ∀ entry ∈ (b.nonce, b.expiry) :: prune b.reading seen,
              entry.1 = b.nonce → entry.2 ≤ b.expiry := by
            intro entry hentry he
            rcases List.mem_cons.mp hentry with rfl | h
            · exact le_rfl
            · exact absurd he (hnone entry (mem_prune.mp h).1)
          obtain ⟨a', ha', hx⟩ := exists_accepted_of_lt hentries ⟨a, ha, hax, not_le.mp hlt⟩
          exact hno a' ha' (by simpa using hx)
        · intro hle a ha
          simpa using not_accepted_of_mem hmem hsorted.2 hle a ha
      rw [accepted_cons, hfresh, if_pos rfl, withNonce, List.filter_cons_of_pos (by simp)]
      have hone : ∀ n : ℕ, n + 1 ≤ 1 ↔ n = 0 := by omega
      rw [List.length_cons, hone, hnotin, Kept, withNonce, List.filter_cons_of_pos (by simp)]
      constructor
      · rintro h first rest he a ha
        rw [List.cons.injEq] at he
        obtain ⟨rfl, rfl⟩ := he
        obtain ⟨ha, hax⟩ := List.mem_filter.mp ha
        exact h a ha (by simpa using hax)
      · intro h a ha hax
        exact h b _ rfl a (List.mem_filter.mpr ⟨ha, by simpa using hax⟩)
    · have hstep : (withNonce x (accepted (b :: as) seen)) = withNonce x (accepted as
          (remember b.reading b.nonce b.expiry seen).2) := by
        rw [accepted_cons]
        split
        · rw [withNonce, List.filter_cons_of_neg (by simpa using hb)]
        · rfl
      have hkept : Kept x (b :: as) ↔ Kept x as := by
        rw [Kept, Kept, withNonce, List.filter_cons_of_neg (by simpa using hb)]
      rw [hstep, hkept]
      refine ih (fun entry hentry => ?_) hsorted.2
      rcases mem_remember hentry with h | ⟨rfl, -⟩
      · exact hnone entry h
      · exact hb

/-! ## A gate with a guard

Requests go through checks that read one clock, and those that pass spend a nonce at a guard that
reads a clock of its own, later. -/

section Gate

/-- A request with the two readings of the clock its handling takes. -/
structure Call (R T : Type*) where
  request : R
  now : T
  reading : T

variable {R C E : Type*} (checks : R → T → Except E C) (nonce : C → N) (expiry : C → T) (replayed : E)

/-- Check one request and spend its nonce. -/
def pass (call : Call R T) (seen : List (N × T)) : Except E C × List (N × T) :=
  match checks call.request call.now with
  | .error e => (.error e, seen)
  | .ok c =>
    let (fresh, seen) := remember call.reading (nonce c) (expiry c) seen
    (if fresh then .ok c else .error replayed, seen)

/-- What a run of requests gets through. -/
def passed : List (Call R T) → List (N × T) → List C
  | [], _ => []
  | call :: calls, seen =>
    match pass checks nonce expiry replayed call seen with
    | (.ok c, seen) => c :: passed calls seen
    | (.error _, seen) => passed calls seen

/-- The attempts at the guard that the requests of a run make. -/
def attempts (calls : List (Call R T)) : List (Attempt N T) :=
  calls.filterMap fun call =>
    match checks call.request call.now with
    | .error _ => none
    | .ok c => some ⟨nonce c, expiry c, call.reading⟩

/-- The clock never goes back, from one reading of a run to the next. -/
def ClockAdvances (calls : List (Call R T)) : Prop :=
  (calls.flatMap fun call => [call.now, call.reading]).Pairwise (· ≤ ·)

variable {checks nonce expiry replayed} {calls : List (Call R T)}

/-- **What a gate can do**: refuse at the checks and leave the guard as it is, or come to the guard, and
then let through exactly what is fresh there. -/
theorem pass_cases (checks : R → T → Except E C) (nonce : C → N) (expiry : C → T) (replayed : E)
    (call : Call R T) (seen : List (N × T)) :
    (∃ e, pass checks nonce expiry replayed call seen = (.error e, seen)) ∨
    ∃ c, checks call.request call.now = .ok c ∧
      pass checks nonce expiry replayed call seen =
        (if (remember call.reading (nonce c) (expiry c) seen).1 then .ok c else .error replayed,
          (remember call.reading (nonce c) (expiry c) seen).2) := by
  unfold pass
  cases checks call.request call.now with
  | error e => exact .inl ⟨e, rfl⟩
  | ok c => exact .inr ⟨c, rfl, rfl⟩

/-- What gets through is what the guard accepts. -/
theorem map_nonce_passed (calls : List (Call R T)) (seen : List (N × T)) :
    (passed checks nonce expiry replayed calls seen).map nonce =
      (accepted (attempts checks nonce expiry calls) seen).map Attempt.nonce := by
  induction calls generalizing seen with
  | nil => rfl
  | cons call calls ih =>
    rw [passed, pass, attempts, List.filterMap_cons]
    cases checks call.request call.now with
    | error e => exact ih seen
    | ok c =>
      simp only
      rw [accepted_cons]
      cases hr : remember call.reading (nonce c) (expiry c) seen with
      | mk fresh seen' =>
        cases fresh with
        | true => exact congrArg (nonce c :: ·) (ih seen')
        | false => exact ih seen'

omit [DecidableEq N] in
theorem attempts_pairwise (h : ClockAdvances calls) :
    (attempts checks nonce expiry calls).Pairwise fun a b => a.reading ≤ b.reading := by
  have hcalls : calls.Pairwise fun a b => a.reading ≤ b.reading := by
    refine (List.pairwise_flatMap.mp h).2.imp fun {a b} hab => ?_
    exact hab a.reading (by simp) b.reading (by simp)
  refine hcalls.filterMap _ fun a b hab a' ha' b' hb' => ?_
  split at ha'
  · cases ha'
  · split at hb'
    · cases hb'
    · cases ha'
      cases hb'
      exact hab

/-- **A nonce gets through once.** Over a run of requests under a clock that never goes back, a nonce
gets through at most once exactly when its first entry is kept until the last attempt with it. -/
theorem passed_once_iff (x : N) (h : ClockAdvances calls) :
    ((passed checks nonce expiry replayed calls []).filter (nonce · = x)).length ≤ 1 ↔
      Kept x (attempts checks nonce expiry calls) := by
  have hnone : ∀ entry ∈ ([] : List (N × T)), entry.1 ≠ x := by simp
  rw [← accepted_once_iff hnone (attempts_pairwise h)]
  have hmap : (passed checks nonce expiry replayed calls []).map nonce =
    (accepted (attempts checks nonce expiry calls) []).map Attempt.nonce := map_nonce_passed calls []
  have hcount := congrArg (List.count x) hmap
  rw [List.count_eq_countP, List.countP_map, List.count_eq_countP, List.countP_map] at hcount
  rw [withNonce, ← List.countP_eq_length_filter, ← List.countP_eq_length_filter]
  have hsame : ∀ m n : ℕ, m = n → (m ≤ 1 ↔ n ≤ 1) := fun m n h => by rw [h]
  refine hsame _ _ ?_
  simpa [Function.comp_def, beq_eq_decide] using hcount

end Gate

/-! ## The lifetime of a process

A process writes down each nonce it lets through, with the latest reading of its clock at that moment,
newest first. As long as no guard is replaced while something let through is unexpired, no nonce is
let through twice before its first expiry is past. -/

section Lifetime

/-- A nonce that was let through: its expiry, and the latest reading of the clock so far. -/
structure Use (N T : Type*) where
  nonce : N
  expiry : T
  time : T

/-- A nonce is let through again only after a reading of the clock past its first expiry. -/
def OnceWhileLive (uses : List (Use N T)) : Prop :=
  uses.Pairwise fun later earlier => later.nonce = earlier.nonce → earlier.expiry < later.time

/-- What a guard owes to the uses so far: each has expired or is still held. -/
structure Lifetime (latest : T) (uses : List (Use N T)) (seen : List (N × T)) : Prop where
  held : ∀ u ∈ uses, u.expiry < latest ∨ (u.nonce, u.expiry) ∈ seen
  once : OnceWhileLive uses

variable {latest later : T} {uses : List (Use N T)}

omit [DecidableEq N] in
theorem Lifetime.nil (latest : T) (seen : List (N × T)) : Lifetime latest [] seen :=
  ⟨by simp, List.Pairwise.nil⟩

omit [DecidableEq N] in
/-- Time passes. -/
theorem Lifetime.mono (h : Lifetime latest uses seen) (hle : latest ≤ later) :
    Lifetime later uses seen :=
  ⟨fun u hu => (h.held u hu).imp_left fun hlt => hlt.trans_le hle, h.once⟩

omit [DecidableEq N] in
/-- A new guard will do once everything let through has expired. -/
theorem Lifetime.renew (h : Lifetime latest uses seen) (hexp : ∀ u ∈ uses, u.expiry < later) :
    Lifetime later uses [] :=
  ⟨fun u hu => .inl (hexp u hu), h.once⟩

/-- An attempt at a clock reading no later than the latest one, whatever comes of it. -/
theorem Lifetime.remember (nonce : N) (expiry : T) (h : Lifetime latest uses seen)
    (hle : reading ≤ latest) : Lifetime latest uses (remember reading nonce expiry seen).2 := by
  refine ⟨fun u hu => ?_, h.once⟩
  rcases h.held u hu with hlt | hmem
  · exact .inl hlt
  · by_cases hexp : u.expiry < reading
    · exact .inl (hexp.trans_le hle)
    · exact .inr (mem_remember_of_le hmem (not_lt.mp hexp))

/-- **An attempt that is accepted** is let through before no live use of its nonce. -/
theorem Lifetime.use (h : Lifetime latest uses seen) (hle : reading ≤ latest)
    (hfresh : (ReplayGuard.remember reading nonce expiry seen).1 = true) :
    Lifetime latest (⟨nonce, expiry, latest⟩ :: uses)
      (ReplayGuard.remember reading nonce expiry seen).2 := by
  constructor
  · intro u hu
    rcases List.mem_cons.mp hu with rfl | hu
    · exact .inr (mem_of_remember hfresh)
    · exact (h.remember _ _ hle).held u hu
  · refine List.pairwise_cons.mpr ⟨fun u hu hnonce => ?_, h.once⟩
    rcases h.held u hu with hlt | hmem
    · exact hlt
    · -- The entry is still there, so it had expired by the reading: else the attempt fails.
      by_contra hlive
      have hreading : reading ≤ u.expiry := hle.trans (not_lt.mp hlive)
      have hrefused : (ReplayGuard.remember reading u.nonce expiry seen).1 = false :=
        remember_eq_false hmem hreading
      rw [show nonce = u.nonce from hnonce, hrefused] at hfresh
      cases hfresh

end Lifetime

/-! ## Requests that are taken out

Two runs, one of which leaves out requests that are refused. Their guards may drop an entry at different
times, but hold the same entries that have not expired. -/

section Removal

variable {seen' : List (N × T)} {latest : T}

/-- Two guards that hold the same entries, but for those that have expired. -/
def Agree (latest : T) (seen seen' : List (N × T)) : Prop :=
  ∀ entry : N × T, latest ≤ entry.2 → (entry ∈ seen ↔ entry ∈ seen')

omit [DecidableEq N] in
theorem Agree.refl (latest : T) (seen : List (N × T)) : Agree latest seen seen := fun _ _ => Iff.rfl

omit [DecidableEq N] in
theorem Agree.mem_prune (h : Agree latest seen seen') (hle : latest ≤ reading) (entry : N × T) :
    entry ∈ prune reading seen ↔ entry ∈ prune reading seen' := by
  rw [ReplayGuard.mem_prune, ReplayGuard.mem_prune]
  exact and_congr_left fun hexp => h entry (hle.trans hexp)

/-- Guards that agree accept the same nonces, and agree afterwards. -/
theorem Agree.remember (h : Agree latest seen seen') (hle : latest ≤ reading) (nonce : N) (expiry : T) :
    (ReplayGuard.remember reading nonce expiry seen).1 = (ReplayGuard.remember reading nonce expiry seen').1 ∧
      Agree reading (ReplayGuard.remember reading nonce expiry seen).2
        (ReplayGuard.remember reading nonce expiry seen').2 := by
  have hprune := h.mem_prune hle
  have hspent : nonce ∈ (prune reading seen).map Prod.fst ↔ nonce ∈ (prune reading seen').map Prod.fst := by
    simp only [List.mem_map, hprune]
  unfold ReplayGuard.remember
  by_cases hmem : nonce ∈ (prune reading seen).map Prod.fst
  · rw [if_pos hmem, if_pos (hspent.mp hmem)]
    exact ⟨rfl, fun entry _ => hprune entry⟩
  · rw [if_neg hmem, if_neg (hspent.not.mp hmem)]
    refine ⟨rfl, fun entry _ => ?_⟩
    rw [List.mem_cons, List.mem_cons, hprune]

/-- An attempt that is refused changes nothing that has not expired. -/
theorem Agree.of_refused (h : Agree latest seen seen') (hle : latest ≤ reading)
    (hrefused : (ReplayGuard.remember reading nonce expiry seen).1 = false) :
    Agree reading (ReplayGuard.remember reading nonce expiry seen).2 seen' := by
  intro entry hexp
  unfold ReplayGuard.remember at hrefused ⊢
  split
  · rw [ReplayGuard.mem_prune, h entry (hle.trans hexp)]
    exact and_iff_left hexp
  · rename_i hfresh
    rw [if_neg hfresh] at hrefused
    cases hrefused

omit [DecidableEq N] in
theorem Agree.mono (h : Agree latest seen seen') (hle : latest ≤ reading) : Agree reading seen seen' :=
  fun entry hexp => h entry (hle.trans hexp)

variable {R C E : Type*} {checks : R → T → Except E C} {nonce : C → N} {expiry : C → T} {replayed : E}
  {call : Call R T} {e : E}

/-- A request is judged alike by guards that agree, and they agree afterwards. -/
theorem Agree.pass (h : Agree latest seen seen') (hle : latest ≤ call.reading) :
    (ReplayGuard.pass checks nonce expiry replayed call seen).1 =
        (ReplayGuard.pass checks nonce expiry replayed call seen').1 ∧
      Agree call.reading (ReplayGuard.pass checks nonce expiry replayed call seen).2
        (ReplayGuard.pass checks nonce expiry replayed call seen').2 := by
  unfold ReplayGuard.pass
  cases checks call.request call.now with
  | error e => exact ⟨rfl, h.mono hle⟩
  | ok c =>
    obtain ⟨hsame, hagree⟩ := h.remember hle (nonce c) (expiry c)
    exact ⟨by simp only [hsame], hagree⟩

/-- **A request that is refused** may as well not have been made. -/
theorem Agree.pass_refused (h : Agree latest seen seen') (hle : latest ≤ call.reading)
    (hrefused : (ReplayGuard.pass checks nonce expiry replayed call seen).1 = .error e) :
    Agree call.reading (ReplayGuard.pass checks nonce expiry replayed call seen).2 seen' := by
  unfold ReplayGuard.pass at hrefused ⊢
  cases hchecks : checks call.request call.now with
  | error e => exact h.mono hle
  | ok c =>
    rw [hchecks] at hrefused
    refine h.of_refused hle (Bool.eq_false_iff.mpr fun hfresh => ?_)
    simp only [hfresh, if_true] at hrefused
    cases hrefused

variable (checks nonce expiry replayed)

/-- What a run of requests is answered, one by one. -/
def results : List (Call R T) → List (N × T) → List (Except E C)
  | [], _ => []
  | call :: calls, seen =>
    let (result, seen) := pass checks nonce expiry replayed call seen
    result :: results calls seen

/-- A request, and whether it is kept. -/
abbrev Marked (R T : Type*) := Call R T × Bool

/-- The requests that are kept. -/
def keptCalls (marked : List (Marked R T)) : List (Call R T) := (marked.filter (·.2)).map Prod.fst

/-- The answers to the requests that are kept, in the run that makes them all. -/
def keptResults (marked : List (Marked R T)) (seen : List (N × T)) : List (Except E C) :=
  ((marked.zip (results checks nonce expiry replayed (marked.map Prod.fst) seen)).filter
    (·.1.2)).map Prod.snd

/-- Whatever is taken out is refused in the run that makes all requests. -/
def OnlyRefusedOut (marked : List (Marked R T)) (seen : List (N × T)) : Prop :=
  ∀ p ∈ marked.zip (results checks nonce expiry replayed (marked.map Prod.fst) seen),
    p.1.2 = false → ∃ e, p.2 = .error e

variable {checks nonce expiry replayed} {marked : List (Marked R T)}

omit [DecidableEq N] in
/-- Later requests read the clock no earlier than the first. -/
theorem reading_le_of_mem {kept : Bool} (hclock : ClockAdvances (((call, kept) :: marked).map Prod.fst)) :
    ∀ m ∈ marked, call.reading ≤ m.1.reading := by
  intro m hm
  refine (List.pairwise_append.mp hclock).2.2 call.reading (by simp) m.1.reading ?_
  exact List.mem_flatMap.mpr ⟨m.1, List.mem_map_of_mem hm, by simp⟩

/-- **Refused requests never count.** Under a clock that never goes back, taking refused requests out of a
run changes no answer to the others. -/
theorem results_kept (hclock : ClockAdvances (marked.map Prod.fst)) (hagree : Agree latest seen seen')
    (hle : ∀ m ∈ marked, latest ≤ m.1.reading)
    (hout : OnlyRefusedOut checks nonce expiry replayed marked seen) :
    results checks nonce expiry replayed (keptCalls marked) seen' =
      keptResults checks nonce expiry replayed marked seen := by
  induction marked generalizing latest seen seen' with
  | nil => rfl
  | cons m marked ih =>
    obtain ⟨call, kept⟩ := m
    have hnow : latest ≤ call.reading := hle _ List.mem_cons_self
    have hrest : ClockAdvances (marked.map Prod.fst) := (List.pairwise_append.mp hclock).2.1
    have hlater : ∀ m ∈ marked, call.reading ≤ m.1.reading := reading_le_of_mem hclock
    have hout' : OnlyRefusedOut checks nonce expiry replayed marked
        (pass checks nonce expiry replayed call seen).2 :=
      fun p hp => hout p (List.mem_cons_of_mem _ hp)
    cases kept with
    | true =>
      have hpass : (pass checks nonce expiry replayed call seen).1 =
            (pass checks nonce expiry replayed call seen').1 ∧
          Agree call.reading (pass checks nonce expiry replayed call seen).2
            (pass checks nonce expiry replayed call seen').2 := hagree.pass hnow
      obtain ⟨hsame, hagree'⟩ := hpass
      have hih := ih hrest hagree' hlater hout'
      simp only [keptCalls, keptResults, List.map_cons, List.filter_cons, results, List.zip_cons_cons,
        if_true] at hih ⊢
      rw [hsame, hih]
    | false =>
      obtain ⟨e, hrefused⟩ := hout _ List.mem_cons_self rfl
      have hih := ih hrest (hagree.pass_refused hnow hrefused) hlater hout'
      simpa [keptCalls, keptResults, results] using hih

/-- The same from one guard. -/
theorem results_kept_of_same (hclock : ClockAdvances (marked.map Prod.fst))
    (hout : OnlyRefusedOut checks nonce expiry replayed marked seen) :
    results checks nonce expiry replayed (keptCalls marked) seen =
      keptResults checks nonce expiry replayed marked seen := by
  cases marked with
  | nil => rfl
  | cons first rest =>
    refine results_kept hclock (.refl first.1.reading seen) (fun m hm => ?_) hout
    rcases List.mem_cons.mp hm with rfl | hm
    · exact le_rfl
    · exact reading_le_of_mem hclock m hm

end Removal

end ReplayGuard
