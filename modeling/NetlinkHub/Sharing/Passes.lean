import NetlinkHub.Sharing.Traces

/-! # The life of a pass

A pass is claimed by a conditional update and revoked by one without a condition. As long as no revocation
finds the pass claimed already, its status is settled once: one claim at most succeeds, what a claim has
written is there only if the pass is claimed, and a pass that was revoked has let nobody in
(`pass_settles`). -/

namespace Sharing

open Api (Date HttpException RequestContext Token)
open Concurrent (Config Kept Log Machine Move Outline Prog Step)
open Table (Evolves Op)

variable {P : Type}

/-! ## Rows -/

/-- What a pass says, whatever has become of it. -/
def InvitationRow.terms (i : InvitationRow) : InvitationRow :=
  { i with status := .pending, claimedAt := none, claimedByUserId := none, revokedAt := none }

theorem id_eq_of_terms {i i' : InvitationRow} (h : i'.terms = i.terms) : i'.id = i.id := by
  have heq : i'.terms.id = i.terms.id := by rw [h]
  exact heq

theorem hash_eq_of_terms {i i' : InvitationRow} (h : i'.terms = i.terms) : i'.tokenHash = i.tokenHash := by
  have heq : i'.terms.tokenHash = i.terms.tokenHash := by rw [h]
  exact heq

/-- What a pass may become; and the pass of this identifier keeps its status once it is not pending. -/
structure PassStays (id : String) (i i' : InvitationRow) : Prop where
  terms : i'.terms = i.terms
  settled : i.id = id → i.status ≠ .pending → i'.status = i.status

theorem PassStays.refl (id : String) (i : InvitationRow) : PassStays id i i := ⟨rfl, fun _ _ => rfl⟩

theorem PassStays.id_eq {id : String} {i i' : InvitationRow} (h : PassStays id i i') : i'.id = i.id :=
  id_eq_of_terms h.terms

theorem PassStays.hash_eq {id : String} {i i' : InvitationRow} (h : PassStays id i i') :
    i'.tokenHash = i.tokenHash := hash_eq_of_terms h.terms

theorem PassStays.trans {id : String} {i i' i'' : InvitationRow} (h : PassStays id i i')
    (h' : PassStays id i' i'') : PassStays id i i'' := by
  refine ⟨h'.terms.trans h.terms, fun hid hstatus => ?_⟩
  have hstatus' := h.settled hid hstatus
  exact (h'.settled (h.id_eq.trans hid) (hstatus' ▸ hstatus)).trans hstatus'

/-- Identifiers and hashes of passes are unique. -/
structure PassesKeyed (w : World P) : Prop where
  id : (w.invitations.map (·.id)).Nodup
  hash : (w.invitations.map (·.tokenHash)).Nodup

/-- Every pass is still there. -/
def PassesStay (id : String) (s t : World P) : Prop :=
  Evolves (PassStays id) s.invitations t.invitations

/-- A revocation finds the pass settled otherwise: claimed, or marked as expired, which nothing does. -/
def RevokesSettled (id : String) (step : SharingStep P) : Prop :=
  match step.request, step.write with
  | .revokePass _ _ passId _, .invitations _ => passId = id ∧
      ∃ i ∈ step.before.invitations, i.id = id ∧ i.status ≠ .pending ∧ i.status ≠ .revoked
  | _, _ => False

instance (id : String) : DecidablePred (RevokesSettled (P := P) id) := fun ⟨i, q, w, s⟩ => by
  apply Request.casesOn (motive := fun q => Decidable (RevokesSettled id ⟨i, q, w, s⟩)) q
  case revokePass =>
    intro user spaceId passId context
    apply Write.casesOn (motive := fun w => Decidable (RevokesSettled id ⟨i, .revokePass user spaceId passId context, w, s⟩)) w
    all_goals intros; dsimp only [RevokesSettled]; infer_instance
  all_goals intros; exact instDecidableFalse

/-! ## What a statement does to the passes -/

variable {D : Deployment P} {F : Account.Platform} {id : String} {s t : World P}

theorem PassesKeyed.update {sel : InvitationRow → Bool} {data : InvitationRow → InvitationRow}
    (h : PassesKeyed s) (hdata : ∀ i, (data i).terms = i.terms)
    (ht : t.invitations = (Op.update sel data).apply s.invitations) : PassesKeyed t := by
  constructor
  · rw [ht, Table.map_update fun i => id_eq_of_terms (hdata i)]
    exact h.id
  · rw [ht, Table.map_update fun i => hash_eq_of_terms (hdata i)]
    exact h.hash

theorem PassesKeyed.insert {row : InvitationRow} (h : PassesKeyed s)
    (ht : t.invitations = (Op.insert row.Clashes row).apply s.invitations) : PassesKeyed t := by
  constructor
  · rw [ht]
    exact Table.nodup_insert (fun i hi => decide_eq_true (.inl hi)) h.id
  · rw [ht]
    exact Table.nodup_insert (fun i hi => decide_eq_true (.inr hi)) h.hash

theorem PassesKeyed.of_eq (h : PassesKeyed s) (ht : t.invitations = s.invitations) : PassesKeyed t :=
  ⟨ht ▸ h.id, ht ▸ h.hash⟩

theorem PassesStay.of_eq (ht : t.invitations = s.invitations) : PassesStay id s t := by
  unfold PassesStay
  rw [ht]
  exact Evolves.refl (PassStays.refl id) _

theorem terms_claimed (user : Token) (now : Date) (i : InvitationRow) : (i.claimed user now).terms = i.terms :=
  rfl

theorem terms_revoked (now : Date) (i : InvitationRow) : (i.revoked now).terms = i.terms := rfl

/-- **One statement.** -/
theorem passes_step {step : SharingStep P} (h : Does step.request step.write)
    (hcond : ¬ RevokesSettled id step) (hkeyed : PassesKeyed step.before) :
    PassesStay id step.before (exec D.provider step.write step.before) ∧
      PassesKeyed (exec D.provider step.write step.before) := by
  obtain ⟨k, q, w, s⟩ := step
  by_cases hw : ∀ op, w ≠ .invitations op
  · exact ⟨.of_eq (invitations_exec hw), hkeyed.of_eq (invitations_exec hw)⟩
  simp only [not_forall, not_not] at hw
  obtain ⟨op, rfl⟩ := hw
  cases h with
  | issues user spaceId input context passId tokenHash now =>
    exact ⟨Table.evolves_insert (PassStays.refl id), hkeyed.insert rfl⟩
  | redeems user token context passId now =>
    refine ⟨Table.evolves_update (PassStays.refl id) fun i _ hi => ⟨terms_claimed .., fun _ hnot => ?_⟩,
      hkeyed.update (terms_claimed user now) rfl⟩
    exact absurd (InvitationRow.open_iff.mp hi).2 hnot
  | revokesPass user spaceId passId context now =>
    refine ⟨Table.evolves_update (PassStays.refl id) fun i hi hsel => ⟨terms_revoked .., fun hid hnot => ?_⟩,
      hkeyed.update (terms_revoked now) rfl⟩
    by_contra hchanged
    have hpass : passId = id := (of_decide_eq_true hsel).symm.trans hid
    exact hcond ⟨hpass, i, hi, hid, hnot, fun hrevoked => hchanged hrevoked.symm⟩

theorem passes_outside (e : Outside P) (hkeyed : PassesKeyed s) :
    PassesStay id s (outside e s) ∧ PassesKeyed (outside e s) := by
  have heq : (outside e s).invitations = s.invitations := by cases e <;> rfl
  exact ⟨.of_eq heq, hkeyed.of_eq heq⟩

/-- What the statements keep that are as they should be. -/
theorem kept_passes (D : Deployment P) (F : Account.Platform) (id : String) :
    Kept (machine D F) (fun step => Does step.request step.write ∧ ¬ RevokesSettled id step) PassesKeyed
      (PassesStay id) where
  refl _ := Evolves.refl (PassStays.refl id) _
  trans h h' := Evolves.trans PassStays.trans h h'
  step _ hC hkeyed := passes_step hC.1 hC.2 hkeyed
  env e _ hkeyed := passes_outside e hkeyed

/-! ## What a claim and a revocation leave -/

/-- The pass of this identifier is the one that a token is for. -/
def IsFor (D : Deployment P) (id token : String) (w : World P) : Prop :=
  ∃ i ∈ w.invitations, i.id = id ∧ i.tokenHash = D.hashSecret token

/-- The status of a pass is settled. -/
def Settled (id : String) (status : InvitationStatus) (w : World P) : Prop :=
  ∀ i ∈ w.invitations, i.id = id → i.status = status

/-- A membership or an allocation is created from the pass. -/
def CreatesFrom (D : Deployment P) (id : String) (w : World P) (step : SharingStep P) : Prop :=
  ∃ user token context, step.request = .claimPass user token context ∧ IsFor D id token w ∧
    ((∃ row data, step.write = .upsertMember row data) ∨ ∃ row data, step.write = .upsertAllocation row data)

/-- A pass stays settled. -/
theorem Settled.stays {status : InvitationStatus} (hsettled : Settled id status s) (hnot : status ≠ .pending)
    (hthere : ∃ i ∈ s.invitations, i.id = id) (hstay : PassesStay id s t) (hkeyed : PassesKeyed t) :
    Settled id status t := by
  obtain ⟨i, hi, hid⟩ := hthere
  intro i' hi' hid'
  have hrel := hstay.of_key (fun h => h.id_eq) hkeyed.id hi hi' (hid'.trans hid.symm)
  have hstatus := hsettled i hi hid
  exact (hrel.settled hid (hstatus ▸ hnot)).trans hstatus

/-- After the conditional update of a claim the pass is claimed. -/
theorem Won.settled {user : Token} {step : SharingStep P} (h : Won user id step) (hkeyed : PassesKeyed step.before) :
    Settled id .claimed (exec D.provider step.write step.before) ∧
      ∃ i ∈ (exec D.provider step.write step.before).invitations, i.id = id := by
  obtain ⟨now, hwrite⟩ := h.write
  obtain ⟨i, hi, hopen⟩ := h.found
  have hid := (InvitationRow.open_iff.mp hopen).1
  rw [hwrite]
  constructor
  · intro i' hi' hid'
    obtain ⟨i₀, hi₀, rfl⟩ := Table.mem_update.mp hi'
    have hid₀ : i₀.id = id := by
      split at hid'
      · exact hid'
      · exact hid'
    obtain rfl : i₀ = i := Table.eq_of_key hkeyed.id hi₀ hi (hid₀.trans hid.symm)
    rw [if_pos hopen]
    rfl
  · refine ⟨i.claimed user now, Table.mem_update.mpr ⟨i, hi, ?_⟩, hid⟩
    rw [if_pos hopen]

/-- After the update of a revocation the pass is revoked. -/
theorem settled_revoked {step : SharingStep P} {now : Date}
    (hwrite : step.write = .invitations (.update (·.id = id) (InvitationRow.revoked now)))
    (hthere : step.before.invitations.any (·.id = id)) :
    Settled id .revoked (exec D.provider step.write step.before) ∧
      ∃ i ∈ (exec D.provider step.write step.before).invitations, i.id = id := by
  obtain ⟨i, hi, hid⟩ := List.any_eq_true.mp hthere
  replace hid := of_decide_eq_true hid
  rw [hwrite]
  constructor
  · intro i' hi' hid'
    obtain ⟨i₀, -, rfl⟩ := Table.mem_update.mp hi'
    by_cases hsel : i₀.id = id
    · rw [if_pos (decide_eq_true hsel)]
      rfl
    · rw [if_neg (by simpa using hsel)] at hid'
      exact absurd hid' hsel
  · refine ⟨i.revoked now, Table.mem_update.mpr ⟨i, hi, ?_⟩, hid⟩
    rw [if_pos (decide_eq_true hid)]

/-- The pass that a claim has consumed is the one that its token is for. -/
theorem Consumed.isFor {user : Token} {token : String} {i : InvitationRow} {own : List (SharingStep P)}
    (h : Consumed D user token i own) (hfor : IsFor D id token t)
    (hstay : ∀ step ∈ own, PassesStay id step.before t) (hkeyed : PassesKeyed t) : i.id = id := by
  obtain ⟨step, hstep, hi⟩ := h.read
  obtain ⟨i', hi', hrel⟩ := hstay step hstep i hi
  obtain ⟨i'', hi'', hid, hhash⟩ := hfor
  have hsame : i' = i'' :=
    Table.eq_of_key hkeyed.hash hi' hi'' (hrel.hash_eq.trans (h.hash.trans hhash.symm))
  exact hrel.id_eq.symm.trans (hsame ▸ hid)


/-- What a claim has consumed was found open in one of its statements. -/
theorem Consumed.won_for {user : Token} {token : String} {i : InvitationRow} {own : List (SharingStep P)}
    (h : Consumed D user token i own) (hfor : IsFor D id token t)
    (hstay : ∀ step ∈ own, PassesStay id step.before t) (hkeyed : PassesKeyed t) :
    ∃ s ∈ own, Won user id s := by
  obtain rfl := h.isFor hfor hstay hkeyed
  exact h.won

/-- Where a claim has won before, no other finds the pass open. -/
theorem Won.not_after {user user' : Token} {a b : SharingStep P} (ha : Won user id a) (hb : Won user' id b)
    (hstay : PassesStay id (exec D.provider b.write b.before) a.before) (hkeyeda : PassesKeyed a.before)
    (hkeyedb : PassesKeyed b.before) : False := by
  obtain ⟨hsettled, hthere⟩ := hb.settled (D := D) hkeyedb
  obtain ⟨i, hi, hopen⟩ := ha.found
  obtain ⟨hid, hpending⟩ := InvitationRow.open_iff.mp hopen
  have hclaimed := hsettled.stays (by simp) hthere hstay hkeyeda i hi hid
  rw [hpending] at hclaimed
  cases hclaimed

/-- What is known of a run in which no revocation finds the pass settled otherwise. -/
structure Proper (D : Deployment P) (id : String)
    (c : Config (World P) Write HttpException Request Response) : Prop where
  told : c.log.Traced (Told D)
  answers : ∀ k q r, c.Answered k q r → Told.Answer D q (.ok r) (c.log.own k)
  chained : c.log.Chained (exec D.provider) PassesKeyed (PassesStay id)

section Proper

variable {c : Config (World P) Write HttpException Request Response} {user : Token} {token : String}
  {i : InvitationRow} {own : List (SharingStep P)}

theorem Proper.stays (h : Proper D id c) {step : SharingStep P} (hstep : step ∈ c.log.history) :
    PassesStay id step.before c.log.shared :=
  Evolves.trans PassStays.trans (h.chained.before step hstep).2 (h.chained.since step hstep)

theorem Proper.won (h : Proper D id c) (hown : own ⊆ c.log.history) (hconsumed : Consumed D user token i own)
    (hfor : IsFor D id token c.log.shared) : ∃ s ∈ own, Won user id s :=
  hconsumed.won_for hfor (fun _ hstep => h.stays (hown hstep)) h.chained.now

theorem own_subset_history (k : Nat) : c.log.own k ⊆ c.log.history :=
  fun _ hstep => (List.mem_filter.mp hstep).1

/-- What has been created from a pass is there only if it is claimed. -/
theorem Proper.claimed_of_creates (h : Proper D id c) {step : SharingStep P} (hstep : step ∈ c.log.history)
    (hcreates : CreatesFrom D id c.log.shared step) :
    Settled id .claimed c.log.shared ∧ ∃ i ∈ c.log.shared.invitations, i.id = id := by
  obtain ⟨user, token, context, hrequest, hfor, hwrite⟩ := hcreates
  obtain ⟨earlier, hsuffix, -, htold⟩ := h.told.of_mem hstep
  have hearlier : earlier.filter (·.thread = step.thread) ⊆ c.log.history := fun s hs =>
    hsuffix.subset (List.mem_cons_of_mem _ (List.mem_filter.mp hs).1)
  rw [hrequest] at htold
  have hconsumed : ∃ i, Consumed D user token i (earlier.filter (·.thread = step.thread)) := by
    rcases hwrite with ⟨row, data, hwrite⟩ | ⟨row, data, hwrite⟩
    · rw [hwrite] at htold
      obtain ⟨i, _, _, -, -, hconsumed⟩ := htold
      exact ⟨i, hconsumed⟩
    · rw [hwrite] at htold
      obtain ⟨i, _, _, _, _, _, -, -, -, hentered, -⟩ := htold
      exact ⟨i, hentered.consumed⟩
  obtain ⟨i, hconsumed⟩ := hconsumed
  obtain ⟨s, hs, hwins⟩ := h.won hearlier hconsumed hfor
  have hsince := h.chained.since s (hearlier hs)
  obtain ⟨hsettled, i₀, hi₀, hid₀⟩ := hwins.settled (h.chained.before s (hearlier hs)).1
  obtain ⟨i₁, hi₁, hstays⟩ := hsince i₀ hi₀
  exact ⟨hsettled.stays (by simp) ⟨i₀, hi₀, hid₀⟩ hsince h.chained.now, i₁, hi₁, hstays.id_eq.trans hid₀⟩

/-- Of two claims of one pass one does not succeed. -/
theorem Proper.one_claim (h : Proper D id c) {j k : Nat} {user' : Token} {token' : String}
    {context context' : RequestContext} {r r' : Response} (hj : c.Answered j (.claimPass user token context) r)
    (hk : c.Answered k (.claimPass user' token' context') r') (hfor : IsFor D id token c.log.shared)
    (hfor' : IsFor D id token' c.log.shared) : j = k := by
  obtain ⟨i, _, hentered⟩ := h.answers j _ r hj
  obtain ⟨i', _, hentered'⟩ := h.answers k _ r' hk
  obtain ⟨a, ha, hwona⟩ := h.won (own_subset_history j) hentered.consumed hfor
  obtain ⟨b, hb, hwonb⟩ := h.won (own_subset_history k) hentered'.consumed hfor'
  have hkeyeda := (h.chained.before a (own_subset_history j ha)).1
  have hkeyedb := (h.chained.before b (own_subset_history k hb)).1
  by_contra hne
  rcases Log.rel_of_pairwise h.chained.between hne ha hb with hlater | hlater
  · exact hwona.not_after hwonb hlater hkeyeda hkeyedb
  · exact hwonb.not_after hwona hlater hkeyedb hkeyeda

/-- Where a revocation has succeeded nothing was created. -/
theorem Proper.revoked_alone (h : Proper D id c) {k : Nat} {spaceId : String} {context : RequestContext}
    {r : Response} (hk : c.Answered k (.revokePass user spaceId id context) r) {step : SharingStep P}
    (hstep : step ∈ c.log.history) : ¬ CreatesFrom D id c.log.shared step := by
  intro hcreates
  obtain ⟨now, s, hs, hwrite, hthere⟩ := h.answers k _ r hk
  obtain ⟨hrevoked, hthere⟩ := settled_revoked hwrite hthere
  have hfinally := hrevoked.stays (by simp) hthere
    (h.chained.since s (own_subset_history k hs)) h.chained.now
  obtain ⟨hclaimed, i, hi, hid⟩ := h.claimed_of_creates hstep hcreates
  have hstatus := (hfinally i hi hid).symm.trans (hclaimed i hi hid)
  cases hstatus

end Proper

theorem proper_run (D : Deployment P) (F : Account.Platform) {w : World P} (hw : PassesKeyed w)
    (id : String) (before after : List (Move Request (Outside P)))
    (hcond : ∀ step ∈ (run D F w (before ++ after)).log.history, ¬ RevokesSettled id step) :
    Proper D id (run D F w (before ++ after)) ∧
      PassesStay id (run D F w before).log.shared (run D F w (before ++ after)).log.shared := by
  obtain ⟨htold, hanswer⟩ := told_run D F w (before ++ after)
  have hdoes : ∀ step ∈ (run D F w (before ++ after)).log.history,
      Does step.request step.write ∧ ¬ RevokesSettled id step := by
    intro step hstep
    obtain ⟨_, -, htold⟩ := htold.of_mem hstep
    exact ⟨htold.1, hcond step hstep⟩
  obtain ⟨hrel, hchain⟩ := (kept_passes D F id).run hw before after hdoes
  exact ⟨⟨htold, hanswer, hchain⟩, hrel⟩

/-- **The life of a pass.** In a run in which no revocation finds the pass claimed: its status is settled
once it is not pending; one claim at most succeeds; what is created from it is there only if it is
claimed; and once a revocation has succeeded nothing was ever created from it. -/
theorem pass_settles (D : Deployment P) (F : Account.Platform) {w : World P} (hw : PassesKeyed w)
    (id : String) (before after : List (Move Request (Outside P)))
    (hcond : ∀ step ∈ (run D F w (before ++ after)).log.history, ¬ RevokesSettled id step) :
    (∀ i ∈ (run D F w before).log.shared.invitations, i.id = id → i.status ≠ .pending →
        Settled id i.status (run D F w (before ++ after)).log.shared) ∧
      (∀ j k user user' token token' context context' r r',
        (run D F w (before ++ after)).Answered j (.claimPass user token context) r →
        (run D F w (before ++ after)).Answered k (.claimPass user' token' context') r' →
        IsFor D id token (run D F w (before ++ after)).log.shared →
        IsFor D id token' (run D F w (before ++ after)).log.shared → j = k) ∧
      (∀ step ∈ (run D F w (before ++ after)).log.history,
        CreatesFrom D id (run D F w (before ++ after)).log.shared step →
        Settled id .claimed (run D F w (before ++ after)).log.shared) ∧
      (∀ k user spaceId context r,
        (run D F w (before ++ after)).Answered k (.revokePass user spaceId id context) r →
        ∀ step ∈ (run D F w (before ++ after)).log.history,
          ¬ CreatesFrom D id (run D F w (before ++ after)).log.shared step) := by
  obtain ⟨hproper, hstay⟩ := proper_run D F hw id before after hcond
  refine ⟨fun i hi hid hnot i' hi' hid' => ?_, ?_, ?_, ?_⟩
  · have hrel := hstay.of_key (fun h => h.id_eq) hproper.chained.now.id hi hi'
      (hid'.trans hid.symm)
    exact hrel.settled hid hnot
  · intro j k user user' token token' context context' r r' hj hk hfor hfor'
    exact hproper.one_claim hj hk hfor hfor'
  · exact fun step hstep hcreates => (hproper.claimed_of_creates hstep hcreates).1
  · exact fun k user spaceId context r hk step hstep => hproper.revoked_alone hk hstep

/-! ## A pass that is revoked after it was claimed -/

/-- A Space with one pass. -/
def withPass : World Unit := { quietSpace with invitations := [passOf "p1" "token-1" none] }

/-- A claim of the guest. -/
def benClaims : Request := .claimPass ben "token-1" noContext

/-- A revocation by the owner. -/
def adaRevokes : Request := .revokePass ada "space" "p1" noContext

/-- The pass is claimed, and then revoked. -/
def claimedThenRevoked : List (Move Request (Outside Unit)) := served 0 benClaims 12 ++ served 1 adaRevokes 12

/-- The pass is revoked, and then claimed. -/
def revokedThenClaimed : List (Move Request (Outside Unit)) := served 0 adaRevokes 12 ++ served 1 benClaims 12

theorem keyed_withPass : PassesKeyed withPass := ⟨by decide, by decide⟩

/-- Where the revocation comes first, it succeeds and nothing was created from the pass. -/
theorem pass_settles_revokedThenClaimed :
    (run home frontDesk withPass (revokedThenClaimed ++ [])).Answered 0 adaRevokes .revoked ∧
      ∀ step ∈ (run home frontDesk withPass (revokedThenClaimed ++ [])).log.history,
        ¬ CreatesFrom home "p1" (run home frontDesk withPass (revokedThenClaimed ++ [])).log.shared step :=
  ⟨rfl, (pass_settles home frontDesk keyed_withPass "p1" revokedThenClaimed [] (by decide)).2.2.2 0 ada
    "space" noContext .revoked rfl⟩

/-- The claim has succeeded, and so has the revocation: the guest is a member by a revoked pass. -/
theorem revoked_after_claim :
    (run home frontDesk withPass claimedThenRevoked).Answered 0 benClaims
        (.claimed ⟨"space", "My Home", ["data.use"]⟩) ∧
      (run home frontDesk withPass claimedThenRevoked).Answered 1 adaRevokes .revoked ∧
      Settled "p1" .claimed (run home frontDesk withPass (served 0 benClaims 12)).log.shared ∧
      Settled "p1" .revoked (run home frontDesk withPass claimedThenRevoked).log.shared ∧
      ∃ step ∈ (run home frontDesk withPass claimedThenRevoked).log.history,
        CreatesFrom home "p1" (run home frontDesk withPass claimedThenRevoked).log.shared step := by
  refine ⟨rfl, rfl, ?_, ?_, ?_⟩
  · unfold Settled
    decide
  · unfold Settled
    decide
  · have hstep : (run home frontDesk withPass claimedThenRevoked).log.history[8]? = some _ := rfl
    refine ⟨_, List.mem_of_getElem? hstep, ben, "token-1", noContext, rfl, ?_, .inl ⟨_, _, rfl⟩⟩
    unfold IsFor
    decide

end Sharing
