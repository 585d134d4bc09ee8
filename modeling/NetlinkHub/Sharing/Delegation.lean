import NetlinkHub.Api.PowerScreen
import NetlinkHub.Sharing.Passes
import NetlinkHub.Sharing.Pool

/-! # What is handed on by passes

`createPass` asks whether its caller may invite people, and puts into the pass whatever permissions the
request names. In a run in which each pass names only permissions that its issuer holds, a claim obtains
nothing that the issuer did not hold when the pass was created, and along chains of passes of any length
no permission comes up in a Space that nobody there had (`passes_amplify_nothing`). -/

namespace Sharing

open Api (Date HttpException RequestContext Token)
open Concurrent (Config Log Machine Move Prog Step Upholds)
open Table (Op)

variable {P : Type}

/-! ## Holding, issuing and obtaining -/

/-- A user holds a permission in a Space, as `requirePermission` decides it. -/
def Holds (userId spaceId permission : String) (w : World P) : Prop :=
  (Api.findMember userId spaceId w.view.api).any fun m => Api.evaluatePermission m permission w.clock = none

instance (userId spaceId permission : String) (w : World P) : Decidable (Holds userId spaceId permission w) :=
  inferInstanceAs (Decidable (_ = true))

variable {userId spaceId permission : String} {w s : World P}

theorem holds_iff : Holds userId spaceId permission w ↔
    ∃ member, Api.Passes userId spaceId permission member w.view.api := by
  unfold Holds Api.Passes
  rw [Option.any_eq_true]
  refine exists_congr fun member => and_congr_right fun _ => ?_
  exact decide_eq_true_iff

/-- Who holds a permission passes the check of it, and nobody else does. -/
theorem holds_iff_succeeds {context : Option RequestContext} : Holds userId spaceId permission w ↔
    (Api.requirePermission userId spaceId permission context).Succeeds Api.exec w.view.api :=
  holds_iff.trans Api.succeeds_requirePermission.symm

/-- Who holds a permission has a membership of the Space that lists it. -/
theorem Holds.listed (h : Holds userId spaceId permission w) :
    ∃ m ∈ w.members, m.spaceId = spaceId ∧ permission ∈ m.permissions := by
  obtain ⟨member, hfound, hallowed⟩ := holds_iff.mp h
  obtain ⟨m, hm, rfl⟩ := List.mem_map.mp (List.mem_of_find?_eq_some hfound)
  have hselected := List.find?_some hfound
  have hspace : m.spaceId = spaceId ∧ m.user.text = userId := of_decide_eq_true hselected
  refine ⟨m, hm, hspace.1, ?_⟩
  unfold Api.evaluatePermission at hallowed
  split at hallowed
  · cases hallowed
  split at hallowed
  · cases hallowed
  split at hallowed
  · cases hallowed
  · rename_i hlisted
    exact not_not.mp hlisted

/-- The statement creates this pass, whatever becomes of it. -/
structure Issues (i : InvitationRow) (step : SharingStep P) : Prop where
  inserts : ∃ user spaceId input context id tokenHash now,
    step.request = .createPass user spaceId input context ∧
      step.write = .invitations (.insert (newPass user spaceId input id tokenHash now).Clashes
        (newPass user spaceId input id tokenHash now)) ∧
      i.terms = newPass user spaceId input id tokenHash now
  free : ¬ step.before.invitations.any fun i' => i'.id = i.id ∨ i'.tokenHash = i.tokenHash

/-- What an issued pass says of its issuer. -/
theorem Issues.issuer {i : InvitationRow} {step : SharingStep P} (h : Issues i step) :
    ∃ user spaceId input context op, step.request = .createPass user spaceId input context ∧
      step.write = .invitations op ∧ i.createdById = user.text ∧ i.spaceId = spaceId ∧
      i.permissions = passPermissions input := by
  obtain ⟨user, spaceId, input, context, id, tokenHash, now, hrequest, hwrite, hterms⟩ := h.inserts
  have hcreator : i.terms.createdById = user.text := by rw [hterms]; rfl
  have hspace : i.terms.spaceId = spaceId := by rw [hterms]; rfl
  have hnamed : i.terms.permissions = passPermissions input := by rw [hterms]; rfl
  exact ⟨user, spaceId, input, context, _, hrequest, hwrite, hcreator, hspace, hnamed⟩

/-- A pass names only permissions that its issuer holds when it is created. -/
def WithinIssuer (step : SharingStep P) : Prop :=
  match step.request, step.write with
  | .createPass user spaceId input _, .invitations _ =>
    ∀ permission ∈ passPermissions input, Holds user.text spaceId permission step.before
  | _, _ => True

instance : DecidablePred (WithinIssuer (P := P)) := fun ⟨i, q, w, s⟩ => by
  apply Request.casesOn (motive := fun q => Decidable (WithinIssuer ⟨i, q, w, s⟩)) q
  case createPass =>
    intro user spaceId input context
    apply Write.casesOn (motive := fun w => Decidable (WithinIssuer ⟨i, .createPass user spaceId input context, w, s⟩)) w
    all_goals intros; dsimp only [WithinIssuer]; infer_instance
  all_goals intros; exact instDecidableTrue

/-- A claim with this token writes the membership of its user. -/
structure Obtains (D : Deployment P) (user : Token) (token : String) (m : MemberRow) (step : SharingStep P) :
    Prop where
  request : ∃ context, step.request = .claimPass user token context
  writes : ∃ row data, step.write = .upsertMember row data ∧ m.spaceId = row.spaceId
  left : m ∈ (exec D.provider step.write step.before).members
  user : m.user = user

/-- Where a permission in a Space comes from: a member of the Space had it at the start, or the Space was
created since and its owner has it. -/
inductive Rooted (w : World P) (history : List (SharingStep P)) (spaceId permission : String) : Prop where
  | start (m : MemberRow) (hm : m ∈ w.members) (hspace : m.spaceId = spaceId)
    (hpermission : permission ∈ m.permissions)
  | founded (step : SharingStep P) (hstep : step ∈ history) (space : SpaceRow) (owner : MemberRow)
    (hwrite : step.write = .createSpace space owner) (hspace : owner.spaceId = spaceId)
    (hpermission : permission ∈ ownerPermissions)

/-! ## One statement -/

variable {D : Deployment P} {F : Account.Platform} {history : List (SharingStep P)} {σ : SharingLog P}

theorem Rooted.later {step : SharingStep P} (h : Rooted w history spaceId permission) :
    Rooted w (step :: history) spaceId permission := by
  cases h with
  | start m hm hspace hpermission => exact .start m hm hspace hpermission
  | founded step' hstep space owner hwrite hspace hpermission =>
    exact .founded step' (List.mem_cons_of_mem _ hstep) space owner hwrite hspace hpermission

/-- A pass that was issued, with permissions that were there before it. -/
structure Warranted (w : World P) (history : List (SharingStep P)) (i : InvitationRow) : Prop where
  issued : ∃ issue ∈ history, Issues i issue
  rooted : ∀ permission ∈ i.permissions, Rooted w history i.spaceId permission

theorem Warranted.later {i : InvitationRow} {step : SharingStep P} (h : Warranted w history i) :
    Warranted w (step :: history) i :=
  ⟨done_later h.issued, fun permission hpermission => (h.rooted permission hpermission).later⟩

/-- Only what a pass says counts. -/
theorem Warranted.of_terms {i i' : InvitationRow} (h : Warranted w history i) (hterms : i'.terms = i.terms) :
    Warranted w history i' := by
  have hid := id_eq_of_terms hterms
  have hhash := hash_eq_of_terms hterms
  have hspace : i'.terms.spaceId = i.terms.spaceId := by rw [hterms]
  have hpermissions : i'.terms.permissions = i.terms.permissions := by rw [hterms]
  obtain ⟨issue, hissue, ⟨user, spaceId, input, context, id, tokenHash, now, hrequest, hwrite, hrow⟩, hfree⟩ :=
    h.issued
  refine ⟨⟨issue, hissue, ⟨user, spaceId, input, context, id, tokenHash, now, hrequest, hwrite,
    hterms.trans hrow⟩, by rwa [hid, hhash]⟩, fun permission hpermission => ?_⟩
  have hrooted := h.rooted permission (hpermissions ▸ hpermission)
  exact hspace ▸ hrooted

/-- Every permission in a Space is rooted, in a membership or in a pass, now and in what the statements
have found. -/
structure Rightful (w : World P) (σ : SharingLog P) : Prop where
  members : ∀ m ∈ σ.shared.members, ∀ permission ∈ m.permissions, Rooted w σ.history m.spaceId permission
  passes : ∀ i ∈ σ.shared.invitations, Warranted w σ.history i
  found : ∀ step ∈ σ.history, ∀ i ∈ step.before.invitations, Warranted w σ.history i

/-- The upsert of a claim leaves its user only memberships with the permissions of the pass. -/
theorem permissions_upsert {user : Token} {i : InvitationRow} {id : String} {now : Date} {m : MemberRow}
    {rows : List MemberRow} (hm : m ∈ upsert (·.Of user i.spaceId) (·.id = id) (newMember user i id now)
      (rejoined i) rows) :
    m ∈ rows ∧ ¬ m.Of user i.spaceId ∨ m.spaceId = i.spaceId ∧ m.permissions = i.permissions := by
  unfold upsert at hm
  split at hm
  · obtain ⟨m₀, hm₀, rfl⟩ := Table.mem_update.mp hm
    by_cases hof : m₀.Of user i.spaceId
    · rw [if_pos hof]
      exact .inr ⟨(MemberRow.of_iff.mp hof).1, rfl⟩
    · rw [if_neg hof]
      exact .inl ⟨hm₀, hof⟩
  · rename_i hnone
    rcases Table.mem_insert hm with hm | rfl
    · exact .inl ⟨hm, fun hof => hnone (List.any_eq_true.mpr ⟨m, hm, hof⟩)⟩
    · exact .inr ⟨rfl, rfl⟩

/-- What is known of a statement: what its thread has done, and of a pass, that it stays within what its
issuer holds. -/
def Lawful (D : Deployment P) (step : SharingStep P) (earlier : List (SharingStep P)) : Prop :=
  Told D step (earlier.filter (·.thread = step.thread)) ∧ WithinIssuer step

variable {k : Nat} {q : Request} {write : Write}

/-- The pass of a claim is one that was there when the claim read it. -/
theorem Rightful.consumed (hσ : Rightful w σ) {user : Token} {token : String} {i : InvitationRow}
    (h : Consumed D user token i (σ.history.filter (·.thread = k))) : Warranted w σ.history i := by
  obtain ⟨step, hstep, hi⟩ := h.read
  exact hσ.found step (List.mem_filter.mp hstep).1 i hi

/-- **Members**, after one statement. -/
theorem Rightful.members_step (hσ : Rightful w σ) (h : Lawful D ⟨k, q, write, σ.shared⟩ σ.history)
    {m : MemberRow} (hm : m ∈ (exec D.provider write σ.shared).members)
    (hpermission : permission ∈ m.permissions) :
    Rooted w (⟨k, q, write, σ.shared⟩ :: σ.history) m.spaceId permission := by
  have hold : ∀ m' ∈ σ.shared.members, m'.spaceId = m.spaceId → permission ∈ m'.permissions →
      Rooted w (⟨k, q, write, σ.shared⟩ :: σ.history) m.spaceId permission := by
    intro m' hm' hspace hpermission'
    exact hspace ▸ (hσ.members m' hm' permission hpermission').later
  obtain ⟨⟨hdoes, htold⟩, -⟩ := h
  by_cases hwrite : write.OnMembers
  · cases hdoes with
    | opensSpace hq id memberId name now =>
      simp only [exec] at hm
      split at hm
      · exact hold m hm rfl hpermission
      rcases List.mem_append.mp hm with hm | hm
      · exact hold m hm rfl hpermission
      · obtain rfl := List.mem_singleton.mp hm
        exact .founded _ List.mem_cons_self _ _ rfl rfl hpermission
    | joins user token context i id now =>
      obtain ⟨i', _, _, hrow, hdata, hconsumed⟩ := htold
      rcases permissions_upsert hm with ⟨hm, -⟩ | ⟨hspace, hpermissions⟩
      · exact hold m hm rfl hpermission
      · have hspace' : i.spaceId = i'.spaceId := congrArg MemberRow.spaceId hrow
        have hpermissions' : i.permissions = i'.permissions := congrArg MemberRow.permissions hrow
        rw [hpermissions, hpermissions'] at hpermission
        rw [hspace, hspace']
        exact ((hσ.consumed hconsumed).rooted permission hpermission).later
    | bars user spaceId memberId context =>
      -- A member that is barred is left without permissions.
      obtain ⟨m₀, hm₀, rfl⟩ := Table.mem_update.mp hm
      split at hpermission
      · simp [MemberRow.barred] at hpermission
      · rename_i hother
        rw [if_neg hother] at hold ⊢
        exact hold m₀ hm₀ rfl hpermission
    | _ => exact absurd hwrite (by simp [Write.OnMembers])
  · rw [members_exec hwrite] at hm
    exact hold m hm rfl hpermission

/-- **Passes**, after one statement. -/
theorem Rightful.passes_step (hσ : Rightful w σ) (h : Lawful D ⟨k, q, write, σ.shared⟩ σ.history)
    {i : InvitationRow} (hi : i ∈ (exec D.provider write σ.shared).invitations) :
    Warranted w (⟨k, q, write, σ.shared⟩ :: σ.history) i := by
  obtain ⟨⟨hdoes, -⟩, hwithin⟩ := h
  by_cases hwrite : ∀ op, write ≠ .invitations op
  · rw [invitations_exec hwrite] at hi
    exact (hσ.passes i hi).later
  simp only [not_forall, not_not] at hwrite
  obtain ⟨op, rfl⟩ := hwrite
  cases hdoes with
  | issues user spaceId input context passId tokenHash now =>
    by_cases hold : i ∈ σ.shared.invitations
    · exact (hσ.passes i hold).later
    obtain ⟨rfl, hfree⟩ := Table.new_of_mem_insert hi hold
    refine ⟨⟨_, List.mem_cons_self, ⟨user, spaceId, input, context, passId, tokenHash, now, rfl, rfl, rfl⟩,
      hfree⟩, fun permission hpermission => ?_⟩
    -- The issuer holds it, so a membership of the Space lists it.
    obtain ⟨m, hm, hspace, hlisted⟩ := (hwithin permission hpermission).listed
    have hrooted := hσ.members m hm permission hlisted
    exact (hspace ▸ hrooted).later
  | redeems user token context passId now =>
    obtain ⟨i₀, hi₀, rfl⟩ := Table.mem_update.mp hi
    refine (hσ.passes i₀ hi₀).later.of_terms ?_
    split <;> rfl
  | revokesPass user spaceId passId context now =>
    obtain ⟨i₀, hi₀, rfl⟩ := Table.mem_update.mp hi
    refine (hσ.passes i₀ hi₀).later.of_terms ?_
    split <;> rfl

theorem upholds_rightful (D : Deployment P) (F : Account.Platform) (w : World P) :
    Upholds (machine D F) (Lawful D) (Rightful w) where
  step k q write σ hσ h := by
    refine ⟨fun m hm permission hpermission => hσ.members_step h hm hpermission,
      fun i hi => hσ.passes_step h hi, fun step hstep i hi => ?_⟩
    rcases List.mem_cons.mp hstep with rfl | hstep
    · exact (hσ.passes i hi).later
    · exact (hσ.found step hstep i hi).later
  env e σ hσ := by
    have hinvitations : (outside e σ.shared).invitations = σ.shared.invitations := by cases e <;> rfl
    have hmembers : (outside e σ.shared).members = σ.shared.members := by cases e <;> rfl
    exact ⟨fun m hm => hσ.members m (hmembers ▸ hm), fun i hi => hσ.passes i (hinvitations ▸ hi), hσ.found⟩

/-! ## Runs -/

/-- **No privilege is amplified by passes** in a run in which each pass names only permissions that its
issuer holds. Whatever a claim obtains, the issuer of its pass held in the Space when the pass was created;
and whatever has been handed on along passes comes from a member of the Space at the start or from the
owner of a Space created since. -/
theorem passes_amplify_nothing (D : Deployment P) (F : Account.Platform) {w : World P}
    (hw : w.invitations = []) (moves : List (Move Request (Outside P)))
    (hcond : ∀ step ∈ (run D F w moves).log.history, WithinIssuer step) :
    (∀ step ∈ (run D F w moves).log.history, ∀ user token m, Obtains D user token m step →
        ∃ i, i.tokenHash = D.hashSecret token ∧ i.spaceId = m.spaceId ∧
          ∃ issue ∈ (run D F w moves).log.history, Issues i issue ∧
            ∀ permission ∈ m.permissions, Holds i.createdById i.spaceId permission issue.before) ∧
      ∀ m ∈ (run D F w moves).log.shared.members, ∀ permission ∈ m.permissions,
        Rooted w (run D F w moves).log.history m.spaceId permission := by
  obtain ⟨htold, -⟩ := told_run D F w moves
  have hinitial : Rightful w (⟨w, []⟩ : SharingLog P) :=
    ⟨fun m hm permission hpermission => .start m hm rfl hpermission, by simp [hw], by simp⟩
  obtain ⟨hrightful, -⟩ := (upholds_rightful D F w).run hinitial moves fun step earlier hsuffix =>
    ⟨htold step earlier hsuffix, hcond step (hsuffix.subset List.mem_cons_self)⟩
  refine ⟨fun step hstep user token m hobtains => ?_, hrightful.members⟩
  obtain ⟨⟨context, hrequest⟩, ⟨row, data, hwrite, hspace⟩, hleft, huser⟩ := hobtains
  obtain ⟨earlier, hsuffix, -, htold⟩ := htold.of_mem hstep
  rw [hrequest, hwrite] at htold
  obtain ⟨i, id, now, rfl, rfl, hconsumed⟩ := htold
  obtain ⟨read, hread, hi⟩ := hconsumed.read
  have hreadMem : read ∈ (run D F w moves).log.history :=
    hsuffix.subset (List.mem_cons_of_mem _ (List.mem_filter.mp hread).1)
  obtain ⟨issue, hissue, hissues⟩ := (hrightful.found read hreadMem i hi).issued
  refine ⟨i, hconsumed.hash, hspace.symm, issue, hissue, hissues, fun permission hpermission => ?_⟩
  -- The membership carries the permissions of the pass, which are those that its issuer named.
  rw [hwrite] at hleft
  have hpermissions : m.permissions = i.permissions := by
    rcases permissions_upsert hleft with ⟨-, hother⟩ | ⟨-, hpermissions⟩
    · exact absurd (MemberRow.of_iff.mpr ⟨hspace, huser⟩) hother
    · exact hpermissions
  obtain ⟨issuer, spaceId, input, context', op, hrequest', hwrite', hcreator, hspaceId, hnamed⟩ :=
    hissues.issuer
  have hwithin := hcond issue hissue
  unfold WithinIssuer at hwithin
  rw [hrequest', hwrite'] at hwithin
  rw [hcreator, hspaceId]
  exact hwithin permission (hnamed ▸ hpermissions ▸ hpermission)

/-- A pass for no data, with these permissions. -/
def custom (permissions : List String) : CreatePassRequest := ⟨none, .custom, permissions, none, none, 2000, false⟩

theorem oneLine_x1 : Api.OneLine "x1" := by decide

theorem oneLine_x2 : Api.OneLine "x2" := by decide

/-- The owner invites the guest to invite people, who invites another guest to do the same. -/
def invitedOn : List (Move Request (Outside Unit)) :=
  served 0 (.createPass ada "space" (custom ["invitations.create", "files.read"]) noContext) 16 ++
    [drawn ⟨"x1", oneLine_x1⟩] ++ served 1 (.claimPass ben "secret" noContext) 16 ++
    served 2 (.createPass ben "space" (custom ["files.read"]) noContext) 16 ++
    [drawn ⟨"x2", oneLine_x2⟩] ++ served 3 (.claimPass cleo "x1" noContext) 16

set_option maxRecDepth 2000 in
/-- What the second guest obtains the first held. -/
theorem passes_amplify_nothing_invitedOn :
    ∃ step ∈ (run home frontDesk twoGuests invitedOn).log.history, ∃ m, Obtains home cleo "x1" m step ∧
      m.permissions = ["files.read"] ∧
      ∃ i, i.tokenHash = "x1" ∧ ∃ issue ∈ (run home frontDesk twoGuests invitedOn).log.history,
        Issues i issue ∧ Holds i.createdById i.spaceId "files.read" issue.before := by
  have hstep : (run home frontDesk twoGuests invitedOn).log.history[2]? = some _ := rfl
  have hobtained : ∃ step ∈ (run home frontDesk twoGuests invitedOn).log.history,
      Obtains home cleo "x1" ⟨"x2", "space", cleo, "invited_member", ["files.read"], false, some 2000, 1000⟩
        step :=
    ⟨_, List.mem_of_getElem? hstep, ⟨noContext, rfl⟩, ⟨_, _, rfl, rfl⟩, List.mem_of_getLast? rfl, rfl⟩
  obtain ⟨step, hmem, hobtains⟩ := hobtained
  obtain ⟨i, hhash, -, issue, hissue, hissues, hholds⟩ := (passes_amplify_nothing home frontDesk
    (w := twoGuests) rfl invitedOn (by decide +kernel)).1 step hmem cleo "x1" _ hobtains
  exact ⟨step, hmem, _, hobtains, rfl, i, hhash, issue, hissue, hissues, hholds _ List.mem_cons_self⟩

/-- A Space with a member who may invite people, and nothing else. -/
def withInviter : World Unit := { quietSpace with
  members := quietSpace.members ++ [⟨"m2", "space", ben, "invited_member", ["invitations.create"], false,
    some 2000, 0⟩] }

/-- He issues a pass to delete files, and claims it. -/
def benInvitesHimself : List (Move Request (Outside Unit)) :=
  served 0 (.createPass ben "space" (custom ["files.delete"]) noContext) 16 ++ [drawn ⟨"x1", oneLine_x1⟩] ++
    served 1 (.claimPass ben "secret" noContext) 16

/-- The member has obtained a permission that the issuer of the pass, himself, never held. -/
theorem inviter_amplifies :
    ∃ step ∈ (run home frontDesk withInviter benInvitesHimself).log.history, ∃ m,
      Obtains home ben "secret" m step ∧ "files.delete" ∈ m.permissions ∧
        ∀ issue ∈ (run home frontDesk withInviter benInvitesHimself).log.history, ∀ i, Issues i issue →
          ¬ Holds i.createdById i.spaceId "files.delete" issue.before := by
  have hstep : (run home frontDesk withInviter benInvitesHimself).log.history[2]? = some _ := rfl
  have hlacks : (run home frontDesk withInviter benInvitesHimself).log.history.all fun step =>
      match step.request, step.write with
      | .createPass user spaceId _ _, .invitations _ =>
        ¬ Holds user.text spaceId "files.delete" step.before
      | _, _ => true := by decide +kernel
  refine ⟨_, List.mem_of_getElem? hstep,
    ⟨"m2", "space", ben, "invited_member", ["files.delete"], false, some 2000, 0⟩,
    ⟨⟨noContext, rfl⟩, ⟨_, _, rfl, rfl⟩, List.mem_of_getLast? rfl, rfl⟩, List.mem_cons_self,
    fun issue hissue i hissues => ?_⟩
  obtain ⟨user, spaceId, input, context, op, hrequest, hwrite, hcreator, hspace, -⟩ := hissues.issuer
  have hissuer := List.all_eq_true.mp hlacks issue hissue
  rw [hrequest, hwrite] at hissuer
  rw [hcreator, hspace]
  exact of_decide_eq_true hissuer

end Sharing
