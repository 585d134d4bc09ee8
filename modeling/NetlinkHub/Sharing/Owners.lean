import NetlinkHub.Sharing.Live

/-! # Owners

A Space is created together with the membership of its owner. Claims and revocations write to the same
table, a claim by upsert on the key that the owner's row is found by; what keeps them off that row is that
a claim has seen another owner, and a revocation another role (`owner_never_locked_out`). -/

namespace Sharing

open Api (Date HttpException RequestContext Token)
open Concurrent (Config Kept Log Machine Move Prog Step Upholds)
open Table (Evolves Op)

variable {P : Type}

/-! ## The invariant -/

/-- The membership that a Space is created with. -/
structure MemberRow.Owns (r : SpaceRow) (m : MemberRow) : Prop where
  space : m.spaceId = r.id
  user : m.user.text = r.ownerId
  role : m.role = "owner"
  permissions : m.permissions = ownerPermissions
  suspended : m.suspended = false
  expiresAt : m.expiresAt = none

/-- Each Space has the membership of its owner as it was created, and no other one of that user. -/
structure Founded (w : World P) : Prop where
  spaceIds : (w.spaces.map (·.id)).Nodup
  memberIds : MembersKeyed w
  owner : ∀ space ∈ w.spaces, ∃ m ∈ w.members, m.Owns space
  only : ∀ space ∈ w.spaces, ∀ m ∈ w.members, m.spaceId = space.id → m.user.text = space.ownerId →
    m.Owns space

variable {D : Deployment P} {F : Account.Platform} {A : DataProviderAdapter P} {q : Request} {w : Write}
  {s t : World P} {k : Nat}

/-! ## What an owner may do -/

/-- **A check of the owner** that finds the row of a founded Space raises nothing, whatever it finds later. -/
theorem Founded.sureAt_requirePermission (h : Founded s) {space : SpaceRow} (hspace : space ∈ s.spaces)
    {m : MemberRow} (hm : m ∈ s.members) (howns : m.Owns space) {permission : String}
    (hpermission : permission ∈ ownerPermissions) (context : Option RequestContext) :
    (requirePermission m.user space.id permission context : Service P Unit).SureAt s := by
  have hfound : ∃ n : MemberRow, Api.findMember m.user.text space.id s.view.api = some n.grant ∧
      n.Owns space := by
    have hdirectory : s.view.api.directory.members = s.members.map MemberRow.grant := rfl
    unfold Api.findMember
    rw [hdirectory, List.find?_map]
    cases hfind : s.members.find? ((fun m' : Api.MemberRow =>
        decide (m'.spaceId = space.id ∧ m'.userId = m.user.text)) ∘ MemberRow.grant) with
    | none =>
      have hnot := List.find?_eq_none.mp hfind m hm
      simp [MemberRow.grant, howns.space] at hnot
    | some n =>
      have hn : n.spaceId = space.id ∧ n.user.text = m.user.text := by
        have hsel := List.find?_some hfind
        exact of_decide_eq_true hsel
      exact ⟨n, rfl, h.only space hspace n (List.mem_of_find?_eq_some hfind) hn.1 (hn.2.trans howns.user)⟩
  obtain ⟨n, hfind, hn⟩ := hfound
  have hallowed : ∀ now, Api.evaluatePermission n.grant permission now = none := by
    intro now
    unfold Api.evaluatePermission MemberRow.grant
    simp [hn.suspended, hn.expiresAt, hn.permissions, hpermission]
  have hsure : (Api.requirePermission m.user.text space.id permission context).SureAt s.view.api := by
    unfold Api.requirePermission
    rw [Api.select_bind, Prog.sureAt_stmt, hfind]
    dsimp only
    rw [Api.newDate_bind]
    intro s'
    dsimp only
    rw [hallowed]
    trivial
  exact hsure.lift.lift.map _

/-! ## What statements keep -/

/-- Spaces and members, once there, stay, with their owners and roles. -/
structure Remains (s t : World P) : Prop where
  spaces : Evolves (fun r r' : SpaceRow => r'.id = r.id ∧ r'.ownerId = r.ownerId) s.spaces t.spaces
  members : Evolves (fun m m' : MemberRow => m'.id = m.id ∧ m'.role = m.role) s.members t.members

/-- A membership that the statement writes is not one of an owner. -/
def Write.Spares (s : World P) : Write → Prop
  | .upsertMember row _ => ∀ r ∈ s.spaces, r.id = row.spaceId → r.ownerId ≠ row.user.text
  | .members (.update sel _) => ∀ m ∈ s.members, sel m → m.role ≠ "owner"
  | _ => True

/-- Only these statements are on the Spaces. -/
def Write.OnSpaces : Write → Prop
  | .createSpace .. => True
  | .spaces _ => True
  | _ => False

theorem spaces_exec (h : ¬ w.OnSpaces) : (exec A w s).spaces = s.spaces := by
  cases w with
  | createSpace space owner => exact absurd trivial h
  | spaces op => exact absurd trivial h
  | updateTotals id data =>
    simp only [exec]
    split <;> rfl
  | _ => rfl

theorem Remains.refl (s : World P) : Remains s s :=
  ⟨Evolves.refl (fun _ => ⟨rfl, rfl⟩) _, Evolves.refl (fun _ => ⟨rfl, rfl⟩) _⟩

theorem Remains.trans {u : World P} (h : Remains s t) (h' : Remains t u) : Remains s u :=
  ⟨Evolves.trans (fun h h' => ⟨h'.1.trans h.1, h'.2.trans h.2⟩) h.spaces h'.spaces,
    Evolves.trans (fun h h' => ⟨h'.1.trans h.1, h'.2.trans h.2⟩) h.members h'.members⟩

theorem remains_step (h : Does q w) : Remains s (exec A w s) := by
  refine ⟨?_, ?_⟩
  · by_cases hw : w.OnSpaces
    · cases h with
      | opensSpace hq id memberId name now =>
        simp only [exec]
        split
        · exact (Remains.refl s).spaces
        · exact fun r hr => ⟨r, List.mem_append_left _ hr, rfl, rfl⟩
      | renames user spaceId name context =>
        exact Table.evolves_update (fun _ => ⟨rfl, rfl⟩) fun r _ _ => ⟨rfl, rfl⟩
      | _ => exact absurd hw (by simp [Write.OnSpaces])
    · rw [spaces_exec hw]
      exact (Remains.refl s).spaces
  · by_cases hw : w.OnMembers
    · cases h with
      | opensSpace hq id memberId name now =>
        simp only [exec]
        split
        · exact (Remains.refl s).members
        · exact fun m hm => ⟨m, List.mem_append_left _ hm, rfl, rfl⟩
      | joins user token context i id now =>
        exact evolves_upsert (fun _ => ⟨rfl, rfl⟩) fun m _ _ => ⟨rfl, rfl⟩
      | bars user spaceId memberId context =>
        exact Table.evolves_update (fun _ => ⟨rfl, rfl⟩) fun m _ _ => ⟨rfl, rfl⟩
      | _ => exact absurd hw (by simp [Write.OnMembers])
    · rw [members_exec hw]
      exact (Remains.refl s).members

/-- What an upsert may leave. -/
theorem of_mem_upsert {R : Type} {sel clash : R → Bool} {row : R} {data : R → R} {rows : List R} {r : R}
    (h : r ∈ upsert sel clash row data rows) : r ∈ rows ∨ r = row ∨ ∃ r₀ ∈ rows, sel r₀ ∧ r = data r₀ := by
  unfold upsert at h
  split at h
  · obtain ⟨r₀, hr₀, rfl⟩ := Table.mem_update.mp h
    by_cases hsel : sel r₀
    · rw [if_pos hsel]
      exact .inr (.inr ⟨r₀, hr₀, hsel, rfl⟩)
    · rw [if_neg hsel]
      exact .inl hr₀
  · exact (Table.mem_insert h).imp id .inl

/-- A row that an upsert does not select is still there. -/
theorem mem_upsert_of_not {R : Type} {sel clash : R → Bool} {row : R} {data : R → R} {rows : List R} {r : R}
    (h : r ∈ rows) (hsel : ¬ sel r) : r ∈ upsert sel clash row data rows := by
  unfold upsert
  split
  · exact Table.mem_update.mpr ⟨r, h, by rw [if_neg hsel]⟩
  · rw [Table.apply_insert]
    split
    · exact h
    · exact List.mem_append_left _ h

theorem token_ext {a b : Token} (h : a.text = b.text) : a = b := by
  obtain ⟨text, oneLine⟩ := a
  subst h
  rfl

/-- A new Space is founded, and so are the others. -/
theorem Founded.createSpace (h : Founded s) (user : Token) (id memberId name : String) (now : Date) :
    Founded (exec A (.createSpace ⟨id, user.text, name, now⟩
      ⟨memberId, id, user, "owner", ownerPermissions, false, none, now⟩) s) := by
  simp only [exec]
  split
  · exact h
  rename_i hfree
  have hid : ∀ r ∈ s.spaces, r.id ≠ id := fun r hr heq =>
    hfree (.inl (List.any_eq_true.mpr ⟨r, hr, decide_eq_true heq⟩))
  have hmember : ∀ m ∈ s.members, m.id ≠ memberId ∧ ¬ (m.spaceId = id ∧ m.user = user) := fun m hm =>
    ⟨fun heq => hfree (.inr (List.any_eq_true.mpr ⟨m, hm, decide_eq_true (.inl heq)⟩)),
      fun heq => hfree (.inr (List.any_eq_true.mpr ⟨m, hm, decide_eq_true (.inr (MemberRow.of_iff.mpr heq))⟩))⟩
  refine ⟨?_, ?_, fun r hr => ?_, fun r hr m hm hspace huser => ?_⟩
  · simpa [List.nodup_append] using ⟨h.spaceIds, hid⟩
  · simpa [MembersKeyed, List.nodup_append] using ⟨h.memberIds, fun m hm => (hmember m hm).1⟩
  · rcases List.mem_append.mp hr with hr | hr
    · obtain ⟨m, hm, howns⟩ := h.owner r hr
      exact ⟨m, List.mem_append_left _ hm, howns⟩
    · obtain rfl := List.mem_singleton.mp hr
      exact ⟨_, List.mem_append_right _ List.mem_cons_self, rfl, rfl, rfl, rfl, rfl, rfl⟩
  -- Old and new rows do not mix: the identifier of the Space is new, and so is its owner's membership.
  · rcases List.mem_append.mp hr with hr | hr <;> rcases List.mem_append.mp hm with hm | hm
    · exact h.only r hr m hm hspace huser
    · obtain rfl := List.mem_singleton.mp hm
      exact absurd hspace.symm (hid r hr)
    · obtain rfl := List.mem_singleton.mp hr
      exact absurd ⟨hspace, token_ext huser⟩ (hmember m hm).2
    · obtain rfl := List.mem_singleton.mp hr
      obtain rfl := List.mem_singleton.mp hm
      exact ⟨rfl, rfl, rfl, rfl, rfl, rfl⟩

/-- A change of the members that leaves the rows of the owners, and makes no others theirs. -/
theorem Founded.of_members (h : Founded s) (hspaces : t.spaces = s.spaces) (hids : MembersKeyed t)
    (hkept : ∀ r ∈ s.spaces, ∀ m ∈ s.members, m.Owns r → m ∈ t.members)
    (hnew : ∀ r ∈ s.spaces, ∀ m ∈ t.members, m.spaceId = r.id → m.user.text = r.ownerId → m ∈ s.members) :
    Founded t := by
  refine ⟨hspaces ▸ h.spaceIds, hids, fun r hr => ?_, fun r hr m hm hspace huser => ?_⟩
  · rw [hspaces] at hr
    obtain ⟨m, hm, howns⟩ := h.owner r hr
    exact ⟨m, hkept r hr m hm howns, howns⟩
  · rw [hspaces] at hr
    exact h.only r hr m (hnew r hr m hm hspace huser) hspace huser

/-- **One statement** that spares the owners keeps them. -/
theorem Founded.step (h : Founded s) (hdoes : Does q w) (hspares : w.Spares s) : Founded (exec A w s) := by
  have hids : MembersKeyed (exec A w s) := membersKeyed_step hdoes h.memberIds
  by_cases hspaces : w.OnSpaces
  · cases hdoes with
    | opensSpace hq id memberId name now => exact h.createSpace ..
    | renames user spaceId name context =>
      -- A name is no part of what an owner's membership is compared with.
      refine ⟨?_, hids, fun r hr => ?_, fun r hr m hm hspace huser => ?_⟩
      · simp only [exec]
        rw [Table.map_update fun r => show SpaceRow.id { r with name := name } = r.id from rfl]
        exact h.spaceIds
      · obtain ⟨r₀, hr₀, rfl⟩ := Table.mem_update.mp hr
        obtain ⟨m, hm, howns⟩ := h.owner r₀ hr₀
        refine ⟨m, hm, ?_⟩
        split
        · exact ⟨howns.space, howns.user, howns.role, howns.permissions, howns.suspended, howns.expiresAt⟩
        · exact howns
      · obtain ⟨r₀, hr₀, rfl⟩ := Table.mem_update.mp hr
        have hsame : ∀ r : SpaceRow, r.id = r₀.id → r.ownerId = r₀.ownerId → m.spaceId = r.id →
            m.user.text = r.ownerId → m.Owns r := by
          intro r hid howner hspace huser
          have howns := h.only r₀ hr₀ m hm (hspace.trans hid) (huser.trans howner)
          exact ⟨hspace, huser, howns.role, howns.permissions, howns.suspended, howns.expiresAt⟩
        exact hsame _ (by split <;> rfl) (by split <;> rfl) hspace huser
    | _ => exact absurd hspaces (by simp [Write.OnSpaces])
  have hsame := spaces_exec (A := A) (s := s) hspaces
  by_cases hmembers : w.OnMembers
  · cases hdoes with
    | opensSpace hq id memberId name now => exact absurd trivial hspaces
    | joins user token context i id now =>
      -- The key of the upsert is not that of an owner.
      refine h.of_members hsame hids (fun r hr m hm howns => mem_upsert_of_not hm fun hOf => ?_)
        fun r hr m hm hspace huser => ?_
      · obtain ⟨hspace, huser⟩ := MemberRow.of_iff.mp hOf
        exact hspares r hr (howns.space.symm.trans hspace) (howns.user.symm.trans (congrArg Token.text huser))
      · rcases of_mem_upsert hm with hm | rfl | ⟨m₀, hm₀, hOf, rfl⟩
        · exact hm
        · exact absurd huser.symm (hspares r hr hspace.symm)
        · obtain ⟨hspace₀, huser₀⟩ := MemberRow.of_iff.mp hOf
          exact absurd (huser.symm.trans (congrArg Token.text huser₀)) (hspares r hr (hspace.symm.trans hspace₀))
    | bars user spaceId memberId context =>
      -- The member who is removed is none with the role of an owner.
      refine h.of_members hsame hids (fun r hr m hm howns => ?_) fun r hr m hm hspace huser => ?_
      · refine Table.mem_update.mpr ⟨m, hm, ?_⟩
        rw [if_neg fun hsel => hspares m hm hsel howns.role]
      · obtain ⟨m₀, hm₀, rfl⟩ := Table.mem_update.mp hm
        by_cases hsel : m₀.id = memberId
        · rw [if_pos (decide_eq_true hsel)] at hspace huser
          exact absurd (h.only r hr m₀ hm₀ hspace huser).role (hspares m₀ hm₀ (decide_eq_true hsel))
        · rw [if_neg (by simpa using hsel)]
          exact hm₀
    | _ => exact absurd hmembers (by simp [Write.OnMembers])
  · have hrows := members_exec (A := A) (s := s) hmembers
    exact h.of_members hsame hids (fun _ _ m hm _ => hrows ▸ hm) fun _ _ m hm _ _ => hrows ▸ hm

/-! ## Claims are of guests -/

/-- A membership that the statement writes by upsert is the user's in the Space. -/
def Write.Enrols (user : Token) (spaceId : String) : Write → Prop
  | .upsertMember row _ => row.user = user ∧ row.spaceId = spaceId
  | _ => True

section Claims

variable {user : Token} {token spaceId : String} {context : RequestContext}

theorem enrols_openFor (A : DataProviderAdapter P) (i : InvitationRow) (memberId : String) :
    (openFor A user i memberId).Only (Write.Enrols user spaceId) := by
  unfold openFor openAllocation
  split
  · trivial
  rw [select_bind]
  refine .stmt trivial fun w => ?_
  split
  · trivial
  rw [ask_bind]
  refine .stmt trivial fun w => ?_
  split
  · trivial
  rw [randomUUID_bind]
  refine .stmt trivial fun w => Prog.Only.bind ?_ fun _ => .stmt trivial fun _ => trivial
  refine .stmt trivial fun w => ?_
  split <;> trivial

theorem enrols_redeem (A : DataProviderAdapter P) (i : InvitationRow) (spaceName : String) :
    (redeem A user i spaceName context).Only (Write.Enrols user i.spaceId) := by
  have hjoin : (join A user i spaceName context).Only (Write.Enrols user i.spaceId) := by
    unfold join
    simp only [randomUUID_bind, newDate_bind]
    refine .stmt trivial fun w => .stmt trivial fun w' => Prog.Only.bind ?_ fun member => ?_
    · refine .stmt ⟨rfl, rfl⟩ fun w => ?_
      split
      · trivial
      · split <;> trivial
    · exact (enrols_openFor ..).bind fun _ => .stmt trivial fun _ => .stmt trivial fun _ => trivial
  unfold redeem
  simp only [newDate_bind, Prog.perform_bind]
  refine .stmt trivial fun w => .stmt trivial fun w' => ?_
  split
  · trivial
  · exact hjoin

/-- The thread has seen that the user does not own the Space. -/
def SeenAsGuest (user : Token) (spaceId : String) (own : List (SharingStep P)) : Prop :=
  ∃ s ∈ own, ∃ r ∈ s.before.spaces, r.id = spaceId ∧ r.ownerId ≠ user.text

/-- Each upsert of a membership is for a user that was seen not to own the Space. -/
def ByGuest (step : SharingStep P) (own : List (SharingStep P)) : Prop :=
  match step.write with
  | .upsertMember row _ => SeenAsGuest row.user row.spaceId own
  | _ => True

theorem Write.Enrols.byGuest {own : List (SharingStep P)} (h : w.Enrols user spaceId)
    (hseen : SeenAsGuest user spaceId own) : ByGuest (⟨k, q, w, s⟩ : SharingStep P) own := by
  cases w with
  | upsertMember row data =>
    obtain ⟨rfl, rfl⟩ := h
    exact hseen
  | _ => trivial

/-- **A claim.** -/
theorem guest_claimPass : (claimPass D user token context).Traces ByGuest k q (fun _ _ => True) [] := by
  have hopen : ∀ (i : InvitationRow) (r : SpaceRow) (own : List (SharingStep P)), r.id = i.spaceId →
      (∃ s ∈ own, r ∈ s.before.spaces) →
      (claimOpen D.provider user i r context).Traces ByGuest k q (fun _ _ => True) own := by
    intro i r own hid hread
    unfold claimOpen
    rw [select_bind]
    refine .stmt (fun s => trivial) fun s => ?_
    split
    · trivial
    split
    · exact .stmt (fun s => trivial) fun s => trivial
    split
    · trivial
    rename_i howner
    -- The claim of an owner has been refused by now.
    have hseen : SeenAsGuest user i.spaceId (⟨k, q, .select .users, s⟩ :: own) := by
      obtain ⟨step, hstep, hr⟩ := hread
      exact ⟨step, List.mem_cons_of_mem _ hstep, r, hr, hid, howner⟩
    exact (Prog.Traces.of_only (enrols_redeem ..)
      (fun w s own hw hown => ⟨hw.byGuest hown, done_later hown⟩) hseen).mono fun _ _ _ => trivial
  unfold claimPass
  rw [select_bind]
  refine .stmt (fun s => trivial) fun s => ?_
  split
  · trivial
  rename_i i space hfound
  obtain ⟨i', -, heq⟩ := Option.bind_eq_some_iff.mp hfound
  obtain ⟨space', hspace, heq⟩ := Option.map_eq_some_iff.mp heq
  obtain ⟨rfl, rfl⟩ := Prod.mk.inj heq
  split
  · trivial
  rw [dateNow_bind]
  refine .stmt (fun s => trivial) fun s' => ?_
  split
  · trivial
  · have hid := List.find?_some hspace
    exact hopen _ _ _ (of_decide_eq_true hid)
      (done_later ⟨_, List.mem_cons_self, List.mem_of_find?_eq_some hspace⟩)

end Claims

theorem guest_handler (D : Deployment P) (F : Account.Platform) (k : Nat) (q : Request) :
    (handler D F q).Traces ByGuest k q (fun _ _ => True) [] := by
  by_cases hq : ∃ user token context, q = .claimPass user token context
  · obtain ⟨user, token, context, rfl⟩ := hq
    exact Prog.Traces.map _ guest_claimPass (fun _ _ _ => trivial) fun _ _ _ => trivial
  · refine .of_only (only_handler D F q) (fun w s own hw _ => ⟨?_, trivial⟩) trivial
    cases hw with
    | joins user token context i id now => exact absurd ⟨_, _, _, rfl⟩ hq
    | _ => trivial

/-! ## Runs -/

/-- What every statement keeps. -/
theorem kept_remains (D : Deployment P) (F : Account.Platform) :
    Kept (machine D F) (fun step => Does step.request step.write ∧ step.write.Spares step.before) Founded
      Remains where
  refl := Remains.refl
  trans := Remains.trans
  step _ hC hfounded := ⟨remains_step hC.1, hfounded.step hC.1 hC.2⟩
  env e s hfounded := by
    have heq : (outside e s).spaces = s.spaces ∧ (outside e s).members = s.members := by
      cases e <;> exact ⟨rfl, rfl⟩
    refine ⟨⟨heq.1 ▸ (Remains.refl s).spaces, heq.2 ▸ (Remains.refl s).members⟩, ?_⟩
    have hids : MembersKeyed (outside e s) := by
      unfold MembersKeyed
      exact heq.2 ▸ hfounded.memberIds
    exact hfounded.of_members heq.1 hids (fun _ _ m hm _ => heq.2 ▸ hm) fun _ _ m hm _ _ => heq.2 ▸ hm

/-- What is known of a statement, by everything before it. -/
structure Careful (D : Deployment P) (step : SharingStep P) (earlier : List (SharingStep P)) : Prop where
  told : Told D step (earlier.filter (·.thread = step.thread))
  guest : ByGuest step (earlier.filter (·.thread = step.thread))

/-- What a thread has seen of owners and roles is still so when it writes. -/
theorem Careful.spares {σ : SharingLog P} (h : Careful D ⟨k, q, w, σ.shared⟩ σ.history)
    (hσ : σ.Chained (exec D.provider) Founded Remains) : w.Spares σ.shared := by
  have hsince : ∀ step ∈ σ.history.filter (·.thread = k), Remains step.before σ.shared := fun step hstep =>
    (hσ.before step (List.mem_filter.mp hstep).1).2.trans (hσ.since step (List.mem_filter.mp hstep).1)
  obtain ⟨⟨hdoes, htold⟩, hguest⟩ := h
  cases hdoes with
  | joins user token context i id now =>
    obtain ⟨step, hstep, r, hr, hid, howner⟩ := hguest
    obtain ⟨r', hr', hid', howner'⟩ := (hsince step hstep).spaces r hr
    intro r₁ hr₁ hspace
    have hsame : r₁ = r' := Table.eq_of_key hσ.now.spaceIds hr₁ hr' (hspace.trans (hid.symm.trans hid'.symm))
    rw [hsame, howner']
    exact howner
  | bars user spaceId memberId context =>
    obtain ⟨m, step, hstep, hfound⟩ := htold
    obtain ⟨m', hm', hid', hrole'⟩ := (hsince step hstep).members m hfound.mem
    intro m₁ hm₁ hsel
    have hsame : m₁ = m' := Table.eq_of_key hσ.now.memberIds hm₁ hm'
      ((of_decide_eq_true hsel).trans (hfound.id.symm.trans hid'.symm))
    rw [hsame, hrole']
    exact hfound.role
  | _ => trivial

/-- **Statements of threads keep the owners.** -/
theorem upholds_founded (D : Deployment P) (F : Account.Platform) :
    Upholds (machine D F) (Careful D) (Log.Chained (exec D.provider) Founded Remains) where
  step _ _ _ _ hσ hcareful :=
    ((kept_remains D F).chained_perform hσ ⟨hcareful.told.1, hcareful.spares hσ⟩).2
  env e _ hσ := (kept_remains D F).chained_change hσ e

/-- **The owner is never locked out.** In every state that a run reaches, each Space has the membership of
its owner, with every permission, not suspended and without an expiry; and every check of a permission
that reads it succeeds, whatever happens while it goes on. -/
theorem owner_never_locked_out (D : Deployment P) (F : Account.Platform) {w : World P} (hw : Founded w)
    (moves : List (Move Request (Outside P))) :
    ∀ space ∈ (run D F w moves).log.shared.spaces, ∃ m ∈ (run D F w moves).log.shared.members,
      m.Owns space ∧ ∀ permission ∈ ownerPermissions, ∀ context,
        (requirePermission m.user space.id permission context : Service P Unit).SureAt
          (run D F w moves).log.shared := by
  obtain ⟨htold, -⟩ := told_run D F w moves
  have hguests : (run D F w moves).log.Traced ByGuest :=
    (Concurrent.traced_run (K := fun _ _ _ => True) (guest_handler D F) w moves).1
  have hinitial : Log.Chained (exec D.provider) Founded Remains (⟨w, []⟩ : SharingLog P) :=
    ⟨hw, by simp, by simp, by simp⟩
  obtain ⟨hnow, -⟩ := (upholds_founded D F).run hinitial moves fun step earlier hsuffix =>
    ⟨htold step earlier hsuffix, hguests step earlier hsuffix⟩
  intro space hspace
  obtain ⟨m, hm, howns⟩ := hnow.now.owner space hspace
  exact ⟨m, hm, howns, fun permission hpermission context =>
    hnow.now.sureAt_requirePermission hspace hm howns hpermission context⟩

/-- A database without Spaces. -/
def noSpaces : World Unit := { quietSpace with spaces := [], members := [], pools := [] }

theorem founded_noSpaces : Founded noSpaces :=
  ⟨List.nodup_nil, List.nodup_nil, by simp [noSpaces], by simp [noSpaces]⟩

/-- Ada creates a Space there. -/
theorem owner_never_locked_out_noSpaces :
    ∃ space ∈ (run home frontDesk noSpaces (served 0 (.createSpace ada "Cabin" noContext) 5)).log.shared.spaces,
      space.ownerId = "ada" ∧
      ∃ m ∈ (run home frontDesk noSpaces (served 0 (.createSpace ada "Cabin" noContext) 5)).log.shared.members,
        m.Owns space := by
  refine ⟨_, List.mem_cons_self, rfl, ?_⟩
  obtain ⟨m, hm, howns, -⟩ := owner_never_locked_out home frontDesk founded_noSpaces
    (served 0 (.createSpace ada "Cabin" noContext) 5) _ List.mem_cons_self
  exact ⟨m, hm, howns⟩

end Sharing
