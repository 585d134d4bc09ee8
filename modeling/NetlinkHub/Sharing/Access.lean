import NetlinkHub.Sharing.Live

/-! # Remote control after access is withdrawn

A member whose access is revoked is suspended, and keeps any remote session that is under way: nothing
ends it. In a run in which a suspension finds no session of the member, none is started or revived behind
it, and nobody collects the messages of one, the member is cut off until the next claim
(`access_withdrawn`). -/

namespace Api

open Concurrent (Prog)

/-! ## What the answers about a session have seen -/

theorem saw_requireViewerSession (userId sessionId : String) :
    (requireViewerSession userId sessionId).Saw (fun v s => v.row ∈ s.remoteSessions ∧ v.row.id = sessionId)
      fun _ => False := by
  have hselect : (selectSession sessionId).Saw
      (fun found s => ∀ v, found = some v → v.row ∈ s.remoteSessions ∧ v.row.id = sessionId)
      fun _ => False := by
    refine fun s => .inr fun v hv => ?_
    obtain ⟨row, hrow, rfl⟩ := Option.map_eq_some_iff.mp hv
    exact findSession_some hrow
  refine hselect.andThen (L := fun found v => found = some v) (fun found => ?_)
    (fun found v s hL hseen => hseen v hL) fun _ _ _ h => h
  split
  · trivial
  · split
    · trivial
    · exact rfl

/-- A message is taken from a viewer only for a session that has not ended. -/
theorem saw_postSignal (userId sessionId : String) (input : RemoteSignalRequest) :
    (postSignal .viewer sessionId input userId).Saw
      (fun _ s => ∃ row ∈ s.remoteSessions, row.id = sessionId ∧ row.state ≠ .ended) fun _ => False := by
  refine (saw_requireViewerSession userId sessionId).andThen (L := fun v _ => v.row.state ≠ .ended)
    (fun v => ?_) (fun v _ _ hlive hseen => ⟨v.row, hseen.1, hseen.2, hlive⟩) fun _ _ _ h => h
  split
  · trivial
  · rename_i hlive
    exact (Prog.answers_true _).mono fun _ _ => hlive

theorem saw_collectSignals (userId sessionId : String) :
    (collectSignals .viewer sessionId userId).Saw
      (fun _ s => ∃ row ∈ s.remoteSessions, row.id = sessionId) fun _ => False :=
  (saw_requireViewerSession userId sessionId).andThen (fun _ => Prog.answers_true _)
    (fun v _ _ _ hseen => ⟨v.row, hseen.1, hseen.2⟩) fun _ _ _ h => h

/-- Each grant is of a session that has not ended. -/
theorem saw_pendingGrantsFor (signer : Signer) (principal : AgentPrincipal) :
    (pendingGrantsFor signer principal).Saw (fun gs s => ∀ g ∈ gs, ∃ row ∈ s.remoteSessions,
      row.state ≠ .ended ∧ g.grant = grantFor row) fun gs => gs = [] := by
  unfold pendingGrantsFor
  refine Prog.Saw.bind fun agent => ?_
  split
  · exact rfl
  refine Prog.Saw.bind fun _ => fun s => .inr fun g hg => ?_
  obtain ⟨row, hrow, rfl⟩ := List.mem_map.mp hg
  have hmem := (List.perm_insertionSort _ _).mem_iff.mp (List.mem_of_mem_take hrow)
  obtain ⟨hrow, hstate⟩ := List.mem_filter.mp hmem
  refine ⟨row, hrow, fun hended => ?_, rfl⟩
  rcases (of_decide_eq_true hstate).2 with h | h <;> rw [hended] at h <;> cases h

end Api

namespace Sharing

open Api (Date HttpException RequestContext Token)
open Concurrent (Config Kept Log Machine Move Prog Step Upholds)
open Table (Evolves Op)

variable {P : Type}

/-! ## Sessions and memberships -/

/-- The remote sessions. -/
def World.sessions (w : World P) : List Api.RemoteSessionRow := w.account.api.remoteSessions

/-- The user is suspended in the Space. -/
def Withdrawn (userId spaceId : String) (w : World P) : Prop :=
  ∃ m ∈ w.members, m.user.text = userId ∧ m.spaceId = spaceId ∧ m.suspended = true

/-- The member looks on in the session. -/
def MemberRow.Views (m : MemberRow) (s : Api.RemoteSessionRow) : Prop :=
  s.viewerId = m.user.text ∧ s.spaceId = m.spaceId

/-- The statement of a claim that makes someone a member again. -/
def Write.Restores (m : MemberRow) : Write → Prop
  | .upsertMember row _ => row.user = m.user ∧ row.spaceId = m.spaceId
  | _ => False

/-- The viewer's calls that post or collect messages of a session. -/
def SignalsFor (id : String) : Account.ViewerCall → Prop
  | .signal id' _ => id' = id
  | .signals id' => id' = id
  | _ => False

/-- The sessions of whoever is suspended have ended. -/
def Closed (w : World P) : Prop :=
  ∀ s ∈ w.sessions, Withdrawn s.viewerId s.spaceId w → s.state = .ended

/-- Withdrawn access is cut off: a suspension finds no live session of the member, no session is started or
revived for someone who is suspended, nobody collects the messages of such a session, and nobody who is
being suspended is made a member before the revocation is through. -/
structure Cuts (step : SharingStep P) (earlier : List (SharingStep P)) : Prop where
  suspends : ∀ userId spaceId, Bars userId spaceId step → ∀ s ∈ step.before.sessions,
    s.viewerId = userId → s.spaceId = spaceId → s.state = .ended
  starts : ∀ row, step.write = .account (.api (.insertSession row)) →
    ¬ Withdrawn row.viewerId row.spaceId step.before
  revives : ∀ id change, step.write = .account (.api (.updateSession id change)) →
    ∀ s ∈ step.before.sessions, s.id = id → Withdrawn s.viewerId s.spaceId step.before →
      s.state = .ended → (change.apply s).state = .ended
  polls : ∀ token id, step.request = .account (.viewer token (.signals id)) →
    ∀ s ∈ step.before.sessions, s.id = id → ¬ Withdrawn s.viewerId s.spaceId step.before
  through : (∃ bar ∈ earlier, bar.thread = step.thread ∧ ∃ op, bar.write = .members op) →
    ∀ user spaceId memberId context, step.request = .revokeAccess user spaceId memberId context →
      ∀ m ∈ step.before.members, m.id = memberId → m.suspended = true

/-- What is cut off after a statement: all that came later is in `later`. -/
structure CutOff (m : MemberRow) (c : Config (World P) Write HttpException Request Response)
    (later : List (SharingStep P)) : Prop where
  sessions : ∀ s ∈ c.log.shared.sessions, m.Views s → s.state = .ended
  grants : ∀ j signed gs, c.Answered j (.account (.agent .grants signed)) (.account (.remote (.grants gs))) →
    c.log.own j ⊆ later → ∀ g ∈ gs, ¬ (g.grant.spaceId = m.spaceId ∧ g.grant.requestedBy = m.user.text)
  signals : ∀ j token call r, c.Answered j (.account (.viewer token call)) r → c.log.own j ⊆ later →
    ∀ s ∈ c.log.shared.sessions, m.Views s → ¬ SignalsFor s.id call

variable {D : Deployment P} {F : Account.Platform} {A : DataProviderAdapter P} {q : Request} {w : Write}
  {s t : World P} {k : Nat} {m : MemberRow}

/-! ### One statement -/

/-- Only a statement of the power or remote service touches its tables. -/
theorem api_exec (h : ∀ w', w ≠ .account (.api w')) : (exec A w s).account.api.remoteSessions = s.sessions := by
  cases w with
  | account w =>
    show (Account.exec w s.view).api.remoteSessions = s.sessions
    rw [Account.api_exec (fun w' hw => h w' (by rw [hw])) s.view]
    rfl
  | createSpace space owner =>
    simp only [exec]
    split <;> rfl
  | updateTotals id data =>
    simp only [exec]
    split <;> rfl
  | _ => rfl

/-- What a statement makes of a session. -/
structure SessionStep (w : Write) (r r' : Api.RemoteSessionRow) : Prop where
  changed : r' = r ∨ ∃ change, w = .account (.api (.updateSession r.id change)) ∧ r' = change.apply r

theorem SessionStep.content {r r' : Api.RemoteSessionRow} (h : SessionStep w r r') :
    r'.content = r.content := by
  rcases h.changed with rfl | ⟨change, -, rfl⟩
  · rfl
  · exact Api.content_apply change r

/-- **Each session in the table afterwards** was there before, or is new. -/
theorem session_back {r' : Api.RemoteSessionRow} (hr' : r' ∈ (exec A w s).sessions) :
    (∃ r ∈ s.sessions, SessionStep w r r') ∨ w = .account (.api (.insertSession r')) := by
  by_cases hw : ∃ w', w = .account (.api w')
  · obtain ⟨w', rfl⟩ := hw
    rcases Api.sessionStep_back hr' with ⟨r, hr, ⟨hchanged⟩⟩ | rfl
    · refine .inl ⟨r, hr, ⟨hchanged.imp_right ?_⟩⟩
      rintro ⟨change, hchange, rfl⟩
      exact ⟨change, by rw [show w' = _ from hchange], rfl⟩
    · exact .inr rfl
  · have heq : (exec A w s).sessions = s.sessions := api_exec fun w' h => hw ⟨w', h⟩
    exact .inl ⟨r', heq ▸ hr', ⟨.inl rfl⟩⟩

/-- Identifiers of members and of sessions are unique. -/
def Keyed (w : World P) : Prop := MembersKeyed w ∧ (w.sessions.map (·.id)).Nodup

/-- The content of a session is what it was. -/
def SessionStays (r r' : Api.RemoteSessionRow) : Prop := r'.content = r.content

theorem SessionStays.refl (r : Api.RemoteSessionRow) : SessionStays r r := by
  unfold SessionStays
  rfl

theorem SessionStays.trans {r r' r'' : Api.RemoteSessionRow} (h : SessionStays r r')
    (h' : SessionStays r' r'') : SessionStays r r'' := Eq.trans h' h

theorem SessionStays.id {r r' : Api.RemoteSessionRow} (h : SessionStays r r') : r'.id = r.id :=
  Api.sessionId_of_content h

/-- Members and sessions stay. -/
def Stay (s t : World P) : Prop := MembersStay s t ∧ Evolves SessionStays s.sessions t.sessions

theorem Stay.trans {u : World P} (h : Stay s t) (h' : Stay t u) : Stay s u :=
  ⟨Evolves.trans MemberStays.trans h.1 h'.1, Evolves.trans SessionStays.trans h.2 h'.2⟩

theorem sessions_step (w : Write) (s : World P) :
    Evolves SessionStays s.sessions (exec A w s).sessions := by
  by_cases hw : ∃ w', w = .account (.api w')
  · obtain ⟨w', rfl⟩ := hw
    exact fun r hr => (Api.sessionStep_exec w' s.view.api r hr).imp fun r' h => ⟨h.1, h.2.content⟩
  · rw [show (exec A w s).sessions = s.sessions from api_exec fun w' h => hw ⟨w', h⟩]
    exact Evolves.refl SessionStays.refl _

theorem sessionIds_step (w : Write) (hids : (s.sessions.map (·.id)).Nodup) :
    ((exec A w s).sessions.map (·.id)).Nodup := by
  by_cases hw : ∃ w', w = .account (.api w')
  · obtain ⟨w', rfl⟩ := hw
    exact Api.sessionIds_exec w' hids
  · rwa [show (exec A w s).sessions = s.sessions from api_exec fun w' h => hw ⟨w', h⟩]

/-- Nothing around the requests touches the sessions. -/
theorem sessions_outside (e : Outside P) (s : World P) : (outside e s).sessions = s.sessions := by
  cases e with
  | account o =>
    obtain ⟨o, ho⟩ := o
    cases o with
    | issueCode row =>
      simp only [outside, Account.outside, World.sessions]
      split <;> rfl
    | _ => rfl
  | provider p => rfl
  | refusesTotals refuses => rfl

theorem members_outside (e : Outside P) (s : World P) : (outside e s).members = s.members := by
  cases e <;> rfl

/-- What every statement keeps. -/
theorem kept_keyed (D : Deployment P) (F : Account.Platform) :
    Kept (machine D F) (fun step => Does step.request step.write) Keyed Stay where
  refl _ := ⟨Evolves.refl MemberStays.refl _, Evolves.refl SessionStays.refl _⟩
  trans := Stay.trans
  step step hC hkeyed := ⟨⟨members_step hC, sessions_step _ _⟩, membersKeyed_step hC hkeyed.1,
    sessionIds_step _ hkeyed.2⟩
  env e s hkeyed := by
    refine ⟨⟨.of_eq (members_outside e s), ?_⟩, ?_, ?_⟩
    · exact sessions_outside e s ▸ Evolves.refl SessionStays.refl _
    · exact ((kept_members D F).env e s hkeyed.1).2
    · exact sessions_outside e s ▸ hkeyed.2

/-- **Who is suspended** after a statement was so before, or is suspended by it. -/
theorem Withdrawn.back {userId spaceId : String} (h : Withdrawn userId spaceId (exec A w s))
    (hdoes : Does q w) : Withdrawn userId spaceId s ∨ Bars userId spaceId (⟨k, q, w, s⟩ : SharingStep P) := by
  obtain ⟨m, hm, huser, hspace, hsuspended⟩ := h
  by_cases hw : w.OnMembers
  · cases hdoes with
    | opensSpace hq id memberId name now =>
      simp only [exec] at hm
      split at hm
      · exact .inl ⟨m, hm, huser, hspace, hsuspended⟩
      · rcases List.mem_append.mp hm with hm | hm
        · exact .inl ⟨m, hm, huser, hspace, hsuspended⟩
        · rw [List.mem_singleton.mp hm] at hsuspended
          cases hsuspended
    | joins user token context i id now =>
      simp only [exec, upsert] at hm
      split at hm
      · obtain ⟨m₀, hm₀, rfl⟩ := Table.mem_update.mp hm
        split at hsuspended
        · cases hsuspended
        · rename_i hnot
          rw [if_neg hnot] at huser hspace
          exact .inl ⟨m₀, hm₀, huser, hspace, hsuspended⟩
      · rcases Table.mem_insert hm with hm | rfl
        · exact .inl ⟨m, hm, huser, hspace, hsuspended⟩
        · cases hsuspended
    | bars user spaceId' memberId context =>
      obtain ⟨m₀, hm₀, rfl⟩ := Table.mem_update.mp hm
      by_cases hid : m₀.id = memberId
      · rw [if_pos (decide_eq_true hid)] at huser hspace
        exact .inr ⟨⟨user, spaceId', memberId, context, rfl, m₀, hm₀, hid, huser, hspace⟩, _, rfl⟩
      · rw [if_neg (by simpa using hid)] at huser hspace hsuspended
        exact .inl ⟨m₀, hm₀, huser, hspace, hsuspended⟩
    | _ => exact absurd hw (by simp [Write.OnMembers])
  · rw [members_exec hw] at hm
    exact .inl ⟨m, hm, huser, hspace, hsuspended⟩

/-- Who is suspended stays so until a claim. -/
theorem suspended_stays (hdoes : Does q w) (hm : m ∈ s.members) (hsuspended : m.suspended = true)
    (hrestores : ¬ w.Restores m) :
    ∃ m' ∈ (exec A w s).members, MemberStays m m' ∧ m'.suspended = true := by
  by_cases hw : w.OnMembers
  · cases hdoes with
    | opensSpace hq id memberId name now =>
      refine ⟨m, ?_, .refl m, hsuspended⟩
      simp only [exec]
      split
      · exact hm
      · exact List.mem_append_left _ hm
    | joins user token context i id now =>
      refine ⟨m, ?_, .refl m, hsuspended⟩
      have hother : ¬ m.Of user i.spaceId := fun h => hrestores ⟨(MemberRow.of_iff.mp h).2.symm,
        (MemberRow.of_iff.mp h).1.symm⟩
      show m ∈ upsert (·.Of user i.spaceId) _ _ _ _
      unfold upsert
      split
      · exact Table.mem_update.mpr ⟨m, hm, by rw [if_neg hother]⟩
      · rw [Table.apply_insert]
        split
        · exact hm
        · exact List.mem_append_left _ hm
    | bars user spaceId memberId context =>
      refine ⟨_, Table.mem_update.mpr ⟨m, hm, rfl⟩, ?_⟩
      split
      · exact ⟨⟨rfl, rfl, rfl⟩, rfl⟩
      · exact ⟨.refl m, hsuspended⟩
    | _ => exact absurd hw (by simp [Write.OnMembers])
  · rw [members_exec hw]
    exact ⟨m, hm, .refl m, hsuspended⟩

/-- The sessions of whoever is suspended stay ended. -/
theorem Closed.step {earlier : List (SharingStep P)} (h : Closed s) (hdoes : Does q w)
    (hcuts : Cuts ⟨k, q, w, s⟩ earlier) : Closed (exec A w s) := by
  intro r' hr' hwithdrawn
  rcases session_back hr' with ⟨r, hr, hstep⟩ | rfl
  · have hcontent := hstep.content
    have hviewer : r'.viewerId = r.viewerId := show r'.content.viewerId = r.content.viewerId by rw [hcontent]
    have hspace : r'.spaceId = r.spaceId := show r'.content.spaceId = r.content.spaceId by rw [hcontent]
    rw [hviewer, hspace] at hwithdrawn
    rcases hstep.changed with rfl | ⟨change, rfl, rfl⟩
    · rcases hwithdrawn.back hdoes with hwithdrawn | hbars
      · exact h r' hr hwithdrawn
      · exact hcuts.suspends _ _ hbars r' hr rfl rfl
    · have hbefore : Withdrawn r.viewerId r.spaceId s := hwithdrawn
      exact hcuts.revives r.id change rfl r hr rfl hbefore (h r hr hbefore)
  · exact absurd hwithdrawn (hcuts.starts r' rfl)

/-! ### Runs -/

/-- What a run keeps in which withdrawn access is cut off: whoever a statement leaves suspended still is,
or a claim has come since. -/
structure Shut (D : Deployment P) (σ : SharingLog P) : Prop where
  chained : σ.Chained (exec D.provider) Keyed Stay
  closed : Closed σ.shared
  lasting : ∀ later last earlier, σ.history = later ++ last :: earlier →
    ∀ m ∈ (exec D.provider last.write last.before).members, m.suspended = true →
      (∃ s ∈ later, s.write.Restores m) ∨ ∃ m' ∈ σ.shared.members, MemberStays m m' ∧ m'.suspended = true

variable {σ : SharingLog P} {later earlier : List (SharingStep P)} {last : SharingStep P}

theorem Write.Restores.of_stays {m' : MemberRow} (h : w.Restores m') (hstays : MemberStays m m') :
    w.Restores m := by
  cases w with
  | upsertMember row data => exact ⟨h.1.trans hstays.user, h.2.trans hstays.space⟩
  | _ => exact h.elim

theorem upholds_shut (D : Deployment P) (F : Account.Platform) :
    Upholds (machine D F) (fun step earlier => Does step.request step.write ∧ Cuts step earlier)
      (Shut D) where
  step k q w σ hσ hC := by
    obtain ⟨hdoes, hcuts⟩ := hC
    refine ⟨((kept_keyed D F).chained_perform hσ.chained hdoes).2, hσ.closed.step hdoes hcuts,
      fun later last earlier hhistory m hm hsuspended => ?_⟩
    cases later with
    | nil =>
      obtain ⟨rfl, -⟩ := List.cons.inj hhistory
      exact .inr ⟨m, hm, .refl m, hsuspended⟩
    | cons step later =>
      obtain ⟨rfl, hrest⟩ := List.cons.inj hhistory
      rcases hσ.lasting later last earlier hrest m hm hsuspended with ⟨s, hs, hrestores⟩ | ⟨m', hm', hstays, hsuspended'⟩
      · exact .inl ⟨s, List.mem_cons_of_mem _ hs, hrestores⟩
      by_cases hrestores : w.Restores m'
      · exact .inl ⟨_, List.mem_cons_self, hrestores.of_stays hstays⟩
      · obtain ⟨m'', hm'', hstays', hsuspended''⟩ := suspended_stays hdoes hm' hsuspended' hrestores
        exact .inr ⟨m'', hm'', hstays.trans hstays', hsuspended''⟩
  env e σ hσ := by
    refine ⟨(kept_keyed D F).chained_change hσ.chained e, fun s hs hwithdrawn => ?_,
      fun later last earlier hhistory m hm hsuspended => ?_⟩
    · have hold : s ∈ σ.shared.sessions := sessions_outside e σ.shared ▸ hs
      obtain ⟨m, hm, hsuspended⟩ := hwithdrawn
      exact hσ.closed s hold ⟨m, members_outside e σ.shared ▸ hm, hsuspended⟩
    · refine (hσ.lasting later last earlier hhistory m hm hsuspended).imp_right fun hkept => ?_
      obtain ⟨m', hm', hkept⟩ := hkept
      exact ⟨m', (members_outside e σ.shared).symm ▸ hm', hkept⟩

/-- The member is suspended as long as no claim comes. -/
theorem Shut.withdrawn (hσ : Shut D σ) (hhistory : σ.history = later ++ last :: earlier)
    (hm : m ∈ (exec D.provider last.write last.before).members) (hsuspended : m.suspended = true)
    (hsince : ∀ s ∈ later, ¬ s.write.Restores m) : Withdrawn m.user.text m.spaceId σ.shared := by
  rcases hσ.lasting later last earlier hhistory m hm hsuspended with ⟨s, hs, hrestores⟩ | ⟨m', hm', hstays, hstill⟩
  · exact absurd hrestores (hsince s hs)
  · exact ⟨m', hm', by rw [hstays.user], hstays.space, hstill⟩

/-- What a later statement has found of a session is no session that the member views and that is live. -/
theorem Shut.ended_before (halways : σ.Always (Shut D)) (hhistory : σ.history = later ++ last :: earlier)
    (hm : m ∈ (exec D.provider last.write last.before).members) (hsuspended : m.suspended = true)
    (hsince : ∀ s ∈ later, ¬ s.write.Restores m) {step : SharingStep P} (hstep : step ∈ later) :
    Withdrawn m.user.text m.spaceId step.before ∧ Closed step.before ∧ Stay step.before σ.shared := by
  obtain ⟨newer, older, rfl⟩ := List.append_of_mem hstep
  have hsplit : σ.history = newer ++ step :: (older ++ last :: earlier) := by rw [hhistory]; simp
  have hbefore : Shut D ⟨step.before, older ++ last :: earlier⟩ :=
    halways.2 step (older ++ last :: earlier) ⟨newer, hsplit.symm⟩
  have hmem : step ∈ σ.history := by simp [hsplit]
  refine ⟨hbefore.withdrawn rfl hm hsuspended fun s hs => hsince s ?_, hbefore.closed, ?_⟩
  · exact List.mem_append_right _ (List.mem_cons_of_mem _ hs)
  · exact Stay.trans (halways.1.chained.before step hmem).2 (halways.1.chained.since step hmem)

/-! ### Answers -/

variable {moves : List (Move Request (Outside P))} {w₀ : World P}

/-- Each grant that is answered is of a session that was live. -/
theorem saw_grants {j : Nat} {signed : Account.SignedRequest} {gs : List Api.SignedGrant}
    (h : (run D F w₀ moves).Answered j (.account (.agent .grants signed)) (.account (.remote (.grants gs)))) :
    gs = [] ∨ ∃ step ∈ (run D F w₀ moves).log.own j, ∀ g ∈ gs, ∃ row ∈ step.before.sessions,
      row.state ≠ .ended ∧ g.grant = Api.grantFor row := by
  have hsaw := fun principal : Account.AgentPrincipal =>
    (((Api.saw_pendingGrantsFor F.signer principal.toApi).map Api.RemoteResponse.grants).lift
      Account.World.api Account.Write.api).map Account.Response.remote
  have hserved : ((machine D F).handler (.account (.agent .grants signed))).Saw _ _ :=
    ((Prog.Saw.bind (p := Account.canActivate F.crypto false signed) hsaw).lift
      World.view Write.account).map Response.account
  rcases Concurrent.saw_run hserved w₀ moves h with ⟨_, ⟨⟩, _, ⟨⟩, _, ⟨⟩, hnone⟩ | ⟨step, hstep, _, ⟨⟩, _, ⟨⟩, _, ⟨⟩, hseen⟩
  · exact .inl hnone
  · exact .inr ⟨step, hstep, hseen⟩

/-- Messages are taken from a viewer for a session that was live, and given for one that was there. -/
theorem saw_signals {j : Nat} {token : Option String} {call : Account.ViewerCall} {r : Response} {id : String}
    (h : (run D F w₀ moves).Answered j (.account (.viewer token call)) r) (hcall : SignalsFor id call) :
    ∃ step ∈ (run D F w₀ moves).log.own j, ∃ row ∈ step.before.sessions, row.id = id ∧
      (row.state ≠ .ended ∨ step.request = .account (.viewer token (.signals id))) := by
  cases call with
  | signal id' input =>
    obtain rfl : id' = id := hcall
    have hsaw := fun principal : Account.AuthenticatedPrincipal =>
      (((Api.saw_postSignal principal.userId id' input).map Api.RemoteResponse.posted).lift
        Account.World.api Account.Write.api).map Account.Response.remote
    have hserved : ((machine D F).handler (.account (.viewer token (.signal id' input)))).Saw _ _ :=
      ((Prog.Saw.bind (p := Account.accessTokenGuard F.jwt token) hsaw).lift
        World.view Write.account).map Response.account
    rcases Concurrent.saw_run hserved w₀ moves h with ⟨_, _, _, _, _, _, hnone⟩ | ⟨step, hstep, _, _, _, _, _, _, hseen⟩
    · exact hnone.elim
    · obtain ⟨row, hrow, hid, hlive⟩ := hseen
      exact ⟨step, hstep, row, hrow, hid, .inl hlive⟩
  | signals id' =>
    obtain rfl : id' = id := hcall
    have hsaw := fun principal : Account.AuthenticatedPrincipal =>
      (((Api.saw_collectSignals principal.userId id').map Api.RemoteResponse.signals).lift
        Account.World.api Account.Write.api).map Account.Response.remote
    have hserved : ((machine D F).handler (.account (.viewer token (.signals id')))).Saw _ _ :=
      ((Prog.Saw.bind (p := Account.accessTokenGuard F.jwt token) hsaw).lift
        World.view Write.account).map Response.account
    rcases Concurrent.saw_run hserved w₀ moves h with ⟨_, _, _, _, _, _, hnone⟩ | ⟨step, hstep, _, _, _, _, _, _, hseen⟩
    · exact hnone.elim
    · obtain ⟨row, hrow, hid⟩ := hseen
      exact ⟨step, hstep, row, hrow, hid, .inr (Concurrent.request_of_answered h hstep)⟩
  | _ => exact hcall.elim

/-- A revocation that is through has left the member suspended. -/
theorem suspended_after (hkeyed : Keyed w₀) {user : Token} {spaceId memberId : String}
    {context : RequestContext} {r : Response}
    (hk : (run D F w₀ moves).Answered k (.revokeAccess user spaceId memberId context) r)
    (hhistory : (run D F w₀ moves).log.history = later ++ last :: earlier) (hlast : last.thread = k)
    (hsince : ∀ s ∈ later, s.thread ≠ k) (hcuts : Cuts last earlier) :
    ∃ m ∈ (exec D.provider last.write last.before).members, m.id = memberId ∧ m.suspended = true := by
  obtain ⟨htold, hanswers⟩ := told_run D F w₀ moves
  obtain ⟨m, ⟨read, hread, hfound⟩, ⟨bar, hbar, hwrite⟩, -⟩ := hanswers k _ r hk
  have hlastMem : last ∈ (run D F w₀ moves).log.history := by simp [hhistory]
  have hdoes : Does last.request last.write := by
    obtain ⟨_, -, hdoes, -⟩ := htold.of_mem hlastMem
    exact hdoes
  have hrequest : last.request = .revokeAccess user spaceId memberId context :=
    Concurrent.request_of_answered hk (List.mem_filter.mpr ⟨hlastMem, decide_eq_true hlast⟩)
  -- What the thread has done before its last statement stands in the earlier history.
  have hbefore : ∀ step ∈ (run D F w₀ moves).log.own k, step = last ∨ step ∈ earlier := by
    intro step hstep
    obtain ⟨hmem, hthread⟩ := List.mem_filter.mp hstep
    rw [hhistory, List.mem_append, List.mem_cons] at hmem
    exact hmem.resolve_left fun h => hsince step h (of_decide_eq_true hthread)
  obtain ⟨-, hchained⟩ := (kept_keyed D F).run hkeyed [] moves fun step hstep => by
    obtain ⟨_, -, hdoes, -⟩ := htold.of_mem hstep
    exact hdoes
  have hkeptFrom : ∀ step ∈ earlier, Stay step.before last.before := by
    intro step hstep
    have hmem : step ∈ (run D F w₀ moves).log.history := by simp [hhistory, hstep]
    have hbetween := hchained.between
    rw [show (Run.run (machine D F).step ([] ++ moves) (Config.initial w₀)).log.history = _ from hhistory]
      at hbetween
    have hsince' := (List.pairwise_append.mp hbetween).2.1
    exact Stay.trans (hchained.before step hmem).2 ((List.pairwise_cons.mp hsince').1 step hstep)
  have hthere : ∃ m' ∈ last.before.members, m'.id = memberId := by
    rcases hbefore read hread with rfl | hearlier
    · exact ⟨m, hfound.mem, hfound.id⟩
    · obtain ⟨m', hm', hstays⟩ := (hkeptFrom read hearlier).1 m hfound.mem
      exact ⟨m', hm', hstays.id.trans hfound.id⟩
  obtain ⟨m', hm', hid⟩ := hthere
  rcases hbefore bar hbar with rfl | hearlier
  · rw [hwrite]
    refine ⟨_, Table.mem_update.mpr ⟨m', hm', rfl⟩, ?_⟩
    rw [if_pos (decide_eq_true hid)]
    exact ⟨hid, rfl⟩
  · have hthread : bar.thread = last.thread :=
      (of_decide_eq_true (List.mem_filter.mp hbar).2).trans hlast.symm
    have hsuspended : m'.suspended = true :=
      hcuts.through ⟨bar, hearlier, hthread, _, hwrite⟩ user spaceId memberId context hrequest m' hm' hid
    have hnot : ¬ last.write.Restores m' := by
      rw [hrequest] at hdoes
      intro hrestores
      cases hw : last.write with
      | upsertMember row data =>
        rw [hw] at hdoes
        cases hdoes
      | _ =>
        rw [hw] at hrestores
        exact hrestores
    obtain ⟨m'', hm'', hstays, hstill⟩ := suspended_stays hdoes hm' hsuspended hnot
    exact ⟨m'', hm'', hstays.id.trans hid, hstill⟩

/-- **Withdrawn access** ends remote control in a run in which it is cut off: after the last statement of a
revocation, and until the member's next claim, no session that the member views is live, no grant of one is
handed out, and no message of one is taken or given. -/
theorem access_withdrawn (D : Deployment P) (F : Account.Platform) {w : World P} (hkeyed : Keyed w)
    (hstart : Closed w) (moves : List (Move Request (Outside P)))
    (hcond : ∀ step earlier, step :: earlier <:+ (run D F w moves).log.history → Cuts step earlier)
    {k : Nat} {user : Token} {spaceId memberId : String} {context : RequestContext} {r : Response}
    (hk : (run D F w moves).Answered k (.revokeAccess user spaceId memberId context) r)
    {m : MemberRow} (hm : m ∈ (run D F w moves).log.shared.members) (hid : m.id = memberId)
    {later earlier : List (SharingStep P)} {last : SharingStep P}
    (hhistory : (run D F w moves).log.history = later ++ last :: earlier) (hlast : last.thread = k)
    (hsince : ∀ s ∈ later, s.thread ≠ k ∧ ¬ s.write.Restores m) : CutOff m (run D F w moves) later := by
  obtain ⟨htold, -⟩ := told_run D F w moves
  have hinitial : Shut D (⟨w, []⟩ : SharingLog P) :=
    ⟨⟨hkeyed, by simp, by simp, by simp⟩, hstart, by simp⟩
  have halways := (upholds_shut D F).run hinitial moves fun step earlier hsuffix =>
    ⟨(htold step earlier hsuffix).1, hcond step earlier hsuffix⟩
  have hsuffix : last :: earlier <:+ (run D F w moves).log.history := ⟨later, hhistory.symm⟩
  obtain ⟨m₁, hm₁, hid₁, hsuspended⟩ := suspended_after hkeyed hk hhistory hlast
    (fun s hs => (hsince s hs).1) (hcond last earlier hsuffix)
  -- The row that the revocation has left suspended is the member's now.
  obtain ⟨n, hn, hstays⟩ := (halways.1.chained.since last (by simp [hhistory])).1 m₁ hm₁
  obtain rfl : n = m := Table.eq_of_key halways.1.chained.now.1 hn hm (hstays.id.trans (hid₁.trans hid.symm))
  have hnone : ∀ s ∈ later, ¬ s.write.Restores m₁ := fun s hs hrestores =>
    (hsince s hs).2 (hrestores.of_stays ⟨hstays.id.symm, hstays.user.symm, hstays.space.symm⟩)
  have huser : n.user.text = m₁.user.text := by rw [hstays.user]
  have hthen : ∀ step ∈ later, _ := fun step hstep =>
    Shut.ended_before halways hhistory hm₁ hsuspended hnone hstep
  refine ⟨fun s hs hviews => ?_, fun j signed gs hj hown g hg hfor => ?_,
    fun j token call r hj hown s hs hviews hcall => ?_⟩
  · refine halways.1.closed s hs ?_
    rw [hviews.1, hviews.2, huser, hstays.space]
    exact halways.1.withdrawn hhistory hm₁ hsuspended hnone
  · rcases saw_grants hj with rfl | ⟨step, hstep, hseen⟩
    · cases hg
    obtain ⟨row, hrow, hlive, hgrant⟩ := hseen g hg
    obtain ⟨hwithdrawn, hclosed, -⟩ := hthen step (hown hstep)
    have hviewer : row.viewerId = g.grant.requestedBy := by rw [hgrant]; rfl
    have hspace : row.spaceId = g.grant.spaceId := by rw [hgrant]; rfl
    refine hlive (hclosed row hrow ?_)
    rw [hviewer, hspace, hfor.1, hfor.2, huser, hstays.space]
    exact hwithdrawn
  · obtain ⟨step, hstep, row, hrow, hrowId, hfound⟩ := saw_signals hj hcall
    obtain ⟨hwithdrawn, hclosed, hkept⟩ := hthen step (hown hstep)
    obtain ⟨row', hrow', hcontent⟩ := hkept.2 row hrow
    obtain rfl : row' = s := Table.eq_of_key halways.1.chained.now.2 hrow' hs (hcontent.id.trans hrowId)
    have hviewer : row'.viewerId = row.viewerId := show row'.content.viewerId = row.content.viewerId by
      rw [show row'.content = row.content from hcontent]
    have hspace : row'.spaceId = row.spaceId := show row'.content.spaceId = row.content.spaceId by
      rw [show row'.content = row.content from hcontent]
    have hbarred : Withdrawn row.viewerId row.spaceId step.before := by
      rw [← hviewer, ← hspace, hviews.1, hviews.2, huser, hstays.space]
      exact hwithdrawn
    rcases hfound with hlive | hrequest
    · exact hlive (hclosed row hrow hbarred)
    · have hmem : step ∈ (run D F w moves).log.history := (List.mem_filter.mp hstep).1
      obtain ⟨before, hsuffix, -⟩ := htold.of_mem hmem
      exact (hcond step before hsuffix).polls token row'.id hrequest row hrow hrowId hbarred

/-! ## A guest who watches -/

/-- The guest has asked to see a screen. -/
def benSession (state : Api.RemoteSessionState) : Api.RemoteSessionRow :=
  { Api.newRemoteSession "ben" "d2" "space" ⟨"agent", .view, none, none⟩ "agent" "s1" "nonce-1" 900 900 with
    state := state }

/-- A Space with a guest and a session of the guest. -/
def viewing (state : Api.RemoteSessionState) : World Unit := { withGuest .active with
  account := { quietSpace.account with
    api := { quietSpace.account.api with remoteSessions := [benSession state] } } }

/-- The owner revokes the access of the guest. -/
def adaWithdraws : List (Move Request (Outside Unit)) :=
  served 0 (.revokeAccess ada "space" "m2" noContext) 8

instance : DecidablePred Write.OnMembers := fun w => by
  unfold Write.OnMembers
  split <;> infer_instance

theorem keyed_viewing (state : Api.RemoteSessionState) : Keyed (viewing state) := by
  have hmembers : ((withGuest .active).members.map (·.id)).Nodup := by decide
  exact ⟨hmembers, List.nodup_singleton _⟩

/-- Whoever is suspended views no live session. -/
theorem closed_viewing (state : Api.RemoteSessionState) : Closed (viewing state) := by
  have hmembers : ∀ m ∈ (withGuest .active).members, m.suspended = false := by decide
  rintro s - ⟨m, hm, -, -, hsuspended⟩
  rw [hmembers m hm] at hsuspended
  cases hsuspended

/-- A revocation starts and revives no session. -/
theorem Does.revokes_noted {user : Token} {spaceId memberId : String} {context : RequestContext}
    {w : Account.Write} (h : Does (.revokeAccess user spaceId memberId context) (.account w)) : Noted w := by
  cases h with
  | notes q h => exact h

/-- A guest whose session has ended is cut off by the revocation. -/
theorem access_withdrawn_adaWithdraws : ∃ m ∈ (run home frontDesk (viewing .ended) adaWithdraws).log.shared.members,
    m.user = ben ∧ CutOff m (run home frontDesk (viewing .ended) adaWithdraws) [] := by
  have hrequest : ∀ step ∈ (run home frontDesk (viewing .ended) adaWithdraws).log.history,
      step.request = .revokeAccess ada "space" "m2" noContext := by decide
  have hended : ∀ step ∈ (run home frontDesk (viewing .ended) adaWithdraws).log.history,
      ∀ s ∈ step.before.sessions, s.state = .ended := by decide
  have hthrough : ∀ l ∈ (run home frontDesk (viewing .ended) adaWithdraws).log.history.tails,
      (l.tail.any fun bar => bar.write.OnMembers) = true → ∀ step ∈ l.head?, ∀ m ∈ step.before.members,
        m.id = "m2" → m.suspended = true := by decide
  obtain ⟨htold, -⟩ := told_run home frontDesk (viewing .ended) adaWithdraws
  have hcond : ∀ step earlier, step :: earlier <:+
      (run home frontDesk (viewing .ended) adaWithdraws).log.history → Cuts step earlier := by
    intro step earlier hsuffix
    have hstep := hsuffix.subset List.mem_cons_self
    have hdoes := (htold step earlier hsuffix).1
    rw [hrequest step hstep] at hdoes
    refine ⟨fun _ _ _ s hs _ _ => hended step hstep s hs, fun row hw => ?_, fun id change hw => ?_,
      fun token id hpoll => ?_, fun hbar user spaceId memberId context hrevoke m hm hid => ?_⟩
    · rw [hw] at hdoes
      exact absurd hdoes.revokes_noted (by simp [Noted, Api.Write.Quiet])
    · rw [hw] at hdoes
      exact absurd hdoes.revokes_noted (by simp [Noted, Api.Write.Quiet])
    · rw [hrequest step hstep] at hpoll
      cases hpoll
    · rw [hrequest step hstep] at hrevoke
      obtain ⟨-, -, rfl, -⟩ := Request.revokeAccess.inj hrevoke
      obtain ⟨bar, hbar, -, op, hwrite⟩ := hbar
      refine hthrough _ ((List.mem_tails _ _).mpr hsuffix) ?_ step rfl m hm hid
      exact List.any_eq_true.mpr ⟨bar, hbar, decide_eq_true (by rw [hwrite]; trivial)⟩
  have hanswered : (run home frontDesk (viewing .ended) adaWithdraws).Answered 0
      (.revokeAccess ada "space" "m2" noContext) .revoked := rfl
  obtain ⟨last, earlier, hhistory⟩ : ∃ last earlier,
      (run home frontDesk (viewing .ended) adaWithdraws).log.history = [] ++ last :: earlier := ⟨_, _, rfl⟩
  have hthread : ∀ step ∈ (run home frontDesk (viewing .ended) adaWithdraws).log.history, step.thread = 0 := by
    decide
  refine ⟨_, List.mem_cons_of_mem _ List.mem_cons_self, rfl, ?_⟩
  exact access_withdrawn home frontDesk (keyed_viewing _) (closed_viewing _) adaWithdraws hcond hanswered
    (List.mem_cons_of_mem _ List.mem_cons_self) rfl hhistory (hthread last (by simp [hhistory])) (by simp)

/-- A guest who is connected when the access is revoked stays connected. -/
theorem session_outlives_access :
    (run home frontDesk (viewing .active) adaWithdraws).Answered 0
        (.revokeAccess ada "space" "m2" noContext) .revoked ∧
      ∃ m ∈ (run home frontDesk (viewing .active) adaWithdraws).log.shared.members, m.user = ben ∧
        m.suspended = true ∧ ¬ CutOff m (run home frontDesk (viewing .active) adaWithdraws) [] := by
  refine ⟨rfl, _, List.mem_cons_of_mem _ List.mem_cons_self, rfl, rfl, fun hcut => ?_⟩
  exact absurd (hcut.sessions (benSession .active) List.mem_cons_self ⟨rfl, rfl⟩) (by decide)

end Sharing
