import NetlinkHub.Sharing.Access
import NetlinkHub.System.Confirmation

/-! # Remote sessions of the control plane

In every run from a control plane without sessions, each session has been created by a call of its viewer,
who was permitted what its mode needs in its Space and has confirmed control (`created_run`). What an agent
is granted is such a session (`granted_run`). -/

namespace Api

open Concurrent (Prog)

/-- A date is written on one line. -/
theorem oneLine_toISOString (d : Date) : OneLine (toISOString d) := by
  unfold OneLine toISOString
  simp only [String.toList_ofList]
  have hdigits := Time.newline_notMem_appendInt
  split
  all_goals simp [hdigits]
  split <;> decide

/-- What a grant says of a session is on single lines. -/
structure RemoteSessionRow.OneLine (row : RemoteSessionRow) : Prop where
  id : Api.OneLine row.id
  spaceId : Api.OneLine row.spaceId
  agentId : Api.OneLine row.agentId
  viewerId : Api.OneLine row.viewerId
  nonce : Api.OneLine row.nonce

/-- A session that is inserted has been drawn and looked up: its texts are single lines. -/
def Write.OneLine : Write → Prop
  | .insertSession row => Api.OneLine row.id ∧ Api.OneLine row.spaceId ∧ Api.OneLine row.agentId ∧ Api.OneLine row.nonce
  | _ => True

theorem Write.OnlyEnds.oneLine {w : Write} (h : w.OnlyEnds) : w.OneLine := by
  cases w with
  | insertSession row => exact h.elim
  | _ => trivial

variable {hashSecret : String → String} {ice : Ice}

theorem oneLine_startSession (userId deviceId : String) {spaceId agentId : String} (input : CreateRemoteSessionRequest)
    (context : RequestContext) (hspace : OneLine spaceId) (hagent : OneLine agentId) :
    (startSession ice userId deviceId spaceId input context agentId).Only Write.OneLine := by
  unfold startSession
  simp only [newDate_bind, randomNonce_bind, randomUUID_bind]
  refine .stmt trivial fun _ => .stmt trivial fun s => .stmt trivial fun s' => .stmt trivial fun _ => ?_
  refine Prog.Only.bind (.stmt ⟨s'.uuid.oneLine, hspace, hagent, s.random.oneLine⟩ fun w => ?_) fun _ => ?_
  · split <;> trivial
  · exact .stmt trivial fun _ => .stmt trivial fun _ => trivial

/-- **A session is created** for an agent that was looked up, with identifiers that were drawn. -/
theorem oneLine_createSession (userId deviceId spaceId : String) (input : CreateRemoteSessionRequest)
    (context : RequestContext) :
    (createSession hashSecret ice userId deviceId spaceId input context).Only Write.OneLine := by
  unfold createSession
  refine ((only_requirePermissions ..).mono fun w hw => hw.onlyEnds.oneLine).bind fun _ => ?_
  rw [select_bind]
  refine .stmt trivial fun w => ?_
  split
  · trivial
  rename_i agent hagent
  split
  · trivial
  rename_i hplace
  obtain ⟨hid, hspace, -⟩ := w.directory.agentIds agent (List.mem_of_find?_eq_some hagent)
  rw [not_or, not_not] at hplace
  rw [newDate_bind]
  refine .stmt trivial fun w => (Prog.only_raiseIf _ _).bind fun _ => ?_
  refine ((only_stepUpFor ..).mono fun w hw => hw.onlyEnds.oneLine).bind fun _ => ?_
  refine (only_expireStale.mono fun w hw => hw.oneLine).bind fun _ => ?_
  rw [select_bind]
  refine .stmt trivial fun w => ?_
  refine ((only_replaceExisting ..).mono fun w hw => hw.oneLine).bind fun _ => ?_
  exact oneLine_startSession _ _ _ _ (hplace.1 ▸ hspace) hid

/-- The grant of a session says what the session has been from the start. -/
theorem grantFor_of_content {r r' : RemoteSessionRow} (h : r'.content = r.content) : grantFor r' = grantFor r := by
  show grantFor r'.content = grantFor r.content
  rw [h]

end Api

namespace ControlPlane

open Api (RemoteSessionRow)
open Concurrent (Config Kept Log Move Prog Step Upholds)
open Sharing (SessionStays)
open Table (Evolves)

variable {P : Type} {D : Sharing.Deployment P} {F : Account.Platform} {A : Sharing.DataProviderAdapter P}
  {q : Request} {s w : World P} {i : Nat} {moves : List (Move Request (Outside P))}

/-! ## The table of sessions -/

/-- The remote sessions. -/
def World.sessions (w : World P) : List RemoteSessionRow := w.sharing.sessions

/-- The session that a statement inserts. -/
def Write.creates : Write → Option RemoteSessionRow
  | .sharing (.account (.api (.insertSession row))) => some row
  | .files (.account (.api (.insertSession row))) => some row
  | _ => none

/-- Of the services of resources, files and printing, a statement beside them at most touches the sessions. -/
theorem sessions_files (w : Resources.Write) (s : World P) :
    (∃ w', w = .account w' ∧ (exec A (.files w) s).sessions = (Sharing.exec A (.account w') s.sharing).sessions) ∨
      (exec A (.files w) s).sessions = s.sessions := by
  cases w with
  | account w => exact .inl ⟨w, rfl, rfl⟩
  | upsertResource create update =>
    right
    simp only [exec, Resources.exec]
    split
    · rfl
    · split <;> rfl
  | _ => exact .inr rfl

/-- **Each session in the table afterwards** was there before, or is new. -/
theorem session_back {w : Write} {r' : RemoteSessionRow} (hr' : r' ∈ (exec A w s).sessions) :
    (∃ r ∈ s.sessions, SessionStays r r') ∨ w.creates = some r' := by
  have hsharing : ∀ w : Sharing.Write, r' ∈ (Sharing.exec A w s.sharing).sessions →
      (∃ r ∈ s.sessions, SessionStays r r') ∨ w = .account (.api (.insertSession r')) := by
    intro w hr'
    refine (Sharing.session_back hr').imp_left fun hold => ?_
    obtain ⟨r, hr, hstep⟩ := hold
    exact ⟨r, hr, hstep.content⟩
  cases w with
  | sharing w =>
    refine (hsharing w hr').imp_right ?_
    rintro rfl
    rfl
  | files w =>
    rcases sessions_files w s with ⟨w', rfl, hsame⟩ | hsame
    · refine (hsharing _ (hsame ▸ hr')).imp_right fun hw => ?_
      obtain rfl := Sharing.Write.account.inj hw
      rfl
    · exact .inl ⟨r', hsame ▸ hr', .refl r'⟩

theorem sessions_step (w : Write) (s : World P) : Evolves SessionStays s.sessions (exec A w s).sessions := by
  cases w with
  | sharing w => exact Sharing.sessions_step w s.sharing
  | files w =>
    rcases sessions_files w s with ⟨w', -, hsame⟩ | hsame
    · rw [hsame]
      exact Sharing.sessions_step _ s.sharing
    · rw [hsame]
      exact Evolves.refl SessionStays.refl _

theorem sessionIds_step (w : Write) (hids : (s.sessions.map (·.id)).Nodup) :
    ((exec A w s).sessions.map (·.id)).Nodup := by
  cases w with
  | sharing w => exact Sharing.sessionIds_step w hids
  | files w =>
    rcases sessions_files w s with ⟨w', -, hsame⟩ | hsame
    · rw [hsame]
      exact Sharing.sessionIds_step _ hids
    · rwa [hsame]

/-- Nothing around the requests touches the sessions. -/
theorem sessions_outside (e : Outside P) (s : World P) : (outside e s).sessions = s.sessions := by
  cases e with
  | sharing o => exact Sharing.sessions_outside o.1 s.sharing
  | _ => rfl

/-- **Sessions stay** what they are, under every run. -/
theorem kept_sessions (D : Sharing.Deployment P) (F : Account.Platform) :
    Kept (machine D F) (fun _ => True) (fun s => (s.sessions.map (·.id)).Nodup)
      fun s t => Evolves SessionStays s.sessions t.sessions where
  refl s := Evolves.refl SessionStays.refl s.sessions
  trans h h' := h.trans SessionStays.trans h'
  step step _ hids := ⟨sessions_step step.write step.before, sessionIds_step step.write hids⟩
  env e s hids := by
    rw [show ((machine D F).env e s).sessions = s.sessions from sessions_outside e s]
    exact ⟨Evolves.refl SessionStays.refl _, hids⟩

/-- Each session was inserted by a statement. -/
def Inserted (σ : ControlLog P) : Prop :=
  ∀ r ∈ σ.shared.sessions, ∃ step ∈ σ.history, ∃ row, step.write.creates = some row ∧ SessionStays row r

theorem upholds_inserted (D : Sharing.Deployment P) (F : Account.Platform) :
    Upholds (machine D F) (fun _ _ => True) Inserted where
  step k q w σ hσ _ := by
    intro r' hr'
    rcases session_back hr' with ⟨r, hr, hstays⟩ | hcreates
    · obtain ⟨step, hstep, row, hrow, hrest⟩ := hσ r hr
      exact ⟨step, List.mem_cons_of_mem _ hstep, row, hrow, hrest.trans hstays⟩
    · exact ⟨_, List.mem_cons_self, r', hcreates, .refl r'⟩
  env e σ hσ := by
    intro r hr
    exact hσ r (sessions_outside e σ.shared ▸ hr)

/-! ## Who creates a session -/

/-- The session is one that the request asks for: its viewer makes the call, is permitted what the mode needs
in the Space of the session, and has confirmed control. -/
structure Created (F : Account.Platform) (q : Request) (row : RemoteSessionRow) (own : List (ControlStep P)) : Prop where
  call : ∃ token input context, q = viewerRequest token (.createSession row.spaceId input context) ∧
    input.mode = row.mode ∧ input.agentId = row.agentId ∧ Presents F token row.viewerId own
  authorised : Api.Authorised World.api Write.api row.viewerId row.spaceId row.mode.permissions
    (row.mode = .control) own
  oneLine : row.OneLine

/-- Only a call for a session creates one. -/
theorem creates_handler (q : Request)
    (hq : ∀ token spaceId input context, q ≠ viewerRequest token (.createSession spaceId input context)) :
    (handler D F q).Only fun w => w.creates = none := by
  cases q with
  | files q =>
    refine Prog.Only.map ((Resources.bound_handler q.1 q.2).lift fun w hw => ?_) _
    cases w with
    | account w => cases w with
      | api w => cases w with
        | insertSession row => exact hw.elim
        | _ => rfl
      | _ => rfl
    | _ => rfl
  | sharing q =>
    refine Prog.Only.map ((Sharing.only_handler D F q).lift fun w hw => ?_) _
    cases hw with
    | notes _ hnoted =>
      rename_i w
      cases w with
      | api w => cases w with
        | insertSession row => exact hnoted.elim
        | _ => rfl
      | _ => rfl
    | serves q hw =>
      rename_i w
      cases w with
      | api w => cases w with
        | insertSession row =>
          -- The request would be a call for a session.
          cases q with
          | viewer token call => cases call with
            | createSession spaceId input context => exact absurd rfl (hq token spaceId input context)
            | _ => exact hw.elim
          | _ => exact hw.elim
        | _ => rfl
      | _ => rfl
    | _ => rfl

/-- Who is permitted something is a member, whose identifier is on a single line. -/
theorem oneLine_of_permitted {user spaceId permission : String} {own : List (ControlStep P)}
    (h : Api.Permitted World.api user spaceId permission own) : Api.OneLine user := by
  obtain ⟨read, -, -, -, m, hm, -⟩ := h
  have huser := List.find?_some hm
  simp only [decide_eq_true_eq] at huser
  exact huser.2 ▸ (World.api read.before).directory.memberIds m (List.mem_of_find?_eq_some hm)

/-- What inserts a session takes effect. -/
theorem acts_of_creates {w : Write} {row : RemoteSessionRow} (h : w.creates = some row) : w.Acts := by
  cases w with
  | sharing w => cases w with
    | account w => cases w with
      | api w => cases w with
        | insertSession row' => trivial
        | _ => cases h
      | _ => cases h
    | _ => cases h
  | files w => cases w with
    | account w => cases w with
      | api w => cases w with
        | insertSession row' => trivial
        | _ => cases h
      | _ => cases h
    | _ => cases h

/-- What a call for a session inserts, for the viewer that the guard has found. -/
theorem traces_creation {token : Option String} {user deviceId spaceId : String}
    {input : Api.CreateRemoteSessionRequest} {context : Api.RequestContext} {own : List (ControlStep P)}
    (hq : q = viewerRequest token (.createSession spaceId input context)) (hpresents : Presents F token user own) :
    ((Api.createSession F.hashSecret F.ice user deviceId spaceId input context).lift World.api Write.api).Traces
      (fun step own => ∀ row, step.write.creates = some row → Created F step.request row own) i q (fun _ _ => True) own := by
  have hE : ∀ w : Api.Write, (Write.api w).creates.isSome → w.Acts := by
    intro w hw
    obtain ⟨row, hrow⟩ := Option.isSome_iff_exists.mp hw
    exact acts_of_creates hrow
  have hshown : ((Api.createSession F.hashSecret F.ice user deviceId spaceId input context).lift World.api
      Write.api).Traces (fun step own => step.write.creates.isSome →
        Api.Authorised (World.api (P := P)) Write.api user spaceId input.mode.permissions (input.mode = .control) own)
      i q _ own := Api.traces_createSession (E := fun w : Write => w.creates.isSome) hE F.ice deviceId input context
  have honly : ((Api.createSession F.hashSecret F.ice user deviceId spaceId input context).lift (World.api (P := P))
      Write.api).Only fun w => ∀ row, w.creates = some row →
        (Api.RemoteRequest.createSession user deviceId spaceId input context).Creates row ∧
          (Api.Write.insertSession row).OneLine := by
    refine ((Api.only_createSession ..).and (Api.oneLine_createSession ..)).lift fun w hw row hrow => ?_
    cases w with
    | insertSession row' =>
      obtain rfl := Option.some.inj hrow
      exact hw
    | _ => cases hrow
  refine (hshown.and_only honly).weaken (fun w s mid hsuffix hT row hrow => ?_) fun _ _ _ _ => trivial
  obtain ⟨hauthorised, hwrite⟩ := hT
  replace hauthorised := hauthorised (by rw [hrow]; rfl)
  obtain ⟨⟨hviewer, -, hspace, hagent, hmode, -⟩, hid, hspaceLine, hagentLine, hnonce⟩ := hwrite row hrow
  have hobserve : Api.Permitted World.api user spaceId "devices.observe" mid :=
    hauthorised.permitted _ (by cases input.mode <;> exact List.mem_cons_self)
  refine ⟨⟨token, input, context, by rw [hq, hspace], hmode.symm, hagent.symm, ?_⟩, ?_, hid, hspaceLine, hagentLine,
    ?_, hnonce⟩
  · rw [hviewer]
    exact Presents.mono hpresents hsuffix.subset
  · rw [hviewer, hspace, hmode]
    exact hauthorised
  · rw [hviewer]
    exact oneLine_of_permitted hobserve

/-- **Every session that is inserted** is created by a call for it. -/
theorem traces_creates (i : Nat) (q : Request) : (handler D F q).Traces
    (fun step own => ∀ row, step.write.creates = some row → Created F step.request row own) i q (fun _ _ => True) [] := by
  by_cases hq : ∃ token spaceId input context, q = viewerRequest token (.createSession spaceId input context)
  swap
  · have hnone : (handler D F q).Only fun w => w.creates = none :=
      creates_handler q fun token spaceId input context heq => hq ⟨token, spaceId, input, context, heq⟩
    refine .of_only hnone (fun w s own hw _ => ⟨fun row hrow => ?_, trivial⟩) trivial
    rw [hw] at hrow
    cases hrow
  obtain ⟨token, spaceId, input, context, rfl⟩ := hq
  rw [handler_viewer]
  refine Prog.Traces.map (K := fun _ _ => True) _ ?_ (fun _ _ _ => trivial) fun _ _ _ => trivial
  -- The guard inserts nothing, and finds the viewer.
  have hguard : (liftAccount (Account.accessTokenGuard F.jwt token) : Service P Account.AuthenticatedPrincipal).Traces
      (fun step own => ∀ row, step.write.creates = some row →
        Created F step.request row own) i
      (viewerRequest token (.createSession spaceId input context))
      (fun r final => ∀ principal, r = .ok principal → Presents F token principal.userId final) [] :=
    (traces_guard (L := fun _ => False) token).weaken
      (fun w s mid _ hT row hrow => (hT (acts_of_creates hrow)).elim) fun r final _ h => h.2
  unfold liftAccount
  rw [Prog.lift_bind]
  refine hguard.bind (fun principal own hpresents => ?_) fun _ _ _ => trivial
  show (liftAccount (Account.Response.remote <$> Account.lift (Api.RemoteResponse.ticket <$> _))).Traces _ _ _ _ _
  rw [liftAccount_map]
  exact Prog.Traces.map (K := fun _ _ => True) _ (traces_creation rfl (hpresents principal rfl)) (fun _ _ _ => trivial)
    fun _ _ _ => trivial

/-! ## Runs -/

/-- **Sessions along a run** that starts with none: each was created by a call for it. -/
theorem created_run (hnone : w.sessions = []) {r : RemoteSessionRow} (hr : r ∈ (run D F w moves).log.shared.sessions) :
    ∃ step earlier row, step :: earlier <:+ (run D F w moves).log.history ∧ step.write.creates = some row ∧
      SessionStays row r ∧ Created F step.request row (earlier.filter (·.thread = step.thread)) := by
  have hstart : Inserted (⟨w, []⟩ : ControlLog P) := by
    intro r hr
    rw [hnone] at hr
    cases hr
  have hinserted := ((upholds_inserted D F).run hstart moves fun _ _ _ => trivial).1
  have htraced : (run D F w moves).log.Traced fun step own => ∀ row, step.write.creates = some row →
      Created F step.request row own :=
    (Concurrent.traced_run (M := machine D F) (K := fun _ _ _ => True) traces_creates w moves).1
  obtain ⟨step, hstep, row, hrow, hstays⟩ := hinserted r hr
  obtain ⟨earlier, hsuffix, hcreated⟩ := htraced.of_mem hstep
  exact ⟨step, earlier, row, hsuffix, hrow, hstays, hcreated row hrow⟩

/-- Each grant that is answered is of a session that was there. -/
theorem saw_grants {j : Nat} {signed : Account.SignedRequest} {gs : List Api.SignedGrant}
    (h : (run D F w moves).Answered j (.sharing (.account (.agent .grants signed)))
      (.sharing (.account (.remote (.grants gs))))) :
    gs = [] ∨ ∃ step ∈ (run D F w moves).log.own j, ∀ g ∈ gs, ∃ row ∈ step.before.sessions,
      g.grant = Api.grantFor row := by
  have hsaw := fun principal : Account.AgentPrincipal =>
    (((Api.saw_pendingGrantsFor F.signer principal.toApi).map Api.RemoteResponse.grants).lift
      Account.World.api Account.Write.api).map Account.Response.remote
  have hserved : ((machine D F).handler (.sharing (.account (.agent .grants signed)))).Saw _ _ :=
    (((((Prog.Saw.bind (p := Account.canActivate F.crypto false signed) hsaw).lift
      Sharing.World.view Sharing.Write.account).map Sharing.Response.account)).lift World.sharing
        Write.sharing).map Response.sharing
  rcases Concurrent.saw_run hserved w moves h with
    ⟨_, ⟨⟩, _, ⟨⟩, _, ⟨⟩, _, ⟨⟩, hno⟩ | ⟨step, hstep, _, ⟨⟩, _, ⟨⟩, _, ⟨⟩, _, ⟨⟩, hseen⟩
  · exact .inl hno
  · refine .inr ⟨step, hstep, fun g hg => ?_⟩
    obtain ⟨row, hrow, -, hgrant⟩ := hseen g hg
    exact ⟨row, hrow, hgrant⟩

/-- **A grant that is answered** is that of a session in the table. -/
theorem granted_run (hids : (w.sessions.map (·.id)).Nodup) {j : Nat} {signed : Account.SignedRequest}
    {gs : List Api.SignedGrant}
    (h : (run D F w moves).Answered j (.sharing (.account (.agent .grants signed)))
      (.sharing (.account (.remote (.grants gs))))) {g : Api.SignedGrant} (hg : g ∈ gs) :
    ∃ r ∈ (run D F w moves).log.shared.sessions, g.grant = Api.grantFor r := by
  have hchained := ((kept_sessions D F).run hids [] moves fun _ _ => trivial).2
  rcases saw_grants h with rfl | ⟨step, hstep, hseen⟩
  · cases hg
  obtain ⟨row, hrow, hgrant⟩ := hseen g hg
  have hmem := List.mem_of_mem_filter hstep
  have hlater : Evolves SessionStays step.before.sessions (run D F w moves).log.shared.sessions :=
    Evolves.trans SessionStays.trans (hchained.before step hmem).2 (hchained.since step hmem)
  obtain ⟨r, hr, hstays⟩ := hlater row hrow
  exact ⟨r, hr, hgrant.trans (Api.grantFor_of_content hstays).symm⟩

end ControlPlane
