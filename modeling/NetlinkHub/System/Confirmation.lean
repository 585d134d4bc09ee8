import NetlinkHub.Account.Severed
import NetlinkHub.Sharing.Passes
import NetlinkHub.System.ControlPlane

/-! # Sensitive capabilities

Some permissions are to be confirmed by a step-up code whenever they are used. Whatever takes effect has
been admitted by a permission that the caller holds; but it has been confirmed only where the service asks
for a code itself, which are control sessions, restarts and shutdowns (`confirmed_iff`). A code confirms one
operation. -/

namespace ControlPlane

open Api (ChallengeRow CodeStays)
open Concurrent (Config Kept Log Move Prog Step)
open Table (Evolves)

variable {P : Type}

/-! ## The contract -/

/-- `STEP_UP_PERMISSIONS`. -/
def stepUpPermissions : List String :=
  ["devices.control", "files.delete", "power.restart", "power.shutdown", "members.manage"]

/-- `requiresStepUp`. -/
def requiresStepUp (permission : String) : Bool := permission ∈ stepUpPermissions

/-- The Space and the permissions that a call is admitted by. -/
def viewerAdmission : Account.ViewerCall → Option (String × List String)
  | .createSession spaceId input _ => some (spaceId, input.mode.permissions)
  | .listSessions spaceId _ => some (spaceId, ["devices.observe"])
  | .requestCommand spaceId input _ => some (spaceId, [input.action.permission])
  | _ => none

/-- The Space and the permissions that a request to the services of Spaces and data is admitted by. -/
def sharingAdmission : Sharing.Request → Option (String × List String)
  | .account (.viewer _ call) => viewerAdmission call
  | .rename _ spaceId .. => some (spaceId, ["members.manage"])
  | .poolSummary _ spaceId => some (spaceId, ["data.manage"])
  | .createPass _ spaceId .. => some (spaceId, ["invitations.create"])
  | .listPasses _ spaceId => some (spaceId, ["members.manage"])
  | .revokePass _ spaceId .. => some (spaceId, ["members.manage"])
  | .myAllocation _ spaceId => some (spaceId, ["data.use"])
  | .memberAccess _ spaceId => some (spaceId, ["members.manage"])
  | .pauseAllocation _ spaceId .. => some (spaceId, ["data.manage"])
  | .updateAllocation _ spaceId .. => some (spaceId, ["data.manage"])
  | .revokeAccess _ spaceId .. => some (spaceId, ["members.manage"])
  | _ => none

/-- The Space and the permissions that a request is admitted by. -/
def Request.admission : Request → Option (String × List String)
  | .sharing q => sharingAdmission q
  | .files ⟨.startTransfer _ spaceId input _, _⟩ => some (spaceId, [input.direction.permission])
  | .files ⟨.requestOperation _ spaceId input _, _⟩ => some (spaceId, [input.operation.permission])
  | .files ⟨.submitPrintJob _ spaceId .., _⟩ => some (spaceId, ["printers.use"])
  | .files _ => none

/-- The request is admitted by a permission that has to be confirmed. -/
def Request.Sensitive (q : Request) : Prop :=
  ∃ a, q.admission = some a ∧ ∃ p ∈ a.2, requiresStepUp p

/-- The service asks for a code. -/
def Request.Asks : Request → Prop
  | .sharing (.account (.viewer _ (.createSession _ input _))) => input.mode = .control
  | .sharing (.account (.viewer _ (.requestCommand _ input _))) => input.action.destructive
  | _ => False

/-! ## Effects and callers -/

/-- The statement takes effect: it changes more than codes, or notes a success. -/
def accountActs : Account.Write → Prop
  | .api w => w.Acts
  | .select _ => False
  | .dateNow => False
  | .random => False
  | _ => True

/-- The statement takes effect. -/
def Write.Acts : Write → Prop
  | .sharing (.account w) => accountActs w
  | .sharing (.select _) => False
  | .files (.account w) => accountActs w
  | .files (.select _) => False
  | .files (.findTransfers _) => False
  | .files (.findPrintJobs _) => False
  | _ => True

/-- The thread has verified an access token as one of the user. -/
def Presents (F : Account.Platform) (token : Option String) (user : String) (own : List (ControlStep P)) : Prop :=
  ∃ t, token = some t ∧ ∃ step ∈ own, ∃ claims,
    F.jwt.verify t step.before.sharing.clock = some claims ∧ claims.sub = user

/-- The user on whose behalf a request is served. -/
def Calls (F : Account.Platform) (user : String) (own : List (ControlStep P)) : Request → Prop
  | .sharing (.account (.viewer token _)) => Presents F token user own
  | .sharing (.rename caller ..) => caller.text = user
  | .sharing (.poolSummary caller _) => caller.text = user
  | .sharing (.createPass caller ..) => caller.text = user
  | .sharing (.listPasses caller _) => caller.text = user
  | .sharing (.revokePass caller ..) => caller.text = user
  | .sharing (.myAllocation caller _) => caller.text = user
  | .sharing (.memberAccess caller _) => caller.text = user
  | .sharing (.pauseAllocation caller ..) => caller.text = user
  | .sharing (.updateAllocation caller ..) => caller.text = user
  | .sharing (.revokeAccess caller ..) => caller.text = user
  | .files ⟨.startTransfer caller .., _⟩ => caller = user
  | .files ⟨.requestOperation caller .., _⟩ => caller = user
  | .files ⟨.submitPrintJob caller .., _⟩ => caller = user
  | _ => False

/-- The tables of the power and remote services. -/
def World.api (w : World P) : Api.World := w.account.api

/-- A statement of the power or remote service. -/
def Write.api (w : Api.Write) : Write := .sharing (.account (.api w))

/-- What a thread has shown before it takes effect: its caller is admitted, and has confirmed what the
service asks a code for. -/
def Admitted (F : Account.Platform) (q : Request) (own : List (ControlStep P)) : Prop :=
  ∀ a, q.admission = some a → ∃ user, Calls F user own q ∧
    Api.Authorised World.api Write.api user a.1 a.2 q.Asks own

/-! ## What each request shows -/

section Traces

variable {D : Sharing.Deployment P} {F : Account.Platform} {q : Request} {i : Nat} {own : List (ControlStep P)}
  {L : List (ControlStep P) → Prop}

theorem Presents.mono {token : Option String} {user : String} {final : List (ControlStep P)}
    (h : Presents F token user own) (hsubset : own ⊆ final) : Presents F token user final := by
  obtain ⟨t, ht, step, hstep, hclaims⟩ := h
  exact ⟨t, ht, step, hsubset hstep, hclaims⟩

theorem Calls.mono {user : String} {final : List (ControlStep P)} (h : Calls F user own q)
    (hsubset : own ⊆ final) : Calls F user final q := by
  unfold Calls at h ⊢
  split at h
  · exact Presents.mono h hsubset
  all_goals exact h

theorem Admitted.cons (s : ControlStep P) (final : List (ControlStep P)) (h : Admitted F q final) :
    Admitted F q (s :: final) := by
  intro a ha
  obtain ⟨user, hcalls, hauthorised⟩ := h a ha
  exact ⟨user, hcalls.mono (List.subset_cons_self _ _), hauthorised.mono (List.subset_cons_self _ _)⟩

/-- The check of a permission, behind which everything of a request stands that asks for no code. -/
theorem admitted_of_permitted {user spaceId permission : String} {final : List (ControlStep P)}
    (ha : q.admission = some (spaceId, [permission])) (hq : ¬ q.Asks) (hcalls : Calls F user final q)
    (h : Api.Permitted World.api user spaceId permission final) : Admitted F q final := by
  intro a ha'
  obtain rfl := Option.some.inj (ha.symm.trans ha')
  exact ⟨user, hcalls, fun p hp => List.mem_singleton.mp hp ▸ h, fun hasks => absurd hasks hq⟩

/-- A request that takes effect only once a permission was found. -/
def ShowsFirst (F : Account.Platform) (i : Nat) (q : Request) {α : Type} (p : Service P α) : Prop :=
  p.Traces (fun step own => step.write.Acts → Admitted F q own) i q
    (fun r final => ∀ a, r = .ok a → Admitted F q final) []

theorem ShowsFirst.andThen {α β : Type} {p : Service P α} (h : ShowsFirst F i q p) (f : α → Service P β) :
    ShowsFirst F i q (p >>= f) := Prog.Traces.andThen Admitted.cons h f

theorem showsFirst_sharing {α : Type} {user : Api.Token} {spaceId permission : String}
    {context : Option Api.RequestContext} {rest : Unit → Sharing.Service P α} (f : α → Sharing.Response)
    (ha : q.admission = some (spaceId, [permission])) (hq : ¬ q.Asks) (hcalls : ∀ own, Calls (P := P) F user.text own q) :
    ShowsFirst (P := P) F i q (Response.sharing <$> (f <$> (Sharing.requirePermission user spaceId permission context >>=
      rest)).lift World.sharing .sharing) := by
  have hacts : ∀ w, (Write.api w).Acts → w.Acts := fun _ h => h
  have hcheck : ((Api.requirePermission user.text spaceId permission context).lift (World.api (P := P))
      Write.api).Traces (fun step own => step.write.Acts → Admitted F q own) i q
        (fun r final => [] <:+ final ∧ ∀ m, r = .ok m →
          Api.Permitted (World.api (P := P)) user.text spaceId permission final) [] :=
    Api.traces_requirePermission hacts permission context
  have heq : (Sharing.requirePermission user spaceId permission context).lift World.sharing Write.sharing =
      (fun _ => ()) <$> (Api.requirePermission user.text spaceId permission context).lift
        (World.api (P := P)) Write.api := by
    unfold Sharing.requirePermission Sharing.liftApi Sharing.lift Account.lift
    rw [Prog.map_eq, Prog.lift_bind, Prog.lift_lift, Prog.lift_lift]
    rfl
  have hshows : ShowsFirst (P := P) F i q ((Sharing.requirePermission user spaceId permission context).lift
      World.sharing .sharing) := by
    rw [heq]
    refine Prog.Traces.map _ hcheck (fun m final h a _ => ?_) fun e final h a ha => nomatch ha
    exact admitted_of_permitted ha hq (hcalls final) (h.2 m rfl)
  rw [Prog.map_eq, Prog.map_eq, Prog.bind_assoc, Prog.lift_bind, Prog.bind_assoc]
  exact hshows.andThen _

theorem showsFirst_files {α : Type} {userId spaceId permission : String}
    {context : Option Api.RequestContext} {rest : Api.MemberRow → Resources.Service α} (f : α → Resources.Response)
    (ha : q.admission = some (spaceId, [permission])) (hq : ¬ q.Asks) (hcalls : ∀ own, Calls (P := P) F userId own q) :
    ShowsFirst (P := P) F i q (Response.files <$> (f <$> (Resources.requirePermission userId spaceId permission context >>=
      rest)).lift World.files .files) := by
  have hacts : ∀ w, (Write.files (.account (.api w))).Acts → w.Acts := fun _ h => h
  have hcheck : ((Api.requirePermission userId spaceId permission context).lift (World.api (P := P))
      fun w => Write.files (.account (.api w))).Traces (fun step own => step.write.Acts → Admitted F q own) i q
        (fun r final => [] <:+ final ∧ ∀ m, r = .ok m →
          Api.Permitted (World.api (P := P)) userId spaceId permission final) [] :=
    Api.traces_requirePermission hacts permission context
  have heq : (Resources.requirePermission userId spaceId permission context).lift World.files Write.files =
      (Api.requirePermission userId spaceId permission context).lift (World.api (P := P))
        fun w => Write.files (.account (.api w)) := by
    unfold Resources.requirePermission Resources.lift Account.lift
    rw [Prog.lift_lift, Prog.lift_lift]
    rfl
  have hshows : ShowsFirst (P := P) F i q ((Resources.requirePermission userId spaceId permission context).lift
      World.files .files) := by
    rw [heq]
    exact hcheck.mono fun r final h m hm => admitted_of_permitted ha hq (hcalls final) (h.2 m hm)
  rw [Prog.map_eq, Prog.map_eq, Prog.bind_assoc, Prog.lift_bind, Prog.bind_assoc]
  exact hshows.andThen _

/-- A program of the account services in the control plane. -/
def liftAccount {α : Type} (p : Account.Service α) : Service P α :=
  p.lift World.account fun w => .sharing (.account w)

/-- The guard of the bearer token finds the user who calls. -/
theorem traces_guard (token : Option String) :
    (liftAccount (Account.accessTokenGuard F.jwt token) : Service P Account.AuthenticatedPrincipal).Traces
      (fun step own => step.write.Acts → L own) i q (fun r final => own <:+ final ∧
        ∀ principal, r = .ok principal → Presents F token principal.userId final) own := by
  unfold Account.accessTokenGuard Account.verifyAccessToken
  split
  · exact ⟨List.suffix_refl _, fun _ h => nomatch h⟩
  rename_i t
  rw [Account.dateNow_bind, Prog.stmt_bind]
  refine .stmt (fun _ h => h.elim) fun s => ?_
  have hclock := List.suffix_cons ⟨i, q, .sharing (.account .dateNow), s⟩ own
  dsimp only
  split
  · exact ⟨hclock, fun _ h => nomatch h⟩
  rename_i claims hclaims
  rw [Prog.done_bind, Account.select_bind]
  refine .stmt (fun _ h => h.elim) fun s' => ?_
  have hdevice := hclock.trans (List.suffix_cons ⟨i, q, .sharing (.account (.select .devices)), s'⟩ _)
  dsimp only
  split
  · exact ⟨hdevice, fun _ h => nomatch h⟩
  split
  · exact ⟨hdevice, fun _ h => nomatch h⟩
  rw [Account.select_bind]
  refine .stmt (fun _ h => h.elim) fun s'' => ?_
  have huser := hdevice.trans (List.suffix_cons ⟨i, q, .sharing (.account (.select .users)), s''⟩ _)
  dsimp only
  split
  · exact ⟨huser, fun _ h => nomatch h⟩
  · refine ⟨huser, fun principal h => ⟨t, rfl, ⟨i, q, .sharing (.account .dateNow), s⟩, by simp, claims, hclaims, ?_⟩⟩
    rw [← Except.ok.inj h]

/-- What the guard and then the call of a user show. -/
theorem showsFirst_viewer {token : Option String}
    (p : Account.AuthenticatedPrincipal → Account.Service Account.Response)
    (hcall : ∀ principal (own : List (ControlStep P)), Presents F token principal.userId own →
      (liftAccount (p principal) : Service P Account.Response).Traces (fun step own => step.write.Acts → Admitted F q own) i q
        (fun r final => ∀ a, r = .ok a → Admitted F q final) own) :
    ShowsFirst (P := P) F i q (liftAccount (Account.accessTokenGuard F.jwt token >>= p)) := by
  unfold liftAccount
  rw [Prog.lift_bind]
  refine (traces_guard token).bind (fun principal own h => ?_) fun e own h a ha => nomatch ha
  exact hcall principal own (h.2 principal rfl)

/-- The request of a user to the account, power and remote services. -/
abbrev viewerRequest (token : Option String) (call : Account.ViewerCall) : Request :=
  .sharing (.account (.viewer token call))

/-- A request of a user is served behind the guard of the bearer token. -/
theorem handler_viewer (token : Option String) (call : Account.ViewerCall) :
    handler D F (viewerRequest token call) = (fun r => Response.sharing (.account r)) <$>
      liftAccount (Account.accessTokenGuard F.jwt token >>= fun principal => call.serve F principal) := by
  show Response.sharing <$> (Sharing.Response.account <$> Sharing.lift (Account.handler F (.viewer token call))).lift
    World.sharing Write.sharing = _
  unfold Sharing.lift liftAccount
  rw [Prog.map_eq, Prog.map_eq, Prog.map_eq, Prog.lift_bind, Prog.lift_lift, Prog.bind_assoc]
  rfl

/-- A call of the power or remote service in the control plane. -/
theorem liftAccount_map {α β : Type} (f : β → Account.Response) (g : α → β) (p : Api.Service α) :
    (liftAccount (f <$> Account.lift (g <$> p)) : Service P Account.Response) =
      (fun a => f (g a)) <$> p.lift World.api Write.api := by
  unfold liftAccount Account.lift
  rw [Prog.map_eq, Prog.map_eq, Prog.lift_bind, Prog.lift_bind, Prog.lift_bind, Prog.lift_lift, Prog.bind_assoc]
  rfl

/-- A call of the power or remote service that has shown what it is admitted by. -/
theorem traces_call {α β : Type} {token : Option String} {call : Account.ViewerCall} {user spaceId : String}
    {permissions : List String} {p : Api.Service α} (f : β → Account.Response) (g : α → β)
    (ha : viewerAdmission call = some (spaceId, permissions)) (hpresents : Presents F token user own)
    (h : (p.lift World.api Write.api).Traces (fun step own => step.write.Acts →
        Api.Authorised World.api Write.api user spaceId permissions (viewerRequest token call).Asks own) i
      (viewerRequest token call) (fun r final => ∀ a, r = .ok a →
        Api.Authorised World.api Write.api user spaceId permissions (viewerRequest token call).Asks final) own) :
    (liftAccount (f <$> Account.lift (g <$> p)) : Service P Account.Response).Traces
      (fun step own => step.write.Acts → Admitted F (viewerRequest token call) own) i (viewerRequest token call)
      (fun r final => ∀ a, r = .ok a → Admitted F (viewerRequest token call) final) own := by
  have hadmitted : ∀ final, own <:+ final →
      Api.Authorised World.api Write.api user spaceId permissions (viewerRequest token call).Asks final →
        Admitted F (viewerRequest token call) final := by
    intro final hsuffix hauthorised a ha'
    obtain rfl := Option.some.inj (ha.symm.trans ha')
    exact ⟨user, Presents.mono hpresents hsuffix.subset, hauthorised⟩
  have hshown : (p.lift World.api Write.api).Traces
      (fun step own => step.write.Acts → Admitted F (viewerRequest token call) own) i (viewerRequest token call)
      (fun r final => ∀ a, r = .ok a → Admitted F (viewerRequest token call) final) own :=
    h.weaken (fun w s mid hsuffix hT hacts => hadmitted mid hsuffix (hT hacts))
      fun r final hsuffix hK a ha => hadmitted final hsuffix (hK a ha)
  rw [liftAccount_map]
  exact hshown.map _ (fun a final hK b _ => hK a rfl) fun e final _ a ha => nomatch ha

/-- A request that is not admitted by a permission has nothing to show. -/
theorem showsFirst_free {α : Type} (h : q.admission = none) (p : Service P α) : ShowsFirst F i q p := by
  have hadmitted : Admitted F q ([] : List (ControlStep P)) := by
    intro a ha
    rw [h] at ha
    cases ha
  exact (Prog.Traces.licensed Admitted.cons hadmitted p).mono fun _ _ hfinal _ _ => hfinal

/-- A request of a user to the account, power and remote services. -/
theorem showsFirst_call {token : Option String} {call : Account.ViewerCall}
    (hq : q = .sharing (.account (.viewer token call)))
    (h : ∀ principal (own : List (ControlStep P)), Presents F token principal.userId own →
      (liftAccount (call.serve F principal) : Service P Account.Response).Traces
        (fun step own => step.write.Acts → Admitted F q own) i q
        (fun r final => ∀ a, r = .ok a → Admitted F q final) own) :
    ShowsFirst (P := P) F i q (handler D F q) := by
  rw [hq, handler_viewer, Prog.map_eq]
  rw [hq] at h
  exact (showsFirst_viewer _ h).andThen _

/-- **Nothing takes effect** before its caller is admitted and has confirmed what the service asks for. -/
theorem showsFirst_handler (q : Request) : ShowsFirst (P := P) F i q (handler D F q) := by
  have hE : ∀ w : Api.Write, (Write.api w).Acts → w.Acts := fun _ h => h
  cases q with
  | sharing q => cases q with
    | account q => cases q with
      | viewer token call => cases call with
        | createSession spaceId input context =>
          refine showsFirst_call rfl fun principal own hpresents => ?_
          exact traces_call .remote .ticket rfl hpresents (Api.traces_createSession hE _ _ _ _)
        | listSessions spaceId limit =>
          refine showsFirst_call rfl fun principal own hpresents => ?_
          exact traces_call .remote .summaries rfl hpresents (Api.traces_behind hE id _ _ _)
        | requestCommand spaceId input context =>
          refine showsFirst_call rfl fun principal own hpresents => ?_
          exact traces_call .power .summary rfl hpresents (Api.traces_requestCommand hE _ _ _)
        | _ => exact showsFirst_free rfl _
      | _ => exact showsFirst_free rfl _
    | rename user spaceId name context => exact showsFirst_sharing _ rfl id fun _ => rfl
    | poolSummary user spaceId => exact showsFirst_sharing _ rfl id fun _ => rfl
    | createPass user spaceId input context => exact showsFirst_sharing _ rfl id fun _ => rfl
    | listPasses user spaceId => exact showsFirst_sharing _ rfl id fun _ => rfl
    | revokePass user spaceId passId context => exact showsFirst_sharing _ rfl id fun _ => rfl
    | myAllocation user spaceId => exact showsFirst_sharing _ rfl id fun _ => rfl
    | memberAccess user spaceId => exact showsFirst_sharing _ rfl id fun _ => rfl
    | pauseAllocation user spaceId memberId paused context => exact showsFirst_sharing _ rfl id fun _ => rfl
    | updateAllocation user spaceId memberId input context => exact showsFirst_sharing _ rfl id fun _ => rfl
    | revokeAccess user spaceId memberId context => exact showsFirst_sharing _ rfl id fun _ => rfl
    | _ => exact showsFirst_free rfl _
  | files q =>
    obtain ⟨q, hq⟩ := q
    cases q with
    | startTransfer userId spaceId input context => exact showsFirst_files _ rfl id fun _ => rfl
    | requestOperation userId spaceId input context => exact showsFirst_files _ rfl id fun _ => rfl
    | submitPrintJob userId spaceId input context => exact showsFirst_files _ rfl id fun _ => rfl
    | _ => exact showsFirst_free rfl _

end Traces

/-! ## Codes that are used -/

section Codes

variable {D : Sharing.Deployment P} {F : Account.Platform} {q : Request} {step a b : ControlStep P} {σ : ControlLog P}
  {user id : String} {own earlier : List (ControlStep P)}

/-- The statement uses up a step-up code of the user that was free. -/
def UsesCode (A : Sharing.DataProviderAdapter P) (user id : String) (step : ControlStep P) : Prop :=
  (∃ c ∈ step.before.codes, c.id = id ∧ c.userId = user ∧ c.purpose = "step_up" ∧ c.consumedAt = none) ∧
    ∀ c ∈ (exec A step.write step.before).codes, c.id = id → c.consumedAt.isSome

/-- What is known of the codes in a run. -/
abbrev Chained (A : Sharing.DataProviderAdapter P) (σ : ControlLog P) : Prop :=
  σ.Chained (exec A) (fun s => (s.codes.map (·.id)).Nodup) fun s t => Evolves CodeStays s.codes t.codes

theorem chained_run (D : Sharing.Deployment P) (F : Account.Platform) {w : World P}
    (hw : (w.codes.map (·.id)).Nodup) (moves : List (Move Request (Outside P))) :
    Chained D.provider (run D F w moves).log :=
  ((kept_codes D F).run hw [] moves (Concurrent.only_run (M := machine D F) (P := fun _ w => w.KeepsCodes)
    keepsCodes_handler w moves)).2

/-- A code that two statements have found is of the same user and for the same purpose. -/
theorem Chained.same_code (h : Chained D.provider σ) (ha : a ∈ σ.history) (hb : b ∈ σ.history)
    {c d : ChallengeRow} (hc : c ∈ a.before.codes) (hd : d ∈ b.before.codes) (hid : d.id = c.id) :
    d.userId = c.userId ∧ d.purpose = c.purpose := by
  have hstays : ∀ {a b : ControlStep P}, a ∈ σ.history → b ∈ σ.history →
      Evolves CodeStays (exec D.provider a.write a.before).codes b.before.codes →
        ∀ {c d : ChallengeRow}, c ∈ a.before.codes → d ∈ b.before.codes → d.id = c.id → CodeStays c d := by
    intro a b ha hb hrel c d hc hd hid
    have hstep : Evolves CodeStays a.before.codes (exec D.provider a.write a.before).codes := (h.before a ha).2
    have hevolves : Evolves CodeStays a.before.codes b.before.codes :=
      Evolves.trans (fun h h' => h.trans h') hstep hrel
    exact hevolves.of_key CodeStays.id_eq (h.before b hb).1 hc hd hid
  by_cases hne : a = b
  · subst hne
    obtain rfl := Table.eq_of_key (h.before a ha).1 hd hc hid
    exact ⟨rfl, rfl⟩
  · rcases h.apart ha hb hne with hrel | hrel
    · have hstay := hstays ha hb hrel hc hd hid
      exact ⟨hstay.user, hstay.purpose⟩
    · have hstay := hstays hb ha hrel hd hc hid.symm
      exact ⟨hstay.user.symm, hstay.purpose.symm⟩

/-- A thread that has confirmed has used up a code of its user. -/
theorem Chained.uses (h : Chained D.provider σ) (hown : own ⊆ σ.history)
    (hconfirmed : Api.Confirmed World.api Write.api user own) :
    ∃ id, ∃ s ∈ own, UsesCode D.provider user id s := by
  obtain ⟨read, hread, c, hc, huser, hpurpose, -, taken, htaken, ⟨now, hwrite⟩, d, hd, hid, hfree⟩ := hconfirmed
  obtain ⟨huser', hpurpose'⟩ := h.same_code (hown hread) (hown htaken) hc hd hid
  refine ⟨c.id, taken, htaken, ⟨d, hd, hid, huser'.trans huser, hpurpose'.trans hpurpose, hfree⟩, fun e he heid => ?_⟩
  rw [hwrite] at he
  obtain ⟨e, -, rfl⟩ := Table.mem_update.mp he
  by_cases hsel : e.id = c.id ∧ e.consumedAt = none
  · rw [if_pos (decide_eq_true hsel)]
    rfl
  · rw [if_neg (by simpa using hsel)] at heid ⊢
    exact Option.isSome_iff_ne_none.mpr fun hnone => hsel ⟨heid, hnone⟩

/-- **A code is used up once.** -/
theorem Chained.used_once (h : Chained D.provider σ) (ha : a ∈ σ.history) (hb : b ∈ σ.history)
    {user' : String} (hua : UsesCode D.provider user id a) (hub : UsesCode D.provider user' id b) : a = b := by
  have hgone : ∀ {a b : ControlStep P} {user user' : String}, b ∈ σ.history → a ∈ σ.history →
      UsesCode D.provider user id a → UsesCode D.provider user' id b →
        ¬ Evolves CodeStays (exec D.provider a.write a.before).codes b.before.codes := by
    intro a b user user' hb ha hua hub hrel
    obtain ⟨c, hc, hid, -⟩ := hua.1
    obtain ⟨d, hd, hdid, -, -, hfree⟩ := hub.1
    -- What became of the code is used up, and it is the code that was found free.
    obtain ⟨c', hc', hstays⟩ := (h.before a ha).2 c hc
    have hused := hua.2 c' hc' (hstays.id_eq.trans hid)
    have hstays' := hrel.of_key CodeStays.id_eq (h.before b hb).1 hc' hd
      (hdid.trans (hstays.id_eq.trans hid).symm)
    rw [Option.isSome_iff_ne_none] at hused
    have := hstays'.consumed (Option.isSome_iff_ne_none.mpr hused)
    rw [hfree] at this
    cases this
  by_contra hne
  rcases h.apart ha hb hne with hrel | hrel
  · exact hgone hb ha hua hub hrel
  · exact hgone ha hb hub hua hrel

/-- What has nothing to do with codes uses none up. -/
theorem not_usesCode (h : step.write.NoCodes) : ¬ UsesCode D.provider user id step := by
  rintro ⟨⟨c, hc, hid, -, -, hfree⟩, hused⟩
  rw [codes_exec h] at hused
  have := hused c hc hid
  rw [hfree] at this
  cases this

/-! ## The claim of the contract -/

/-- A call that is admitted by a permission to be confirmed is asked for a code, or has nothing to do with
codes. -/
theorem Request.Sensitive.asks (h : q.Sensitive) : q.Asks ∨ ∀ q', q ≠ .sharing (.account q') := by
  obtain ⟨a, ha, p, hp, hstepUp⟩ := h
  by_cases hq : ∃ q', q = .sharing (.account q')
  · obtain ⟨q', rfl⟩ := hq
    left
    cases q' with
    | viewer token call => cases call with
      | createSession spaceId input context =>
        obtain rfl := Option.some.inj ha
        show input.mode = .control
        cases hmode : input.mode with
        | control => rfl
        | view =>
          rw [hmode] at hp
          obtain rfl := List.mem_singleton.mp hp
          cases hstepUp
      | listSessions spaceId limit =>
        obtain rfl := Option.some.inj ha
        obtain rfl := List.mem_singleton.mp hp
        cases hstepUp
      | requestCommand spaceId input context =>
        obtain rfl := Option.some.inj ha
        obtain rfl := List.mem_singleton.mp hp
        show input.action.destructive = true
        cases haction : input.action with
        | restart => rfl
        | shutdown => rfl
        | _ =>
          rw [haction] at hstepUp
          cases hstepUp
      | _ => cases ha
    | _ => cases ha
  · exact .inr fun q' heq => hq ⟨q', heq⟩

/-- A request beside those of the account, power and remote services has nothing to do with codes. -/
theorem apart_run (D : Sharing.Deployment P) (F : Account.Platform) (w : World P)
    (moves : List (Move Request (Outside P))) : ∀ step ∈ (run D F w moves).log.history,
      (∀ q', step.request ≠ .sharing (.account q')) → step.write.NoCodes := by
  have hone : ∀ q : Request, (handler D F q).Only fun w => (∀ q', q ≠ .sharing (.account q')) → w.NoCodes := by
    intro q
    by_cases hq : ∀ q', q ≠ .sharing (.account q')
    · exact (noCodes_handler q hq).mono fun _ hw _ => hw
    · exact (Prog.only_true _).mono fun _ _ hq' => absurd hq' hq
  exact Concurrent.only_run (M := machine D F) hone w moves

/-- Whatever takes effect has been admitted. -/
theorem admitted_run (D : Sharing.Deployment P) (F : Account.Platform) (w : World P)
    (moves : List (Move Request (Outside P))) :
    (run D F w moves).log.Traced fun step own => step.write.Acts → Admitted F step.request own := by
  have hone : ∀ (i : Nat) (q : Request), (handler D F q).Traces
      (fun step own => step.write.Acts → Admitted F step.request own) i q (fun _ _ => True) [] := fun i q =>
    (showsFirst_handler q).weaken (fun _ _ _ _ hT => hT) fun _ _ _ _ => trivial
  exact (Concurrent.traced_run (M := machine D F) (K := fun _ _ _ => True) hone w moves).1

/-- **Confirmation along every run.** Of what is admitted by a permission to be confirmed, exactly control
sessions, restarts and shutdowns take effect only after the same call has used up a step-up code of its user.
And no two calls use up the same code. -/
theorem confirmed_iff (D : Sharing.Deployment P) (F : Account.Platform) {w : World P}
    (hw : (w.codes.map (·.id)).Nodup) (moves : List (Move Request (Outside P))) :
    (∀ step earlier, step :: earlier <:+ (run D F w moves).log.history → step.request.Sensitive → step.write.Acts →
      ((∃ user, Calls F user (earlier.filter (·.thread = step.thread)) step.request ∧
        ∃ id, ∃ s ∈ earlier.filter (·.thread = step.thread), UsesCode D.provider user id s) ↔ step.request.Asks)) ∧
    ∀ a ∈ (run D F w moves).log.history, ∀ b ∈ (run D F w moves).log.history, ∀ id user user',
      UsesCode D.provider user id a → UsesCode D.provider user' id b → a.thread = b.thread := by
  have hchained : Chained D.provider (run D F w moves).log := chained_run D F hw moves
  refine ⟨fun step earlier hsuffix hsensitive hacts => ⟨?_, fun hasks => ?_⟩, fun a ha b hb id user user' hua hub => ?_⟩
  · rintro ⟨user, -, id, s, hs, huses⟩
    -- A request that is asked for no code has nothing to do with codes.
    rcases hsensitive.asks with hasks | hapart
    · exact hasks
    have hrequest := Concurrent.requests_run (machine D F) w moves step earlier hsuffix s hs
    have hmem : s ∈ (run D F w moves).log.history :=
      hsuffix.subset (List.mem_cons_of_mem _ (List.mem_of_mem_filter hs))
    exact absurd huses (not_usesCode (apart_run D F w moves s hmem (hrequest ▸ hapart)))
  · have hshown := admitted_run D F w moves step earlier hsuffix hacts
    obtain ⟨a, ha, -⟩ := hsensitive
    obtain ⟨user, hcalls, hauthorised⟩ := hshown a ha
    have hown : earlier.filter (·.thread = step.thread) ⊆ (run D F w moves).log.history := fun s hs =>
      hsuffix.subset (List.mem_cons_of_mem _ (List.mem_of_mem_filter hs))
    exact ⟨user, hcalls, hchained.uses hown (hauthorised.2 hasks)⟩
  · rw [hchained.used_once ha hb hua hub]

end Codes

/-! ## A restart and a revocation -/

/-- A Space with a computer, whose owner has been sent a code. -/
def studyAtHome : World Unit where
  sharing := { Sharing.quietSpace with
    account := { Account.studyAndLaptop with
      api := { Account.studyAndLaptop.api with
        directory := { Account.studyAndLaptop.api.directory with
          agents := [⟨"a1", "space", "d1", "Study", none, some 0, none, none, false, false⟩]
          agentIds := by decide }
        challenges := [⟨"code", "u1", "step_up", "123456", 600000, none, 0, 5⟩] } }
    members := [⟨"m1", "space", ⟨"u1", by decide⟩, "owner", Sharing.ownerPermissions, false, none, 0⟩] }
  resources := []
  transfers := []
  printJobs := []

/-- The owner restarts the computer with the code. -/
def restartStudy : Request := viewerRequest (some Account.laptopToken)
  (.requestCommand "space" ⟨.restart, "a1", some "code", some "123456"⟩ ⟨none, none, none⟩)

/-- A Space with a pass, and no codes. -/
def homeWithPass : World Unit := ⟨Sharing.withPass, [], [], []⟩

/-- A request is carried out alone. -/
abbrev aloneRun (F : Account.Platform) (w : World Unit) (q : Request) :
    Config (World Unit) Write Api.HttpException Request Response :=
  run Sharing.home F w (.call q :: List.replicate 19 (.step 0))

/-- The restart is issued, after its code was used up. -/
theorem confirmed_iff_restart :
    ∃ step earlier, step :: earlier <:+ (aloneRun Account.laptopPlatform studyAtHome restartStudy).log.history ∧
      (∃ op, step.write = .api (.powerCommands op)) ∧
      ∃ user, Calls Account.laptopPlatform user (earlier.filter (·.thread = step.thread)) step.request ∧
        ∃ id, ∃ s ∈ earlier.filter (·.thread = step.thread), UsesCode Sharing.quietProvider user id s := by
  obtain ⟨step, earlier, hsuffix, ⟨op, hop⟩, hrequest⟩ : ∃ step earlier,
      step :: earlier <:+ (aloneRun Account.laptopPlatform studyAtHome restartStudy).log.history ∧
        (∃ op, step.write = .api (.powerCommands op)) ∧ step.request = restartStudy :=
    ⟨_, _, ⟨(aloneRun Account.laptopPlatform studyAtHome restartStudy).log.history.take 1, rfl⟩, ⟨_, rfl⟩, rfl⟩
  have hsensitive : step.request.Sensitive := by
    rw [hrequest]
    exact ⟨_, rfl, "power.restart", by decide, by decide⟩
  have hacts : step.write.Acts := by
    rw [hop]
    trivial
  have hiff := (confirmed_iff Sharing.home Account.laptopPlatform (w := studyAtHome) (by decide) _).1 step earlier hsuffix
    hsensitive hacts
  exact ⟨step, earlier, hsuffix, ⟨op, hop⟩, hiff.mpr (by rw [hrequest]; rfl)⟩

/-- **A pass is revoked** by its owner, which is to be confirmed, without any code. -/
theorem unconfirmed_revocation :
    ¬ ∀ step earlier, step :: earlier <:+ (aloneRun Sharing.frontDesk homeWithPass (.sharing Sharing.adaRevokes)).log.history →
      step.request.Sensitive → step.write.Acts →
        ∃ user, Calls Sharing.frontDesk user (earlier.filter (·.thread = step.thread)) step.request ∧
          ∃ id, ∃ s ∈ earlier.filter (·.thread = step.thread), UsesCode Sharing.quietProvider user id s := by
  intro h
  have hnone : ∀ step ∈ (aloneRun Sharing.frontDesk homeWithPass (.sharing Sharing.adaRevokes)).log.history,
      step.before.codes = [] := by decide +kernel
  have hsuffix : _ :: _ <:+ (aloneRun Sharing.frontDesk homeWithPass (.sharing Sharing.adaRevokes)).log.history :=
    ⟨(aloneRun Sharing.frontDesk homeWithPass (.sharing Sharing.adaRevokes)).log.history.take 1, rfl⟩
  obtain ⟨user, -, id, s, hs, ⟨c, hc, -⟩, -⟩ := h _ _ hsuffix ⟨_, rfl, "members.manage", by decide, by decide⟩ trivial
  rw [hnone s (hsuffix.subset (List.mem_cons_of_mem _ (List.mem_of_mem_filter hs)))] at hc
  cases hc

end ControlPlane
