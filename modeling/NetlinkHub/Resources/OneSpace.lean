import NetlinkHub.Concurrent.Trace
import NetlinkHub.Resources.Machine

/-! # A resource in the Space of its agent

The Space of an agent is stored with the agent and with each of its resources. Two statements may put them
apart: an enrollment that moves an agent with resources, and the creation of a resource for an agent that has
been moved since it was looked up. Exactly without these (`Strays`) all resources of a run stay in the Space
of their agents, and whoever uses one is a member of that Space (`stays_iff`). -/

namespace Resources

open Account (AgentPrincipal)
open Api (HttpException RequestContext)
open Concurrent (Breaking Config Machine Move Prog Step)
open Table (Op)

/-! ## Where an agent is -/

/-- The Space that an agent is in. -/
def spaceOf (agentId : String) (w : World) : Option String := (findAgent agentId w).map (·.spaceId)

/-- Every resource is in the Space of its agent. -/
def OneSpace (w : World) : Prop := ∀ r ∈ w.resources, spaceOf r.agentId w = some r.spaceId

instance : DecidablePred OneSpace := fun w => inferInstanceAs (Decidable (∀ r ∈ w.resources, _))

/-- An enrollment moves an agent out of the Space of one of its resources. -/
def MovesAway : Account.Write → World → Prop
  | .upsertAgent row _, w => ∃ r ∈ w.resources,
      (findAgent r.agentId w).any (·.deviceId = row.deviceId) ∧ row.spaceId ≠ r.spaceId
  | _, _ => False

instance (w : Account.Write) (s : World) : Decidable (MovesAway w s) := by
  unfold MovesAway
  split <;> infer_instance

/-- The statement puts a resource and its agent in different Spaces. -/
def Strays : Write → World → Prop
  | .account w, s => MovesAway w s
  | .upsertResource create _, s => ¬ s.resources.any (·.key = create.key) ∧ s.admitsResource create ∧
      spaceOf create.agentId s ≠ some create.spaceId
  | _, _ => False

instance (w : Write) (s : World) : Decidable (Strays w s) := by
  unfold Strays
  split <;> infer_instance

/-- The statement moves no agent but by an enrollment. -/
def Write.Stays : Write → Prop
  | .account w => KeepsPlaces w
  | _ => True

variable {q : Request} {hashSecret : String → String} {s t : World} {w : Write}

theorem ResourcesWrite.stays (h : ResourcesWrite q w) : w.Stays := by
  cases w with
  | account w => exact h
  | _ => trivial

theorem spaceOf_congr (h : t.account.agents = s.account.agents) (agentId : String) :
    spaceOf agentId t = spaceOf agentId s := by
  unfold spaceOf findAgent
  rw [h]

/-- Without an enrollment, each agent is where it was. -/
theorem spaceOf_account {w : Account.Write} (hw : KeepsPlaces w) (hupsert : ∀ row now, w ≠ .upsertAgent row now)
    (s : World) (agentId : String) : spaceOf agentId (exec (.account w) s) = spaceOf agentId s := by
  by_cases hop : ∃ op, w = .agents op
  · obtain ⟨op, rfl⟩ := hop
    cases op with
    | insert clash row => exact hw.elim
    | delete sel => exact hw.elim
    | update sel data =>
      show ((Op.update sel data).apply s.account.agents |>.find? (·.id = agentId)).map (·.spaceId) = _
      rw [Table.find?_update fun a => (hw a).1, Option.map_map]
      refine congrArg (Option.map · (findAgent agentId s)) (funext fun a => ?_)
      simp only [Function.comp_apply]
      split
      · exact (hw a).2
      · rfl
  · refine spaceOf_congr ?_ agentId
    cases w with
    | agents op => exact absurd ⟨op, rfl⟩ hop
    | upsertAgent row now => exact absurd rfl (hupsert row now)
    | createNonce row =>
      show (Account.exec _ s.account).agents = _
      simp only [Account.exec]
      split <;> rfl
    | _ => rfl

/-- An enrollment takes the agent of its device along. -/
theorem spaceOf_upsertAgent (row : Account.AgentRow) (now : Api.Date) {agentId : String}
    {agent : Account.AgentRow} (h : findAgent agentId s = some agent) :
    spaceOf agentId (exec (.account (.upsertAgent row now)) s) =
      some (if agent.deviceId = row.deviceId then row.spaceId else agent.spaceId) := by
  show ((Account.exec (.upsertAgent row now) s.account).agents.find? (·.id = agentId)).map (·.spaceId) = _
  simp only [Account.exec]
  split
  · rename_i hany
    let data : Account.AgentRow → Account.AgentRow := fun a =>
      { a with spaceId := row.spaceId, status := row.status, lastHeartbeatAt := some now }
    have hid : ∀ a, (data a).id = a.id := fun _ => rfl
    show ((Op.update _ data).apply s.account.agents |>.find? (·.id = agentId)).map (·.spaceId) = _
    rw [Table.find?_update hid, show s.account.agents.find? (·.id = agentId) = some agent from h]
    simp only [Option.map_some, decide_eq_true_eq]
    split <;> rfl
  · rename_i hnone
    have hmem : agent ∈ s.account.agents := List.mem_of_find?_eq_some h
    have hother : agent.deviceId ≠ row.deviceId := fun heq =>
      hnone (List.any_eq_true.mpr ⟨agent, hmem, decide_eq_true heq⟩)
    rw [List.find?_append, show s.account.agents.find? (·.id = agentId) = some agent from h, if_neg hother]
    rfl

/-! ## What puts a resource astray -/

/-- An update of resources that keeps where they are and whose. -/
theorem oneSpace_update {sel : ResourceRow → Bool} {data : ResourceRow → ResourceRow}
    (hdata : ∀ r, (data r).agentId = r.agentId ∧ (data r).spaceId = r.spaceId) (h : OneSpace s) :
    OneSpace { s with resources := (Op.update sel data).apply s.resources } := by
  intro r hr
  obtain ⟨r₀, hr₀, rfl⟩ := Table.mem_update.mp hr
  have hbefore : spaceOf r₀.agentId s = some r₀.spaceId := h r₀ hr₀
  split
  · rw [(hdata r₀).1, (hdata r₀).2]
    exact hbefore
  · exact hbefore

theorem oneSpace_account_iff {w : Account.Write} (hw : KeepsPlaces w) (h : OneSpace s) :
    OneSpace (exec (.account w) s) ↔ ¬ MovesAway w s := by
  by_cases hupsert : ∃ row now, w = .upsertAgent row now
  · obtain ⟨row, now, rfl⟩ := hupsert
    constructor
    · rintro hafter ⟨r, hr, hany, hspace⟩
      obtain ⟨agent, hagent, hdevice⟩ := (Option.any_eq_true _ _).mp hany
      have hr' := hafter r hr
      rw [spaceOf_upsertAgent row now hagent, if_pos (of_decide_eq_true hdevice)] at hr'
      exact hspace (Option.some.inj hr')
    · intro hstays r hr
      obtain ⟨agent, hagent, hspace⟩ := Option.map_eq_some_iff.mp (h r hr)
      show spaceOf r.agentId (exec (.account (.upsertAgent row now)) s) = _
      rw [spaceOf_upsertAgent row now hagent]
      split
      · rename_i hdevice
        refine congrArg some (not_not.mp fun hne => hstays ⟨r, hr, ?_, hne⟩)
        rw [hagent]
        exact decide_eq_true hdevice
      · exact congrArg some hspace
  · have hnot : ¬ MovesAway w s := by
      cases w with
      | upsertAgent row now => exact absurd ⟨row, now, rfl⟩ hupsert
      | _ => exact id
    refine iff_of_true (fun r hr => ?_) hnot
    rw [spaceOf_account hw fun row now heq => hupsert ⟨row, now, heq⟩]
    exact h r hr

theorem oneSpace_upsertResource_iff {create : ResourceRow} {update : ResourceUpdate} (h : OneSpace s) :
    OneSpace (exec (.upsertResource create update) s) ↔ ¬ Strays (.upsertResource create update) s := by
  simp only [exec]
  split
  · rename_i hkey
    exact iff_of_true (oneSpace_update (fun r => ⟨rfl, rfl⟩) h) fun hstrays => hstrays.1 hkey
  split
  · rename_i hkey hadmits
    constructor
    · rintro hafter ⟨-, -, hspace⟩
      exact hspace (hafter create (List.mem_append_right _ List.mem_cons_self))
    · intro hstays r hr
      rcases List.mem_append.mp hr with hr | hr
      · exact h r hr
      · obtain rfl := List.mem_singleton.mp hr
        exact not_not.mp fun hspace => hstays ⟨hkey, hadmits, hspace⟩
  · rename_i hadmits
    exact iff_of_true h fun hstrays => hadmits hstrays.2.1

/-- **What one statement may put astray.** -/
theorem oneSpace_exec_iff (hw : w.Stays) (h : OneSpace s) : OneSpace (exec w s) ↔ ¬ Strays w s := by
  cases w with
  | account w => exact oneSpace_account_iff hw h
  | upsertResource create update => exact oneSpace_upsertResource_iff h
  | enableResource id enabled => exact iff_of_true (oneSpace_update (fun r => ⟨rfl, rfl⟩) h) not_false
  | _ => exact iff_of_true h not_false

/-- What happens outside leaves the agents where they are. -/
theorem oneSpace_outside (e : Account.Outside) (h : OneSpace s) : OneSpace (outside e s) := by
  have hagents : (outside e s).account.agents = s.account.agents := by
    cases e with
    | issueCode row =>
      show (Account.outside _ s.account).agents = _
      simp only [Account.outside]
      split <;> rfl
    | _ => rfl
  intro r hr
  rw [spaceOf_congr hagents]
  exact h r hr

theorem oneSpace_breaking (hashSecret : String → String) :
    Breaking (machine hashSecret) Write.Stays (fun _ => True) OneSpace Strays where
  handler q := (only_handler q).mono fun _ => ResourcesWrite.stays
  exec _ _ _ _ := trivial
  env e _ _ := ⟨trivial, oneSpace_outside e⟩
  good_exec_iff _ _ hw _ h := oneSpace_exec_iff hw h

/-! ## Who may use a resource -/

/-- The use of a resource that a request asks for: the user, the Space, the permission, and the resource. -/
structure Use where
  userId : String
  spaceId : String
  permission : String
  kind : ResourceKind
  resourceId : String
  deriving DecidableEq, Repr

/-- The use that a file or print operation asks for. -/
def Request.use : Request → Option Use
  | startTransfer userId spaceId input _ => some ⟨userId, spaceId, input.direction.permission, .folder, input.resourceId⟩
  | requestOperation userId spaceId input _ =>
    some ⟨userId, spaceId, input.operation.permission, .folder, input.resourceId⟩
  | submitPrintJob userId spaceId input _ => some ⟨userId, spaceId, "printers.use", .printer, input.resourceId⟩
  | _ => none

/-- The user is a member of the Space, with the permission. -/
def Use.Granted (u : Use) (w : World) : Prop :=
  ∃ m, Api.findMember u.userId u.spaceId w.account.api = some m ∧ m.suspended = false ∧ u.permission ∈ m.permissions

/-- The resource is shared in the Space. -/
def Use.Offered (u : Use) (w : World) : Prop :=
  ∃ r ∈ w.resources, r.id = u.resourceId ∧ r.spaceId = u.spaceId ∧ r.kind = u.kind ∧ r.enabled

/-- The resource is shared, and its agent is in the Space now. -/
def Use.Reaches (u : Use) (w : World) : Prop :=
  ∃ r ∈ w.resources, r.id = u.resourceId ∧ r.kind = u.kind ∧ r.enabled ∧ spaceOf r.agentId w = some u.spaceId

instance (u : Use) : DecidablePred u.Reaches := fun w =>
  inferInstanceAs (Decidable (∃ r ∈ w.resources, _))

theorem Use.Offered.reaches {u : Use} (h : u.Offered s) (hs : OneSpace s) : u.Reaches s := by
  obtain ⟨r, hr, hid, hspace, hkind, henabled⟩ := h
  exact ⟨r, hr, hid, hkind, henabled, hspace ▸ hs r hr⟩

theorem saw_requirePermission (userId spaceId permission : String) (context : Option RequestContext) :
    (Api.requirePermission userId spaceId permission context).Saw (fun m w =>
      Api.findMember userId spaceId w = some m ∧ m.suspended = false ∧ permission ∈ m.permissions)
      fun _ => False := by
  unfold Api.requirePermission
  simp only [Api.select_bind, Api.newDate_bind, Api.record_bind]
  refine .stmt fun w => ?_
  split
  · trivial
  rename_i member hfound
  refine .stmt fun w' => ?_
  split
  · exact fun _ => trivial
  · rename_i hevaluate
    refine .inl (.inr ⟨hfound, ?_⟩)
    unfold Api.evaluatePermission at hevaluate
    split at hevaluate
    · cases hevaluate
    split at hevaluate
    · cases hevaluate
    split at hevaluate
    · cases hevaluate
    · rename_i hsuspended _ hpermission
      exact ⟨eq_false_of_ne_true hsuspended, not_not.mp hpermission⟩

/-- Whatever comes after the check of the permission has seen the membership. -/
theorem saw_granted {α : Type} (u : Use) (context : Option RequestContext) (f : Api.MemberRow → Service α) :
    (requirePermission u.userId u.spaceId u.permission context >>= f).Saw (fun _ w => u.Granted w)
      fun _ => False :=
  (((saw_requirePermission u.userId u.spaceId u.permission context).lift Account.World.api
    Account.Write.api).lift World.account Write.account).andThen (fun _ => Prog.answers_true _)
      (fun m _ _ _ hseen => ⟨m, hseen⟩) fun _ _ _ h => h

/-- Whatever comes after the look at the resource has seen it. -/
theorem saw_requireShared (kind : ResourceKind) (message spaceId resourceId : String) :
    (requireShared kind message spaceId resourceId).Saw (fun found w =>
      found.1 ∈ w.resources ∧ found.1.id = resourceId ∧ found.1.spaceId = spaceId ∧ found.1.kind = kind ∧
        found.1.enabled) fun _ => False := by
  unfold requireShared
  rw [select_bind]
  refine .stmt fun w => ?_
  split
  · trivial
  rename_i offer hfound
  split
  · trivial
  rename_i hshared
  simp only [not_or, not_not] at hshared
  obtain ⟨hspace, hkind, henabled, -⟩ := hshared
  simp only [findOffer, Option.bind_eq_bind, Option.bind_eq_some_iff] at hfound
  obtain ⟨resource, hresource, agent, hagent, heq⟩ := hfound
  obtain rfl := Option.some.inj heq
  have hid : resource.id = resourceId := by simpa using List.find?_some hresource
  exact .inr ⟨List.mem_of_find?_eq_some hresource, hid, hspace, hkind, henabled⟩

theorem saw_offered {α : Type} (u : Use) (message : String) (f : ResourceRow × Account.AgentRow → Service α) :
    (requireShared u.kind message u.spaceId u.resourceId >>= f).Saw (fun _ w => u.Offered w) fun _ => False :=
  (saw_requireShared u.kind message u.spaceId u.resourceId).andThen (fun _ => Prog.answers_true _)
    (fun found _ _ _ ⟨hmem, hid, hspace, hkind, henabled⟩ => ⟨found.1, hmem, hid, hspace, hkind, henabled⟩)
    fun _ _ _ h => h

/-- An answer has seen what the program behind it has seen. -/
theorem saw_map {α : Type} {p : Service α} {K : World → Prop} (h : p.Saw (fun _ w => K w) fun _ => False)
    (f : α → Response) : (f <$> p).Saw (fun _ w => K w) fun _ => False :=
  h.andThen (fun _ => Prog.answers_true _) (fun _ _ _ _ hK => hK) fun _ _ _ h => h

/-- **What a file or print operation has seen**: the membership, and the resource in the same Space. -/
theorem saw_use (hashSecret : String → String) {u : Use} (h : q.use = some u) :
    (handler hashSecret q).Saw (fun _ w => u.Granted w) (fun _ => False) ∧
      (handler hashSecret q).Saw (fun _ w => u.Offered w) fun _ => False := by
  cases q with
  | startTransfer userId spaceId input context =>
    obtain rfl := Option.some.inj h
    exact ⟨saw_map (saw_granted _ _ _) _,
      saw_map (Prog.Saw.bind fun _ => saw_offered ⟨userId, spaceId, "", .folder, input.resourceId⟩ _ _) _⟩
  | requestOperation userId spaceId input context =>
    obtain rfl := Option.some.inj h
    refine ⟨saw_map (saw_granted _ _ _) _, saw_map ?_ _⟩
    exact Prog.Saw.bind fun _ => Prog.Saw.bind fun _ => Prog.Saw.bind fun _ =>
      saw_offered ⟨userId, spaceId, "", .folder, input.resourceId⟩ _ _
  | submitPrintJob userId spaceId input context =>
    obtain rfl := Option.some.inj h
    refine ⟨saw_map (saw_granted _ _ _) _, saw_map ?_ _⟩
    exact Prog.Saw.bind fun _ => Prog.Saw.bind fun _ =>
      saw_offered ⟨userId, spaceId, "", .printer, input.resourceId⟩ _ _
  | _ => cases h

/-! ## In a run -/

variable {moves : List (Move Request Account.Outside)}

/-- In every state of a run each resource is in the Space of its agent. -/
def StaysInSpace (hashSecret : String → String) (w : World) (moves : List (Move Request Account.Outside)) : Prop :=
  ∀ before after, moves = before ++ after → OneSpace (resourcesRun hashSecret w before).log.shared

/-- Whoever was let use a resource was a member of a Space, with the permission, and the agent of the
resource was in that Space. -/
def UsedByMembers (c : Config World Write HttpException Request Response) : Prop :=
  ∀ i q a u, c.Answered i q a → q.use = some u →
    (∃ step ∈ c.log.own i, u.Granted step.before) ∧ ∃ step ∈ c.log.own i, u.Reaches step.before

/-- While resources stay with their agents, those who use them are members where the agents are. -/
theorem StaysInSpace.usedByMembers (h : StaysInSpace hashSecret s moves) :
    UsedByMembers (resourcesRun hashSecret s moves) := by
  intro i q a u ha huse
  obtain ⟨hgranted, hoffered⟩ := saw_use hashSecret huse
  have hgranted' := (Concurrent.saw_run (M := machine hashSecret) hgranted s moves ha).resolve_left id
  have hoffered' := (Concurrent.saw_run (M := machine hashSecret) hoffered s moves ha).resolve_left id
  refine ⟨hgranted', ?_⟩
  obtain ⟨step, hstep, hseen⟩ := hoffered'
  obtain ⟨later, earlier, heq⟩ := List.append_of_mem (List.mem_filter.mp hstep).1
  obtain ⟨before, m, after, hmoves, hlog, -⟩ :=
    Concurrent.reached_of_suffix (M := machine hashSecret) ⟨later, heq.symm⟩
  have hone := h before (m :: after) hmoves
  rw [hlog] at hone
  exact ⟨step, hstep, hseen.reaches hone⟩

/-- **Resources stay in the Space of their agents, and are used by its members, exactly in the runs in which
no statement puts a resource astray.** -/
theorem stays_iff (hashSecret : String → String) {w : World} (hw : OneSpace w)
    (moves : List (Move Request Account.Outside)) :
    StaysInSpace hashSecret w moves ∧ UsedByMembers (resourcesRun hashSecret w moves) ↔
      ∀ step ∈ (resourcesRun hashSecret w moves).log.history, ¬ Strays step.write step.before := by
  rw [and_iff_left_of_imp StaysInSpace.usedByMembers]
  exact (oneSpace_breaking hashSecret).forall_reached_iff trivial hw moves

/-! ## A computer that moves -/

/-- The owner shares the documents of the computer at home. -/
def shareDocuments : Request :=
  .approveFolder "ada" "home" ⟨"agent", "Documents", "/srv/documents", false⟩ ⟨none, none, none⟩

/-- The computer is enrolled at the office. -/
def enrollAtOffice : Request :=
  .enroll ⟨"install", "key", "Study", "linux", none, none, "office"⟩ ⟨none, none, none⟩

/-- A member at home reads a document. -/
def readDocument : Request :=
  .startTransfer "ben" "home" ⟨"first", .download, "letter.pdf", none, 0⟩ ⟨none, none, none⟩

/-- What the member is answered. -/
def documentTicket : Transfer :=
  ⟨"first", "home", "first", "agent", .download, "letter.pdf", .pending, none, "0", none,
    "1970-01-01T00:00:01.000Z", none, none⟩

/-- The folder is shared, and then the computer is enrolled at the office. -/
def shareAndMove : List (Move Request Account.Outside) :=
  Move.call shareDocuments :: List.replicate 7 (Move.step 0) ++
    Move.call enrollAtOffice :: List.replicate 13 (Move.step 1)

/-- The folder is shared, and a document of it is read. -/
def shareAndRead : List (Move Request Account.Outside) :=
  Move.call shareDocuments :: List.replicate 7 (Move.step 0) ++
    Move.call readDocument :: List.replicate 8 (Move.step 1)

/-- Then the document is read. -/
def readThere : List (Move Request Account.Outside) := .call readDocument :: List.replicate 8 (.step 2)

theorem shareAndRead_stays :
    StaysInSpace id homeWorld shareAndRead ∧ UsedByMembers (resourcesRun id homeWorld shareAndRead) := by
  refine (stays_iff id (w := homeWorld) (by decide) shareAndRead).mpr ?_
  decide +kernel

/-- The folder is at home, the computer at the office, and a member at home uses it. -/
theorem shareAndMove_strays :
    ¬ StaysInSpace id homeWorld (shareAndMove ++ readThere) ∧
      ¬ UsedByMembers (resourcesRun id homeWorld (shareAndMove ++ readThere)) := by
  refine ⟨fun hstays => ?_, fun hused => ?_⟩
  · have hone := hstays shareAndMove readThere rfl
    revert hone
    decide +kernel
  · obtain ⟨-, step, hstep, hreaches⟩ := hused 2 readDocument (.transfer documentTicket) _ rfl rfl
    revert step
    decide +kernel

end Resources
