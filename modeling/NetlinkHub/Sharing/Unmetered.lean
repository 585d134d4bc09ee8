import NetlinkHub.Sharing.Demo
import NetlinkHub.Sharing.Owners

/-! # The data service with its provider

The control plane as it is deployed, with the Demo Provider behind the adapter. The data service asks for the usage
of an allocation by the identifier of its row, under which the provider has none: whatever is shared, for however
long, every member is told that nothing was used, and the plan of the owner stays whole (`untouched_run`). -/

namespace Sharing.DemoDataProvider

open Api (Date HttpException RequestContext Token)
open Concurrent (Config Machine Move Prog)
open Table (Op)

/-! ## The deployment -/

/-- The services with the Demo Provider. -/
def services (hashSecret : String → String) (calendar : Calendar) : Deployment State :=
  ⟨adapter, hashSecret, calendar⟩

/-- What happens between two statements. -/
inductive Outside where
  | account (o : AccountOutside)
  /-- What the provider will draw. -/
  | draws (d : Draws)
  /-- The database will refuse the next update of totals, or not. -/
  | refusesTotals (refuses : Bool)

/-- The world after it. -/
def outside : Outside → World State → World State
  | .account o, w => { w with account := Account.outside o.1 w.account }
  | .draws d, w => { w with provider := { w.provider with draws := d } }
  | .refusesTotals refuses, w => { w with refusesTotals := refuses }

/-- Any number of requests, statement by statement. -/
def machine (D : Deployment State) (F : Account.Platform) :
    Machine (World State) Write HttpException Request Outside Response :=
  ⟨handler D F, exec D.provider, outside⟩

/-- The control plane after a run. -/
abbrev run (D : Deployment State) (F : Account.Platform) (w : World State) (moves : List (Move Request Outside)) :
    Config (World State) Write HttpException Request Response :=
  Run.run (machine D F).step moves (Config.initial w)

/-- The identifier may be one that the provider has made. No UUID is. -/
def Minted (id : String) : Prop := "demo-".toList <+: id.toList

instance : DecidablePred Minted := fun _ => inferInstanceAs (Decidable (_ <+: _))

/-- No allocation of the data service has an identifier of the provider's, or any usage. -/
structure Idle (a : AllocationRow) : Prop where
  id : ¬ Minted a.id
  used : a.usedBytes = 0
  today : a.usedTodayBytes = 0

/-- Nothing was used, as far as the data service and the provider know. -/
structure Untouched (w : World State) : Prop where
  allocated : ∀ e ∈ w.provider.allocations, Minted e.1
  unused : ∀ e ∈ w.provider.usage, e.2 = .zero
  stored : w.usageEvents = []
  idle : ∀ a ∈ w.allocations, Idle a
  uuid : ¬ Minted w.account.api.uuid.text

/-- A statement that leaves it so. -/
def Write.Keeps : Write → Prop
  | .provider (.getUsage id _) => ¬ Minted id
  | .updateAllocation _ data => ∀ a, Idle a → Idle (data a)
  | .updateTotals _ data => ∀ a, Idle a → Idle (data a)
  | .upsertAllocation row data => Idle row ∧ ∀ a, Idle a → Idle (data a)
  | .createUsageEvent _ => False
  | _ => True

variable {w : World State} {id : String}

/-! ## What a statement keeps -/

theorem minted_mint (uuid : String) : Minted (mint uuid) :=
  ⟨uuid.toList, by rw [mint, String.toList_append]⟩

theorem recorded_zero (h : ∀ e ∈ w.provider.usage, e.2 = .zero) (id : String) : w.provider.recorded id = .zero := by
  unfold State.recorded
  cases hfound : w.provider.usage.lookup id with
  | none => rfl
  | some u => exact h _ (Tally.mem_of_lookup hfound)

/-- The provider has no allocation under an identifier of the data service. -/
theorem Untouched.lookup (h : Untouched w) (hid : ¬ Minted id) : w.provider.allocations.lookup id = none := by
  cases hfound : w.provider.allocations.lookup id with
  | none => rfl
  | some a => exact absurd (h.allocated _ (Tally.mem_of_lookup hfound)) hid

theorem Untouched.afterUsage (h : Untouched w) (hid : ¬ Minted id) : w.provider.afterUsage id = w.provider := by
  rw [State.afterUsage, State.session, h.lookup hid]

/-- It answers with no events. -/
theorem Untouched.getUsage (h : Untouched w) (hid : ¬ Minted id) (since : Date) :
    w.provider.getUsage id since = [] := by
  rw [State.getUsage, h.afterUsage hid, h.lookup hid]
  show (w.provider.recorded id).events = []
  rw [recorded_zero h.unused]
  rfl

theorem Untouched.getBalance (h : Untouched w) : w.provider.getBalance = planBytes := by
  have hzero : w.provider.consumed = 0 := by
    refine List.sum_eq_zero fun n hn => ?_
    obtain ⟨e, he, rfl⟩ := List.mem_map.mp hn
    rw [h.unused e he]
    rfl
  rw [State.getBalance, hzero, Nat.sub_zero]

/-- No statement touches what is drawn next. -/
theorem uuid_exec (write : Account.Write) (s : Account.World) :
    (Account.exec write s).api.uuid = s.api.uuid := by
  cases write with
  | api write => cases write <;> rfl
  | upsertAgent row now =>
    simp only [Account.exec]
    split <;> rfl
  | createNonce row =>
    simp only [Account.exec]
    split <;> rfl
  | _ => rfl

theorem idle_update {rows : List AllocationRow} {sel : AllocationRow → Bool} {data : AllocationRow → AllocationRow}
    {now : Date} (h : ∀ a ∈ rows, Idle a) (hdata : ∀ a, Idle a → Idle (data a)) :
    ∀ a ∈ (Op.update sel (Sharing.touch now data)).apply rows, Idle a := by
  intro a ha
  obtain ⟨a₀, ha₀, rfl⟩ := Table.mem_update.mp ha
  split
  · have hidle := hdata a₀ (h a₀ ha₀)
    exact ⟨hidle.id, hidle.used, hidle.today⟩
  · exact h a₀ ha₀

/-- **One statement.** -/
theorem Untouched.exec {write : Write} (h : Untouched w) (hkeeps : Write.Keeps write) :
    Untouched (exec adapter write w) := by
  cases write with
  | account write =>
    refine ⟨h.allocated, h.unused, h.stored, h.idle, ?_⟩
    show ¬ Minted (Account.exec write w.view).api.uuid.text
    rw [uuid_exec]
    exact h.uuid
  | provider call =>
    cases call with
    | createAllocation input =>
      refine ⟨Tally.forall_mem_upsert h.allocated (minted_mint _), Tally.forall_mem_upsert h.unused rfl,
        h.stored, h.idle, h.uuid⟩
    | getUsage id since =>
      have hsame : (Sharing.exec adapter (.provider (.getUsage id since)) w).provider = w.provider :=
        h.afterUsage hkeeps
      exact ⟨hsame ▸ h.allocated, hsame ▸ h.unused, h.stored, h.idle, h.uuid⟩
    | _ => exact h
  | createSpace space owner =>
    simp only [Sharing.exec]
    split
    · exact h
    · exact ⟨h.allocated, h.unused, h.stored, h.idle, h.uuid⟩
  | updateAllocation id data => exact ⟨h.allocated, h.unused, h.stored, idle_update h.idle hkeeps, h.uuid⟩
  | updateTotals id data =>
    simp only [Sharing.exec]
    split
    · exact h
    · exact ⟨h.allocated, h.unused, h.stored, idle_update h.idle hkeeps, h.uuid⟩
  | upsertAllocation row data =>
    refine ⟨h.allocated, h.unused, h.stored, fun a ha => ?_, h.uuid⟩
    rcases of_mem_upsert ha with ha | rfl | ⟨a₀, ha₀, -, rfl⟩
    · exact h.idle a ha
    · exact ⟨hkeeps.1.id, hkeeps.1.used, hkeeps.1.today⟩
    · have hidle := hkeeps.2 a₀ (h.idle a₀ ha₀)
      exact ⟨hidle.id, hidle.used, hidle.today⟩
  | createUsageEvent row => exact hkeeps.elim
  | _ => exact ⟨h.allocated, h.unused, h.stored, h.idle, h.uuid⟩

/-! ## Requests that hear of no usage -/

section Quiet

variable {α : Type} {D : Deployment State} {user : Token} {spaceId : String}

theorem keeps_lift (p : Account.Service α) : (lift p : Service State α).Only Write.Keeps :=
  (Prog.only_true p).lift fun _ _ => trivial

theorem keeps_select (table : TableName) (answer : World State → α) :
    (select table answer : Service State α).Only Write.Keeps := (Prog.only_perform _ _).mpr trivial

theorem keeps_requirePermission (permission : String) (context : Option RequestContext) :
    (requirePermission user spaceId permission context : Service State Unit).Only Write.Keeps :=
  (keeps_lift _).map _

theorem keeps_ask {call : ProviderCall} {answer : State → Except HttpException α}
    (h : Write.Keeps (.provider call)) : (ask call answer).Only Write.Keeps := by
  refine .stmt h fun w => ?_
  split <;> trivial

theorem keeps_openSpace (name : String) (context : Option RequestContext) :
    (openSpace user name context : Service State SpaceRow).Only Write.Keeps := by
  refine (keeps_lift _).bind fun id => (keeps_lift _).bind fun memberId => (keeps_lift _).bind fun now => ?_
  refine Prog.Only.bind (.stmt (by trivial) fun w => ?_) fun _ => (keeps_lift _).bind fun _ => by trivial
  split <;> trivial

theorem keeps_poolSummary (A : DataProviderAdapter State) : (poolSummary A user spaceId).Only Write.Keeps := by
  refine (keeps_requirePermission ..).bind fun _ => (keeps_select ..).bind fun found => ?_
  split
  · trivial
  · exact (keeps_ask (by trivial)).bind fun _ => by trivial

theorem keeps_toPassSummary (invitation : InvitationRow) (spaceName : String) :
    (toPassSummary invitation spaceName : Service State PassSummary).Only Write.Keeps := by
  unfold toPassSummary
  simp only [dateNow_bind]
  split
  · exact .stmt (by trivial) fun _ => by trivial
  · trivial

theorem keeps_toPassSummaries (invitations : List (InvitationRow × String)) :
    (toPassSummaries invitations : Service State (List PassSummary)).Only Write.Keeps := by
  induction invitations with
  | nil => trivial
  | cons i invitations ih => exact (keeps_toPassSummary ..).bind fun _ => ih.bind fun _ => by trivial

theorem keeps_checkAmount (A : DataProviderAdapter State) (input : CreatePassRequest) :
    (checkAmount A user spaceId input).Only Write.Keeps := by
  unfold checkAmount
  split
  · trivial
  · refine (keeps_select ..).bind fun pool => ?_
    split
    · trivial
    · exact (keeps_poolSummary A).bind fun _ => Prog.only_raiseIf ..

theorem keeps_updateAllocationRow {data : AllocationRow → AllocationRow} (h : ∀ a, Idle a → Idle (data a)) :
    (updateAllocationRow id data : Service State AllocationRow).Only Write.Keeps := by
  refine .stmt h fun w => ?_
  split <;> trivial

theorem keeps_requireAllocation (memberId : String) :
    (requireAllocation spaceId memberId : Service State AllocationRow).Only Write.Keeps := by
  refine (keeps_select ..).bind fun allocation => ?_
  split
  · trivial
  · split <;> trivial

/-- The requests that neither refresh nor open an allocation. -/
def Quiet : Request → Prop
  | .claimPass .. => False
  | q => ¬ q.Refreshes

/-- **What the other requests do.** -/
theorem keeps_handler (F : Account.Platform) {q : Request} (h : Quiet q) : (handler D F q).Only Write.Keeps := by
  cases q with
  | account q => exact (keeps_lift _).map _
  | ensureDefaultSpace user context =>
    refine Prog.Only.map ((keeps_select ..).bind fun existing => ?_) _
    split
    · trivial
    · exact (keeps_openSpace ..).map _
  | createSpace user name context => exact Prog.Only.map ((keeps_openSpace ..).bind fun _ => by trivial) _
  | rename user spaceId name context =>
    refine Prog.Only.map ((keeps_requirePermission ..).bind fun _ => Prog.Only.bind (.stmt (by trivial) fun w => ?_)
      fun _ => by trivial) _
    split <;> trivial
  | connectPool user spaceId accountRef context =>
    refine Prog.Only.map ((keeps_lift _).bind fun _ => (keeps_ask (by trivial)).bind fun account => ?_) _
    refine (Prog.only_raiseIf ..).bind fun _ => (keeps_ask (by trivial)).bind fun plan => ?_
    refine (keeps_lift _).bind fun id => ?_
    refine Prog.Only.bind (.stmt (by trivial) fun w => ?_) fun _ => keeps_poolSummary _
    split <;> trivial
  | poolSummary user spaceId => exact (keeps_poolSummary _).map _
  | createPass user spaceId input context =>
    refine Prog.Only.map ((keeps_requirePermission ..).bind fun _ => (keeps_checkAmount ..).bind fun _ => ?_) _
    refine (keeps_lift _).bind fun token => (keeps_lift _).bind fun id => (keeps_lift _).bind fun now => ?_
    refine Prog.Only.bind (.stmt (by trivial) fun w => ?_) fun _ => (keeps_lift _).bind fun _ =>
      (keeps_toPassSummary ..).bind fun _ => by trivial
    split <;> trivial
  | listPasses user spaceId =>
    refine Prog.Only.map ((keeps_requirePermission ..).bind fun _ => (keeps_select ..).bind fun found => ?_) _
    exact keeps_toPassSummaries _
  | revokePass user spaceId passId context =>
    refine Prog.Only.map ((keeps_requirePermission ..).bind fun _ => (keeps_select ..).bind fun found => ?_) _
    split
    · trivial
    · refine (keeps_lift _).bind fun now => Prog.Only.bind (.stmt (by trivial) fun w => ?_) fun _ => keeps_lift _
      split <;> trivial
  | pauseAllocation user spaceId memberId paused context =>
    refine Prog.Only.map ((keeps_requirePermission ..).bind fun _ => (keeps_requireAllocation ..).bind fun a => ?_) _
    have hdata : ∀ pausedAt a, Idle a → Idle (AllocationRow.setPaused paused pausedAt a) :=
      fun _ _ h => ⟨h.id, h.used, h.today⟩
    refine Prog.Only.bind ?_ fun pausedAt => (keeps_updateAllocationRow (hdata pausedAt)).bind fun _ =>
      (keeps_lift _).bind fun _ => by trivial
    unfold pausedSince
    split
    · exact (keeps_lift _).map _
    · trivial
  | updateAllocation user spaceId memberId input context =>
    refine Prog.Only.map ((keeps_requirePermission ..).bind fun _ => (keeps_requireAllocation ..).bind fun a => ?_) _
    have hdata : ∀ a, Idle a → Idle (AllocationRow.limited input a) := fun _ h => ⟨h.id, h.used, h.today⟩
    exact (Prog.only_raiseIf ..).bind fun _ => (keeps_updateAllocationRow hdata).bind fun _ => keeps_lift _
  | revokeAccess user spaceId memberId context =>
    refine Prog.Only.map ((keeps_requirePermission ..).bind fun _ => (keeps_select ..).bind fun found => ?_) _
    split
    · trivial
    split
    · trivial
    split
    · trivial
    refine Prog.Only.bind ?_ fun _ => Prog.Only.bind (.stmt (by trivial) fun w => ?_) fun _ =>
      .stmt (by trivial) fun _ => keeps_lift _
    · unfold revokeAllocation
      split
      · trivial
      · have hdata : ∀ now a, Idle a → Idle (AllocationRow.revoked now a) := fun _ _ h => ⟨h.id, h.used, h.today⟩
        exact (keeps_lift _).bind fun now => (keeps_updateAllocationRow (hdata now)).bind fun _ => by trivial
    · split <;> trivial
  | disconnect socket => exact .stmt (by trivial) fun _ => by trivial
  | claimPass user token context => exact h.elim
  | myAllocation user spaceId => exact absurd trivial h
  | memberAccess user spaceId => exact absurd trivial h

end Quiet

/-! ## Claims and refreshes -/

/-- A program leaves nothing used, and comes to something of a kind. -/
abbrev Leaves {α : Type} (K : Except HttpException α → Prop) (p : Service State α) : Prop :=
  p.Maintains (exec adapter) Untouched K

variable {α β : Type} {K : Except HttpException α → Prop} {G : Except HttpException β → Prop}

theorem leaves_of_only {p : Service State α} (h : p.Only Write.Keeps) : Leaves (fun _ => True) p :=
  .of_only h fun _ _ hkeeps hw => hw.exec hkeeps

/-- A part that only keeps, and then the rest. -/
theorem leaves_bind {p : Service State α} {f : α → Service State β} (h : p.Only Write.Keeps)
    (hf : ∀ a, Leaves G (f a)) (hraise : ∀ e, G (.error e)) : Leaves G (p >>= f) :=
  (leaves_of_only h).bind (fun a _ => hf a) fun e _ => hraise e

theorem leaves_stmt {write : Write} {next : World State → Service State α} (h : Write.Keeps write)
    (hnext : ∀ w, Untouched w → Leaves K (next w)) : Leaves K (.stmt write next) :=
  .stmt (fun _ hw => hw.exec h) hnext

/-- The row of an allocation that a claim opens. -/
theorem idle_newAllocation (input : OpenAllocation) (poolId : String) (hid : ¬ Minted id) :
    Idle (newAllocation input poolId id) := ⟨hid, rfl, rfl⟩

theorem leaves_openFor (user : Token) (i : InvitationRow) (memberId : String) :
    Leaves (fun _ => True) (openFor adapter user i memberId) := by
  unfold openFor openAllocation
  split
  · trivial
  refine leaves_bind (keeps_select ..) (fun pool => ?_) fun _ => trivial
  split
  · trivial
  refine leaves_bind (keeps_ask trivial) (fun _ => ?_) fun _ => trivial
  rw [randomUUID_bind]
  refine leaves_stmt trivial fun w hw => leaves_bind ?_ (fun _ => leaves_of_only (keeps_lift _)) fun _ => trivial
  refine .stmt ⟨idle_newAllocation _ _ hw.uuid, fun a h => ⟨h.id, h.used, h.today⟩⟩ fun w => ?_
  split <;> trivial

theorem leaves_claimPass (D : Deployment State) (hD : D.provider = adapter) (user : Token) (token : String)
    (context : RequestContext) : Leaves (fun _ => True) (claimPass D user token context) := by
  have hjoin : ∀ i spaceName, Leaves (fun _ => True) (join adapter user i spaceName context) := by
    intro i spaceName
    refine leaves_bind (keeps_lift _) (fun id => leaves_bind (keeps_lift _) (fun now => ?_) fun _ => trivial)
      fun _ => trivial
    refine leaves_bind ?_ (fun member => ?_) fun _ => trivial
    · refine .stmt trivial fun w => ?_
      split
      · trivial
      · split <;> trivial
    · refine (leaves_openFor ..).bind (fun _ _ => leaves_of_only ?_) fun _ _ => trivial
      exact (keeps_lift _).bind fun _ => .stmt (by trivial) fun _ => by trivial
  have hopen : ∀ i space, Leaves (fun _ => True) (claimOpen adapter user i space context) := by
    intro i space
    refine leaves_bind (keeps_select ..) (fun found => ?_) fun _ => trivial
    split
    · trivial
    split
    · exact leaves_of_only ((keeps_lift _).bind fun _ => by trivial)
    split
    · trivial
    refine leaves_bind (keeps_lift _) (fun now => leaves_bind ?_ (fun count => ?_) fun _ => trivial) fun _ => trivial
    · exact (Prog.only_perform _ _).mpr trivial
    · split
      · trivial
      · exact hjoin _ _
  unfold claimPass
  rw [hD]
  refine leaves_bind (keeps_select ..) (fun found => ?_) fun _ => trivial
  split
  · trivial
  split
  · trivial
  refine leaves_bind (keeps_lift _) (fun now => ?_) fun _ => trivial
  split
  · trivial
  · exact hopen _ _

/-- A refresh comes to a row with nothing used. -/
def Refreshed : Except HttpException AllocationRow → Prop
  | .ok a => Idle a
  | .error _ => True

theorem mem_of_findAllocation {a : AllocationRow} (h : findAllocation id w = some a) :
    a ∈ w.allocations ∧ a.id = id := ⟨List.mem_of_find?_eq_some h, by simpa using List.find?_some h⟩

theorem leaves_updateAllocationRow {data : AllocationRow → AllocationRow} (hdata : ∀ a, Idle a → Idle (data a)) :
    Leaves Refreshed (updateAllocationRow id data) := by
  refine leaves_stmt hdata fun w hw => ?_
  split
  · trivial
  · rename_i a hfound
    have hidle := hdata a (hw.idle a (mem_of_findAllocation hfound).1)
    exact ⟨hidle.id, hidle.used, hidle.today⟩

/-- What was counted is nothing, and nothing is added. -/
theorem leaves_pullUsage {D : Deployment State} (hD : D.provider = adapter) {a : AllocationRow} (ha : Idle a)
    (today : Date) : Leaves (fun r => ∀ used, r = .ok used → used = ⟨0, 0⟩) (pullUsage D a.id a today) := by
  have hcounted : a.counted D.calendar today = ⟨0, 0⟩ := by
    rw [AllocationRow.counted, ha.used, ha.today, ite_self]
  unfold pullUsage
  split
  · rw [ask_bind]
    refine leaves_stmt ha.id fun w hw => ?_
    have hanswer : D.provider.getUsage a.id a.updatedAt w.provider = .ok [] := by
      rw [hD]
      exact congrArg Except.ok (hw.getUsage ha.id a.updatedAt)
    rw [hanswer]
    exact fun used hused => (Except.ok.inj hused).symm.trans hcounted
  · exact fun used hused => (Except.ok.inj hused).symm.trans hcounted

theorem leaves_saveUsage {a : AllocationRow} (today : Date) :
    Leaves Refreshed (saveUsage a.id a ⟨0, 0⟩ today : Service State AllocationRow) := by
  have hupdate : ∀ data : AllocationRow → AllocationRow, (∀ b, Idle b → Idle (data b)) → Leaves Refreshed
      (updateTotals a.id data >>= fun updated => do
        Prog.perform (.publish ⟨a.spaceId, a.memberId, 0⟩) fun _ => ()
        .done updated : Service State AllocationRow) := by
    intro data hdata
    unfold updateTotals
    rw [Prog.stmt_bind]
    refine leaves_stmt hdata fun w hw => ?_
    split
    · trivial
    split
    · trivial
    · rename_i b hfound
      have hidle := hdata b (hw.idle b (mem_of_findAllocation hfound).1)
      exact leaves_stmt trivial fun _ _ => ⟨hidle.id, hidle.used, hidle.today⟩
  unfold saveUsage totalsOf
  split
  · rw [newDate_bind]
    exact leaves_stmt trivial fun w _ => hupdate _ fun b hb => ⟨hb.id, rfl, rfl⟩
  · exact hupdate _ fun b hb => ⟨hb.id, rfl, rfl⟩

/-- **A refresh.** -/
theorem leaves_refreshUsage {D : Deployment State} (hD : D.provider = adapter) (id : String) :
    Leaves Refreshed (refreshUsage D id) := by
  unfold refreshUsage
  rw [select_bind]
  refine leaves_stmt trivial fun w hw => ?_
  split
  · trivial
  rename_i a hfound
  obtain ⟨hmem, rfl⟩ := mem_of_findAllocation hfound
  have ha := hw.idle a hmem
  split
  · exact ha
  refine leaves_bind (keeps_lift _) (fun now => ?_) fun _ => trivial
  split
  · exact leaves_updateAllocationRow fun b hb => ⟨hb.id, hb.used, hb.today⟩
  refine leaves_bind (keeps_lift _) (fun now => ?_) fun _ => trivial
  refine (leaves_pullUsage hD ha _).bind (fun used hused => ?_) fun _ _ => trivial
  rw [hused used rfl]
  exact leaves_saveUsage _

/-! ## What everyone is told -/

/-- The row of a member shows no usage. -/
def Blank (row : MemberAccessRow) : Prop :=
  ∀ a, row.allocation = some a → a.usedBytes = 0 ∧ a.usedTodayBytes = 0 ∧ a.remainingBytes = a.allocatedBytes

/-- What a member or an owner is told: nothing was used. -/
def Shows : Request → Except HttpException Response → Prop
  | .myAllocation .., .ok (.mine a) => a.usedBytes = 0 ∧ a.usedTodayBytes = 0 ∧ a.remainingBytes = a.allocatedBytes
  | .memberAccess .., .ok (.rows rows) => ∀ row ∈ rows, Blank row
  | .poolSummary .., .ok (.pool s) => s.balanceBytes = planBytes ∧ s.usedBytes = 0
  | .connectPool .., .ok (.pool s) => s.balanceBytes = planBytes ∧ s.usedBytes = 0
  | _, _ => True

/-- A summary of the pool. -/
def Summed : Except HttpException DataPoolSummary → Prop
  | .ok s => s.balanceBytes = planBytes ∧ s.usedBytes = 0
  | .error _ => True

theorem leaves_poolSummary (user : Token) (spaceId : String) : Leaves Summed (poolSummary adapter user spaceId) := by
  refine leaves_bind (keeps_requirePermission ..) (fun _ => ?_) fun _ => trivial
  unfold selectPool
  rw [select_bind]
  refine leaves_stmt trivial fun w hw => ?_
  split
  · trivial
  rename_i pool allocations hfound
  obtain ⟨pool', hpool, heq⟩ := Option.map_eq_some_iff.mp hfound
  obtain ⟨rfl, rfl⟩ := Prod.mk.inj heq
  have hused : ((allocationsOf pool'.id w).map (·.usedBytes)).sum = 0 := by
    refine List.sum_eq_zero fun n hn => ?_
    obtain ⟨a, ha, rfl⟩ := List.mem_map.mp hn
    exact (hw.idle a (List.mem_filter.mp ha).1).used
  rw [ask_bind]
  refine leaves_stmt trivial fun w' hw' => ?_
  exact ⟨hw'.getBalance, hused⟩

/-- The rows of the Member Access page. -/
def Listed : Except HttpException (List MemberAccessRow) → Prop
  | .ok rows => ∀ row ∈ rows, Blank row
  | .error _ => True

theorem leaves_accessRows {D : Deployment State} (hD : D.provider = adapter) (members : List MemberView) :
    Leaves Listed (accessRows D members) := by
  induction members with
  | nil => exact nofun
  | cons m members ih =>
    have hrefresh : Leaves (fun r => ∀ a, r = .ok (some a) → Idle a) (refreshFor D m.allocation) := by
      unfold refreshFor
      split
      · exact fun a h => nomatch h
      · refine (leaves_refreshUsage hD _).map _ (fun b hb a h => ?_) fun _ _ a h => nomatch h
        obtain rfl := Option.some.inj (Except.ok.inj h)
        exact hb
    refine hrefresh.bind (fun allocation hallocation => ih.bind (fun rows hrows => ?_) fun _ _ => trivial)
      fun _ _ => trivial
    refine List.forall_mem_cons.mpr ⟨fun a ha => ?_, hrows⟩
    obtain ⟨row, rfl, rfl⟩ := Option.map_eq_some_iff.mp ha
    have hidle := hallocation row rfl
    exact ⟨hidle.used, hidle.today, by rw [AllocationRow.access, hidle.used]; rfl⟩

/-- **Every request.** -/
theorem leaves_handler {D : Deployment State} (hD : D.provider = adapter) (F : Account.Platform) (q : Request) :
    Leaves (Shows q) (handler D F q) := by
  have hquiet : Quiet q → (∀ r, Shows q r) → Leaves (Shows q) (handler D F q) := fun hq hshows =>
    (leaves_of_only (keeps_handler F hq)).mono fun r _ => hshows r
  cases q with
  | claimPass user token context =>
    exact (leaves_claimPass D hD user token context).map _ (fun _ _ => trivial) fun _ _ => trivial
  | myAllocation user spaceId =>
    refine Prog.Maintains.map _ (?_ : Leaves (fun r => Shows (.myAllocation user spaceId) (.mine <$> r)) _)
      (fun _ h => h) fun _ _ => trivial
    refine leaves_bind (keeps_requirePermission ..) (fun _ => leaves_bind (keeps_select ..) (fun found => ?_)
      fun _ => trivial) fun _ => trivial
    split
    · trivial
    · refine (leaves_refreshUsage hD _).bind (fun a ha => ?_) fun _ _ => trivial
      exact ⟨ha.used, ha.today, by show a.totalBytes - a.usedBytes = _; rw [ha.used]; rfl⟩
  | memberAccess user spaceId =>
    refine Prog.Maintains.map _ (?_ : Leaves Listed _) (fun _ h => h) fun _ _ => trivial
    exact leaves_bind (keeps_requirePermission ..) (fun _ => leaves_bind (keeps_select ..)
      (fun members => leaves_accessRows hD members) fun _ => trivial) fun _ => trivial
  | poolSummary user spaceId =>
    show Leaves _ (Response.pool <$> poolSummary D.provider user spaceId)
    rw [hD]
    exact (leaves_poolSummary user spaceId).map _ (fun _ h => h) fun _ _ => trivial
  | connectPool user spaceId accountRef context =>
    show Leaves _ (Response.pool <$> connectPool D.provider user spaceId accountRef context)
    rw [hD]
    refine Prog.Maintains.map _ (?_ : Leaves Summed _) (fun _ h => h) fun _ _ => trivial
    refine leaves_bind (keeps_lift _) (fun _ => leaves_bind (keeps_ask trivial) (fun account => ?_) fun _ => trivial)
      fun _ => trivial
    refine leaves_bind (Prog.only_raiseIf ..) (fun _ => leaves_bind (keeps_ask trivial) (fun plan => ?_)
      fun _ => trivial) fun _ => trivial
    refine leaves_bind (keeps_lift _) (fun id => leaves_bind ?_ (fun _ => leaves_poolSummary user spaceId)
      fun _ => trivial) fun _ => trivial
    refine .stmt trivial fun w => ?_
    split <;> trivial
  | account q => exact hquiet nofun fun _ => trivial
  | _ => exact hquiet nofun fun _ => trivial

/-- **With this provider nothing is ever used.** In every run that starts with nothing used and in which no UUID
is one of the provider's identifiers, whatever is asked, in whatever order and at whatever times: no usage is
stored or counted, no session takes anything from the plan, and every answer says so. -/
theorem untouched_run (hashSecret : String → String) (calendar : Calendar) (F : Account.Platform) (w : World State)
    (hw : Untouched w) (moves : List (Move Request Outside))
    (hdraws : ∀ d h, .env (.account ⟨.draw d, h⟩) ∈ moves → ¬ Minted d.uuid.text) :
    Untouched (run (services hashSecret calendar) F w moves).log.shared ∧
      ∀ i q r, (run (services hashSecret calendar) F w moves).Ended i q r → Shows q r := by
  have henv : ∀ e, .env e ∈ moves → ∀ w, Untouched w → Untouched (outside e w) := by
    intro e he w hw
    cases e with
    | account o =>
      refine ⟨hw.allocated, hw.unused, hw.stored, hw.idle, ?_⟩
      obtain ⟨o, ho⟩ := o
      show ¬ Minted (Account.outside o w.account).api.uuid.text
      cases o with
      | draw d => exact hdraws d ho he
      | issueCode row =>
        simp only [Account.outside]
        split <;> exact hw.uuid
      | _ => exact hw.uuid
    | draws d => exact ⟨hw.allocated, hw.unused, hw.stored, hw.idle, hw.uuid⟩
    | refusesTotals refuses => exact ⟨hw.allocated, hw.unused, hw.stored, hw.idle, hw.uuid⟩
  have hsound := Concurrent.maintained_run (M := machine (services hashSecret calendar) F) (leaves_handler rfl F) hw
    moves henv
  exact ⟨hsound.shared, fun _ _ _ h => hsound.ended h⟩

/-! ## A guest with a pass -/

/-- The Space with a pool and a pass, and nothing allocated yet. -/
def poolOfAda : World State where
  account := quietSpace.account
  spaces := quietSpace.spaces
  members := quietSpace.members
  invitations := [passOf "p1" "token-1" (some 30)]
  pools := quietSpace.pools
  allocations := []
  usageEvents := []
  provider := fresh evening
  notices := []
  refusesTotals := false

/-- The guest claims the pass, and looks at the allocation from time to time. -/
def guestLooks : List (Move Request Outside) :=
  .call (.claimPass ben "token-1" noContext) :: List.replicate 16 (.step 0) ++
    .call (.myAllocation ben "space") :: List.replicate 12 (.step 1) ++
      .env (.draws { evening with now := 86400000 }) :: .call (.myAllocation ben "space") ::
        List.replicate 12 (.step 2)

/-- The guest is told that nothing was used. -/
theorem untouched_run_guestLooks :
    Untouched (run (services (fun s => s) utc) frontDesk poolOfAda guestLooks).log.shared ∧
      ∀ i q r, (run (services (fun s => s) utc) frontDesk poolOfAda guestLooks).Ended i q r → Shows q r := by
  have hstart : Untouched poolOfAda := ⟨nofun, nofun, rfl, nofun, by decide⟩
  refine untouched_run (fun s => s) utc frontDesk poolOfAda hstart guestLooks fun d h hmem => ?_
  simp [guestLooks] at hmem

end Sharing.DemoDataProvider
