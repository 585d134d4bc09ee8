import NetlinkHub.Account.Lockout
import NetlinkHub.Sharing.Usage

/-! # The limits of an allocation

An allocation that `refreshUsage` leaves active is inside its total, its daily limit and its expiry
(`connected_within_limits`). A refresh never makes an allocation active, also not on the day after it was paused
for the limit of a day: it stays paused until an owner resumes it (`daily_limit_iff`). -/

namespace Sharing

open Api (Date HttpException RequestContext Token)
open Concurrent (Prog)
open Table (Op)

variable {P : Type} {D : Deployment P} {A : DataProviderAdapter P} {C : Calendar} {id : String} {now today : Date}
  {used : Usage} {a b : AllocationRow} {w : World P}

/-! ## Inside the limits -/

/-- An allocation is inside all of its limits. -/
structure AllocationRow.WithinLimits (now : Date) (a : AllocationRow) : Prop where
  total : a.usedBytes < a.totalBytes
  daily : ∀ limit, a.dailyBytes = some limit → a.usedTodayBytes < limit
  ahead : now < a.expiresAt

theorem AllocationRow.not_reached_iff : ¬ a.Reached used ↔
    used.total < a.totalBytes ∧ ∀ limit, a.dailyBytes = some limit → used.today < limit := by
  rw [AllocationRow.Reached]
  cases a.dailyBytes <;> simp

/-- **A refresh leaves an allocation active only inside its limits.** -/
theorem AllocationRow.RefreshedTo.withinLimits {known : Prop} (h : a.RefreshedTo C now known b)
    (hactive : b.status = .active) : b.WithinLimits now ∧ b.expiresAt = a.expiresAt := by
  unfold AllocationRow.RefreshedTo at h
  split at h
  · rename_i hrevoked
    rw [h, hrevoked] at hactive
    cases hactive
  split at h
  · obtain ⟨t, rfl⟩ := h
    cases hactive
  · rename_i hlapses
    obtain ⟨used, t, pausedAt, -, rfl⟩ := h
    by_cases hreached : a.Reached used
    · rw [refreshed_of_reached hreached] at hactive
      cases hactive
    · obtain ⟨htotal, hdaily⟩ := AllocationRow.not_reached_iff.mp hreached
      rw [refreshed_of_not_reached hreached] at hactive ⊢
      have hstatus : a.status = .active := hactive
      have hahead : now < a.expiresAt := by
        by_contra hpast
        exact hlapses ⟨not_lt.mp hpast, by simp [hstatus]⟩
      exact ⟨⟨htotal, hdaily, hahead⟩, rfl⟩

/-! ## `myAllocation` -/

/-- No statement moves the clock. -/
theorem clock_exec (w : Write) (s : World P) : (exec A w s).clock = s.clock := by
  cases w with
  | account w => exact Account.clock_exec w s.view
  | createSpace space owner =>
    simp only [exec]
    split <;> rfl
  | updateTotals id data =>
    simp only [exec]
    split <;> rfl
  | _ => rfl

theorem clock_runAlone {α : Type} (p : Service P α) (w : World P) : (p.runAlone (exec A) w).2.clock = w.clock :=
  (Prog.only_true p).runAlone_eq (fun w s _ => clock_exec w s) w

/-- A permission check touches no allocation. -/
theorem allocations_runAlone_bland {α : Type} {p : Service P α} (h : p.Only Write.Bland) (w : World P) :
    (p.runAlone (exec A) w).2.allocations = w.allocations := by
  refine h.runAlone_eq (fun w s hw => allocations_exec fun hon => ?_) w
  cases w <;> first | exact hw | exact hon

/-- The row that is there for an allocation that was found. -/
theorem exists_findAllocation (h : a ∈ w.allocations) : ∃ b ∈ w.allocations, findAllocation a.id w = some b := by
  obtain ⟨b, hb⟩ := Option.isSome_iff_exists.mp (List.find?_isSome (p := (·.id = a.id)).mpr ⟨a, h, by simp⟩)
  exact ⟨b, List.mem_of_find?_eq_some hb, hb⟩

/-- What `myAllocation` reports is a row that a refresh has answered. -/
theorem ends_myAllocation (D : Deployment P) (user : Token) (spaceId : String) (w : World P) :
    (myAllocation D user spaceId).Ends (exec D.provider) (fun r _ => ∀ report, r = .ok report →
      ∃ name known, ∃ a ∈ w.allocations, ∃ b, a.RefreshedTo D.calendar w.clock known b ∧ report =
        ⟨spaceId, name, b.status, b.totalBytes, b.usedBytes, remainingBytes b.totalBytes b.usedBytes, b.dailyBytes,
          b.usedTodayBytes, Api.toISOString b.expiresAt, b.status = .active⟩) w := by
  unfold myAllocation
  have hcheck : (requirePermission user spaceId "data.use" none : Service P Unit).Ends (exec D.provider)
      (fun _ t => t.allocations = w.allocations ∧ t.clock = w.clock) w :=
    ⟨allocations_runAlone_bland (bland_requirePermission ..) w, clock_runAlone _ w⟩
  refine hcheck.bind (fun _ t ⟨hrows, hclock⟩ => ?_) fun e t _ report h => nomatch h
  rw [select_bind, Prog.ends_stmt, ← hclock]
  split
  · exact fun report h => nomatch h
  · rename_i allocation name hfound
    obtain ⟨m, -, hmine⟩ := Option.bind_eq_some_iff.mp hfound
    obtain ⟨row, hrow, heq⟩ := Option.map_eq_some_iff.mp hmine
    obtain ⟨rfl, rfl⟩ := Prod.mk.inj heq
    obtain ⟨a, ha, hfind⟩ := exists_findAllocation (List.mem_of_find?_eq_some hrow)
    refine (ends_refreshUsage (D := D) hfind).bind (fun b t' hb => ?_) fun e t' _ report h => nomatch h
    intro report h
    exact ⟨_, _, a, hrows ▸ ha, b, hb.1, (Except.ok.inj h).symm⟩

/-- **Connected is inside the limits**: where an undisturbed `myAllocation` reports that the member is connected,
the figures that it reports are inside the total, the daily limit and the expiry of the allocation. -/
theorem connected_within_limits (D : Deployment P) (user : Token) (spaceId : String) (w : World P)
    (report : MyAllocation) (h : ((myAllocation D user spaceId).runAlone (exec D.provider) w).1 = .ok report)
    (hconnected : report.connected = true) :
    report.usedBytes < report.allocatedBytes ∧
      (∀ limit, report.dailyLimitBytes = some limit → report.usedTodayBytes < limit) ∧
      (∃ a ∈ w.allocations, report.expiresAt = Api.toISOString a.expiresAt ∧ w.clock < a.expiresAt) ∧
      (report.remainingBytes : Int) = report.allocatedBytes - report.usedBytes := by
  obtain ⟨name, known, a, ha, b, hb, rfl⟩ := ends_myAllocation D user spaceId w report h
  obtain ⟨hlimits, hexpiry⟩ := hb.withinLimits (of_decide_eq_true hconnected)
  refine ⟨hlimits.total, hlimits.daily, ⟨a, ha, by rw [hexpiry], hexpiry ▸ hlimits.ahead⟩, ?_⟩
  have htotal := hlimits.total
  show ((b.totalBytes - b.usedBytes : Nat) : Int) = b.totalBytes - b.usedBytes
  omega

/-- The guest is connected, with all of forty bytes left. -/
theorem connected_withGuest : ∃ report,
    ((myAllocation home ben "space").runAlone (exec quietProvider) (withGuest .active)).1 = .ok report ∧
      report.usedBytes < report.allocatedBytes ∧ (report.remainingBytes : Int) = 40 := by
  refine ⟨_, rfl, ?_⟩
  have hlimits := connected_within_limits home ben "space" (withGuest .active) _ rfl rfl
  exact ⟨hlimits.1, hlimits.2.2.2⟩

/-! ## Days -/

/-- What happens to an allocation one thing after another: it is refreshed, allocations are paused, resumed or given
other limits, and anything else happens, which leaves them alone. -/
inductive DataEvent (P : Type) where
  | refresh
  | pause (user : Token) (spaceId memberId : String) (paused : Bool) (context : RequestContext)
  | update (user : Token) (spaceId memberId : String) (input : UpdateAllocationRequest) (context : RequestContext)
  | elsewhere (t : World P)

/-- The control plane after it; `refresh` is of the allocation `id`. -/
def DataEvent.after (D : Deployment P) (id : String) (w : World P) : DataEvent P → World P
  | .refresh => ((refreshUsage D id).runAlone (exec D.provider) w).2
  | .pause user spaceId memberId paused context =>
    ((pauseAllocation user spaceId memberId paused context).runAlone (exec D.provider) w).2
  | .update user spaceId memberId input context =>
    ((updateAllocation user spaceId memberId input context).runAlone (exec D.provider) w).2
  | .elsewhere t => { t with allocations := w.allocations }

/-- The control plane after a run. -/
abbrev dataRun (D : Deployment P) (id : String) (w : World P) (events : List (DataEvent P)) : World P :=
  events.foldl (DataEvent.after D id) w

/-- By this call an owner pauses the allocation, or resumes it. -/
def DataEvent.Sets (D : Deployment P) (id : String) (paused : Bool) (w : World P) : DataEvent P → Prop
  | .pause user spaceId memberId paused' context => paused' = paused ∧
      (∃ a, allocationFor memberId w = some a ∧ a.id = id) ∧
      (pauseAllocation user spaceId memberId paused' context).Succeeds (exec D.provider) w
  | _ => False

/-- An allocation that is neither expired nor revoked, with bytes left of its total. -/
structure AllocationRow.Open (now : Date) (a : AllocationRow) : Prop where
  revoked : a.status ≠ .revoked
  expired : a.status ≠ .expired
  ahead : now < a.expiresAt
  left : a.usedBytes < a.totalBytes

/-- The allocation is open at the time. -/
def OpenAt (id : String) (w : World P) : Prop := ∃ a, findAllocation id w = some a ∧ a.Open w.clock

/-- A refresh pauses the allocation, and bytes are left of its total: it is paused for the limit of the day. -/
def DayPauses (D : Deployment P) (id : String) (w : World P) : Prop :=
  ∃ a b, findAllocation id w = some a ∧ findAllocation id (DataEvent.refresh.after D id w) = some b ∧
    a.status = .active ∧ b.status = .paused ∧ b.usedBytes < b.totalBytes

/-- A refresh has paused the allocation for the limit of the day, these things have happened, and the next one is
the first refresh of a later day. No owner has paused the allocation since, and it is open. -/
structure NextDay (D : Deployment P) (id : String) (w : World P) (between : List (DataEvent P)) : Prop where
  pauses : DayPauses D id w
  unpaused : ∀ before e after, between = before ++ e :: after →
    ¬ e.Sets D id true (dataRun D id w (.refresh :: before))
  later : D.calendar.startOfDay w.clock < D.calendar.startOfDay (dataRun D id w (.refresh :: between)).clock
  first : ∀ before after, between = before ++ .refresh :: after →
    D.calendar.startOfDay (dataRun D id w (.refresh :: before)).clock ≠
      D.calendar.startOfDay (dataRun D id w (.refresh :: between)).clock
  isOpen : OpenAt id (dataRun D id w (.refresh :: between))

/-- A refresh leaves the allocation active, with the usage of the day counted from zero: what has been used on the
day are the bytes of it that the refresh has stored. -/
def BeginsDay (D : Deployment P) (id : String) (w : World P) : Prop :=
  ∃ b, findAllocation id (DataEvent.refresh.after D id w) = some b ∧ b.status = .active ∧
    b.usageDay = some (D.calendar.startOfDay w.clock) ∧
    b.usedTodayBytes = bytesOf (·.On D.calendar id (some (D.calendar.startOfDay w.clock)))
      ((DataEvent.refresh.after D id w).usageEvents.drop w.usageEvents.length)

/-- An owner has paused the allocation, nobody has resumed it since, and it has been open all the time. -/
structure Withheld (D : Deployment P) (id : String) (w : World P) (e : DataEvent P)
    (between : List (DataEvent P)) : Prop where
  pauses : e.Sets D id true w
  unresumed : ∀ before e' after, between = before ++ e' :: after →
    ¬ e'.Sets D id false (dataRun D id w (e :: before))
  isOpen : ∀ before, before <+: between → OpenAt id (dataRun D id w (e :: before))

/-- **A daily limit is daily** in a run: the first refresh of a day begins it, for an allocation that was paused
for the limit of an earlier day, and one that an owner has paused stays paused. -/
structure Daily (D : Deployment P) (id : String) (w : World P) (events : List (DataEvent P)) : Prop where
  begins : ∀ before between after, events = before ++ .refresh :: (between ++ .refresh :: after) →
    NextDay D id (dataRun D id w before) between → BeginsDay D id (dataRun D id w (before ++ .refresh :: between))
  stays : ∀ before e between after, events = before ++ e :: (between ++ .refresh :: after) →
    Withheld D id (dataRun D id w before) e between →
      ∃ b, findAllocation id (dataRun D id w (before ++ e :: (between ++ [.refresh]))) = some b ∧ b.status = .paused

/-- Somebody has resumed the allocation, and what a refresh has to count for the new day reaches no limit. -/
def Resumed (D : Deployment P) (id : String) (w : World P) : Prop :=
  ∃ a events, findAllocation id w = some a ∧ a.status = .active ∧ w.refusesTotals = false ∧
    D.provider.getUsage id a.updatedAt w.provider = .ok events ∧
    ¬ a.Reached ⟨a.usedBytes + bytesOf (·.For id) ((newEvents id w.usageEvents events).map (·.row id)),
      bytesOf (·.On D.calendar id (some (D.calendar.startOfDay w.clock)))
        ((newEvents id w.usageEvents events).map (·.row id))⟩

/-! ### The calls of an owner -/

section Calls

variable {user : Token} {spaceId memberId : String} {context : RequestContext} {paused : Bool} {α : Type}

/-- A call has updated the allocation of a member, or has failed and left the allocations alone. -/
def Updates (memberId : String) (w : World P) (how : (AllocationRow → AllocationRow) → Prop)
    (r : Except HttpException α) (t : World P) : Prop :=
  match r with
  | .ok _ => ∃ row data now, allocationFor memberId w = some row ∧ how data ∧
      t.allocations = (Op.update (·.id = row.id) (touch now data)).apply w.allocations
  | .error _ => t.allocations = w.allocations

/-- A call that begins with its check of permission and the allocation of the member. -/
theorem ends_requireAllocation {goal : Except HttpException α → World P → Prop} {f : AllocationRow → Service P α}
    {permission : String} (hraise : ∀ e t, t.allocations = w.allocations → goal (.error e) t)
    (hf : ∀ row t, allocationFor memberId w = some row → t.allocations = w.allocations →
      (f row).Ends (exec A) goal t) :
    (requirePermission user spaceId permission (some context) >>= fun _ =>
      requireAllocation spaceId memberId >>= f).Ends (exec A) goal w := by
  have hcheck : (requirePermission user spaceId permission (some context) : Service P Unit).Ends (exec A)
      (fun _ t => t.allocations = w.allocations) w := allocations_runAlone_bland (bland_requirePermission ..) w
  refine hcheck.bind (fun _ t hrows => ?_) fun e t hrows => hraise e t hrows
  have hsame : allocationFor memberId t = allocationFor memberId w := by rw [allocationFor, hrows, allocationFor]
  unfold requireAllocation
  rw [select_bind, Prog.stmt_bind, Prog.ends_stmt, hsame]
  cases hfound : allocationFor memberId w with
  | none => exact hraise _ t hrows
  | some row =>
    by_cases hspace : row.spaceId ≠ spaceId
    · simp only [if_pos hspace]
      exact hraise _ t hrows
    · simp only [if_neg hspace]
      exact hf row t hfound hrows

/-- The end of a call that updates an allocation, whatever it answers. -/
theorem ends_updateAllocation {row : AllocationRow} {t : World P} {data : AllocationRow → AllocationRow}
    {how : (AllocationRow → AllocationRow) → Prop} {f : AllocationRow → Service P α} (hhow : how data)
    (hfound : allocationFor memberId w = some row) (hrows : t.allocations = w.allocations)
    (hf : ∀ b t, (f b).Ends (exec A) (fun r t' => (∃ x, r = .ok x) ∧ t'.allocations = t.allocations) t) :
    (updateAllocationRow row.id data >>= f).Ends (exec A) (Updates memberId w how) t := by
  obtain ⟨b, -, hb⟩ := exists_findAllocation (w := t) (hrows ▸ List.mem_of_find?_eq_some hfound)
  rw [updateAllocationRow_bind, Prog.ends_stmt, hb]
  refine (hf _ _).mono fun r t' ⟨⟨x, hx⟩, hafter⟩ => ?_
  rw [hx]
  refine ⟨row, data, t.clock, hfound, hhow, hafter.trans ?_⟩
  rw [← hrows]
  rfl

theorem ends_pauseAllocation (w : World P) :
    (pauseAllocation user spaceId memberId paused context : Service P AllocationStatus).Ends (exec A)
      (Updates memberId w fun data => ∃ pausedAt, data = AllocationRow.setPaused paused pausedAt) w := by
  unfold pauseAllocation
  refine ends_requireAllocation (fun e t hrows => hrows) fun row t hfound hrows => ?_
  have hpaused : (pausedSince paused : Service P (Option Date)).Ends (exec A)
      (fun r t' => (∃ pausedAt, r = .ok pausedAt) ∧ t'.allocations = w.allocations) t := by
    cases paused with
    | true => exact ⟨⟨_, rfl⟩, hrows⟩
    | false => exact ⟨⟨_, rfl⟩, hrows⟩
  refine hpaused.bind (fun pausedAt t' ⟨_, hrows'⟩ => ?_) fun e t' ⟨⟨_, h⟩, _⟩ => nomatch h
  exact ends_updateAllocation ⟨pausedAt, rfl⟩ hfound hrows' fun b t => ⟨⟨_, rfl⟩, rfl⟩

theorem ends_updateLimits (w : World P) (input : UpdateAllocationRequest) :
    (updateAllocation user spaceId memberId input context : Service P Unit).Ends (exec A)
      (Updates memberId w fun data => data = AllocationRow.limited input) w := by
  unfold updateAllocation
  refine ends_requireAllocation (fun e t hrows => hrows) fun row t hfound hrows => ?_
  rw [Prog.raiseIf_bind]
  split
  · exact hrows
  · exact ends_updateAllocation rfl hfound hrows fun b t => ⟨⟨_, rfl⟩, rfl⟩

end Calls

/-! ### What becomes of the row -/

/-- A call has left the row as it was, or updated it. -/
theorem Updates.row {α : Type} {memberId : String} {how : (AllocationRow → AllocationRow) → Prop}
    {r : Except HttpException α} {t : World P} (h : Updates memberId w how r t)
    (hhow : ∀ data, how data → ∀ a, (data a).id = a.id) (hfound : findAllocation id w = some a) :
    findAllocation id t = some a ∧ (∀ x, r = .ok x → ¬ ∃ row, allocationFor memberId w = some row ∧ row.id = id) ∨
      (∃ x, r = .ok x) ∧ (∃ row, allocationFor memberId w = some row ∧ row.id = id) ∧
        ∃ data now, how data ∧ findAllocation id t = some (touch now data a) := by
  have hid : a.id = id := by simpa using List.find?_some hfound
  cases r with
  | error e =>
    refine .inl ⟨?_, fun x h => by cases h⟩
    have hrows : t.allocations = w.allocations := h
    unfold findAllocation
    rw [hrows]
    exact hfound
  | ok x =>
    obtain ⟨row, data, now, hrow, hdata, hrows⟩ := h
    have hkeeps : ∀ a, (touch now data a).id = a.id := hhow data hdata
    have hupdated := findAllocation_updateOf hkeeps hfound hrows
    by_cases hsame : row.id = id
    · rw [if_pos (hid.trans hsame.symm)] at hupdated
      exact .inr ⟨⟨x, rfl⟩, ⟨row, hrow, hsame⟩, data, now, hdata, hupdated⟩
    · rw [if_neg fun h => hsame (h.symm.trans hid)] at hupdated
      refine .inl ⟨hupdated, fun x _ ⟨row', hrow', hid'⟩ => hsame ?_⟩
      rw [Option.some.inj (hrow.symm.trans hrow')]
      exact hid'

/-- An owner's call leaves the usage day as it is, and only a call that resumes the allocation takes it out of a pause. -/
theorem row_after {e : DataEvent P} (hne : e ≠ .refresh) (hfound : findAllocation id w = some a) :
    ∃ b, findAllocation id (e.after D id w) = some b ∧ b.usageDay = a.usageDay ∧
      (e.Sets D id true w → b.status = .paused) ∧
      (¬ e.Sets D id false w → b.status = .paused ∨ b.status = a.status) := by
  cases e with
  | refresh => exact absurd rfl hne
  | elsewhere t => exact ⟨a, hfound, rfl, False.elim, fun _ => .inr rfl⟩
  | update user spaceId memberId input context =>
    have hends : (updateAllocation user spaceId memberId input context : Service P Unit).Ends (exec D.provider)
        (Updates memberId w fun data => data = AllocationRow.limited input) w := ends_updateLimits w input
    rcases Updates.row hends (by rintro data rfl a; rfl) hfound with ⟨hsame, -⟩ | ⟨-, -, data, now, rfl, hrow⟩
    · exact ⟨a, hsame, rfl, False.elim, fun _ => .inr rfl⟩
    · exact ⟨_, hrow, rfl, False.elim, fun _ => .inr rfl⟩
  | pause user spaceId memberId paused context =>
    have hends : (pauseAllocation user spaceId memberId paused context : Service P AllocationStatus).Ends
        (exec D.provider)
        (Updates memberId w fun data => ∃ pausedAt, data = AllocationRow.setPaused paused pausedAt) w :=
      ends_pauseAllocation w
    rcases Updates.row hends (by rintro data ⟨_, rfl⟩ a; rfl) hfound with
      ⟨hsame, hnot⟩ | ⟨hok, hrow, data, now, ⟨pausedAt, rfl⟩, hupdated⟩
    · refine ⟨a, hsame, rfl, fun ⟨_, htarget, x, hx⟩ => ?_, fun _ => .inr rfl⟩
      exact absurd htarget (hnot x hx)
    · refine ⟨_, hupdated, rfl, fun ⟨hpaused, _⟩ => ?_, fun hnot => ?_⟩
      · subst hpaused
        rfl
      · cases paused with
        | true => exact .inl rfl
        | false => exact absurd ⟨rfl, hrow, hok⟩ hnot

/-- A refresh leaves the row as it was, or refreshes it. -/
theorem row_refresh (D : Deployment P) (hfound : findAllocation id w = some a) :
    ∃ b, findAllocation id (DataEvent.refresh.after D id w) = some b ∧
      (b = a ∨ ∃ known, a.RefreshedTo D.calendar w.clock known b) := by
  have hends : LeavesRow id a _ _ _ := ends_refreshUsage (D := D) hfound
  cases hr : ((refreshUsage D id).runAlone (exec D.provider) w).1 with
  | error e =>
    rw [hr] at hends
    exact ⟨a, hends, .inl rfl⟩
  | ok b =>
    rw [hr] at hends
    exact ⟨b, hends.2, .inr ⟨_, hends.1⟩⟩

/-- The usage day of a refreshed row is the day, unless it is over with it. -/
theorem AllocationRow.RefreshedTo.usageDay {known : Prop} (h : a.RefreshedTo C now known b) :
    b.usageDay = a.usageDay ∧ (b.status = .revoked ∨ b.status = .expired) ∨
      b.usageDay = some (C.startOfDay now) := by
  unfold AllocationRow.RefreshedTo at h
  split at h
  · rename_i hrevoked
    subst h
    exact .inl ⟨rfl, .inl hrevoked⟩
  split at h
  · obtain ⟨t, rfl⟩ := h
    exact .inl ⟨rfl, .inr rfl⟩
  · obtain ⟨used, t, pausedAt, -, rfl⟩ := h
    by_cases hreached : a.Reached used
    · rw [refreshed_of_reached hreached]
      exact .inr rfl
    · rw [refreshed_of_not_reached hreached]
      exact .inr rfl

/-- A refresh of a paused allocation that has not expired leaves it paused. -/
theorem AllocationRow.RefreshedTo.paused {known : Prop} (h : a.RefreshedTo C now known b)
    (hpaused : a.status = .paused) (hahead : now < a.expiresAt) : b.status = .paused := by
  unfold AllocationRow.RefreshedTo at h
  rw [if_neg (by simp [hpaused]), if_neg fun h => absurd h.1 (not_le_of_gt hahead)] at h
  obtain ⟨used, t, pausedAt, -, rfl⟩ := h
  by_cases hreached : a.Reached used
  · rw [refreshed_of_reached hreached]
    rfl
  · rw [refreshed_of_not_reached hreached]
    exact hpaused

theorem dayChanged_iff : a.DayChanged C today ↔ ∀ day, a.usageDay = some day → C.startOfDay day ≠ today := by
  unfold AllocationRow.DayChanged
  cases a.usageDay <;> simp

/-- **Between two refreshes of a day** the usage day of the row is another one. -/
theorem dayChanged_run (events : List (DataEvent P)) (hfound : findAllocation id w = some a)
    (hday : a.DayChanged D.calendar today) (hfirst : ∀ before after, events = before ++ .refresh :: after →
      D.calendar.startOfDay (dataRun D id w before).clock ≠ today) :
    ∃ b, findAllocation id (dataRun D id w events) = some b ∧ b.DayChanged D.calendar today := by
  induction events generalizing w a with
  | nil => exact ⟨a, hfound, hday⟩
  | cons e events ih =>
    have hstep : ∃ b, findAllocation id (e.after D id w) = some b ∧ b.DayChanged D.calendar today := by
      by_cases he : e = .refresh
      · subst he
        obtain ⟨b, hb, rfl | ⟨known, hto⟩⟩ := row_refresh D hfound
        · exact ⟨b, hb, hday⟩
        · refine ⟨b, hb, dayChanged_iff.mpr fun day hsome => ?_⟩
          rcases hto.usageDay with ⟨hsame, -⟩ | hnew
          · exact dayChanged_iff.mp hday day (hsame ▸ hsome)
          · obtain rfl := Option.some.inj (hnew.symm.trans hsome)
            rw [D.calendar.idem]
            exact hfirst [] events rfl
      · obtain ⟨b, hb, hsame, -⟩ := row_after (D := D) he hfound
        exact ⟨b, hb, dayChanged_iff.mpr (hsame ▸ dayChanged_iff.mp hday)⟩
    obtain ⟨b, hb, hday'⟩ := hstep
    exact ih hb hday' fun before after heq => hfirst (e :: before) after (by rw [heq]; rfl)

/-- **A pause lasts** until the allocation is resumed, as long as it is open. -/
theorem paused_run (events : List (DataEvent P)) (hfound : findAllocation id w = some a) (hpaused : a.status = .paused)
    (hopen : ∀ before e after, events = before ++ e :: after →
      OpenAt id (dataRun D id w before) ∧ ¬ e.Sets D id false (dataRun D id w before)) :
    ∃ b, findAllocation id (dataRun D id w events) = some b ∧ b.status = .paused := by
  induction events generalizing w a with
  | nil => exact ⟨a, hfound, hpaused⟩
  | cons e events ih =>
    have hstep : ∃ b, findAllocation id (e.after D id w) = some b ∧ b.status = .paused := by
      by_cases he : e = .refresh
      · subst he
        obtain ⟨a', hfound', hahead⟩ := (hopen [] .refresh events rfl).1
        obtain rfl := Option.some.inj (hfound.symm.trans hfound')
        obtain ⟨b, hb, rfl | ⟨known, hto⟩⟩ := row_refresh D hfound
        · exact ⟨b, hb, hpaused⟩
        · exact ⟨b, hb, hto.paused hpaused hahead.ahead⟩
      · obtain ⟨b, hb, -, -, hstatus⟩ := row_after (D := D) he hfound
        exact ⟨b, hb, (hstatus (hopen [] e events rfl).2).elim (fun h => h) fun h => h.trans hpaused⟩
    obtain ⟨b, hb, hpaused'⟩ := hstep
    exact ih hb hpaused' fun before e' after heq => hopen (e :: before) e' after (by rw [heq]; rfl)

/-! ### The first refresh of a day -/

/-- The events that a refresh counts are those it stores. -/
theorem foldl_add (hday : C.startOfDay today = today) (events : List ProviderUsageEvent) (used : Usage) :
    events.foldl (fun u e => u.add C today e) used =
      ⟨used.total + bytesOf (·.For id) (events.map (·.row id)),
        used.today + bytesOf (·.On C id (some today)) (events.map (·.row id))⟩ := by
  induction events generalizing used with
  | nil => rfl
  | cons e events ih =>
    have hbytes : (e.row id).bytes = e.bytes := rfl
    rw [List.foldl_cons, ih, List.map_cons, bytesOf_cons, bytesOf_cons, if_pos e.for_row, hbytes, Usage.add]
    simp only [e.on_row hday]
    split
    · simp only [Nat.add_assoc]
    · simp only [Nat.add_assoc, Nat.zero_add]

/-- **The first refresh of a day** begins it for an open allocation exactly if somebody has resumed it. -/
theorem beginsDay_iff (hfound : findAllocation id w = some a) (hopen : a.Open w.clock)
    (hday : a.DayChanged D.calendar (D.calendar.startOfDay w.clock)) : BeginsDay D id w ↔ Resumed D id w := by
  have hid : a.id = id := by simpa using List.find?_some hfound
  have hidem := D.calendar.idem w.clock
  -- A refresh that leaves the row as it was has not begun the day.
  have hsame : findAllocation id (DataEvent.refresh.after D id w) = some a → ¬ BeginsDay D id w := by
    rintro hrow ⟨b, hb, -, hset, -⟩
    obtain rfl := Option.some.inj (hrow.symm.trans hb)
    exact dayChanged_iff.mp hday _ hset hidem
  have hends := ends_refreshUsage_counts (D := D) hfound hopen.revoked fun h => absurd h.1 (not_le_of_gt hopen.ahead)
  rcases hends with ⟨e, htold, -, hrow⟩ | ⟨events, hcounts⟩
  · refine iff_of_false (hsame hrow) ?_
    rintro ⟨a', events, hfound', hactive, -, hevents, -⟩
    obtain rfl := Option.some.inj (hfound.symm.trans hfound')
    rw [reported, if_pos hactive, hevents] at htold
    cases htold
  · have hcounted : a.countedWith D.calendar (D.calendar.startOfDay w.clock) w events =
        ⟨a.usedBytes + bytesOf (·.For id) ((newEvents id w.usageEvents events).map (·.row id)),
          bytesOf (·.On D.calendar id (some (D.calendar.startOfDay w.clock)))
            ((newEvents id w.usageEvents events).map (·.row id))⟩ := by
      rw [AllocationRow.countedWith, hid, foldl_add hidem, AllocationRow.counted, if_pos hday, Nat.zero_add]
    have hleaves := hcounts.leaves
    cases hrefuses : w.refusesTotals with
    | true =>
      -- The update is refused.
      cases hr : ((refreshUsage D id).runAlone (exec D.provider) w).1 with
      | ok b => exact absurd (hcounts.succeeds.mp ⟨b, hr⟩) (by simp [hrefuses])
      | error e =>
        rw [hr] at hleaves
        refine iff_of_false (hsame hleaves) ?_
        rintro ⟨_, _, _, _, hnot, _⟩
        rw [hrefuses] at hnot
        cases hnot
    | false =>
      obtain ⟨b, hr⟩ := hcounts.succeeds.mpr hrefuses
      rw [hr] at hleaves
      obtain ⟨⟨now, pausedAt, hb⟩, hrow⟩ := hleaves
      have hafter : findAllocation id (DataEvent.refresh.after D id w) = some b := hrow
      have hstored : (DataEvent.refresh.after D id w).usageEvents.drop w.usageEvents.length =
          (newEvents id w.usageEvents events).map (·.row id) := by
        rw [DataEvent.after, hcounts.stored, List.drop_left]
      have hresumed : Resumed D id w ↔ a.status = .active ∧
          ¬ a.Reached (a.countedWith D.calendar (D.calendar.startOfDay w.clock) w events) := by
        rw [hcounted]
        constructor
        · rintro ⟨a', events', hfound', hactive, -, hevents, hnot⟩
          obtain rfl := Option.some.inj (hfound.symm.trans hfound')
          have htold := hcounts.told
          rw [reported, if_pos hactive, hevents] at htold
          cases htold
          exact ⟨hactive, hnot⟩
        · rintro ⟨hactive, hnot⟩
          have htold := hcounts.told
          rw [reported, if_pos hactive] at htold
          exact ⟨a, events, hfound, hactive, hrefuses, htold, hnot⟩
      rw [hresumed]
      by_cases hreached : a.Reached (a.countedWith D.calendar (D.calendar.startOfDay w.clock) w events)
      · rw [refreshed_of_reached hreached] at hb
        refine iff_of_false ?_ fun h => h.2 hreached
        rintro ⟨b', hb', hactive, -⟩
        obtain rfl := Option.some.inj (hafter.symm.trans hb')
        rw [hb] at hactive
        cases hactive
      · rw [refreshed_of_not_reached hreached] at hb
        constructor
        · rintro ⟨b', hb', hactive, -⟩
          obtain rfl := Option.some.inj (hafter.symm.trans hb')
          rw [hb] at hactive
          exact ⟨hactive, hreached⟩
        · rintro ⟨hactive, -⟩
          refine ⟨b, hafter, ?_, ?_, ?_⟩
          · rw [hb]
            exact hactive
          · rw [hb]
            rfl
          · rw [hb, hstored]
            exact congrArg Usage.today hcounted

/-- **A daily limit is daily** in a run exactly if, whenever the first refresh of a later day comes to an allocation
that a refresh has paused for the limit of a day, somebody has resumed it, and the new usage reaches no limit. -/
theorem daily_limit_iff (D : Deployment P) (id : String) (w : World P) (events : List (DataEvent P)) :
    Daily D id w events ↔ ∀ before between after, events = before ++ .refresh :: (between ++ .refresh :: after) →
      NextDay D id (dataRun D id w before) between → Resumed D id (dataRun D id w (before ++ .refresh :: between)) := by
  have hbegins : ∀ before between, NextDay D id (dataRun D id w before) between →
      (BeginsDay D id (dataRun D id w (before ++ .refresh :: between)) ↔
        Resumed D id (dataRun D id w (before ++ .refresh :: between))) := by
    intro before between h
    obtain ⟨a, b, hfound, hafter, hactive, hpaused, -⟩ := h.pauses
    obtain ⟨c, hopened, hopen⟩ := h.isOpen
    have hday : b.DayChanged D.calendar (D.calendar.startOfDay (dataRun D id (dataRun D id w before)
        (.refresh :: between)).clock) := by
      obtain ⟨b', hb', hsame | ⟨known, hto⟩⟩ := row_refresh D hfound
      · obtain rfl := Option.some.inj (hafter.symm.trans hb')
        rw [hsame, hactive] at hpaused
        cases hpaused
      · obtain rfl := Option.some.inj (hafter.symm.trans hb')
        refine dayChanged_iff.mpr fun day hsome => ?_
        rcases hto.usageDay with ⟨-, hover | hover⟩ | hset
        · rw [hpaused] at hover
          cases hover
        · rw [hpaused] at hover
          cases hover
        · obtain rfl := Option.some.inj (hset.symm.trans hsome)
          rw [D.calendar.idem]
          exact h.later.ne
    obtain ⟨c', hc', hchanged⟩ := dayChanged_run between hafter hday h.first
    obtain rfl := Option.some.inj (hopened.symm.trans hc')
    rw [dataRun, List.foldl_append]
    exact beginsDay_iff hopened hopen hchanged
  constructor
  · intro h before between after heq hnext
    exact (hbegins before between hnext).mp (h.begins before between after heq hnext)
  · intro h
    refine ⟨fun before between after heq hnext => (hbegins before between hnext).mpr (h before between after heq hnext),
      fun before e between after _ hwithheld => ?_⟩
    have hne : e ≠ .refresh := by
      rintro rfl
      exact hwithheld.pauses
    obtain ⟨a, hfound⟩ : ∃ a, findAllocation id (dataRun D id w before) = some a := by
      cases e with
      | pause user spaceId memberId paused context =>
        obtain ⟨-, ⟨row, hrow, rfl⟩, -⟩ := hwithheld.pauses
        obtain ⟨a, -, ha⟩ := exists_findAllocation (List.mem_of_find?_eq_some hrow)
        exact ⟨a, ha⟩
      | _ => exact hwithheld.pauses.elim
    obtain ⟨b, hb, -, hpaused, -⟩ := row_after (D := D) hne hfound
    rw [dataRun, List.foldl_append]
    refine paused_run (between ++ [.refresh]) hb (hpaused hwithheld.pauses) fun before' e' after' heq => ?_
    rcases List.eq_nil_or_concat after' with rfl | ⟨after', last, rfl⟩
    · -- the last event is the refresh itself
      obtain ⟨rfl, hlast⟩ := List.append_inj' heq rfl
      obtain rfl := (List.cons.inj hlast).1
      exact ⟨hwithheld.isOpen between List.prefix_rfl, fun h => h⟩
    · rw [List.concat_eq_append, ← List.cons_append, ← List.append_assoc] at heq
      obtain ⟨rfl, -⟩ := List.append_inj' heq rfl
      exact ⟨hwithheld.isOpen before' (List.prefix_append ..), hwithheld.unresumed before' e' after' rfl⟩

/-- The Space with the guest, whose allocation has a daily limit of five bytes. -/
def withDailyLimit : World Unit := { withGuest .active with
  allocations := [{ allocationOf .active with dailyBytes := some 5, expiresAt := 200000000 }] }

/-- The next day. -/
def tomorrow : World Unit := { withDailyLimit with
  account := { withDailyLimit.account with api := { withDailyLimit.account.api with clock := 86401000 } } }

/-- The five bytes of one day pause the allocation, and on the next day it stays paused. -/
theorem paused_tomorrow : ¬ ∀ (D : Deployment Unit) (id : String) (w : World Unit) (events : List (DataEvent Unit)),
    Daily D id w events := by
  intro h
  have hnext : NextDay meteredHome "a1" withDailyLimit [.elsewhere tomorrow] := by
    refine ⟨⟨_, _, rfl, rfl, rfl, rfl, by decide⟩, fun before e after heq => ?_, by decide, fun before after heq => ?_,
      ⟨_, rfl, by decide, by decide, by decide, by decide⟩⟩
    · have hmem : e ∈ [DataEvent.elsewhere tomorrow] := by simp [heq]
      rw [List.mem_singleton.mp hmem]
      exact fun hsets => hsets
    · have hmem : DataEvent.refresh ∈ [DataEvent.elsewhere tomorrow] := by simp [heq]
      cases List.mem_singleton.mp hmem
  obtain ⟨b, hb, hactive, -⟩ := (h meteredHome "a1" withDailyLimit [.refresh, .elsewhere tomorrow, .refresh]).begins []
    [.elsewhere tomorrow] [] rfl hnext
  have hpaused : ((findAllocation "a1" (dataRun meteredHome "a1" withDailyLimit
      [.refresh, .elsewhere tomorrow, .refresh])).map (·.status)) = some .paused := rfl
  have hrow : findAllocation "a1" (dataRun meteredHome "a1" withDailyLimit
      [.refresh, .elsewhere tomorrow, .refresh]) = some b := hb
  rw [hrow, Option.map_some, hactive] at hpaused
  cases hpaused

end Sharing
