import NetlinkHub.Api.World
import NetlinkHub.Run.Pages

/-! # The activity of an account

`listForUser` answers the audit records of a user, newest first, page by page. A page ends at the identifier of its
last record, and the next one starts behind it; but records of one time may stand in another order by then. Nothing
is lost or shown twice exactly if no page but the last ends at a time that two records share (`lossless_iff`). -/

namespace Audit

open Api (Date Meta toISOString)

/-! ## The table -/

/-- An audit record as it is stored. -/
structure AuditEvent where
  id : String
  action : String
  outcome : String
  createdAt : Date
  actorUserId : Option String
  actorDeviceId : Option String
  targetDeviceId : Option String
  spaceId : Option String
  approximateLocation : Option String
  ipAddress : Option String
  userAgent : Option String
  metadata : Option (List (String × Meta))
  deriving DecidableEq, Repr

/-- The audit log. Identifiers are keys, and never empty. -/
structure AuditLog where
  rows : List AuditEvent
  nodup : (rows.map (·.id)).Nodup
  id_ne : ∀ e ∈ rows, e.id ≠ ""

/-- `where: { actorUserId: userId }`. -/
def AuditLog.ofUser (log : AuditLog) (userId : String) : List AuditEvent :=
  log.rows.filter (·.actorUserId = some userId)

/-- `orderBy: { createdAt: 'desc' }`: an order in which a query may answer the records of a user. -/
abbrev Ordered (log : AuditLog) (userId : String) (order : List AuditEvent) : Prop :=
  Pages.Arranges AuditEvent.createdAt (log.ofUser userId) order

/-! ## Pages -/

/-- `AuditRecord`. -/
structure AuditRecord where
  id : String
  action : String
  outcome : String
  createdAt : String
  actorUserId : Option String
  actorDeviceId : Option String
  targetDeviceId : Option String
  spaceId : Option String
  approximateLocation : Option String
  ipAddress : Option String
  userAgent : Option String
  metadata : Option (List (String × Meta))
  deriving DecidableEq, Repr

/-- `AuditPage`. -/
structure AuditPage where
  items : List AuditRecord
  nextCursor : Option String
  deriving DecidableEq, Repr

/-- `toRecord`. -/
def toRecord (row : AuditEvent) : AuditRecord :=
  { id := row.id
    action := row.action
    outcome := row.outcome
    createdAt := toISOString row.createdAt
    actorUserId := row.actorUserId
    actorDeviceId := row.actorDeviceId
    targetDeviceId := row.targetDeviceId
    spaceId := row.spaceId
    approximateLocation := row.approximateLocation
    ipAddress := row.ipAddress
    userAgent := row.userAgent
    metadata := row.metadata }

/-- `findMany` of a query that has the records in this order: from the row of the cursor on, without the first
`skip` rows, `take` rows at most. -/
def findMany (order : List AuditEvent) (cursor : Option String) (skip take : Nat) : List AuditEvent :=
  let rows := match cursor with
    | none => order
    | some id => order.dropWhile fun e => e.id ≠ id
  (rows.drop skip).take take

/-- `Math.min(Math.max(options.limit ?? 50, 1), 200)`. -/
def pageSize (limit : Option Int) : Nat := (min (max (limit.getD 50) 1) 200).toNat

/-- `listForUser`, where the query has the records in this order. An empty cursor is none. -/
def listForUser (order : List AuditEvent) (limit : Option Int) (cursor : Option String) : AuditPage :=
  let limit := pageSize limit
  let rows := match cursor.filter (· ≠ "") with
    | none => findMany order none 0 (limit + 1)
    | some id => findMany order (some id) 1 (limit + 1)
  let hasMore := limit < rows.length
  let page := if hasMore then rows.take limit else rows
  { items := page.map toRecord
    nextCursor := if hasMore then page.getLast?.map (·.id) else none }

/-- The records of all pages, from a query on, if `nextCursor` comes to be null. -/
def follow (orders : Nat → List AuditEvent) (limit : Option Int) : Nat → Nat → Option String → Option (List AuditRecord)
  | 0, _, _ => none
  | fuel + 1, query, cursor =>
    let page := listForUser (orders query) limit cursor
    match page.nextCursor with
    | none => some page.items
    | some next => (follow orders limit fuel (query + 1) (some next)).map (page.items ++ ·)

/-- Following `nextCursor` ends, and yields each of the user's records once, newest first, in whatever order each
query has the records of one time. -/
def Lossless (log : AuditLog) (userId : String) (limit : Option Int) : Prop :=
  ∀ orders, (∀ k, Ordered log userId (orders k)) →
    ∃ fuel rows, follow orders limit fuel 0 none = some (rows.map toRecord) ∧ Ordered log userId rows

variable {log : AuditLog} {userId : String} {limit : Option Int} {order : List AuditEvent}
  {orders : Nat → List AuditEvent} {cursor : Option String}

theorem pageSize_pos (limit : Option Int) : 0 < pageSize limit := by
  unfold pageSize
  omega

/-- A page is what comes behind the cursor, as far as it goes. -/
theorem listForUser_eq (order : List AuditEvent) (limit : Option Int) (hcursor : cursor ≠ some "") :
    listForUser order limit cursor =
      ⟨((Pages.behind (·.id) cursor order).take (pageSize limit)).map toRecord,
        Pages.nextCursor (·.id) (pageSize limit) (Pages.behind (·.id) cursor order)⟩ := by
  have hrows : (match cursor.filter (· ≠ "") with
      | none => findMany order none 0 (pageSize limit + 1)
      | some id => findMany order (some id) 1 (pageSize limit + 1)) =
        (Pages.behind (·.id) cursor order).take (pageSize limit + 1) := by
    cases cursor with
    | none => rfl
    | some id =>
      have hid : id ≠ "" := fun h => hcursor (by rw [h])
      rw [Option.filter_some, if_pos (by simpa using hid)]
      rfl
  unfold listForUser Pages.nextCursor
  simp only [hrows, List.length_take]
  by_cases hmore : pageSize limit < (Pages.behind (·.id) cursor order).length
  · have hmore' : pageSize limit < min (pageSize limit + 1) (Pages.behind (·.id) cursor order).length := by omega
    simp only [if_pos hmore, if_pos hmore', List.take_take, Nat.min_eq_left (Nat.le_succ _)]
  · have hmore' : ¬ pageSize limit < min (pageSize limit + 1) (Pages.behind (·.id) cursor order).length := by omega
    simp only [if_neg hmore, if_neg hmore']
    rw [List.take_of_length_le (by omega), List.take_of_length_le (by omega)]

/-- **Following the cursors** is the walk over the pages. -/
theorem follow_eq (hids : ∀ k, ∀ e ∈ orders k, e.id ≠ "") (fuel query : Nat) (hcursor : cursor ≠ some "") :
    follow orders limit fuel query cursor =
      (Pages.walk (·.id) (pageSize limit) orders fuel query cursor).map (·.map toRecord) := by
  induction fuel generalizing query cursor with
  | zero => rfl
  | succ fuel ih =>
    rw [follow, Pages.walk, listForUser_eq _ _ hcursor]
    dsimp only
    cases hnext : Pages.nextCursor (·.id) (pageSize limit) (Pages.behind (·.id) cursor (orders query)) with
    | none => rfl
    | some next =>
      have hne : next ≠ "" := by
        unfold Pages.nextCursor at hnext
        split at hnext
        · obtain ⟨e, he, rfl⟩ := Option.map_eq_some_iff.mp hnext
          exact hids query e (Pages.mem_of_mem_behind (List.mem_of_mem_take (List.mem_of_getLast? he)))
        · cases hnext
      dsimp only
      rw [ih (query + 1) (by simpa using hne), Option.map_map, Option.map_map]
      congr 1
      funext items
      simp

/-! ## Exactly once -/

theorem AuditLog.nodup_ofUser (log : AuditLog) (userId : String) : ((log.ofUser userId).map (·.id)).Nodup :=
  log.nodup.sublist (List.filter_sublist.map _)

/-- Every order of the records is one of records with identifiers. -/
theorem id_ne_of_ordered (horders : ∀ k, Ordered log userId (orders k)) : ∀ k, ∀ e ∈ orders k, e.id ≠ "" :=
  fun k e he => log.id_ne e (List.mem_of_mem_filter ((horders k).perm.mem_iff.mp he))

/-- Where no record can be lost, no page but the last ends at a time that two records share. -/
theorem clearCuts_of_lossless (h : Lossless log userId limit) :
    Pages.ClearCuts (pageSize limit) AuditEvent.createdAt (log.ofUser userId) := by
  refine Pages.clearCuts_of_length (log.nodup_ofUser userId) (pageSize_pos limit) fun orders horders => ?_
  obtain ⟨fuel, rows, hfollow, hrows⟩ := h orders horders
  rw [follow_eq (id_ne_of_ordered horders) fuel 0 (by simp)] at hfollow
  obtain ⟨items, hwalk, hitems⟩ := Option.map_eq_some_iff.mp hfollow
  refine ⟨fuel, items, hwalk, ?_⟩
  have hlength := congrArg List.length hitems
  rw [List.length_map, List.length_map] at hlength
  exact hlength.trans hrows.perm.length_eq

/-- **Audit pagination** loses nothing and shows nothing twice, in whatever order each query has the records of one
time, exactly if no page but the last ends at a time that two records of the user share. -/
theorem lossless_iff (log : AuditLog) (userId : String) (limit : Option Int) :
    Lossless log userId limit ↔ Pages.ClearCuts (pageSize limit) AuditEvent.createdAt (log.ofUser userId) := by
  refine ⟨clearCuts_of_lossless, fun hclear orders horders => ?_⟩
  obtain ⟨fuel, items, hwalk, hitems⟩ := Pages.walk_arranges (log.nodup_ofUser userId) (pageSize_pos limit) hclear
    horders
  refine ⟨fuel, items, ?_, hitems⟩
  rw [follow_eq (id_ne_of_ordered horders) fuel 0 (by simp), hwalk]
  rfl

/-- A sign-in of the user `ada`. -/
def signIn (id : String) (createdAt : Date) : AuditEvent :=
  { id := id
    action := "auth.login.succeeded"
    outcome := "success"
    createdAt := createdAt
    actorUserId := some "ada"
    actorDeviceId := none
    targetDeviceId := none
    spaceId := none
    approximateLocation := none
    ipAddress := none
    userAgent := none
    metadata := none }

/-- Two sign-ins in one millisecond. -/
def twoSignIns : AuditLog where
  rows := [signIn "e1" 1000, signIn "e2" 1000]
  nodup := by decide
  id_ne := by decide

/-- In pages of one, one of the two can be lost. -/
theorem not_lossless_twoSignIns : ¬ ∀ (log : AuditLog) (userId : String) (limit : Option Int),
    Lossless log userId limit := by
  intro h
  have hone := clearCuts_of_lossless (h twoSignIns "ada" (some 1)) 0 1000 (by decide) (by decide)
  revert hone
  decide

end Audit
