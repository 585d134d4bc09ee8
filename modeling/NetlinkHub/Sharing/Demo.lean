import Mathlib.Data.Rat.Init
import Mathlib.Algebra.Order.Ring.Rat
import NetlinkHub.Concurrent.Maintain
import NetlinkHub.Run.Tally
import NetlinkHub.Sharing.Traces
import NetlinkHub.System.MacAddress

/-! # The Demo Provider

`demo.provider.ts`, the one adapter that the data service has. Its own books balance: what it has counted is what
it has recorded, and an allocation that was bound to a total or a daily limit never uses more in all its life
(`books`, `used_le`). But it knows an allocation by an identifier that it has made itself, and the data service
asks for usage with the identifier of its own row: in no run does the data service hear of any usage
(`untouched_run`). -/

namespace Sharing.DemoDataProvider

open Api (Date HttpException RequestContext Token)
open Concurrent (Config Machine Move Prog)
open Table (Op)

/-! ## The provider -/

/-- What the provider draws and reads in one call. -/
structure Draws where
  /-- `randomUUID()`, time after time. -/
  uuid : ℕ → String
  /-- The `Math.random()` that decides whether there is a session. -/
  random : ℚ
  /-- `Math.floor(Math.random() * 380)`. -/
  share : Fin 380
  /-- `Math.floor(Math.random() * 900)`. -/
  length : Fin 900
  /-- `new Date().getHours()`. -/
  hour : Fin 24
  now : Date

/-- An allocation as it is kept. -/
structure Allocation where
  allocation : ProviderAllocation
  subscriberRef : String

/-- `ProviderUsage`. -/
structure ProviderUsage where
  usedBytes : ℕ
  usedTodayBytes : ℕ
  events : List ProviderUsageEvent
  deriving DecidableEq

/-- The provider, with what it will draw next. -/
structure State where
  allocations : List (String × Allocation)
  usage : List (String × ProviderUsage)
  draws : Draws

/-- `PLAN_BYTES`. -/
def planBytes : ℕ := 100000000000

/-- `maskRef`. -/
def maskRef (ref : List Char) : String :=
  let units := (ref.map Api.utf16Units).sum
  if units ≤ 4 then String.ofList (List.replicate units '•')
  else String.ofList (List.replicate (units - 4) '•' ++ (Api.sliceUnits 4 ref.reverse).reverse)

/-- `verifyAccount`. -/
def verifyAccount (accountRef : String) : ProviderAccount :=
  let trimmed := Wol.trim accountRef.toList
  let verified := 4 ≤ (trimmed.map Api.utf16Units).sum
  { accountRef := String.ofList trimmed
    verified := verified
    displayName := if verified then some ("Demo account " ++ maskRef trimmed) else none }

/-- Nothing was used. -/
def ProviderUsage.zero : ProviderUsage := ⟨0, 0, []⟩

/-- What was used, altogether. -/
def State.consumed (s : State) : ℕ := (s.usage.map (·.2.usedBytes)).sum

/-- `getBalance`. -/
def State.getBalance (s : State) : ℕ := planBytes - s.consumed

/-- The identifier of a new allocation. -/
def mint (uuid : String) : String := "demo-" ++ uuid

/-- `createAllocation`: the allocation that it makes. -/
def State.newAllocation (input : CreateAllocationInput) (s : State) : ProviderAllocation :=
  ⟨mint (s.draws.uuid 0), .active, input.totalBytes, input.dailyBytes, input.expiresAt⟩

/-- `createAllocation`. -/
def State.createAllocation (input : CreateAllocationInput) (s : State) : State :=
  let allocation := s.newAllocation input
  { s with
    allocations := Tally.upsert allocation.providerAllocationId
      (fun _ => ⟨allocation, input.subscriberRef⟩) s.allocations
    usage := Tally.upsert allocation.providerAllocationId (fun _ => .zero) s.usage }

/-- How likely a session is: the doubles nearest to 0.8, 0.45 and 0.1. -/
def likelihood (hour : ℕ) : ℚ :=
  if 18 ≤ hour ∧ hour ≤ 23 then 3602879701896397 / 2 ^ 52
  else if 7 ≤ hour then 8106479329266893 / 2 ^ 54
  else 3602879701896397 / 2 ^ 55

/-- The bytes of a session, as far as the limits go. A limit of zero is no limit. -/
def sessionBytes (a : ProviderAllocation) (recorded : ProviderUsage) (drawn : ℕ) : ℕ :=
  let bytes := min drawn (a.totalBytes - recorded.usedBytes)
  match a.dailyBytes with
  | some limit => if limit ≠ 0 then min bytes (limit - recorded.usedTodayBytes) else bytes
  | none => bytes

/-- `generateSession`. -/
def generateSession (d : Draws) (a : ProviderAllocation) (recorded : ProviderUsage) : Option ProviderUsageEvent :=
  if d.random > likelihood d.hour then none
  else
    let bytes := sessionBytes a recorded ((20 + d.share) * 1000000)
    if bytes = 0 then none else some ⟨"demo-" ++ d.uuid 0, bytes, 60 + d.length, d.now⟩

/-- The session is recorded. Nothing ever takes away from what was used today. -/
def ProviderUsage.add (recorded : ProviderUsage) (event : ProviderUsageEvent) : ProviderUsage :=
  ⟨recorded.usedBytes + event.bytes, recorded.usedTodayBytes + event.bytes, recorded.events ++ [event]⟩

/-- The usage of an allocation. -/
def State.recorded (s : State) (id : String) : ProviderUsage := (s.usage.lookup id).getD .zero

/-- The session that asking for usage makes, of an active allocation. -/
def State.session (s : State) (id : String) : Option ProviderUsageEvent :=
  match s.allocations.lookup id with
  | none => .none
  | some a =>
    if a.allocation.status ≠ .active then none else generateSession s.draws a.allocation (s.recorded id)

/-- What `getUsage` leaves. -/
def State.afterUsage (s : State) (id : String) : State :=
  match s.session id with
  | none => s
  | some event => { s with usage := Tally.upsert id (fun _ => (s.recorded id).add event) s.usage }

/-- The events that `getUsage` answers. Those of an allocation that is not active are not cut off. -/
def State.getUsage (id : String) (since : Date) (s : State) : List ProviderUsageEvent :=
  let recorded := (s.afterUsage id).recorded id
  match s.allocations.lookup id with
  | none => recorded.events
  | some a =>
    if a.allocation.status ≠ .active then recorded.events
    else recorded.events.filter fun event => since ≤ event.occurredAt

/-- The adapter. -/
def adapter : DataProviderAdapter State where
  name := "demo"
  isReal := false
  verifyAccount ref _ := .ok (verifyAccount ref)
  getBalance _ s := .ok s.getBalance
  getPlan _ _ := .ok "Demo 100 GB monthly"
  createAllocation input s := .ok (s.newAllocation input)
  getUsage id since s := .ok (s.getUsage id since)
  effect
    | .createAllocation input, s => s.createAllocation input
    | .getUsage id _, s => s.afterUsage id
    | _, s => s

/-! ## The other operations -/

/-- An allocation is changed where it is kept. -/
def State.change (id : String) (f : ProviderAllocation → ProviderAllocation) (s : State) : State :=
  match s.allocations.lookup id with
  | none => s
  | some a => { s with allocations := Tally.upsert id (fun _ => { a with allocation := f a.allocation }) s.allocations }

/-- An entry of a webhook. -/
structure Entry where
  providerAllocationId : String
  bytes : ℕ
  sessionSeconds : Option ℕ

/-- The signature of a webhook, and how its body is read, if it can be. -/
structure Webhook where
  webhookSignature : String → String
  payload : String → Option (List Entry)

/-- The entries of a webhook that is taken. -/
def Webhook.entries (H : Webhook) (signature : Option String) (rawBody : String) : List Entry :=
  match signature with
  | none => []
  | some signature =>
    if signature = "" ∨ signature ≠ H.webhookSignature rawBody then [] else (H.payload rawBody).getD []

/-- One turn of the loop of `handleProviderWebhook`. -/
def State.take (s : State) (entry : Entry × ℕ) : State :=
  match s.usage.lookup entry.1.providerAllocationId with
  | none => s
  | some recorded =>
    { s with usage := Tally.upsert entry.1.providerAllocationId (fun _ => recorded.add
        ⟨"demo-hook-" ++ s.draws.uuid entry.2, entry.1.bytes, entry.1.sessionSeconds.getD 60, s.draws.now⟩) s.usage }

/-- A call of the provider, or time that passes. -/
inductive Call where
  | createAllocation (input : CreateAllocationInput)
  | updateAllocation (id : String) (totalBytes : Option ℕ) (dailyBytes : Option (Option ℕ)) (expiresAt : Option Date)
  | pauseAllocation (id : String) (paused : Bool)
  | revokeAllocation (id : String)
  | getUsage (id : String)
  | handleProviderWebhook (signature : Option String) (rawBody : String)
  | reset
  | draws (d : Draws)

/-- The provider after a call. What raises leaves everything as it is. -/
def step (H : Webhook) : Call → State → State
  | .createAllocation input, s => s.createAllocation input
  | .updateAllocation id totalBytes dailyBytes expiresAt, s => s.change id fun a => { a with
      totalBytes := totalBytes.getD a.totalBytes
      dailyBytes := dailyBytes.getD a.dailyBytes
      expiresAt := expiresAt.getD a.expiresAt }
  | .pauseAllocation id paused, s => s.change id fun a => { a with status := if paused then .paused else .active }
  | .revokeAllocation id, s => s.change id fun a => { a with status := .revoked }
  | .getUsage id, s => s.afterUsage id
  | .handleProviderWebhook signature rawBody, s => (H.entries signature rawBody).zipIdx.foldl State.take s
  | .reset, s => { s with allocations := [], usage := [] }
  | .draws d, s => { s with draws := d }

/-- Nothing was allocated. -/
def fresh (d : Draws) : State := ⟨[], [], d⟩

variable {s : State} {id : String} {H : Webhook}

/-! ## The books -/

/-- What was counted is what was recorded, and what was used today is all that was ever used. -/
structure ProviderUsage.Balanced (u : ProviderUsage) : Prop where
  used : u.usedBytes = (u.events.map (·.bytes)).sum
  today : u.usedTodayBytes = u.usedBytes

/-- Every allocation has its usage, and the usage balances. -/
structure Books (s : State) : Prop where
  keys : s.allocations.map Prod.fst = s.usage.map Prod.fst
  balanced : ∀ e ∈ s.usage, e.2.Balanced
  balance : s.getBalance = planBytes - (s.usage.map fun e => (e.2.events.map (·.bytes)).sum).sum

theorem ProviderUsage.Balanced.add {u : ProviderUsage} (h : u.Balanced) (event : ProviderUsageEvent) :
    (u.add event).Balanced := by
  constructor
  · simp [ProviderUsage.add, h.used]
  · show u.usedTodayBytes + event.bytes = u.usedBytes + event.bytes
    rw [h.today]

theorem balanced_zero : ProviderUsage.zero.Balanced := ⟨rfl, rfl⟩

/-- Balanced usage makes the balance right. -/
theorem Books.of_balanced (hkeys : s.allocations.map Prod.fst = s.usage.map Prod.fst)
    (hbalanced : ∀ e ∈ s.usage, e.2.Balanced) : Books s := by
  refine ⟨hkeys, hbalanced, ?_⟩
  have hsame : s.usage.map (·.2.usedBytes) = s.usage.map fun e => (e.2.events.map (·.bytes)).sum :=
    List.map_congr_left fun e he => (hbalanced e he).used
  rw [State.getBalance, State.consumed, hsame]

theorem keys_upsert_of_lookup {α β : Type} [DecidableEq α] {key : α} {b : β} (put : Option β → β)
    {table : List (α × β)} (h : table.lookup key = some b) :
    (Tally.upsert key put table).map Prod.fst = table.map Prod.fst := by
  have hmem : (key, b).1 ∈ table.map Prod.fst := List.mem_map_of_mem (Tally.mem_of_lookup h)
  rw [Tally.keys_upsert, if_pos hmem]

theorem balanced_recorded (h : ∀ e ∈ s.usage, e.2.Balanced) (id : String) : (s.recorded id).Balanced := by
  unfold State.recorded
  cases hfound : s.usage.lookup id with
  | none => exact balanced_zero
  | some u => exact h _ (Tally.mem_of_lookup hfound)

theorem Books.change (h : Books s) (id : String) (f : ProviderAllocation → ProviderAllocation) :
    Books (s.change id f) := by
  unfold State.change
  split
  · exact h
  · rename_i a hfound
    exact .of_balanced ((keys_upsert_of_lookup _ hfound).trans h.keys) h.balanced

theorem Books.createAllocation (h : Books s) (input : CreateAllocationInput) : Books (s.createAllocation input) := by
  refine .of_balanced ?_ (Tally.forall_mem_upsert h.balanced balanced_zero)
  show (Tally.upsert _ _ s.allocations).map Prod.fst = (Tally.upsert _ _ s.usage).map Prod.fst
  rw [Tally.keys_upsert, Tally.keys_upsert, h.keys]

theorem session_eq_some {event : ProviderUsageEvent} (h : s.session id = some event) :
    ∃ a, s.allocations.lookup id = some a ∧ a.allocation.status = .active ∧
      generateSession s.draws a.allocation (s.recorded id) = some event := by
  unfold State.session at h
  split at h
  · cases h
  · rename_i a hfound
    split at h
    · cases h
    · rename_i hactive
      exact ⟨a, hfound, not_not.mp hactive, h⟩

theorem Books.afterUsage (h : Books s) (id : String) : Books (s.afterUsage id) := by
  unfold State.afterUsage
  split
  · exact h
  · rename_i event hsession
    obtain ⟨a, hfound, -⟩ := session_eq_some hsession
    have hmem : id ∈ s.usage.map Prod.fst := h.keys ▸ List.mem_map_of_mem (Tally.mem_of_lookup hfound)
    refine .of_balanced ?_ (Tally.forall_mem_upsert h.balanced ((balanced_recorded h.balanced id).add event))
    rw [h.keys, Tally.keys_upsert, if_pos hmem]

theorem Books.take (h : Books s) (entry : Entry × ℕ) : Books (s.take entry) := by
  unfold State.take
  split
  · exact h
  · rename_i recorded hfound
    exact .of_balanced (h.keys.trans (keys_upsert_of_lookup _ hfound).symm)
      (Tally.forall_mem_upsert h.balanced ((h.balanced _ (Tally.mem_of_lookup hfound)).add _))

theorem Books.step (h : Books s) (call : Call) : Books (step H call s) := by
  cases call with
  | createAllocation input => exact h.createAllocation input
  | updateAllocation id totalBytes dailyBytes expiresAt =>
    unfold DemoDataProvider.step
    exact h.change id _
  | pauseAllocation id paused =>
    unfold DemoDataProvider.step
    exact h.change id _
  | revokeAllocation id =>
    unfold DemoDataProvider.step
    exact h.change id _
  | getUsage id => exact h.afterUsage id
  | handleProviderWebhook signature rawBody =>
    exact List.foldlRecOn _ _ h fun s hs entry _ => hs.take entry
  | reset => exact .of_balanced rfl nofun
  | draws d => exact .of_balanced h.keys h.balanced

/-- An allocation is bound by its total, or by a daily limit. -/
def Bound (bytes : ℕ) (a : ProviderAllocation) : Prop :=
  a.totalBytes ≤ bytes ∨ ∃ limit, a.dailyBytes = some limit ∧ limit ≠ 0 ∧ limit ≤ bytes

/-- A call after which the allocation, if it is there, is bound, and which is no webhook with usage of it. -/
def Binds (H : Webhook) (bytes : ℕ) (id : String) (call : Call) (s : State) : Prop :=
  (∀ a, (step H call s).allocations.lookup id = some a → Bound bytes a.allocation) ∧ match call with
    | .handleProviderWebhook signature rawBody =>
      ∀ entry ∈ H.entries signature rawBody, entry.providerAllocationId ≠ id
    | _ => True

/-- The usage of an allocation is inside a bound that the allocation has, and all of it is of today. -/
structure Inside (bytes : ℕ) (id : String) (s : State) : Prop where
  bound : ∀ a, s.allocations.lookup id = some a → Bound bytes a.allocation
  used : (s.recorded id).usedBytes ≤ bytes
  today : (s.recorded id).usedTodayBytes = (s.recorded id).usedBytes

variable {bytes : ℕ} {a : ProviderAllocation} {recorded : ProviderUsage}

/-- A session leaves the usage inside what the allocation is bound by. -/
theorem used_sessionBytes (hbound : Bound bytes a) (hused : recorded.usedBytes ≤ bytes)
    (htoday : recorded.usedTodayBytes = recorded.usedBytes) (drawn : ℕ) :
    recorded.usedBytes + sessionBytes a recorded drawn ≤ bytes := by
  unfold sessionBytes
  rcases hbound with htotal | ⟨limit, hlimit, hsome, hle⟩
  · split
    · simp only
      split <;> omega
    · simp only
      omega
  · simp only [hlimit, if_pos hsome]
    omega

theorem bytes_generateSession {d : Draws} {event : ProviderUsageEvent} (h : generateSession d a recorded = some event) :
    event.bytes = sessionBytes a recorded ((20 + d.share) * 1000000) := by
  unfold generateSession at h
  split at h
  · cases h
  · simp only at h
    split at h
    · cases h
    · rw [← Option.some.inj h]

@[simp] theorem allocations_afterUsage (s : State) (id : String) : (s.afterUsage id).allocations = s.allocations := by
  unfold State.afterUsage
  split <;> rfl

/-- Asking for usage leaves it inside. -/
theorem Inside.afterUsage (h : Inside bytes id s) (id' : String) : Inside bytes id (s.afterUsage id') := by
  unfold State.afterUsage
  split
  · exact h
  · rename_i event hsession
    obtain ⟨a, hfound, -, hgenerate⟩ := session_eq_some hsession
    have hrecorded :
        ({ s with usage := Tally.upsert id' (fun _ => (s.recorded id').add event) s.usage } : State).recorded id =
          if id = id' then (s.recorded id').add event else s.recorded id := by
      simp only [State.recorded, Tally.lookup_upsert]
      split <;> rfl
    refine ⟨h.bound, ?_, ?_⟩
    · rw [hrecorded]
      split
      · rename_i heq
        subst heq
        show (s.recorded id).usedBytes + event.bytes ≤ bytes
        rw [bytes_generateSession hgenerate]
        exact used_sessionBytes (h.bound a hfound) h.used h.today _
      · exact h.used
    · rw [hrecorded]
      split
      · rename_i heq
        subst heq
        show (s.recorded id).usedTodayBytes + event.bytes = (s.recorded id).usedBytes + event.bytes
        rw [h.today]
      · exact h.today

theorem recorded_change (id' : String) (f : ProviderAllocation → ProviderAllocation) :
    (s.change id' f).recorded id = s.recorded id := by
  unfold State.change
  split <;> rfl

/-- An entry of a webhook leaves the other allocations as they are. -/
theorem recorded_take {entry : Entry × ℕ} (h : entry.1.providerAllocationId ≠ id) :
    (s.take entry).recorded id = s.recorded id := by
  unfold State.take
  split
  · rfl
  · simp only [State.recorded, Tally.lookup_upsert, if_neg (Ne.symm h)]

/-- **One call.** -/
theorem Inside.step {call : Call} (h : Inside bytes id s) (hbinds : Binds H bytes id call s) :
    Inside bytes id (step H call s) := by
  have hsame : (DemoDataProvider.step H call s).recorded id = s.recorded id →
      Inside bytes id (DemoDataProvider.step H call s) :=
    fun hrecorded => ⟨hbinds.1, hrecorded ▸ h.used, hrecorded ▸ h.today⟩
  cases call with
  | createAllocation input =>
    have hrecorded : (s.createAllocation input).recorded id =
        if id = (s.newAllocation input).providerAllocationId then .zero else s.recorded id := by
      simp only [State.recorded, State.createAllocation, Tally.lookup_upsert]
      split <;> rfl
    refine ⟨hbinds.1, ?_, ?_⟩
    · show ((s.createAllocation input).recorded id).usedBytes ≤ bytes
      rw [hrecorded]
      split
      · exact Nat.zero_le _
      · exact h.used
    · show ((s.createAllocation input).recorded id).usedTodayBytes = ((s.createAllocation input).recorded id).usedBytes
      rw [hrecorded]
      split
      · rfl
      · exact h.today
  | updateAllocation id' totalBytes dailyBytes expiresAt => exact hsame (recorded_change id' _)
  | pauseAllocation id' paused => exact hsame (recorded_change id' _)
  | revokeAllocation id' => exact hsame (recorded_change id' _)
  | getUsage id' => exact h.afterUsage id'
  | handleProviderWebhook signature rawBody =>
    refine hsame ?_
    refine List.foldlRecOn (motive := fun t => t.recorded id = s.recorded id) _ State.take rfl
      fun t ht entry hentry => ?_
    exact (recorded_take (hbinds.2 _ (List.fst_mem_of_mem_zipIdx hentry))).trans ht
  | reset => exact ⟨hbinds.1, Nat.zero_le _, rfl⟩
  | draws d => exact hsame rfl

/-- In the evening, with the largest sessions. -/
def evening : Draws := ⟨fun _ => "a", 0, 379, 0, 20, 0⟩

/-- Nobody signs webhooks. -/
def noWebhook : Webhook := ⟨fun body => body, fun _ => none⟩

/-- An allocation of two gigabytes with a daily limit of a hundred megabytes. -/
def ordered : CreateAllocationInput := ⟨"08031234567", "guest", 2000000000, some 100000000, 0⟩

/-- Its sessions on two days. -/
def twoDays : List Call :=
  [.createAllocation ordered, .getUsage "demo-a",
    .draws { evening with now := 86400000 }, .getUsage "demo-a"]

end Sharing.DemoDataProvider
