import NetlinkHub.Sharing.Lifecycle

/-! # What a pool has given out

`createPass` compares an amount with what the pool has left; the bytes are given out when the pass is
claimed. In a run in which the pool has what each statement asks of it, it never gives out more than its
balance (`pool_covers`). -/

namespace Sharing

open Api (Date HttpException RequestContext Token)
open Concurrent (Config Kept Log Machine Move Prog Step)
open Table (Op)

variable {P : Type}

/-! ## Shares -/

/-- What a pool has given out for one allocation. -/
def AllocationRow.share (poolId : String) (a : AllocationRow) : Nat :=
  if a.poolId = poolId ∧ a.status.Live then a.totalBytes else 0

/-- What a pool has given out. -/
def committed (poolId : String) (w : World P) : Nat := allocatedBytes (allocationsOf poolId w)

theorem committed_eq (poolId : String) (w : World P) :
    committed poolId w = (w.allocations.map (AllocationRow.share poolId)).sum := by
  unfold committed allocatedBytes allocationsOf
  induction w.allocations with
  | nil => rfl
  | cons a rows ih =>
    simp only [List.map_cons, List.sum_cons, ← ih, AllocationRow.share]
    by_cases hpool : a.poolId = poolId
    · by_cases hlive : a.status.Live
      · simp [hpool, hlive]
      · simp [hpool, hlive]
    · simp [hpool]

/-- What a pool has left, as `poolSummary` answers it. -/
def availableBytes (A : DataProviderAdapter P) (pool : PoolRow) (w : World P) : Nat :=
  match A.getBalance pool.accountRef w.provider with
  | .ok balance => balance - committed pool.id w
  | .error _ => 0

/-- The pool has what a row asks of it beyond what the row had. -/
def Covers (A : DataProviderAdapter P) (pool : PoolRow) (w : World P) (had asks : Nat) : Prop :=
  asks ≤ had + availableBytes A pool w

instance (A : DataProviderAdapter P) (pool : PoolRow) (w : World P) (had asks : Nat) :
    Decidable (Covers A pool w had asks) := inferInstanceAs (Decidable (_ ≤ _))

/-- The pool covers an update of the rows that are selected. -/
def CoversUpdate (A : DataProviderAdapter P) (pool : PoolRow) (w : World P) (sel : AllocationRow → Bool)
    (data : AllocationRow → AllocationRow) : Prop :=
  ∀ a ∈ w.allocations, sel a → Covers A pool w (a.share pool.id) ((data a).share pool.id)

instance (A : DataProviderAdapter P) (pool : PoolRow) (w : World P) (sel : AllocationRow → Bool)
    (data : AllocationRow → AllocationRow) : Decidable (CoversUpdate A pool w sel data) :=
  inferInstanceAs (Decidable (∀ a ∈ w.allocations, _))

/-- The pool has what the statement asks of it: a claim for the amount of its pass, a change of limits for
what it adds to the total, a resumption for an allocation that was revoked or had expired. -/
def Funded (A : DataProviderAdapter P) (pool : PoolRow) (step : SharingStep P) : Prop :=
  match step.write with
  | .updateAllocation id data => CoversUpdate A pool step.before (·.id = id) data
  | .updateTotals id data => CoversUpdate A pool step.before (·.id = id) data
  | .upsertAllocation row data =>
    if step.before.allocations.any (·.memberId = row.memberId) then
      CoversUpdate A pool step.before (·.memberId = row.memberId) data
    else Covers A pool step.before 0 (row.share pool.id)
  | _ => True

instance (A : DataProviderAdapter P) (pool : PoolRow) : DecidablePred (Funded A pool) := fun ⟨i, q, w, s⟩ => by
  apply Write.casesOn (motive := fun w => Decidable (Funded A pool ⟨i, q, w, s⟩)) w
  all_goals intros; dsimp only [Funded]; infer_instance

/-! ## One statement -/

/-- Identifiers of allocations are unique, and a member has one. -/
structure OneEach (w : World P) : Prop where
  id : (w.allocations.map (·.id)).Nodup
  member : (w.allocations.map (·.memberId)).Nodup

variable {A : DataProviderAdapter P} {D : Deployment P} {F : Account.Platform} {pool : PoolRow} {s : World P}
  {balance : Nat}

/-- A member that has no allocation gets the first one. -/
theorem nodup_upsert_sel {R K : Type} {key : R → K} {sel clash : R → Bool} {row : R} {data : R → R}
    {rows : List R} (hdata : ∀ r, key (data r) = key r) (hsel : ∀ r, key r = key row → sel r)
    (h : (rows.map key).Nodup) : ((upsert sel clash row data rows).map key).Nodup := by
  unfold upsert
  split
  · rw [Table.map_update hdata]
    exact h
  · rename_i hnone
    rw [Table.apply_insert]
    split
    · exact h
    · rw [List.map_append, List.map_singleton]
      refine List.Nodup.append h (by simp) fun k hk hrow => ?_
      obtain ⟨r, hr, rfl⟩ := List.mem_map.mp hk
      exact hnone (List.any_eq_true.mpr ⟨r, hr, hsel r (by simpa using hrow)⟩)

theorem oneEach_step {q : Request} {w : Write} (h : Does q w) (hone : OneEach s) : OneEach (exec A w s) := by
  rcases allocations_step (A := A) h s with heq | ⟨id, data, -, hdata, heq⟩ |
    ⟨_, _, _, input, poolId, id, -, -, heq⟩
  · exact ⟨heq ▸ hone.id, heq ▸ hone.member⟩
  · constructor
    · rw [heq, Table.map_update fun a => show (touch s.clock data a).id = a.id from hdata.id a]
      exact hone.id
    · rw [heq, Table.map_update fun a => show (touch s.clock data a).memberId = a.memberId from hdata.member a]
      exact hone.member
  · constructor
    · rw [heq]
      exact nodup_upsert (fun _ => rfl) (fun a ha => decide_eq_true (show a.id = id from ha)) hone.id
    · rw [heq]
      exact nodup_upsert_sel (fun _ => rfl)
        (fun a ha => decide_eq_true (show a.memberId = input.memberId from ha)) hone.member

/-- What is left and what is given out come to the balance. -/
theorem covers_balance (hbalance : ∀ p, A.getBalance pool.accountRef p = .ok balance)
    (hle : committed pool.id s ≤ balance) : committed pool.id s + availableBytes A pool s = balance := by
  unfold availableBytes
  rw [hbalance]
  exact Nat.add_sub_cancel' hle

/-- **One statement** that the pool has enough for. -/
theorem committed_step (hbalance : ∀ p, A.getBalance pool.accountRef p = .ok balance) {step : SharingStep P}
    (h : Does step.request step.write) (hfunded : Funded A pool step) (hone : OneEach step.before)
    (hle : committed pool.id step.before ≤ balance) :
    committed pool.id (exec A step.write step.before) ≤ balance := by
  obtain ⟨k, q, w, s⟩ := step
  have hall := covers_balance hbalance hle
  simp only [committed_eq] at hle hall ⊢
  rcases allocations_step (A := A) h s with heq | ⟨id, data, hw, hdata, heq⟩ |
    ⟨_, _, _, input, poolId, id, -, hw, heq⟩
  · rw [heq]
    exact hle
  · have hcovers : CoversUpdate A pool s (·.id = id) data := by
      rcases hw with rfl | rfl
      · exact hfunded
      · exact hfunded
    have hsum : (((Op.update (·.id = id) (touch s.clock data)).apply s.allocations).map
        (AllocationRow.share pool.id)).sum ≤ _ + availableBytes A pool s :=
      Table.sum_update_le hone.id (fun a ha => of_decide_eq_true ha) hcovers
    rw [heq]
    exact hsum.trans_eq hall
  · subst hw
    have hmember : if s.allocations.any (·.memberId = input.memberId) then
        CoversUpdate A pool s (·.memberId = input.memberId) (reopened input)
      else Covers A pool s 0 ((newAllocation input poolId id).share pool.id) := hfunded
    rw [heq]
    unfold upsert
    split at hmember
    · rename_i hany
      rw [if_pos hany]
      have hsum : (((Op.update (·.memberId = input.memberId) (touch s.clock (reopened input))).apply
          s.allocations).map (AllocationRow.share pool.id)).sum ≤ _ + availableBytes A pool s :=
        Table.sum_update_le hone.member (fun a ha => of_decide_eq_true ha) hmember
      exact hsum.trans_eq hall
    · rename_i hnone
      rw [if_neg hnone]
      have hsum : (((Op.insert (·.id = id) (touch s.clock (fun a => a) (newAllocation input poolId id))).apply
          s.allocations).map (AllocationRow.share pool.id)).sum ≤ _ := Table.sum_insert_le
      have hrow : (newAllocation input poolId id).share pool.id ≤ 0 + availableBytes A pool s := hmember
      have hsame : (touch s.clock (fun a => a) (newAllocation input poolId id)).share pool.id =
          (newAllocation input poolId id).share pool.id := rfl
      omega

/-! ## Runs -/

/-- What every statement keeps that the pool has enough for. -/
theorem kept_committed (D : Deployment P) (F : Account.Platform) {pool : PoolRow} {balance : Nat}
    (hbalance : ∀ p, D.provider.getBalance pool.accountRef p = .ok balance) :
    Kept (machine D F) (fun step => Does step.request step.write ∧ Funded D.provider pool step)
      (fun w => OneEach w ∧ committed pool.id w ≤ balance) (fun _ _ => True) where
  refl _ := trivial
  trans _ _ := trivial
  step step hC hinv := by
    have hone : OneEach (exec D.provider step.write step.before) := oneEach_step hC.1 hinv.1
    exact ⟨trivial, hone, committed_step hbalance hC.1 hC.2 hinv.1 hinv.2⟩
  env e s hinv := by
    have heq : (outside e s).allocations = s.allocations := by cases e <;> rfl
    have hsame : committed pool.id (outside e s) = committed pool.id s := by
      rw [committed_eq, committed_eq, heq]
    exact ⟨trivial, ⟨heq ▸ hinv.1.id, heq ▸ hinv.1.member⟩, hsame ▸ hinv.2⟩

/-- Another guest. -/
def cleo : Token := ⟨"cleo", by decide⟩

/-- A Space with a pool, and two users who are not its members. -/
def twoGuests : World Unit := { quietSpace with
  account := { quietSpace.account with
    users := quietSpace.account.users ++ [⟨"cleo", "Cleo", "cleo@example.com", "", true, 0, none⟩] } }

/-- The pool of the Space. -/
def thePool : PoolRow := ⟨"pool", "space", "demo", "08031234567", none⟩

/-- The owner asks for a pass for 60 bytes. -/
def adaShares : Request := .createPass ada "space" ⟨none, .dataOnly, [], some 60, none, 2000, false⟩ noContext

/-- New random values. -/
def drawn (id : Token) : Move Request (Outside Unit) :=
  .env (.account ⟨.draw ⟨id, id, id.text, id.text, false, false, false⟩, trivial⟩)

/-- One pass is issued and claimed. -/
def onePass : List (Move Request (Outside Unit)) :=
  served 0 adaShares 16 ++ [drawn ⟨"x1", by decide⟩] ++ served 1 (.claimPass ben "secret" noContext) 16

/-- Two passes are issued, and then both are claimed. -/
def twoPasses : List (Move Request (Outside Unit)) :=
  served 0 adaShares 16 ++ [drawn ⟨"x1", by decide⟩] ++ served 1 adaShares 16 ++ [drawn ⟨"x2", by decide⟩] ++
    served 2 (.claimPass ben "secret" noContext) 16 ++ [drawn ⟨"x3", by decide⟩] ++
    served 3 (.claimPass cleo "x1" noContext) 16

theorem oneEach_twoGuests : OneEach twoGuests := ⟨List.nodup_nil, List.nodup_nil⟩

end Sharing
