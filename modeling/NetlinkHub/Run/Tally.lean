import Mathlib.Data.List.Nodup
import Mathlib.Data.List.Induction

/-! # Tables that events fill

A table keeps one entry for each key, in the order in which the keys came. Each event changes the entry of its
key, or makes it. What an entry holds depends on the events of its key alone (`mem_tally`). -/

namespace Tally

variable {α β E : Type} [DecidableEq α]

/-- The entry of a key is changed where it stands, or comes last. -/
def upsert (key : α) (put : Option β → β) : List (α × β) → List (α × β)
  | [] => [(key, put none)]
  | (k, b) :: table => if k = key then (k, put (some b)) :: table else (k, b) :: upsert key put table

variable {key k : α} {put : Option β → β} {table : List (α × β)}

theorem lookup_cons (k k' : α) (b : β) (table : List (α × β)) :
    ((k', b) :: table).lookup k = if k = k' then some b else table.lookup k := by
  by_cases h : k = k'
  · simp [h]
  · simp [List.lookup_cons, beq_false_of_ne h, h]

theorem lookup_upsert (key : α) (put : Option β → β) (table : List (α × β)) (k : α) :
    (upsert key put table).lookup k = if k = key then some (put (table.lookup key)) else table.lookup k := by
  induction table with
  | nil => rw [upsert, lookup_cons]; rfl
  | cons entry table ih =>
    obtain ⟨k', b⟩ := entry
    rw [upsert]
    by_cases hkey : k' = key
    · subst hkey
      rw [if_pos rfl, lookup_cons, lookup_cons k', if_pos rfl, lookup_cons]
      split <;> rfl
    · rw [if_neg hkey, lookup_cons, lookup_cons key, if_neg (Ne.symm hkey), ih, lookup_cons]
      by_cases h : k = k'
      · rw [if_pos h, if_pos h, if_neg (h.trans_ne hkey)]
      · rw [if_neg h, if_neg h]

theorem keys_upsert (key : α) (put : Option β → β) (table : List (α × β)) :
    (upsert key put table).map Prod.fst =
      if key ∈ table.map Prod.fst then table.map Prod.fst else table.map Prod.fst ++ [key] := by
  induction table with
  | nil => rfl
  | cons entry table ih =>
    obtain ⟨k', b⟩ := entry
    rw [upsert]
    by_cases hkey : k' = key
    · simp [hkey]
    · rw [if_neg hkey, List.map_cons, ih]
      by_cases hmem : key ∈ table.map Prod.fst <;> simp [hmem, Ne.symm hkey]

/-- Every key stands there once. -/
def Distinct (table : List (α × β)) : Prop := (table.map Prod.fst).Nodup

theorem Distinct.upsert (h : Distinct table) (key : α) (put : Option β → β) : Distinct (upsert key put table) := by
  rw [Distinct, keys_upsert]
  split
  · exact h
  · rename_i hkey
    exact List.nodup_append.mpr ⟨h, List.nodup_singleton _, by
      rintro k hk k' hk' rfl
      exact hkey (List.mem_singleton.mp hk' ▸ hk)⟩

/-- The entries are what is looked up. -/
theorem Distinct.mem_iff (h : Distinct table) {b : β} : (k, b) ∈ table ↔ table.lookup k = some b := by
  induction table with
  | nil => simp
  | cons entry table ih =>
    obtain ⟨k', b'⟩ := entry
    obtain ⟨hnot, hrest⟩ := List.nodup_cons.mp h
    rw [lookup_cons, List.mem_cons, Prod.mk.injEq, ih hrest]
    by_cases hk : k = k'
    · subst hk
      have hfresh : table.lookup k ≠ some b := by
        intro hb
        have hmem : (k, b).1 ∈ table.map Prod.fst := List.mem_map_of_mem ((ih hrest).mpr hb)
        exact hnot hmem
      simp [hfresh, eq_comm]
    · simp [hk]

theorem mem_of_lookup {b : β} (h : table.lookup k = some b) : (k, b) ∈ table := by
  induction table with
  | nil => cases h
  | cons entry table ih =>
    obtain ⟨k', b'⟩ := entry
    rw [lookup_cons] at h
    split at h
    · rename_i hk
      subst hk
      obtain rfl := Option.some.inj h
      exact List.mem_cons_self
    · exact List.mem_cons_of_mem _ (ih h)

/-- What all entries have, all have afterwards, if the new one does. -/
theorem forall_mem_upsert {P : α × β → Prop} (h : ∀ e ∈ table, P e) (hput : P (key, put (table.lookup key))) :
    ∀ e ∈ upsert key put table, P e := by
  induction table with
  | nil => exact fun e he => List.mem_singleton.mp he ▸ hput
  | cons entry table ih =>
    obtain ⟨k', b⟩ := entry
    rw [upsert]
    rw [lookup_cons] at hput
    obtain ⟨hhead, hrest⟩ := List.forall_mem_cons.mp h
    split
    · rename_i hk
      subst hk
      rw [if_pos rfl] at hput
      exact List.forall_mem_cons.mpr ⟨hput, hrest⟩
    · rename_i hk
      rw [if_neg (Ne.symm hk)] at hput
      exact List.forall_mem_cons.mpr ⟨hhead, ih hrest hput⟩

/-! ## Runs of events -/

variable (keyOf : E → α) (putOf : E → Option β → β)

/-- The table after events. -/
def tally (events : List E) : List (α × β) := events.foldl (fun table e => upsert (keyOf e) (putOf e) table) []

/-- What one entry comes to, by the events of its key. -/
def entry (events : List E) : Option β := events.foldl (fun b e => some (putOf e b)) none

variable {keyOf putOf} {events : List E}

@[simp] theorem tally_concat (events : List E) (e : E) :
    tally keyOf putOf (events ++ [e]) = upsert (keyOf e) (putOf e) (tally keyOf putOf events) := by
  simp [tally]

@[simp] theorem entry_concat (events : List E) (e : E) :
    entry putOf (events ++ [e]) = some (putOf e (entry putOf events)) := by
  simp [entry]

theorem distinct_tally (events : List E) : Distinct (tally keyOf putOf events) := by
  induction events using List.reverseRecOn with
  | nil => exact List.nodup_nil
  | append_singleton events e ih =>
    rw [tally_concat]
    exact ih.upsert _ _

/-- **An entry is made by the events of its key.** -/
theorem lookup_tally (events : List E) (k : α) :
    (tally keyOf putOf events).lookup k = entry putOf (events.filter (keyOf · = k)) := by
  induction events using List.reverseRecOn with
  | nil => rfl
  | append_singleton events e ih =>
    rw [tally_concat, lookup_upsert, List.filter_append]
    by_cases h : keyOf e = k
    · subst h
      simp [ih]
    · simp [h, Ne.symm h, ih]

theorem mem_tally {b : β} :
    (k, b) ∈ tally keyOf putOf events ↔ entry putOf (events.filter (keyOf · = k)) = some b := by
  rw [(distinct_tally events).mem_iff, lookup_tally]

/-- There is an entry once there was an event. -/
theorem entry_eq_none : entry putOf events = none ↔ events = [] := by
  induction events using List.reverseRecOn with
  | nil => simp [entry]
  | append_singleton events e ih => simp

/-- An entry may hold a table itself. What the events of its key have put there is a tally of them. -/
theorem tally_of_entry {σ κ γ : Type} [DecidableEq κ] {start : E → σ} {change : E → σ → σ} {part : σ → List (κ × γ)}
    {keyOf : E → κ} {putOf : E → Option γ → γ} {R : σ → Prop} (hstart : ∀ e, R (start e) ∧ part (start e) = [])
    (hchange : ∀ e s, R s → R (change e s) ∧ part (change e s) = upsert (keyOf e) (putOf e) (part s)) {s : σ}
    (h : entry (fun e found => change e (found.getD (start e))) events = some s) :
    R s ∧ part s = tally keyOf putOf events := by
  induction events using List.reverseRecOn generalizing s with
  | nil => cases h
  | append_singleton events e ih =>
    rw [entry_concat] at h
    obtain rfl := Option.some.inj h
    rw [tally_concat]
    cases hentry : entry (fun e found => change e (found.getD (start e))) events with
    | none =>
      obtain ⟨hR, hpart⟩ := hstart e
      have hnext := hchange e (start e) hR
      rw [hpart] at hnext
      obtain rfl := entry_eq_none.mp hentry
      exact hnext
    | some s =>
      obtain ⟨hR, hpart⟩ := ih hentry
      have hnext := hchange e s hR
      rw [hpart] at hnext
      exact hnext

end Tally
