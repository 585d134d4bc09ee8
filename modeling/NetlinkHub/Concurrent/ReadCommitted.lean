import Mathlib.Data.Finset.Card
import Mathlib.Data.Fintype.Basic
import NetlinkHub.Run.Steps

/-! # Transactions under READ COMMITTED

Each statement of a transaction sees what is committed when it starts, and what the transaction itself has
inserted; a row that is locked is waited for until its holder ends. Transactions that lock a row first, and
then read and insert only what belongs to it, come to what they come to one after the other in the order
of their commits (`SerialAt`), and none of them waits forever (`exists_finished`). -/

namespace ReadCommitted

/-! ## Transactions -/

/-- A transaction over rows `R`, with locks on rows that `L` names. -/
inductive Tx (L R α : Type) where
  /-- `COMMIT`, and what the transaction answers. -/
  | commit (a : α)
  /-- `SELECT .. FOR UPDATE` of one row. -/
  | lock (l : L) (next : Tx L R α)
  /-- A `SELECT`. -/
  | read (next : List R → Tx L R α)
  | insert (row : R) (next : Tx L R α)

/-- Where a transaction is. -/
inductive Phase (L R α : Type) where
  /-- What is left of it, and what it has inserted. -/
  | running (rest : Tx L R α) (own : List R)
  | committed (a : α)
  /-- The database has refused an insertion. -/
  | failed

/-- What a transaction has inserted that no other can see. -/
def Phase.pending {L R α : Type} : Phase L R α → List R
  | running _ own => own
  | _ => []

/-- The database, and the transactions that are under way. -/
structure Db (ι L R α : Type) where
  /-- What is committed. -/
  rows : List R
  /-- The transaction that has locked a row. -/
  holder : L → Option ι
  txs : ι → Phase L R α
  /-- The transactions that have committed, oldest first, and what they have answered. -/
  log : List (ι × α)

variable {ι L R α : Type} [DecidableEq ι] [Fintype ι] [DecidableEq L] (clash : R → R → Bool)

/-- The locks of a transaction are released. -/
def Db.released (s : Db ι L R α) (i : ι) (l : L) : Option ι := if s.holder l = some i then none else s.holder l

/-- Another transaction has inserted a row with the same key, and has not ended. -/
def Db.Contested (s : Db ι L R α) (i : ι) (row : R) : Prop := ∃ j, j ≠ i ∧ (s.txs j).pending.any (clash row)

instance (s : Db ι L R α) (i : ι) (row : R) : Decidable (s.Contested clash i row) :=
  inferInstanceAs (Decidable (∃ _, _))

/-- The next statement of a transaction; nothing happens while it has to wait. -/
def step (i : ι) (s : Db ι L R α) : Db ι L R α :=
  match s.txs i with
  | .running (.commit a) own =>
    { rows := s.rows ++ own
      holder := s.released i
      txs := Function.update s.txs i (.committed a)
      log := s.log ++ [(i, a)] }
  | .running (.lock l next) own =>
    if s.holder l = none ∨ s.holder l = some i then
      { s with
        holder := Function.update s.holder l (some i)
        txs := Function.update s.txs i (.running next own) }
    else s
  | .running (.read next) own =>
    { s with txs := Function.update s.txs i (.running (next (s.rows ++ own)) own) }
  | .running (.insert row next) own =>
    if (s.rows ++ own).any (clash row) then
      { s with holder := s.released i, txs := Function.update s.txs i .failed }
    else if s.Contested clash i row then s
    else { s with txs := Function.update s.txs i (.running next (own ++ [row])) }
  | _ => s

/-- Transactions that have not begun. -/
def begin (rows : List R) (tx : ι → Tx L R α) : Db ι L R α := ⟨rows, fun _ => none, fun i => .running (tx i) [], []⟩

/-- The database after a schedule. -/
abbrev sched (order : List ι) (s : Db ι L R α) : Db ι L R α := Run.run (step clash) order s

/-! ## One after the other -/

/-- What a transaction comes to when no other is under way: its answer and what it inserts. -/
def Tx.alone (rows : List R) : Tx L R α → List R → Option (α × List R)
  | commit a, own => some (a, own)
  | lock _ next, own => next.alone rows own
  | read next, own => (next (rows ++ own)).alone rows own
  | insert row next, own => if (rows ++ own).any (clash row) then none else next.alone rows (own ++ [row])

/-- The answers and the rows are those of transactions one after the other. -/
inductive SerialAt (tx : ι → Tx L R α) (rows : List R) : List (ι × α) → List R → Prop where
  | nil : SerialAt tx rows [] rows
  | snoc {log : List (ι × α)} {rows' own : List R} {i : ι} {a : α} (h : SerialAt tx rows log rows')
    (ha : (tx i).alone clash rows' [] = some (a, own)) : SerialAt tx rows (log ++ [(i, a)]) (rows' ++ own)

/-! ## Transactions that lock first -/

variable (key : R → L)

/-- The transaction locks no other row, reads only what belongs to this one, and inserts only such rows. -/
def Tx.Within (l : L) : Tx L R α → Prop
  | commit _ => True
  | lock l' next => l' = l ∧ next.Within l
  | read next => (∀ rows rows', rows.filter (key · = l) = rows'.filter (key · = l) → next rows = next rows') ∧
      ∀ rows, (next rows).Within l
  | insert row next => key row = l ∧ next.Within l

/-- Each transaction locks a row first, and is within it; rows with the same key belong to the same row. -/
structure LocksFirst (tx : ι → Tx L R α) (on : ι → L) : Prop where
  lock : ∀ i, ∃ body : Tx L R α, tx i = .lock (on i) body ∧ body.Within key (on i)
  clash : ∀ row row', clash row row' → key row' = key row

variable {clash key} {tx : ι → Tx L R α} {on : ι → L} {rows rows' own : List R} {s : Db ι L R α} {i j : ι} {l : L}

/-- What a transaction comes to depends only on the rows that it is within. -/
theorem Tx.Within.alone_congr (hclash : ∀ row row', clash row row' → key row' = key row) {t : Tx L R α}
    (h : t.Within key l) (hrows : rows.filter (key · = l) = rows'.filter (key · = l)) (own : List R) :
    t.alone clash rows own = t.alone clash rows' own := by
  have happend : ∀ own : List R, (rows ++ own).filter (key · = l) = (rows' ++ own).filter (key · = l) := fun own => by
    rw [List.filter_append, List.filter_append, hrows]
  induction t generalizing own with
  | commit a => rfl
  | lock l' next ih => exact ih h.2 own
  | read next ih =>
    simp only [alone]
    rw [h.1 _ _ (happend own)]
    exact ih _ (h.2 _) own
  | insert row next ih =>
    have hany : ∀ rows : List R, rows.any (clash row) = (rows.filter (key · = l)).any (clash row) := by
      intro rows
      rw [List.any_filter]
      refine List.any_congr rfl fun r => ?_
      by_cases hr : clash row r
      · simp [hr, (hclash row r hr).trans h.1]
      · simp [hr]
    simp only [alone]
    rw [hany, hany (rows' ++ own), happend own]
    split
    · rfl
    · exact ih h.2 _

/-! ## The invariant -/

variable (clash key tx on rows)

/-- A transaction has its lock, and from here on comes to what it comes to when no other is under way. -/
structure Inside (s : Db ι L R α) (i : ι) (rest : Tx L R α) (own : List R) : Prop where
  holds : s.holder (on i) = some i
  no_other : ∀ l, s.holder l = some i → l = on i
  within : rest.Within key (on i)
  belongs : ∀ r ∈ own, key r = on i
  alone : rest.alone clash s.rows own = (tx i).alone clash s.rows []

/-- What is known of a transaction by where it is. -/
def Fits (s : Db ι L R α) (i : ι) : Phase L R α → Prop
  | .running rest own => (rest = tx i ∧ own = [] ∧ ∀ l, s.holder l ≠ some i) ∨ Inside clash key tx on s i rest own
  | .committed _ => ∀ l, s.holder l ≠ some i
  | .failed => (∀ l, s.holder l ≠ some i) ∧ ∃ log rows', log <+: s.log ∧ SerialAt clash tx rows log rows' ∧
      (tx i).alone clash rows' [] = none

/-- What has been committed came about one transaction after the other, and each that is under way is where
it would be alone. -/
structure Serial (s : Db ι L R α) : Prop where
  serial : SerialAt clash tx rows s.log s.rows
  once : (s.log.map (·.1)).Nodup
  answered : ∀ i a, (i, a) ∈ s.log ↔ s.txs i = .committed a
  fits : ∀ i, Fits clash key tx on rows s i (s.txs i)

variable {clash key tx on rows} {t : Db ι L R α} {rest : Tx L R α}

omit [DecidableEq ι] [Fintype ι] in
theorem serial_begin : Serial clash key tx on rows (begin rows tx) where
  serial := .nil
  once := List.nodup_nil
  answered _ _ := by simp [begin]
  fits _ := .inl ⟨rfl, rfl, by simp [begin]⟩

omit [DecidableEq ι] [Fintype ι] in
/-- What is known of the other transactions. -/
theorem Fits.transfer {p : Phase L R α} (hclash : ∀ row row', clash row row' → key row' = key row)
    (htx : (tx j).Within key (on j)) (h : Fits clash key tx on rows s j p)
    (hholder : ∀ l, t.holder l = some j ↔ s.holder l = some j) (hlog : s.log <+: t.log)
    (hrows : s.holder (on j) = some j →
      s.rows.filter (key · = on j) = t.rows.filter (key · = on j)) : Fits clash key tx on rows t j p := by
  cases p with
  | running rest own =>
    rcases h with ⟨hrest, hown, hnone⟩ | hinside
    · exact .inl ⟨hrest, hown, fun l hl => hnone l ((hholder l).mp hl)⟩
    · have hfilter := hrows hinside.holds
      refine .inr ⟨(hholder _).mpr hinside.holds, fun l hl => hinside.no_other l ((hholder l).mp hl),
        hinside.within, hinside.belongs, ?_⟩
      rw [← hinside.within.alone_congr hclash hfilter, ← htx.alone_congr hclash hfilter]
      exact hinside.alone
  | committed a => exact fun l hl => h l ((hholder l).mp hl)
  | failed =>
    obtain ⟨hnone, log, rows', hprefix, hfailed⟩ := h
    exact ⟨fun l hl => hnone l ((hholder l).mp hl), log, rows', hprefix.trans hlog, hfailed⟩

omit [DecidableEq ι] [Fintype ι] in
theorem LocksFirst.within (h : LocksFirst clash key tx on) (i : ι) : (tx i).Within key (on i) := by
  obtain ⟨body, hbody, hwithin⟩ := h.lock i
  exact hbody ▸ ⟨rfl, hwithin⟩

omit [Fintype ι] in
/-- A statement that commits nothing leaves what is known of the commits. -/
theorem Serial.of_running (h : Serial clash key tx on rows s) (hfirst : LocksFirst clash key tx on)
    {rest : Tx L R α} {own : List R} (hi : s.txs i = .running rest own) {holder : L → Option ι}
    {p : Phase L R α} (hp : ∀ a, p ≠ .committed a)
    (hholder : ∀ j, j ≠ i → ∀ l, holder l = some j ↔ s.holder l = some j)
    (hfits : Fits clash key tx on rows ⟨s.rows, holder, Function.update s.txs i p, s.log⟩ i p) :
    Serial clash key tx on rows ⟨s.rows, holder, Function.update s.txs i p, s.log⟩ where
  serial := h.serial
  once := h.once
  answered j a := by
    rw [h.answered]
    by_cases hj : j = i
    · subst hj
      simp only [Function.update_self, hi]
      exact iff_of_false (by simp) (hp a)
    · simp only [Function.update_of_ne hj]
  fits j := by
    by_cases hj : j = i
    · subst hj
      simp only [Function.update_self]
      exact hfits
    · simp only [Function.update_of_ne hj]
      exact (h.fits j).transfer hfirst.clash (hfirst.within j) (hholder j hj) (List.prefix_refl _) fun _ => rfl

omit [Fintype ι] [DecidableEq L] in
theorem released_iff (hj : j ≠ i) : s.released i l = some j ↔ s.holder l = some j := by
  unfold Db.released
  split
  · rename_i hl
    simp [hl, hj.symm]
  · rfl

omit [Fintype ι] [DecidableEq L] in
theorem released_ne : s.released i l ≠ some i := by
  unfold Db.released
  split
  · simp
  · assumption

omit [Fintype ι] in
/-- A transaction that has its lock commits. -/
theorem Serial.commit (h : Serial clash key tx on rows s) (hfirst : LocksFirst clash key tx on) {a : α}
    (hi : s.txs i = .running (.commit a) own) (hinside : Inside clash key tx on s i (.commit a) own) :
    Serial clash key tx on rows
      ⟨s.rows ++ own, s.released i, Function.update s.txs i (.committed a), s.log ++ [(i, a)]⟩ where
  serial := h.serial.snoc hinside.alone.symm
  once := by
    have hnot : ∀ a', (i, a') ∉ s.log := fun a' hmem => by
      rw [h.answered, hi] at hmem
      cases hmem
    simpa [List.nodup_append] using ⟨h.once, fun j a' hmem heq => hnot a' (heq ▸ hmem)⟩
  answered j a' := by
    by_cases hj : j = i
    · subst hj
      have hnot : (j, a') ∉ s.log := fun hmem => by
        rw [h.answered, hi] at hmem
        cases hmem
      simp [hnot, eq_comm]
    · simp [h.answered, hj]
  fits j := by
    by_cases hj : j = i
    · subst hj
      simp only [Function.update_self]
      exact fun l => released_ne
    · simp only [Function.update_of_ne hj]
      refine (h.fits j).transfer hfirst.clash (hfirst.within j) (fun l => released_iff hj)
        (List.prefix_append _ _) fun hholds => ?_
      -- Rows of another lock.
      have hother : own.filter (key · = on j) = [] := by
        refine List.filter_eq_nil_iff.mpr fun r hr hkey => hj ?_
        have heq : on i = on j := (hinside.belongs r hr).symm.trans (of_decide_eq_true hkey)
        exact Option.some.inj (hholds.symm.trans (heq ▸ hinside.holds))
      rw [List.filter_append, hother, List.append_nil]

omit [DecidableEq ι] [Fintype ι] in
/-- Past its first statement, a transaction has its lock. -/
theorem Serial.inside (h : Serial clash key tx on rows s) (hfirst : LocksFirst clash key tx on)
    (hi : s.txs i = .running rest own) (hrest : ∀ l next, rest ≠ .lock l next) :
    Inside clash key tx on s i rest own := by
  have hfits := h.fits i
  rw [hi] at hfits
  refine hfits.resolve_left fun hwaiting => ?_
  obtain ⟨body, hbody, -⟩ := hfirst.lock i
  exact hrest _ _ (hwaiting.1.trans hbody)

/-- **One statement.** -/
theorem Serial.step (h : Serial clash key tx on rows s) (hfirst : LocksFirst clash key tx on) (i : ι) :
    Serial clash key tx on rows (step clash i s) := by
  unfold ReadCommitted.step
  split
  · rename_i a own hi
    exact h.commit hfirst hi (h.inside hfirst hi (by simp))
  · rename_i l next own hi
    split
    · rename_i hfree
      have hfits := h.fits i
      rw [hi] at hfits
      rcases hfits with ⟨hrest, rfl, hnone⟩ | hinside
      · obtain ⟨body, hbody, hwithin⟩ := hfirst.lock i
        obtain ⟨rfl, rfl⟩ := Tx.lock.inj (hrest.trans hbody)
        have hfree : s.holder (on i) = none := hfree.resolve_right (hnone _)
        refine h.of_running hfirst hi (by simp) (fun j hj l => ?_) (.inr ⟨Function.update_self .., fun l hl => ?_,
          hwithin, by simp, ?_⟩)
        · by_cases hl : l = on i
          · subst hl
            simp [hfree, hj.symm]
          · rw [Function.update_of_ne hl]
        · by_contra hne
          exact hnone l ((Function.update_of_ne hne ..).symm.trans hl)
        · rw [hbody]
          rfl
      · obtain ⟨hl, hwithin⟩ := hinside.within
        have hsame : Function.update s.holder l (some i) = s.holder := by
          rw [hl, ← hinside.holds, Function.update_eq_self]
        rw [hsame]
        exact h.of_running hfirst hi (by simp) (fun _ _ _ => Iff.rfl)
          (.inr ⟨hinside.holds, hinside.no_other, hwithin, hinside.belongs, hinside.alone⟩)
    · exact h
  · rename_i next own hi
    have hinside := h.inside hfirst hi (by simp)
    exact h.of_running hfirst hi (by simp) (fun _ _ _ => Iff.rfl)
      (.inr ⟨hinside.holds, hinside.no_other, hinside.within.2 _, hinside.belongs, hinside.alone⟩)
  · rename_i row next own hi
    have hinside := h.inside hfirst hi (by simp)
    have halone := hinside.alone
    simp only [Tx.alone] at halone
    split
    · rename_i hany
      rw [if_pos hany] at halone
      exact h.of_running hfirst hi (by simp) (fun j hj l => released_iff hj)
        ⟨fun l => released_ne, s.log, s.rows, List.prefix_refl _, h.serial, halone.symm⟩
    · rename_i hany
      rw [if_neg hany] at halone
      split
      · exact h
      · refine h.of_running hfirst hi (by simp) (fun _ _ _ => Iff.rfl)
          (.inr ⟨hinside.holds, hinside.no_other, hinside.within.2, fun r hr => ?_, halone⟩)
        rcases List.mem_append.mp hr with hr | hr
        · exact hinside.belongs r hr
        · rw [List.mem_singleton.mp hr]
          exact hinside.within.1
  · exact h

/-- **Transactions that lock first are serial**, in the order of their commits. -/
theorem serial_sched (hfirst : LocksFirst clash key tx on) (rows : List R) (order : List ι) :
    Serial clash key tx on rows (sched clash order (begin rows tx)) :=
  Run.invariant (fun i _ hs => hs.step hfirst i) order serial_begin

/-! ## Progress -/

/-- What is left of a transaction is nothing. -/
def Phase.Ended : Phase L R α → Prop
  | .running .. => False
  | _ => True

instance : DecidablePred (Phase.Ended : Phase L R α → Prop) := fun p =>
  match p with
  | .running .. => .isFalse id
  | .committed _ => .isTrue trivial
  | .failed => .isTrue trivial

omit [DecidableEq ι] [Fintype ι] in
/-- A transaction that has its lock waits for nobody. -/
theorem Serial.not_contested (h : Serial clash key tx on rows s) (hfirst : LocksFirst clash key tx on)
    {row : R} {next : Tx L R α} (hi : s.txs i = .running (.insert row next) own) : ¬ s.Contested clash i row := by
  rintro ⟨j, hj, hany⟩
  have hinside := h.inside hfirst hi (by simp)
  obtain ⟨r, hr, hclash⟩ := List.any_eq_true.mp hany
  have hfits := h.fits j
  cases hphase : s.txs j with
  | running rest own' =>
    rw [hphase] at hfits hr
    rcases hfits with ⟨-, rfl, -⟩ | hother
    · cases hr
    · -- The row belongs to the lock of both.
      have heq : on j = on i := (hother.belongs r hr).symm.trans ((hfirst.clash _ _ hclash).trans hinside.within.1)
      exact hj (Option.some.inj (hother.holds.symm.trans (heq ▸ hinside.holds)))
  | committed a =>
    rw [hphase] at hr
    cases hr
  | failed =>
    rw [hphase] at hr
    cases hr

/-- A statement moves no other transaction. -/
theorem step_txs_of_ne (hj : j ≠ i) : (step clash i s).txs j = s.txs j := by
  unfold step
  split
  · exact Function.update_of_ne hj ..
  · split
    · exact Function.update_of_ne hj ..
    · rfl
  · exact Function.update_of_ne hj ..
  · split
    · exact Function.update_of_ne hj ..
    · split
      · rfl
      · exact Function.update_of_ne hj ..
  · rfl

theorem sched_txs_of_ne (hj : j ≠ i) (n : Nat) : (sched clash (List.replicate n i) s).txs j = s.txs j := by
  induction n generalizing s with
  | zero => rfl
  | succ n ih => exact ih.trans (step_txs_of_ne hj)

omit [DecidableEq ι] [Fintype ι] in
theorem Serial.inside_of_holds (h : Serial clash key tx on rows s) (hi : s.txs i = .running rest own)
    (hholds : s.holder (on i) = some i) : Inside clash key tx on s i rest own := by
  have hfits := h.fits i
  rw [hi] at hfits
  exact hfits.resolve_left fun hwaiting => hwaiting.2.2 _ hholds

/-- Once a transaction has its lock, its own statements bring it to its end. -/
theorem Serial.finish (hfirst : LocksFirst clash key tx on) (h : Serial clash key tx on rows s)
    (hi : s.txs i = .running rest own) (hholds : s.holder (on i) = some i) :
    ∃ n, ((sched clash (List.replicate n i) s).txs i).Ended := by
  have hlater : ∀ {s : Db ι L R α},
      (∃ n, ((sched clash (List.replicate n i) (ReadCommitted.step clash i s)).txs i).Ended) →
      ∃ n, ((sched clash (List.replicate n i) s).txs i).Ended := fun ⟨n, hended⟩ => ⟨n + 1, hended⟩
  -- By the statements that are left.
  induction rest generalizing s own with
  | commit a => exact ⟨1, by simp [sched, List.replicate, ReadCommitted.step, hi, Phase.Ended]⟩
  | lock l next ih =>
    obtain ⟨rfl, -⟩ := (h.inside_of_holds hi hholds).within
    have hnext : (ReadCommitted.step clash i s).txs i = .running next own := by
      simp [ReadCommitted.step, hi, hholds]
    exact hlater (ih (h.step hfirst i) hnext (by simp [ReadCommitted.step, hi, hholds]))
  | read next ih =>
    have hnext : (ReadCommitted.step clash i s).txs i = .running (next (s.rows ++ own)) own := by
      simp [ReadCommitted.step, hi]
    exact hlater (ih (s.rows ++ own) (h.step hfirst i) hnext (by simp [ReadCommitted.step, hi, hholds]))
  | insert row next ih =>
    have hcontested := h.not_contested hfirst hi
    by_cases hany : (s.rows ++ own).any (clash row)
    · refine ⟨1, ?_⟩
      show Phase.Ended ((ReadCommitted.step clash i s).txs i)
      unfold ReadCommitted.step
      rw [hi]
      simp only [if_pos hany, Function.update_self]
      trivial
    · have hstep : ReadCommitted.step clash i s =
          { s with txs := Function.update s.txs i (.running next (own ++ [row])) } := by
        unfold ReadCommitted.step
        rw [hi]
        simp only [if_neg hany, if_neg hcontested]
      have hnext : (ReadCommitted.step clash i s).txs i = .running next (own ++ [row]) := by simp [hstep]
      exact hlater (ih (h.step hfirst i) hnext (by simp [hstep, hholds]))

/-- A transaction that has not begun gets its lock when nobody has it. -/
theorem Serial.start (hfirst : LocksFirst clash key tx on) (h : Serial clash key tx on rows s)
    (hi : s.txs i = .running (tx i) []) (hfree : s.holder (on i) = none) :
    ∃ n, ((sched clash (List.replicate n i) s).txs i).Ended := by
  obtain ⟨body, hbody, -⟩ := hfirst.lock i
  rw [hbody] at hi
  have hstep : ReadCommitted.step clash i s =
      { s with
        holder := Function.update s.holder (on i) (some i)
        txs := Function.update s.txs i (.running body []) } := by
    unfold ReadCommitted.step
    rw [hi]
    exact if_pos (.inl hfree)
  have hnext : (ReadCommitted.step clash i s).txs i = .running body [] := by simp [hstep]
  obtain ⟨n, hended⟩ := Serial.finish hfirst (h.step hfirst i) hnext (by simp [hstep])
  exact ⟨n + 1, hended⟩

/-- Some transaction that has not ended can be brought to its end. -/
theorem Serial.exists_finish (hfirst : LocksFirst clash key tx on) (h : Serial clash key tx on rows s)
    (hi : ¬ (s.txs i).Ended) :
    ∃ j n, ¬ (s.txs j).Ended ∧ ((sched clash (List.replicate n j) s).txs j).Ended := by
  cases hphase : s.txs i with
  | committed a => exact absurd (hphase ▸ trivial) hi
  | failed => exact absurd (hphase ▸ trivial) hi
  | running rest own =>
    have hfits := h.fits i
    rw [hphase] at hfits
    rcases hfits with ⟨rfl, rfl, -⟩ | hinside
    · cases hholder : s.holder (on i) with
      | none =>
        obtain ⟨n, hended⟩ := h.start hfirst hphase hholder
        exact ⟨i, n, hi, hended⟩
      | some j =>
        -- Whoever has the lock can go on.
        have hother := h.fits j
        cases hphase' : s.txs j with
        | committed a =>
          rw [hphase'] at hother
          exact absurd hholder (hother _)
        | failed =>
          rw [hphase'] at hother
          exact absurd hholder (hother.1 _)
        | running rest own =>
          rw [hphase'] at hother
          have hj := hother.resolve_left fun hwaiting => hwaiting.2.2 _ hholder
          obtain ⟨n, hended⟩ := h.finish hfirst hphase' hj.holds
          exact ⟨j, n, by rw [hphase']; exact id, hended⟩
    · obtain ⟨n, hended⟩ := h.finish hfirst hphase hinside.holds
      exact ⟨i, n, hi, hended⟩

/-- **Nobody waits forever**: from every state of a run, some schedule brings all transactions to their
ends. -/
theorem exists_finished (hfirst : LocksFirst clash key tx on) (h : Serial clash key tx on rows s) :
    ∃ order, ∀ i, ((sched clash order s).txs i).Ended := by
  -- One transaction is brought to its end, and fewer are left.
  induction hn : (Finset.univ.filter fun i => ¬ (s.txs i).Ended).card using Nat.strong_induction_on
    generalizing s with
  | _ n ih =>
    by_cases hall : ∀ i, (s.txs i).Ended
    · exact ⟨[], hall⟩
    obtain ⟨i, hi⟩ := not_forall.mp hall
    obtain ⟨j, m, hj, hended⟩ := h.exists_finish hfirst hi
    have hless : (Finset.univ.filter fun i => ¬ ((sched clash (List.replicate m j) s).txs i).Ended).card < n := by
      rw [← hn]
      refine Finset.card_lt_card ((Finset.ssubset_iff_of_subset fun k hk => ?_).mpr ⟨j, by simpa using hj, by
        simpa using hended⟩)
      have hkj : k ≠ j := fun heq => (Finset.mem_filter.mp hk).2 (heq ▸ hended)
      rw [Finset.mem_filter, sched_txs_of_ne hkj] at hk
      exact Finset.mem_filter.mpr hk
    have hlater : Serial clash key tx on rows (sched clash (List.replicate m j) s) :=
      Run.invariant (fun i _ hs => hs.step hfirst i) _ h
    obtain ⟨order, horder⟩ := ih _ hless hlater rfl
    exact ⟨List.replicate m j ++ order, fun i => by rw [sched, Run.run_append]; exact horder i⟩

end ReadCommitted
