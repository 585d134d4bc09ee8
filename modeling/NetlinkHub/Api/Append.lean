import NetlinkHub.Api.PostBox
import NetlinkHub.Concurrent.ReadCommitted

/-! # The transaction that appends a message

`appendSignal` as the database carries it out: the session's row is locked, the highest number is read, the
message is inserted, and the transaction commits. The machine of requests takes all of it as one statement;
here its statements interleave with those of other transactions on the session (`appendSignal_numbers`),
and `append_refines` says that the one statement is what they come to. -/

namespace Api

open ReadCommitted (Db Serial SerialAt Tx)
open Table (Op)

/-! ## The transaction -/

/-- What a message is inserted with, besides its session and its number. -/
structure Draft where
  id : String
  sender : SignalRole
  kind : String
  payload : String
  createdAt : Date
  deriving DecidableEq, Repr

/-- The row of a message with its number. -/
def Draft.row (d : Draft) (sessionId : String) (seq : Nat) : RemoteSignalRow :=
  ⟨d.id, sessionId, seq, d.sender, d.kind, d.payload, d.createdAt, none⟩

/-- `@@unique([sessionId, seq])`. -/
def RemoteSignalRow.Clashes (row r : RemoteSignalRow) : Bool := r.sessionId = row.sessionId ∧ r.seq = row.seq

/-- `appendSignal`, statement by statement: `SELECT id .. FOR UPDATE`, `findFirst` by the highest number,
`create`, and the commit. -/
def appendTx (sessionId : String) (d : Draft) : Tx String RemoteSignalRow Nat :=
  .lock sessionId (.read fun signals =>
    .insert (d.row sessionId (nextSeq sessionId signals)) (.commit (nextSeq sessionId signals)))

variable {sessionId : String} {signals : List RemoteSignalRow} {n : Nat} {drafts : Fin n → Draft}

/-- The database with a number of such transactions, after a schedule. -/
abbrev appends (sessionId : String) (signals : List RemoteSignalRow) (drafts : Fin n → Draft)
    (order : List (Fin n)) : Db (Fin n) String RemoteSignalRow Nat :=
  ReadCommitted.sched RemoteSignalRow.Clashes order
    (ReadCommitted.begin signals fun i => appendTx sessionId (drafts i))

theorem nextSeq_congr {signals' : List RemoteSignalRow}
    (h : signals.filter (·.sessionId = sessionId) = signals'.filter (·.sessionId = sessionId)) :
    nextSeq sessionId signals = nextSeq sessionId signals' := by
  unfold nextSeq
  rw [h]

theorem locksFirst_append (sessionId : String) (drafts : Fin n → Draft) :
    ReadCommitted.LocksFirst RemoteSignalRow.Clashes RemoteSignalRow.sessionId
      (fun i => appendTx sessionId (drafts i)) fun _ => sessionId where
  lock i := by
    refine ⟨_, rfl, fun rows rows' h => ?_, fun rows => ⟨rfl, trivial⟩⟩
    simp only [nextSeq_congr h]
  clash row row' h := (of_decide_eq_true h).1

/-- Alone, the transaction inserts the message with the next number. -/
theorem alone_append (sessionId : String) (d : Draft) (signals : List RemoteSignalRow) :
    (appendTx sessionId d).alone RemoteSignalRow.Clashes signals [] =
      some (nextSeq sessionId signals, [d.row sessionId (nextSeq sessionId signals)]) := by
  have hfree : ¬ signals.any (RemoteSignalRow.Clashes (d.row sessionId (nextSeq sessionId signals))) := by
    intro hany
    obtain ⟨r, hr, hclash⟩ := List.any_eq_true.mp hany
    obtain ⟨hsession, hseq⟩ := of_decide_eq_true hclash
    have hlt := seq_lt_nextSeq hr hsession
    rw [hseq] at hlt
    exact lt_irrefl _ hlt
  simp only [appendTx, Tx.alone, List.append_nil, List.nil_append]
  rw [if_neg hfree]

/-! ## Numbers -/

theorem foldr_max_range' (k b : Nat) : (List.range' 1 k).foldr max b = max k b := by
  induction k generalizing b with
  | zero => simp
  | succ k ih =>
    rw [List.range'_concat, List.foldr_append, ih, List.foldr_cons, List.foldr_nil]
    omega

/-- A session whose messages have the numbers from 1 on goes on with the next one. -/
theorem nextSeq_of_range' {k : Nat}
    (h : (signals.filter (·.sessionId = sessionId)).map (·.seq) = List.range' 1 k) :
    nextSeq sessionId signals = 1 + k := by
  unfold nextSeq
  rw [h, foldr_max_range', Nat.max_zero, Nat.add_comm]

/-- **One after the other**, the transactions get the numbers from 1 on. -/
theorem numbers_serial {log : List (Fin n × Nat)} {rows : List RemoteSignalRow}
    (hnone : ∀ r ∈ signals, r.sessionId ≠ sessionId)
    (h : SerialAt RemoteSignalRow.Clashes (fun i => appendTx sessionId (drafts i)) signals log rows) :
    log.map (·.2) = List.range' 1 log.length ∧
      (rows.filter (·.sessionId = sessionId)).map (·.seq) = List.range' 1 log.length := by
  induction h with
  | nil =>
    refine ⟨rfl, ?_⟩
    rw [List.filter_eq_nil_iff.mpr fun r hr => by simpa using hnone r hr]
    rfl
  | snoc h ha ih =>
    rw [alone_append] at ha
    obtain ⟨rfl, rfl⟩ := Prod.mk.inj (Option.some.inj ha)
    rw [nextSeq_of_range' ih.2, List.length_append, List.length_singleton, List.range'_concat, one_mul]
    refine ⟨?_, ?_⟩
    · rw [List.map_append, ih.1, List.map_singleton]
    · rw [List.filter_append, List.map_append, ih.2]
      simp [Draft.row]

/-- None fails; the commits, in their order, get the numbers from 1 on, and these are the numbers of the
session that a reader sees. Once all have committed, each number up to theirs is that of one of them. -/
structure Numbered (sessionId : String) (s : Db (Fin n) String RemoteSignalRow Nat) : Prop where
  unfailed : ∀ i, s.txs i ≠ .failed
  committed : ∀ i m, s.txs i = .committed m ↔ (i, m) ∈ s.log
  once : (s.log.map (·.1)).Nodup
  inOrder : s.log.map (·.2) = List.range' 1 s.log.length
  visible : (s.rows.filter (·.sessionId = sessionId)).map (·.seq) = List.range' 1 s.log.length
  exactly : (∀ i, ∃ m, s.txs i = .committed m) → (∀ i m, s.txs i = .committed m → 1 ≤ m ∧ m ≤ n) ∧
    ∀ m, 1 ≤ m → m ≤ n → ∃! i, s.txs i = .committed m

/-- Alone, no transaction fails, so none does. -/
theorem unfailed_append {s : Db (Fin n) String RemoteSignalRow Nat}
    (h : Serial RemoteSignalRow.Clashes RemoteSignalRow.sessionId (fun i => appendTx sessionId (drafts i))
      (fun _ => sessionId) signals s) (i : Fin n) : s.txs i ≠ .failed := by
  intro hfailed
  have hfits := h.fits i
  rw [hfailed] at hfits
  obtain ⟨-, log, rows, -, -, halone⟩ := hfits
  rw [alone_append] at halone
  cases halone

theorem numbered_of_serial {s : Db (Fin n) String RemoteSignalRow Nat}
    (hnone : ∀ r ∈ signals, r.sessionId ≠ sessionId)
    (h : Serial RemoteSignalRow.Clashes RemoteSignalRow.sessionId (fun i => appendTx sessionId (drafts i))
      (fun _ => sessionId) signals s) : Numbered sessionId s where
  unfailed := unfailed_append h
  committed i m := (h.answered i m).symm
  once := h.once
  inOrder := (numbers_serial hnone h.serial).1
  visible := (numbers_serial hnone h.serial).2
  exactly hall := by
    have hnumbers := (numbers_serial hnone h.serial).1
    have hlength : s.log.length = n := by
      have hevery : (s.log.map (·.1)).toFinset = Finset.univ := by
        refine Finset.eq_univ_iff_forall.mpr fun i => ?_
        obtain ⟨m, hm⟩ := hall i
        exact List.mem_toFinset.mpr (List.mem_map.mpr ⟨_, (h.answered i m).mpr hm, rfl⟩)
      have hcard := List.toFinset_card_of_nodup h.once
      rw [hevery, Finset.card_univ, Fintype.card_fin, List.length_map] at hcard
      exact hcard.symm
    rw [hlength] at hnumbers
    refine ⟨fun i m hm => ?_, fun m hlow hhigh => ?_⟩
    · have hmem : m ∈ List.range' 1 n := hnumbers ▸ List.mem_map.mpr ⟨_, (h.answered i m).mpr hm, rfl⟩
      rw [List.mem_range'_1] at hmem
      omega
    · have hmem : m ∈ s.log.map (·.2) := hnumbers ▸ List.mem_range'_1.mpr ⟨hlow, by omega⟩
      obtain ⟨⟨i, m⟩, hi, rfl⟩ := List.mem_map.mp hmem
      refine ⟨i, (h.answered i m).mp hi, fun j hj => ?_⟩
      -- Two commits with one number are one commit.
      have hnodup : (s.log.map (·.2)).Nodup := hnumbers ▸ List.nodup_range'
      exact congrArg Prod.fst (List.inj_on_of_nodup_map hnodup ((h.answered j m).mpr hj) hi rfl)

/-- **Messages are numbered without gaps, duplicates or failures**, however the transactions interleave; and
however far they have come, they can all commit. -/
theorem appendSignal_numbers (drafts : Fin n → Draft) (hnone : ∀ r ∈ signals, r.sessionId ≠ sessionId)
    (order : List (Fin n)) : Numbered sessionId (appends sessionId signals drafts order) ∧
      ∃ more, ∀ i, ∃ m, (appends sessionId signals drafts (order ++ more)).txs i = .committed m := by
  have hfirst := locksFirst_append sessionId drafts
  have hserial := ReadCommitted.serial_sched hfirst signals
  refine ⟨numbered_of_serial hnone (hserial order), ?_⟩
  obtain ⟨more, hended⟩ := ReadCommitted.exists_finished hfirst (hserial order)
  refine ⟨more, fun i => ?_⟩
  rw [appends, ReadCommitted.sched, Run.run_append]
  have hlater := hserial (order ++ more)
  rw [ReadCommitted.sched, Run.run_append] at hlater
  have hi := hended i
  cases hphase : (ReadCommitted.sched RemoteSignalRow.Clashes more (appends sessionId signals drafts order)).txs i with
  | running rest own =>
    rw [hphase] at hi
    exact hi.elim
  | committed m => exact ⟨m, rfl⟩
  | failed => exact absurd hphase (unfailed_append hlater i)

/-- The message of each transaction. -/
def twoDrafts : Fin 2 → Draft
  | 0 => ⟨"s0", .viewer, "candidate", "a", 0⟩
  | 1 => ⟨"s1", .host, "candidate", "b", 0⟩

/-- Both begin, and the one that has the lock goes first. -/
theorem appendSignal_numbers_two : Numbered "session" (appends "session" [] twoDrafts [1, 0, 1, 0, 1, 1, 0, 0, 0, 0]) ∧
    (appends "session" [] twoDrafts [1, 0, 1, 0, 1, 1, 0, 0, 0, 0]).log = [(1, 1), (0, 2)] :=
  ⟨(appendSignal_numbers twoDrafts (by simp) _).1, by decide⟩

/-! ## One statement -/

/-- The statement that the machine of requests takes for the transaction. -/
def Draft.append (d : Draft) (sessionId : String) : Write :=
  .appendSignal d.id sessionId d.sender d.kind d.payload d.createdAt

/-- **The transactions are the one statement**, in the order of their commits, where identifiers are new. -/
theorem append_refines {w : World} {order : List (Fin n)} (hids : Function.Injective fun i => (drafts i).id)
    (hnew : ∀ r ∈ w.remoteSignals, ∀ i, r.id ≠ (drafts i).id) :
    (appends sessionId w.remoteSignals drafts order).rows =
      (Run.run exec ((appends sessionId w.remoteSignals drafts order).log.map fun c =>
        (drafts c.1).append sessionId) w).remoteSignals := by
  have hserial := ReadCommitted.serial_sched (locksFirst_append sessionId drafts) w.remoteSignals order
  have hgo : ∀ {log : List (Fin n × Nat)} {rows : List RemoteSignalRow},
      SerialAt RemoteSignalRow.Clashes (fun i => appendTx sessionId (drafts i)) w.remoteSignals log rows →
      (log.map (·.1)).Nodup →
      (Run.run exec (log.map fun c => (drafts c.1).append sessionId) w).remoteSignals = rows ∧
        ∀ r ∈ rows, r ∈ w.remoteSignals ∨ ∃ c ∈ log, r.id = (drafts c.1).id := by
    intro log rows h
    induction h with
    | nil => exact fun _ => ⟨rfl, fun r hr => .inl hr⟩
    | @snoc log rows own i a h ha ih =>
      intro honce
      rw [List.map_append, List.nodup_append] at honce
      obtain ⟨hrun, horigin⟩ := ih honce.1
      rw [alone_append] at ha
      obtain ⟨rfl, rfl⟩ := Prod.mk.inj (Option.some.inj ha)
      have hfree : ¬ rows.any (·.id = (drafts i).id) := by
        intro hany
        obtain ⟨r, hr, hid⟩ := List.any_eq_true.mp hany
        replace hid := of_decide_eq_true hid
        rcases horigin r hr with hold | ⟨c, hc, hcid⟩
        · exact hnew r hold i hid
        · exact honce.2.2 _ (List.mem_map.mpr ⟨c, hc, rfl⟩) i (by simp) (hids (hcid.symm.trans hid))
      refine ⟨?_, fun r hr => ?_⟩
      · rw [List.map_append, Run.run_append]
        show (Op.insert (·.id = (drafts i).id) ((drafts i).row sessionId (nextSeq sessionId _))).apply _ = _
        rw [hrun, Table.apply_insert, if_neg hfree]
      · rcases List.mem_append.mp hr with hr | hr
        · refine (horigin r hr).imp_right fun ⟨c, hc, hid⟩ => ⟨c, List.mem_append_left _ hc, hid⟩
        · exact .inr ⟨(i, _), List.mem_append_right _ List.mem_cons_self, by rw [List.mem_singleton.mp hr]; rfl⟩
  exact (hgo hserial.serial hserial.once).1.symm

end Api
