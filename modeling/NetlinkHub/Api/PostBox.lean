import NetlinkHub.Api.SessionLife

/-! # The post box of a session

`appendSignal` gives each message the next number of its session, and `collectSignals` reads what is
waiting and marks it in a later statement. Each answer is in order, and when a last poll comes back
empty every message has been answered. A message is answered once exactly while each marking finds
its messages unmarked (`post_box`): two polls of one party that read before either marks are both
answered with it (`answered_twice`). -/

namespace Api

open Concurrent (Prog Log Outline Move Config)

/-- A message as it was posted. -/
def RemoteSignalRow.posted (r : RemoteSignalRow) : RemoteSignalRow := { r with deliveredAt := none }

/-- The statement marks the message as delivered. -/
def Write.Marks (id : String) : Write → Prop
  | .markDelivered ids _ => id ∈ ids
  | _ => False

instance (id : String) : DecidablePred (Write.Marks id) := fun w => by
  apply Write.casesOn (motive := fun w => Decidable (w.Marks id)) w
  all_goals intros; dsimp only [Write.Marks]; infer_instance

/-- The statement empties the post box. -/
def Write.Empties (sessionId : String) : Write → Prop
  | .deleteSignals id => id = sessionId
  | _ => False

instance (sessionId : String) : DecidablePred (Write.Empties sessionId) := fun w => by
  apply Write.casesOn (motive := fun w => Decidable (w.Empties sessionId)) w
  all_goals intros; dsimp only [Write.Empties]; infer_instance

/-- The identifier that the statement gives to a message. -/
def Write.appendedId : Write → Option String
  | .appendSignal id .. => some id
  | _ => none

/-- The statement posts the message. -/
def Appends (step : RemoteStep) (m : RemoteSignalRow) : Prop :=
  match step.write with
  | .appendSignal id sessionId sender kind payload now =>
    (∀ r ∈ step.before.remoteSignals, r.id ≠ id) ∧
      m = ⟨id, sessionId, nextSeq sessionId step.before.remoteSignals, sender, kind, payload, now, none⟩
  | _ => False

/-- How often a message was marked. -/
def marks (id : String) (steps : List RemoteStep) : Nat := steps.countP (·.write.Marks id)

/-- The random source gives each message a new identifier. -/
def FreshIds (w₀ : World) (history : List RemoteStep) : Prop :=
  (history.filterMap (·.write.appendedId) ++ w₀.remoteSignals.map (·.id)).Nodup

/-- The session is live: nothing empties its post box. -/
def StaysOpen (sessionId : String) (history : List RemoteStep) : Prop :=
  ∀ step ∈ history, ¬ step.write.Empties sessionId

/-- Each marking finds the messages of the sender that it marks unmarked: no other poll of the party has
marked them since they were read. -/
def MarksUnmarked (sessionId : String) (sender : SignalRole) (history : List RemoteStep) : Prop :=
  ∀ step ∈ history, ∀ r ∈ step.before.remoteSignals, r.sessionId = sessionId → r.sender = sender →
    step.write.Marks r.id → r.deliveredAt = none

/-- The message was posted in the history, or was there at the start. -/
def Origin (w₀ : World) (history : List RemoteStep) (r : RemoteSignalRow) : Prop :=
  (∃ step ∈ history, Appends step r.posted) ∨ ∃ r₀ ∈ w₀.remoteSignals, r₀.posted = r.posted

/-- What a statement makes of a message. -/
structure SignalStep (w : Write) (r r' : RemoteSignalRow) : Prop where
  posted : r'.posted = r.posted
  delivered : r'.deliveredAt ≠ none ↔ r.deliveredAt ≠ none ∨ w.Marks r.id

variable {signer : Signer} {hashSecret : String → String} {ice : Ice} {σ τ : RemoteLog} {i : Nat}
  {q : RemoteRequest} {w : Write} {w₀ s : World} {history : List RemoteStep}
  {sessionId : String} {sender role : SignalRole} {r r' m : RemoteSignalRow}

theorem marks_cons (id : String) (step : RemoteStep) (steps : List RemoteStep) :
    marks id (step :: steps) = marks id steps + if step.write.Marks id then 1 else 0 := by
  simp [marks, List.countP_cons]

theorem marks_pos {id : String} {steps : List RemoteStep} :
    0 < marks id steps ↔ ∃ step ∈ steps, step.write.Marks id := by
  simp [marks, List.countP_pos_iff]

theorem id_of_posted (h : r'.posted = r.posted) : r'.id = r.id := by
  show r'.posted.id = r.posted.id
  rw [h]

theorem seq_of_posted (h : r'.posted = r.posted) : r'.seq = r.seq := by
  show r'.posted.seq = r.posted.seq
  rw [h]

theorem sessionId_of_posted (h : r'.posted = r.posted) : r'.sessionId = r.sessionId := by
  show r'.posted.sessionId = r.posted.sessionId
  rw [h]

theorem sender_of_posted (h : r'.posted = r.posted) : r'.sender = r.sender := by
  show r'.posted.sender = r.posted.sender
  rw [h]

/-- What is answered does not depend on the delivery. -/
theorem answer_of_posted (h : r'.posted = r.posted) : r'.answer = r.answer := by
  show r'.posted.answer = r.posted.answer
  rw [h]

/-! ## The table of messages -/

theorem signalStep_mark (ids : List String) (now : Date) (r : RemoteSignalRow) :
    SignalStep (.markDelivered ids now) r
      (if r.id ∈ ids then { r with deliveredAt := some now } else r) := by
  split
  · rename_i hid
    exact ⟨rfl, fun _ => .inr hid, fun _ => Option.some_ne_none _⟩
  · rename_i hid
    exact ⟨rfl, .inl, fun h => h.resolve_right hid⟩

theorem signalStep_same (r : RemoteSignalRow) (h : ¬ w.Marks r.id := by exact fun h => h) :
    SignalStep w r r :=
  ⟨rfl, .inl, fun hr => hr.resolve_right h⟩

/-- **Each message in the table** stays, unless its post box is emptied. -/
theorem signalStep_exec (hr : r ∈ s.remoteSignals) (hopen : ¬ w.Empties r.sessionId) :
    ∃ r' ∈ (exec w s).remoteSignals, SignalStep w r r' := by
  cases w with
  | deleteSignals id =>
    refine ⟨r, List.mem_filter.mpr ⟨hr, ?_⟩, signalStep_same r⟩
    simpa using fun h => hopen h.symm
  | markDelivered ids now =>
    exact ⟨_, Table.mem_update.mpr ⟨r, hr, rfl⟩, by simpa using signalStep_mark ids now r⟩
  | appendSignal id sessionId sender kind payload now =>
    refine ⟨r, ?_, signalStep_same r⟩
    show r ∈ (Table.Op.insert _ _).apply s.remoteSignals
    rw [Table.apply_insert]
    split
    · exact hr
    · exact List.mem_append_left _ hr
  | _ => exact ⟨r, hr, signalStep_same r⟩

/-- **Each message in the table afterwards** was there before, or is posted by the statement. -/
theorem signalStep_of_exec (hr' : r' ∈ (exec w s).remoteSignals) :
    (∃ r ∈ s.remoteSignals, SignalStep w r r') ∨ Appends ⟨i, q, w, s⟩ r' := by
  cases w with
  | deleteSignals id =>
    exact .inl ⟨r', (List.mem_filter.mp hr').1, signalStep_same r'⟩
  | markDelivered ids now =>
    obtain ⟨r, hr, rfl⟩ := Table.mem_update.mp hr'
    exact .inl ⟨r, hr, by simpa using signalStep_mark ids now r⟩
  | appendSignal id sessionId sender kind payload now =>
    have hmem : r' ∈ (Table.Op.insert (fun r : RemoteSignalRow => decide (r.id = id))
      ⟨id, sessionId, nextSeq sessionId s.remoteSignals, sender, kind, payload, now, none⟩).apply
        s.remoteSignals := hr'
    rw [Table.apply_insert] at hmem
    split at hmem
    · exact .inl ⟨r', hmem, signalStep_same r'⟩
    · rename_i hnone
      rcases List.mem_append.mp hmem with hr | hr
      · exact .inl ⟨r', hr, signalStep_same r'⟩
      · exact .inr ⟨by simpa using hnone, List.mem_singleton.mp hr⟩
  | _ => exact .inl ⟨r', hr', signalStep_same r'⟩

/-- A message that is posted is in the table. -/
theorem mem_of_appends (h : Appends ⟨i, q, w, s⟩ m) : m ∈ (exec w s).remoteSignals := by
  unfold Appends at h
  split at h
  · rename_i id sessionId sender kind payload now hw
    obtain rfl : w = .appendSignal id sessionId sender kind payload now := hw
    obtain ⟨hfree, rfl⟩ := h
    show _ ∈ (Table.Op.insert _ _).apply s.remoteSignals
    rw [Table.apply_insert, if_neg (by simpa using hfree)]
    exact List.mem_append_right _ (List.mem_singleton_self _)
  · cases h

theorem Appends.posted {step : RemoteStep} (h : Appends step m) : m.posted = m := by
  unfold Appends at h
  split at h
  · obtain ⟨-, rfl⟩ := h
    rfl
  · cases h

theorem Appends.appendedId {step : RemoteStep} (h : Appends step m) :
    step.write.appendedId = some m.id := by
  unfold Appends at h
  split at h
  · rename_i hw
    obtain ⟨-, rfl⟩ := h
    rw [hw]
    rfl
  · cases h

theorem Appends.unique {step : RemoteStep} {m' : RemoteSignalRow} (h : Appends step m)
    (h' : Appends step m') : m' = m := by
  unfold Appends at h
  split at h
  · rename_i hw
    rw [Appends, hw] at h'
    exact h'.2.trans h.2.symm
  · cases h

theorem signalIds_exec (w : Write) (hids : (s.remoteSignals.map (·.id)).Nodup) :
    ((exec w s).remoteSignals.map (·.id)).Nodup := by
  cases w with
  | deleteSignals id => exact hids.sublist (List.Sublist.map _ List.filter_sublist)
  | markDelivered ids now =>
    show ((Table.Op.update (·.id ∈ ids) fun r : RemoteSignalRow =>
      { r with deliveredAt := some now }).apply s.remoteSignals |>.map (·.id)).Nodup
    rwa [Table.map_update fun r => (rfl : ({ r with deliveredAt := some now }).id = r.id)]
  | appendSignal id sessionId sender kind payload now =>
    exact Table.nodup_insert (fun r hr => by simpa using hr) hids
  | _ => exact hids

/-- The next number is above all numbers of the session. -/
theorem seq_lt_nextSeq {signals : List RemoteSignalRow} (hr : r ∈ signals)
    (hsession : r.sessionId = sessionId) : r.seq < nextSeq sessionId signals := by
  have hle : ∀ (ns : List Nat) (n : Nat), n ∈ ns → n ≤ ns.foldr max 0 := by
    intro ns n hn
    induction ns with
    | nil => cases hn
    | cons m ns ih =>
      rcases List.mem_cons.mp hn with rfl | hn
      · exact le_max_left _ _
      · exact (ih hn).trans (le_max_right _ _)
  refine Nat.lt_succ_of_le (hle _ _ (List.mem_map.mpr ⟨r, List.mem_filter.mpr ⟨hr, ?_⟩, rfl⟩))
  simpa using hsession

/-! ## Origins -/

theorem Origin.cons {step : RemoteStep} (h : Origin w₀ history r) : Origin w₀ (step :: history) r :=
  h.imp_left fun ⟨s, hs, happends⟩ => ⟨s, List.mem_cons_of_mem _ hs, happends⟩

theorem Origin.of_posted (h : Origin w₀ history r) (hposted : r'.posted = r.posted) :
    Origin w₀ history r' := by
  rw [Origin, hposted]
  exact h

/-- Where identifiers are fresh, no statement gives one that a message has. -/
theorem FreshIds.not_origin {step : RemoteStep} (h : FreshIds w₀ (step :: history))
    (happends : Appends step m) (horigin : Origin w₀ history r) : r.id ≠ m.id := by
  rw [FreshIds, List.filterMap_cons_some (f := fun s : RemoteStep => s.write.appendedId)
    happends.appendedId, List.cons_append, List.nodup_cons] at h
  intro hid
  refine h.1 (List.mem_append.mpr ?_)
  rcases horigin with ⟨s, hs, hposts⟩ | ⟨r₀, hr₀, hposted⟩
  · refine .inl (List.mem_filterMap.mpr ⟨s, hs, ?_⟩)
    rw [hposts.appendedId, ← hid]
    rfl
  · exact .inr (List.mem_map.mpr ⟨r₀, hr₀, (id_of_posted hposted).trans hid⟩)

theorem FreshIds.of_cons {step : RemoteStep} (h : FreshIds w₀ (step :: history)) :
    FreshIds w₀ history := by
  rw [FreshIds, List.filterMap_cons] at h
  split at h
  · exact h
  · exact (List.nodup_cons.mp h).2

theorem FreshIds.of_suffix {history' : List RemoteStep} (h : FreshIds w₀ history')
    (hsuffix : history <:+ history') : FreshIds w₀ history := by
  obtain ⟨later, rfl⟩ := hsuffix
  induction later with
  | nil => exact h
  | cons step later ih => exact ih h.of_cons

/-- One message has each identifier. -/
theorem Origin.unique (hfresh : FreshIds w₀ history) (h : Origin w₀ history r)
    (h' : Origin w₀ history r') (hid : r'.id = r.id) : r'.posted = r.posted := by
  induction history with
  | nil =>
    obtain ⟨r₀, hr₀, hposted⟩ := h.resolve_left (by simp)
    obtain ⟨r₁, hr₁, hposted'⟩ := h'.resolve_left (by simp)
    have hids : (w₀.remoteSignals.map (·.id)).Nodup := by simpa [FreshIds] using hfresh
    obtain rfl : r₁ = r₀ := Table.eq_of_key hids hr₁ hr₀
      ((id_of_posted hposted').trans (hid.trans (id_of_posted hposted).symm))
    exact hposted'.symm.trans hposted
  | cons step history ih =>
    -- A message is posted by the last statement, or before it.
    have hcases : ∀ {r : RemoteSignalRow}, Origin w₀ (step :: history) r →
        Appends step r.posted ∨ Origin w₀ history r := by
      rintro r (⟨s, hs, happends⟩ | h₀)
      · rcases List.mem_cons.mp hs with rfl | hs
        · exact .inl happends
        · exact .inr (.inl ⟨s, hs, happends⟩)
      · exact .inr (.inr h₀)
    rcases hcases h with happends | hold <;> rcases hcases h' with happends' | hold'
    · exact happends.unique happends'
    · exact (hfresh.not_origin happends hold' hid).elim
    · exact (hfresh.not_origin happends' hold hid.symm).elim
    · exact ih hfresh.of_cons hold hold'

/-! ## The invariant -/

/-- What the post box of a session has come to. -/
structure Box (w₀ : World) (sessionId : String) (sender : SignalRole) (σ : RemoteLog) : Prop where
  ids : (σ.shared.remoteSignals.map (·.id)).Nodup
  origin : ∀ r ∈ σ.shared.remoteSignals, Origin w₀ σ.history r
  seqs : ∀ r ∈ σ.shared.remoteSignals, ∀ r' ∈ σ.shared.remoteSignals, r.sessionId = sessionId →
    r'.sessionId = sessionId → r.seq = r'.seq → r = r'
  /-- What is posted stays while the session is live. -/
  stays : StaysOpen sessionId σ.history → ∀ step ∈ σ.history, ∀ m, Appends step m →
    m.sessionId = sessionId → ∃ r ∈ σ.shared.remoteSignals, r.posted = m
  known : ∀ id, 0 < marks id σ.history → ∃ r, Origin w₀ σ.history r ∧ r.id = id
  delivered : FreshIds w₀ σ.history → ∀ r ∈ σ.shared.remoteSignals, r.sessionId = sessionId →
    (r.deliveredAt ≠ none ↔ 0 < marks r.id σ.history)
  once : FreshIds w₀ σ.history → MarksUnmarked sessionId sender σ.history →
    ∀ r ∈ σ.shared.remoteSignals, r.sessionId = sessionId → r.sender = sender →
      marks r.id σ.history ≤ 1

/-- A new message has never been marked. -/
theorem Box.marks_new {step : RemoteStep} (h : Box w₀ sessionId sender σ)
    (hfresh : FreshIds w₀ (step :: σ.history)) (happends : Appends step m) :
    marks m.id σ.history = 0 := by
  by_contra hpos
  obtain ⟨r, horigin, hid⟩ := h.known m.id (Nat.pos_of_ne_zero hpos)
  exact hfresh.not_origin happends horigin hid

/-- A statement that posts does not mark. -/
theorem Appends.not_marks {step : RemoteStep} (h : Appends step m) (id : String) :
    ¬ step.write.Marks id := by
  unfold Appends at h
  split at h
  · rename_i hw
    rw [hw]
    exact fun h => h
  · cases h

theorem Appends.seq {step : RemoteStep} (h : Appends step m) :
    m.seq = nextSeq m.sessionId step.before.remoteSignals := by
  unfold Appends at h
  split at h
  · obtain ⟨-, rfl⟩ := h
    rfl
  · cases h

theorem Appends.undelivered {step : RemoteStep} (h : Appends step m) : m.deliveredAt = none := by
  rw [← h.posted]
  rfl

/-- **What each statement keeps**, once it marks only what was posted. -/
theorem Box.perform (h : Box w₀ sessionId sender σ)
    (hmarks : ∀ id, w.Marks id → ∃ r, Origin w₀ σ.history r ∧ r.id = id) :
    Box w₀ sessionId sender (σ.perform exec i q w) := by
  set step : RemoteStep := ⟨i, q, w, σ.shared⟩ with hstep
  have hcases : ∀ r' ∈ (exec w σ.shared).remoteSignals,
      (∃ r ∈ σ.shared.remoteSignals, SignalStep w r r') ∨ Appends step r' :=
    fun r' hr' => signalStep_of_exec hr'
  refine ⟨signalIds_exec w h.ids, fun r' hr' => ?_, fun r' hr' t' ht' hsr hst hseq => ?_,
    fun hopen s hs m happends hm => ?_, fun id hpos => ?_, fun hfresh r' hr' hsession => ?_,
    fun hfresh hcond r' hr' hsession hsender => ?_⟩
  · rcases hcases r' hr' with ⟨r, hr, hsame⟩ | happends
    · exact ((h.origin r hr).of_posted hsame.posted).cons
    · exact .inl ⟨step, List.mem_cons_self, by rwa [happends.posted]⟩
  · -- A new number is above all others.
    have hnew : ∀ {r r' t' : RemoteSignalRow}, Appends step t' → r ∈ σ.shared.remoteSignals →
        SignalStep w r r' → r'.sessionId = t'.sessionId → r'.seq ≠ t'.seq := by
      intro r r' t' happends hr hsame hsession hseq
      have hlt := seq_lt_nextSeq hr ((sessionId_of_posted hsame.posted).symm.trans hsession)
      rw [← seq_of_posted hsame.posted, hseq, happends.seq] at hlt
      exact lt_irrefl _ hlt
    rcases hcases r' hr' with ⟨r, hr, hsame⟩ | happends <;>
      rcases hcases t' ht' with ⟨t, ht, hsame'⟩ | happends'
    · have heq : r = t := h.seqs r hr t ht ((sessionId_of_posted hsame.posted).symm.trans hsr)
        ((sessionId_of_posted hsame'.posted).symm.trans hst)
        ((seq_of_posted hsame.posted).symm.trans (hseq.trans (seq_of_posted hsame'.posted)))
      refine Table.eq_of_key (signalIds_exec w h.ids) hr' ht' ?_
      rw [id_of_posted hsame.posted, id_of_posted hsame'.posted, heq]
    · exact absurd hseq (hnew happends' hr hsame (hsr.trans hst.symm))
    · exact absurd hseq.symm (hnew happends ht hsame' (hst.trans hsr.symm))
    · exact happends'.unique happends
  · rcases List.mem_cons.mp hs with rfl | hs
    · exact ⟨m, mem_of_appends happends, happends.posted⟩
    · have hold : StaysOpen sessionId σ.history := fun s hs => hopen s (List.mem_cons_of_mem _ hs)
      obtain ⟨r, hr, hposted⟩ := h.stays hold s hs m happends hm
      have hsession : r.sessionId = sessionId := by
        rw [← hm, ← hposted]
        rfl
      obtain ⟨r', hr', hsame⟩ := signalStep_exec (w := w) hr (hsession ▸ hopen step List.mem_cons_self)
      exact ⟨r', hr', hsame.posted.trans hposted⟩
  · have hcount : 0 < marks id (step :: σ.history) := hpos
    rw [marks_cons] at hcount
    by_cases hmark : w.Marks id
    · obtain ⟨r, horigin, hid⟩ := hmarks id hmark
      exact ⟨r, horigin.cons, hid⟩
    · rw [if_neg (by exact hmark)] at hcount
      obtain ⟨r, horigin, hid⟩ := h.known id hcount
      exact ⟨r, horigin.cons, hid⟩
  · show r'.deliveredAt ≠ none ↔ 0 < marks r'.id (step :: σ.history)
    rw [marks_cons]
    rcases hcases r' hr' with ⟨r, hr, hsame⟩ | happends
    · have hold := h.delivered hfresh.of_cons r hr ((sessionId_of_posted hsame.posted).symm.trans hsession)
      rw [hsame.delivered, hold, id_of_posted hsame.posted]
      show _ ∨ w.Marks r.id ↔ 0 < _ + if w.Marks r.id then 1 else 0
      split <;> simp [*]
    · rw [h.marks_new hfresh happends, if_neg (happends.not_marks _), happends.undelivered]
      simp
  · show marks r'.id (step :: σ.history) ≤ 1
    have hold : MarksUnmarked sessionId sender σ.history :=
      fun s hs => hcond s (List.mem_cons_of_mem _ hs)
    rw [marks_cons]
    rcases hcases r' hr' with ⟨r, hr, hsame⟩ | happends
    · have hsr : r.sessionId = sessionId := (sessionId_of_posted hsame.posted).symm.trans hsession
      have hss : r.sender = sender := (sender_of_posted hsame.posted).symm.trans hsender
      rw [id_of_posted hsame.posted]
      by_cases hmark : w.Marks r.id
      · -- What is marked was not delivered, so it had not been marked.
        have hnone : r.deliveredAt = none := hcond step List.mem_cons_self r hr hsr hss hmark
        have hzero : ¬ 0 < marks r.id σ.history :=
          fun hpos => (h.delivered hfresh.of_cons r hr hsr).mpr hpos hnone
        split <;> omega
      · rw [if_neg (by exact hmark)]
        exact h.once hfresh.of_cons hold r hr hsr hss
    · rw [h.marks_new hfresh happends]
      split <;> omega

/-- Nothing from outside touches the post box. -/
theorem Box.change (h : Box w₀ sessionId sender σ) (e : Outside) :
    Box w₀ sessionId sender (σ.change (outside e)) := by
  have hrows : (σ.change (outside e)).shared.remoteSignals = σ.shared.remoteSignals :=
    remoteSignals_outside e σ.shared
  refine ⟨?_, ?_, ?_, ?_, h.known, ?_, ?_⟩ <;> rw [hrows]
  · exact h.ids
  · exact h.origin
  · exact h.seqs
  · exact h.stays
  · exact h.delivered
  · exact h.once

/-- The outline of the post box: at every moment of the history it is as it should be. -/
def boxOutline (signer : Signer) (hashSecret : String → String) (ice : Ice) (w₀ : World)
    (sessionId : String) (sender : SignalRole) : Outline (remoteMachine signer hashSecret ice) where
  inv := Log.Always (Box w₀ sessionId sender)
  rely σ τ := σ.history <:+ τ.history
  refl _ := List.suffix_rfl
  trans h h' := h.trans h'
  env e _ h := ⟨⟨h.1.change e, h.2⟩, List.suffix_rfl⟩

/-! ## Polls -/

/-- What a call has collected, over its own statements. -/
structure Collected (w₀ : World) (sessionId : String) (q : RemoteRequest) (i : Nat)
    (rows : List RemoteSignalRow) (σ : RemoteLog) : Prop where
  looked : ∀ role, q.Polls role sessionId → ∃ step ∈ σ.own i, step.write.Reads .remoteSignals ∧
    rows = waiting sessionId role.other step.before
  posted : ∀ r ∈ rows, Origin w₀ σ.history r ∧ ∃ role, q.Polls role r.sessionId ∧ r.sender = role.other
  sorted : ∀ role, q.Polls role sessionId → rows.Pairwise (·.seq < ·.seq)
  marked : ∀ id, marks id (σ.own i) = if id ∈ rows.map (·.id) then 1 else 0

/-- What a call owes: an answer to a poll is what the poll has collected and marked. -/
def PollPost (w₀ : World) (sessionId : String) (i : Nat) (q : RemoteRequest)
    (r : Except HttpException RemoteResponse) (σ : RemoteLog) : Prop :=
  match r with
  | .ok a => ∃ rows, Collected w₀ sessionId q i rows σ ∧
    ∀ role id, q.Polls role id → a = .signals (rows.map (·.answer))
  | .error _ => ∀ id, marks id (σ.own i) = 0

theorem mem_waiting {id : String} :
    r ∈ waiting id sender s → r ∈ s.remoteSignals ∧ r.sessionId = id ∧ r.sender = sender := by
  intro hr
  have hmem := (List.mem_insertionSort _).mp (List.mem_of_mem_take hr)
  obtain ⟨htable, hsel⟩ := List.mem_filter.mp hmem
  obtain ⟨hid, hsender, -⟩ := of_decide_eq_true hsel
  exact ⟨htable, hid, hsender⟩

/-- What is waiting is answered in the order of the numbers. -/
theorem waiting_sorted (h : Box w₀ sessionId role σ) :
    (waiting sessionId sender σ.shared).Pairwise (·.seq < ·.seq) := by
  have : Std.Total fun s t : RemoteSignalRow => s.seq ≤ t.seq := ⟨fun s t => le_total _ _⟩
  have : IsTrans RemoteSignalRow fun s t => s.seq ≤ t.seq := ⟨fun _ _ _ => le_trans⟩
  have hle : (waiting sessionId sender σ.shared).Pairwise (·.seq ≤ ·.seq) :=
    (List.pairwise_insertionSort _ _).sublist (List.take_sublist _ _)
  have hnodup : (waiting sessionId sender σ.shared).Nodup := by
    have htable : σ.shared.remoteSignals.Nodup := h.ids.of_map _
    exact (((List.perm_insertionSort _ _).nodup_iff).mpr (htable.filter _)).sublist
      (List.take_sublist _ _)
  refine (hle.and hnodup).imp_of_mem fun {r r'} hr hr' ⟨hrr', hne⟩ => lt_of_le_of_ne hrr' fun hseq => ?_
  obtain ⟨hmem, hid, -⟩ := mem_waiting hr
  obtain ⟨hmem', hid', -⟩ := mem_waiting hr'
  exact hne (h.seqs r hmem r' hmem' hid hid' hseq)

/-- When nothing is waiting, everything has been delivered. -/
theorem delivered_of_waiting_nil (h : waiting sessionId sender s = []) (hr : r ∈ s.remoteSignals)
    (hsession : r.sessionId = sessionId) (hsender : r.sender = sender) : r.deliveredAt ≠ none := by
  intro hnone
  rw [waiting, List.take_eq_nil_iff] at h
  have hnil := h.resolve_left (by decide)
  have hmem : r ∈ List.insertionSort (fun s t : RemoteSignalRow => s.seq ≤ t.seq)
      (s.remoteSignals.filter fun s =>
        s.sessionId = sessionId ∧ s.sender = sender ∧ s.deliveredAt = none) :=
    (List.mem_insertionSort _).mpr (List.mem_filter.mpr ⟨hr, by simp [hsession, hsender, hnone]⟩)
  rw [hnil] at hmem
  cases hmem

/-- A statement that marks nothing is safe. -/
theorem Box.unmarking (h : σ.Always (Box w₀ sessionId sender)) (hw : ∀ id, ¬ w.Marks id) :
    σ.history <:+ (σ.perform exec i q w).history ∧
      (σ.perform exec i q w).Always (Box w₀ sessionId sender) :=
  ⟨List.suffix_cons _ _, h.perform (h.1.perform fun id hmark => absurd hmark (hw id))⟩

theorem Origin.of_suffix {history' : List RemoteStep} (h : Origin w₀ history r)
    (hsuffix : history <:+ history') : Origin w₀ history' r :=
  h.imp_left fun ⟨s, hs, happends⟩ => ⟨s, hsuffix.subset hs, happends⟩

theorem Write.Quiet.unmarking (h : w.Quiet) (id : String) : ¬ w.Marks id := by
  cases w <;> first | exact fun h => h | cases h

variable {α : Type}

/-- A call that marks nothing has marked nothing. -/
theorem keeps_unmarked {p : Service α} (h : p.Only fun w => ∀ id, ¬ w.Marks id) :
    (boxOutline signer hashSecret ice w₀ sessionId sender).Keeps i q (fun own => ∀ id, marks id own = 0)
      p := by
  refine Outline.keeps_of_only h fun w σ hw hσ hown => ?_
  obtain ⟨hsuffix, hkept⟩ := Box.unmarking (i := i) (q := q) hσ hw
  refine ⟨hsuffix, hkept, fun id => ?_⟩
  rw [marks_cons, hown id, if_neg (hw id)]

theorem marks_markDelivered {rows : List RemoteSignalRow} {now : Date} {own : List RemoteStep}
    (hown : ∀ id, marks id own = 0) (id : String) :
    marks id (⟨i, q, .markDelivered (rows.map (·.id)) now, s⟩ :: own) =
      if id ∈ rows.map (·.id) then 1 else 0 := by
  rw [marks_cons, hown id, Nat.zero_add]
  rfl

/-- A call polls one post box, for one party. -/
theorem RemoteRequest.Polls.unique {role role' : SignalRole} {id id' : String} (h : q.Polls role id)
    (h' : q.Polls role' id') : role' = role ∧ id' = id := by
  cases q with
  | signals userId sessionId => exact ⟨h'.2.trans h.2.symm, h'.1.trans h.1.symm⟩
  | hostSignals principal sessionId => exact ⟨h'.2.trans h.2.symm, h'.1.trans h.1.symm⟩
  | _ => cases h

/-- **A poll** answers what it has read and marked. -/
theorem safe_collectSignals {id : String} (hpolls : q.Polls role id) (ownerId : String)
    (hσ : σ.Always (Box w₀ sessionId sender)) (hown : ∀ id, marks id (σ.own i) = 0) :
    (boxOutline signer hashSecret ice w₀ sessionId sender).Safe i q
      (fun r τ => match r with
        | .ok ss => ∃ rows, Collected w₀ sessionId q i rows τ ∧ ss = rows.map (·.answer)
        | .error _ => ∀ id, marks id (τ.own i) = 0)
      (collectSignals role id ownerId) σ := by
  unfold collectSignals
  have hkeeps : (boxOutline signer hashSecret ice w₀ sessionId sender).Keeps i q
      (fun own => ∀ id, marks id own = 0) (requirePartySession role ownerId id) :=
    keeps_unmarked ((only_requirePartySession role ownerId id).mono fun _ hw => hw.unmarking)
  have hparty := (hkeeps.safe σ hσ hown).answers (answers_requirePartySession role ownerId id)
  refine hparty.bind hσ (fun session τ _ hτ hpost => ?_) fun e τ _ _ hpost => hpost.1
  obtain ⟨hown, hid⟩ := hpost
  rw [hid session rfl, select_bind]
  intro υ hlater hυ
  rw [← hlater.2] at hown
  obtain ⟨hsuffix, hkept⟩ := Box.unmarking (i := i) (q := q) (w := .select .remoteSignals) hυ
    fun _ h => h
  refine ⟨hsuffix, hkept, ?_⟩
  set rows := waiting id role.other υ.shared with hrows
  have hpolled : ∀ role' id', q.Polls role' id' → role' = role ∧ id' = id :=
    fun role' id' h => hpolls.unique h
  -- What the poll has read is known whatever the others do.
  have hcollected : ∀ ω : RemoteLog, (υ.perform exec i q (.select .remoteSignals)).history <:+ ω.history →
      (∀ id, marks id (ω.own i) = if id ∈ rows.map (·.id) then 1 else 0) →
        Collected w₀ sessionId q i rows ω := by
    intro ω hω hmarks
    refine ⟨fun role' h => ?_, fun r hr => ?_, fun role' h => ?_, hmarks⟩
    · obtain ⟨rfl, rfl⟩ := hpolled role' sessionId h
      refine ⟨⟨i, q, .select .remoteSignals, υ.shared⟩, Log.own_subset hω ?_, rfl, rfl⟩
      rw [Log.own_perform_self]
      exact List.mem_cons_self
    · obtain ⟨hmem, hsession, hsender⟩ := mem_waiting hr
      refine ⟨(hυ.1.origin r hmem).of_suffix ((List.suffix_cons _ _).trans hω), role, ?_, hsender⟩
      rwa [hsession]
    · obtain ⟨rfl, rfl⟩ := hpolled role' sessionId h
      exact waiting_sorted hυ.1
  show (boxOutline signer hashSecret ice w₀ sessionId sender).Safe i q _
    (markDelivered rows >>= fun _ => .done (rows.map (·.answer))) _
  unfold markDelivered
  split
  · rename_i hnil
    refine ⟨rows, hcollected _ List.suffix_rfl fun id => ?_, rfl⟩
    rw [Log.own_perform_self, marks_cons, hown id, hnil]
    rfl
  · rw [newDate_bind]
    intro ω hω hinv
    obtain ⟨hsuffix', hkept'⟩ := Box.unmarking (i := i) (q := q) (w := .clock) hinv fun _ h => h
    refine ⟨hsuffix', hkept', fun ξ hξ hinv' => ?_⟩
    have hread : (υ.perform exec i q (.select .remoteSignals)).history <:+ ξ.history :=
      hω.1.trans (hsuffix'.trans hξ.1)
    have hmark : ∀ id', Write.Marks id' (.markDelivered (rows.map (·.id)) ω.shared.clock) →
        ∃ r, Origin w₀ ξ.history r ∧ r.id = id' := by
      intro id' h
      obtain ⟨r, hr, hid⟩ := List.mem_map.mp (show id' ∈ rows.map (·.id) from h)
      exact ⟨r, (hυ.1.origin r (mem_waiting hr).1).of_suffix ((List.suffix_cons _ _).trans hread), hid⟩
    refine ⟨List.suffix_cons _ _, hinv'.perform (hinv'.1.perform hmark), rows, ?_, rfl⟩
    refine hcollected _ (hread.trans (List.suffix_cons _ _)) fun id' => ?_
    rw [Log.own_perform_self]
    refine marks_markDelivered (fun id => ?_) id'
    rw [hξ.2, Log.own_perform_self, marks_cons, hω.2, Log.own_perform_self, marks_cons, hown id]
    rfl

/-- **Each call** has marked what it answers, and a call that is no poll has marked nothing. -/
theorem safe_pollPost (hσ : σ.Always (Box w₀ sessionId sender)) (hown : σ.own i = []) :
    (boxOutline signer hashSecret ice w₀ sessionId sender).Safe i q (PollPost w₀ sessionId i q)
      (remoteHandler signer hashSecret ice q) σ := by
  have hmarks : ∀ id, marks id (σ.own i) = 0 := fun id => by rw [hown]; rfl
  have hother : (∀ role id, ¬ q.Polls role id) →
      (boxOutline signer hashSecret ice w₀ sessionId sender).Safe i q (PollPost w₀ sessionId i q)
        (remoteHandler signer hashSecret ice q) σ := by
    intro hq
    have honly : (remoteHandler signer hashSecret ice q).Only fun w => ∀ id, ¬ w.Marks id := by
      refine (only_remoteHandler q).mono fun w hw id hmark => ?_
      cases w <;> first | exact hmark | exact absurd hw fun ⟨role, id, h⟩ => hq role id h
    refine ((keeps_unmarked honly).safe σ hσ hmarks).mono hσ fun r τ _ _ hnone => ?_
    cases r with
    | error e => exact hnone
    | ok a =>
      refine ⟨[], ⟨fun role h => absurd h (hq _ _), nofun, fun role h => absurd h (hq _ _), ?_⟩,
        fun role id h => absurd h (hq _ _)⟩
      simpa using hnone
  have hpoll : ∀ role id, q.Polls role id → ∀ ownerId,
      (boxOutline signer hashSecret ice w₀ sessionId sender).Safe i q (PollPost w₀ sessionId i q)
        (.signals <$> collectSignals role id ownerId) σ := by
    intro role id hq ownerId
    refine (safe_collectSignals hq ownerId hσ hmarks).bind hσ (fun ss τ _ _ hpost => ?_)
      fun e τ _ _ hpost => hpost
    obtain ⟨rows, hcollected, rfl⟩ := hpost
    exact ⟨rows, hcollected, fun _ _ _ => rfl⟩
  cases q with
  | signals userId id => exact hpoll .viewer id ⟨rfl, rfl⟩ userId
  | hostSignals principal id => exact hpoll .host id ⟨rfl, rfl⟩ principal.userId
  | _ => exact hother fun _ _ h => h

/-! ## Delivery -/

/-- A poll of the party has been answered. -/
def Collects (c : RemoteConfig) (sessionId : String) (role : SignalRole) (i : Nat)
    (ss : List RemoteSignal) : Prop :=
  ∃ q : RemoteRequest, q.Polls role sessionId ∧ c.Answered i q (.signals ss)

/-- A poll of the party came back empty, and no message for the party was posted after it began. -/
def Drained (c : RemoteConfig) (sessionId : String) (role : SignalRole) : Prop :=
  ∃ j, Collects c sessionId role j [] ∧
    ∀ later step earlier, c.log.history = later ++ step :: earlier → step.thread = j →
      ∀ s ∈ later, ∀ m, Appends s m → m.sessionId = sessionId → m.sender ≠ role.other

/-- The other party has posted the message. -/
def PostedTo (c : RemoteConfig) (sessionId : String) (role : SignalRole) (a : RemoteSignal) : Prop :=
  ∃ step ∈ c.log.history, ∃ m, Appends step m ∧ m.sessionId = sessionId ∧ m.sender = role.other ∧
    m.answer = a

/-- What a party's polls have been answered: each answer in order, no message in two of them, and when
all calls have finished and a last poll came back empty, exactly what the other party has posted. -/
structure DeliversOnce (c : RemoteConfig) (sessionId : String) (role : SignalRole) : Prop where
  inOrder : ∀ i ss, Collects c sessionId role i ss → ss.Pairwise (·.seq < ·.seq)
  atMostOnce : ∀ i j ss ss', Collects c sessionId role i ss → Collects c sessionId role j ss' →
    ∀ a ∈ ss, ∀ a' ∈ ss', a'.seq = a.seq → i = j
  complete : c.Finished → Drained c sessionId role →
    ∀ a, (∃ i ss, Collects c sessionId role i ss ∧ a ∈ ss) ↔ PostedTo c sessionId role a

variable {c : RemoteConfig}

/-- The outline holds of a configuration. -/
abbrev BoxGood (signer : Signer) (hashSecret : String → String) (ice : Ice) (w₀ : World)
    (sessionId : String) (sender : SignalRole) (c : RemoteConfig) : Prop :=
  (boxOutline signer hashSecret ice w₀ sessionId sender).Good (PollPost w₀ sessionId) c

theorem SignalRole.other_inj {role role' : SignalRole} (h : role'.other = role.other) : role' = role := by
  cases role <;> cases role' <;> first | rfl | cases h

/-- What is answered was collected, from the box and for the party of the poll. -/
theorem collected_of_collects {ss : List RemoteSignal}
    (hgood : BoxGood signer hashSecret ice w₀ sessionId sender c) (h : Collects c sessionId role i ss) :
    ∃ q rows, q.Polls role sessionId ∧ Collected w₀ sessionId q i rows c.log ∧
      ss = rows.map (·.answer) ∧
      ∀ r ∈ rows, Origin w₀ c.log.history r ∧ r.sessionId = sessionId ∧ r.sender = role.other := by
  obtain ⟨q, hpolls, hanswered⟩ := h
  obtain ⟨rows, hcollected, hanswer⟩ := hgood.answered hanswered
  obtain ⟨rfl⟩ := RemoteResponse.signals.inj (hanswer role sessionId hpolls)
  refine ⟨q, rows, hpolls, hcollected, rfl, fun r hr => ?_⟩
  obtain ⟨horigin, role', hpolls', hsender⟩ := hcollected.posted r hr
  obtain ⟨rfl, hid⟩ := hpolls.unique hpolls'
  exact ⟨horigin, hid, hsender⟩

/-- A message of a session that began empty was posted. -/
theorem Origin.appended (h : Origin w₀ history r)
    (hempty : ∀ r₀ ∈ w₀.remoteSignals, r₀.sessionId ≠ sessionId) (hid : r.sessionId = sessionId) :
    ∃ step ∈ history, Appends step r.posted := by
  refine h.resolve_right ?_
  rintro ⟨r₀, hr₀, hposted⟩
  exact hempty r₀ hr₀ ((sessionId_of_posted hposted).trans hid)

/-- A message of a live session is in the table. -/
theorem Box.mem_of_origin (h : Box w₀ sessionId sender σ) (hopen : StaysOpen sessionId σ.history)
    (hempty : ∀ r₀ ∈ w₀.remoteSignals, r₀.sessionId ≠ sessionId) (horigin : Origin w₀ σ.history r)
    (hid : r.sessionId = sessionId) : ∃ t ∈ σ.shared.remoteSignals, t.posted = r.posted := by
  obtain ⟨step, hstep, happends⟩ := horigin.appended hempty hid
  exact h.stays hopen step hstep _ happends hid

/-- **Who has marked a message**, once finished, has been answered with it. -/
theorem collects_of_marks {step : RemoteStep}
    (hgood : BoxGood signer hashSecret ice w₀ sessionId sender c) (hfresh : FreshIds w₀ c.log.history)
    (hfinished : c.Finished) (hstep : step ∈ c.log.history) (hmarks : step.write.Marks r.id)
    (horigin : Origin w₀ c.log.history r) (hid : r.sessionId = sessionId)
    (hsender : r.sender = role.other) :
    ∃ ss, Collects c sessionId role step.thread ss ∧ r.answer ∈ ss ∧
      marks r.id (c.log.own step.thread) = 1 := by
  have hown : step ∈ c.log.own step.thread := List.mem_filter.mpr ⟨hstep, by simp⟩
  have hpos : 0 < marks r.id (c.log.own step.thread) := marks_pos.mpr ⟨step, hown, hmarks⟩
  have hlt := hgood.threads step hstep
  have hsafe := hgood.safe step.thread c.threads[step.thread] (List.getElem?_eq_getElem hlt)
  rcases hfinished _ (List.getElem_mem hlt) with ⟨a, ha⟩ | ⟨e, he⟩
  · rw [ha] at hsafe
    obtain ⟨rows, hcollected, hanswer⟩ := hsafe
    have hcount := hcollected.marked r.id
    rw [hcount] at hpos
    by_cases hmem : r.id ∈ rows.map (·.id)
    · obtain ⟨r', hr', hid'⟩ := List.mem_map.mp hmem
      obtain ⟨horigin', role', hpolls, hsender'⟩ := hcollected.posted r' hr'
      have hposted : r'.posted = r.posted := horigin.unique hfresh horigin' hid'
      obtain rfl : role' = role := SignalRole.other_inj
        (hsender'.symm.trans ((sender_of_posted hposted).trans hsender))
      rw [sessionId_of_posted hposted, hid] at hpolls
      refine ⟨rows.map (·.answer), ⟨_, hpolls, ?_⟩, ?_, ?_⟩
      · rw [Config.Answered, List.getElem?_eq_getElem hlt, ← hanswer _ _ hpolls, ← ha]
      · rw [← answer_of_posted hposted]
        exact List.mem_map_of_mem hr'
      · rw [hcount, if_pos hmem]
    · rw [if_neg hmem] at hpos
      exact absurd hpos (lt_irrefl 0)
  · rw [he] at hsafe
    rw [hsafe r.id] at hpos
    exact absurd hpos (lt_irrefl 0)

/-- The outline holds along every run. -/
theorem boxGood_remoteRun (signer : Signer) (hashSecret : String → String) (ice : Ice) {w : World}
    (sessionId : String) (sender : SignalRole) (hids : (w.remoteSignals.map (·.id)).Nodup)
    (hempty : ∀ r ∈ w.remoteSignals, r.sessionId ≠ sessionId) (moves : List (Move RemoteRequest Outside)) :
    BoxGood signer hashSecret ice w sessionId sender (remoteRun signer hashSecret ice w moves) := by
  have hstart : Box w sessionId sender ⟨w, []⟩ := by
    refine ⟨hids, fun r hr => .inr ⟨r, hr, rfl⟩, fun r hr _ _ hid => absurd hid (hempty r hr),
      fun _ step hstep => absurd hstep List.not_mem_nil,
      fun id hpos => absurd hpos (lt_irrefl 0), fun _ r hr hid => absurd hid (hempty r hr),
      fun _ _ r hr hid => absurd hid (hempty r hr)⟩
  refine (Outline.sound (fun i q r σ τ hlater hpost => ?_) (fun i q σ hσ hown => safe_pollPost hσ hown)
    moves (Outline.good_initial (Log.always_initial hstart))).1
  cases r with
  | error e =>
    intro id
    rw [hlater.2]
    exact hpost id
  | ok a =>
    obtain ⟨rows, hcollected, hanswer⟩ := hpost
    refine ⟨rows, ⟨?_, fun r hr => ?_, hcollected.sorted, ?_⟩, hanswer⟩
    · rw [hlater.2]
      exact hcollected.looked
    · exact ⟨(hcollected.posted r hr).1.of_suffix hlater.1, (hcollected.posted r hr).2⟩
    · rw [hlater.2]
      exact hcollected.marked

/-- The answers are in order. -/
theorem collects_inOrder {ss : List RemoteSignal}
    (hgood : BoxGood signer hashSecret ice w₀ sessionId sender c) (h : Collects c sessionId role i ss) :
    ss.Pairwise (·.seq < ·.seq) := by
  obtain ⟨q, rows, hpolls, hcollected, rfl, -⟩ := collected_of_collects hgood h
  exact List.pairwise_map.mpr (hcollected.sorted role hpolls)

/-- Where markings find their messages unmarked, no message is answered twice. -/
theorem collects_atMostOnce {j : Nat} {ss ss' : List RemoteSignal} {a a' : RemoteSignal}
    (hgood : BoxGood signer hashSecret ice w₀ sessionId role.other c)
    (hempty : ∀ r₀ ∈ w₀.remoteSignals, r₀.sessionId ≠ sessionId) (hfresh : FreshIds w₀ c.log.history)
    (hopen : StaysOpen sessionId c.log.history)
    (hcond : MarksUnmarked sessionId role.other c.log.history) (h : Collects c sessionId role i ss)
    (h' : Collects c sessionId role j ss') (ha : a ∈ ss) (ha' : a' ∈ ss') (hseq : a'.seq = a.seq) :
    i = j := by
  obtain ⟨q, rows, -, hcollected, rfl, hrows⟩ := collected_of_collects hgood h
  obtain ⟨q', rows', -, hcollected', rfl, hrows'⟩ := collected_of_collects hgood h'
  obtain ⟨r, hr, rfl⟩ := List.mem_map.mp ha
  obtain ⟨r', hr', rfl⟩ := List.mem_map.mp ha'
  obtain ⟨horigin, hid, hsender⟩ := hrows r hr
  obtain ⟨horigin', hid', -⟩ := hrows' r' hr'
  have hbox := hgood.inv.1
  obtain ⟨t, ht, hposted⟩ := hbox.mem_of_origin hopen hempty horigin hid
  obtain ⟨t', ht', hposted'⟩ := hbox.mem_of_origin hopen hempty horigin' hid'
  have hsame : t = t' := hbox.seqs t ht t' ht' ((sessionId_of_posted hposted).trans hid)
    ((sessionId_of_posted hposted').trans hid')
    ((seq_of_posted hposted).trans (hseq.symm.trans (seq_of_posted hposted').symm))
  have hrr' : r'.id = r.id := by rw [← id_of_posted hposted', ← id_of_posted hposted, hsame]
  -- Both polls have marked the message, which was marked once.
  have hmark : marks r.id (c.log.own i) = 1 := by
    rw [hcollected.marked, if_pos (List.mem_map_of_mem hr)]
  have hmark' : marks r.id (c.log.own j) = 1 := by
    rw [hcollected'.marked, if_pos (hrr' ▸ List.mem_map_of_mem hr')]
  have honce : marks r.id c.log.history ≤ 1 := by
    rw [← id_of_posted hposted]
    exact hbox.once hfresh hcond t ht ((sessionId_of_posted hposted).trans hid)
      ((sender_of_posted hposted).trans hsender)
  by_contra hij
  have hboth : marks r.id (c.log.own i) + marks r.id (c.log.own j) ≤ marks r.id c.log.history :=
    c.log.countP_own_add_le _ hij
  omega

/-- When a last poll comes back empty, what was posted was answered. -/
theorem collects_of_postedTo {a : RemoteSignal}
    (hgood : BoxGood signer hashSecret ice w₀ sessionId sender c) (hfresh : FreshIds w₀ c.log.history)
    (hopen : StaysOpen sessionId c.log.history) (hfinished : c.Finished)
    (hdrained : Drained c sessionId role) (h : PostedTo c sessionId role a) :
    ∃ i ss, Collects c sessionId role i ss ∧ a ∈ ss := by
  obtain ⟨step, hstep, m, happends, hid, hsender, rfl⟩ := h
  obtain ⟨j, hcollects, hlast⟩ := hdrained
  obtain ⟨q, rows, hpolls, hcollected, hnil, -⟩ := collected_of_collects hgood hcollects
  obtain ⟨look, hlook, hreads, hrows⟩ := hcollected.looked role hpolls
  obtain ⟨hmem, hthread⟩ := List.mem_filter.mp hlook
  obtain ⟨later, earlier, hhistory⟩ := List.append_of_mem hmem
  -- The message was posted before the last poll looked.
  have hearlier : step ∈ earlier := by
    rw [hhistory] at hstep
    rcases List.mem_append.mp hstep with hlater | hrest
    · exact absurd hsender (hlast later look earlier hhistory (of_decide_eq_true hthread) step hlater m
        happends hid)
    rcases List.mem_cons.mp hrest with rfl | hearlier
    · unfold Appends at happends
      split at happends
      · rename_i hw
        rw [hw] at hreads
        cases hreads
      · cases happends
    · exact hearlier
  have hsuffix : look :: earlier <:+ c.log.history := ⟨later, hhistory.symm⟩
  have hpast : earlier <:+ c.log.history := (List.suffix_cons _ _).trans hsuffix
  have hbox := hgood.inv.2 look earlier hsuffix
  obtain ⟨r, hr, hposted⟩ := hbox.stays (fun s hs => hopen s (hpast.subset hs)) step hearlier m happends
    hid
  have hpm : r.posted = m.posted := hposted.trans happends.posted.symm
  have hwaiting : waiting sessionId role.other look.before = [] := by
    rw [← hrows]
    exact List.map_eq_nil_iff.mp hnil.symm
  have hdelivered : r.deliveredAt ≠ none := delivered_of_waiting_nil hwaiting hr
    ((sessionId_of_posted hpm).trans hid) ((sender_of_posted hpm).trans hsender)
  have hmarked := (hbox.delivered (hfresh.of_suffix hpast) r hr ((sessionId_of_posted hpm).trans hid)).mp
    hdelivered
  obtain ⟨mark, hmark, hmarks⟩ := marks_pos.mp hmarked
  obtain ⟨ss, hanswered, hanswer, -⟩ := collects_of_marks hgood hfresh hfinished (hpast.subset hmark)
    hmarks ((hbox.origin r hr).of_suffix hpast) ((sessionId_of_posted hpm).trans hid)
    ((sender_of_posted hpm).trans hsender)
  exact ⟨_, ss, hanswered, answer_of_posted hpm ▸ hanswer⟩

/-- Where no message is answered twice, each marking found its messages unmarked. -/
theorem marksUnmarked_of_once (hgood : BoxGood signer hashSecret ice w₀ sessionId sender c)
    (hfresh : FreshIds w₀ c.log.history) (hfinished : c.Finished)
    (h : DeliversOnce c sessionId role) : MarksUnmarked sessionId role.other c.log.history := by
  intro step hstep r hr hid hsender hmark
  by_contra hdelivered
  obtain ⟨later, earlier, hhistory⟩ := List.append_of_mem hstep
  have hsuffix : step :: earlier <:+ c.log.history := ⟨later, hhistory.symm⟩
  have hpast : earlier <:+ c.log.history := (List.suffix_cons _ _).trans hsuffix
  have hbox := hgood.inv.2 step earlier hsuffix
  obtain ⟨step', hstep', hmark'⟩ :=
    marks_pos.mp ((hbox.delivered (hfresh.of_suffix hpast) r hr hid).mp hdelivered)
  have horigin := (hbox.origin r hr).of_suffix hpast
  obtain ⟨ss, hanswered, hanswer, hone⟩ :=
    collects_of_marks hgood hfresh hfinished hstep hmark horigin hid hsender
  obtain ⟨ss', hanswered', hanswer', -⟩ :=
    collects_of_marks hgood hfresh hfinished (hpast.subset hstep') hmark' horigin hid hsender
  have hthread : step.thread = step'.thread :=
    h.atMostOnce _ _ _ _ hanswered hanswered' _ hanswer _ hanswer' rfl
  -- One call would have marked it twice.
  have htwice : 2 ≤ marks r.id (c.log.own step.thread) := by
    have hpos : 0 < marks r.id (earlier.filter (·.thread = step.thread)) :=
      marks_pos.mpr ⟨step', List.mem_filter.mpr ⟨hstep', by simp [hthread]⟩, hmark'⟩
    have hown : c.log.own step.thread = later.filter (·.thread = step.thread) ++
        step :: earlier.filter (·.thread = step.thread) := by
      rw [Log.own, hhistory, List.filter_append, List.filter_cons_of_pos (by simp)]
    have hcount : marks r.id (step :: earlier.filter (·.thread = step.thread)) ≤
        marks r.id (c.log.own step.thread) := by
      rw [hown]
      exact List.Sublist.countP_le (List.sublist_append_right _ _)
    rw [marks_cons, if_pos hmark] at hcount
    omega
  omega

/-- **The post box.** On a live session that began with an empty post box, where each message gets a new
identifier: while each marking finds its messages unmarked, a party's polls deliver each message once
and in order; and when all calls have finished, only then. -/
theorem post_box (signer : Signer) (hashSecret : String → String) (ice : Ice) (w : World)
    (sessionId : String) (role : SignalRole) (hids : (w.remoteSignals.map (·.id)).Nodup)
    (hempty : ∀ r ∈ w.remoteSignals, r.sessionId ≠ sessionId) (moves : List (Move RemoteRequest Outside)) :
    let c := remoteRun signer hashSecret ice w moves
    FreshIds w c.log.history → StaysOpen sessionId c.log.history →
      (MarksUnmarked sessionId role.other c.log.history → DeliversOnce c sessionId role) ∧
        (c.Finished → DeliversOnce c sessionId role →
          MarksUnmarked sessionId role.other c.log.history) := by
  intro c hfresh hopen
  have hgood := boxGood_remoteRun signer hashSecret ice sessionId role.other hids hempty moves
  refine ⟨fun hcond => ⟨fun i ss h => collects_inOrder hgood h, fun i j ss ss' h h' a ha a' ha' hseq =>
    collects_atMostOnce hgood hempty hfresh hopen hcond h h' ha ha' hseq, fun hfinished hdrained a => ?_⟩,
    fun hfinished h => marksUnmarked_of_once hgood hfresh hfinished h⟩
  constructor
  · rintro ⟨i, ss, h, ha⟩
    obtain ⟨q, rows, -, -, rfl, hrows⟩ := collected_of_collects hgood h
    obtain ⟨r, hr, rfl⟩ := List.mem_map.mp ha
    obtain ⟨horigin, hid, hsender⟩ := hrows r hr
    obtain ⟨step, hstep, happends⟩ := horigin.appended hempty hid
    exact ⟨step, hstep, r.posted, happends, hid, hsender, rfl⟩
  · exact collects_of_postedTo hgood hfresh hopen hfinished hdrained

/-! ## Two polls of one computer -/

instance (w₀ : World) : DecidablePred (FreshIds w₀) := fun _ => inferInstanceAs (Decidable (List.Nodup _))

instance (sessionId : String) : DecidablePred (StaysOpen sessionId) := fun history =>
  inferInstanceAs (Decidable (∀ step ∈ history, _))

instance (sessionId : String) (sender : SignalRole) : DecidablePred (MarksUnmarked sessionId sender) :=
  fun history => inferInstanceAs (Decidable (∀ step ∈ history, _))

/-- The computer asks for its messages. -/
def collectOffer : RemoteRequest := .hostSignals ⟨"ada", "device"⟩ "first"

/-- The second poll comes when the first has been answered. -/
def collectInTurn : List (Move RemoteRequest Outside) :=
  [Move.call offer, Move.call collectOffer, Move.call collectOffer] ++
    List.replicate 7 (Move.step 0) ++ List.replicate 5 (Move.step 1) ++
    List.replicate 3 (Move.step 2)

/-- Both polls read before either marks. -/
def collectTogether : List (Move RemoteRequest Outside) :=
  [Move.call offer, Move.call collectOffer, Move.call collectOffer] ++
    List.replicate 7 (Move.step 0) ++ List.replicate 3 (Move.step 1) ++
    List.replicate 3 (Move.step 2) ++ List.replicate 2 (Move.step 1) ++
    List.replicate 2 (Move.step 2)

theorem post_box_collectInTurn :
    let c := watchedRun collectInTurn
    (c.Answered 1 collectOffer (.signals [⟨1, "first", .viewer, "offer", "sdp", toISOString 1000⟩]) ∧
      c.Answered 2 collectOffer (.signals [])) ∧ DeliversOnce c "first" .host :=
  ⟨⟨rfl, rfl⟩, (post_box ⟨"key", String.ofList⟩ id noIce watchedWorld "first" .host (by decide) (by decide)
    collectInTurn (by decide) (by decide)).1 (by decide)⟩

/-- Both polls are answered with the offer. -/
theorem answered_twice :
    let c := watchedRun collectTogether
    FreshIds watchedWorld c.log.history ∧ StaysOpen "first" c.log.history ∧
      ¬ DeliversOnce c "first" .host := by
  refine ⟨by decide, by decide, fun h => ?_⟩
  have hanswered : ∀ i, i = 1 ∨ i = 2 → Collects (watchedRun collectTogether) "first" .host i
      [⟨1, "first", .viewer, "offer", "sdp", toISOString 1000⟩] := by
    rintro i (rfl | rfl) <;> exact ⟨collectOffer, ⟨rfl, rfl⟩, rfl⟩
  exact absurd (h.atMostOnce 1 2 _ _ (hanswered 1 (.inl rfl)) (hanswered 2 (.inr rfl)) _
    List.mem_cons_self _ List.mem_cons_self rfl) (by decide)

end Api
