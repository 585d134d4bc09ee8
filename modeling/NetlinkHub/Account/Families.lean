import NetlinkHub.Account.Nonces
import NetlinkHub.Account.Sessions

/-! # Families of refresh tokens

A session is a family of refresh tokens, each one exchanged for the next. A rotation marks the token it
takes and inserts the new one two statements apart, so a token of the family is either in the table or in
the hands of one rotation, and there is one at most (`FamilyInv`). A revocation marks the tokens that are
in the table, and a token that a rotation inserts afterwards escapes it (`exchanged_after_logout`); when
none does, the family stays dead (`family_safe`). -/

namespace Account

open Api (Date HttpException)
open Concurrent (Config Log Machine Move Outline Prog Step)
open Table (Evolves Op)

/-- A call of `SessionService` on refresh tokens. -/
inductive SessionCall where
  | rotate (presentedToken : String)
  | revokeByToken (presentedToken reason : String)
  | revokeFamily (familyId reason : String)
  | revokeDeviceSessions (deviceId reason : String)
  deriving DecidableEq, Repr

/-- What a call comes to. -/
inductive SessionAnswer where
  | rotated (outcome : RotationOutcome)
  | found (revoked : Bool)
  | ended
  | counted (n : Nat)

/-- What each call runs. -/
def sessionHandler (jwt : Jwt) (config : SessionConfig) (hashSecret : String → String) :
    SessionCall → Service SessionAnswer
  | .rotate presentedToken => .rotated <$> rotate jwt config hashSecret presentedToken
  | .revokeByToken presentedToken reason => .found <$> revokeByToken hashSecret presentedToken reason
  | .revokeFamily familyId reason => (fun _ => .ended) <$> revokeFamily familyId reason
  | .revokeDeviceSessions deviceId reason => .counted <$> revokeDeviceSessions deviceId reason

/-- Any number of calls; the rest of the control plane does anything but touch the refresh tokens. -/
def sessionMachine (jwt : Jwt) (config : SessionConfig) (hashSecret : String → String) :
    Machine World Write HttpException SessionCall World SessionAnswer :=
  ⟨sessionHandler jwt config hashSecret, exec, fun w' w => { w' with refreshTokens := w.refreshTokens }⟩

/-- The sessions after a run. -/
abbrev sessionRun (jwt : Jwt) (config : SessionConfig) (hashSecret : String → String) (w : World)
    (moves : List (Move SessionCall World)) : Config World Write HttpException SessionCall SessionAnswer :=
  Run.run (sessionMachine jwt config hashSecret).step moves (Config.initial w)

/-- A statement of such a run. -/
abbrev SessionStep := Step World Write SessionCall

/-- The log of such a run. -/
abbrev SessionLog := Log World Write SessionCall

/-! ## Tokens -/

/-- The token is neither used nor revoked. -/
def RefreshTokenRow.Live (t : RefreshTokenRow) : Prop := t.rotatedAt = none ∧ t.revokedAt = none

instance : DecidablePred RefreshTokenRow.Live := fun _ => inferInstanceAs (Decidable (_ ∧ _))

/-- How many tokens of a family are neither used nor revoked. -/
def live (familyId : String) (w : World) : Nat :=
  w.refreshTokens.countP fun t => t.familyId = familyId ∧ t.Live

/-- Every token of a family is revoked. -/
def Dead (familyId : String) (w : World) : Prop :=
  ∀ t ∈ w.refreshTokens, t.familyId = familyId → t.revokedAt.isSome

instance (familyId : String) : DecidablePred (Dead familyId) := fun w =>
  inferInstanceAs (Decidable (∀ t ∈ w.refreshTokens, _))

/-- The statement marks a live token as used. -/
def Takes (p : RefreshTokenRow → Prop) (step : SessionStep) : Prop :=
  ∃ t ∈ step.before.refreshTokens, p t ∧ t.Live ∧
    ∃ t' ∈ (exec step.write step.before).refreshTokens, t'.id = t.id ∧ t'.rotatedAt.isSome

instance (p : RefreshTokenRow → Prop) [DecidablePred p] : DecidablePred (Takes p) := fun step =>
  inferInstanceAs (Decidable (∃ t ∈ step.before.refreshTokens, _))

/-- The statement inserts a token of a family. -/
def Inserts (familyId : String) (step : SessionStep) : Prop :=
  match step.write with
  | .refreshTokens (.insert clash row) => row.familyId = familyId ∧ ¬ step.before.refreshTokens.any clash
  | _ => False

instance (familyId : String) : DecidablePred (Inserts familyId) := fun step => by
  unfold Inserts
  split <;> infer_instance

/-- The statement does not insert a token into a family whose tokens have all been revoked. -/
def Timely (familyId : String) (step : SessionStep) : Prop :=
  match step.write with
  | .refreshTokens (.insert _ row) => row.familyId = familyId → ¬ Dead familyId step.before
  | _ => True

instance (familyId : String) : DecidablePred (Timely familyId) := fun step => by
  unfold Timely
  split <;> infer_instance

/-- What a token may become. -/
structure TokenKeeps (t t' : RefreshTokenRow) : Prop where
  id : t'.id = t.id
  hash : t'.tokenHash = t.tokenHash
  family : t'.familyId = t.familyId
  device : t'.deviceId = t.deviceId
  revoked : t.revokedAt.isSome → t'.revokedAt.isSome
  rotated : t.rotatedAt.isSome → t'.rotatedAt.isSome

theorem TokenKeeps.refl (t : RefreshTokenRow) : TokenKeeps t t :=
  ⟨rfl, rfl, rfl, rfl, fun h => h, fun h => h⟩

theorem TokenKeeps.trans {a b c : RefreshTokenRow} (h : TokenKeeps a b) (h' : TokenKeeps b c) :
    TokenKeeps a c :=
  ⟨h'.id.trans h.id, h'.hash.trans h.hash, h'.family.trans h.family, h'.device.trans h.device,
    h'.revoked ∘ h.revoked, h'.rotated ∘ h.rotated⟩

/-- A token that lives now lived before. -/
theorem TokenKeeps.live {t t' : RefreshTokenRow} (h : TokenKeeps t t') (hlive : t'.Live) : t.Live := by
  constructor
  · by_contra hrotated
    have := h.rotated (Option.isSome_iff_ne_none.mpr hrotated)
    rw [hlive.1] at this
    cases this
  · by_contra hrevoked
    have := h.revoked (Option.isSome_iff_ne_none.mpr hrevoked)
    rw [hlive.2] at this
    cases this

/-- A revoked token is not a live one. -/
theorem RefreshTokenRow.Live.not_revoked {t : RefreshTokenRow} (h : t.Live) : ¬ t.revokedAt.isSome := by
  rw [h.2]
  exact Bool.false_ne_true

/-- Tokens stay, and keep what they are known by. -/
abbrev TokensKeep (s t : World) : Prop := Evolves TokenKeeps s.refreshTokens t.refreshTokens

/-! ## The outline -/

variable {jwt : Jwt} {config : SessionConfig} {hashSecret : String → String} {familyId deviceId : String}
  {σ τ : SessionLog} {i : Nat} {q : SessionCall}

/-- How often a token of a family was marked as used. -/
def takings (p : RefreshTokenRow → Prop) [DecidablePred p] (steps : List SessionStep) : Nat :=
  steps.countP (Takes p ·)

/-- How often a token of a family was inserted. -/
def insertions (familyId : String) (steps : List SessionStep) : Nat := steps.countP (Inserts familyId ·)

/-- The tokens of a family that live, with those that a rotation has taken and not yet replaced, are one
at most; a rotation inserts no more than it has taken; and no token is taken twice. -/
structure FamilyInv (familyId deviceId : String) (σ : SessionLog) : Prop where
  ids : (σ.shared.refreshTokens.map (·.id)).Nodup
  hashes : (σ.shared.refreshTokens.map (·.tokenHash)).Nodup
  device : ∀ t ∈ σ.shared.refreshTokens, t.familyId = familyId → t.deviceId = deviceId
  past : ∀ step ∈ σ.history, TokensKeep step.before σ.shared
  counted : live familyId σ.shared + takings (·.familyId = familyId) σ.history ≤
    1 + insertions familyId σ.history
  balanced : ∀ i, insertions familyId (σ.own i) ≤ takings (·.familyId = familyId) (σ.own i)
  once : ∀ hash, takings (·.tokenHash = hash) σ.history ≤ 1
  taken : ∀ hash, 0 < takings (·.tokenHash = hash) σ.history →
    ∃ t ∈ σ.shared.refreshTokens, t.tokenHash = hash ∧ t.rotatedAt.isSome

/-- Tokens stay, and a family that is dead stays dead as long as the statements are timely. -/
structure FamilyRely (familyId : String) (σ τ : SessionLog) : Prop where
  keep : TokensKeep σ.shared τ.shared
  dead : ∃ new, τ.history = new ++ σ.history ∧
    ((∀ step ∈ new, Timely familyId step) → Dead familyId σ.shared →
      Dead familyId τ.shared ∧ ∀ step ∈ new, Dead familyId step.before)

theorem FamilyRely.refl (familyId : String) (σ : SessionLog) : FamilyRely familyId σ σ :=
  ⟨Evolves.refl TokenKeeps.refl _, [], rfl, fun _ h => ⟨h, fun _ hstep => absurd hstep List.not_mem_nil⟩⟩

theorem FamilyRely.trans {υ : SessionLog} (h : FamilyRely familyId σ τ) (h' : FamilyRely familyId τ υ) :
    FamilyRely familyId σ υ := by
  refine ⟨h.keep.trans TokenKeeps.trans h'.keep, ?_⟩
  obtain ⟨new, hnew, hdead⟩ := h.dead
  obtain ⟨new', hnew', hdead'⟩ := h'.dead
  refine ⟨new' ++ new, by rw [hnew', hnew, List.append_assoc], fun htimely hσ => ?_⟩
  rw [List.forall_mem_append] at htimely
  obtain ⟨hτ, hbefore⟩ := hdead htimely.2 hσ
  obtain ⟨hυ, hbefore'⟩ := hdead' htimely.1 hτ
  exact ⟨hυ, List.forall_mem_append.mpr ⟨hbefore', hbefore⟩⟩

/-- The tokens of one family, of one device. -/
def familyOutline (jwt : Jwt) (config : SessionConfig) (hashSecret : String → String)
    (familyId deviceId : String) : Outline (sessionMachine jwt config hashSecret) where
  inv := FamilyInv familyId deviceId
  rely := FamilyRely familyId
  refl := FamilyRely.refl familyId
  trans := FamilyRely.trans
  env _ _ h :=
    ⟨⟨h.ids, h.hashes, h.device, h.past, h.counted, h.balanced, h.once, h.taken⟩,
      Evolves.refl TokenKeeps.refl _, [], rfl,
      fun _ hdead => ⟨hdead, fun _ hstep => absurd hstep List.not_mem_nil⟩⟩

/-! ## Statements -/

/-- What a call does to the tokens, but for the insertion. -/
def Marks : Write → Prop
  | .refreshTokens (.update _ data) => ∀ t, TokenKeeps t (data t)
  | .refreshTokens _ => False
  | _ => True

/-- A statement that marks tokens is an update of them. -/
theorem Marks.update {w : Write} (hw : Marks w) (s : World) : ∃ sel data,
    (∀ t, TokenKeeps t (data t)) ∧
      (exec w s).refreshTokens = (Op.update sel data).apply s.refreshTokens := by
  by_cases hop : ∃ op, w = .refreshTokens op
  · obtain ⟨op, rfl⟩ := hop
    cases op with
    | update sel data => exact ⟨sel, data, hw, rfl⟩
    | insert clash row => exact hw.elim
    | delete sel => exact hw.elim
  · refine ⟨fun _ => false, fun t => t, TokenKeeps.refl, ?_⟩
    rw [refreshTokens_exec (fun op hw' => hop ⟨op, hw'⟩)]
    simp [Op.apply]

theorem tokensKeep_update {s t : World} {sel : RefreshTokenRow → Bool}
    {data : RefreshTokenRow → RefreshTokenRow} (hdata : ∀ t, TokenKeeps t (data t))
    (heq : t.refreshTokens = (Op.update sel data).apply s.refreshTokens) : TokensKeep s t := by
  rw [TokensKeep, heq]
  exact Table.evolves_update TokenKeeps.refl fun t _ _ => hdata t

/-- A token that an update takes is one that it selects, and it lives no longer. -/
theorem selected_of_takes {s : World} {w : Write} {p : RefreshTokenRow → Prop}
    {sel : RefreshTokenRow → Bool} {data : RefreshTokenRow → RefreshTokenRow}
    (hids : (s.refreshTokens.map (·.id)).Nodup) (hdata : ∀ t, TokenKeeps t (data t))
    (heq : (exec w s).refreshTokens = (Op.update sel data).apply s.refreshTokens)
    (htakes : Takes p ⟨i, q, w, s⟩) :
    ∃ t ∈ s.refreshTokens, p t ∧ t.Live ∧ sel t ∧ (data t).rotatedAt.isSome := by
  obtain ⟨t, ht, hp, hlive, t', ht', hid, hrotated⟩ := htakes
  replace ht' : t' ∈ (exec w s).refreshTokens := ht'
  rw [heq, Table.mem_update] at ht'
  obtain ⟨r, hr, rfl⟩ := ht'
  have hsame : r = t := by
    refine Table.eq_of_key hids hr ht (Eq.trans ?_ hid)
    split
    · exact (hdata r).id.symm
    · rfl
  subst hsame
  by_cases hsel : sel r
  · rw [if_pos hsel] at hrotated
    exact ⟨r, hr, hp, hlive, hsel, hrotated⟩
  · rw [if_neg hsel, hlive.1] at hrotated
    cases hrotated

theorem takings_cons (p : RefreshTokenRow → Prop) [DecidablePred p] (step : SessionStep)
    (steps : List SessionStep) :
    takings p (step :: steps) = takings p steps + if Takes p step then 1 else 0 := by
  simp [takings, List.countP_cons]

theorem insertions_cons (familyId : String) (step : SessionStep) (steps : List SessionStep) :
    insertions familyId (step :: steps) =
      insertions familyId steps + if Inserts familyId step then 1 else 0 := by
  simp [insertions, List.countP_cons]

/-- A live token is taken from those that live. -/
theorem live_exec_marks {w : Write} {s : World} (hw : Marks w)
    (hids : (s.refreshTokens.map (·.id)).Nodup) :
    live familyId (exec w s) + (if Takes (·.familyId = familyId) ⟨i, q, w, s⟩ then 1 else 0) ≤
      live familyId s := by
  obtain ⟨sel, data, hdata, heq⟩ := hw.update s
  unfold live
  rw [heq]
  refine Table.countP_update_add (fun t _ _ ht => ?_) fun htakes => ?_
  · simp only [decide_eq_true_eq] at ht ⊢
    exact ⟨(hdata t).family.symm.trans ht.1, (hdata t).live ht.2⟩
  · obtain ⟨t, ht, hfamily, hlive, hsel, hrotated⟩ := selected_of_takes hids hdata heq htakes
    refine ⟨t, ht, decide_eq_true ⟨hfamily, hlive⟩, hsel, ?_⟩
    rw [decide_eq_true_eq]
    rintro ⟨-, hnone, -⟩
    rw [hnone] at hrotated
    cases hrotated

theorem not_inserts_marks {w : Write} {s : World} (hw : Marks w) : ¬ Inserts familyId ⟨i, q, w, s⟩ := by
  unfold Inserts
  split
  · rename_i hwrite
    cases hwrite
    exact hw.elim
  · exact not_false

/-- **What a statement keeps that marks tokens.** -/
theorem FamilyInv.marks {w : Write} (hw : Marks w) (h : FamilyInv familyId deviceId σ) :
    FamilyInv familyId deviceId (σ.perform exec i q w) := by
  obtain ⟨sel, data, hdata, heq⟩ := hw.update σ.shared
  have hkeep : TokensKeep σ.shared (exec w σ.shared) := tokensKeep_update hdata heq
  have hids : ((exec w σ.shared).refreshTokens.map (·.id)).Nodup := by
    rw [heq, Table.map_update fun t => (hdata t).id]
    exact h.ids
  have hnone : ¬ Inserts familyId ⟨i, q, w, σ.shared⟩ := not_inserts_marks hw
  -- A token that is taken was not taken before.
  have hnew : ∀ hash, Takes (·.tokenHash = hash) ⟨i, q, w, σ.shared⟩ →
      takings (·.tokenHash = hash) σ.history = 0 := by
    intro hash htakes
    obtain ⟨t, ht, hhash, hlive, -⟩ := htakes
    by_contra hne
    obtain ⟨t', ht', hhash', hrotated⟩ := h.taken hash (Nat.pos_of_ne_zero hne)
    obtain rfl : t = t' := Table.eq_of_key h.hashes ht ht' (hhash.trans hhash'.symm)
    rw [hlive.1] at hrotated
    cases hrotated
  refine ⟨hids, ?_, fun t ht hfamily => ?_, fun step hstep => ?_, ?_, fun j => ?_, fun hash => ?_,
    fun hash hpos => ?_⟩
  · show ((exec w σ.shared).refreshTokens.map (·.tokenHash)).Nodup
    rw [heq, Table.map_update fun t => (hdata t).hash]
    exact h.hashes
  · replace ht : t ∈ (exec w σ.shared).refreshTokens := ht
    rw [heq, Table.mem_update] at ht
    obtain ⟨r, hr, rfl⟩ := ht
    split
    · rename_i hsel
      rw [if_pos hsel] at hfamily
      exact (hdata r).device.trans (h.device r hr ((hdata r).family.symm.trans hfamily))
    · rename_i hsel
      rw [if_neg hsel] at hfamily
      exact h.device r hr hfamily
  · rcases List.mem_cons.mp hstep with rfl | hstep
    · exact hkeep
    · exact (h.past step hstep).trans TokenKeeps.trans hkeep
  · show live familyId (exec w σ.shared) + takings _ (_ :: σ.history) ≤
      1 + insertions familyId (_ :: σ.history)
    rw [takings_cons, insertions_cons, if_neg hnone]
    have hlive : live familyId (exec w σ.shared) +
        (if Takes (·.familyId = familyId) ⟨i, q, w, σ.shared⟩ then 1 else 0) ≤ live familyId σ.shared :=
      live_exec_marks hw h.ids
    have := h.counted
    omega
  · by_cases hij : i = j
    · subst hij
      rw [Log.own_perform_self, takings_cons, insertions_cons, if_neg hnone]
      have := h.balanced i
      omega
    · rw [Log.own_perform_of_ne _ _ _ _ hij]
      exact h.balanced j
  · show takings _ (_ :: σ.history) ≤ 1
    rw [takings_cons]
    split
    · rename_i htakes
      rw [hnew hash htakes]
    · exact h.once hash
  · replace hpos : 0 < takings _ (_ :: σ.history) := hpos
    rw [takings_cons] at hpos
    split at hpos
    · rename_i htakes
      obtain ⟨t, ht, hhash, -, t', ht', hid, hrotated⟩ := htakes
      have hbecame := hkeep.of_key (fun h => h.id) hids ht ht' hid
      exact ⟨t', ht', hbecame.hash.trans hhash, hrotated⟩
    · obtain ⟨t, ht, hhash, hrotated⟩ := h.taken hash hpos
      obtain ⟨t', ht', hbecame⟩ := hkeep t ht
      exact ⟨t', ht', hbecame.hash.trans hhash, hbecame.rotated hrotated⟩

theorem FamilyRely.marks {w : Write} (hw : Marks w) (σ : SessionLog) :
    FamilyRely familyId σ (σ.perform exec i q w) := by
  obtain ⟨sel, data, hdata, heq⟩ := hw.update σ.shared
  refine ⟨tokensKeep_update hdata heq, [⟨i, q, w, σ.shared⟩], rfl, fun _ hdead => ⟨fun t ht hfamily => ?_, ?_⟩⟩
  · replace ht : t ∈ (exec w σ.shared).refreshTokens := ht
    rw [heq, Table.mem_update] at ht
    obtain ⟨r, hr, rfl⟩ := ht
    split
    · rename_i hsel
      rw [if_pos hsel] at hfamily
      exact (hdata r).revoked (hdead r hr ((hdata r).family.symm.trans hfamily))
    · rename_i hsel
      rw [if_neg hsel] at hfamily
      exact hdead r hr hfamily
  · rintro step (_ | ⟨_, hstep⟩)
    · exact hdead
    · exact absurd hstep List.not_mem_nil

/-- Rows that cannot stand beside a token: identifiers and hashes are unique. -/
abbrev clashes (row t : RefreshTokenRow) : Bool := t.id = row.id ∨ t.tokenHash = row.tokenHash

/-- An insertion takes nothing. -/
theorem not_takes_insert {s : World} {p : RefreshTokenRow → Prop} {row : RefreshTokenRow}
    (hids : (s.refreshTokens.map (·.id)).Nodup) :
    ¬ Takes p ⟨i, q, .refreshTokens (.insert (clashes row) row), s⟩ := by
  rintro ⟨t, ht, -, hlive, t', ht', hid, hrotated⟩
  replace ht' : t' ∈ (Op.insert (clashes row) row).apply s.refreshTokens := ht'
  rcases Table.mem_insert ht' with hmem | rfl
  · obtain rfl : t' = t := Table.eq_of_key hids hmem ht hid
    rw [hlive.1] at hrotated
    cases hrotated
  · -- The row that is inserted clashes with the one that was there.
    have hclash : s.refreshTokens.any (clashes t') :=
      List.any_eq_true.mpr ⟨t, ht, decide_eq_true (.inl hid.symm)⟩
    replace ht' : t' ∈ (Op.insert (clashes t') t').apply s.refreshTokens := ht'
    rw [Table.apply_insert, if_pos hclash] at ht'
    obtain rfl : t' = t := Table.eq_of_key hids ht' ht hid
    rw [hlive.1] at hrotated
    cases hrotated

/-- **What an insertion keeps** that follows a taking. -/
theorem FamilyInv.insert {row : RefreshTokenRow} (h : FamilyInv familyId deviceId σ)
    (hdevice : row.familyId = familyId → row.deviceId = deviceId)
    (hcredit : row.familyId = familyId →
      insertions familyId (σ.own i) + 1 ≤ takings (·.familyId = familyId) (σ.own i)) :
    FamilyInv familyId deviceId (σ.perform exec i q (.refreshTokens (.insert (clashes row) row))) := by
  have hkeep : TokensKeep σ.shared (exec (.refreshTokens (.insert (clashes row) row)) σ.shared) :=
    Table.evolves_insert TokenKeeps.refl
  have hnone : ∀ (p : RefreshTokenRow → Prop) [DecidablePred p],
      takings p (⟨i, q, .refreshTokens (.insert (clashes row) row), σ.shared⟩ :: σ.history) =
        takings p σ.history := by
    intro p _
    rw [takings_cons, if_neg (not_takes_insert h.ids)]
    rfl
  refine ⟨Table.nodup_insert (fun t ht => ?_) h.ids, Table.nodup_insert (fun t ht => ?_) h.hashes,
    fun t ht hfamily => ?_, fun step hstep => ?_, ?_, fun j => ?_, fun hash => ?_, fun hash hpos => ?_⟩
  · exact decide_eq_true (.inl ht)
  · exact decide_eq_true (.inr ht)
  · replace ht : t ∈ (Op.insert (clashes row) row).apply σ.shared.refreshTokens := ht
    rcases Table.mem_insert ht with hmem | rfl
    · exact h.device t hmem hfamily
    · exact hdevice hfamily
  · rcases List.mem_cons.mp hstep with rfl | hstep
    · exact hkeep
    · exact (h.past step hstep).trans TokenKeeps.trans hkeep
  · show live familyId (exec _ σ.shared) + takings _ (_ :: σ.history) ≤
      1 + insertions familyId (_ :: σ.history)
    rw [hnone, insertions_cons]
    have hlive : live familyId (exec (.refreshTokens (.insert (clashes row) row)) σ.shared) ≤
        live familyId σ.shared +
          if Inserts familyId ⟨i, q, .refreshTokens (.insert (clashes row) row), σ.shared⟩ then 1 else 0 := by
      refine le_trans Table.countP_insert_le ?_
      refine Nat.add_le_add_left ?_ _
      split
      · rename_i hin
        have hfamily : row.familyId = familyId := (of_decide_eq_true hin.1).1
        rw [if_pos ⟨hfamily, hin.2⟩]
      · exact Nat.zero_le _
    have := h.counted
    omega
  · by_cases hij : i = j
    · subst hij
      rw [Log.own_perform_self, takings_cons, if_neg (not_takes_insert h.ids), insertions_cons]
      have := h.balanced i
      split
      · rename_i hin
        exact hcredit hin.1
      · exact this
    · rw [Log.own_perform_of_ne _ _ _ _ hij]
      exact h.balanced j
  · show takings _ (_ :: σ.history) ≤ 1
    rw [hnone]
    exact h.once hash
  · replace hpos : 0 < takings _ (_ :: σ.history) := hpos
    rw [hnone] at hpos
    obtain ⟨t, ht, hhash, hrotated⟩ := h.taken hash hpos
    obtain ⟨t', ht', hbecame⟩ := hkeep t ht
    exact ⟨t', ht', hbecame.hash.trans hhash, hbecame.rotated hrotated⟩

theorem FamilyRely.insert (row : RefreshTokenRow) (σ : SessionLog) :
    FamilyRely familyId σ (σ.perform exec i q (.refreshTokens (.insert (clashes row) row))) := by
  refine ⟨Table.evolves_insert TokenKeeps.refl, [_], rfl, fun htimely hdead => ⟨fun t ht hfamily => ?_, ?_⟩⟩
  · replace ht : t ∈ (Op.insert (clashes row) row).apply σ.shared.refreshTokens := ht
    rcases Table.mem_insert ht with hmem | rfl
    · exact hdead t hmem hfamily
    · exact absurd hdead (htimely _ List.mem_cons_self hfamily)
  · rintro step (_ | ⟨_, hstep⟩)
    · exact hdead
    · exact absurd hstep List.not_mem_nil

/-! ## The calls -/

/-- The family is dead, if every statement so far was timely. -/
def Ended (familyId : String) (σ : SessionLog) : Prop :=
  (∀ step ∈ σ.history, Timely familyId step) → Dead familyId σ.shared

theorem Ended.later (h : Ended familyId σ) (hrely : FamilyRely familyId σ τ) : Ended familyId τ := by
  intro htimely
  obtain ⟨new, hnew, hdead⟩ := hrely.dead
  rw [hnew, List.forall_mem_append] at htimely
  exact (hdead htimely.1 (h htimely.2)).1

/-- The family of a token is dead, if it is this one. -/
def EndedOf (hash familyId : String) (σ : SessionLog) : Prop :=
  ∃ t ∈ σ.shared.refreshTokens, t.tokenHash = hash ∧ (t.familyId = familyId → Ended familyId σ)

theorem EndedOf.later {hash : String} (h : EndedOf hash familyId σ) (hrely : FamilyRely familyId σ τ) :
    EndedOf hash familyId τ := by
  obtain ⟨t, ht, hhash, hended⟩ := h
  obtain ⟨t', ht', hbecame⟩ := hrely.keep t ht
  exact ⟨t', ht', hbecame.hash.trans hhash,
    fun hfamily => (hended (hbecame.family.symm.trans hfamily)).later hrely⟩

/-- A thread has taken a token. -/
def Took (hash : String) (i : Nat) (σ : SessionLog) : Prop :=
  ∃ step ∈ σ.own i, Takes (·.tokenHash = hash) step

theorem Took.later {hash : String} (h : Took hash i σ) (hrely : FamilyRely familyId σ τ) :
    Took hash i τ := by
  obtain ⟨step, hstep, htakes⟩ := h
  obtain ⟨new, hnew, -⟩ := hrely.dead
  exact ⟨step, Log.own_subset ⟨new, hnew.symm⟩ hstep, htakes⟩

/-- A thread has taken a token of the family and has not replaced it. -/
def Credit (familyId family : String) (i : Nat) (σ : SessionLog) : Prop :=
  family = familyId →
    insertions familyId (σ.own i) + 1 ≤ takings (·.familyId = familyId) (σ.own i)

theorem Credit.marks {family : String} {w : Write} (hw : Marks w) (h : Credit familyId family i σ)
    (hown : τ.own i = σ.own i) : Credit familyId family i (τ.perform exec i q w) := by
  intro hfamily
  rw [Log.own_perform_self, takings_cons, insertions_cons, if_neg (not_inserts_marks hw), hown]
  have := h hfamily
  omega

/-- A statement that marks tokens, and then the rest. -/
theorem safe_marks {α : Type} {w : Write} {next : World → Service α}
    {post : Except HttpException α → SessionLog → Prop} (hw : Marks w)
    (hnext : ∀ τ : SessionLog, FamilyRely familyId σ τ → τ.own i = σ.own i →
      FamilyInv familyId deviceId τ →
      (familyOutline jwt config hashSecret familyId deviceId).Safe i q post (next τ.shared)
        (τ.perform exec i q w)) :
    (familyOutline jwt config hashSecret familyId deviceId).Safe i q post (.stmt w next) σ :=
  fun τ hlater hτ => ⟨.marks hw τ, hτ.marks hw, hnext τ hlater.1 hlater.2 hτ⟩

/-- A program that only marks tokens. -/
theorem safe_only {α : Type} {p : Service α} (hp : p.Only Marks) :
    (familyOutline jwt config hashSecret familyId deviceId).Safe i q (fun _ _ => True) p σ :=
  Outline.Safe.of_only hp fun _ σ hw hσ => ⟨.marks hw σ, hσ.marks hw⟩

theorem only_markReplaced (replacesId : Option String) (replacedById : String) :
    (markReplaced replacesId replacedById).Only Marks := by
  unfold markReplaced
  split
  · trivial
  · refine .stmt (fun t => ⟨rfl, rfl, rfl, rfl, fun h => h, fun h => h⟩) fun w => ?_
    split <;> trivial

/-- A family is dead once its tokens have been revoked. -/
theorem safe_revokeFamily (family reason : String) :
    (familyOutline jwt config hashSecret familyId deviceId).Safe i q
      (fun _ τ => family = familyId → Ended familyId τ) (revokeFamily family reason) σ := by
  unfold revokeFamily
  rw [newDate_bind]
  refine safe_marks trivial fun τ _ _ _ => ?_
  refine safe_marks (fun t => ⟨rfl, rfl, rfl, rfl, fun _ => rfl, fun h => h⟩) fun υ _ _ _ => ?_
  rintro rfl - t ht hfamily
  obtain ⟨r, hr, rfl⟩ := Table.mem_update.mp ht
  split
  · rfl
  · rename_i hsel
    rw [if_neg hsel] at hfamily
    rw [decide_eq_true_eq, not_and] at hsel
    exact Option.isSome_iff_ne_none.mpr (hsel hfamily)

theorem safe_revokeDeviceSessions (device reason : String) :
    (familyOutline jwt config hashSecret familyId deviceId).Safe i q
      (fun _ τ => device = deviceId → Ended familyId τ) (revokeDeviceSessions device reason) σ := by
  unfold revokeDeviceSessions
  rw [newDate_bind]
  refine safe_marks trivial fun τ _ _ _ => ?_
  refine safe_marks (fun t => ⟨rfl, rfl, rfl, rfl, fun _ => rfl, fun h => h⟩) fun υ _ _ hυ => ?_
  rintro rfl - t ht hfamily
  obtain ⟨r, hr, rfl⟩ := Table.mem_update.mp ht
  split
  · rfl
  · rename_i hsel
    rw [if_neg hsel] at hfamily
    rw [decide_eq_true_eq, not_and] at hsel
    exact Option.isSome_iff_ne_none.mpr (hsel (hυ.device r hr hfamily))

/-- A new token is inserted for one that was taken. -/
theorem safe_issue {userId device family : String} {trusted : Bool} {replacesId : Option String}
    (hdevice : family = familyId → device = deviceId) (hcredit : Credit familyId family i σ) :
    (familyOutline jwt config hashSecret familyId deviceId).Safe i q (fun _ _ => True)
      (issue jwt config hashSecret userId device trusted family replacesId) σ := by
  unfold issue
  simp only [dateNow_bind, randomUUID_bind, Prog.perform_bind]
  refine safe_marks trivial fun τ _ hown _ => ?_
  replace hcredit := hcredit.marks (q := q) (w := .dateNow) trivial hown
  refine safe_marks trivial fun υ _ hown _ => ?_
  replace hcredit := hcredit.marks (q := q) (w := .dateNow) trivial hown
  refine safe_marks trivial fun φ _ hown _ => ?_
  replace hcredit := hcredit.marks (q := q) (w := .random) trivial hown
  refine safe_marks trivial fun ψ _ hown _ => ?_
  replace hcredit := hcredit.marks (q := q) (w := .api .random) trivial hown
  intro χ hlater hχ
  refine ⟨FamilyRely.insert _ χ, hχ.insert hdevice fun hfamily => ?_, ?_⟩
  · rw [hlater.2]
    exact hcredit hfamily
  dsimp only
  split
  · trivial
  · -- The token that was taken is told of its successor.
    exact safe_only ((only_markReplaced ..).bind fun _ => trivial)

/-- What a rotation has come to. -/
def rotatePost (hash familyId : String) (i : Nat) :
    Except HttpException RotationOutcome → SessionLog → Prop
  | .ok (.ok _), σ => Took hash i σ
  | .ok (.error (.reuseDetected, _)), σ => EndedOf hash familyId σ
  | .ok (.error (.revoked, _)), σ => EndedOf hash familyId σ
  | _, _ => True

theorem rotatePost_later {hash : String} {r : Except HttpException RotationOutcome}
    (h : rotatePost hash familyId i r σ) (hrely : FamilyRely familyId σ τ) :
    rotatePost hash familyId i r τ :=
  match r, h with
  | .ok (.ok _), h => Took.later h hrely
  | .ok (.error (.reuseDetected, _)), h => EndedOf.later h hrely
  | .ok (.error (.revoked, _)), h => EndedOf.later h hrely
  | .ok (.error (.invalid, _)), _ => trivial
  | .ok (.error (.expired, _)), _ => trivial
  | .error _, _ => trivial

/-- The family of a token that is in the table is revoked, and the call is over. -/
theorem safe_endFamily {α : Type} {existing : RefreshTokenRow} {reason : String} {a : α}
    {post : Except HttpException α → SessionLog → Prop} (hσ : FamilyInv familyId deviceId σ)
    (hseen : ∃ t ∈ σ.shared.refreshTokens, TokenKeeps existing t)
    (hpost : ∀ τ, EndedOf existing.tokenHash familyId τ → post (.ok a) τ)
    (hraise : ∀ e τ, post (.error e) τ) :
    (familyOutline jwt config hashSecret familyId deviceId).Safe i q post
      (revokeFamily existing.familyId reason >>= fun _ => .done a) σ := by
  refine (safe_revokeFamily _ _).bind hσ (fun _ τ hrely _ hended => ?_) fun e τ _ _ _ => hraise e τ
  obtain ⟨t, ht, hbecame⟩ := hseen
  obtain ⟨t', ht', hbecame'⟩ := hrely.keep t ht
  have hkeep := hbecame.trans hbecame'
  exact hpost τ ⟨t', ht', hkeep.hash, fun hfamily => hended (hkeep.family.symm.trans hfamily)⟩

/-- The statement by which a rotation takes a token. -/
abbrev taking (existing : RefreshTokenRow) (now : Date) : Write :=
  .refreshTokens (.update (fun t => t.id = existing.id ∧ t.rotatedAt = none ∧ t.revokedAt = none)
    fun t => { t with rotatedAt := some now })

theorem marks_taking (existing : RefreshTokenRow) (now : Date) : Marks (taking existing now) :=
  fun _ => ⟨rfl, rfl, rfl, rfl, fun h => h, fun _ => rfl⟩

/-- It takes the token, if it finds it alive. -/
theorem takes_taking {p : RefreshTokenRow → Prop} {existing t : RefreshTokenRow} {s : World} {now : Date}
    (ht : t ∈ s.refreshTokens) (hid : t.id = existing.id) (hlive : t.Live) (hp : p t) :
    Takes p ⟨i, q, taking existing now, s⟩ := by
  have hsel : decide (t.id = existing.id ∧ t.rotatedAt = none ∧ t.revokedAt = none) = true :=
    decide_eq_true ⟨hid, hlive⟩
  exact ⟨t, ht, hp, hlive, { t with rotatedAt := some now },
    Table.mem_update.mpr ⟨t, ht, (if_pos hsel).symm⟩, rfl, rfl⟩

theorem safe_exchange {existing : RefreshTokenRow} {device : DeviceRow}
    (hseen : ∃ t ∈ σ.shared.refreshTokens, TokenKeeps existing t) :
    (familyOutline jwt config hashSecret familyId deviceId).Safe i q
      (rotatePost existing.tokenHash familyId i) (exchange jwt config hashSecret existing device) σ := by
  obtain ⟨t, ht, hbecame⟩ := hseen
  unfold exchange
  rw [newDate_bind]
  refine safe_marks trivial fun τ hrely _ _ => ?_
  obtain ⟨t', ht', hbecame'⟩ := hrely.keep t ht
  replace hbecame := hbecame.trans hbecame'
  rw [Prog.perform_bind]
  intro υ hlater hυ
  obtain ⟨t'', ht'', hbecame''⟩ := hlater.1.keep t' ht'
  replace hbecame := hbecame.trans hbecame''
  have hmarks := marks_taking existing τ.shared.api.clock
  refine ⟨.marks hmarks υ, hυ.marks hmarks, ?_⟩
  dsimp only
  split
  · -- The token was used or revoked after it had been read.
    refine safe_endFamily (hυ.marks hmarks) ?_ (fun τ h => h) fun _ _ => trivial
    have hkept : FamilyRely familyId υ (υ.perform exec i q _) := .marks hmarks υ
    obtain ⟨r, hr, hkeep⟩ := hkept.keep t'' ht''
    exact ⟨r, hr, hbecame.trans hkeep⟩
  · rename_i hcount
    obtain ⟨r, hr⟩ := List.exists_mem_of_length_pos (Nat.pos_of_ne_zero hcount)
    obtain ⟨hr, hsel⟩ := List.mem_filter.mp hr
    obtain ⟨hid, hlive⟩ := of_decide_eq_true hsel
    obtain rfl : r = t'' := Table.eq_of_key hυ.ids hr ht'' (hid.trans hbecame.id.symm)
    have htook : Took existing.tokenHash i (υ.perform exec i q (taking existing τ.shared.api.clock)) := by
      refine ⟨⟨i, q, taking existing τ.shared.api.clock, υ.shared⟩, ?_,
        takes_taking hr hid hlive hbecame.hash⟩
      rw [Log.own_perform_self]
      exact List.mem_cons_self
    have hcredit : Credit familyId existing.familyId i
        (υ.perform exec i q (taking existing τ.shared.api.clock)) := by
      intro hfamily
      rw [Log.own_perform_self, takings_cons, insertions_cons, if_neg (not_inserts_marks hmarks),
        if_pos (takes_taking hr hid hlive (hbecame.family.trans hfamily))]
      have := hυ.balanced i
      omega
    have hdevice : existing.familyId = familyId → existing.deviceId = deviceId := fun hfamily =>
      hbecame.device.symm.trans (hυ.device r hr (hbecame.family.trans hfamily))
    exact (safe_issue hdevice hcredit).bind (hυ.marks hmarks)
      (fun tokens φ hrely _ _ => htook.later hrely) fun e φ _ _ _ => trivial

/-- **One rotation.** -/
theorem safe_rotate {presentedToken : String} :
    (familyOutline jwt config hashSecret familyId deviceId).Safe i q
      (rotatePost (hashSecret presentedToken) familyId i)
      (rotate jwt config hashSecret presentedToken) σ := by
  unfold rotate
  rw [select_bind]
  refine safe_marks trivial fun τ _ _ hτ => ?_
  cases hfind : (τ.shared.refreshTokens.find? (·.tokenHash = hashSecret presentedToken)).bind fun t =>
      (findDevice t.deviceId τ.shared).map (t, ·) with
  | none => trivial
  | some found =>
    obtain ⟨existing, device⟩ := found
    obtain ⟨existing', hexisting, hdevice⟩ := Option.bind_eq_some_iff.mp hfind
    obtain ⟨device', -, heq⟩ := Option.map_eq_some_iff.mp hdevice
    cases heq
    have hmem := List.mem_of_find?_eq_some hexisting
    have hhash : existing.tokenHash = hashSecret presentedToken := by
      simpa using List.find?_some hexisting
    rw [← hhash]
    have hτ' := hτ.marks (i := i) (q := q) (w := .select .refreshTokens) trivial
    dsimp only
    split
    · exact safe_endFamily hτ' ⟨existing, hmem, .refl existing⟩ (fun υ h => h) fun _ _ => trivial
    rw [dateNow_bind]
    refine safe_marks trivial fun υ hrely _ hυ => ?_
    have hseen := hrely.keep existing hmem
    have hυ' := hυ.marks (i := i) (q := q) (w := .dateNow) trivial
    split
    · trivial
    split
    · exact safe_endFamily hυ' hseen (fun φ h => h) fun _ _ => trivial
    · exact safe_exchange hseen

/-- The call ends the sessions of the family: a token of it was presented to be signed out, or found to be
reused or on a revoked device; or the family is revoked, or its device. -/
def Ends (hashSecret : String → String) (familyId deviceId : String) (w : World) :
    SessionCall → SessionAnswer → Prop
  | .rotate token, .rotated (.error (fault, _)) =>
    (fault = .reuseDetected ∨ fault = .revoked) ∧
      ∃ t ∈ w.refreshTokens, t.tokenHash = hashSecret token ∧ t.familyId = familyId
  | .revokeByToken token _, .found true =>
    ∃ t ∈ w.refreshTokens, t.tokenHash = hashSecret token ∧ t.familyId = familyId
  | .revokeFamily family _, _ => family = familyId
  | .revokeDeviceSessions device _, _ => device = deviceId
  | _, _ => False

/-- What a call has come to. -/
def sessionPost (hashSecret : String → String) (familyId deviceId : String) (i : Nat) :
    SessionCall → Except HttpException SessionAnswer → SessionLog → Prop
  | .rotate token, .ok (.rotated outcome), σ => rotatePost (hashSecret token) familyId i (.ok outcome) σ
  | .revokeByToken token _, .ok (.found true), σ => EndedOf (hashSecret token) familyId σ
  | .revokeFamily family _, .ok _, σ => family = familyId → Ended familyId σ
  | .revokeDeviceSessions device _, .ok _, σ => device = deviceId → Ended familyId σ
  | _, _, _ => True

theorem stable_sessionPost (i : Nat) (q : SessionCall) :
    (familyOutline jwt config hashSecret familyId deviceId).Stable i
      (sessionPost hashSecret familyId deviceId i q) := by
  intro r σ τ hlater hpost
  have hrely : FamilyRely familyId σ τ := hlater.1
  unfold sessionPost at hpost
  split at hpost
  · exact rotatePost_later hpost hrely
  · exact EndedOf.later hpost hrely
  · exact fun h => (hpost h).later hrely
  · exact fun h => (hpost h).later hrely
  · rename_i hrotate htoken hfamily hdevice
    unfold sessionPost
    split
    · exact (hrotate _ _ rfl rfl).elim
    · exact (htoken _ _ rfl rfl).elim
    · exact (hfamily _ _ _ rfl rfl).elim
    · exact (hdevice _ _ _ rfl rfl).elim
    · trivial

theorem safe_sessionHandler (hσ : FamilyInv familyId deviceId σ) :
    (familyOutline jwt config hashSecret familyId deviceId).Safe i q
      (sessionPost hashSecret familyId deviceId i q) (sessionHandler jwt config hashSecret q) σ := by
  cases q with
  | rotate token =>
    exact safe_rotate.bind hσ (fun outcome τ _ _ hpost => hpost) fun e τ _ _ _ => trivial
  | revokeByToken token reason =>
    show (familyOutline jwt config hashSecret familyId deviceId).Safe i _ _ (_ <$> revokeByToken ..) σ
    unfold revokeByToken
    rw [Prog.map_eq, select_bind, Prog.stmt_bind]
    refine safe_marks trivial fun τ _ _ hτ => ?_
    split
    · trivial
    · rename_i existing hfind
      rw [Prog.bind_assoc]
      have hhash : existing.tokenHash = hashSecret token := by simpa using List.find?_some hfind
      refine safe_endFamily (hτ.marks trivial) ⟨existing, List.mem_of_find?_eq_some hfind, .refl existing⟩
        (fun υ h => ?_) fun _ _ => trivial
      rw [hhash] at h
      exact h
  | revokeFamily family reason =>
    exact (safe_revokeFamily family reason).bind hσ (fun _ τ _ _ hpost => hpost) fun e τ _ _ _ => trivial
  | revokeDeviceSessions device reason =>
    exact (safe_revokeDeviceSessions device reason).bind hσ (fun _ τ _ _ hpost => hpost)
      fun e τ _ _ _ => trivial

/-! ## Whole runs -/

theorem sessionRun_append (w : World) (before after : List (Move SessionCall World)) :
    sessionRun jwt config hashSecret w (before ++ after) =
      Run.run (sessionMachine jwt config hashSecret).step after
        (sessionRun jwt config hashSecret w before) :=
  Run.run_append ..

/-- The tokens of a family as they may be when a run starts. -/
structure FamilyStart (familyId deviceId : String) (w : World) : Prop where
  ids : (w.refreshTokens.map (·.id)).Nodup
  hashes : (w.refreshTokens.map (·.tokenHash)).Nodup
  device : ∀ t ∈ w.refreshTokens, t.familyId = familyId → t.deviceId = deviceId
  one : live familyId w ≤ 1

theorem FamilyStart.inv {w : World} (h : FamilyStart familyId deviceId w) :
    FamilyInv familyId deviceId ⟨w, []⟩ where
  ids := h.ids
  hashes := h.hashes
  device := h.device
  past _ hstep := absurd hstep List.not_mem_nil
  counted := h.one
  balanced _ := Nat.le_refl 0
  once _ := Nat.zero_le 1
  taken _ hpos := absurd hpos (Nat.lt_irrefl 0)

theorem good_sessionRun {c : Config World Write HttpException SessionCall SessionAnswer}
    (hc : (familyOutline jwt config hashSecret familyId deviceId).Good
      (sessionPost hashSecret familyId deviceId) c) (moves : List (Move SessionCall World)) :
    (familyOutline jwt config hashSecret familyId deviceId).Good (sessionPost hashSecret familyId deviceId)
        (Run.run (sessionMachine jwt config hashSecret).step moves c) ∧
      FamilyRely familyId c.log (Run.run (sessionMachine jwt config hashSecret).step moves c).log :=
  Outline.sound stable_sessionPost (fun _ _ _ hσ _ => safe_sessionHandler hσ) moves hc

/-- What is taken or inserted is taken or inserted by some thread. -/
theorem FamilyInv.live_le (h : FamilyInv familyId deviceId σ) {n : Nat}
    (hthreads : ∀ step ∈ σ.history, step.thread < n) : live familyId σ.shared ≤ 1 := by
  have hbalance : insertions familyId σ.history ≤ takings (·.familyId = familyId) σ.history :=
    Log.countP_history_le σ hthreads fun i _ => h.balanced i
  have := h.counted
  omega

/-- Two threads have not taken one token. -/
theorem FamilyInv.took_once (h : FamilyInv familyId deviceId σ) {hash : String} {j : Nat}
    (hi : Took hash i σ) (hj : Took hash j σ) : i = j := by
  by_contra hij
  have hpos : ∀ {k}, Took hash k σ → 0 < takings (·.tokenHash = hash) (σ.own k) := by
    rintro k ⟨step, hstep, htakes⟩
    exact List.countP_pos_iff.mpr ⟨step, hstep, decide_eq_true htakes⟩
  have hle : takings (·.tokenHash = hash) (σ.own i) + takings (·.tokenHash = hash) (σ.own j) ≤
      takings (·.tokenHash = hash) σ.history := Log.countP_own_add_le σ _ hij
  have honce := h.once hash
  have hi' := hpos hi
  have hj' := hpos hj
  omega

/-- The call that ended the family has left it dead. -/
theorem ended_of_ends {c : Config World Write HttpException SessionCall SessionAnswer}
    (hc : (familyOutline jwt config hashSecret familyId deviceId).Good
      (sessionPost hashSecret familyId deviceId) c) {a : SessionAnswer} (ha : c.Answered i q a)
    (hends : Ends hashSecret familyId deviceId c.log.shared q a) : Ended familyId c.log := by
  have hpost := hc.answered ha
  have hof : ∀ {token}, EndedOf (hashSecret token) familyId c.log →
      (∃ t ∈ c.log.shared.refreshTokens, t.tokenHash = hashSecret token ∧ t.familyId = familyId) →
        Ended familyId c.log := by
    rintro token ⟨t, ht, hhash, hended⟩ ⟨t', ht', hhash', hfamily⟩
    obtain rfl : t = t' := Table.eq_of_key hc.inv.hashes ht ht' (hhash.trans hhash'.symm)
    exact hended hfamily
  unfold Ends at hends
  split at hends
  · rename_i token fault user
    obtain ⟨hfault, hbelongs⟩ := hends
    rcases hfault with rfl | rfl
    · exact hof hpost hbelongs
    · exact hof hpost hbelongs
  · exact hof hpost hends
  · exact hpost hends
  · exact hpost hends
  · exact hends.elim

/-- **The safety of a family of refresh tokens.** In every run of rotations and revocations: at most one
token of the family is neither used nor revoked; of the calls that present one token at most one gets new
tokens for it; and once the family has been ended no token of it is exchanged, as long as no rotation
inserts its new token after the family's tokens have been revoked: whoever has exchanged one had taken it
before that end. -/
theorem family_safe (jwt : Jwt) (config : SessionConfig) (hashSecret : String → String)
    (familyId deviceId : String) (w : World) (hw : FamilyStart familyId deviceId w)
    (before after : List (Move SessionCall World)) :
    let ended := sessionRun jwt config hashSecret w before
    let c := Run.run (sessionMachine jwt config hashSecret).step after ended
    live familyId c.log.shared ≤ 1 ∧
    (∀ i j token token' tokens tokens', hashSecret token = hashSecret token' →
      c.Answered i (.rotate token) (.rotated (.ok tokens)) →
      c.Answered j (.rotate token') (.rotated (.ok tokens')) → i = j) ∧
    ((∀ step ∈ c.log.history, Timely familyId step) →
      ∀ i q a, ended.Answered i q a → Ends hashSecret familyId deviceId ended.log.shared q a →
        ∀ j token tokens, c.Answered j (.rotate token) (.rotated (.ok tokens)) →
          (∃ t ∈ c.log.shared.refreshTokens, t.tokenHash = hashSecret token ∧ t.familyId = familyId) →
          Took (hashSecret token) j ended.log) := by
  intro ended c
  obtain ⟨hended, -⟩ := @good_sessionRun jwt config hashSecret familyId deviceId _
    (Outline.good_initial hw.inv) before
  obtain ⟨hc, hrely⟩ := good_sessionRun hended after
  refine ⟨hc.inv.live_le hc.threads, fun i j token token' tokens tokens' heq hi hj => ?_,
    fun htimely i q a ha hends j token tokens hj hbelongs => ?_⟩
  · have hi' : Took (hashSecret token) i c.log := hc.answered hi
    have hj' : Took (hashSecret token') j c.log := hc.answered hj
    rw [← heq] at hj'
    exact hc.inv.took_once hi' hj'
  · obtain ⟨new, hnew, hdead⟩ := hrely.dead
    have htook : Took (hashSecret token) j c.log := hc.answered hj
    obtain ⟨step, hstep, htakes⟩ := htook
    obtain ⟨hmem, hthread⟩ := List.mem_filter.mp hstep
    replace hmem : step ∈ c.log.history := hmem
    have htimely' := htimely
    rw [hnew, List.forall_mem_append] at htimely'
    have hwas : Dead familyId ended.log.shared := ended_of_ends hended ha hends htimely'.2
    rw [hnew] at hmem
    rcases List.mem_append.mp hmem with hlate | hearly
    · -- It would have been taken from a dead family.
      exfalso
      obtain ⟨t, ht, hhash, hlive, -⟩ := htakes
      obtain ⟨t', ht', hbecame⟩ := hc.inv.past step (hnew ▸ List.mem_append_left _ hlate) t ht
      obtain ⟨t'', ht'', hhash', hfamily⟩ := hbelongs
      obtain rfl : t' = t'' :=
        Table.eq_of_key hc.inv.hashes ht' ht'' ((hbecame.hash.trans hhash).trans hhash'.symm)
      exact hlive.not_revoked
        ((hdead htimely'.1 hwas).2 step hlate t ht (hbecame.family.symm.trans hfamily))
    · exact ⟨step, List.mem_filter.mpr ⟨hearly, hthread⟩, htakes⟩

/-! ## A rotation that is under way at a sign-out -/

/-- SHA-256 of three tokens. -/
def plainHash (secret : String) : String :=
  if secret = "first-refresh-token" then
    "19f7c4fff0f0934bf6fb373e2a1c8f67fd8ce794f17841997590a5c0a962f44a"
  else if secret = "second-refresh-token" then
    "5f3c0f80680ef6ce47c8351a008ca1107c2a26a52ae7e83b0eb6385a7f693faa"
  else "45d3bfd8a8cae97a5ebc8fc4e2293e033c5c5973d662d5d58aade78918d361aa"

/-- A signer that signs at the first moment. -/
def plainJwt : Jwt where
  sign _ _ _ := "eyJhbGciOiJIUzI1NiIsInR5cCI6IkpXVCJ9.eyJzdWIiOiJ1MSIsImRpZCI6ImQxIiwidHJ1c3RlZCI6dHJ1ZSwi" ++
    "aWF0IjowLCJleHAiOjkwMH0.GunVdby37mGyvqKxHLjS-Kdc7jakfzJPieeOFt4aRyg"
  verify _ _ := some ⟨"u1", "d1", true⟩

/-- The device of `plainWorld` is signed in with its first token. -/
def signedIn : World :=
  { plainWorld with
    refreshTokens := [⟨"t1", "u1", "d1", plainHash "first-refresh-token", "f1", 2592000000, none, none, none,
      none⟩]
    secret := "second-refresh-token" }

/-- The next token to be drawn. -/
def thirdToken : World :=
  { signedIn with
    api := { signedIn.api with uuid := ⟨"v", by decide⟩ }
    secret := "third-refresh-token" }

/-- A run from the first token on. -/
abbrev plainSessions (moves : List (Move SessionCall World)) :
    Config World Write HttpException SessionCall SessionAnswer :=
  sessionRun plainJwt ⟨900, 30, 1⟩ plainHash signedIn moves

/-- The first token is rotated, and then the second one is signed out. -/
def signOutAfter : List (Move SessionCall World) :=
  Move.call (.rotate "first-refresh-token") :: List.replicate 10 (Move.step 0) ++
    Move.call (.revokeByToken "second-refresh-token" "user_signed_out") :: List.replicate 3 (Move.step 1)

/-- A rotation takes the first token, and then the token is signed out. -/
def signOutBetween : List (Move SessionCall World) :=
  Move.call (.rotate "first-refresh-token") :: List.replicate 4 (Move.step 0) ++
    Move.call (.revokeByToken "first-refresh-token" "user_signed_out") :: List.replicate 3 (Move.step 1)

/-- The second token is presented. -/
def presentSecond : List (Move SessionCall World) :=
  .env thirdToken :: .call (.rotate "second-refresh-token") :: List.replicate 10 (.step 2)

theorem signedIn_start : FamilyStart "f1" "d1" signedIn where
  ids := by simp [signedIn]
  hashes := by simp [signedIn]
  device := by decide
  one := by decide

/-- A session that was signed out between two rotations is over. -/
theorem family_safe_signOutAfter :
    (plainSessions signOutAfter).Answered 1 (.revokeByToken "second-refresh-token" "user_signed_out")
        (.found true) ∧
      ¬ ∃ tokens, (plainSessions (signOutAfter ++ presentSecond)).Answered 2 (.rotate "second-refresh-token")
        (.rotated (.ok tokens)) := by
  have hanswered : (plainSessions signOutAfter).Answered 1
      (.revokeByToken "second-refresh-token" "user_signed_out") (.found true) := rfl
  refine ⟨hanswered, fun ⟨tokens, htokens⟩ => ?_⟩
  obtain ⟨-, -, hended⟩ := family_safe plainJwt ⟨900, 30, 1⟩ plainHash "f1" "d1" signedIn signedIn_start
    signOutAfter presentSecond
  rw [← sessionRun_append] at hended
  obtain ⟨step, hstep, -⟩ := hended (by decide +kernel) 1 _ _ hanswered
    (show ∃ t ∈ _, _ by decide +kernel) 2 _ _ htokens (by decide +kernel)
  -- The second rotation had not begun when the session was signed out.
  have hnone : ∀ step ∈ (plainSessions signOutAfter).log.history, step.thread ≠ 2 := by decide +kernel
  obtain ⟨hmem, hthread⟩ := List.mem_filter.mp hstep
  exact hnone step hmem (of_decide_eq_true hthread)

/-- A session goes on that was signed out during a rotation. -/
theorem exchanged_after_logout :
    let ended := plainSessions signOutBetween
    let c := plainSessions (signOutBetween ++ (List.replicate 6 (.step 0) ++ presentSecond))
    ended.Answered 1 (.revokeByToken "first-refresh-token" "user_signed_out") (.found true) ∧
      (∃ tokens, c.Answered 2 (.rotate "second-refresh-token") (.rotated (.ok tokens))) ∧
      (∃ t ∈ c.log.shared.refreshTokens, t.tokenHash = plainHash "second-refresh-token" ∧ t.familyId = "f1") ∧
      ¬ Took (plainHash "second-refresh-token") 2 ended.log := by
  refine ⟨rfl, ⟨_, rfl⟩, by decide +kernel, ?_⟩
  rintro ⟨step, hstep, -⟩
  exact absurd hstep List.not_mem_nil

end Account
