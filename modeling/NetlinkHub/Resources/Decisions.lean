import NetlinkHub.Resources.OneSpace

/-! # Only the owner turns sharing on

A resource is enabled only if the owner's last decision about its agent, kind and target was to enable it:
no report sets the flag. Whether a folder is read-only is another matter, as it is kept in the metadata, which
a report replaces whole. Exactly in the runs in which no report does so to a read-only folder (`Loosens`), a
folder that the owner last approved as read-only is treated as such (`owner_decides_iff`). -/

namespace Resources

open Account (AgentPrincipal)
open Api (HttpException RequestContext)
open Concurrent (Config Machine Move Prog Step Upholds)
open Table (Op)

/-! ## Decisions -/

/-- What an owner has decided about a resource: whether it is enabled, and for an approval whether it is
read-only. -/
structure Decision where
  key : ResourceKey
  enabled : Bool
  readOnly : Option Bool
  deriving DecidableEq, Repr

/-- The upsert finds a resource, or can create one. -/
def World.takes (w : World) (create : ResourceRow) : Bool :=
  w.resources.any (·.key = create.key) || w.admitsResource create

/-- What an approval decides. -/
def Request.approval : Request → Option Decision
  | approveFolder _ _ input _ => some ⟨⟨input.agentId, .folder, input.path⟩, true, some input.readOnly⟩
  | _ => none

/-- What a change of sharing decides about the resource that it finds. -/
def Request.switch (w : World) : Request → Option Decision
  | setResourceEnabled _ _ resourceId enabled _ =>
    (w.resources.find? (·.id = resourceId)).map fun r => ⟨r.key, enabled, none⟩
  | _ => none

/-- The decision of an owner that a statement carries out. -/
def decision (step : ResourcesStep) : Option Decision :=
  match step.write with
  | .upsertResource create _ => if step.before.takes create then step.request.approval else none
  | .enableResource _ _ => step.request.switch step.before
  | _ => none

/-- All decisions, newest first: those of a run, and those before it. -/
def decided (earlier : List Decision) (history : List ResourcesStep) : List Decision :=
  (history.flatMap fun step => (decision step).toList) ++ earlier

/-- Whether the last decision about a resource was to enable it. -/
def lastEnabled (key : ResourceKey) : List Decision → Option Bool
  | [] => none
  | d :: ds => if d.key = key then some d.enabled else lastEnabled key ds

/-- Whether a folder was last approved as read-only. -/
def lastReadOnly (key : ResourceKey) : List Decision → Option Bool
  | [] => none
  | d :: ds => if d.key = key then d.readOnly <|> lastReadOnly key ds else lastReadOnly key ds

/-- The resources are as the owner has decided. -/
structure Obeys (ds : List Decision) (w : World) : Prop where
  enabled : ∀ r ∈ w.resources, r.enabled → lastEnabled r.key ds = some true
  readOnly : ∀ r ∈ w.resources, r.kind = .folder → lastReadOnly r.key ds = some true → isReadOnly r.metadata

/-- The resources are keyed, and known where something was decided. -/
structure Tracks (ds : List Decision) (w : World) : Prop extends Obeys ds w where
  ids : (w.resources.map (·.id)).Nodup
  keys : (w.resources.map (·.key)).Nodup
  known : ∀ d ∈ ds, ∃ r ∈ w.resources, r.key = d.key

/-- A report replaces the metadata of a read-only folder by some that does not say so. -/
def Loosens (step : ResourcesStep) : Prop :=
  match step.request, step.write with
  | .reportResources .., .upsertResource create update => update.metadata.isSome ∧ ¬ isReadOnly update.metadata ∧
      ∃ r ∈ step.before.resources, r.key = create.key ∧ r.kind = .folder ∧ isReadOnly r.metadata
  | _, _ => False

instance : DecidablePred Loosens := fun step => by
  unfold Loosens
  split <;> infer_instance

/-- The statement enables no resource, and makes no read-only folder writable. -/
structure Quiet (step : ResourcesStep) : Prop where
  enabled : ∀ r' ∈ (exec step.write step.before).resources, r'.enabled →
    ∃ r ∈ step.before.resources, r.key = r'.key ∧ r.enabled
  readOnly : ∀ r ∈ step.before.resources, r.kind = .folder → isReadOnly r.metadata →
    ∀ r' ∈ (exec step.write step.before).resources, r'.key = r.key → isReadOnly r'.metadata

variable {q : Request} {hashSecret : String → String} {s t : World} {w : Write} {ds : List Decision}
  {d : Decision} {i : Nat} {create : ResourceRow} {update : ResourceUpdate} {r r' : ResourceRow}

theorem decided_cons (earlier : List Decision) (step : ResourcesStep) (history : List ResourcesStep) :
    decided earlier (step :: history) = (decision step).toList ++ decided earlier history := by
  simp only [decided, List.flatMap_cons, List.append_assoc]

/-! ## Upserts -/

@[simp] theorem ResourceUpdate.key_apply (u : ResourceUpdate) (r : ResourceRow) : (u.apply r).key = r.key := rfl

@[simp] theorem ResourceUpdate.id_apply (u : ResourceUpdate) (r : ResourceRow) : (u.apply r).id = r.id := rfl

theorem ResourceRow.key_switched (enabled : Bool) (r : ResourceRow) : (r.switched enabled).key = r.key := rfl

theorem ResourceRow.id_switched (enabled : Bool) (r : ResourceRow) : (r.switched enabled).id = r.id := rfl

/-- What an upsert leaves: other resources, and the one of its key, updated or new. -/
theorem mem_upsert (h : r' ∈ (exec (.upsertResource create update) s).resources) :
    r' ∈ s.resources ∧ r'.key ≠ create.key ∨
      (∃ r ∈ s.resources, r.key = create.key ∧ r' = update.apply r) ∨
      r' = create ∧ ¬ s.resources.any (·.key = create.key) ∧ s.admitsResource create := by
  simp only [exec] at h
  split at h
  · obtain ⟨r, hr, rfl⟩ := Table.mem_update.mp h
    split
    · rename_i hkey
      exact .inr (.inl ⟨r, hr, of_decide_eq_true hkey, rfl⟩)
    · rename_i hkey
      exact .inl ⟨hr, of_decide_eq_false (eq_false_of_ne_true hkey)⟩
  rename_i hnone
  have hother : ∀ r ∈ s.resources, r.key ≠ create.key := fun r hr hkey =>
    hnone (List.any_eq_true.mpr ⟨r, hr, decide_eq_true hkey⟩)
  split at h
  · rename_i hadmits
    rcases List.mem_append.mp h with h | h
    · exact .inl ⟨h, hother r' h⟩
    · exact .inr (.inr ⟨List.mem_singleton.mp h, hnone, hadmits⟩)
  · exact .inl ⟨h, hother r' h⟩

/-- An upsert keeps the keys. -/
theorem nodup_upsert (create : ResourceRow) (update : ResourceUpdate)
    (hids : (s.resources.map (·.id)).Nodup) (hkeys : (s.resources.map (·.key)).Nodup) :
    ((exec (.upsertResource create update) s).resources.map (·.id)).Nodup ∧
      ((exec (.upsertResource create update) s).resources.map (·.key)).Nodup := by
  simp only [exec]
  split
  · constructor
    · show (((Op.update _ update.apply).apply s.resources).map (·.id)).Nodup
      rw [Table.map_update update.id_apply]
      exact hids
    · show (((Op.update _ update.apply).apply s.resources).map (·.key)).Nodup
      rw [Table.map_update update.key_apply]
      exact hkeys
  split
  · rename_i hnone hadmits
    have hfree : ¬ s.resources.any (·.id = create.id) := (of_decide_eq_true hadmits).1
    constructor
    · have h : (((Op.insert (·.id = create.id) create).apply s.resources).map (·.id)).Nodup :=
        Table.nodup_insert (fun r hr => decide_eq_true hr) hids
      rwa [Table.apply_insert, if_neg hfree] at h
    · have h : (((Op.insert (·.key = create.key) create).apply s.resources).map (·.key)).Nodup :=
        Table.nodup_insert (fun r hr => decide_eq_true hr) hkeys
      rwa [Table.apply_insert, if_neg hnone] at h
  · exact ⟨hids, hkeys⟩

/-- A resource that is there stays there under its key. -/
theorem key_upsert (create : ResourceRow) (update : ResourceUpdate) (h : r ∈ s.resources) :
    ∃ r' ∈ (exec (.upsertResource create update) s).resources, r'.key = r.key := by
  simp only [exec]
  split
  · refine ⟨_, Table.mem_update.mpr ⟨r, h, rfl⟩, ?_⟩
    split <;> rfl
  split
  · exact ⟨r, List.mem_append_left _ h, rfl⟩
  · exact ⟨r, h, rfl⟩

/-! ## What a statement decides -/

theorem lastReadOnly_mem {key : ResourceKey} {b : Bool} (h : lastReadOnly key ds = some b) :
    ∃ d ∈ ds, d.key = key := by
  induction ds with
  | nil => cases h
  | cons d ds ih =>
    by_cases hkey : d.key = key
    · exact ⟨d, List.mem_cons_self, hkey⟩
    · rw [lastReadOnly, if_neg hkey] at h
      obtain ⟨d', hd', hkey'⟩ := ih h
      exact ⟨d', List.mem_cons_of_mem _ hd', hkey'⟩

theorem Obeys.congr (h : Obeys ds s) (heq : t.resources = s.resources) : Obeys ds t :=
  ⟨heq ▸ h.enabled, heq ▸ h.readOnly⟩

theorem Tracks.congr (h : Tracks ds s) (heq : t.resources = s.resources) : Tracks ds t where
  toObeys := h.toObeys.congr heq
  ids := heq ▸ h.ids
  keys := heq ▸ h.keys
  known := heq ▸ h.known

/-- **A report decides nothing**, and keeps to the decisions unless it replaces the metadata of a read-only
folder. -/
theorem Tracks.report (h : Tracks ds s) (henabled : create.enabled = false) (hkeep : update.enabled = none)
    (hloosens : ∀ r ∈ s.resources, r.key = create.key → r.kind = .folder → isReadOnly r.metadata →
      update.metadata.isSome → isReadOnly update.metadata) :
    Tracks ds (exec (.upsertResource create update) s) := by
  obtain ⟨hids, hkeys⟩ := nodup_upsert create update h.ids h.keys
  refine ⟨⟨fun r' hr' hon => ?_, fun r' hr' hkind hlast => ?_⟩, hids, hkeys, fun d hd => ?_⟩
  · rcases mem_upsert hr' with ⟨hr, -⟩ | ⟨r, hr, -, rfl⟩ | ⟨rfl, -, -⟩
    · exact h.enabled r' hr hon
    · have hsame : (update.apply r).enabled = r.enabled := by
        simp only [ResourceUpdate.apply, hkeep, Option.getD_none]
      exact h.enabled r hr (hsame ▸ hon)
    · rw [henabled] at hon
      cases hon
  · rcases mem_upsert hr' with ⟨hr, -⟩ | ⟨r, hr, hkey, rfl⟩ | ⟨rfl, hnone, -⟩
    · exact h.readOnly r' hr hkind hlast
    · have hbefore : isReadOnly r.metadata = true := h.readOnly r hr hkind hlast
      show isReadOnly (update.metadata <|> r.metadata) = true
      cases hmetadata : update.metadata with
      | none => exact hbefore
      | some fields =>
        have hreadOnly := hloosens r hr hkey hkind hbefore (by rw [hmetadata]; rfl)
        rw [hmetadata] at hreadOnly
        exact hreadOnly
    · -- What was approved is there, so this resource is not new.
      obtain ⟨d, hd, hkey⟩ := lastReadOnly_mem hlast
      obtain ⟨r, hr, hkey'⟩ := h.known d hd
      exact absurd (List.any_eq_true.mpr ⟨r, hr, decide_eq_true (hkey'.trans hkey)⟩) hnone
  · obtain ⟨r, hr, hkey⟩ := h.known d hd
    obtain ⟨r', hr', hkey'⟩ := key_upsert create update hr
    exact ⟨r', hr', hkey'.trans hkey⟩

/-- **An approval is a decision.** -/
theorem Tracks.approve (h : Tracks ds s) (htakes : s.takes create) (hkey : create.key = d.key)
    (hon : d.enabled = true)
    (hcreate : lastReadOnly d.key (d :: ds) = some true → isReadOnly create.metadata)
    (hupdate : ∀ r, lastReadOnly d.key (d :: ds) = some true → isReadOnly (update.apply r).metadata) :
    Tracks (d :: ds) (exec (.upsertResource create update) s) := by
  obtain ⟨hids, hkeys⟩ := nodup_upsert create update h.ids h.keys
  have hother : ∀ r ∈ s.resources, r.key ≠ create.key → d.key ≠ r.key := fun r _ hne heq =>
    hne (heq.symm.trans hkey.symm)
  have hself : lastEnabled d.key (d :: ds) = some true := by
    rw [lastEnabled, if_pos rfl, hon]
  refine ⟨⟨fun r' hr' hon => ?_, fun r' hr' hkind hlast => ?_⟩, hids, hkeys, fun d' hd' => ?_⟩
  · rcases mem_upsert hr' with ⟨hr, hne⟩ | ⟨r, hr, hsame, rfl⟩ | ⟨rfl, -, -⟩
    · rw [lastEnabled, if_neg (hother r' hr hne)]
      exact h.enabled r' hr hon
    · rw [update.key_apply, hsame, hkey]
      exact hself
    · rw [hkey]
      exact hself
  · rcases mem_upsert hr' with ⟨hr, hne⟩ | ⟨r, hr, hsame, rfl⟩ | ⟨rfl, -, -⟩
    · rw [lastReadOnly, if_neg (hother r' hr hne)] at hlast
      exact h.readOnly r' hr hkind hlast
    · rw [update.key_apply, hsame, hkey] at hlast
      exact hupdate r hlast
    · rw [hkey] at hlast
      exact hcreate hlast
  · rcases List.mem_cons.mp hd' with rfl | hd'
    · rw [← hkey]
      simp only [World.takes, Bool.or_eq_true] at htakes
      simp only [exec]
      split
      · rename_i hany
        obtain ⟨r, hr, hsame⟩ := List.any_eq_true.mp hany
        refine ⟨_, Table.mem_update.mpr ⟨r, hr, rfl⟩, ?_⟩
        split <;> exact of_decide_eq_true hsame
      · rename_i hnone
        rw [if_pos (htakes.resolve_left hnone)]
        exact ⟨create, List.mem_append_right _ List.mem_cons_self, rfl⟩
    · obtain ⟨r, hr, hsame⟩ := h.known d' hd'
      obtain ⟨r', hr', hsame'⟩ := key_upsert create update hr
      exact ⟨r', hr', hsame'.trans hsame⟩

/-- **A change of sharing is a decision** about the resource that it finds. -/
theorem Tracks.switch (h : Tracks ds s) {id : String} {enabled : Bool} (hr : r ∈ s.resources) (hid : r.id = id) :
    Tracks (⟨r.key, enabled, none⟩ :: ds) (exec (.enableResource id enabled) s) := by
  have hmem : ∀ r' ∈ (exec (.enableResource id enabled) s).resources,
      r' = r.switched enabled ∨ r' ∈ s.resources ∧ r'.key ≠ r.key := by
    intro r' hr'
    obtain ⟨r₀, hr₀, rfl⟩ := Table.mem_update.mp hr'
    split
    · rename_i hsel
      have hsame : r₀ = r := Table.eq_of_key h.ids hr₀ hr ((of_decide_eq_true hsel).trans hid.symm)
      exact .inl (by rw [hsame])
    · rename_i hsel
      refine .inr ⟨hr₀, fun hkey => hsel ?_⟩
      rw [Table.eq_of_key h.keys hr₀ hr hkey]
      exact decide_eq_true hid
  refine ⟨⟨fun r' hr' hon => ?_, fun r' hr' hkind hlast => ?_⟩, ?_, ?_, fun d hd => ?_⟩
  · rcases hmem r' hr' with rfl | ⟨hbefore, hne⟩
    · exact (if_pos rfl).trans (congrArg some hon)
    · rw [lastEnabled, if_neg hne.symm]
      exact h.enabled r' hbefore hon
  · rcases hmem r' hr' with rfl | ⟨hbefore, hne⟩
    · have hlast' : lastReadOnly r.key ds = some true := by
        rw [← hlast, r.key_switched enabled, lastReadOnly, if_pos rfl]
        rfl
      exact h.readOnly r hr hkind hlast'
    · rw [lastReadOnly, if_neg hne.symm] at hlast
      exact h.readOnly r' hbefore hkind hlast
  · show (((Op.update _ (ResourceRow.switched enabled)).apply s.resources).map (·.id)).Nodup
    rw [Table.map_update (ResourceRow.id_switched enabled)]
    exact h.ids
  · show (((Op.update _ (ResourceRow.switched enabled)).apply s.resources).map (·.key)).Nodup
    rw [Table.map_update fun r => r.key_switched enabled]
    exact h.keys
  · have hkept : ∀ r₀ ∈ s.resources, ∃ r' ∈ (exec (.enableResource id enabled) s).resources, r'.key = r₀.key := by
      intro r₀ hr₀
      refine ⟨_, Table.mem_update.mpr ⟨r₀, hr₀, rfl⟩, ?_⟩
      split <;> rfl
    rcases List.mem_cons.mp hd with rfl | hd
    · exact hkept r hr
    · obtain ⟨r₀, hr₀, hkey⟩ := h.known d hd
      obtain ⟨r', hr', hkey'⟩ := hkept r₀ hr₀
      exact ⟨r', hr', hkey'.trans hkey⟩

/-- **What one statement keeps.** -/
theorem Tracks.perform (h : Tracks ds s) (hw : ResourcesWrite q w) (hloosens : ¬ Loosens ⟨i, q, w, s⟩) :
    Tracks ((decision ⟨i, q, w, s⟩).toList ++ ds) (exec w s) := by
  cases w with
  | upsertResource create update =>
    cases q with
    | reportResources principal input =>
      have hnone : decision ⟨i, .reportResources principal input, .upsertResource create update, s⟩ = none :=
        ite_self none
      rw [hnone]
      refine h.report hw.1 hw.2 fun r hr hkey hkind hreadOnly hsome => ?_
      exact not_not.mp fun hnot => hloosens ⟨hsome, hnot, r, hr, hkey, hkind, hreadOnly⟩
    | approveFolder userId spaceId input context =>
      obtain ⟨hkey, -, hmetadata, rfl⟩ := hw
      have hreadOnly : lastReadOnly ⟨input.agentId, .folder, input.path⟩
          (⟨⟨input.agentId, .folder, input.path⟩, true, some input.readOnly⟩ :: ds) = some true →
            isReadOnly (some input.metadata) = true := by
        intro hlast
        rw [lastReadOnly, if_pos rfl] at hlast
        exact Option.some.inj hlast
      by_cases htakes : s.takes create = true
      · have hsome : decision ⟨i, .approveFolder userId spaceId input context, .upsertResource create input.update, s⟩ =
            some ⟨⟨input.agentId, .folder, input.path⟩, true, some input.readOnly⟩ := if_pos htakes
        rw [hsome]
        exact h.approve htakes hkey rfl (fun hlast => hmetadata ▸ hreadOnly hlast) fun r hlast => hreadOnly hlast
      · have hnone : decision ⟨i, .approveFolder userId spaceId input context, .upsertResource create input.update, s⟩ =
            none := if_neg htakes
        have hsame : exec (.upsertResource create input.update) s = s := by
          simp only [World.takes, Bool.or_eq_true, not_or] at htakes
          simp only [exec, if_neg htakes.1, if_neg htakes.2]
        rw [hnone, hsame]
        exact h
    | _ => exact hw.elim
  | enableResource id enabled =>
    obtain ⟨userId, spaceId, context, rfl⟩ := hw
    have hdecision : decision ⟨i, .setResourceEnabled userId spaceId id enabled context, .enableResource id enabled, s⟩ =
        (s.resources.find? (·.id = id)).map fun r => ⟨r.key, enabled, none⟩ := rfl
    rw [hdecision]
    rcases Option.eq_none_or_eq_some (s.resources.find? (·.id = id)) with hfind | ⟨r, hfind⟩
    · rw [hfind]
      refine h.congr ?_
      show (s.resources.map fun r => if decide (r.id = id) then r.switched enabled else r) = s.resources
      refine (List.map_congr_left fun r hr => if_neg ?_).trans (List.map_id _)
      exact List.find?_eq_none.mp hfind r hr
    · rw [hfind]
      have hid : r.id = id := by simpa using List.find?_some hfind
      exact h.switch (List.mem_of_find?_eq_some hfind) hid
  | _ => exact h.congr rfl

/-! ## In a run -/

theorem tracks_upholds (hashSecret : String → String) (earlier : List Decision) :
    Upholds (machine hashSecret) (fun step _ => ResourcesWrite step.request step.write ∧ ¬ Loosens step)
      fun σ => Tracks (decided earlier σ.history) σ.shared where
  step i q w σ hσ hC := by
    have hkept := hσ.perform hC.1 hC.2
    rw [← decided_cons] at hkept
    exact hkept
  env e σ hσ := hσ.congr rfl

/-- The folder that a request is to write to. -/
def Request.writesTo : Request → Option String
  | startTransfer _ _ input _ => if input.direction = .upload then some input.resourceId else none
  | requestOperation _ _ input _ => some input.resourceId
  | _ => none

/-- A folder that is not read-only. -/
def Writable (resourceId : String) (w : World) : Prop :=
  ∃ r ∈ w.resources, r.id = resourceId ∧ r.kind = .folder ∧ ¬ isReadOnly r.metadata

/-- Each transfer is handed over with the read-only flag of its folder. -/
def Flagged (work : AgentWork) (w : World) : Prop :=
  ∀ t ∈ work.transfers, t.readOnly = isReadOnly ((w.resources.find? (·.id = t.resourceId)).bind (·.metadata))

/-- What goes on from a look at a folder, unless that is read-only. -/
theorem saw_writable {α : Type} {c : Prop} [Decidable c] (spaceId resourceId : String) (e : HttpException)
    (f : ResourceRow × Account.AgentRow → Service α) (hc : c) :
    (requireFolder spaceId resourceId >>= fun found =>
      Prog.raiseIf (c ∧ isReadOnly found.1.metadata) e >>= fun _ => f found).Saw
      (fun _ w => Writable resourceId w) fun _ => False := by
  refine (saw_requireShared .folder _ spaceId resourceId).andThen
    (L := fun found _ => ¬ isReadOnly found.1.metadata) (fun found => ?_)
    (fun found _ _ hwritable ⟨hmem, hid, _, hkind, _⟩ => ⟨found.1, hmem, hid, hkind, hwritable⟩) fun _ _ _ h => h
  rw [Prog.raiseIf_bind]
  split
  · trivial
  · rename_i hnot
    exact (Prog.answers_true _).mono fun _ _ hreadOnly => hnot ⟨hc, hreadOnly⟩

/-- **What an upload or an operation has seen**: a folder that is not read-only. -/
theorem saw_writesTo {id : String} (h : q.writesTo = some id) :
    (handler hashSecret q).Saw (fun _ w => Writable id w) fun _ => False := by
  cases q with
  | startTransfer userId spaceId input context =>
    by_cases hdirection : input.direction = .upload
    · obtain rfl : input.resourceId = id := by simpa [Request.writesTo, hdirection] using h
      exact saw_map (Prog.Saw.bind fun _ => saw_writable spaceId input.resourceId _ _ hdirection) _
    · simp [Request.writesTo, hdirection] at h
  | requestOperation userId spaceId input context =>
    obtain rfl := Option.some.inj h
    refine saw_map (Prog.Saw.bind fun _ => Prog.Saw.bind fun _ => Prog.Saw.bind fun _ => ?_) _
    simpa only [true_and] using saw_writable (c := True) spaceId input.resourceId _ _ trivial
  | _ => cases h

/-- **What an agent is handed over** has the flags that its folders had. -/
theorem saw_agentWork (principal : AgentPrincipal) :
    (agentWork principal).Saw Flagged fun _ => False := by
  have hcollect : ∀ agentId, (collectTransfers agentId).Saw (fun ts w => Flagged ⟨ts, []⟩ w) fun _ => False := by
    intro agentId
    unfold collectTransfers
    rw [Prog.perform_bind]
    refine .stmt fun w => ?_
    split
    · exact .inr fun t ht => nomatch ht
    · refine .stmt fun _ => .inl (.inr fun t ht => ?_)
      obtain ⟨row, -, rfl⟩ := List.mem_map.mp ht
      rfl
  unfold agentWork
  rw [select_bind]
  refine .stmt fun w => ?_
  split
  · exact .inr fun t ht => nomatch ht
  · refine ((hcollect _).andThen (L := fun ts work => work.transfers = ts) (fun ts => ?_)
      (fun ts work w heq hseen => ?_) fun _ _ _ h => h.elim).mono fun _ => .inl
    · exact (Prog.answers_true _).bind fun _ _ => rfl
    · intro t ht
      exact hseen t (heq ▸ ht)

/-- Sharing in a run, after earlier decisions, is the owner's: the resources are always as was decided last,
no report takes part in it, nothing is written to a folder that was last approved as read-only, and an agent
is told so. -/
structure OwnerDecides (hashSecret : String → String) (earlier : List Decision) (w : World)
    (moves : List (Move Request Account.Outside)) : Prop where
  obeyed : ∀ before after, moves = before ++ after →
    Obeys (decided earlier (resourcesRun hashSecret w before).log.history)
      (resourcesRun hashSecret w before).log.shared
  reports : ∀ step ∈ (resourcesRun hashSecret w moves).log.history, ∀ principal input,
    step.request = .reportResources principal input → Quiet step
  writes : ∀ i q a id, (resourcesRun hashSecret w moves).Answered i q a → q.writesTo = some id →
    ∃ step before, step :: before <:+ (resourcesRun hashSecret w moves).log.history ∧ step.thread = i ∧
      ∃ r ∈ step.before.resources, r.id = id ∧ lastReadOnly r.key (decided earlier before) ≠ some true
  serves : ∀ i principal work, (resourcesRun hashSecret w moves).Answered i (.agentWork principal) (.work work) →
    ∃ step before, step :: before <:+ (resourcesRun hashSecret w moves).log.history ∧ step.thread = i ∧
      ∀ t ∈ work.transfers, ∀ r ∈ step.before.resources, r.id = t.resourceId → r.kind = .folder →
        lastReadOnly r.key (decided earlier before) = some true → t.readOnly

variable {earlier : List Decision} {moves : List (Move Request Account.Outside)}

theorem tracks_run (hs : Tracks earlier s)
    (hloosens : ∀ step ∈ (resourcesRun hashSecret s moves).log.history, ¬ Loosens step) :
    (resourcesRun hashSecret s moves).log.Always fun σ => Tracks (decided earlier σ.history) σ.shared := by
  refine (tracks_upholds hashSecret earlier).run hs moves fun step before hsuffix => ?_
  have hmem := hsuffix.subset List.mem_cons_self
  exact ⟨Concurrent.only_run (M := machine hashSecret) only_handler s moves step hmem, hloosens step hmem⟩

/-- A report without metadata, or with metadata that says read-only, or about no read-only folder, is quiet. -/
theorem quiet_of_not_loosens {step : ResourcesStep} (hw : ResourcesWrite step.request step.write)
    {principal : AgentPrincipal} {input : AgentResourceReport}
    (hrequest : step.request = .reportResources principal input)
    (hkeys : (step.before.resources.map (·.key)).Nodup) (hloosens : ¬ Loosens step) : Quiet step := by
  obtain ⟨i, q, w, s⟩ := step
  obtain rfl : q = _ := hrequest
  cases w with
  | upsertResource create update =>
    obtain ⟨hcreate, hupdate⟩ := hw
    refine ⟨fun r' hr' hon => ?_, fun r hr hkind hreadOnly r' hr' hkey => ?_⟩
    · rcases mem_upsert hr' with ⟨hr, -⟩ | ⟨r, hr, -, rfl⟩ | ⟨rfl, -, -⟩
      · exact ⟨r', hr, rfl, hon⟩
      · have hsame : (update.apply r).enabled = r.enabled := by
          simp only [ResourceUpdate.apply, hupdate, Option.getD_none]
        exact ⟨r, hr, rfl, hsame ▸ hon⟩
      · rw [hcreate] at hon
        cases hon
    · rcases mem_upsert hr' with ⟨hr', -⟩ | ⟨r₀, hr₀, hsel, rfl⟩ | ⟨rfl, hnone, -⟩
      · exact Table.eq_of_key hkeys hr' hr hkey ▸ hreadOnly
      · obtain rfl : r₀ = r := Table.eq_of_key hkeys hr₀ hr hkey
        show isReadOnly (update.metadata <|> r₀.metadata) = true
        cases hmetadata : update.metadata with
        | none => exact hreadOnly
        | some fields =>
          refine not_not.mp fun hnot => hloosens ⟨?_, ?_, r₀, hr, hsel, hkind, hreadOnly⟩
          · rw [hmetadata]
            rfl
          · rw [hmetadata]
            exact hnot
      · exact absurd (List.any_eq_true.mpr ⟨r, hr, decide_eq_true hkey.symm⟩) hnone
  | enableResource id enabled =>
    obtain ⟨userId, spaceId, context, heq⟩ := hw
    cases heq
  | _ => exact ⟨fun r' hr' hon => ⟨r', hr', rfl, hon⟩,
      fun r hr _ hreadOnly r' hr' hkey => Table.eq_of_key hkeys hr' hr hkey ▸ hreadOnly⟩

theorem OwnerDecides.of_tracks (hs : Tracks earlier s)
    (hloosens : ∀ step ∈ (resourcesRun hashSecret s moves).log.history, ¬ Loosens step) :
    OwnerDecides hashSecret earlier s moves := by
  have halways := tracks_run hs hloosens
  -- What a statement of a thread has found, and what had been decided by then.
  have hfound : ∀ i, ∀ step ∈ (resourcesRun hashSecret s moves).log.own i, ∃ before,
      step :: before <:+ (resourcesRun hashSecret s moves).log.history ∧ step.thread = i ∧
        Tracks (decided earlier before) step.before := by
    intro i step hstep
    obtain ⟨hmem, hthread⟩ := List.mem_filter.mp hstep
    obtain ⟨later, before, heq⟩ := List.append_of_mem hmem
    exact ⟨before, ⟨later, heq.symm⟩, of_decide_eq_true hthread, halways.2 step before ⟨later, heq.symm⟩⟩
  refine ⟨fun before after hmoves => ?_, fun step hstep principal input hrequest => ?_,
    fun i q a id ha hwrites => ?_, fun i principal work ha => ?_⟩
  · have hsuffix : (resourcesRun hashSecret s before).log.history <:+
        (resourcesRun hashSecret s moves).log.history := by
      rw [hmoves]
      exact Concurrent.history_suffix_append (machine hashSecret) s before after
    exact (tracks_run hs fun step hstep => hloosens step (hsuffix.subset hstep)).1.toObeys
  · obtain ⟨later, before, heq⟩ := List.append_of_mem hstep
    have hw := Concurrent.only_run (M := machine hashSecret) only_handler s moves step hstep
    exact quiet_of_not_loosens hw hrequest (halways.2 step before ⟨later, heq.symm⟩).keys (hloosens step hstep)
  · obtain ⟨step, hstep, r, hr, hid, hkind, hwritable⟩ :=
      (Concurrent.saw_run (M := machine hashSecret) (saw_writesTo hwrites) s moves ha).resolve_left
        not_false
    obtain ⟨before, hsuffix, hthread, htracks⟩ := hfound i step hstep
    exact ⟨step, before, hsuffix, hthread, r, hr, hid, fun hlast => hwritable (htracks.readOnly r hr hkind hlast)⟩
  · have hsaw : ((machine hashSecret).handler (.agentWork principal)).Saw _ _ := (saw_agentWork principal).map _
    obtain ⟨step, hstep, work', heq, hflagged⟩ :=
      (Concurrent.saw_run hsaw s moves ha).resolve_left fun ⟨_, _, hno⟩ => hno
    obtain rfl : work = work' := Response.work.inj heq
    obtain ⟨before, hsuffix, hthread, htracks⟩ := hfound i step hstep
    refine ⟨step, before, hsuffix, hthread, fun t ht r hr hid hkind hlast => ?_⟩
    rw [hflagged t ht, ← hid, Table.find?_key htracks.ids hr]
    exact htracks.readOnly r hr hkind hlast

/-- **Sharing is the owner's exactly in the runs in which no report replaces the metadata of a read-only folder
by some that does not say so.** -/
theorem owner_decides_iff (hashSecret : String → String) {earlier : List Decision} {w : World}
    (hw : Tracks earlier w) (moves : List (Move Request Account.Outside)) :
    OwnerDecides hashSecret earlier w moves ↔
      ∀ step ∈ (resourcesRun hashSecret w moves).log.history, ¬ Loosens step := by
  refine ⟨fun h step hstep hloosens => ?_, OwnerDecides.of_tracks hw⟩
  obtain ⟨i, q, write, before⟩ := step
  cases q with
  | reportResources principal input =>
    cases write with
    | upsertResource create update =>
      obtain ⟨hsome, hnot, r, hr, hkey, hkind, hreadOnly⟩ := hloosens
      have hafter : update.apply r ∈ (exec (.upsertResource create update) before).resources := by
        have hany : (before.resources.any fun r => decide (r.key = create.key)) = true :=
          List.any_eq_true.mpr ⟨r, hr, decide_eq_true hkey⟩
        simp only [exec, if_pos hany]
        refine Table.mem_update.mpr ⟨r, hr, ?_⟩
        rw [if_pos (decide_eq_true hkey)]
      have hstill := (h.reports _ hstep principal input rfl).readOnly r hr hkind hreadOnly _ hafter rfl
      obtain ⟨fields, hfields⟩ := Option.isSome_iff_exists.mp hsome
      rw [ResourceUpdate.apply, hfields] at hstill
      rw [hfields] at hnot
      exact hnot hstill
    | _ => exact hloosens
  | _ => exact hloosens

/-! ## A folder that becomes writable -/

/-- The computer, as the guard of its routes knows it. -/
def homeAgent : AgentPrincipal := ⟨"device", "ada", "install", "key"⟩

/-- The owner shares the archive read-only. -/
def shareArchive : Request :=
  .approveFolder "ada" "home" ⟨"agent", "Archive", "/srv/archive", true⟩ ⟨none, none, none⟩

/-- The computer reports the archive, with or without some detail. -/
def reportArchive (metadata : Option Metadata) : Request :=
  .reportResources homeAgent ⟨"device", [⟨.folder, "Archive", "/srv/archive", metadata⟩]⟩

/-- A member writes to the archive. -/
def writeArchive : Request :=
  .startTransfer "ben" "home" ⟨"first", .upload, "new.txt", none, 0⟩ ⟨none, none, none⟩

/-- One after the other. -/
def shareReportWrite (metadata : Option Metadata) : List (Move Request Account.Outside) :=
  Move.call shareArchive :: List.replicate 7 (Move.step 0) ++
    Move.call (reportArchive metadata) :: List.replicate 4 (Move.step 1) ++
    Move.call writeArchive :: List.replicate 8 (Move.step 2)

/-- The drive's free space. -/
def freeSpace : Metadata := [("freeBytes", .number 1000000)]

theorem tracks_homeWorld : Tracks [] homeWorld :=
  ⟨⟨fun _ hr => (nomatch hr), fun _ hr => (nomatch hr)⟩, .nil, .nil, fun _ hd => (nomatch hd)⟩

theorem owner_decides_plain : OwnerDecides id [] homeWorld (shareReportWrite none) := by
  refine (owner_decides_iff id tracks_homeWorld _).mpr ?_
  decide +kernel

/-- The ticket of the upload. -/
def archiveTicket : Transfer :=
  ⟨"first", "home", "first", "agent", .upload, "new.txt", .pending, none, "0", none,
    "1970-01-01T00:00:01.000Z", none, none⟩

/-- After a report of its free space, an archive that was shared read-only is written to. -/
theorem owner_does_not_decide :
    (resourcesRun id homeWorld (shareReportWrite freeSpace)).Answered 2 writeArchive (.transfer archiveTicket) ∧
      ¬ OwnerDecides id [] homeWorld (shareReportWrite freeSpace) := by
  refine ⟨rfl, fun h => ?_⟩
  have hreadOnly := (h.obeyed (shareReportWrite freeSpace) [] (List.append_nil _).symm).readOnly
  revert hreadOnly
  decide +kernel

end Resources
