import NetlinkHub.Account.Nonces
import NetlinkHub.Account.Revocation

/-! # A device that is revoked

In a run in which nothing gets past the revocation of a device, the device is severed from then on: it is
neither trusted nor connected, none of its refresh tokens can be exchanged, and no live session is watched
from it or shows it. Whatever runs meanwhile, no later request with a credential of the device is served
(`revocation_complete`). -/

namespace Account

open Api (Date HttpException)
open Concurrent (Config Kept Move Prog Upholds)
open Table (Op)

/-! ## Severed devices -/

/-- The device is that of the computer on the screen. -/
def Hosts (id : String) (w : World) (r : Api.RemoteSessionRow) : Prop :=
  ∃ a ∈ w.agents, a.deviceId = id ∧ a.id = r.agentId

instance (id : String) (w : World) : DecidablePred (Hosts id w) := fun _ =>
  inferInstanceAs (Decidable (∃ a ∈ w.agents, _))

/-- The device is there, revoked and not trusted. -/
structure Gone (id : String) (w : World) : Prop where
  there : ∃ d ∈ w.devices, d.id = id
  revoked : ∀ d ∈ w.devices, d.id = id → d.revokedAt.isSome ∧ d.trusted = false

/-- Nothing of the device is left: neither trust, nor a refresh token that could be exchanged, nor a
socket, nor a live session that it watches or hosts. -/
structure Severed (id : String) (w : World) : Prop where
  device : Gone id w
  tokens : ∀ t ∈ w.refreshTokens, t.deviceId = id → t.revokedAt.isSome ∨ t.rotatedAt.isSome
  sockets : ∀ s ∈ w.subscribers, s.deviceId ≠ id
  watched : ∀ r ∈ w.api.remoteSessions, r.viewerDeviceId = some id → r.state = .ended
  hosted : ∀ r ∈ w.api.remoteSessions, Hosts id w r → r.state = .ended

/-- A revocation of the device has looked for its sessions. -/
def Looked (id : String) (earlier : List AccountStep) : Prop :=
  ∃ s ∈ earlier, s.request.Revokes id ∧ s.write = .api (.select .remoteSessions)

/-- Nothing gets past a revocation: no verification trusts the device once it is revoked; no token of it is
inserted and no socket of it registered once its tokens are revoked and its sockets closed; when its
sessions are looked for no session that it hosts is live, and none that it watches or hosts is started or
revived after that. -/
structure Yields (id : String) (step : AccountStep) (earlier : List AccountStep) : Prop where
  trusts : ∀ sel data, step.request.Trusts → step.write = .devices (.update sel data) →
    ∀ d ∈ step.before.devices, d.id = id → sel d → d.revokedAt.isSome → (data d).trusted = false
  tokens : ∀ clash row, step.write = .refreshTokens (.insert clash row) → row.deviceId = id →
    ¬ ∃ s ∈ earlier, s.request.Revokes id ∧ ∃ op, s.write = .refreshTokens op
  sockets : ∀ s, step.write = .subscribe s → s.deviceId = id →
    ¬ ∃ s' ∈ earlier, s'.write = .disconnectDevice id
  looks : step.request.Revokes id → step.write = .api (.select .remoteSessions) →
    ∀ r ∈ step.before.api.remoteSessions, Hosts id step.before r → r.state = .ended
  starts : Looked id earlier → ∀ row, step.write = .api (.insertSession row) →
    row.viewerDeviceId ≠ some id ∧ ¬ Hosts id step.before row
  revives : Looked id earlier → ∀ rid change, step.write = .api (.updateSession rid change) →
    ∀ r ∈ step.before.api.remoteSessions, r.id = rid →
      r.viewerDeviceId = some id ∨ Hosts id step.before r → r.state = .ended → (change.apply r).state = .ended
  enrolls : Looked id earlier → ∀ row now, step.write = .upsertAgent row now → row.deviceId = id →
    ∀ r ∈ step.before.api.remoteSessions, r.agentId = row.id → r.state = .ended

variable {P : Platform} {id rid : String} {q : Request} {w : Write} {s : World} {σ : AccountLog} {i : Nat}
  {r : Api.RemoteSessionRow}

/-! ## Devices, tokens and sockets -/

theorem Gone.congr {t : World} (h : Gone id s) (heq : t.devices = s.devices) : Gone id t := by
  constructor
  · rw [heq]
    exact h.there
  · rw [heq]
    exact h.revoked

/-- No other device takes its identifier. -/
theorem Gone.insert (h : Gone id s) (row : DeviceRow) :
    Gone id { s with devices := (Op.insert row.Clashes row).apply s.devices } := by
  obtain ⟨d₀, hd₀, hid₀⟩ := h.there
  constructor
  · have hkept : Table.Evolves Eq s.devices ((Op.insert row.Clashes row).apply s.devices) :=
      Table.evolves_insert fun _ => rfl
    obtain ⟨d, hd, rfl⟩ := hkept d₀ hd₀
    exact ⟨_, hd, hid₀⟩
  · intro d hd hid
    by_cases hold : d ∈ s.devices
    · exact h.revoked d hold hid
    · obtain ⟨rfl, hfree⟩ := Table.new_of_mem_insert hd hold
      refine absurd (List.any_eq_true.mpr ⟨d₀, hd₀, ?_⟩) hfree
      simp [DeviceRow.Clashes, hid₀, hid]

theorem Gone.update {sel : DeviceRow → Bool} {data : DeviceRow → DeviceRow} (h : Gone id s)
    (hstays : ∀ d, DeviceStays d (data d))
    (htrusted : ∀ d ∈ s.devices, d.id = id → sel d → (data d).trusted = false) :
    Gone id { s with devices := (Op.update sel data).apply s.devices } := by
  constructor
  · obtain ⟨d, hd, hid⟩ := h.there
    obtain ⟨d', hd', hd's⟩ := devicesStay_update hstays d hd
    exact ⟨d', hd', hd's.id_eq.trans hid⟩
  · intro d hd hid
    obtain ⟨d₀, hd₀, rfl⟩ := Table.mem_update.mp hd
    by_cases hsel : sel d₀
    · rw [if_pos hsel] at hid ⊢
      have hid₀ := (hstays d₀).id_eq.symm.trans hid
      exact ⟨(hstays d₀).revoked (h.revoked d₀ hd₀ hid₀).1, htrusted d₀ hd₀ hid₀ hsel⟩
    · rw [if_neg hsel] at hid ⊢
      exact h.revoked d₀ hd₀ hid

/-- **A device that is gone** comes back by no statement but a verification. -/
theorem Gone.exec (h : Gone id s) (hw : AccountWrite q w)
    (htrusts : ∀ sel data, q.Trusts → w = .devices (.update sel data) →
      ∀ d ∈ s.devices, d.id = id → sel d → d.revokedAt.isSome → (data d).trusted = false) :
    Gone id (exec w s) := by
  by_cases hop : ∃ op, w = .devices op
  · obtain ⟨op, rfl⟩ := hop
    cases op with
    | insert clash row =>
      obtain ⟨-, rfl⟩ := hw
      exact h.insert row
    | update sel data =>
      refine h.update (fun d => (hw d).1) fun d hd hid hsel => ?_
      obtain ⟨hrevoked, huntrusted⟩ := h.revoked d hd hid
      by_cases hq : q.Trusts
      · exact htrusts sel data hq rfl d hd hid hsel hrevoked
      · rw [← Bool.not_eq_true]
        intro htrusted
        rcases (hw d).2 htrusted with hbefore | hq'
        · rw [huntrusted] at hbefore
          cases hbefore
        · exact hq hq'
    | delete sel => exact hw.elim
  · exact h.congr (devices_exec (fun op hw' => hop ⟨op, hw'⟩) s)

/-- A device is gone when it has been marked. -/
theorem gone_marked (h : ∃ d ∈ s.devices, d.id = id) (now : Date) :
    Gone id (exec (.devices (.update (·.id = id) (DeviceRow.revoked now))) s) := by
  obtain ⟨d₀, hd₀, hid₀⟩ := h
  constructor
  · exact ⟨_, Table.mem_update.mpr ⟨d₀, hd₀, rfl⟩, by simp [hid₀, DeviceRow.revoked]⟩
  · intro d hd hid
    obtain ⟨d, -, rfl⟩ := Table.mem_update.mp hd
    by_cases hsel : d.id = id
    · rw [if_pos (decide_eq_true hsel)]
      exact ⟨rfl, rfl⟩
    · rw [if_neg (by simpa using hsel)] at hid
      exact absurd hid hsel

/-- What happens outside does not bring a device back. -/
theorem Gone.outside (h : Gone id s) (e : Outside) : Gone id (outside e s) := by
  cases e with
  | register row => exact h.insert row
  | describe deviceId x =>
    refine h.update (fun d => ⟨rfl, fun hd => hd⟩) fun d hd hid _ => ?_
    exact (h.revoked d hd hid).2
  | issueCode row =>
    simp only [Account.outside]
    split
    · exact h.congr rfl
    · exact h
  | _ => exact h.congr rfl

/-- None of the refresh tokens of the device could be exchanged. -/
def Spent (id : String) (w : World) : Prop :=
  ∀ t ∈ w.refreshTokens, t.deviceId = id → t.revokedAt.isSome ∨ t.rotatedAt.isSome

theorem Spent.update {sel : RefreshTokenRow → Bool} {data : RefreshTokenRow → RefreshTokenRow}
    (h : Spent id s) (hstays : ∀ t, TokenStays t (data t)) :
    Spent id { s with refreshTokens := (Op.update sel data).apply s.refreshTokens } := by
  intro t ht hid
  obtain ⟨t, ht₀, rfl⟩ := Table.mem_update.mp ht
  by_cases hsel : sel t
  · rw [if_pos hsel] at hid ⊢
    exact (h t ht₀ ((hstays t).device.symm.trans hid)).imp (hstays t).revoked (hstays t).rotated
  · rw [if_neg hsel] at hid ⊢
    exact h t ht₀ hid

theorem Spent.exec (h : Spent id s) (hw : AccountWrite q w)
    (hnew : ∀ clash row, w = .refreshTokens (.insert clash row) → row.deviceId ≠ id) :
    Spent id (exec w s) := by
  by_cases hop : ∃ op, w = .refreshTokens op
  · obtain ⟨op, rfl⟩ := hop
    cases op with
    | insert clash row =>
      intro t ht hid
      rcases Table.mem_insert ht with ht | rfl
      · exact h t ht hid
      · exact absurd hid (hnew _ _ rfl)
    | update sel data => exact h.update hw
    | delete sel => exact hw.elim
  · rw [Spent, refreshTokens_exec (fun op hw' => hop ⟨op, hw'⟩) s]
    exact h

/-- They are spent when they have been revoked. -/
theorem spent_swept (now : Date) : Spent id (exec (.refreshTokens (.update
    (fun t => t.deviceId = id ∧ t.revokedAt = none) (RefreshTokenRow.revoked "device_revoked" now))) s) := by
  intro t ht hid
  obtain ⟨t, -, rfl⟩ := Table.mem_update.mp ht
  split
  · exact .inl rfl
  · rename_i hsel
    rw [if_neg hsel] at hid
    left
    rw [Option.isSome_iff_ne_none]
    exact fun hnone => hsel (decide_eq_true ⟨hid, hnone⟩)

theorem Spent.outside (h : Spent id s) (e : Outside) : Spent id (outside e s) := by
  cases e with
  | signOut familyId reason now => exact h.update (tokenStays_revoked reason now)
  | issueCode row =>
    simp only [Account.outside]
    split <;> exact h
  | _ => exact h

/-- No socket of the device is open. -/
def Offline (id : String) (w : World) : Prop := ∀ s ∈ w.subscribers, s.deviceId ≠ id

theorem Offline.exec (h : Offline id s) (hnew : ∀ x, w = .subscribe x → x.deviceId ≠ id) :
    Offline id (exec w s) := by
  by_cases hon : w.OnSockets
  · cases w with
    | subscribe x =>
      intro y hy
      rcases List.mem_append.mp hy with hy | hy
      · exact h y (List.mem_of_mem_filter hy)
      · rw [List.mem_singleton.mp hy]
        exact hnew x rfl
    | disconnectDevice deviceId => exact fun y hy => h y (List.mem_of_mem_filter hy)
    | _ => exact hon.elim
  · rw [Offline, subscribers_exec hon]
    exact h

theorem offline_disconnected : Offline id (exec (.disconnectDevice id) s) := fun x hx => by
  simpa using (List.mem_filter.mp hx).2

theorem Offline.outside (h : Offline id s) (e : Outside) : Offline id (outside e s) := by
  cases e with
  | disconnect socket => exact fun y hy => h y (List.mem_of_mem_filter hy)
  | spaceAccess userId spaceIds =>
    intro y hy
    obtain ⟨x, hx, rfl⟩ := List.mem_map.mp hy
    split <;> exact h x hx
  | issueCode row =>
    simp only [Account.outside]
    split <;> exact h
  | _ => exact h

/-! ## Sessions -/

/-- A session in the table afterwards was there before, or is new. -/
theorem session_back {r' : Api.RemoteSessionRow} (h : r' ∈ (exec w s).api.remoteSessions) :
    (∃ r ∈ s.api.remoteSessions, r'.content = r.content ∧
      (r' = r ∨ ∃ change, w = .api (.updateSession r.id change) ∧ r' = change.apply r)) ∨
        w = .api (.insertSession r') := by
  by_cases hop : ∃ w', w = .api w'
  · obtain ⟨w', rfl⟩ := hop
    rcases Api.sessionStep_back h with ⟨r, hr, hstep⟩ | rfl
    · refine .inl ⟨r, hr, hstep.content, hstep.changed.imp_right ?_⟩
      rintro ⟨change, hchange, rfl⟩
      exact ⟨change, congrArg Write.api hchange, rfl⟩
    · exact .inr rfl
  · rw [api_exec (fun w' hw => hop ⟨w', hw⟩) s] at h
    exact .inl ⟨r', h, rfl, .inl rfl⟩

theorem sessionIds_account (w : Write) (h : (s.api.remoteSessions.map (·.id)).Nodup) :
    ((exec w s).api.remoteSessions.map (·.id)).Nodup := by
  by_cases hop : ∃ w', w = .api w'
  · obtain ⟨w', rfl⟩ := hop
    exact Api.sessionIds_exec w' h
  · rwa [api_exec (fun w' hw => hop ⟨w', hw⟩) s]

/-- The agents of a device are those it had, but for one that is enrolled. -/
theorem agent_back (hw : AccountWrite q w) {a' : AgentRow} (h : a' ∈ (exec w s).agents) :
    (∃ a ∈ s.agents, a.id = a'.id ∧ a.deviceId = a'.deviceId) ∨ ∃ now, w = .upsertAgent a' now := by
  cases w with
  | agents op =>
    cases op with
    | update sel data =>
      obtain ⟨a, ha, rfl⟩ := Table.mem_update.mp h
      refine .inl ⟨a, ha, ?_⟩
      split
      · exact ⟨(hw a).1.symm, (hw a).2.symm⟩
      · exact ⟨rfl, rfl⟩
    | insert clash row => exact hw.elim
    | delete sel => exact hw.elim
  | upsertAgent row now =>
    simp only [exec] at h
    split at h
    · obtain ⟨a, ha, rfl⟩ := Table.mem_update.mp h
      refine .inl ⟨a, ha, ?_⟩
      split <;> exact ⟨rfl, rfl⟩
    · rcases List.mem_append.mp h with h | h
      · exact .inl ⟨a', h, rfl, rfl⟩
      · exact .inr ⟨now, by rw [List.mem_singleton.mp h]⟩
  | createNonce row =>
    simp only [exec] at h
    split at h <;> exact .inl ⟨a', h, rfl, rfl⟩
  | _ => exact .inl ⟨a', h, rfl, rfl⟩

/-- Who hosts a session is who did, but for an agent that is enrolled. -/
theorem hosts_back (hw : AccountWrite q w) (h : Hosts id (exec w s) r) :
    Hosts id s r ∨ ∃ row now, w = .upsertAgent row now ∧ row.deviceId = id ∧ r.agentId = row.id := by
  obtain ⟨a', ha', hdevice, hagent⟩ := h
  rcases agent_back hw ha' with ⟨a, ha, hid, hdid⟩ | ⟨now, rfl⟩
  · exact .inl ⟨a, ha, hdid.trans hdevice, hid.trans hagent⟩
  · exact .inr ⟨a', now, rfl, hdevice, hagent.symm⟩

theorem Hosts.congr {r' : Api.RemoteSessionRow} (h : Hosts id s r) (heq : r'.content = r.content) :
    Hosts id s r' := by
  obtain ⟨a, ha, hdevice, hagent⟩ := h
  have hsame : r'.agentId = r.agentId := by
    show r'.content.agentId = r.content.agentId
    rw [heq]
  exact ⟨a, ha, hdevice, hagent.trans hsame.symm⟩

theorem viewerDeviceId_of_content {r' : Api.RemoteSessionRow} (heq : r'.content = r.content) :
    r'.viewerDeviceId = r.viewerDeviceId := by
  show r'.content.viewerDeviceId = r.content.viewerDeviceId
  rw [heq]

/-! ## The invariant -/

/-- The statement marks the device as revoked. -/
def MarksDevice (id : String) (step : AccountStep) : Prop :=
  step.request.Revokes id ∧ (∃ op, step.write = .devices op) ∧ ∃ d ∈ step.before.devices, d.id = id

/-- The statement revokes the refresh tokens of the device. -/
def SweepsTokens (id : String) (step : AccountStep) : Prop :=
  step.request.Revokes id ∧ ∃ op, step.write = .refreshTokens op

/-- The statement looks for the sessions of the device. -/
def LooksFor (id : String) (step : AccountStep) : Prop :=
  step.request.Revokes id ∧ step.write = .api (.select .remoteSessions)

/-- A live session that was watched from the device when its sessions were looked for, and that no statement
has closed since. -/
def LeftOver (id : String) (look : AccountStep) (later : List AccountStep) (r : Api.RemoteSessionRow) : Prop :=
  (∃ r₀ ∈ look.before.api.remoteSessions, r₀.id = r.id ∧ r₀.viewerDeviceId = some id ∧ r₀.state ≠ .ended) ∧
    ∀ c ∈ later, ¬ Disconnects r.id c

/-- What the statements of the revocations so far have made sure of. -/
structure RevokeInv (id : String) (σ : AccountLog) : Prop where
  ids : (σ.shared.api.remoteSessions.map (·.id)).Nodup
  device : (∃ step ∈ σ.history, MarksDevice id step) → Gone id σ.shared
  tokens : (∃ step ∈ σ.history, SweepsTokens id step) → Spent id σ.shared
  sockets : (∃ step ∈ σ.history, step.write = .disconnectDevice id) → Offline id σ.shared
  hosted : Looked id σ.history → ∀ r ∈ σ.shared.api.remoteSessions, Hosts id σ.shared r → r.state = .ended
  watched : ∀ later look earlier, σ.history = later ++ look :: earlier → LooksFor id look →
    ∀ r ∈ σ.shared.api.remoteSessions, r.viewerDeviceId = some id → r.state ≠ .ended →
      LeftOver id look later r

/-- What a statement of a run in which nothing gets past a revocation is. -/
structure Orderly (id : String) (step : AccountStep) (earlier : List AccountStep) : Prop where
  write : AccountWrite step.request step.write
  revokes : step.request.Revokes id → RevokeWrite id step.write
  yields : Yields id step earlier

variable {earlier : List AccountStep}

/-- A session that is live after a statement was live before, once the sessions have been looked for, and
the statement has not closed it. -/
theorem live_back (h : Orderly id ⟨i, q, w, s⟩ earlier) (hlooked : Looked id earlier)
    (hids : (s.api.remoteSessions.map (·.id)).Nodup) {r' : Api.RemoteSessionRow}
    (hr' : r' ∈ (exec w s).api.remoteSessions)
    (hof : r'.viewerDeviceId = some id ∨ Hosts id s r') (hlive : r'.state ≠ .ended) :
    ∃ r ∈ s.api.remoteSessions, r'.content = r.content ∧ r.state ≠ .ended ∧ ¬ Disconnects r.id ⟨i, q, w, s⟩ := by
  rcases session_back hr' with ⟨r, hr, hcontent, hbecomes⟩ | rfl
  · have hof' : r.viewerDeviceId = some id ∨ Hosts id s r :=
      hof.imp (viewerDeviceId_of_content hcontent).symm.trans fun hhosts => hhosts.congr hcontent.symm
    have hbefore : r.state ≠ .ended := by
      intro hended
      rcases hbecomes with rfl | ⟨change, rfl, rfl⟩
      · exact hlive hended
      · exact hlive (h.yields.revives hlooked r.id change rfl r hr rfl hof' hended)
    refine ⟨r, hr, hcontent, hbefore, ?_⟩
    rintro (⟨r₀, hr₀, hid, hended⟩ | ⟨now, reason, rfl⟩)
    · rw [Table.eq_of_key hids hr₀ hr hid] at hended
      exact hbefore hended
    · -- The update ends the session, whatever it was.
      obtain ⟨r₀, -, rfl⟩ := Table.mem_update.mp hr'
      have hid : r₀.id = r.id := by
        have hsame := Api.sessionId_of_content hcontent
        split at hsame
        · exact hsame
        · exact hsame
      rw [if_pos (decide_eq_true hid)] at hlive
      exact hlive rfl
  · -- A session that is new is none of the device.
    obtain ⟨hviewer, hhosts⟩ := h.yields.starts hlooked r' rfl
    exact (hof.elim hviewer hhosts).elim

/-- **What one statement keeps.** -/
theorem RevokeInv.perform (h : RevokeInv id σ) (hstep : Orderly id ⟨i, q, w, σ.shared⟩ σ.history) :
    RevokeInv id (σ.perform exec i q w) where
  ids := sessionIds_account w h.ids
  device := by
    rintro ⟨step, hmem, hmarks⟩
    rcases List.mem_cons.mp hmem with rfl | hmem
    · obtain ⟨hq, ⟨op, rfl⟩, hthere⟩ := hmarks
      obtain ⟨now, rfl⟩ := hstep.revokes hq
      exact gone_marked hthere now
    · exact (h.device ⟨step, hmem, hmarks⟩).exec hstep.write hstep.yields.trusts
  tokens := by
    rintro ⟨step, hmem, hsweeps⟩
    rcases List.mem_cons.mp hmem with rfl | hmem
    · obtain ⟨hq, op, rfl⟩ := hsweeps
      obtain ⟨now, rfl⟩ := hstep.revokes hq
      exact spent_swept now
    · refine (h.tokens ⟨step, hmem, hsweeps⟩).exec hstep.write fun clash row hw hid => ?_
      exact hstep.yields.tokens clash row hw hid ⟨step, hmem, hsweeps⟩
  sockets := by
    rintro ⟨step, hmem, hcloses⟩
    rcases List.mem_cons.mp hmem with rfl | hmem
    · obtain rfl : w = .disconnectDevice id := hcloses
      exact offline_disconnected
    · refine (h.sockets ⟨step, hmem, hcloses⟩).exec fun x hw hid => ?_
      exact hstep.yields.sockets x hw hid ⟨step, hmem, hcloses⟩
  hosted := by
    rintro ⟨step, hmem, hlooks⟩ r' hr' hhosts
    rcases List.mem_cons.mp hmem with rfl | hmem
    · obtain ⟨hq, rfl⟩ : q.Revokes id ∧ w = .api (.select .remoteSessions) := hlooks
      exact hstep.yields.looks hq rfl r' hr' hhosts
    · have hlooked : Looked id σ.history := ⟨step, hmem, hlooks⟩
      by_contra hlive
      rcases hosts_back hstep.write hhosts with hbefore | ⟨row, now, rfl, hdevice, hagent⟩
      · obtain ⟨r, hr, hcontent, hrlive, -⟩ := live_back hstep hlooked h.ids hr' (.inr hbefore) hlive
        exact hrlive (h.hosted hlooked r hr (hbefore.congr hcontent.symm))
      · have hsame : r' ∈ σ.shared.api.remoteSessions := by
          rw [← api_exec (w := .upsertAgent row now) (fun _ hw => nomatch hw) σ.shared]
          exact hr'
        exact hlive (hstep.yields.enrolls hlooked row now rfl hdevice r' hsame hagent)
  watched := by
    intro later look earlier hsplit hlooks r' hr' hviewer hlive
    rcases List.cons_eq_append_iff.mp hsplit with ⟨rfl, hcons⟩ | ⟨later', rfl, hrest⟩
    · -- The statement is the look itself.
      obtain ⟨rfl, -⟩ := List.cons.inj hcons
      obtain ⟨-, rfl⟩ : q.Revokes id ∧ w = .api (.select .remoteSessions) := hlooks
      exact ⟨⟨r', hr', rfl, hviewer, hlive⟩, fun c hc => absurd hc List.not_mem_nil⟩
    · have hlooked : Looked id σ.history := ⟨look, by rw [hrest]; simp, hlooks⟩
      obtain ⟨r, hr, hcontent, hrlive, hopen⟩ := live_back hstep hlooked h.ids hr' (.inl hviewer) hlive
      obtain ⟨hwas, hnone⟩ := h.watched later' look earlier hrest hlooks r hr
        ((viewerDeviceId_of_content hcontent).symm.trans hviewer) hrlive
      rw [LeftOver, Api.sessionId_of_content hcontent]
      exact ⟨hwas, List.forall_mem_cons.mpr ⟨hopen, hnone⟩⟩

/-- Nothing from outside touches the sessions or the agents. -/
theorem outside_sessions (e : Outside) (s : World) :
    (outside e s).api.remoteSessions = s.api.remoteSessions ∧ (outside e s).agents = s.agents := by
  cases e with
  | issueCode row =>
    simp only [outside]
    split <;> exact ⟨rfl, rfl⟩
  | _ => exact ⟨rfl, rfl⟩

theorem RevokeInv.change (h : RevokeInv id σ) (e : Outside) : RevokeInv id (σ.change (outside e)) := by
  obtain ⟨hsessions, hagents⟩ := outside_sessions e σ.shared
  refine ⟨?_, fun hmarks => (h.device hmarks).outside e, fun hsweeps => (h.tokens hsweeps).outside e,
    fun hcloses => (h.sockets hcloses).outside e, fun hlooked r hr hhosts => ?_,
    fun later look earlier hsplit hlooks r hr => ?_⟩
  · show ((outside e σ.shared).api.remoteSessions.map (·.id)).Nodup
    rw [hsessions]
    exact h.ids
  · have hr : r ∈ (outside e σ.shared).api.remoteSessions := hr
    rw [hsessions] at hr
    obtain ⟨a, ha, hhost⟩ := hhosts
    have ha : a ∈ (outside e σ.shared).agents := ha
    rw [hagents] at ha
    exact h.hosted hlooked r hr ⟨a, ha, hhost⟩
  · have hr : r ∈ (outside e σ.shared).api.remoteSessions := hr
    rw [hsessions] at hr
    exact h.watched later look earlier hsplit hlooks r hr

theorem upholds_revokeInv (P : Platform) (id : String) :
    Upholds (machine P) (Orderly id) (RevokeInv id) where
  step _ _ _ _ h hstep := h.perform hstep
  env e _ h := h.change e

/-- A split of the statements of one thread is one of all of them. -/
theorem history_split {later earlier : List AccountStep} {look : AccountStep}
    (h : σ.own i = later ++ look :: earlier) :
    ∃ later' earlier', σ.history = later' ++ look :: earlier' ∧ later ⊆ later' := by
  obtain ⟨before, after, hhistory, rfl, hafter⟩ := List.filter_eq_append_iff.mp h
  obtain ⟨skipped, rest, rfl, -, -, rfl⟩ := List.filter_eq_cons_iff.mp hafter
  refine ⟨before ++ skipped, rest, by rw [hhistory, List.append_assoc], ?_⟩
  exact List.Subset.trans (List.filter_subset_self _) (List.subset_append_left _ _)

/-- **A revocation that has gone through all its statements** has severed the device. -/
theorem RevokeInv.severed (h : RevokeInv id σ) (hswept : Swept id (σ.own i))
    (hown : ∀ step ∈ σ.own i, step.request.Revokes id) : Severed id σ.shared where
  device := by
    obtain ⟨step, hstep, hop, hthere⟩ := hswept.marks
    exact h.device ⟨step, List.mem_of_mem_filter hstep, hown step hstep, hop, hthere⟩
  tokens := by
    obtain ⟨step, hstep, hop⟩ := hswept.tokens
    exact h.tokens ⟨step, List.mem_of_mem_filter hstep, hown step hstep, hop⟩
  sockets := by
    obtain ⟨step, hstep, hcloses⟩ := hswept.sockets
    exact h.sockets ⟨step, List.mem_of_mem_filter hstep, hcloses⟩
  watched := by
    intro r hr hviewer
    by_contra hlive
    obtain ⟨later, look, earlier, hsplit, hlook, hcloses⟩ := hswept.looks
    have hmem : look ∈ σ.own i := by
      rw [hsplit]
      exact List.mem_append_right _ List.mem_cons_self
    obtain ⟨later', earlier', hhistory, hsubset⟩ := history_split hsplit
    obtain ⟨⟨r₀, hr₀, hid, hviewer₀, hlive₀⟩, hopen⟩ :=
      h.watched later' look earlier' hhistory ⟨hown look hmem, hlook⟩ r hr hviewer hlive
    obtain ⟨c, hc, hcloses⟩ := hcloses r₀ hr₀ hviewer₀ hlive₀
    exact hopen c (hsubset hc) (hid ▸ hcloses)
  hosted := by
    obtain ⟨later, look, earlier, hsplit, hlook, -⟩ := hswept.looks
    have hmem : look ∈ σ.own i := by
      rw [hsplit]
      exact List.mem_append_right _ List.mem_cons_self
    exact h.hosted ⟨look, List.mem_of_mem_filter hmem, hown look hmem, hlook⟩

/-! ## Credentials -/

/-- An access token that is the device's, whenever it is verified. -/
def Jwt.BoundTo (jwt : Jwt) (id token : String) : Prop :=
  ∀ now claims, jwt.verify token now = some claims → claims.did = id

/-- The key that a signed request presents is the device's. -/
def SignedRequest.BoundTo (id : String) (w : World) (signed : SignedRequest) : Prop :=
  ∃ h d, signed.headers = some h ∧ w.devices.find? (·.publicKey = h.publicKey) = some d ∧ d.id = id

/-- The request carries a credential of the device: an access token, a signature or a refresh token. -/
def Request.BoundTo (P : Platform) (id : String) (w : World) : Request → Prop
  | .viewer token _ => ∃ t, token = some t ∧ P.jwt.BoundTo id t
  | .connect _ token => ∃ t, token = some t ∧ P.jwt.BoundTo id t
  | .agent _ signed => signed.BoundTo id w
  | .enroll signed _ => signed.BoundTo id w
  | .refresh refreshToken _ =>
    ∃ t, w.refreshTokens.find? (·.tokenHash = P.hashSecret refreshToken) = some t ∧ t.deviceId = id
  | .verifyDevice .. => False

/-- The request is served; a socket that does not stay open is not. -/
def Response.Serves : Response → Prop
  | .connected accepted => accepted
  | _ => True

/-- What there is of the device is revoked. -/
def AllRevoked (id : String) (w : World) : Prop := ∀ d ∈ w.devices, d.id = id → d.revokedAt.isSome

/-- A device that is revoked serves no token. -/
theorem not_serves_of_revoked {claims : Claims} {device : DeviceRow} (hs : AllRevoked id s)
    (hfind : findDevice claims.did s = some device) (hdid : claims.did = id) : ¬ device.Serves claims := by
  intro hserves
  have hid : device.id = claims.did := by simpa using List.find?_some hfind
  have hrevoked := hs device (List.mem_of_find?_eq_some hfind) (hid.trans hdid)
  rw [hserves.1] at hrevoked
  cases hrevoked

section Barred

variable {α β : Type} {B : World → Prop} {served : α → Prop} {k : Nat} {own : List AccountStep}
  {jwt : Jwt} {crypto : Crypto} {config : SessionConfig} {hashSecret : String → String}

/-- A thread whose statements have all found a state of some kind is not served. -/
def Barred (B : World → Prop) (served : α → Prop) (r : Except HttpException α) (own : List AccountStep) : Prop :=
  (∀ step ∈ own, B step.before) → ∀ a, r = .ok a → ¬ served a

/-- Once a statement has found another state, there is nothing to show. -/
theorem barred_of_not {p : Service α} (hstep : ∃ step ∈ own, ¬ B step.before) :
    p.Traces (fun _ _ => True) k q (Barred B served) own := by
  obtain ⟨step, hmem, hnot⟩ := hstep
  exact (Prog.traces_suffix p).mono fun r final hsuffix hall => absurd (hall step (hsuffix.subset hmem)) hnot

/-- A statement, and what follows if it has found a state of the kind. -/
theorem barred_stmt {next : World → Service α}
    (h : ∀ s, B s → (next s).Traces (fun _ _ => True) k q (Barred B served) (⟨k, q, w, s⟩ :: own)) :
    (Prog.stmt w next : Service α).Traces (fun _ _ => True) k q (Barred B served) own := by
  refine .stmt (fun _ => trivial) fun s => ?_
  by_cases hs : B s
  · exact h s hs
  · exact barred_of_not ⟨_, List.mem_cons_self, hs⟩

/-- A program that never serves. -/
theorem barred_of_answers {p : Service α} (h : p.Answers fun a => ¬ served a) :
    p.Traces (fun _ _ => True) k q (Barred B served) own := by
  refine (Prog.Saw.of_answers (R := fun _ _ => False) h).traces.mono fun r final hfinal _ a ha => ?_
  rcases hfinal.2 a ha with hnot | ⟨-, -, hfalse⟩
  · exact hnot
  · exact hfalse.elim

/-- What follows a part that is not served. -/
theorem barred_bind {p : Service α} {f : α → Service β} {served' : β → Prop}
    (h : p.Traces (fun _ _ => True) k q (Barred B served) own)
    (hf : ∀ a, ¬ served a → (f a).Answers fun b => ¬ served' b) :
    (p >>= f).Traces (fun _ _ => True) k q (Barred B served') own := by
  refine h.bind (fun a own hbarred => ?_) fun e own _ _ b hb => by cases hb
  by_cases ha : served a
  · refine (Prog.traces_suffix (f a)).mono fun r final hsuffix hall => ?_
    exact absurd ha (hbarred (fun step hstep => hall step (hsuffix.subset hstep)) a rfl)
  · exact barred_of_answers (hf a ha)

/-- The guard of the bearer token turns away a token of a device that is revoked. -/
theorem barred_accessTokenGuard {token : Option String} :
    (accessTokenGuard jwt token).Traces (fun _ _ => True) k q
      (Barred (fun w => (∃ t, token = some t ∧ jwt.BoundTo id t) ∧ AllRevoked id w) fun _ => True) own := by
  unfold accessTokenGuard verifyAccessToken
  split
  · exact fun _ _ h => nomatch h
  rw [dateNow_bind, Prog.stmt_bind]
  refine barred_stmt fun s ⟨⟨t, ht, hbound⟩, _⟩ => ?_
  obtain rfl := Option.some.inj ht
  split
  · exact fun _ _ h => nomatch h
  rename_i claims hclaims
  rw [Prog.done_bind, select_bind]
  refine barred_stmt fun s' ⟨_, hs⟩ => ?_
  split
  · exact fun _ _ h => nomatch h
  · rename_i device hdevice
    rw [if_pos (not_serves_of_revoked hs hdevice (hbound _ claims hclaims))]
    exact fun _ _ h => nomatch h

/-- The handshake of the live gateway closes its socket. -/
theorem barred_handleConnection {socket : Nat} {token : Option String} :
    (handleConnection jwt socket token).Traces (fun _ _ => True) k q
      (Barred (fun w => (∃ t, token = some t ∧ jwt.BoundTo id t) ∧ AllRevoked id w)
        fun accepted => accepted = true) own := by
  have hclosed : (Prog.done false : Service Bool).Answers fun accepted => ¬ accepted = true := Bool.false_ne_true
  unfold handleConnection
  split
  · exact barred_of_answers hclosed
  rw [dateNow_bind]
  refine barred_stmt fun s ⟨⟨t, ht, hbound⟩, _⟩ => ?_
  obtain rfl := Option.some.inj ht
  split
  · exact barred_of_answers hclosed
  rename_i claims hclaims
  rw [select_bind]
  refine barred_stmt fun s' ⟨_, hs⟩ => ?_
  split
  · exact barred_of_answers hclosed
  · rename_i device hdevice
    rw [if_pos (not_serves_of_revoked hs hdevice (hbound _ claims hclaims))]
    exact barred_of_answers hclosed

/-- The guard of signed requests turns away the key of a device that is revoked. -/
theorem barred_canActivate {allowsUnenrolled : Bool} {signed : SignedRequest} :
    (canActivate crypto allowsUnenrolled signed).Traces (fun _ _ => True) k q
      (Barred (fun w => signed.BoundTo id w ∧ AllRevoked id w) fun _ => True) own := by
  unfold canActivate
  split
  · exact fun _ _ h => nomatch h
  rename_i h hheaders
  split
  · exact fun _ _ h => nomatch h
  rw [dateNow_bind]
  refine barred_stmt fun s _ => ?_
  split
  · exact fun _ _ h => nomatch h
  split
  · exact fun _ _ h => nomatch h
  unfold admitRequest
  rw [select_bind]
  refine barred_stmt fun s ⟨hbound, hs⟩ => ?_
  obtain ⟨h', d, hheaders', hfind, hid⟩ := hbound
  obtain rfl : h = h' := Option.some.inj (hheaders.symm.trans hheaders')
  have hrevoked := hs d (List.mem_of_find?_eq_some hfind) hid
  rw [hfind]
  -- Either check of the device that is left refuses it.
  dsimp only [admitDevice]
  split
  · exact fun _ _ h => nomatch h
  · rename_i hadmitted
    exfalso
    by_cases hinstallation : d.installationId ≠ h.installationId
    · rw [if_pos hinstallation] at hadmitted
      cases hadmitted
    · rw [if_neg hinstallation, if_pos hrevoked] at hadmitted
      cases hadmitted

/-- No refresh token of a device that is revoked is exchanged. -/
theorem barred_rotate {refreshToken : String} :
    (rotate jwt config hashSecret refreshToken).Traces (fun _ _ => True) k q
      (Barred (fun w => (∃ t, w.refreshTokens.find? (·.tokenHash = hashSecret refreshToken) = some t ∧
        t.deviceId = id) ∧ AllRevoked id w) fun outcome => ∃ a, outcome = .ok a) own := by
  unfold rotate
  rw [select_bind]
  refine barred_stmt fun s ⟨⟨t, hfind, hid⟩, hs⟩ => barred_of_answers ?_
  rw [hfind, Option.bind_some]
  cases hdevice : findDevice t.deviceId s with
  | none => exact fun ⟨_, h⟩ => nomatch h
  | some device =>
    have hdid : device.id = t.deviceId := by simpa using List.find?_some hdevice
    have hrevoked := hs device (List.mem_of_find?_eq_some hdevice) (hdid.trans hid)
    have hends : ∀ reason fault, (revokeFamily t.familyId reason >>= fun _ =>
        (.done (.error fault) : Service RotationOutcome)).Answers fun outcome => ¬ ∃ a, outcome = .ok a :=
      fun reason fault => (Prog.answers_true _).bind fun _ _ ⟨_, h⟩ => nomatch h
    dsimp only [Option.map_some]
    split
    · exact hends _ _
    rw [dateNow_bind]
    intro s'
    dsimp only
    split
    · exact fun ⟨_, h⟩ => nomatch h
    exact hends _ _

/-- What is behind a guard that turns a request away. -/
theorem barred_behind {p : Service α} {f : α → Service β} {served' : β → Prop}
    (h : p.Traces (fun _ _ => True) k q (Barred B fun _ => True) own) :
    (p >>= f).Traces (fun _ _ => True) k q (Barred B served') own :=
  barred_bind h fun _ hfalse => absurd trivial hfalse

/-- **No request with a credential of the device** is served while the device is revoked. -/
theorem barred_handler (P : Platform) (id : String) (k : Nat) (q : Request) :
    (handler P q).Traces (fun _ _ => True) k q
      (Barred (fun w => q.BoundTo P id w ∧ AllRevoked id w) Response.Serves) [] := by
  cases q with
  | enroll signed context => exact barred_behind (barred_behind barred_canActivate)
  | agent route signed => exact barred_behind barred_canActivate
  | viewer token call => exact barred_behind barred_accessTokenGuard
  | verifyDevice input context =>
    refine barred_behind (?_ : Prog.Traces _ k _ (Barred _ fun _ => True) _ _)
    exact barred_behind (barred_stmt fun s ⟨hbound, _⟩ => hbound.elim)
  | refresh refreshToken context =>
    refine barred_behind (barred_bind barred_rotate fun outcome hnot => ?_)
    cases outcome with
    | ok x => exact absurd ⟨x, rfl⟩ hnot
    | error e =>
      obtain ⟨fault, userId⟩ := e
      cases fault with
      | reuseDetected => exact fun _ => trivial
      | _ => trivial
  | connect socket token =>
    refine barred_bind barred_handleConnection fun accepted hnot => ?_
    exact hnot

end Barred

/-! ## Runs -/

/-- Devices are apart, and so are sessions. -/
structure RevokeStart (w : World) : Prop where
  devices : DevicesApart w
  sessions : (w.api.remoteSessions.map (·.id)).Nodup

theorem RevokeStart.inv (h : RevokeStart s) : RevokeInv id ⟨s, []⟩ where
  ids := h.sessions
  device := by simp
  tokens := by simp
  sockets := by simp
  hosted := by simp [Looked]
  watched := by simp

/-- Nothing gets past a revocation of the device in a run. -/
def AllYield (id : String) (σ : AccountLog) : Prop :=
  ∀ step earlier, step :: earlier <:+ σ.history → Yields id step earlier

/-- A revocation that runs alone, where there are no sessions. -/
theorem yields_alone {step : AccountStep} (hq : step.request.Revokes id) (hw : RevokeWrite id step.write)
    (hnone : step.before.api.remoteSessions = []) : Yields id step earlier where
  trusts _ _ htrusts := by
    cases hrequest : step.request with
    | viewer token call =>
      rw [hrequest] at htrusts
      exact htrusts.elim
    | _ =>
      rw [hrequest] at hq
      exact hq.elim
  tokens clash row h := by
    rw [h] at hw
    obtain ⟨now, hop⟩ := hw
    cases hop
  sockets x h := by
    rw [h] at hw
    exact hw.elim
  looks _ _ := by simp [hnone]
  starts _ row h := by
    rw [h] at hw
    exact hw.elim
  revives _ _ _ _ := by simp [hnone]
  enrolls _ row now h := by
    rw [h] at hw
    exact hw.elim

/-- What every statement of such a run is. -/
theorem orderly_run (P : Platform) (s : World) (moves : List (Move Request Outside))
    (h : AllYield id (accountRun P s moves).log) :
    ∀ step earlier, step :: earlier <:+ (accountRun P s moves).log.history → Orderly id step earlier := by
  have hwrite := Concurrent.only_run (M := machine P) (P := AccountWrite) only_handler s moves
  have hrevokes := Concurrent.only_run (M := machine P) (P := fun q w => q.Revokes id → RevokeWrite id w)
    revokeWrite_handler s moves
  intro step earlier hsuffix
  have hmem := hsuffix.subset List.mem_cons_self
  exact ⟨hwrite step hmem, hrevokes step hmem, h step earlier hsuffix⟩

/-- Identities of devices are kept by every run. -/
theorem kept_devices (P : Platform) : Kept (machine P) (fun step : AccountStep => AccountWrite step.request step.write)
    DevicesApart DevicesStay where
  refl := DevicesStay.refl
  trans h h' := h.trans h'
  step _ hw h := devices_perform hw h
  env e _ h := devices_outside e h

/-- A device that is gone is revoked ever after. -/
theorem Gone.later {t : World} (h : Gone id s) (hstay : DevicesStay s t) (ht : DevicesApart t) :
    AllRevoked id t := by
  intro d hd hid
  obtain ⟨d₀, hd₀, hid₀⟩ := h.there
  obtain ⟨d', hd', hstays⟩ := hstay d₀ hd₀
  obtain rfl : d' = d := Table.eq_of_key ht.ids hd' hd ((hstays.id_eq.trans hid₀).trans hid.symm)
  exact hstays.revoked (h.revoked d₀ hd₀ hid₀).1

/-- **A revocation is complete** in every run in which nothing gets past it: when it is answered, having
found the device not revoked yet, the device is severed; and no request with a credential of the device
that comes later is served. -/
theorem revocation_complete (P : Platform) (s : World) (hs : RevokeStart s) (moves : List (Move Request Outside))
    (id : String) (hyield : AllYield id (accountRun P s moves).log) {i : Nat} {q : Request} {a : Response}
    (hanswered : (accountRun P s moves).Answered i q a) (hrevokes : q.Revokes id)
    (hmarks : ∃ step ∈ (accountRun P s moves).log.own i, ∃ op, step.write = .devices op) :
    Severed id (accountRun P s moves).log.shared ∧
      ∀ after j q' a', (accountRun P s moves).threads.length ≤ j →
        (accountRun P s (moves ++ after)).Answered j q' a' →
          (∀ step ∈ (accountRun P s (moves ++ after)).log.own j, q'.BoundTo P id step.before) → ¬ a'.Serves := by
  have hinv : RevokeInv id (accountRun P s moves).log :=
    ((upholds_revokeInv P id).run hs.inv moves (orderly_run P s moves hyield)).1
  have hswept : Swept id ((accountRun P s moves).log.own i) :=
    (Concurrent.traced_run swept_handler s moves).2 i q a hanswered id hrevokes a rfl hmarks
  have hown : ∀ step ∈ (accountRun P s moves).log.own i, step.request.Revokes id := fun step hstep => by
    rw [Concurrent.request_of_answered hanswered hstep]
    exact hrevokes
  have hsevered := hinv.severed hswept hown
  refine ⟨hsevered, fun after j q' a' hj hanswered' hbound => ?_⟩
  have hwrite := Concurrent.only_run (M := machine P) (P := AccountWrite) only_handler s (moves ++ after)
  have hbarred := (Concurrent.traced_run (barred_handler P id) s (moves ++ after)).2 j q' a' hanswered'
  refine hbarred (fun step hstep => ⟨hbound step hstep, ?_⟩) a' rfl
  obtain ⟨hmem, hthread⟩ := List.mem_filter.mp hstep
  -- The thread started when the device was gone.
  have hstay := (kept_devices P).found_later hs.devices moves after hwrite hmem ((of_decide_eq_true hthread).symm ▸ hj)
  have hapart := (((kept_devices P).run hs.devices moves after hwrite).2.before step hmem).1
  exact hsevered.device.later hstay hapart

/-! ## A computer that is revoked while it is watched -/

/-- The access token of a laptop. -/
def laptopToken : String := "laptop-access-token"

/-- A platform that knows one access token. -/
def laptopPlatform : Platform where
  crypto := plainCrypto
  jwt := ⟨fun _ _ _ => laptopToken, fun token _ => if token = laptopToken then some ⟨"u1", "d2", true⟩ else none⟩
  config := ⟨900, 30, 1⟩
  hashSecret secret := secret
  signer := ⟨"key", fun _ => ""⟩
  ice := ⟨fun _ _ => [], false⟩
  schemas :=
    { enroll := fun _ => none
      heartbeat := fun _ => none
      powerResult := fun _ => none
      remoteSignal := fun _ => none
      remoteConnected := fun _ => none
      remoteViolation := fun _ => none }

/-- A user with a computer and a laptop. -/
def studyAndLaptop : World :=
  { plainWorld with
    users := [⟨"u1", "Ada", "ada@example.com", "hash", true, 0, none⟩]
    devices := plainWorld.devices ++ [⟨"d2", "u1", "laptop", "Laptop", "linux", "desktop", none, none, "key2", true,
      some 0, 0, none, none, none, none⟩] }

/-- The computer hosts a session that is watched from the laptop. -/
def studyOnScreen : World :=
  { studyAndLaptop with
    api := { studyAndLaptop.api with
      remoteSessions := [⟨"s1", "space", "a1", "u1", some "d2", .control, .active, "nonce", 0, 600000, some 0, none,
        none, "direct", 0, 0, 0⟩] }
    agents := [⟨"a1", "space", "d1", "online", some 0, none, none, false, false⟩] }

/-- The owner revokes the computer from the laptop. -/
def revokeStudy : Request := .viewer (some laptopToken) (.revoke "d1" ⟨none, none, none⟩)

/-- The request is carried out alone. -/
abbrev revokeRun (w : World) : Config World Write HttpException Request Response :=
  accountRun laptopPlatform w (.call revokeStudy :: List.replicate 13 (.step 0))

/-- The computer as its owner is shown it then. -/
def revokedStudy : Response :=
  .device ⟨"d1", "Study", "linux", "agent", false, none, Api.toISOString 0, some (Api.toISOString 0), none, false⟩

/-- Nobody watches the computer, and it is severed. -/
theorem revocation_complete_study : Severed "d1" (revokeRun studyAndLaptop).log.shared := by
  have hanswered : (revokeRun studyAndLaptop).Answered 0 revokeStudy revokedStudy := rfl
  have hstart : RevokeStart studyAndLaptop := ⟨⟨by decide, by decide⟩, .nil⟩
  have halone : ∀ step ∈ (revokeRun studyAndLaptop).log.history,
      step.request = revokeStudy ∧ step.before.api.remoteSessions = [] := by decide +kernel
  have hyield : AllYield "d1" (revokeRun studyAndLaptop).log := by
    intro step earlier hsuffix
    have hmem := hsuffix.subset List.mem_cons_self
    obtain ⟨hrequest, hnone⟩ := halone step hmem
    have hwrite := Concurrent.only_run (M := machine laptopPlatform) (P := fun q w => q.Revokes "d1" → RevokeWrite "d1" w)
      revokeWrite_handler studyAndLaptop _ step hmem (by rw [hrequest]; rfl)
    exact yields_alone (by rw [hrequest]; rfl) hwrite hnone
  have hmarks : ∃ step ∈ (revokeRun studyAndLaptop).log.own 0, ∃ op, step.write = .devices op :=
    ⟨_, List.mem_of_getElem? (i := 7) rfl, _, rfl⟩
  exact (revocation_complete laptopPlatform studyAndLaptop hstart _ "d1" hyield hanswered rfl hmarks).1

/-- **A revocation** that is carried out alone leaves the computer on the screen of the laptop. -/
theorem revocation_incomplete :
    (revokeRun studyOnScreen).Answered 0 revokeStudy revokedStudy ∧ (revokeRun studyOnScreen).Finished ∧
      (∃ step ∈ (revokeRun studyOnScreen).log.own 0, ∃ op, step.write = .devices op) ∧
      ¬ Severed "d1" (revokeRun studyOnScreen).log.shared := by
  have hanswered : (revokeRun studyOnScreen).Answered 0 revokeStudy revokedStudy := rfl
  refine ⟨hanswered, fun t ht => ?_, ⟨_, List.mem_of_getElem? (i := 7) rfl, _, rfl⟩, fun h => ?_⟩
  · obtain rfl : t = ⟨revokeStudy, .done revokedStudy⟩ := List.mem_singleton.mp ht
    exact .inl ⟨revokedStudy, rfl⟩
  · have hlive : ∃ r ∈ (revokeRun studyOnScreen).log.shared.api.remoteSessions,
        Hosts "d1" (revokeRun studyOnScreen).log.shared r ∧ r.state ≠ .ended := by decide +kernel
    obtain ⟨r, hr, hhosts, hactive⟩ := hlive
    exact hactive (h.hosted r hr hhosts)

end Account
