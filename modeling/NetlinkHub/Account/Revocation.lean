import NetlinkHub.Account.Writes
import NetlinkHub.Concurrent.Trace

/-! # Revoking a device, statement by statement

`revoke` marks the device, revokes its refresh tokens, closes its sockets, ends the remote sessions that it
watches and uses up its codes, one statement after the other; the sessions that it hosts it does not look
for. What its statements are (`only_revocation`), and what it has done when it is answered
(`swept_handler`), is read off its program, whatever runs meanwhile. -/

namespace Account

open Api (Date HttpException RequestContext)
open Concurrent (Prog)

/-! ## What a revocation has done -/

/-- The request is to revoke the device. -/
def Request.Revokes (id : String) : Request → Prop
  | .viewer _ (.revoke deviceId _) => deviceId = id
  | _ => False

instance (id : String) : DecidablePred (Request.Revokes id) := fun q => by
  unfold Request.Revokes
  split <;> infer_instance

/-- The statement ends the session, or finds that it has ended. -/
def Disconnects (rid : String) (c : AccountStep) : Prop :=
  (∃ r ∈ c.before.api.remoteSessions, r.id = rid ∧ r.state = .ended) ∨
    ∃ now reason, c.write = .api (.updateSession rid (.ended now reason))

/-- A revocation has gone through all its statements. -/
structure Swept (id : String) (own : List AccountStep) : Prop where
  marks : ∃ s ∈ own, (∃ op, s.write = .devices op) ∧ ∃ d ∈ s.before.devices, d.id = id
  tokens : ∃ s ∈ own, ∃ op, s.write = .refreshTokens op
  sockets : ∃ s ∈ own, s.write = .disconnectDevice id
  looks : ∃ later look earlier, own = later ++ look :: earlier ∧
    look.write = .api (.select .remoteSessions) ∧
      ∀ r ∈ look.before.api.remoteSessions, r.viewerDeviceId = some id → r.state ≠ .ended →
        ∃ c ∈ later, Disconnects r.id c

/-- What the statements of a revocation are. -/
def RevokeWrite (id : String) : Write → Prop
  | .devices op => ∃ now, op = .update (·.id = id) (DeviceRow.revoked now)
  | .refreshTokens op => ∃ now, op = .update (fun t => t.deviceId = id ∧ t.revokedAt = none)
      (RefreshTokenRow.revoked "device_revoked" now)
  | .subscribe _ => False
  | .upsertAgent .. => False
  | .agents _ => False
  | .api (.insertSession _) => False
  | _ => True

section Traces

variable {k : Nat} {q : Request} {own : List AccountStep} {α : Type} {id rid : String}

/-- What a program makes sure of by the statements that it adds to those of its thread. -/
def Adds (R : List AccountStep → Prop) (own : List AccountStep) (r : Except HttpException α)
    (final : List AccountStep) : Prop :=
  ∀ a, r = .ok a → ∃ later, final = later ++ own ∧ R later

theorem Adds.of_suffix {R : List AccountStep → Prop} {r : Except HttpException α}
    {added final : List AccountStep} (h : added ++ own <:+ final) (hR : ∀ later, R (later ++ added)) :
    Adds R own r final := by
  intro _ _
  obtain ⟨later, rfl⟩ := h
  exact ⟨later ++ added, by rw [List.append_assoc], hR later⟩

/-- What two programs add, one after the other. -/
theorem Adds.andThen {β : Type} {R R' S : List AccountStep → Prop} {r : Except HttpException α}
    {r' : Except HttpException β} {middle final : List AccountStep} (h : Adds R own r middle)
    (hok : ∃ a, r = .ok a) (h' : Adds R' middle r' final)
    (hS : ∀ later later', R later → R' later' → S (later' ++ later)) : Adds S own r' final := by
  intro b hb
  obtain ⟨a, ha⟩ := hok
  obtain ⟨later, rfl, hR⟩ := h a ha
  obtain ⟨later', rfl, hR'⟩ := h' b hb
  exact ⟨later' ++ later, by rw [List.append_assoc], hS later later' hR hR'⟩

/-- **Closing a session** leaves it ended. -/
theorem traces_close (reason : Api.RemoteEndReason) (actorUserId : Option String)
    (context : Option RequestContext) :
    (lift (Api.close rid reason actorUserId context)).Traces (fun _ _ => True) k q
      (Adds (fun later => ∃ c ∈ later, Disconnects rid c) own) own := by
  unfold Api.close Api.selectSession lift
  rw [Api.select_bind]
  refine .stmt (fun _ => trivial) fun s => ?_
  dsimp only
  cases hfound : Api.findSession rid s.api with
  | none => exact fun _ h => nomatch h
  | some row =>
    have hrow := List.mem_of_find?_eq_some hfound
    have hid : row.id = rid := by simpa using List.find?_some hfound
    dsimp only [Option.map_some]
    split
    · rename_i hended
      intro _ _
      exact ⟨[_], rfl, _, List.mem_cons_self, .inl ⟨row, hrow, hid, hended⟩⟩
    · refine .stmt (fun _ => trivial) fun s' => .stmt (fun _ => trivial) fun s'' => ?_
      refine (Prog.traces_suffix _).mono fun r final hfinal => ?_
      -- The last of the three statements so far is the update.
      have hadded : [_, _, _] ++ own <:+ final := hfinal
      exact Adds.of_suffix hadded fun later =>
        ⟨_, List.mem_append_right _ List.mem_cons_self, .inr ⟨_, _, rfl⟩⟩

/-- What `Disconnects` says of one session after the other. -/
theorem traces_revokeEach (ids : List String) :
    (lift (Api.revokeEach ids)).Traces (fun _ _ => True) k q
      (Adds (fun later => ∀ rid ∈ ids, ∃ c ∈ later, Disconnects rid c) own) own := by
  induction ids generalizing own with
  | nil => exact fun _ _ => ⟨[], rfl, by simp⟩
  | cons rid ids ih =>
    have hlift : lift (Api.revokeEach (rid :: ids)) =
        lift (Api.close rid .permissionRevoked none none) >>= fun _ => lift (Api.revokeEach ids) :=
      Prog.lift_bind ..
    rw [hlift]
    refine Prog.Traces.bind (traces_close _ _ _) (fun view middle hmiddle => ?_) fun _ _ _ _ h => nomatch h
    refine ih.mono fun r final hfinal => ?_
    refine hmiddle.andThen ⟨view, rfl⟩ hfinal fun later later' hclosed hrest rid' hrid' => ?_
    rcases List.mem_cons.mp hrid' with rfl | hrid'
    · obtain ⟨c, hc, hcloses⟩ := hclosed
      exact ⟨c, List.mem_append_right _ hc, hcloses⟩
    · obtain ⟨c, hc, hcloses⟩ := hrest rid' hrid'
      exact ⟨c, List.mem_append_left _ hc, hcloses⟩

/-- Ending the sessions of a device: those that it watches are closed, whoever else is at them. -/
theorem traces_endSessionsForDevice :
    (lift (Api.endSessionsForDevice id)).Traces (fun _ _ => True) k q
      (Adds (fun added => ∃ later look earlier, added = later ++ look :: earlier ∧
        look.write = .api (.select .remoteSessions) ∧
          ∀ r ∈ look.before.api.remoteSessions, r.viewerDeviceId = some id → r.state ≠ .ended →
            ∃ c ∈ later, Disconnects r.id c) own) own := by
  refine .stmt (fun _ => trivial) fun s => ?_
  show (lift (Api.revokeEach ((s.api.remoteSessions.filter fun r =>
    r.viewerDeviceId = some id ∧ r.state.Live).map (·.id)) >>= fun _ => .done _)).Traces _ k q _ _
  rw [show ∀ p f, lift (p >>= f) = lift p >>= fun a => lift (f a) from fun p f => Prog.lift_bind ..]
  refine Prog.Traces.bind (traces_revokeEach _) (fun _ final hfinal => ?_) fun _ _ _ _ h => nomatch h
  obtain ⟨later, rfl, hclosed⟩ := hfinal () rfl
  intro _ _
  refine ⟨later ++ [_], by rw [List.append_assoc]; rfl, later, _, [], rfl, rfl, fun r hr hviewer hlive => ?_⟩
  refine hclosed r.id (List.mem_map.mpr ⟨r, List.mem_filter.mpr ⟨hr, ?_⟩, rfl⟩)
  exact decide_eq_true ⟨hviewer, hlive⟩

/-- **A revocation** that is answered has left the device as it is, or has gone through all its
statements. -/
theorem traces_revoke (userId : String) (context : RequestContext)
    (hown : ∀ s ∈ own, ∀ op, s.write ≠ .devices op) :
    (revoke userId id context).Traces (fun _ _ => True) k q
      (fun r final => ∀ a, r = .ok a → (∃ s ∈ final, ∃ op, s.write = .devices op) → Swept id final) own := by
  unfold revoke requireOwnDevice
  rw [select_bind, Prog.stmt_bind]
  refine .stmt (fun _ => trivial) fun s => ?_
  cases hfound : findDevice id s with
  | none => exact fun _ h => nomatch h
  | some device =>
    have hid : device.id = id := by simpa using List.find?_some hfound
    dsimp only
    split
    · exact fun _ h => nomatch h
    rw [Prog.done_bind]
    split
    · -- The device was revoked before, and nothing is written.
      rintro _ - ⟨s', hs', op, hwrite⟩
      rcases List.mem_cons.mp hs' with rfl | hs'
      · cases hwrite
      · exact absurd hwrite (hown s' hs' op)
    · rw [newDate_bind]
      refine .stmt (fun _ => trivial) fun s' => ?_
      rw [updateDevice_bind]
      refine .stmt (fun _ => trivial) fun s'' => ?_
      split
      · exact fun _ h => nomatch h
      · rename_i row hrow
        rw [hid] at hrow
        unfold sweepDevice revokeDeviceSessions
        simp only [newDate_bind, Prog.perform_bind, Prog.stmt_bind]
        refine .stmt (fun _ => trivial) fun u => .stmt (fun _ => trivial) fun u' =>
          .stmt (fun _ => trivial) fun u'' => ?_
        rw [Prog.bind_assoc, hid]
        refine Prog.Traces.bind traces_endSessionsForDevice (fun n middle hmiddle => ?_)
          fun _ _ _ _ h => nomatch h
        obtain ⟨added, rfl, later, look, earlier, rfl, hlook, hcloses⟩ := hmiddle n rfl
        refine (Prog.traces_suffix _).mono fun r final hfinal a _ _ => ?_
        obtain ⟨rest, rfl⟩ := hfinal
        refine ⟨?_, ?_, ?_, ?_⟩
        · refine ⟨⟨k, q, .devices (.update (·.id = id) (DeviceRow.revoked s'.api.clock)), s''⟩, ?_, ⟨_, rfl⟩,
            row, List.mem_of_find?_eq_some hrow, by simpa using List.find?_some hrow⟩
          simp
        · refine ⟨⟨k, q, .refreshTokens (.update (fun t => t.deviceId = id ∧ t.revokedAt = none)
            (RefreshTokenRow.revoked "device_revoked" u.api.clock)), u'⟩, ?_, _, rfl⟩
          simp
        · exact ⟨⟨k, q, .disconnectDevice id, u''⟩, by simp, rfl⟩
        · have hshape : ∀ base : List AccountStep, rest ++ (later ++ look :: earlier ++ base) =
              (rest ++ later) ++ look :: (earlier ++ base) := by simp
          refine ⟨rest ++ later, look, _, hshape _, hlook, fun r hr hviewer hlive => ?_⟩
          obtain ⟨c, hc, hclosed⟩ := hcloses r hr hviewer hlive
          exact ⟨c, List.mem_append_right _ hc, hclosed⟩

end Traces

/-! ## What its statements are -/

variable {P : Platform} {k : Nat} {q : Request} {id : String} {w : Write} {s t : World}
  {own : List AccountStep}

theorem only_requireOwnDevice (userId : String) : (requireOwnDevice userId id).Only Write.Gate := by
  unfold requireOwnDevice
  rw [select_bind]
  refine .stmt trivial fun w => ?_
  split
  · trivial
  · split <;> trivial

theorem answers_requireOwnDevice (userId : String) : (requireOwnDevice userId id).Answers (·.id = id) := by
  unfold requireOwnDevice
  rw [select_bind]
  intro s
  dsimp only
  cases hfound : findDevice id s with
  | none => trivial
  | some device =>
    dsimp only
    split
    · trivial
    · have hid := List.find?_some hfound
      show device.id = id
      exact of_decide_eq_true hid

theorem Write.Gate.revokeWrite (h : w.Gate) : RevokeWrite id w := by
  cases w with
  | api w => cases w with
    | insertSession row => cases h
    | _ => trivial
  | devices op => cases h
  | refreshTokens op => cases h
  | agents op => cases h
  | upsertAgent row now => cases h
  | subscribe s => cases h
  | _ => trivial

theorem only_sweep (userId : String) (device : DeviceRow) (context : RequestContext) (hid : device.id = id) :
    (sweepDevice userId device context).Only (RevokeWrite id) := by
  have hends : (lift (Api.endSessionsForDevice device.id)).Only (RevokeWrite id) := by
    refine (Api.only_endSessionsForDevice _).lift fun w hw => ?_
    cases w with
    | insertSession row => cases hw
    | _ => trivial
  unfold sweepDevice revokeDeviceSessions consumeChallenges
  simp only [newDate_bind, Prog.perform_bind, Prog.stmt_bind]
  refine .stmt trivial fun _ => .stmt ⟨_, by rw [hid]⟩ fun _ => .stmt trivial fun _ => ?_
  exact hends.bind fun _ => .stmt trivial fun _ => .stmt trivial fun _ => .stmt trivial fun _ => trivial

/-- **The statements of a revocation.** -/
theorem only_revocation (token : Option String) (context : RequestContext) :
    (handler P (.viewer token (.revoke id context))).Only (RevokeWrite id) := by
  refine ((only_accessTokenGuard token).mono fun w hw => hw.revokeWrite).bind fun principal =>
    Prog.Only.map ?_ _
  unfold revoke
  refine ((only_requireOwnDevice _).mono fun w hw => hw.revokeWrite).bind_answers
    (answers_requireOwnDevice _) fun device hid => ?_
  split
  · trivial
  rw [newDate_bind]
  refine .stmt trivial fun _ => ?_
  rw [updateDevice_bind]
  refine .stmt ⟨_, by rw [hid]⟩ fun _ => ?_
  split
  · trivial
  · exact (only_sweep _ _ _ hid).bind fun _ => trivial

theorem revokeWrite_handler (q : Request) : (handler P q).Only fun w => q.Revokes id → RevokeWrite id w := by
  by_cases hq : q.Revokes id
  · cases q with
    | viewer token call =>
      cases call with
      | revoke deviceId context =>
        obtain rfl : deviceId = id := hq
        exact (only_revocation token context).mono fun w hw _ => hw
      | _ => exact hq.elim
    | _ => exact hq.elim
  · exact (Prog.only_true _).mono fun w _ h => absurd h hq

/-- A revocation that is answered and has marked the device has gone through all its statements. -/
theorem swept_handler (k : Nat) (q : Request) : (handler P q).Traces (fun _ _ => True) k q
    (fun r own => ∀ id, q.Revokes id → ∀ a, r = .ok a → (∃ s ∈ own, ∃ op, s.write = .devices op) →
      Swept id own) [] := by
  by_cases hq : ∃ id, q.Revokes id
  · obtain ⟨id, hq⟩ := hq
    cases q with
    | viewer token call =>
      cases call with
      | revoke deviceId context =>
        obtain rfl : deviceId = id := hq
        have hguard : (accessTokenGuard P.jwt token).Traces (fun _ _ => True) k
            (Request.viewer token (.revoke deviceId context))
            (fun _ own => ∀ s ∈ own, ∀ op, s.write ≠ .devices op) [] := by
          refine .of_only (only_accessTokenGuard token) (fun w s own hw hown => ⟨trivial, ?_⟩) (by simp)
          intro s' hs' op hwrite
          rcases List.mem_cons.mp hs' with rfl | hs'
          · rw [show w = .devices op from hwrite] at hw
            exact hw
          · exact hown s' hs' op hwrite
        refine hguard.bind (fun principal own hown => ?_) fun _ _ _ _ _ _ h => nomatch h
        refine Prog.Traces.map _ (traces_revoke principal.userId context hown) ?_ fun _ _ _ _ _ _ h => nomatch h
        intro device own hswept id hid _ _ hmarks
        obtain rfl : deviceId = id := hid
        exact hswept device rfl hmarks
      | _ => exact hq.elim
    | _ => exact hq.elim
  · exact (Prog.traces_suffix _).mono fun _ _ _ id hid => absurd ⟨id, hid⟩ hq

end Account
