import NetlinkHub.Api.Stale
import NetlinkHub.Remote.Gate

/-! # Refused input and its reports

A host counts the input that it refuses, takes the count from time to time, and reports it. What is taken
is gone from the host, and nobody looks at what becomes of the report. So the input that was refused is
what is recorded and what is pending exactly when no step of the run loses a count (`accounted_iff`). -/

namespace Violations

open Api (AgentPrincipal RemoteRequest World Write)
open Posix (Bytes)
open Remote (Injection Session)
open Run (run Along)

/-! ## A report at the control plane -/

/-- The body of a report. Its `kind` is always "input_on_view_only". -/
structure Report where
  deviceId : String
  sessionId : String
  count : Nat

/-- `remoteViolationSchema`. `uuid` tells which texts are UUIDs. -/
def Report.Valid (uuid : String → Bool) (r : Report) : Prop :=
  uuid r.deviceId ∧ uuid r.sessionId ∧ 1 ≤ r.count ∧ r.count ≤ 10000

instance (uuid : String → Bool) (r : Report) : Decidable (r.Valid uuid) :=
  inferInstanceAs (Decidable (_ ∧ _ ∧ _ ∧ _))

/-- `POST agent/remote/violation`. The principal is the one that the signature guard has found, if it has
let the request pass. -/
def violation (uuid : String → Bool) (principal : Option AgentPrincipal) (r : Report) (w : World) : World :=
  match principal with
  | none => w
  | some principal =>
    if r.Valid uuid then ((Api.reportViolation principal r.sessionId r.count).runAlone Api.exec w).2 else w

/-- The control plane accepts the report: the guard lets it pass, the body is valid, and the session is
one of this computer. -/
def Accepted (uuid : String → Bool) (principal : Option AgentPrincipal) (r : Report) (w : World) : Prop :=
  ∃ p, principal = some p ∧ r.Valid uuid ∧
    (Api.requireHostSession p.userId r.sessionId (some p.deviceId)).Succeeds Api.exec w

/-- What is recorded of a session. -/
def recorded (sessionId : String) (w : World) : Nat :=
  ((Api.findSession sessionId w).map (·.refusedInputs)).getD 0

/-- The statement counts refused input of the session. -/
def Refuses (sessionId : String) : Write → Bool
  | .updateSession id (.refused _) => id = sessionId
  | _ => false

/-- Only a report does. -/
theorem refuses_of_remoteWrite {q : RemoteRequest} {write : Write} {sessionId : String}
    (h : Api.RemoteWrite q write) (hrefuses : Refuses sessionId write) :
    ∃ principal count, q = .violation principal sessionId count := by
  unfold Refuses at hrefuses
  split at hrefuses
  · obtain ⟨principal, rfl⟩ := h
    exact ⟨principal, _, by rw [of_decide_eq_true hrefuses]⟩
  · cases hrefuses

/-! ## The host and what happens to it -/

/-- `reportViolations`. -/
inductive Reporter where
  /-- `Run` has not started it yet. -/
  | waiting
  | running
  /-- It has returned, or nothing will start it any more. -/
  | returned
  deriving DecidableEq, Repr

/-- The host of one session, and the control plane. -/
structure System where
  session : Session
  /-- The peer connection is open. -/
  connected : Bool
  /-- `done` is closed. -/
  done : Bool
  /-- The context is cancelled. -/
  cancelled : Bool
  reporter : Reporter
  /-- The count of the report that is under way. -/
  underWay : Option Nat
  /-- How often `ErrViewOnly` has been returned. -/
  refused : Nat
  world : World

/-- What happens. -/
inductive Event where
  /-- A message on the input channel. -/
  | message (raw : Bytes) (now : Time) (injector : Injection → Option String)
  /-- `Run` starts `reportViolations`. -/
  | start
  | tick
  /-- `finish`. -/
  | finish
  | cancel
  /-- `reportViolations` takes the branch of `done`. -/
  | lastReport
  /-- `reportViolations` takes the branch of `ctx.Done()`. -/
  | leave
  /-- `Run` returns, for whatever reason. -/
  | runReturns
  /-- The process of the agent ends. -/
  | exit
  /-- The report under way arrives at the control plane. -/
  | arrives (principal : Option AgentPrincipal)
  /-- The report under way does not arrive. -/
  | fails
  /-- The control plane carries out a statement of another call. -/
  | statement (write : Write)
  /-- The rest of the control plane changes something. -/
  | outside (e : Api.Outside)

/-- The count is taken, and reported unless it is zero. -/
def System.take (s : System) : System :=
  let (n, session) := s.session.takeRefused
  { s with session := session, underWay := if n > 0 then some n else none }

/-- The report of a count. -/
def System.report (deviceId : String) (s : System) (n : Nat) : Report :=
  ⟨deviceId, s.session.grant.sessionID, n⟩

section Run

variable (unmarshal : Bytes → Option Remote.Event) (uuid : String → Bool) (deviceId : String)

/-- One event. -/
def event : Event → System → System
  | .message raw now injector, s =>
    let (session, _, error) := s.session.handleInput now (unmarshal raw) injector
    { s with session := session, refused := if error = some .viewOnly then s.refused + 1 else s.refused }
  | .start, s => { s with reporter := .running }
  -- The error of a report is logged, or ignored: its count does not come back.
  | .tick, s => s.take
  | .finish, s => { s with done := true }
  | .cancel, s => { s with cancelled := true }
  | .lastReport, s => { s.take with reporter := .returned }
  | .leave, s => { s with reporter := .returned }
  | .runReturns, s =>
    { s with
      connected := false
      done := true
      reporter := if s.reporter = .waiting then .returned else s.reporter }
  | .exit, s => { s with connected := false, reporter := .returned }
  | .arrives principal, s =>
    match s.underWay with
    | none => s
    | some n => { s with underWay := none, world := violation uuid principal (s.report deviceId n) s.world }
  | .fails, s => { s with underWay := none }
  | .statement write, s => { s with world := Api.exec write s.world }
  | .outside e, s => { s with world := Api.outside e s.world }

/-- What can happen in a state. `reportViolations` waits for the answer to its report before it goes on. -/
def Enabled : Event → System → Prop
  | .message .., s => s.connected
  | .start, s => s.reporter = .waiting ∧ s.connected
  | .tick, s => s.reporter = .running ∧ s.underWay = none
  | .lastReport, s => s.reporter = .running ∧ s.underWay = none ∧ s.done
  | .leave, s => s.reporter = .running ∧ s.underWay = none ∧ s.cancelled
  | .runReturns, s => s.reporter = .running → s.done ∨ s.cancelled
  | .arrives _, s => s.underWay ≠ none
  | .fails, s => s.underWay ≠ none
  | .statement write, s => ¬ Refuses s.session.grant.sessionID write
  | _, _ => True

/-- **No count is lost**: input comes while the count can still be taken, nobody who could take it goes
while there is something to take, and no report fails or is turned down. -/
def Harmless : Event → System → Prop
  | .message .., s => s.reporter ≠ .returned
  | .leave, s => s.session.refused = 0
  | .runReturns, s => s.reporter = .waiting → s.session.refused = 0
  | .exit, s => s.reporter ≠ .returned → s.session.refused = 0
  | .arrives principal, s => ∀ n, s.underWay = some n → Accepted uuid principal (s.report deviceId n) s.world
  | .fails, _ => False
  | _, _ => True

end Run

/-- A host whose session has just begun. -/
def start (grant : RemoteGrant.Grant) (w : World) : System :=
  ⟨Remote.newSession grant, true, false, false, .waiting, none, 0, w⟩

/-- What can still be taken. -/
def System.takable (s : System) : Nat := if s.reporter = .returned then 0 else s.session.refused

/-- What is still pending on the host: what is under way, and what can still be taken. -/
def System.pending (s : System) : Nat := s.underWay.getD 0 + s.takable

/-- What is recorded or pending. -/
def System.total (s : System) : Nat := recorded s.session.grant.sessionID s.world + s.pending

/-! ## What the control plane records -/

variable {w : World} {sessionId : String} {row : Api.RemoteSessionRow}

/-- No other statement, and nothing from outside, changes what is recorded. -/
theorem recorded_exec {write : Write} (hrow : Api.findSession sessionId w = some row)
    (hrefuses : ¬ Refuses sessionId write) :
    ∃ row', Api.findSession sessionId (Api.exec write w) = some row' ∧
      row'.refusedInputs = row.refusedInputs := by
  cases write with
  | insertSession new =>
    refine ⟨row, ?_, rfl⟩
    simp only [Api.exec, Table.apply_insert, Api.findSession]
    split
    · exact hrow
    · rw [List.find?_append, show w.remoteSessions.find? (·.id = sessionId) = some row from hrow]
      rfl
  | updateSession id change =>
    have hfound : Api.findSession sessionId (Api.exec (.updateSession id change) w) =
        some (if row.id = id then change.apply row else row) := by
      simp only [Api.exec, Api.findSession]
      rw [Table.find?_update fun r => Api.sessionId_of_content (Api.content_apply change r),
        show w.remoteSessions.find? (·.id = sessionId) = some row from hrow]
      simp
    refine ⟨_, hfound, ?_⟩
    split
    · rename_i hid
      cases change with
      | refused count =>
        have hsame : id = sessionId := hid.symm.trans (Api.findSession_some hrow).2
        simp [Refuses, hsame] at hrefuses
      | _ => rfl
    · rfl
  | _ => exact ⟨row, hrow, rfl⟩

/-- The count of a report is added. -/
theorem recorded_refused (count : Nat) (hrow : Api.findSession sessionId w = some row) :
    ∃ row', Api.findSession sessionId (Api.exec (.updateSession sessionId (.refused count)) w) = some row' ∧
      row'.refusedInputs = row.refusedInputs + count := by
  refine ⟨{ row with refusedInputs := row.refusedInputs + count }, ?_, rfl⟩
  have hid : row.id = sessionId := (Api.findSession_some hrow).2
  simp only [Api.exec, Api.findSession]
  rw [Table.find?_update fun r => Api.sessionId_of_content (Api.content_apply (.refused count) r),
    show w.remoteSessions.find? (·.id = sessionId) = some row from hrow]
  simp [hid, Api.SessionChange.apply]

/-- Looking for the session changes none. -/
theorem sessions_requireHostSession (userId sessionId : String) (deviceId : Option String) (w : World) :
    ((Api.requireHostSession userId sessionId deviceId).runAlone Api.exec w).2.remoteSessions =
      w.remoteSessions := by
  have hkeep : ∀ (write : Write) (s : World), write.Quiet →
      (Api.exec write s).remoteSessions = s.remoteSessions := by
    intro write s hquiet
    cases write <;> first | rfl | cases hquiet
  exact (Api.only_requireHostSession userId sessionId deviceId).runAlone_eq hkeep w

/-- **What a report comes to**: its count is recorded, if it comes from the host of the session. -/
theorem recorded_reportViolation (p : AgentPrincipal) (count : Nat)
    (hrow : Api.findSession sessionId w = some row) :
    ∃ row', Api.findSession sessionId ((Api.reportViolation p sessionId count).runAlone Api.exec w).2 = some row' ∧
      ((Api.requireHostSession p.userId sessionId (some p.deviceId)).Succeeds Api.exec w →
        row'.refusedInputs = row.refusedInputs + count) ∧
      (¬ (Api.requireHostSession p.userId sessionId (some p.deviceId)).Succeeds Api.exec w →
        row'.refusedInputs = row.refusedInputs) := by
  have hkept := sessions_requireHostSession p.userId sessionId (some p.deviceId) w
  unfold Api.reportViolation
  rw [Concurrent.Prog.runAlone_bind]
  unfold Concurrent.Prog.Succeeds
  cases hhost : (Api.requireHostSession p.userId sessionId (some p.deviceId)).runAlone Api.exec w with
  | mk answer t =>
    rw [hhost] at hkept
    have hrow' : Api.findSession sessionId t = some row := by rwa [Api.findSession, hkept]
    cases answer with
    | error e => exact ⟨row, hrow', fun ⟨a, ha⟩ => (nomatch ha), fun _ => rfl⟩
    | ok session =>
      have hid : session.row.id = sessionId :=
        (Api.answers_requireHostSession p.userId sessionId (some p.deviceId)).of_runAlone hhost
      obtain ⟨row', hrecorded, hcount⟩ := recorded_refused count hrow'
      refine ⟨row', ?_, fun _ => hcount, fun hnot => absurd ⟨session, rfl⟩ hnot⟩
      -- The update finds the row that was looked for, and the audit record comes after it.
      simp only [Api.updateSession, hid, Concurrent.Prog.stmt_bind, Concurrent.Prog.runAlone_stmt, hrow',
        Concurrent.Prog.done_bind]
      exact hrecorded

/-- A report is recorded if it is accepted, and is not if it is not. -/
theorem recorded_violation (uuid : String → Bool) (principal : Option AgentPrincipal) (r : Report)
    (hrow : Api.findSession r.sessionId w = some row) :
    ∃ row', Api.findSession r.sessionId (violation uuid principal r w) = some row' ∧
      (Accepted uuid principal r w → row'.refusedInputs = row.refusedInputs + r.count) ∧
        (¬ Accepted uuid principal r w → row'.refusedInputs = row.refusedInputs) := by
  cases principal with
  | none => exact ⟨row, hrow, fun haccepted => (nomatch haccepted.choose_spec.1), fun _ => rfl⟩
  | some p =>
    by_cases hvalid : r.Valid uuid
    · have hworld : violation uuid (some p) r w =
          ((Api.reportViolation p r.sessionId r.count).runAlone Api.exec w).2 := if_pos hvalid
      have haccepted : Accepted uuid (some p) r w ↔
          (Api.requireHostSession p.userId r.sessionId (some p.deviceId)).Succeeds Api.exec w := by
        simp [Accepted, hvalid]
      rw [hworld, haccepted]
      exact recorded_reportViolation p r.count hrow
    · have hworld : violation uuid (some p) r w = w := if_neg hvalid
      rw [hworld]
      refine ⟨row, hrow, fun ⟨_, _, hvalid', _⟩ => absurd hvalid' hvalid, fun _ => rfl⟩

/-! ## What is lost on the way -/

variable {unmarshal : Bytes → Option Remote.Event} {uuid : String → Bool} {deviceId : String} {s : System}
  {e : Event} {events : List Event}

/-- The session does not allow input, is in the table, and no report is empty. -/
structure Sound (s : System) : Prop where
  mode : s.session.grant.mode ≠ "control"
  found : ∃ row, Api.findSession s.session.grant.sessionID s.world = some row
  positive : s.underWay ≠ some 0

/-- What a step has lost: so much more was refused than is recorded or pending, and nothing exactly when
the step is harmless. -/
def Loses (harmless : Prop) (s s' : System) : Prop :=
  ∃ lost, s'.refused + s.total = s.refused + s'.total + lost ∧ (lost = 0 ↔ harmless)

@[simp] theorem refused_take : s.take.session.refused = 0 := rfl

theorem underWay_take :
    s.take.underWay = if s.session.refused > 0 then some s.session.refused else none := rfl

theorem positive_take : s.take.underWay ≠ some 0 := by
  rw [underWay_take]
  split
  · rename_i hpos
    exact fun heq => absurd (Option.some.inj heq) (Nat.pos_iff_ne_zero.mp hpos)
  · exact nofun

/-- The host after a message that it has refused. -/
def System.refuse (s : System) : System :=
  { s with
    session := { s.session with refused := s.session.refused + 1 }
    refused := s.refused + 1 }

/-- What is taken is under way. -/
theorem getD_underWay_take : s.take.underWay.getD 0 = s.session.refused := by
  rw [underWay_take]
  split
  · rfl
  · rename_i hzero
    exact (Nat.eq_zero_of_not_pos hzero).symm

theorem takable_of_returned (h : s.reporter = .returned) : s.takable = 0 := if_pos h

theorem takable_of_ne (h : s.reporter ≠ .returned) : s.takable = s.session.refused := if_neg h

@[simp] theorem takable_take : s.take.takable = 0 := by
  unfold System.takable
  rw [refused_take, ite_self]

theorem takable_of_running (h : s.reporter = .running) : s.takable = s.session.refused :=
  takable_of_ne (by simp [h])

theorem total_eq (s : System) : s.total =
    recorded s.session.grant.sessionID s.world + (s.underWay.getD 0 + s.takable) := rfl

/-- What is no longer pending, and not recorded, is lost. -/
theorem loses_of_total {harmless : Prop} {s' : System} {lost : Nat} (hrefused : s'.refused = s.refused)
    (htotal : s.total = s'.total + lost) (hlost : lost = 0 ↔ harmless) : Loses harmless s s' :=
  ⟨lost, by rw [hrefused, htotal, Nat.add_assoc], hlost⟩

/-- Nothing is lost where nothing changes that is counted. -/
theorem loses_nothing {harmless : Prop} {s' : System} (hrefused : s'.refused = s.refused)
    (htotal : s'.total = s.total) (hharmless : harmless) : Loses harmless s s' :=
  loses_of_total hrefused (htotal.symm.trans (Nat.add_zero _).symm) (iff_of_true rfl hharmless)

/-- A report that arrives. -/
theorem loses_arrives (h : Sound s) (principal : Option AgentPrincipal) {n : Nat} (hn : s.underWay = some n) :
    Sound (event unmarshal uuid deviceId (.arrives principal) s) ∧
      Loses (Harmless uuid deviceId (.arrives principal) s) s
        (event unmarshal uuid deviceId (.arrives principal) s) := by
  obtain ⟨row, hrow⟩ := h.found
  obtain ⟨row', hfound, haccepted, hrejected⟩ := recorded_violation uuid principal (s.report deviceId n) hrow
  have hevent : event unmarshal uuid deviceId (.arrives principal) s =
      { s with underWay := none, world := violation uuid principal (s.report deviceId n) s.world } := by
    simp only [event, hn]
  have hharmless : Harmless uuid deviceId (.arrives principal) s ↔
      Accepted uuid principal (s.report deviceId n) s.world := by simp [Harmless, hn]
  have hbefore : s.total = row.refusedInputs + (n + s.takable) := by
    rw [total_eq, recorded, hrow, hn]
    rfl
  have hafter : (event unmarshal uuid deviceId (.arrives principal) s).total =
      row'.refusedInputs + (0 + s.takable) := by
    rw [hevent]
    show ((Api.findSession s.session.grant.sessionID _).map _).getD 0 + _ = _
    rw [show Api.findSession s.session.grant.sessionID _ = some row' from hfound]
    rfl
  have hrefused : (event unmarshal uuid deviceId (.arrives principal) s).refused = s.refused := by rw [hevent]
  refine ⟨by rw [hevent]; exact ⟨h.mode, ⟨row', hfound⟩, nofun⟩, ?_⟩
  rw [hharmless]
  -- The report is over in both cases; only in the first has its count moved to the row.
  by_cases haccept : Accepted uuid principal (s.report deviceId n) s.world
  · have hcount : row'.refusedInputs = row.refusedInputs + n := haccepted haccept
    exact ⟨0, by omega, iff_of_true rfl haccept⟩
  · have hcount : row'.refusedInputs = row.refusedInputs := hrejected haccept
    have hpos : n ≠ 0 := fun hzero => h.positive (hzero ▸ hn)
    exact ⟨n, by omega, iff_of_false hpos haccept⟩

/-- **One step**: it keeps the session as it must be, and what it loses is known. -/
theorem sound_event (h : Sound s) (henabled : Enabled e s) : Sound (event unmarshal uuid deviceId e s) ∧
    Loses (Harmless uuid deviceId e s) s (event unmarshal uuid deviceId e s) := by
  cases e with
  | message raw now injector =>
    have hevent : event unmarshal uuid deviceId (.message raw now injector) s = s.refuse := by
      simp only [event, Remote.handleInput_viewOnly h.mode, if_true, System.refuse]
    rw [hevent]
    refine ⟨⟨h.mode, h.found, h.positive⟩, ?_⟩
    -- Nobody takes what is counted after `reportViolations` has returned.
    by_cases hreporter : s.reporter = .returned
    · have hbefore : s.takable = 0 := takable_of_returned hreporter
      have hafter : s.refuse.takable = 0 := takable_of_returned hreporter
      refine ⟨1, ?_, iff_of_false one_ne_zero (not_not.mpr hreporter)⟩
      rw [total_eq, total_eq, hbefore, hafter]
      exact Nat.add_right_comm _ _ _
    · have hbefore : s.takable = s.session.refused := takable_of_ne hreporter
      have hafter : s.refuse.takable = s.session.refused + 1 := takable_of_ne hreporter
      refine ⟨0, ?_, iff_of_true rfl hreporter⟩
      rw [total_eq, total_eq, hbefore, hafter]
      show s.refused + 1 + (_ + (_ + s.session.refused)) =
        s.refused + (recorded s.session.grant.sessionID s.world + (s.underWay.getD 0 + (s.session.refused + 1)))
      omega
  | start =>
    refine ⟨⟨h.mode, h.found, h.positive⟩, loses_nothing rfl ?_ trivial⟩
    have hwaiting : s.takable = s.session.refused := takable_of_ne (by simp [henabled.1])
    rw [total_eq, total_eq, hwaiting]
    rfl
  | tick =>
    -- What could be taken is under way now.
    refine ⟨⟨h.mode, h.found, positive_take⟩, loses_nothing rfl ?_ trivial⟩
    show s.take.total = s.total
    rw [total_eq, total_eq, getD_underWay_take, takable_take, takable_of_running henabled.1, henabled.2,
      Option.getD_none, Nat.add_comm s.session.refused]
    rfl
  | finish => exact ⟨⟨h.mode, h.found, h.positive⟩, loses_nothing rfl rfl trivial⟩
  | cancel => exact ⟨⟨h.mode, h.found, h.positive⟩, loses_nothing rfl rfl trivial⟩
  | lastReport =>
    refine ⟨⟨h.mode, h.found, positive_take⟩, loses_nothing rfl ?_ trivial⟩
    show recorded _ _ + (s.take.underWay.getD 0 + 0) = _
    rw [total_eq, getD_underWay_take, takable_of_running henabled.1, henabled.2.1, Option.getD_none,
      Nat.add_comm s.session.refused]
    rfl
  | leave =>
    refine ⟨⟨h.mode, h.found, h.positive⟩, loses_of_total rfl ?_ Iff.rfl⟩
    rw [total_eq, takable_of_running henabled.1]
    exact (Nat.add_assoc _ _ _).symm
  | runReturns =>
    refine ⟨⟨h.mode, h.found, h.positive⟩, ?_⟩
    cases hreporter : s.reporter with
    | waiting =>
      -- `reportViolations` is never started.
      have hbefore : s.takable = s.session.refused := takable_of_ne (by simp [hreporter])
      have hafter : (event unmarshal uuid deviceId .runReturns s).takable = 0 :=
        takable_of_returned (by simp [event, hreporter])
      have hlost : s.session.refused = 0 ↔ Harmless uuid deviceId .runReturns s := by simp [Harmless, hreporter]
      refine loses_of_total rfl ?_ hlost
      rw [total_eq, total_eq, hbefore, hafter]
      exact (Nat.add_assoc _ _ _).symm
    | running =>
      refine loses_nothing rfl ?_ (by simp [Harmless, hreporter])
      simp [event, total_eq, System.takable, hreporter]
    | returned =>
      refine loses_nothing rfl ?_ (by simp [Harmless, hreporter])
      simp [event, total_eq, System.takable, hreporter]
  | exit =>
    refine ⟨⟨h.mode, h.found, h.positive⟩, ?_⟩
    have hafter : (event unmarshal uuid deviceId .exit s).takable = 0 := takable_of_returned rfl
    by_cases hreporter : s.reporter = .returned
    · refine loses_nothing rfl ?_ (fun hnot => absurd hreporter hnot)
      rw [total_eq, total_eq, hafter, takable_of_returned hreporter]
      rfl
    · have hlost : s.session.refused = 0 ↔ Harmless uuid deviceId .exit s := by simp [Harmless, hreporter]
      refine loses_of_total rfl ?_ hlost
      rw [total_eq, total_eq, hafter, takable_of_ne hreporter]
      exact (Nat.add_assoc _ _ _).symm
  | arrives principal =>
    obtain ⟨n, hn⟩ := Option.ne_none_iff_exists'.mp henabled
    exact loses_arrives h principal hn
  | fails =>
    obtain ⟨n, hn⟩ := Option.ne_none_iff_exists'.mp henabled
    have hpos : n ≠ 0 := fun hzero => h.positive (hzero ▸ hn)
    refine ⟨⟨h.mode, h.found, nofun⟩, loses_of_total rfl ?_ (iff_of_false hpos not_false)⟩
    show s.total = recorded s.session.grant.sessionID s.world + (0 + s.takable) + n
    rw [total_eq, hn, Option.getD_some]
    omega
  | statement write =>
    obtain ⟨row, hrow⟩ := h.found
    obtain ⟨row', hfound, hsame⟩ := recorded_exec hrow henabled
    refine ⟨⟨h.mode, ⟨row', hfound⟩, h.positive⟩, loses_nothing rfl ?_ trivial⟩
    have hrecorded : recorded s.session.grant.sessionID (Api.exec write s.world) =
        recorded s.session.grant.sessionID s.world := by
      simp only [recorded, hrow, hfound, Option.map_some, Option.getD_some, hsame]
    exact congrArg (· + s.pending) hrecorded
  | outside e =>
    have hsame : Api.findSession s.session.grant.sessionID (Api.outside e s.world) =
        Api.findSession s.session.grant.sessionID s.world := by simp [Api.findSession]
    refine ⟨⟨h.mode, h.found.imp fun row hrow => hsame.trans hrow, h.positive⟩,
      loses_nothing rfl ?_ trivial⟩
    have hrecorded : recorded s.session.grant.sessionID (Api.outside e s.world) =
        recorded s.session.grant.sessionID s.world := by rw [recorded, hsame, recorded]
    exact congrArg (· + s.pending) hrecorded

/-- **A whole run** loses what its steps lose. -/
theorem loses_run (h : Sound s) (henabled : Along (event unmarshal uuid deviceId) Enabled events s) :
    Loses (Along (event unmarshal uuid deviceId) (Harmless uuid deviceId) events s) s
      (run (event unmarshal uuid deviceId) events s) := by
  induction events generalizing s with
  | nil => exact loses_nothing rfl rfl trivial
  | cons e events ih =>
    have hstep : Sound (event unmarshal uuid deviceId e s) ∧ Loses _ s (event unmarshal uuid deviceId e s) :=
      sound_event h henabled.1
    obtain ⟨hsound, lost, hbalance, hzero⟩ := hstep
    obtain ⟨lost', hbalance', hzero'⟩ := ih hsound henabled.2
    rw [Run.run_cons]
    refine ⟨lost + lost', by omega, ?_⟩
    rw [Nat.add_eq_zero_iff, hzero, hzero']
    exact Iff.rfl

/-- **Refused input is accounted for**, recorded or pending, exactly when no step of the run loses a
count. -/
theorem accounted_iff (unmarshal : Bytes → Option Remote.Event) (uuid : String → Bool) (deviceId : String)
    (grant : RemoteGrant.Grant) (hmode : grant.mode ≠ "control") (w : World)
    (hfound : ∃ row, Api.findSession grant.sessionID w = some row ∧ row.refusedInputs = 0)
    (events : List Event) (henabled : Along (event unmarshal uuid deviceId) Enabled events (start grant w)) :
    (run (event unmarshal uuid deviceId) events (start grant w)).refused =
        (run (event unmarshal uuid deviceId) events (start grant w)).total ↔
      Along (event unmarshal uuid deviceId) (Harmless uuid deviceId) events (start grant w) := by
  obtain ⟨row, hrow, hzero⟩ := hfound
  have hsound : Sound (start grant w) := ⟨hmode, ⟨row, hrow⟩, nofun⟩
  have hnothing : (start grant w).total = 0 := by
    show ((Api.findSession grant.sessionID w).map _).getD 0 + 0 = 0
    rw [hrow]
    exact hzero
  obtain ⟨lost, hbalance, hharmless⟩ := loses_run hsound henabled
  have hrefused : (start grant w).refused = 0 := rfl
  -- At the start nothing has been refused, recorded or taken, so all that is missing was lost.
  rw [← hharmless]
  omega

/-! ## A report that fails -/

/-- The two texts below are UUIDs. -/
def looksLikeUuid (text : String) : Bool :=
  (text.toList.splitOn '-').map List.length = [8, 4, 4, 4, 12]

/-- The computer that is watched, and its agent. -/
def desk : AgentPrincipal := ⟨"ada", "7c9e6679-7425-40de-944b-e07fc1f90ae7"⟩

/-- Its session at the control plane. -/
def watchedWorld : World :=
  { Api.screenWorld with
    directory := { Api.screenWorld.directory with
      agents := [⟨"agent", "space", desk.deviceId, "Study", none, some 0, none, none, false, false⟩]
      agentIds := by decide }
    remoteSessions := [Api.watching "3f2504e0-4f89-41d3-9a0c-0305e82c3301" 0] }

/-- Its session on the host. -/
def watchGrant : RemoteGrant.Grant :=
  ⟨"3f2504e0-4f89-41d3-9a0c-0305e82c3301", "space", "agent", "view", "ada", ⟨0⟩, ⟨0⟩, "n"⟩

/-- What happens to it. No message is JSON. -/
def deskEvent : Event → System → System := event (fun _ => none) looksLikeUuid desk.deviceId

/-- A message is refused, and reported. -/
def oneReport : List Event := [.start, .message [] ⟨0⟩ fun _ => none, .tick]

/-- The report arrives, and the session ends. -/
def arriving : List Event := oneReport ++ [.arrives (some desk), .finish, .lastReport, .runReturns]

/-- The report fails. -/
def failing : List Event := oneReport ++ [.fails]

theorem accounted_arriving : (run deskEvent arriving (start watchGrant watchedWorld)).refused =
    (run deskEvent arriving (start watchGrant watchedWorld)).total := by
  refine (accounted_iff (fun _ => none) looksLikeUuid desk.deviceId watchGrant (by decide) watchedWorld
    ⟨_, rfl, rfl⟩ arriving ?_).mpr ?_
  · exact ⟨⟨rfl, rfl⟩, rfl, ⟨rfl, rfl⟩, nofun, trivial, ⟨rfl, rfl, rfl⟩, fun _ => .inl rfl, trivial⟩
  · refine ⟨trivial, nofun, trivial, fun n hn => ?_, trivial, trivial, nofun, trivial⟩
    obtain rfl := Option.some.inj hn
    exact ⟨desk, rfl, by decide +kernel, _, rfl⟩

/-- The count that was taken is lost with the report. -/
theorem lost_failing : ¬ ∀ (unmarshal : Bytes → Option Remote.Event) (uuid : String → Bool)
    (deviceId : String) (grant : RemoteGrant.Grant) (w : World) (events : List Event),
    grant.mode ≠ "control" →
      (∃ row, Api.findSession grant.sessionID w = some row ∧ row.refusedInputs = 0) →
      Along (event unmarshal uuid deviceId) Enabled events (start grant w) →
        (run (event unmarshal uuid deviceId) events (start grant w)).refused =
          (run (event unmarshal uuid deviceId) events (start grant w)).total := by
  intro hall
  have heq := hall (fun _ => none) looksLikeUuid desk.deviceId watchGrant watchedWorld failing (by decide)
    ⟨_, rfl, rfl⟩ ⟨⟨rfl, rfl⟩, rfl, ⟨rfl, rfl⟩, nofun, trivial⟩
  have hrefused : (run deskEvent failing (start watchGrant watchedWorld)).refused = 1 := by decide +kernel
  have htotal : (run deskEvent failing (start watchGrant watchedWorld)).total = 0 := by decide +kernel
  exact absurd (hrefused.symm.trans (heq.trans htotal)) one_ne_zero

end Violations
