import NetlinkHub.Remote.Session
import Mathlib.Algebra.Order.Ring.Abs
import Mathlib.Algebra.Order.Ring.Rat
import Mathlib.Tactic.NormNum.Ineq

/-! # The input gate over a whole session

What comes in over the data channel of one session, message by message, with reports of the refused
count taken in between. In a session that does not allow input every message is counted and none reaches
the injector; in one that does, each call comes from a message of its own and is within bounds
(`input_gate`). -/

namespace Remote

open Posix (Bytes)

/-- `TakeRefused`: the count since it was last taken. -/
def Session.takeRefused (s : Session) : Nat × Session := (s.refused, { s with refused := 0 })

/-- What a session is asked to do: to handle a message, at a time and over what the platform's injector
answers, or to report what it has refused. -/
inductive Act where
  | message (raw : Bytes) (now : Time) (injector : Injection → Option String)
  | report

/-- What comes of it. -/
inductive Outcome where
  | handled (injection : Option Injection) (error : Option Error)
  | reported (count : Nat)
  deriving DecidableEq, Repr

/-- One act of a session; `unmarshal` is `json.Unmarshal` into an event. -/
def Session.act (unmarshal : Bytes → Option Event) (s : Session) : Act → Session × Outcome
  | .message raw now injector =>
    let (s, injection, error) := s.handleInput now (unmarshal raw) injector
    (s, .handled injection error)
  | .report =>
    let (count, s) := s.takeRefused
    (s, .reported count)

/-- A session over a list of acts, and what came of each. -/
def Session.acts (unmarshal : Bytes → Option Event) (s : Session) : List Act → Session × List Outcome
  | [] => (s, [])
  | a :: rest =>
    let (s, outcome) := s.act unmarshal a
    let (s, outcomes) := s.acts unmarshal rest
    (s, outcome :: outcomes)

/-- Whether it is a message. -/
def Act.isMessage : Act → Bool
  | .message .. => true
  | .report => false

/-- The call of the injector, if there was one. -/
def Outcome.injection? : Outcome → Option Injection
  | .handled injection _ => injection
  | .reported _ => none

/-- The count that was taken. -/
def Outcome.taken : Outcome → Nat
  | .handled .. => 0
  | .reported count => count

/-- A point of the screen, in its own measure. -/
def OnScreen (x y : ℚ) : Prop := (0 ≤ x ∧ x ≤ 1) ∧ 0 ≤ y ∧ y ≤ 1

/-- A call within bounds. -/
def Injection.InBounds : Injection → Prop
  | .mouseMove x y => OnScreen x y
  | .mouseButton button _ x y => button ∈ ["left", "middle", "right"] ∧ OnScreen x y
  | .mouseWheel deltaY => |deltaY| ≤ 10
  | .key code _ =>
    (1 ≤ code.toList.length ∧ code.toList.length ≤ 24) ∧ ∀ c ∈ code.toList, c.isAlphanum

/-- A call that stands for a message: the message has decoded and validated, and where it is about a key,
the call is one of `Key`. -/
def Injection.StandsFor (unmarshal : Bytes → Option Event) (injection : Injection) : Act → Prop
  | .message raw _ _ => ∃ ev, decodeEvent (unmarshal raw) = .ok ev ∧ apply ev = some injection ∧
      ((ev.kind = "key.down" ∨ ev.kind = "key.up") → ∃ down, injection = .key ev.code down)
  | .report => False

variable {s : Session} {unmarshal : Bytes → Option Event} {raw : Bytes} {now : Time}
  {injector : Injection → Option String} {ev ev' : Event} {injection : Injection}

/-! ## Bounds -/

theorem clamp01_bounds (v : ℚ) : 0 ≤ clamp01 v ∧ clamp01 v ≤ 1 := by
  unfold clamp01
  split
  · exact ⟨le_refl _, zero_le_one⟩
  · rename_i hlow
    split
    · exact ⟨zero_le_one, le_refl _⟩
    · rename_i hhigh
      exact ⟨not_lt.mp hlow, not_lt.mp hhigh⟩

theorem abs_clampDelta (v : ℚ) : |clampDelta v| ≤ 10 := by
  rw [abs_le]
  unfold clampDelta
  split
  · norm_num
  · rename_i hhigh
    split
    · norm_num
    · rename_i hlow
      exact ⟨not_lt.mp hlow, not_lt.mp hhigh⟩

/-- **Validation bounds the call.** -/
theorem inBounds_of_validate (h : validate ev = .ok ev') (happly : apply ev' = some injection) :
    injection.InBounds ∧
      ((ev'.kind = "key.down" ∨ ev'.kind = "key.up") → ∃ down, injection = .key ev'.code down) := by
  unfold validate at h
  split at h
  · rename_i hkind
    cases h
    rcases hkind with hkind | hkind
    · simp only [apply, hkind, if_true] at happly
      cases happly
      exact ⟨⟨clamp01_bounds _, clamp01_bounds _⟩, by simp [hkind]⟩
    · simp only [apply, hkind] at happly
      cases happly
      exact ⟨abs_clampDelta _, by simp [hkind]⟩
  split at h
  · rename_i hkind
    split at h
    · rename_i hbutton
      cases h
      have hscreen : OnScreen (clamp01 ev.x) (clamp01 ev.y) := ⟨clamp01_bounds _, clamp01_bounds _⟩
      rcases hkind with hkind | hkind <;> simp only [apply, hkind] at happly <;> cases happly <;>
        exact ⟨⟨hbutton, hscreen⟩, by simp [hkind]⟩
    · cases h
  split at h
  · rename_i hkind
    split at h
    · rename_i hcode
      cases h
      have hbounds : (1 ≤ ev.code.toList.length ∧ ev.code.toList.length ≤ 24) ∧
          ∀ c ∈ ev.code.toList, c.isAlphanum := by
        simpa [isKeyCode, and_assoc] using hcode
      rcases hkind with hkind | hkind <;> simp only [apply, hkind] at happly <;> cases happly <;>
        exact ⟨hbounds, fun _ => ⟨_, rfl⟩⟩
    · cases h
  · cases h

theorem validate_of_decodeEvent {event : Option Event} (h : decodeEvent event = .ok ev') :
    ∃ ev, validate ev = .ok ev' := by
  cases event with
  | none => cases h
  | some ev => exact ⟨ev, h⟩

/-! ## One act -/

/-- A session that does not allow input counts the message and does nothing else. -/
theorem handleInput_viewOnly {event : Option Event} (h : s.grant.mode ≠ "control") :
    s.handleInput now event injector = ({ s with refused := s.refused + 1 }, none, some .viewOnly) := by
  have hmode : ¬ RemoteGrant.allowsInput s.grant.mode := by simpa [RemoteGrant.allowsInput] using h
  unfold Session.handleInput
  rw [if_pos hmode]

@[simp] theorem refused_allow : (s.allow now).2.refused = s.refused := by
  unfold Session.allow
  simp only
  split <;> split <;> rfl

/-- A session that allows input counts no message as refused. -/
theorem refused_handleInput {event : Option Event} (h : s.grant.mode = "control") :
    (s.handleInput now event injector).1.refused = s.refused := by
  have hmode : RemoteGrant.allowsInput s.grant.mode := by simpa [RemoteGrant.allowsInput] using h
  have hrefused : (s.allow now).2.refused = s.refused := refused_allow
  unfold Session.handleInput
  rw [if_neg (not_not.mpr hmode)]
  split
  · rename_i hallow
    rwa [hallow] at hrefused
  · rename_i hallow
    rw [hallow] at hrefused
    repeat' split
    all_goals exact hrefused

/-- **A call stands for its message.** -/
theorem standsFor_of_injected
    (h : (s.handleInput now (unmarshal raw) injector).2.1 = some injection) :
    injection.InBounds ∧ injection.StandsFor unmarshal (.message raw now injector) := by
  unfold Session.handleInput at h
  split at h
  · cases h
  split at h
  · cases h
  split at h
  · cases h
  rename_i hdecode
  split at h
  · cases h
  rename_i call happly
  have hsame : call = injection := by
    split at h
    · exact Option.some.inj h
    · exact Option.some.inj h
  subst hsame
  obtain ⟨ev, hev⟩ := validate_of_decodeEvent hdecode
  obtain ⟨hbounds, hkey⟩ := inBounds_of_validate hev happly
  exact ⟨hbounds, _, hdecode, happly, hkey⟩

@[simp] theorem grant_act (a : Act) : (s.act unmarshal a).1.grant = s.grant := by
  cases a with
  | message raw now injector => exact grant_handleInput
  | report => rfl

/-! ## A whole session -/

@[simp] theorem acts_cons (a : Act) (rest : List Act) : s.acts unmarshal (a :: rest) =
    (((s.act unmarshal a).1.acts unmarshal rest).1,
      (s.act unmarshal a).2 :: ((s.act unmarshal a).1.acts unmarshal rest).2) := rfl

/-- What a session that does not allow input does: nothing is injected, each message is refused, and each
is counted once. -/
theorem acts_viewOnly (h : s.grant.mode ≠ "control") (acts : List Act) :
    (∀ injection error, .handled injection error ∈ (s.acts unmarshal acts).2 →
        injection = none ∧ error = some .viewOnly) ∧
      (s.acts unmarshal acts).1.refused + ((s.acts unmarshal acts).2.map Outcome.taken).sum =
        s.refused + acts.countP Act.isMessage := by
  induction acts generalizing s with
  | nil => exact ⟨by simp [Session.acts], by simp [Session.acts]⟩
  | cons a rest ih =>
    have hgrant : (s.act unmarshal a).1.grant.mode ≠ "control" := by rwa [grant_act]
    obtain ⟨hnone, hcount⟩ := ih hgrant
    rw [acts_cons]
    simp only [List.mem_cons, List.map_cons, List.sum_cons, List.countP_cons]
    cases a with
    | message raw now injector =>
      have hact : s.act unmarshal (.message raw now injector) =
          ({ s with refused := s.refused + 1 }, .handled none (some .viewOnly)) := by
        simp only [Session.act, handleInput_viewOnly h]
      rw [hact] at hnone hcount ⊢
      refine ⟨fun injection error hmem => ?_, ?_⟩
      · rcases hmem with heq | hmem
        · cases heq
          exact ⟨rfl, rfl⟩
        · exact hnone injection error hmem
      · simp only [Act.isMessage, Outcome.taken, if_true] at hcount ⊢
        omega
    | report =>
      have hact : s.act unmarshal .report = ({ s with refused := 0 }, .reported s.refused) := rfl
      rw [hact] at hnone hcount ⊢
      refine ⟨fun injection error hmem => ?_, ?_⟩
      · rcases hmem with heq | hmem
        · cases heq
        · exact hnone injection error hmem
      · simp only [Act.isMessage, Outcome.taken, Bool.false_eq_true, if_false] at hcount ⊢
        omega

/-- What a session that allows input does: the calls come from messages of their own, in their order. -/
theorem acts_control (h : s.grant.mode = "control") (hrefused : s.refused = 0) (acts : List Act) :
    (∃ sources, sources.Sublist acts ∧
        List.Forall₂ (fun injection a => injection.InBounds ∧ injection.StandsFor unmarshal a)
          ((s.acts unmarshal acts).2.filterMap Outcome.injection?) sources) ∧
      (s.acts unmarshal acts).1.refused = 0 ∧
      ∀ outcome ∈ (s.acts unmarshal acts).2, outcome.taken = 0 := by
  induction acts generalizing s with
  | nil => exact ⟨⟨[], .slnil, .nil⟩, hrefused, by simp [Session.acts]⟩
  | cons a rest ih =>
    have hgrant : (s.act unmarshal a).1.grant.mode = "control" := by rwa [grant_act]
    have hzero : (s.act unmarshal a).1.refused = 0 := by
      cases a with
      | message raw now injector => exact (refused_handleInput h).trans hrefused
      | report => rfl
    obtain ⟨⟨sources, hsub, hall⟩, hrefused', htaken⟩ := ih hgrant hzero
    rw [acts_cons]
    refine ⟨?_, hrefused', ?_⟩
    · simp only [List.filterMap_cons]
      split
      · exact ⟨sources, hsub.cons a, hall⟩
      · rename_i injection hinjection
        refine ⟨a :: sources, hsub.cons_cons a, .cons ?_ hall⟩
        cases a with
        | message raw now injector => exact standsFor_of_injected hinjection
        | report => cases hinjection
    · intro outcome hmem
      rcases List.mem_cons.mp hmem with rfl | hmem
      · cases a with
        | message raw now injector => rfl
        | report => exact hrefused
      · exact htaken outcome hmem

/-- **The input gate.** Whatever comes in over the data channel of a session: unless its mode is control,
nothing is ever injected, every message is refused, and what is still counted and what was taken make up
the messages; if it is control, the calls of the injector come from messages of their own that decoded
and validated, within bounds, and nothing is counted as refused. -/
theorem input_gate (unmarshal : Bytes → Option Event) (grant : RemoteGrant.Grant) (acts : List Act) :
    (grant.mode ≠ "control" →
      (∀ injection error, .handled injection error ∈ ((newSession grant).acts unmarshal acts).2 →
          injection = none ∧ error = some .viewOnly) ∧
        ((newSession grant).acts unmarshal acts).1.refused +
            (((newSession grant).acts unmarshal acts).2.map Outcome.taken).sum =
          acts.countP Act.isMessage) ∧
    (grant.mode = "control" →
      (∃ sources, sources.Sublist acts ∧
          List.Forall₂ (fun injection a => injection.InBounds ∧ injection.StandsFor unmarshal a)
            (((newSession grant).acts unmarshal acts).2.filterMap Outcome.injection?) sources) ∧
        ((newSession grant).acts unmarshal acts).1.refused = 0 ∧
        ∀ outcome ∈ ((newSession grant).acts unmarshal acts).2, outcome.taken = 0) := by
  refine ⟨fun h => ?_, fun h => acts_control h rfl acts⟩
  have hview : (newSession grant).grant.mode ≠ "control" := h
  obtain ⟨hnone, hcount⟩ := acts_viewOnly hview acts
  exact ⟨hnone, by simpa [newSession] using hcount⟩

end Remote
