import NetlinkHub.Remote.Gate
import NetlinkHub.Run.Steps
import Mathlib.Logic.Function.Basic

/-! # Keys and buttons that stay down

A press and its release are two messages, and the limiter may take one of them and not the other. Nothing
releases what is down when a session ends, so what is left pressed is decided by the messages that the
limiter has admitted (`nothing_pressed_iff`). -/

namespace Remote

open Posix (Bytes)

/-! ## Keys and buttons -/

/-- What can be down. -/
inductive Control where
  | key (code : String)
  | button (button : String)
  deriving DecidableEq, Repr

/-- What the call presses, or releases. -/
def Injection.control : Injection → Option (Control × Bool)
  | .key code down => some (.key code, down)
  | .mouseButton button down _ _ => some (.button button, down)
  | _ => none

/-- What is down after a press or a release. -/
def press (pressed : Control → Bool) (e : Control × Bool) : Control → Bool := Function.update pressed e.1 e.2

/-- Every press is followed by a release of the same key or button. -/
def Balanced : List (Control × Bool) → Prop
  | [] => True
  | (c, down) :: rest => (down = true → (c, false) ∈ rest) ∧ Balanced rest

instance decidableBalanced : DecidablePred Balanced
  | [] => .isTrue trivial
  | (c, down) :: rest =>
    have := decidableBalanced rest
    inferInstanceAs (Decidable ((down = true → (c, false) ∈ rest) ∧ Balanced rest))

/-- What was down before is released, too, if nothing is down in the end. -/
theorem balanced_from (pressed : Control → Bool) (es : List (Control × Bool)) :
    (∀ c, es.foldl press pressed c = false) ↔ (∀ c, pressed c = true → (c, false) ∈ es) ∧ Balanced es := by
  induction es generalizing pressed with
  | nil => simp [Balanced]
  | cons e es ih =>
    obtain ⟨c₀, down⟩ := e
    -- What is down after the first entry has to be released by the others.
    rw [List.foldl_cons, ih, Balanced, ← and_assoc]
    refine and_congr_left fun _ => ⟨fun h => ⟨fun c hc => ?_, fun hdown => ?_⟩, fun h c hc => ?_⟩
    · by_cases hsame : c = c₀
      · cases down with
        | true => exact List.mem_cons_of_mem _ (h c (by simp [press, hsame]))
        | false => rw [hsame]; exact List.mem_cons_self
      · exact List.mem_cons_of_mem _ (h c (by simpa [press, hsame] using hc))
    · exact h c₀ (by simpa [press] using hdown)
    · by_cases hsame : c = c₀
      · subst hsame
        exact h.2 (by simpa [press] using hc)
      · have hold := h.1 c (by simpa [press, hsame] using hc)
        simpa [hsame] using hold

/-- **Nothing is down in the end exactly when every press is followed by a release.** -/
theorem balanced_iff (es : List (Control × Bool)) :
    (∀ c, es.foldl press (fun _ => false) c = false) ↔ Balanced es := by
  rw [balanced_from]
  exact and_iff_right (by simp)

/-! ## A session and its end -/

/-- What happens to the host of a session. -/
inductive HostEvent where
  /-- A message on the input channel. -/
  | message (raw : Bytes) (now : Time) (injector : Injection → Option String)
  /-- The refused count is taken. -/
  | report
  /-- `finish`: the viewer has left, or the connection is lost. -/
  | finish
  /-- `Close`, or the end of `Run`. -/
  | close

/-- The host of a session, and what is down on its computer. -/
structure Host where
  session : Session
  closed : Bool
  /-- The peer connection is open. -/
  connected : Bool
  pressed : Control → Bool

/-- `NewHost`. -/
def newHost (grant : RemoteGrant.Grant) : Host := ⟨newSession grant, false, true, fun _ => false⟩

/-- What a message has done: the call of the injector, if it has succeeded. -/
def Outcome.done : Outcome → Option Injection
  | .handled injection none => injection
  | _ => none

/-- One event. -/
def Host.event (unmarshal : Bytes → Option Event) (e : HostEvent) (h : Host) : Host :=
  match e with
  | .message raw now injector =>
    if h.connected then
      let (session, outcome) := h.session.act unmarshal (.message raw now injector)
      { h with
        session := session
        pressed := ((outcome.done.bind Injection.control).map (press h.pressed)).getD h.pressed }
    else h
  | .report => { h with session := h.session.takeRefused.2 }
  | .finish => { h with closed := true }
  | .close => { h with closed := true, connected := false }

/-- The messages that come in before the connection is closed. -/
def arrived : List HostEvent → List Act
  | [] => []
  | .message raw now injector :: rest => .message raw now injector :: arrived rest
  | .close :: _ => []
  | _ :: rest => arrived rest

/-- The messages that the limiter admits. -/
def Session.admitted (s : Session) : List Act → List Act
  | [] => []
  | .report :: rest => s.admitted rest
  | .message raw now injector :: rest =>
    match s.allow now with
    | (true, s) => .message raw now injector :: s.admitted rest
    | (false, s) => s.admitted rest

/-- What a message presses or releases, if its call succeeds. -/
def Act.control (unmarshal : Bytes → Option Event) : Act → Option (Control × Bool)
  | .message raw _ injector => match decodeEvent (unmarshal raw) with
    | .error _ => none
    | .ok ev => ((apply ev).filter (injector · = none)).bind Injection.control
  | .report => none

variable {s t : Session} {now : Time} {unmarshal : Bytes → Option Event} {raw : Bytes}
  {injector : Injection → Option String} {h : Host}

/-- The limiter goes by its window and its count only. -/
structure SameWindow (s t : Session) : Prop where
  window : s.window = t.window
  inWindow : s.inWindow = t.inWindow

theorem SameWindow.allow (h : SameWindow s t) (now : Time) :
    (s.allow now).1 = (t.allow now).1 ∧ SameWindow (s.allow now).2 (t.allow now).2 := by
  obtain ⟨grant, applied, refused, window, inWindow⟩ := s
  obtain ⟨grant', applied', refused', window', inWindow'⟩ := t
  obtain ⟨rfl, rfl⟩ : window = window' ∧ inWindow = inWindow' := ⟨h.window, h.inWindow⟩
  unfold Session.allow
  simp only
  by_cases hnew : now.unixNano - window.unixNano ≥ Time.second
  · simp only [if_pos hnew]
    split <;> exact ⟨rfl, rfl, rfl⟩
  · simp only [if_neg hnew]
    split <;> exact ⟨rfl, rfl, rfl⟩

theorem SameWindow.admitted (h : SameWindow s t) (acts : List Act) : s.admitted acts = t.admitted acts := by
  induction acts generalizing s t with
  | nil => rfl
  | cons a acts ih =>
    cases a with
    | report => exact ih h
    | message raw now injector =>
      obtain ⟨hadmits, hnext⟩ := h.allow now
      unfold Session.admitted
      cases hs : s.allow now with
      | mk admits s' =>
        cases ht : t.allow now with
        | mk admits' t' =>
          rw [hs, ht] at hadmits hnext
          obtain rfl : admits = admits' := hadmits
          cases admits with
          | true => exact congrArg _ (ih hnext)
          | false => exact ih hnext

/-- A message that the limiter does not admit does nothing. -/
theorem act_of_limited (hmode : s.grant.mode = "control") (hallow : s.allow now = (false, t)) :
    s.act unmarshal (.message raw now injector) = (t, .handled none (some .rateLimited)) := by
  have hinput : RemoteGrant.allowsInput s.grant.mode := by simpa [RemoteGrant.allowsInput] using hmode
  simp only [Session.act, Session.handleInput, if_neg (not_not.mpr hinput), hallow]

/-- A message that it admits does what it stands for. -/
theorem act_of_admitted (hmode : s.grant.mode = "control") (hallow : s.allow now = (true, t)) :
    SameWindow (s.act unmarshal (.message raw now injector)).1 t ∧
      (s.act unmarshal (.message raw now injector)).2.done.bind Injection.control =
        (Act.message raw now injector).control unmarshal := by
  have hinput : RemoteGrant.allowsInput s.grant.mode := by simpa [RemoteGrant.allowsInput] using hmode
  simp only [Session.act, Session.handleInput, if_neg (not_not.mpr hinput), hallow, Act.control]
  cases decodeEvent (unmarshal raw) with
  | error e => exact ⟨⟨rfl, rfl⟩, rfl⟩
  | ok ev =>
    dsimp only
    cases apply ev with
    | none => exact ⟨⟨rfl, rfl⟩, rfl⟩
    | some injection =>
      dsimp only
      cases hinjector : injector injection with
      | none => exact ⟨⟨rfl, rfl⟩, by simp [Outcome.done, Option.filter_some, hinjector]⟩
      | some text => exact ⟨⟨rfl, rfl⟩, by simp [Outcome.done, Option.filter_some, hinjector]⟩

/-- Once the connection is closed, nothing is pressed or released any more. -/
theorem pressed_of_closed (hclosed : h.connected = false) (events : List HostEvent) :
    (Run.run (Host.event unmarshal) events h).pressed = h.pressed := by
  induction events generalizing h with
  | nil => rfl
  | cons e events ih =>
    rw [Run.run_cons]
    cases e with
    | message raw now injector =>
      have hsame : h.event unmarshal (.message raw now injector) = h := by simp [Host.event, hclosed]
      rw [hsame]
      exact ih hclosed
    | report => exact ih hclosed
    | finish => exact ih hclosed
    | close => exact ih rfl

/-- **What is down** is what the admitted messages have left so. -/
theorem pressed_run (hmode : h.session.grant.mode = "control") (hopen : h.connected = true)
    (events : List HostEvent) : (Run.run (Host.event unmarshal) events h).pressed =
      ((h.session.admitted (arrived events)).filterMap (Act.control unmarshal)).foldl press h.pressed := by
  induction events generalizing h with
  | nil => rfl
  | cons e events ih =>
    rw [Run.run_cons]
    cases e with
    | message raw now injector =>
      have hgrant : (h.session.act unmarshal (.message raw now injector)).1.grant.mode = "control" := by
        rwa [grant_act]
      have hevent : h.event unmarshal (.message raw now injector) =
          { h with
            session := (h.session.act unmarshal (.message raw now injector)).1
            pressed := (((h.session.act unmarshal (.message raw now injector)).2.done.bind
              Injection.control).map (press h.pressed)).getD h.pressed } := by
        simp only [Host.event, hopen, if_true]
      rw [ih (h := h.event unmarshal (.message raw now injector)) (by rw [hevent]; exact hgrant)
        (by rw [hevent]; exact hopen), hevent]
      dsimp only
      cases hallow : h.session.allow now with
      | mk admits t =>
        cases admits with
        | false =>
          -- The limiter drops the message, a release as well as a press.
          rw [act_of_limited hmode hallow]
          simp only [arrived, Session.admitted, hallow]
          rfl
        | true =>
          simp only [arrived, Session.admitted, hallow]
          rw [(act_of_admitted hmode hallow).1.admitted, (act_of_admitted hmode hallow).2, List.filterMap_cons]
          cases (Act.message raw now injector).control unmarshal with
          | none => rfl
          | some e => rfl
    | report =>
      have hwindow : SameWindow h.session.takeRefused.2 h.session := ⟨rfl, rfl⟩
      refine (ih (h := h.event unmarshal .report) hmode hopen).trans ?_
      show List.foldl _ _ (List.filterMap _ (h.session.takeRefused.2.admitted (arrived events))) = _
      rw [hwindow.admitted]
      rfl
    | finish => exact ih hmode hopen
    | close => exact pressed_of_closed rfl events

/-- What all the messages of a session press and release. -/
def sent (unmarshal : Bytes → Option Event) (events : List HostEvent) : List (Control × Bool) :=
  (arrived events).filterMap (Act.control unmarshal)

/-- The message decodes. -/
def Act.Valid (unmarshal : Bytes → Option Event) : Act → Prop
  | .message raw _ _ => (decodeEvent (unmarshal raw)).isOk
  | .report => True

/-- What the messages of a session press and release that the limiter admits. -/
def presses (unmarshal : Bytes → Option Event) (grant : RemoteGrant.Grant) (events : List HostEvent) :
    List (Control × Bool) :=
  ((newSession grant).admitted (arrived events)).filterMap (Act.control unmarshal)

/-- **Nothing is left pressed** at the end of a control session exactly when each press that was admitted
was followed by a release that was admitted, too. -/
theorem nothing_pressed_iff (unmarshal : Bytes → Option Event) (grant : RemoteGrant.Grant)
    (hmode : grant.mode = "control") (events : List HostEvent) :
    (∀ c, (Run.run (Host.event unmarshal) events (newHost grant)).pressed c = false) ↔
      Balanced (presses unmarshal grant events) := by
  rw [pressed_run (h := newHost grant) hmode rfl events]
  exact balanced_iff _

/-! ## A release that is not admitted -/

/-- A grant to control a computer. -/
def deskGrant : RemoteGrant.Grant := ⟨"s1", "space", "a1", "control", "u1", ⟨0⟩, ⟨0⟩, "n"⟩

/-- One byte stands for each message. -/
def deskMessage : Bytes → Option Event
  | [0] => some ⟨"key.down", 0, 0, "", 0, "ShiftLeft"⟩
  | [1] => some ⟨"key.up", 0, 0, "", 0, "ShiftLeft"⟩
  | _ => some ⟨"mouse.move", 0, 0, "", 0, ""⟩

/-- A message in the first second, with a platform that takes every call. -/
def deskEvent (b : UInt8) : HostEvent := .message [b] ⟨0⟩ fun _ => none

/-- Shift is pressed, the pointer moves, and Shift is released. -/
def shiftDrag (moves : Nat) : List HostEvent :=
  deskEvent 0 :: (List.replicate moves (deskEvent 2) ++ [deskEvent 1, .close])

/-- With few moves, Shift is not left pressed. -/
theorem nothing_pressed_shiftDrag : (Run.run (Host.event deskMessage) (shiftDrag 3)
    (newHost deskGrant)).pressed (.key "ShiftLeft") = false :=
  (nothing_pressed_iff deskMessage deskGrant rfl (shiftDrag 3)).mpr (by decide +kernel) (.key "ShiftLeft")

theorem valid_shiftDrag (moves : Nat) : ∀ a ∈ arrived (shiftDrag moves), a.Valid deskMessage := by
  have hvalid : ∀ raw now injector, (Act.message raw now injector).Valid deskMessage := by
    intro raw now injector
    show (decodeEvent (deskMessage raw)).isOk = true
    unfold deskMessage
    split <;> decide +kernel
  intro a _
  cases a with
  | message raw now injector => exact hvalid raw now injector
  | report => trivial

/-- With many moves the release is the 201st message of its second, and Shift stays down, also when the
session has ended. -/
theorem pressed_shiftDrag : ¬ ∀ (unmarshal : Bytes → Option Event) (grant : RemoteGrant.Grant)
    (events : List HostEvent), grant.mode = "control" → (∀ a ∈ arrived events, a.Valid unmarshal) →
      Balanced (sent unmarshal events) →
        ∀ c, (Run.run (Host.event unmarshal) events (newHost grant)).pressed c = false := by
  intro hall
  have hpressed : (Run.run (Host.event deskMessage) (shiftDrag 199) (newHost deskGrant)).pressed
      (.key "ShiftLeft") = true := by decide +kernel
  have hreleased := hall deskMessage deskGrant (shiftDrag 199) rfl (valid_shiftDrag 199) (by decide +kernel)
    (.key "ShiftLeft")
  rw [hpressed] at hreleased
  cases hreleased

end Remote
