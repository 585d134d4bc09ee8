import NetlinkHub.Signed.Grant
import Mathlib.Data.Rat.Init

/-! # A remote session on the host

The `remote` package between the data channel and the injector: what an input event may be, and the
gate of a session. Coordinates are the finite numbers a JSON text can hold. A session of a grant that
does not allow input injects nothing (`mode_of_injected`). -/

namespace Remote

/-- An input event off the data channel. -/
structure Event where
  kind : String
  x : ℚ
  y : ℚ
  button : String
  deltaY : ℚ
  code : String
  deriving DecidableEq, Repr

/-- Why an input message is refused. -/
inductive Error where
  /-- "netlink: this session is view-only" -/
  | viewOnly
  /-- "netlink: too many input events" -/
  | rateLimited
  /-- "netlink: input event is malformed" -/
  | malformed
  /-- "netlink: unrecognised input kind" -/
  | unknownKind
  /-- "netlink: unrecognised mouse button" -/
  | unknownButton
  /-- "netlink: key code is not acceptable" -/
  | badKeyCode
  /-- What the platform's injector answers. -/
  | injector (text : String)
  deriving DecidableEq, Repr

/-- `keyCodePattern`: one to 24 letters and digits. -/
def isKeyCode (code : String) : Bool :=
  let cs := code.toList
  1 ≤ cs.length ∧ cs.length ≤ 24 ∧ cs.all Char.isAlphanum

/-- `clamp01`. -/
def clamp01 (v : ℚ) : ℚ := if v < 0 then 0 else if v > 1 then 1 else v

/-- The bound on a wheel delta. -/
def clampDelta (v : ℚ) : ℚ := if v > 10 then 10 else if v < -10 then -10 else v

/-- `validate`. -/
def validate (ev : Event) : Except Error Event :=
  if ev.kind = "mouse.move" ∨ ev.kind = "mouse.wheel" then
    .ok { ev with
      x := clamp01 ev.x, y := clamp01 ev.y, code := "", button := "", deltaY := clampDelta ev.deltaY }
  else if ev.kind = "mouse.down" ∨ ev.kind = "mouse.up" then
    if ev.button ∈ ["left", "middle", "right"] then
      .ok { ev with x := clamp01 ev.x, y := clamp01 ev.y, code := "", deltaY := clampDelta ev.deltaY }
    else .error .unknownButton
  else if ev.kind = "key.down" ∨ ev.kind = "key.up" then
    if isKeyCode ev.code then .ok { ev with x := 0, y := 0, deltaY := 0, button := "" }
    else .error .badKeyCode
  else .error .unknownKind

/-- `DecodeEvent`, from what `json.Unmarshal` makes of the message. -/
def decodeEvent : Option Event → Except Error Event
  | none => .error .malformed
  | some ev => validate ev

/-- A call of the injector. -/
inductive Injection where
  | mouseMove (x y : ℚ)
  | mouseButton (button : String) (down : Bool) (x y : ℚ)
  | mouseWheel (deltaY : ℚ)
  | key (code : String) (down : Bool)
  deriving DecidableEq, Repr

/-- `Apply`: the injector call an event stands for. -/
def apply (ev : Event) : Option Injection :=
  if ev.kind = "mouse.move" then some (.mouseMove ev.x ev.y)
  else if ev.kind = "mouse.down" then some (.mouseButton ev.button true ev.x ev.y)
  else if ev.kind = "mouse.up" then some (.mouseButton ev.button false ev.x ev.y)
  else if ev.kind = "mouse.wheel" then some (.mouseWheel ev.deltaY)
  else if ev.kind = "key.down" then some (.key ev.code true)
  else if ev.kind = "key.up" then some (.key ev.code false)
  else none

/-- `eventsPerSecond`. -/
def eventsPerSecond : Nat := 200

/-- One session on the host, with its counters. -/
structure Session where
  grant : RemoteGrant.Grant
  applied : Nat
  refused : Nat
  window : Time
  inWindow : Nat
  deriving DecidableEq, Repr

/-- `NewSession`: the window starts at the zero time. -/
def newSession (grant : RemoteGrant.Grant) : Session :=
  ⟨grant, 0, 0, ⟨-62135596800 * 1000000000⟩, 0⟩

/-- `allow`: a fixed window of one second. -/
def Session.allow (s : Session) (now : Time) : Bool × Session :=
  let s := if now.unixNano - s.window.unixNano ≥ Time.second then
    { s with window := now, inWindow := 0 } else s
  if s.inWindow ≥ eventsPerSecond then (false, s) else (true, { s with inWindow := s.inWindow + 1 })

/-- `HandleInput`: the injector call it makes, if any, and its error. -/
def Session.handleInput (s : Session) (now : Time) (raw : Option Event)
    (injector : Injection → Option String) : Session × Option Injection × Option Error :=
  if ¬ RemoteGrant.allowsInput s.grant.mode then
    ({ s with refused := s.refused + 1 }, none, some .viewOnly)
  else match s.allow now with
    | (false, s) => (s, none, some .rateLimited)
    | (true, s) => match decodeEvent raw with
      | .error e => (s, none, some e)
      | .ok ev => match apply ev with
        | none => (s, none, some .unknownKind)
        | some injection => match injector injection with
          | some text => (s, some injection, some (.injector text))
          | none => ({ s with applied := s.applied + 1 }, some injection, none)

variable {s : Session} {now : Time} {raw : Option Event} {injector : Injection → Option String}

@[simp] theorem grant_allow : (s.allow now).2.grant = s.grant := by
  unfold Session.allow
  simp only
  split <;> split <;> rfl

/-- A session keeps its grant. -/
@[simp] theorem grant_handleInput : (s.handleInput now raw injector).1.grant = s.grant := by
  unfold Session.handleInput
  split
  · rfl
  · have hgrant : (s.allow now).2.grant = s.grant := grant_allow
    split
    · rename_i hallow
      rwa [hallow] at hgrant
    · rename_i hallow
      rw [hallow] at hgrant
      repeat' split
      all_goals exact hgrant

/-- **The mode is checked first.** An injector call is only made in a session that allows input. -/
theorem mode_of_injected {injection : Injection}
    (h : (s.handleInput now raw injector).2.1 = some injection) : s.grant.mode = "control" := by
  unfold Session.handleInput at h
  split at h
  · cases h
  · rename_i hmode
    simpa [RemoteGrant.allowsInput] using hmode

end Remote
