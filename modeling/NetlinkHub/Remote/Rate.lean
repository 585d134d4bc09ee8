import NetlinkHub.Remote.Gate
import NetlinkHub.Run.FixedWindow

/-! # The rate of input

`allow` is a fixed window of one second. The windows drift with the messages: the next one starts with the
first message after the last one has lapsed, so a burst on either side of that moment passes twice the
number that one window admits, and no more (`input_rate`). -/

namespace Remote

open FixedWindow (Window admittedBy admittedIn)
open Posix (Bytes)

/-- The zero `time.Time`, which the window of a session starts from. -/
def zeroTime : Time := ⟨-62135596800 * 1000000000⟩

/-- A reading of `time.Now`. No clock shows a time before the zero time. -/
structure Reading where
  time : Time
  fromZero : zeroTime ≤ time

/-- A message off the data channel: when it is handled, and what the platform's injector answers. -/
structure Message where
  raw : Bytes
  now : Reading
  injector : Injection → Option String

/-- What came of a message: when it was handled, the window after it, and whether it passed the rate
check. -/
structure Received where
  time : Time
  window : Time
  admitted : Bool

/-- `HandleInput` on message after message. -/
def Session.receive (unmarshal : Bytes → Option Event) (s : Session) : List Message → List Received
  | [] => []
  | m :: messages =>
    let (s', _, error) := s.handleInput m.now.time (unmarshal m.raw) m.injector
    ⟨m.now.time, s'.window, decide (error ≠ some .rateLimited)⟩ :: s'.receive unmarshal messages

variable {s : Session}

/-- The window of a session. -/
def Session.asWindow (s : Session) : Window := ⟨s.window.unixNano, s.inWindow⟩

/-- **`allow` is a call of a fixed window.** -/
theorem allow_eq (s : Session) (now : Time) :
    (s.allow now).1 = (FixedWindow.call eventsPerSecond Time.second (some s.asWindow) now.unixNano).2 ∧
      (s.allow now).2.asWindow =
        (FixedWindow.call eventsPerSecond Time.second (some s.asWindow) now.unixNano).1 := by
  rw [Session.allow, FixedWindow.call, FixedWindow.current]
  by_cases hlapsed : now.unixNano - s.window.unixNano ≥ Time.second
  · have hlapsed' : s.asWindow.start + Time.second ≤ now.unixNano := by
      simp only [Session.asWindow]
      omega
    simp only [if_pos hlapsed, if_pos hlapsed']
    exact ⟨rfl, rfl⟩
  · have hlapsed' : ¬ s.asWindow.start + Time.second ≤ now.unixNano := by
      simp only [Session.asWindow]
      omega
    simp only [if_neg hlapsed, if_neg hlapsed']
    by_cases hfull : s.inWindow ≥ eventsPerSecond
    · have hfull' : ¬ s.asWindow.admitted < eventsPerSecond := not_lt.mpr hfull
      rw [if_pos hfull, if_neg hfull']
      exact ⟨rfl, rfl⟩
    · have hfull' : s.asWindow.admitted < eventsPerSecond := not_le.mp hfull
      rw [if_neg hfull, if_pos hfull']
      exact ⟨rfl, rfl⟩

/-- A message that does not decode is refused for itself. -/
theorem decodeEvent_ne_rateLimited (raw : Option Event) : decodeEvent raw ≠ .error .rateLimited := by
  intro h
  cases raw with
  | none => cases h
  | some ev =>
    rw [decodeEvent, validate] at h
    repeat' split at h
    all_goals cases h

/-- What follows the rate check leaves the window alone, and is no refusal for rate. -/
theorem handleInput_allow (now : Time) (raw : Option Event) (injector : Injection → Option String)
    (hmode : RemoteGrant.allowsInput s.grant.mode) :
    (s.handleInput now raw injector).1.asWindow = (s.allow now).2.asWindow ∧
      decide ((s.handleInput now raw injector).2.2 ≠ some .rateLimited) = (s.allow now).1 := by
  rw [Session.handleInput, if_neg (not_not.mpr hmode)]
  cases hallow : s.allow now with
  | mk ok s' =>
    cases ok with
    | false => exact ⟨rfl, by simp⟩
    | true =>
      simp only
      cases hdecode : decodeEvent raw with
      | error e =>
        have he : e ≠ .rateLimited := fun he => decodeEvent_ne_rateLimited raw (he ▸ hdecode)
        exact ⟨rfl, by simpa using he⟩
      | ok ev =>
        cases happly : apply ev with
        | none => simp [happly]
        | some injection =>
          simp only [happly]
          cases injector injection with
          | some text => exact ⟨rfl, by simp⟩
          | none => exact ⟨rfl, by simp⟩

/-! ## Message after message -/

/-- What came of a message, as a call of the window. -/
def Received.asCall (r : Received) : FixedWindow.Call := ⟨r.time.unixNano, r.window.unixNano, r.admitted⟩

theorem map_asCall_receive (unmarshal : Bytes → Option Event) (hmode : RemoteGrant.allowsInput s.grant.mode)
    (messages : List Message) :
    (s.receive unmarshal messages).map Received.asCall =
      FixedWindow.calls eventsPerSecond Time.second (some s.asWindow)
        (messages.map fun m => m.now.time.unixNano) := by
  induction messages generalizing s with
  | nil => rfl
  | cons m messages ih =>
    obtain ⟨hwindow, hok⟩ := handleInput_allow m.now.time (unmarshal m.raw) m.injector hmode
    obtain ⟨hallowed, hcall⟩ := allow_eq s m.now.time
    have hrest := ih (s := (s.handleInput m.now.time (unmarshal m.raw) m.injector).1) (by rwa [grant_handleInput])
    rw [Session.receive, List.map_cons, List.map_cons, FixedWindow.calls, hrest, ← hcall, ← hwindow, ← hallowed, ← hok]
    rfl

/-- **The rate.** Two hundred messages a window, four hundred in any second, and none is refused for rate
unless two hundred were admitted in the second before it. -/
theorem input_rate (grant : RemoteGrant.Grant) (unmarshal : Bytes → Option Event) (messages : List Message)
    (hmode : RemoteGrant.allowsInput grant.mode)
    (hsorted : messages.Pairwise fun m m' => m.now.time ≤ m'.now.time) :
    (∀ window, ((newSession grant).receive unmarshal messages).countP
      (fun r => r.admitted ∧ r.window = window) ≤ 200) ∧
    (∀ start : Time, ((newSession grant).receive unmarshal messages).countP
      (fun r => r.admitted ∧ start ≤ r.time ∧ r.time < start.add Time.second) ≤ 400) ∧
    ∀ before r later, (newSession grant).receive unmarshal messages = before ++ r :: later → ¬ r.admitted →
      200 ≤ before.countP fun b => b.admitted ∧ r.time < b.time.add Time.second ∧ b.time ≤ r.time := by
  have hcalls := map_asCall_receive (s := newSession grant) unmarshal hmode messages
  have hfresh : ∀ v ∈ some (newSession grant).asWindow, v.admitted ≤ eventsPerSecond := fun v hv =>
    Option.some.inj hv ▸ Nat.zero_le _
  have htimes : (messages.map fun m => m.now.time.unixNano).Pairwise (· ≤ ·) := List.pairwise_map.mpr hsorted
  refine ⟨fun window => ?_, fun start => ?_, fun before r later hsplit hrefused => ?_⟩
  · have hle : FixedWindow.admittedBy window.unixNano (FixedWindow.calls eventsPerSecond Time.second
        (some (newSession grant).asWindow) (messages.map fun m => m.now.time.unixNano)) ≤ eventsPerSecond :=
      FixedWindow.admittedBy_le (by decide) hfresh window.unixNano
    rw [← hcalls, admittedBy, List.countP_map] at hle
    refine (List.countP_mono_left fun r _ hr => ?_).trans hle
    obtain ⟨hadmitted, rfl⟩ := of_decide_eq_true hr
    exact decide_eq_true ⟨hadmitted, rfl⟩
  · have hpos : 0 < Time.second := by decide
    have hle := FixedWindow.admittedIn_le hpos htimes hfresh start.unixNano
    rw [← hcalls, admittedIn, List.countP_map] at hle
    refine (List.countP_mono_left fun r _ hr => ?_).trans hle
    obtain ⟨hadmitted, hfrom, hto⟩ := of_decide_eq_true hr
    exact decide_eq_true ⟨hadmitted, hfrom, le_of_lt hto⟩
  · rw [hsplit, List.map_append, List.map_cons] at hcalls
    obtain ⟨us, vs, htime, hbefore, hallowed⟩ := FixedWindow.calls_eq_append_cons hcalls.symm
    have hprefix : (us ++ [r.time.unixNano]).Pairwise (· ≤ ·) := by
      rw [htime, ← List.singleton_append, ← List.append_assoc] at htimes
      exact (List.pairwise_append.mp htimes).1
    have hzero : ∀ x ∈ us, zeroTime.unixNano ≤ x := fun x hx => by
      have hx : x ∈ messages.map fun m => m.now.time.unixNano := htime ▸ List.mem_append_left _ hx
      obtain ⟨m, -, rfl⟩ := List.mem_map.mp hx
      exact m.now.fromZero
    have hpos : 0 < eventsPerSecond := by decide
    have hle := FixedWindow.le_of_refused hpos hprefix (fun u hu => Option.some.inj hu ▸ ⟨rfl, hzero⟩)
      (hallowed.symm.trans (Bool.eq_false_iff.mpr hrefused))
    rw [← hbefore, List.countP_map] at hle
    refine hle.trans (List.countP_mono_left fun b _ hb => ?_)
    exact decide_eq_true (of_decide_eq_true hb)

/-- A grant of a session with control. -/
def hallGrant : RemoteGrant.Grant := ⟨"s1", "space", "a1", "control", "u1", ⟨0⟩, ⟨0⟩, "n"⟩

/-- A message at the beginning of 1970. -/
def pointer : Message := ⟨[], ⟨⟨0⟩, by decide⟩, fun _ => none⟩

/-- A flood of one instant. -/
theorem input_rate_flood : ((newSession hallGrant).receive (fun _ => none) (List.replicate 201 pointer)).countP
    (fun r => r.admitted ∧ r.window = ⟨0⟩) ≤ 200 :=
  (input_rate hallGrant (fun _ => none) (List.replicate 201 pointer) (by decide)
    (List.pairwise_replicate.mpr (.inr (le_refl _)))).1 ⟨0⟩

end Remote
