import NetlinkHub.Go.Binary
import NetlinkHub.Run.Steps
import Mathlib.Data.List.Pairwise
import Mathlib.Logic.Function.Basic

/-! # Frames on their way to the canvas

A frame carries its sequence number in a header of twelve octets. The channel may hand frames over in any
order, and the viewer decodes several at a time; what has been decoded is drawn at once, whatever its
number is. So an older frame is drawn after a newer one exactly when its decoding ends later
(`drawn_increasing_iff`). -/

namespace Frames

open Posix (Bytes)
open Run (run Along)

/-! ## The wire format -/

/-- `frameHeaderBytes`. -/
def frameHeaderBytes : Nat := 4 + 2 + 2 + 4

/-- `maxFrameBytes`. -/
def maxFrameBytes : Nat := 4 * 2 ^ 20

/-- `Frame`. `ms` is its field `At`. -/
structure Frame where
  seq : Nat
  width : Nat
  height : Nat
  ms : Nat
  jpeg : Bytes
  deriving DecidableEq, Repr

/-- `EncodeFrame`. -/
def encodeFrame (frame : Frame) : Bytes :=
  Binary.putUint 4 frame.seq ++ (Binary.putUint 2 frame.width ++
    (Binary.putUint 2 frame.height ++ (Binary.putUint 4 frame.ms ++ frame.jpeg)))

/-- `DecodeFrame`. -/
def decodeFrame (raw : Bytes) : Except String Frame :=
  if raw.length < frameHeaderBytes then .error "netlink: frame is too short to contain a header"
  else .ok
    { seq := Binary.uint (raw.take 4)
      width := Binary.uint ((raw.drop 4).take 2)
      height := Binary.uint ((raw.drop 6).take 2)
      ms := Binary.uint ((raw.drop 8).take 4)
      jpeg := raw.drop frameHeaderBytes }

/-- What the viewer reads of the header before it decodes the picture. -/
structure Decoding where
  seq : Nat
  ms : Nat
  blob : Bytes
  deriving DecidableEq, Repr

/-- `paint`, up to its `await`: a message that is a header only is dropped. -/
def paint (raw : Bytes) : Option Decoding :=
  if raw.length ≤ frameHeaderBytes then none
  else some ⟨Binary.uint (raw.take 4), Binary.uint ((raw.drop 8).take 4), raw.drop frameHeaderBytes⟩

variable {frame : Frame} {raw : Bytes}

@[simp] theorem length_encodeFrame : (encodeFrame frame).length = frameHeaderBytes + frame.jpeg.length := by
  simp only [encodeFrame, List.length_append, Binary.length_putUint, frameHeaderBytes]
  omega

/-- **The round trip**: a frame comes back as it was, as far as its numbers fit their fields. -/
theorem decodeFrame_encodeFrame : decodeFrame (encodeFrame frame) =
    .ok ⟨frame.seq % 2 ^ 32, frame.width % 2 ^ 16, frame.height % 2 ^ 16, frame.ms % 2 ^ 32, frame.jpeg⟩ := by
  have hlength : ¬ (encodeFrame frame).length < frameHeaderBytes := by
    rw [length_encodeFrame]
    omega
  rw [decodeFrame, if_neg hlength]
  simp [encodeFrame, frameHeaderBytes, List.drop_append, List.drop_of_length_le,
    Binary.uint_putUint]

/-- The viewer reads the header that the host has written. -/
theorem paint_encodeFrame {d : Decoding} (h : paint (encodeFrame frame) = some d) :
    d = ⟨frame.seq % 2 ^ 32, frame.ms % 2 ^ 32, frame.jpeg⟩ := by
  unfold paint at h
  split at h
  · cases h
  · rw [← Option.some.inj h]
    simp [encodeFrame, frameHeaderBytes, List.drop_append, List.drop_of_length_le,
      Binary.uint_putUint]

/-- A message with a whole header is the frame that is read from it. -/
theorem encodeFrame_decodeFrame (h : decodeFrame raw = .ok frame) : encodeFrame frame = raw := by
  rw [decodeFrame] at h
  split at h
  · cases h
  rename_i hlength
  rw [frameHeaderBytes] at hlength
  have hput {bytes : Bytes} {width : Nat} (hb : bytes.length = width) :
      Binary.putUint width (Binary.uint bytes) = bytes := by
    rw [← hb, Binary.putUint_uint]
  obtain rfl := Except.ok.inj h
  rw [encodeFrame, hput (by rw [List.length_take]; omega), hput (by rw [List.length_take, List.length_drop]; omega),
    hput (by rw [List.length_take, List.length_drop]; omega), hput (by rw [List.length_take, List.length_drop]; omega)]
  -- The five pieces stand one behind the other.
  have hms : (raw.drop 8).take 4 ++ raw.drop frameHeaderBytes = raw.drop 8 := by
    rw [show frameHeaderBytes = 8 + 4 from rfl, ← List.drop_drop, List.take_append_drop]
  have hheight : (raw.drop 6).take 2 ++ raw.drop 8 = raw.drop 6 := by
    rw [show 8 = 6 + 2 from rfl, ← List.drop_drop, List.take_append_drop]
  have hwidth : (raw.drop 4).take 2 ++ raw.drop 6 = raw.drop 4 := by
    rw [show 6 = 4 + 2 from rfl, ← List.drop_drop, List.take_append_drop]
  rw [hms, hheight, hwidth, List.take_append_drop]

/-- The numbers of a frame fit the fields of its header. -/
structure Frame.Fits (frame : Frame) : Prop where
  seq : frame.seq < 2 ^ 32
  width : frame.width < 2 ^ 16
  height : frame.height < 2 ^ 16
  ms : frame.ms < 2 ^ 32

/-- A picture of no bytes is not decoded. -/
theorem paint_eq_none_iff : paint (encodeFrame frame) = none ↔ frame.jpeg = [] := by
  rw [paint, length_encodeFrame]
  split
  · rename_i h
    simp only [true_iff]
    exact List.length_eq_zero_iff.mp (by omega)
  · rename_i h
    simp only [reduceCtorEq, false_iff]
    exact fun hempty => h (by simp [hempty])

/-- **The wire format**: host and viewer read what was written, in both directions. -/
theorem wire_format :
    (∀ frame : Frame, frame.Fits → decodeFrame (encodeFrame frame) = .ok frame) ∧
      (∀ raw : Bytes, frameHeaderBytes ≤ raw.length → ∃ frame, decodeFrame raw = .ok frame ∧ encodeFrame frame = raw) ∧
      (∀ raw : Bytes, raw.length < frameHeaderBytes → ∃ e, decodeFrame raw = .error e) ∧
      ∀ frame : Frame, frame.Fits → paint (encodeFrame frame) =
        if frame.jpeg = [] then none else some ⟨frame.seq, frame.ms, frame.jpeg⟩ := by
  refine ⟨fun frame hfits => ?_, fun raw hlength => ?_, fun raw hlength => ?_, fun frame hfits => ?_⟩
  · rw [decodeFrame_encodeFrame, Nat.mod_eq_of_lt hfits.seq, Nat.mod_eq_of_lt hfits.width,
      Nat.mod_eq_of_lt hfits.height, Nat.mod_eq_of_lt hfits.ms]
  · cases hdecode : decodeFrame raw with
    | error e =>
      rw [decodeFrame, if_neg (by omega)] at hdecode
      cases hdecode
    | ok frame => exact ⟨frame, rfl, encodeFrame_decodeFrame hdecode⟩
  · exact ⟨_, by rw [decodeFrame, if_pos hlength]⟩
  · split
    · rename_i hempty
      exact paint_eq_none_iff.mpr hempty
    · rename_i hjpeg
      cases hpaint : paint (encodeFrame frame) with
      | none => exact absurd (paint_eq_none_iff.mp hpaint) hjpeg
      | some d =>
        rw [paint_encodeFrame hpaint, Nat.mod_eq_of_lt hfits.seq, Nat.mod_eq_of_lt hfits.ms]

/-- The viewer does not read the header of a frame without a picture. -/
theorem paint_empty_frame : ¬ ∀ frame : Frame, frame.Fits →
    paint (encodeFrame frame) = some ⟨frame.seq, frame.ms, frame.jpeg⟩ := by
  intro h
  have hpaint := h ⟨1, 2, 2, 3, []⟩ ⟨by decide, by decide, by decide, by decide⟩
  exact absurd hpaint (by decide)

/-! ## Host, channel and viewer -/

/-- What the encoder makes of a screen that was captured. -/
structure Captured where
  width : Nat
  height : Nat
  ms : Nat
  jpeg : Bytes

/-- What a picture has been decoded to. -/
structure Bitmap where
  width : Nat
  height : Nat
  deriving DecidableEq, Repr

/-- The canvas, and the latency that is shown beside it. -/
structure Screen where
  /-- The canvas is there and has a context. -/
  context : Bool
  width : Nat
  height : Nat
  /-- The sequence numbers of the frames that were drawn, in order. -/
  drawn : List Nat
  latency : Option Nat
  deriving DecidableEq, Repr

/-- `onFrame`. The number of the frame plays no part in it. -/
def Screen.onFrame (bitmap : Bitmap) (seq latencyMs : Nat) (screen : Screen) : Screen :=
  if screen.context then
    { screen with
      width := bitmap.width
      height := bitmap.height
      drawn := screen.drawn ++ [seq]
      latency := some latencyMs }
  else screen

/-- One session. A frame is told from another by the number that its encoder gives it. -/
structure World where
  /-- `seq` of the encoder. -/
  seq : Nat
  /-- What the channel has taken and not handed over. -/
  inFlight : Nat → Option Bytes
  startedAt : Nat
  /-- What the viewer has begun to decode. -/
  decoding : Nat → Option Decoding
  screen : Screen

/-- What happens in a session. -/
inductive Event where
  /-- `pumpFrames` has captured and encoded a frame, and the channel takes it, or does not. -/
  | captured (captured : Captured) (sent : Bool)
  /-- The channel hands a frame over. -/
  | delivered (n : Nat)
  /-- `createImageBitmap` answers, at the given time. -/
  | decoded (n : Nat) (bitmap : Option Bitmap) (now : Nat)

/-- `Encode`, past the JPEG. -/
def encode (seq : Nat) (captured : Captured) : Frame :=
  ⟨seq + 1, captured.width, captured.height, captured.ms, captured.jpeg⟩

/-- What `pumpFrames` sends. -/
def payload (frame : Frame) (sent : Bool) : Option Bytes :=
  -- An oversized frame keeps its number, so the numbers that are sent may have gaps.
  if (encodeFrame frame).length > maxFrameBytes then none
  else if sent then some (encodeFrame frame) else none

/-- One event. -/
def event (e : Event) (w : World) : World :=
  match e with
  | .captured captured sent =>
    let frame := encode w.seq captured
    { w with seq := frame.seq, inFlight := Function.update w.inFlight frame.seq (payload frame sent) }
  | .delivered n =>
    match w.inFlight n with
    | none => w
    | some raw =>
      { w with
        inFlight := Function.update w.inFlight n none
        decoding := Function.update w.decoding n (paint raw) }
  | .decoded n bitmap now =>
    match w.decoding n with
    | none => w
    | some d =>
      -- A picture that cannot be decoded is dropped; any other is drawn, whatever was drawn before it.
      { w with
        decoding := Function.update w.decoding n none
        screen := match bitmap with
          | none => w.screen
          | some bitmap => w.screen.onFrame bitmap d.seq (now - w.startedAt - d.ms) }

/-- The channel hands over what it has, once, and a decoding that has begun ends once. -/
def Enabled : Event → World → Prop
  | .captured _ _, _ => True
  | .delivered n, w => w.inFlight n ≠ none
  | .decoded n _ _, w => w.decoding n ≠ none

instance (e : Event) (w : World) : Decidable (Enabled e w) := by
  cases e <;> unfold Enabled <;> infer_instance

/-- The start of a session. -/
def start (context : Bool) (startedAt : Nat) : World :=
  ⟨0, fun _ => none, startedAt, fun _ => none, ⟨context, 0, 0, [], none⟩⟩

/-- The frame that the event has decoded. -/
def Event.shown : Event → Option Nat
  | .decoded n (some _) _ => some n
  | _ => none

/-- The frames that can be decoded are decoded in the order in which the host has encoded them. -/
def InOrder (events : List Event) : Prop := (events.filterMap Event.shown).Pairwise (· < ·)

instance (events : List Event) : Decidable (InOrder events) :=
  inferInstanceAs (Decidable ((events.filterMap Event.shown).Pairwise (· < ·)))

/-! ## What is drawn -/

variable {w : World} {e : Event} {events : List Event}

/-- A frame is where its number says. -/
structure Numbered (w : World) : Prop where
  inFlight : ∀ n raw, w.inFlight n = some raw → n ≤ w.seq ∧ ∃ frame : Frame, frame.seq = n ∧ raw = encodeFrame frame
  decoding : ∀ n d, w.decoding n = some d → n ≤ w.seq ∧ d.seq = n % 2 ^ 32

theorem numbered_start (context : Bool) (startedAt : Nat) : Numbered (start context startedAt) where
  inFlight := fun _ _ h => nomatch h
  decoding := fun _ _ h => nomatch h

theorem payload_eq {frame : Frame} {sent : Bool} {raw : Bytes} (h : payload frame sent = some raw) :
    raw = encodeFrame frame := by
  unfold payload at h
  split at h
  · cases h
  · split at h
    · exact (Option.some.inj h).symm
    · cases h

/-- One event keeps the numbers. -/
theorem Numbered.step (h : Numbered w) (e : Event) : Numbered (event e w) := by
  cases e with
  | captured captured sent =>
    refine ⟨fun n raw hn => ?_, fun n d hn => ?_⟩
    -- Only the new number has a message of its own.
    · by_cases hsame : n = (encode w.seq captured).seq
      · subst hsame
        have hpayload : payload (encode w.seq captured) sent = some raw := by
          simpa [event] using hn
        exact ⟨le_rfl, encode w.seq captured, rfl, payload_eq hpayload⟩
      · have hold : w.inFlight n = some raw := by simpa [event, hsame] using hn
        exact ⟨Nat.le_succ_of_le (h.inFlight n raw hold).1, (h.inFlight n raw hold).2⟩
    · exact ⟨Nat.le_succ_of_le (h.decoding n d hn).1, (h.decoding n d hn).2⟩
  | delivered m =>
    cases hm : w.inFlight m with
    | none => simpa only [event, hm] using h
    | some raw =>
      simp only [event, hm]
      obtain ⟨hle, frame, hseq, hraw⟩ := h.inFlight m raw hm
      refine ⟨fun n raw' hn => ?_, fun n d hn => ?_⟩
      · by_cases hsame : n = m
        · simp [hsame] at hn
        · exact h.inFlight n raw' (by simpa [hsame] using hn)
      · by_cases hsame : n = m
        · -- What begins to be decoded has the number that stands in its header.
          subst hsame
          have hpaint : paint (encodeFrame frame) = some d := by simpa [hraw] using hn
          refine ⟨hle, ?_⟩
          rw [paint_encodeFrame hpaint, hseq]
        · exact h.decoding n d (by simpa [hsame] using hn)
  | decoded m bitmap now =>
    cases hm : w.decoding m with
    | none => simpa only [event, hm] using h
    | some d =>
      simp only [event, hm]
      refine ⟨h.inFlight, fun n d' hn => ?_⟩
      by_cases hsame : n = m
      · simp [hsame] at hn
      · exact h.decoding n d' (by simpa [hsame] using hn)

/-- What one event draws. -/
theorem drawn_event (h : Numbered w) (henabled : Enabled e w) : (event e w).screen.drawn =
    w.screen.drawn ++ if w.screen.context then (e.shown.map (· % 2 ^ 32)).toList else [] := by
  cases e with
  | captured captured sent => simp [event, Event.shown]
  | delivered n =>
    obtain ⟨raw, hraw⟩ := Option.ne_none_iff_exists'.mp henabled
    simp [event, hraw, Event.shown]
  | decoded n bitmap now =>
    obtain ⟨d, hd⟩ := Option.ne_none_iff_exists'.mp henabled
    cases bitmap with
    | none => simp [event, hd, Event.shown]
    | some bitmap =>
      simp only [event, hd, Event.shown, Screen.onFrame, Option.map_some, Option.toList_some]
      by_cases hcontext : w.screen.context
      · rw [if_pos hcontext, if_pos hcontext, (h.decoding n d hd).2]
      · rw [if_neg hcontext, if_neg hcontext, List.append_nil]

/-- The canvas is there to the end, or is not there at all. -/
@[simp] theorem context_event : (event e w).screen.context = w.screen.context := by
  unfold event
  split
  · rfl
  · split <;> rfl
  · split
    · rfl
    · dsimp only
      split
      · rfl
      · unfold Screen.onFrame
        split <;> rfl

/-- What is decoded has been encoded before. -/
theorem Numbered.shown_le {n : Nat} (h : Numbered w) (henabled : Enabled e w) (hn : e.shown = some n) :
    n ≤ w.seq := by
  cases e with
  | captured captured sent => cases hn
  | delivered m => cases hn
  | decoded m bitmap now =>
    obtain ⟨d, hd⟩ := Option.ne_none_iff_exists'.mp henabled
    cases bitmap with
    | none => cases hn
    | some bitmap => exact Option.some.inj hn ▸ (h.decoding m d hd).1

/-- The numbers only grow. -/
theorem seq_le_event (e : Event) (w : World) : w.seq ≤ (event e w).seq := by
  unfold event
  split
  · exact Nat.le_succ _
  · split <;> exact le_rfl
  · split <;> exact le_rfl

theorem seq_le_run (events : List Event) (w : World) : w.seq ≤ (run event events w).seq := by
  induction events generalizing w with
  | nil => exact le_rfl
  | cons e events ih => exact (seq_le_event e w).trans (ih (event e w))

/-- **What a run draws**: the frames that are decoded, in the order in which that happens. -/
theorem drawn_run (h : Numbered w) (henabled : Along event Enabled events w) :
    (run event events w).screen.drawn = w.screen.drawn ++
      if w.screen.context then (events.filterMap Event.shown).map (· % 2 ^ 32) else [] := by
  induction events generalizing w with
  | nil => simp
  | cons e events ih =>
    rw [Run.run_cons, ih (h.step e) henabled.2, drawn_event h henabled.1, context_event, List.append_assoc]
    congr 1
    by_cases hcontext : w.screen.context
    · rw [if_pos hcontext, if_pos hcontext, if_pos hcontext, List.filterMap_cons]
      cases e.shown with
      | none => rfl
      | some n => rfl
    · rw [if_neg hcontext, if_neg hcontext, if_neg hcontext, List.append_nil]

/-- What is decoded in a run was encoded in it. -/
theorem shown_le_run {n : Nat} (h : Numbered w) (henabled : Along event Enabled events w)
    (hn : n ∈ events.filterMap Event.shown) : n ≤ (run event events w).seq := by
  induction events generalizing w with
  | nil => cases hn
  | cons e events ih =>
    rw [Run.run_cons]
    rcases List.mem_filterMap.mp hn with ⟨e', hmem, hshown⟩
    rcases List.mem_cons.mp hmem with rfl | hlater
    · exact (h.shown_le henabled.1 hshown).trans ((seq_le_event _ w).trans (seq_le_run events _))
    · exact ih (h.step e) henabled.2 (List.mem_filterMap.mpr ⟨e', hlater, hshown⟩)

/-- **An older frame is never drawn after a newer one** exactly when there is no canvas to draw on, or the
frames that can be decoded are decoded in the order in which they were encoded. -/
theorem drawn_increasing_iff (context : Bool) (startedAt : Nat) (events : List Event)
    (henabled : Along event Enabled events (start context startedAt))
    (hseq : (run event events (start context startedAt)).seq < 2 ^ 32) :
    (run event events (start context startedAt)).screen.drawn.Pairwise (· < ·) ↔
      context = false ∨ InOrder events := by
  have hnumbered := numbered_start context startedAt
  rw [drawn_run hnumbered henabled]
  cases context with
  | false => simp [start]
  | true =>
    -- Below `2 ^ 32` the header holds the number of the frame, so the two lists are the same.
    have hfits : ∀ n ∈ events.filterMap Event.shown, n % 2 ^ 32 = n := by
      intro n hn
      exact Nat.mod_eq_of_lt ((shown_le_run hnumbered henabled hn).trans_lt hseq)
    have hdrawn : (events.filterMap Event.shown).map (· % 2 ^ 32) = events.filterMap Event.shown := by
      rw [List.map_congr_left hfits, List.map_id']
    simp only [start, if_true, List.nil_append, hdrawn, InOrder, Bool.true_eq_false, false_or]

/-! ## Two frames that change places -/

/-- A small picture. -/
def tile : Captured := ⟨1, 1, 0, [0xFF]⟩

/-- Two frames are sent and delivered in order, and decoded in the order that is given. -/
def twoFrames (first second : Nat) : List Event :=
  [.captured tile true, .captured tile true, .delivered 1, .delivered 2,
    .decoded first (some ⟨1, 1⟩) 0, .decoded second (some ⟨1, 1⟩) 0]

/-- In order, the older frame is drawn first. -/
theorem drawn_increasing_twoFrames :
    (run event (twoFrames 1 2) (start true 0)).screen.drawn.Pairwise (· < ·) :=
  (drawn_increasing_iff true 0 (twoFrames 1 2) (by decide +kernel) (by decide +kernel)).mpr
    (.inr (by decide +kernel))

/-- When the decoding of the newer frame ends first, the older one is drawn over it. -/
theorem drawn_over : ¬ ∀ (context : Bool) (startedAt : Nat) (events : List Event),
    Along event Enabled events (start context startedAt) →
      (run event events (start context startedAt)).seq < 2 ^ 32 →
        (run event events (start context startedAt)).screen.drawn.Pairwise (· < ·) := by
  intro hall
  have hdrawn : (run event (twoFrames 2 1) (start true 0)).screen.drawn = [2, 1] := by decide +kernel
  have hordered := hall true 0 (twoFrames 2 1) (by decide +kernel) (by decide +kernel)
  rw [hdrawn] at hordered
  exact absurd hordered (by decide)

end Frames
