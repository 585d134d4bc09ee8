import NetlinkHub.Concurrent.Trace
import NetlinkHub.Go.Json

/-! # The enrollment file

The `enrollment` package: `enrollment.json` is truncated and then written, by several processes at once, any of
which may crash in between, on a disk that may be full. As long as no write is cut short in the middle of what
another process has written (`Mixes`), what `Load` finds is a whole enrollment that a process has saved, or it
reports that there is none (`loads_saved`). -/

namespace EnrollmentStore

open Concurrent (Config Log Machine Move Prog Step)

/-! ## The record -/

/-- `Enrollment`. -/
structure Enrollment where
  deviceID : String
  agentID : String
  spaceID : String
  spaceName : String
  enrolledAt : Time
  deriving DecidableEq, Repr

/-- The zero value. -/
def Enrollment.zero : Enrollment := ⟨"", "", "", "", Time.zero⟩

/-- What is not part of the package: how letter case is folded, and `time.Parse`. -/
structure Codec where
  fold : String → String
  parseTime : List Char → Option Time

/-- The fields of the record in its text. -/
def fields (codec : Codec) : List (Unmarshal.Field Enrollment) :=
  [Unmarshal.stringField "deviceId" fun text e => { e with deviceID := text },
    Unmarshal.stringField "agentId" fun text e => { e with agentID := text },
    Unmarshal.stringField "spaceId" fun text e => { e with spaceID := text },
    Unmarshal.stringField "spaceName" fun text e => { e with spaceName := text },
    Unmarshal.timeField codec.parseTime "enrolledAt" fun time e => { e with enrolledAt := time }]

/-- `json.Unmarshal`. -/
def unmarshal (codec : Codec) (raw : List Char) : Option Enrollment :=
  (Json.parse raw).bind fun value => Unmarshal.struct codec.fold (fields codec) value .zero

/-- The members of the record. An empty agent id is left out. -/
def Enrollment.members (e : Enrollment) (enrolledAt : Json) : List (List Char × Json) :=
  (Json.quote "deviceId", .string (Marshal.quote e.deviceID)) ::
    (if e.agentID = "" then [] else [(Json.quote "agentId", .string (Marshal.quote e.agentID))]) ++
      [(Json.quote "spaceId", .string (Marshal.quote e.spaceID)),
        (Json.quote "spaceName", .string (Marshal.quote e.spaceName)), (Json.quote "enrolledAt", enrolledAt)]

/-- `json.MarshalIndent`. -/
def marshalIndent (e : Enrollment) : Option (List Char) :=
  (Marshal.time e.enrolledAt).map fun enrolledAt => Json.indent 0 (.object (e.members enrolledAt))

/-! ## The file operations -/

/-- Why an operation fails. -/
inductive Failure where
  /-- `ErrNotEnrolled`. -/
  | notEnrolled
  | other (text : String)
  deriving DecidableEq, Repr

/-- The data directory: the files that were ever made, by what they hold, and which of them `enrollment.json` is.
The environment decides whether the next operation is refused, and how much the next write may write. -/
structure Disk where
  dir : Bool
  files : List (List Char)
  entry : Option ℕ
  entry_lt : ∀ file ∈ entry, file < files.length
  denied : Bool
  room : Option ℕ

/-- A directory that does not exist yet. -/
def Disk.fresh : Disk := ⟨false, [], none, nofun, false, none⟩

/-- What a file holds. -/
def Disk.content (d : Disk) (file : ℕ) : List Char := d.files[file]?.getD []

/-- What `enrollment.json` holds, if it is there. -/
def Disk.text (d : Disk) : Option (List Char) := d.entry.map d.content

/-- The part of a text that is written. -/
def Disk.written (d : Disk) (text : List Char) : List Char :=
  match d.room with
  | none => text
  | some n => text.take n

/-- The file that is opened for writing: the one that is there, or a new one. -/
def Disk.opened (d : Disk) : ℕ := d.entry.getD d.files.length

/-- A file holds something else. -/
def Disk.put (d : Disk) (file : ℕ) (text : List Char) : Disk :=
  { d with
    files := d.files.set file text
    entry_lt := fun file' h => (d.entry_lt file' h).trans_eq List.length_set.symm }

/-- `enrollment.json` is a new file, and empty. -/
def Disk.create (d : Disk) : Disk :=
  { d with
    files := d.files ++ [[]]
    entry := some d.files.length
    entry_lt := fun file h => by simp [← Option.some.inj h] }

/-- An operation on the directory. `os.WriteFile` opens the file with `O_TRUNC`, and writes. -/
inductive FileOp where
  | readFile
  | mkdirAll
  | openFile
  | write (file : ℕ) (text : List Char)
  | remove

/-- What an operation does. A file that was removed may still be written to. -/
def FileOp.exec : FileOp → Disk → Disk
  | .readFile, d => d
  | .mkdirAll, d => if d.denied then d else { d with dir := true }
  | .openFile, d =>
    if d.denied ∨ d.dir = false then d
    else match d.entry with
      | some file => d.put file []
      | none => d.create
  | .write file text, d => d.put file (d.written text ++ (d.content file).drop (d.written text).length)
  | .remove, d => if d.denied then d else { d with entry := none, entry_lt := nofun }

/-! ## The operations of the store -/

/-- What `Load` makes of what it has read. -/
def decode (codec : Codec) (raw : List Char) : Except Failure Enrollment :=
  match unmarshal codec raw with
  | none => .error .notEnrolled
  | some e => if e.deviceID = "" ∨ e.spaceID = "" then .error .notEnrolled else .ok e

/-- What `Load` finds. -/
def Disk.load (codec : Codec) (d : Disk) : Except Failure Enrollment :=
  if d.denied then .error (.other "netlink: reading enrollment")
  else match d.text with
    | none => .error .notEnrolled
    | some raw => decode codec raw

/-- `Load`. -/
def load (codec : Codec) : Prog Disk FileOp Failure Enrollment :=
  .stmt .readFile fun d => match d.load codec with
    | .ok e => .done e
    | .error e => .raise e

/-- `Save`. -/
def save (e : Enrollment) : Prog Disk FileOp Failure Unit :=
  .stmt .mkdirAll fun d =>
    if d.denied then .raise (.other "netlink: creating data directory")
    else match marshalIndent e with
      | none => .raise (.other "json: error calling MarshalJSON")
      | some text => .stmt .openFile fun d =>
        if d.denied ∨ d.dir = false then .raise (.other "netlink: writing enrollment")
        else .stmt (.write d.opened text) fun d =>
          if (d.written text).length < text.length then .raise (.other "netlink: writing enrollment")
          else .done ()

/-- `Clear`. A file that is not there is passed over. -/
def clear : Prog Disk FileOp Failure Unit :=
  .stmt .remove fun d => if d.denied then .raise (.other "netlink: removing enrollment") else .done ()

/-- What a process may ask of the store. -/
inductive Request where
  | load
  | save (e : Enrollment)
  | clear

/-- The store, used by any number of processes. From time to time operations are refused, or the disk is full. -/
def store (codec : Codec) : Machine Disk FileOp Failure Request (Bool × Option ℕ) (Option Enrollment) where
  handler
    | .load => some <$> load codec
    | .save e => (fun _ => none) <$> save e
    | .clear => (fun _ => none) <$> clear
  exec := FileOp.exec
  env | (denied, room), d => { d with denied := denied, room := room }

/-- The store after a run. -/
abbrev storeRun (codec : Codec) (d : Disk) (moves : List (Move Request (Bool × Option ℕ))) :
    Config Disk FileOp Failure Request (Option Enrollment) :=
  Run.run (store codec).step moves (Config.initial d)

/-- A statement of such a run. -/
abbrev StoreStep := Step Disk FileOp Request

variable {codec : Codec} {e : Enrollment} {raw text : List Char}

/-! ## What is written is read back -/

theorem readable_members {enrolledAt : Json} (h : enrolledAt.Readable) (e : Enrollment) :
    (Json.object (e.members enrolledAt)).Readable := by
  have hkey := Json.isRaw_quote
  have hvalue := Marshal.isRaw_quote
  unfold Enrollment.members
  split <;> simp [Json.Readable, Json.ReadableMembers, hkey, hvalue, h]

/-- **The record comes back.** -/
theorem unmarshal_marshalIndent (codec : Codec) (h : marshalIndent e = some raw) : unmarshal codec raw = some e := by
  obtain ⟨enrolledAt, htime, rfl⟩ := Option.map_eq_some_iff.mp h
  rw [unmarshal, Json.parse_indent 0 (readable_members (Marshal.readable_timeIn htime) e), Option.bind_some,
    Unmarshal.struct_object]
  have hset : ∀ (put : Time → Enrollment → Enrollment) (s : Enrollment),
      (Unmarshal.timeField codec.parseTime "enrolledAt" put).set enrolledAt s = some (put e.enrolledAt s) :=
    fun put s => Marshal.set_timeField "enrolledAt" put s htime
  have hmember : ∀ key {field}, (fields codec).find? (·.name = key) = some field →
      ∀ value rest s, Unmarshal.members codec.fold (fields codec) ((Json.quote key, value) :: rest) s =
        (field.set value s).bind (Unmarshal.members codec.fold (fields codec) rest) :=
    fun key _ h value rest s => Unmarshal.members_cons h
  unfold Enrollment.members
  rw [List.cons_append, hmember "deviceId" rfl, Marshal.set_stringField, Option.bind_some]
  split
  · rename_i hagent
    rw [List.nil_append, hmember "spaceId" rfl, Marshal.set_stringField, Option.bind_some,
      hmember "spaceName" rfl, Marshal.set_stringField, Option.bind_some,
      hmember "enrolledAt" rfl, hset]
    cases e
    cases hagent
    rfl
  · rw [List.singleton_append, hmember "agentId" rfl, Marshal.set_stringField,
      Option.bind_some, hmember "spaceId" rfl, Marshal.set_stringField, Option.bind_some,
      hmember "spaceName" rfl, Marshal.set_stringField, Option.bind_some,
      hmember "enrolledAt" rfl, hset]
    rfl

/-- The text of a record is in braces. -/
theorem exists_braces (h : marshalIndent e = some raw) : ∃ inner, raw = '{' :: inner ++ ['}'] := by
  obtain ⟨enrolledAt, -, rfl⟩ := Option.map_eq_some_iff.mp h
  exact ⟨_, rfl⟩

/-! ## What a file may hold -/

/-- The text is what saving such enrollments may leave: nothing, part of a record, or a whole one with other
text behind it. -/
def Sound (P : Enrollment → Prop) (text : List Char) : Prop :=
  text = [] ∨ ∃ e raw, P e ∧ marshalIndent e = some raw ∧ (raw <+: text ∨ text <+: raw)

variable {P : Enrollment → Prop}

theorem Sound.mono {Q : Enrollment → Prop} (h : Sound P text) (himp : ∀ e, P e → Q e) : Sound Q text :=
  h.imp_right fun ⟨e, raw, he, hraw, hprefix⟩ => ⟨e, raw, himp e he, hraw, hprefix⟩

/-- With text behind it, a record is read as it was saved, or not at all. -/
theorem unmarshal_append (h : marshalIndent e = some raw) (tail : List Char) {e' : Enrollment}
    (hread : unmarshal codec (raw ++ tail) = some e') : e' = e := by
  have hwhole := unmarshal_marshalIndent codec h
  obtain ⟨inner, rfl⟩ := exists_braces h
  obtain ⟨value, hparse, hvalue⟩ := Option.bind_eq_some_iff.mp hwhole
  unfold unmarshal at hread
  rw [List.cons_append] at hparse
  rw [List.cons_append, Json.parse_append hparse] at hread
  split at hread
  · rw [Option.bind_some, hvalue] at hread
    exact (Option.some.inj hread).symm
  · cases hread

/-- A record that is cut off is not read. -/
theorem unmarshal_cut (h : marshalIndent e = some raw) {tail : List Char} (htail : tail ≠ [])
    (hcut : text ++ tail = raw) : unmarshal codec text = none := by
  have hwhole := unmarshal_marshalIndent codec h
  obtain ⟨inner, rfl⟩ := exists_braces h
  obtain ⟨value, hparse, -⟩ := Option.bind_eq_some_iff.mp hwhole
  have hspace : Json.skipSpace tail ≠ [] := by
    intro hnil
    have hlast : (text ++ tail).getLast? = some '}' := by rw [hcut, List.getLast?_append]; rfl
    rw [List.getLast?_append_of_ne_nil _ htail] at hlast
    exact absurd (List.dropWhile_eq_nil_iff.mp hnil '}' (List.mem_of_getLast? hlast)) (by decide)
  have hnone : Json.parse text = none := by
    cases text with
    | nil => rfl
    | cons c letters =>
      obtain ⟨rfl, -⟩ := List.cons.inj hcut
      rw [← hcut, List.cons_append] at hparse
      exact Json.parse_cut hparse hspace
  rw [unmarshal, hnone]
  rfl

/-- **What is read of such a text** is one of the enrollments. -/
theorem Sound.decode (h : Sound P text) (hread : decode codec text = .ok e) : P e := by
  have hunmarshal : unmarshal codec text = some e := by
    unfold EnrollmentStore.decode at hread
    split at hread
    · cases hread
    · rename_i e' he'
      split at hread
      · cases hread
      · rw [he', Except.ok.inj hread]
  rcases h with rfl | ⟨e', raw, hP, hraw, ⟨tail, rfl⟩ | ⟨tail, hcut⟩⟩
  · cases hunmarshal
  · rw [unmarshal_append hraw tail hunmarshal]
    exact hP
  · by_cases htail : tail = []
    · rw [htail, List.append_nil] at hcut
      rw [hcut, unmarshal_marshalIndent codec hraw] at hunmarshal
      exact Option.some.inj hunmarshal ▸ hP
    · rw [unmarshal_cut hraw htail hcut] at hunmarshal
      cases hunmarshal

/-! ## Runs -/

/-- A process has asked to save the enrollment. -/
def Saved (history : List StoreStep) (e : Enrollment) : Prop := ∃ step ∈ history, step.request = .save e

/-- The statement writes part of its text, and not all of it, over text that is there already. -/
def Mixes (step : StoreStep) : Prop :=
  ∃ file text, step.write = .write file text ∧ step.before.written text ≠ [] ∧ step.before.written text ≠ text ∧
    step.before.content file ≠ []

/-- An operation of the store: a request writes the text of its record. -/
def Issued (q : Request) : FileOp → Prop
  | .write _ text => ∃ e, q = .save e ∧ marshalIndent e = some text
  | _ => True

/-- Every file holds what saving may leave. -/
def Held (σ : Log Disk FileOp Request) : Prop := ∀ text ∈ σ.shared.files, Sound (Saved σ.history) text

theorem issued_handler (q : Request) : ((store codec).handler q).Only (Issued q) := by
  cases q with
  | load =>
    refine Prog.Only.map (.stmt trivial fun d => ?_) _
    split <;> trivial
  | save e =>
    refine Prog.Only.map (.stmt trivial fun d => ?_) _
    split
    · trivial
    · split
      · trivial
      · rename_i text htext
        refine .stmt trivial fun d => ?_
        split
        · trivial
        · refine .stmt ⟨e, rfl, htext⟩ fun d => ?_
          split <;> trivial
  | clear =>
    refine Prog.Only.map (.stmt trivial fun d => ?_) _
    split <;> trivial

theorem written_isPrefix (d : Disk) (text : List Char) : d.written text <+: text := by
  unfold Disk.written
  split
  · exact List.prefix_refl _
  · exact List.take_prefix _ _

/-- What a file holds is held by one of the files. -/
theorem content_mem (d : Disk) (file : ℕ) : d.content file = [] ∨ d.content file ∈ d.files := by
  unfold Disk.content
  cases h : d.files[file]? with
  | none => exact .inl rfl
  | some text => exact .inr (List.mem_of_getElem? h)

theorem exec_mkdirAll (d : Disk) : FileOp.mkdirAll.exec d = if d.denied then d else { d with dir := true } := rfl

theorem exec_openFile (d : Disk) : FileOp.openFile.exec d =
    if d.denied ∨ d.dir = false then d
    else match d.entry with
      | some file => d.put file []
      | none => d.create := rfl

theorem exec_remove (d : Disk) : FileOp.remove.exec d =
    if d.denied then d else { d with entry := none, entry_lt := nofun } := rfl

/-- **One statement.** -/
theorem upholds_held (codec : Codec) :
    Concurrent.Upholds (store codec) (fun step _ => Issued step.request step.write ∧ ¬ Mixes step) Held where
  env e σ h := h
  step i q op σ h hop := by
    have hkept : ∀ text ∈ σ.shared.files, Sound (Saved (⟨i, q, op, σ.shared⟩ :: σ.history)) text :=
      fun text htext => (h text htext).mono fun e ⟨step, hstep, he⟩ => ⟨step, List.mem_cons_of_mem _ hstep, he⟩
    -- Where a file holds something else, that is all there is to show.
    have hput : ∀ file text, Sound (Saved (⟨i, q, op, σ.shared⟩ :: σ.history)) text →
        ∀ text' ∈ (σ.shared.put file text).files, Sound (Saved (⟨i, q, op, σ.shared⟩ :: σ.history)) text' := by
      intro file text htext text' htext'
      rcases List.mem_or_eq_of_mem_set htext' with hmem | rfl
      · exact hkept text' hmem
      · exact htext
    show ∀ text ∈ (op.exec σ.shared).files, Sound _ text
    cases op with
    | readFile => exact hkept
    | mkdirAll =>
      rw [exec_mkdirAll]
      split <;> exact hkept
    | openFile =>
      rw [exec_openFile]
      split
      · exact hkept
      · split
        · exact hput _ [] (.inl rfl)
        · intro text htext
          rcases List.mem_append.mp htext with hmem | hmem
          · exact hkept text hmem
          · exact .inl (List.mem_singleton.mp hmem)
    | remove =>
      rw [exec_remove]
      split <;> exact hkept
    | write file text =>
      obtain ⟨⟨e, rfl, hraw⟩, hmix⟩ := hop
      have hsaved : Saved (⟨i, .save e, .write file text, σ.shared⟩ :: σ.history) e := ⟨_, List.mem_cons_self, rfl⟩
      refine hput file _ ?_
      by_cases hnone : σ.shared.written text = []
      · rw [hnone, List.nil_append, List.length_nil, List.drop_zero]
        rcases content_mem σ.shared file with hempty | hmem
        · exact .inl hempty
        · exact hkept _ hmem
      · refine .inr ⟨e, text, hsaved, hraw, ?_⟩
        by_cases hwhole : σ.shared.written text = text
        · rw [hwhole]
          exact .inl (List.prefix_append _ _)
        · have hempty : σ.shared.content file = [] := by
            by_contra hcontent
            exact hmix ⟨file, text, rfl, hnone, hwhole, hcontent⟩
          rw [hempty, List.drop_nil, List.append_nil]
          exact .inr (written_isPrefix _ _)

/-- `Load` comes to what it finds at one moment. -/
theorem traces_load (codec : Codec) (i : ℕ) (q : Request) (own : List StoreStep) :
    (load codec).Traces (fun _ _ => True) i q (fun r own => ∃ step ∈ own, r = step.before.load codec) own := by
  refine .stmt (fun _ => trivial) fun d => ?_
  split
  · rename_i e hload
    exact ⟨_, List.mem_cons_self, hload.symm⟩
  · rename_i e hload
    exact ⟨_, List.mem_cons_self, hload.symm⟩

theorem traces_handler (codec : Codec) (i : ℕ) (q : Request) : ((store codec).handler q).Traces (fun _ _ => True) i q
    (fun r own => q = .load → ∃ step ∈ own, r = (step.before.load codec).map some) [] := by
  have hother : q ≠ .load → ((store codec).handler q).Traces (fun _ _ => True) i q
      (fun r own => q = .load → ∃ step ∈ own, r = (step.before.load codec).map some) [] := fun hq =>
    (Prog.Traces.of_only (J := fun _ => True) (Prog.only_true _) (fun _ _ _ _ _ => ⟨trivial, trivial⟩)
      trivial).mono fun _ _ _ heq => absurd heq hq
  cases q with
  | load =>
    refine (traces_load codec i _ []).map some ?_ ?_
    · rintro e own ⟨step, hstep, hfound⟩ -
      exact ⟨step, hstep, by rw [← hfound]; rfl⟩
    · rintro e own ⟨step, hstep, hfound⟩ -
      exact ⟨step, hstep, by rw [← hfound]; rfl⟩
  | save e => exact hother nofun
  | clear => exact hother nofun

variable (codec) in
/-- **What one moment holds.** Where every file is sound, `Load` finds an enrollment that was saved, and fails
hard only where it is refused. -/
theorem load_held {σ : Log Disk FileOp Request} (h : Held σ) :
    (∀ e, σ.shared.load codec = .ok e → Saved σ.history e ∧ e.deviceID ≠ "" ∧ e.spaceID ≠ "") ∧
      ∀ text, σ.shared.load codec = .error (.other text) → σ.shared.denied := by
  unfold Disk.load
  split
  · rename_i hdenied
    exact ⟨fun _ => nofun, fun _ _ => hdenied⟩
  · split
    · exact ⟨fun _ => nofun, fun _ => nofun⟩
    · rename_i raw hraw
      obtain ⟨file, -, rfl⟩ := Option.map_eq_some_iff.mp hraw
      have hsound : Sound (Saved σ.history) (σ.shared.content file) := by
        rcases content_mem σ.shared file with hempty | hmem
        · exact .inl hempty
        · exact h _ hmem
      constructor
      · intro e he
        refine ⟨hsound.decode he, ?_⟩
        unfold decode at he
        split at he
        · cases he
        · split at he
          · cases he
          · rename_i hwhole
            exact Except.ok.inj he ▸ not_or.mp hwhole
      · intro text he
        unfold decode at he
        split at he
        · cases he
        · split at he <;> cases he

/-- **Crashes and races.** Whatever the processes do, wherever they crash, and whenever the disk is full: as long
as no write is cut short over another text, `Load` comes to a whole enrollment that was saved, or reports that
there is none, or was refused. -/
theorem loads_saved (codec : Codec) (moves : List (Move Request (Bool × Option ℕ)))
    (hmix : ∀ step ∈ (storeRun codec .fresh moves).log.history, ¬ Mixes step) {i : ℕ}
    {r : Except Failure (Option Enrollment)} (hended : (storeRun codec .fresh moves).Ended i .load r) :
    (∀ found, r = .ok found → ∃ e, found = some e ∧ Saved (storeRun codec .fresh moves).log.history e ∧
        e.deviceID ≠ "" ∧ e.spaceID ≠ "") ∧
      ∀ text, r = .error (.other text) → ∃ step ∈ (storeRun codec .fresh moves).log.own i, step.before.denied := by
  have hissued : ∀ step ∈ (storeRun codec .fresh moves).log.history, Issued step.request step.write :=
    Concurrent.only_run issued_handler _ moves
  have hheld : Held ⟨.fresh, []⟩ := fun text htext => nomatch htext
  have halways := (upholds_held codec).run hheld moves fun step earlier hsuffix =>
    ⟨hissued step (hsuffix.subset List.mem_cons_self), hmix step (hsuffix.subset List.mem_cons_self)⟩
  obtain ⟨step, hstep, rfl⟩ := Concurrent.ended_run
    (K := fun q r own => q = .load → ∃ step ∈ own, r = (step.before.load codec).map some)
    (traces_handler codec) _ moves hended rfl
  obtain ⟨later, earlier, hhistory⟩ := List.append_of_mem (List.mem_filter.mp hstep).1
  have hmoment := load_held codec (halways.2 step earlier ⟨later, hhistory.symm⟩)
  constructor
  · intro found hfound
    cases hload : step.before.load codec with
    | error e => rw [hload] at hfound; cases hfound
    | ok e =>
      rw [hload] at hfound
      obtain ⟨⟨saved, hsaved, he⟩, hwhole⟩ := hmoment.1 e hload
      refine ⟨e, (Except.ok.inj hfound).symm, ⟨saved, ?_, he⟩, hwhole⟩
      rw [hhistory]
      exact List.mem_append_right _ (List.mem_cons_of_mem _ hsaved)
  · intro text htext
    refine ⟨step, hstep, hmoment.2 text ?_⟩
    cases hload : step.before.load codec with
    | ok e => rw [hload] at htext; cases htext
    | error e =>
      rw [hload] at htext
      exact congrArg Except.error (Except.error.inj htext)

/-- Where the disk has room, nothing is cut short. -/
theorem not_mixes {step : StoreStep} (h : step.before.room = none) : ¬ Mixes step := by
  rintro ⟨file, text, -, -, hcut, -⟩
  refine hcut ?_
  rw [Disk.written, h]

/-- A `Load` that no one disturbs comes to what is there. -/
theorem ended_load {d : Disk} {moves : List (Move Request (Bool × Option ℕ))} {n : ℕ}
    (hthreads : (storeRun codec d moves).threads.length = n)
    (hload : (storeRun codec d moves).log.shared.load codec = .ok e) :
    (storeRun codec d (moves ++ [.call .load, .step n])).Ended n .load (.ok (some e)) := by
  subst hthreads
  simp only [storeRun, Run.run_append] at hload ⊢
  generalize Run.run (store codec).step moves (Config.initial d) = c at hload ⊢
  simp [Run.run_cons, Machine.step, Config.advance, store, load, hload, Config.Ended]

/-- An enrollment into a Space. -/
def enrolled (spaceID : String) : Enrollment := ⟨"d", "", spaceID, "", ⟨0⟩⟩

/-- A codec that leaves letters as they are. -/
def plain : Codec := ⟨id, fun _ => none⟩

/-- Two processes save at once. -/
def twoSaves : List (Move Request (Bool × Option ℕ)) :=
  [.call (.save (enrolled "first")), .call (.save (enrolled "second")), .step 0, .step 1, .step 0, .step 1, .step 0,
    .step 1]

/-- The later one is found. -/
theorem loads_saved_twoSaves : ∃ e, (storeRun plain .fresh (twoSaves ++ [.call .load, .step 2])).Ended 2 .load
    (.ok (some e)) ∧ Saved (storeRun plain .fresh (twoSaves ++ [.call .load, .step 2])).log.history e := by
  have hroom : ∀ step ∈ (storeRun plain .fresh (twoSaves ++ [.call .load, .step 2])).log.history,
      step.before.room = none := by decide +kernel
  have hthreads : (storeRun plain .fresh twoSaves).threads.length = 2 := by decide +kernel
  have hload : (storeRun plain .fresh twoSaves).log.shared.load plain = .ok (enrolled "second") := by decide +kernel
  have hended := ended_load hthreads hload
  obtain ⟨e, he, hsaved, -⟩ :=
    (loads_saved plain _ (fun step hstep => not_mixes (hroom step hstep)) hended).1 _ rfl
  exact ⟨e, he ▸ hended, hsaved⟩

/-! ## A save that runs alone -/

/-- `enrollment.json` is there, and empty. -/
structure Truncated (d : Disk) (file : ℕ) : Prop where
  entry : d.entry = some file
  lt : file < d.files.length
  content : d.content file = []
  denied : d.denied = false

theorem truncated_open {d : Disk} (hdenied : d.denied = false) (hdir : d.dir) :
    Truncated (FileOp.openFile.exec d) d.opened := by
  rw [exec_openFile, if_neg (by simp [hdenied, hdir])]
  unfold Disk.opened
  split
  · rename_i file hentry
    have hlt := d.entry_lt file hentry
    rw [hentry, Option.getD_some]
    exact ⟨hentry, by simpa [Disk.put] using hlt, by simp [Disk.content, Disk.put, hlt], hdenied⟩
  · rename_i hentry
    rw [hentry, Option.getD_none]
    exact ⟨rfl, by simp [Disk.create], by simp [Disk.content, Disk.create], hdenied⟩

/-- What is written to an empty file is what is found there. -/
theorem load_write {d : Disk} {file : ℕ} (h : Truncated d file) (codec : Codec) (text : List Char) :
    ((FileOp.write file text).exec d).load codec = decode codec (d.written text) := by
  have hexec : (FileOp.write file text).exec d =
      d.put file (d.written text ++ (d.content file).drop (d.written text).length) := rfl
  have htext : (d.put file (d.written text)).text = some (d.written text) := by
    simp [Disk.text, Disk.put, Disk.content, h.entry, h.lt]
  rw [hexec, h.content, List.drop_nil, List.append_nil, Disk.load, if_neg (by simp [Disk.put, h.denied]), htext]

/-- What `Load` is to find after a save of the enrollment. A save that fails leaves what was there, or nothing. -/
def Leaves (codec : Codec) (e : Enrollment) (before : Disk) : Except Failure Unit → Disk → Prop
  | .ok (), after =>
    after.load codec = if e.deviceID = "" ∨ e.spaceID = "" then .error .notEnrolled else .ok e
  | .error _, after => after.load codec = before.load codec ∨ after.load codec = .error .notEnrolled

/-- **A save that runs alone** leaves the enrollment, whatever the file held before, or fails. -/
theorem load_save (codec : Codec) (e : Enrollment) (d : Disk) :
    (save e).Ends FileOp.exec (Leaves codec e d) d := by
  rw [save, Prog.ends_stmt, exec_mkdirAll]
  by_cases hdenied : d.denied
  · rw [if_pos hdenied, if_pos hdenied]
    exact .inl rfl
  rw [if_neg hdenied, if_neg hdenied]
  have hopen := truncated_open (d := { d with dir := true }) (by simpa using hdenied) rfl
  cases hraw : marshalIndent e with
  | none => exact .inl rfl
  | some text =>
    have hallowed : ¬ (({ d with dir := true } : Disk).denied ∨ ({ d with dir := true } : Disk).dir = false) := by
      simpa using hdenied
    simp only [Prog.ends_stmt, if_neg hallowed]
    have hprefix := written_isPrefix (FileOp.openFile.exec { d with dir := true }) text
    split
    · rename_i hcut
      obtain ⟨tail, htail⟩ := hprefix
      have hne : tail ≠ [] := by
        rintro rfl
        rw [List.append_nil] at htail
        rw [htail] at hcut
        exact Nat.lt_irrefl _ hcut
      refine Or.inr ((load_write hopen codec text).trans ?_)
      rw [decode, unmarshal_cut hraw hne htail]
    · rename_i hwhole
      have hwritten := hprefix.eq_of_length_le (Nat.not_lt.mp hwhole)
      refine (load_write hopen codec text).trans ?_
      rw [hwritten, decode, unmarshal_marshalIndent codec hraw]

end EnrollmentStore
