import NetlinkHub.Concurrent.Trace
import NetlinkHub.Go.Base64
import NetlinkHub.System.Wire

/-! # The identity store

`identity.json` and `device.key` are written and removed one after the other, by several processes at once.
What `Load` makes of the two files depends only on whether the record has its key beside it (`Stranded`),
and three of the file operations may take the key away from a record (`Strands`). The directory recovers
from every crash of a run exactly when the run has none of these (`recovers_unless_stranded`). -/

namespace IdentityStore

open Concurrent (Prog Machine Move Config)
open Posix (Bytes)

/-! ## Identities -/

/-- `ed25519.PrivateKeySize`. -/
def privateKeySize : ℕ := 64

/-- `ed25519.PublicKeySize`. -/
def publicKeySize : ℕ := 32

/-- `PrivateKey.Public`: the second half of a private key. -/
def publicOf (privateKey : Bytes) : Bytes := privateKey.drop 32

/-- A private key that `ed25519.GenerateKey` makes. -/
structure GeneratedKey where
  key : Bytes
  size : key.length = privateKeySize

/-- The record of `identity.json`, and the private key that is not part of it. -/
structure Identity where
  installationID : String
  publicKey : String
  algorithm : String
  deviceName : String
  createdAt : Time
  privateKey : Bytes

/-- Why an operation fails. -/
inductive Failure where
  /-- `ErrNotEnrolled`. -/
  | notEnrolled
  | other (text : String)
  deriving DecidableEq, Repr

/-- `PublicKeyBytes`. -/
def Identity.publicKeyBytes (ident : Identity) : Except Failure Bytes :=
  match Text.rawURLDecode ident.publicKey with
  | none => .error (.other "netlink: public key is not valid base64url")
  | some raw =>
    if raw.length ≠ publicKeySize then
      .error (.other s!"netlink: public key is {raw.length} bytes, expected {publicKeySize}")
    else .ok raw

/-- An instant whose year has four digits; `encoding/json` writes no other. -/
def FourDigits (t : Time) : Prop :=
  0 ≤ (Time.civil (t.unixMilli / 86400000)).1 ∧ (Time.civil (t.unixMilli / 86400000)).1 ≤ 9999

/-- What is not part of the package: the platform's `KeyStore`, whose `Protect` may draw random bytes, and
`encoding/json`. -/
structure Platform where
  protect : Bytes → Bytes → Option Bytes
  unprotect : Bytes → Option Bytes
  marshalIndent : Identity → Option (List Char)
  unmarshal : List Char → Option Identity
  unprotect_protect : ∀ random key, ∃ ciphertext, protect random key = some ciphertext ∧
    unprotect ciphertext = some key
  unmarshal_marshalIndent : ∀ ident, FourDigits ident.createdAt → ∃ text,
    marshalIndent ident = some text ∧ ∃ read, unmarshal text = some read ∧ read.publicKey = ident.publicKey

/-- What `Create` draws and reads from the clock. -/
structure Draw where
  generated : GeneratedKey
  random : Bytes
  installationID : String
  now : Time
  fourDigits : FourDigits now

/-! ## The file operations -/

/-- The directory of an installation. -/
structure Disk where
  dir : Bool
  key : Option Bytes
  identity : Option (List Char)

/-- A directory that does not exist yet. -/
def Disk.fresh : Disk := ⟨false, none, none⟩

/-- An operation on the directory. -/
inductive FileOp where
  | readIdentity
  | readKey
  | statIdentity
  | mkdirAll
  | writeKey (ciphertext : Bytes)
  | writeIdentity (text : List Char)
  | removeKey
  | removeIdentity

/-- What an operation does to the directory. Nothing is written before the directory is there. -/
def FileOp.exec : FileOp → Disk → Disk
  | .readIdentity, disk => disk
  | .readKey, disk => disk
  | .statIdentity, disk => disk
  | .mkdirAll, disk => { disk with dir := true }
  | .writeKey ciphertext, disk => if disk.dir then { disk with key := some ciphertext } else disk
  | .writeIdentity text, disk => if disk.dir then { disk with identity := some text } else disk
  | .removeKey, disk => { disk with key := none }
  | .removeIdentity, disk => { disk with identity := none }

/-! ## The operations of the store -/

variable (P : Platform)

/-- What `Load` makes of the bytes of `device.key`. -/
def openKey (ident : Identity) (ciphertext : Bytes) : Except Failure Identity :=
  match P.unprotect ciphertext with
  | none => .error (.other "netlink: device key could not be unprotected")
  | some priv =>
    if priv.length ≠ privateKeySize then
      .error (.other s!"netlink: device key is {priv.length} bytes, expected {privateKeySize}")
    else match ident.publicKeyBytes with
      | .error e => .error e
      | .ok pub =>
        if pub ≠ publicOf priv then
          .error (.other "netlink: device key does not match the recorded public key")
        else .ok { ident with privateKey := priv }

/-- `Load`. -/
def load : Prog Disk FileOp Failure Identity :=
  .stmt .readIdentity fun disk => match disk.identity with
    | none => .raise .notEnrolled
    | some raw => match P.unmarshal raw with
      | none => .raise (.other "netlink: identity file is corrupt")
      | some ident => .stmt .readKey fun disk => match disk.key with
        | none => .raise .notEnrolled
        | some ciphertext => match openKey P ident ciphertext with
          | .error e => .raise e
          | .ok ident => .done ident

/-- The identity that `Create` puts together. -/
def newIdentity (deviceName : String) (draw : Draw) : Identity where
  installationID := draw.installationID
  publicKey := Text.rawURLEncode (publicOf draw.generated.key)
  algorithm := "ed25519"
  deviceName := deviceName
  createdAt := draw.now
  privateKey := draw.generated.key

/-- `Create`. -/
def create (deviceName : String) (draw : Draw) : Prog Disk FileOp Failure Identity :=
  .stmt .statIdentity fun disk =>
    if disk.identity.isSome then
      .raise (.other "netlink: an identity already exists for this installation")
    else .stmt .mkdirAll fun _ =>
      match P.protect draw.random draw.generated.key with
      | none => .raise (.other "netlink: protecting device key")
      | some ciphertext => .stmt (.writeKey ciphertext) fun disk =>
        if disk.dir = false then .raise (.other "netlink: writing device key")
        else match P.marshalIndent (newIdentity deviceName draw) with
          | none => .raise (.other "json: error calling MarshalJSON")
          | some text => .stmt (.writeIdentity text) fun disk =>
            if disk.dir = false then .raise (.other "netlink: writing identity")
            else .done (newIdentity deviceName draw)

/-- `LoadOrCreate`. -/
def loadOrCreate (deviceName : String) (draw : Draw) : Prog Disk FileOp Failure Identity :=
  (load P).tryCatch fun e => if e ≠ .notEnrolled then .raise e else create P deviceName draw

/-- `Reset`. Files that are not there are passed over. -/
def reset : Prog Disk FileOp Failure Unit :=
  .stmt .removeKey fun _ => .stmt .removeIdentity fun _ => .done ()

/-- What a process may ask of the store. -/
inductive Request where
  | load
  | create (deviceName : String) (draw : Draw)
  | loadOrCreate (deviceName : String) (draw : Draw)
  | reset

/-- The store, used by any number of processes. One that crashes takes no further step. -/
def store : Machine Disk FileOp Failure Request Empty (Option Identity) where
  handler
    | .load => some <$> load P
    | .create deviceName draw => some <$> create P deviceName draw
    | .loadOrCreate deviceName draw => some <$> loadOrCreate P deviceName draw
    | .reset => (fun _ => none) <$> reset
  exec := FileOp.exec
  env e := nomatch e

/-- The directory after a run from a fresh one. -/
def reached (moves : List (Move Request Empty)) : Disk :=
  (Run.run (store P).step moves (Config.initial Disk.fresh)).log.shared

/-! ## What is on the disk -/

/-- The public key that a record holds. -/
def recordedIn (text : List Char) : Option Bytes :=
  (P.unmarshal text).bind fun ident => ident.publicKeyBytes.toOption

/-- The public key of the record on the disk. -/
def Disk.recorded (disk : Disk) : Option Bytes := disk.identity.bind (recordedIn P)

/-- The public key of the private key that a key file holds. -/
def heldIn (ciphertext : Bytes) : Option Bytes := (P.unprotect ciphertext).map publicOf

/-- The public key of the private key on the disk. -/
def Disk.held (disk : Disk) : Option Bytes := disk.key.bind (heldIn P)

/-- There is a record, and its private key is not there. -/
def Stranded (disk : Disk) : Prop := disk.identity.isSome ∧ disk.held P ≠ disk.recorded P

/-- An operation that takes the private key away from a record: it removes the key file while there is a
record, it writes a key that is not that of the record, or it writes a record whose key is not there. -/
def Strands : FileOp → Disk → Prop
  | .removeKey, disk => disk.identity.isSome
  | .writeKey ciphertext, disk => disk.identity.isSome ∧ heldIn P ciphertext ≠ disk.recorded P
  | .writeIdentity text, disk => disk.dir ∧ disk.held P ≠ recordedIn P text
  | _, _ => False

/-- An undisturbed `LoadOrCreate` succeeds, with the private key of the record. -/
def Recovers (disk : Disk) : Prop :=
  ∀ deviceName draw, ∃ ident after,
    (loadOrCreate P deviceName draw).runAlone FileOp.exec disk = (.ok ident, after) ∧
      ident.publicKeyBytes = .ok (publicOf ident.privateKey) ∧
      after.recorded P = some (publicOf ident.privateKey)

/-- A write of the store: keys are whole, and records have a public key. -/
def Issued : FileOp → Prop
  | .writeKey ciphertext => ∃ generated : GeneratedKey, P.unprotect ciphertext = some generated.key
  | .writeIdentity text => ∃ ident pub, P.unmarshal text = some ident ∧ ident.publicKeyBytes = .ok pub
  | _ => True

/-- What the writes of the store leave on the disk. -/
structure Written (disk : Disk) : Prop where
  key : ∀ ciphertext ∈ disk.key, disk.dir ∧ Issued P (.writeKey ciphertext)
  identity : ∀ text ∈ disk.identity, disk.dir ∧ Issued P (.writeIdentity text)

variable {P} {disk : Disk}

theorem written_fresh : Written P Disk.fresh := ⟨by simp [Disk.fresh], by simp [Disk.fresh]⟩

theorem publicKeyBytes_newIdentity (deviceName : String) (draw : Draw) :
    (newIdentity deviceName draw).publicKeyBytes = .ok (publicOf draw.generated.key) := by
  have hlength : (publicOf draw.generated.key).length = publicKeySize := by
    rw [publicOf, List.length_drop, draw.generated.size]
    rfl
  simp only [Identity.publicKeyBytes, newIdentity, Text.rawURLDecode_encode, hlength, ne_eq,
    not_true_eq_false, if_false]

theorem publicKeyBytes_congr {ident ident' : Identity} (h : ident.publicKey = ident'.publicKey) :
    ident.publicKeyBytes = ident'.publicKeyBytes := by
  simp only [Identity.publicKeyBytes, h]

/-- What `Create` writes is read back. -/
theorem marshalIndent_newIdentity (P : Platform) (deviceName : String) (draw : Draw) : ∃ text ident,
    P.marshalIndent (newIdentity deviceName draw) = some text ∧ P.unmarshal text = some ident ∧
      ident.publicKeyBytes = .ok (publicOf draw.generated.key) := by
  obtain ⟨text, htext, ident, hident, hkey⟩ :=
    P.unmarshal_marshalIndent (newIdentity deviceName draw) draw.fourDigits
  exact ⟨text, ident, htext, hident,
    (publicKeyBytes_congr hkey).trans (publicKeyBytes_newIdentity deviceName draw)⟩

/-! ## What the operations issue -/

theorem issued_load : (load P).Only (Issued P) := by
  refine .stmt trivial fun disk => ?_
  split
  · trivial
  · split
    · trivial
    · refine .stmt trivial fun disk => ?_
      split
      · trivial
      · split <;> trivial

theorem issued_create (deviceName : String) (draw : Draw) :
    (create P deviceName draw).Only (Issued P) := by
  obtain ⟨ciphertext, hprotect, hopen⟩ := P.unprotect_protect draw.random draw.generated.key
  obtain ⟨text, ident, hmarshal, hread, hkey⟩ := marshalIndent_newIdentity P deviceName draw
  refine .stmt trivial fun disk => ?_
  split
  · trivial
  · refine .stmt trivial fun _ => ?_
    rw [hprotect]
    refine .stmt ⟨draw.generated, hopen⟩ fun disk => ?_
    split
    · trivial
    · rw [hmarshal]
      refine .stmt ⟨ident, _, hread, hkey⟩ fun disk => ?_
      split <;> trivial

theorem issued_handler (q : Request) : ((store P).handler q).Only (Issued P) := by
  cases q with
  | load => exact issued_load.map _
  | create deviceName draw => exact (issued_create deviceName draw).map _
  | loadOrCreate deviceName draw =>
    refine (issued_load.tryCatch fun e => ?_).map _
    split
    · trivial
    · exact issued_create deviceName draw
  | reset => exact ⟨trivial, fun _ => ⟨trivial, fun _ => trivial⟩⟩

theorem exec_writeKey (ciphertext : Bytes) (disk : Disk) : (FileOp.writeKey ciphertext).exec disk =
    if disk.dir then { disk with key := some ciphertext } else disk := rfl

theorem exec_writeIdentity (text : List Char) (disk : Disk) : (FileOp.writeIdentity text).exec disk =
    if disk.dir then { disk with identity := some text } else disk := rfl

/-- Each operation keeps what is written. -/
theorem written_exec {op : FileOp} (hop : Issued P op) (h : Written P disk) :
    Written P (op.exec disk) := by
  cases op with
  | readIdentity => exact h
  | readKey => exact h
  | statIdentity => exact h
  | mkdirAll => exact ⟨fun c hc => ⟨rfl, (h.key c hc).2⟩, fun t ht => ⟨rfl, (h.identity t ht).2⟩⟩
  | writeKey ciphertext =>
    rw [exec_writeKey]
    split
    · rename_i hdir
      refine ⟨fun c hc => ⟨hdir, ?_⟩, h.identity⟩
      obtain rfl := Option.some.inj hc
      exact hop
    · exact h
  | writeIdentity text =>
    rw [exec_writeIdentity]
    split
    · rename_i hdir
      refine ⟨h.key, fun t ht => ⟨hdir, ?_⟩⟩
      obtain rfl := Option.some.inj ht
      exact hop
    · exact h
  | removeKey => exact ⟨by simp [FileOp.exec], h.identity⟩
  | removeIdentity => exact ⟨h.key, by simp [FileOp.exec]⟩

/-- **The operations that take a key away.** -/
theorem stranded_exec_iff {op : FileOp} (h : Written P disk) (hnot : ¬ Stranded P disk) :
    Stranded P (op.exec disk) ↔ Strands P op disk := by
  cases op with
  | readIdentity => exact iff_of_false hnot id
  | readKey => exact iff_of_false hnot id
  | statIdentity => exact iff_of_false hnot id
  | mkdirAll => exact iff_of_false hnot id
  | writeKey ciphertext =>
    rw [exec_writeKey]
    split
    · exact Iff.rfl
    · -- Without the directory there is no record either.
      rename_i hdir
      refine iff_of_false hnot fun hstrands => ?_
      obtain ⟨text, htext⟩ := Option.isSome_iff_exists.mp hstrands.1
      exact hdir (h.identity text htext).1
  | writeIdentity text =>
    rw [exec_writeIdentity]
    split
    · rename_i hdir
      exact ⟨fun hstranded => ⟨hdir, hstranded.2⟩, fun hstrands => ⟨rfl, hstrands.2⟩⟩
    · rename_i hdir
      exact iff_of_false hnot fun hstrands => hdir hstrands.1
  | removeKey =>
    refine ⟨fun hstranded => hstranded.1, fun hsome => ⟨hsome, ?_⟩⟩
    obtain ⟨text, htext⟩ := Option.isSome_iff_exists.mp hsome
    obtain ⟨-, ident, pub, hread, hkey⟩ := h.identity text htext
    have hrecorded : disk.recorded P = some pub := by
      simp [Disk.recorded, recordedIn, htext, hread, hkey, Except.toOption]
    show none ≠ disk.recorded P
    rw [hrecorded]
    exact nofun
  | removeIdentity => exact iff_of_false (fun hstranded => nomatch hstranded.1) id

/-! ## When the store recovers -/

/-- `Create` succeeds where there is no record. -/
theorem runAlone_create (deviceName : String) (draw : Draw) (hnone : disk.identity = none) :
    ∃ after, (create P deviceName draw).runAlone FileOp.exec disk =
        (.ok (newIdentity deviceName draw), after) ∧
      after.recorded P = some (publicOf draw.generated.key) := by
  obtain ⟨ciphertext, hprotect, -⟩ := P.unprotect_protect draw.random draw.generated.key
  obtain ⟨text, ident, hmarshal, hread, hkey⟩ := marshalIndent_newIdentity P deviceName draw
  refine ⟨⟨true, some ciphertext, some text⟩, ?_, ?_⟩
  · simp [create, Prog.runAlone, FileOp.exec, hnone, hprotect, hmarshal]
  · simp [Disk.recorded, recordedIn, hread, hkey, Except.toOption]

/-- `LoadOrCreate` takes the files that are there, -/
theorem loadOrCreate_of_ok (deviceName : String) (draw : Draw) {ident : Identity}
    (h : (load P).runAlone FileOp.exec disk = (.ok ident, disk)) :
    (loadOrCreate P deviceName draw).runAlone FileOp.exec disk = (.ok ident, disk) := by
  rw [loadOrCreate, Prog.runAlone_tryCatch, h]

/-- and goes on to create them only where there are none. -/
theorem loadOrCreate_of_error (deviceName : String) (draw : Draw) {e : Failure}
    (h : (load P).runAlone FileOp.exec disk = (.error e, disk)) :
    (loadOrCreate P deviceName draw).runAlone FileOp.exec disk =
      if e ≠ .notEnrolled then (.error e, disk)
      else (create P deviceName draw).runAlone FileOp.exec disk := by
  rw [loadOrCreate, Prog.runAlone_tryCatch, h]
  dsimp only
  split <;> rfl

/-- A draw, to start the store with. -/
def someDraw : Draw where
  generated := ⟨List.replicate 64 7, by decide⟩
  random := []
  installationID := "00000000-0000-4000-8000-000000000000"
  now := ⟨0⟩
  fourDigits := ⟨by decide, by decide⟩

/-- **What a crash leaves behind.** The store recovers exactly where no record is without its key. -/
theorem recovers_iff (h : Written P disk) : Recovers P disk ↔ ¬ Stranded P disk := by
  cases hidentity : disk.identity with
  | none =>
    refine iff_of_true (fun deviceName draw => ?_) fun hstranded => ?_
    · obtain ⟨after, hcreate, hrecorded⟩ := runAlone_create (P := P) deviceName draw hidentity
      have hload : (load P).runAlone FileOp.exec disk = (.error .notEnrolled, disk) := by
        simp [load, Prog.runAlone, FileOp.exec, hidentity]
      refine ⟨_, after, ?_, publicKeyBytes_newIdentity deviceName draw, hrecorded⟩
      rw [loadOrCreate_of_error deviceName draw hload, if_neg (not_not.mpr rfl)]
      exact hcreate
    · rw [Stranded, hidentity] at hstranded
      exact nomatch hstranded.1
  | some text =>
    obtain ⟨-, ident, pub, hread, hpub⟩ := h.identity text hidentity
    have hrecorded : disk.recorded P = some pub := by
      simp [Disk.recorded, recordedIn, hidentity, hread, hpub, Except.toOption]
    have hstranded : Stranded P disk ↔ disk.held P ≠ some pub := by
      simp [Stranded, hidentity, hrecorded]
    rw [hstranded, not_not]
    cases hkey : disk.key with
    | none =>
      -- `Load` finds no key, and `Create` finds the record.
      refine iff_of_false (fun hrecovers => ?_) (by simp [Disk.held, hkey])
      obtain ⟨ident', after, hrun, -⟩ := hrecovers "" someDraw
      have hload : (load P).runAlone FileOp.exec disk = (.error .notEnrolled, disk) := by
        simp [load, Prog.runAlone, FileOp.exec, hidentity, hread, hkey]
      rw [loadOrCreate_of_error _ _ hload] at hrun
      simp [create, Prog.runAlone, FileOp.exec, hidentity] at hrun
    | some ciphertext =>
      obtain ⟨-, generated, hopen⟩ := h.key ciphertext hkey
      have hheld : disk.held P = some (publicOf generated.key) := by
        simp [Disk.held, heldIn, hkey, hopen]
      rw [hheld, Option.some_inj]
      have hload : (load P).runAlone FileOp.exec disk = (openKey P ident ciphertext, disk) := by
        simp only [load, Prog.runAlone, FileOp.exec, hidentity, hread, hkey]
        cases openKey P ident ciphertext <;> rfl
      have hopenKey : openKey P ident ciphertext = if pub ≠ publicOf generated.key then
          .error (.other "netlink: device key does not match the recorded public key")
          else .ok { ident with privateKey := generated.key } := by
        simp [openKey, hopen, generated.size, hpub]
      by_cases hmatch : publicOf generated.key = pub
      · refine iff_of_true (fun deviceName draw => ?_) hmatch
        have hloaded : openKey P ident ciphertext = .ok { ident with privateKey := generated.key } := by
          rw [hopenKey, if_neg (not_not.mpr hmatch.symm)]
        rw [hloaded] at hload
        refine ⟨_, disk, loadOrCreate_of_ok deviceName draw hload, ?_, ?_⟩
        · rw [hmatch, ← hpub]
          exact publicKeyBytes_congr rfl
        · rw [hrecorded, hmatch]
      · refine iff_of_false (fun hrecovers => ?_) hmatch
        obtain ⟨ident', after, hrun, -⟩ := hrecovers "" someDraw
        rw [hopenKey, if_pos (Ne.symm hmatch)] at hload
        rw [loadOrCreate_of_error _ _ hload] at hrun
        simp at hrun

/-! ## Runs -/

theorem breaking_store (P : Platform) : Concurrent.Breaking (store P) (Issued P) (Written P)
    (fun disk => ¬ Stranded P disk) (Strands P) where
  handler := issued_handler
  exec _ _ hop h := written_exec hop h
  env e := nomatch e
  good_exec_iff _ _ _ h hnot := not_congr (stranded_exec_iff h hnot)

/-- **The store recovers unless a record is stranded.** Wherever everything stops, `LoadOrCreate` succeeds
with a matching key exactly when no record is without its private key. It does so after every part of a run
exactly when no operation of the run takes the key away from a record. -/
theorem recovers_unless_stranded (P : Platform) (moves : List (Move Request Empty)) :
    (Recovers P (reached P moves) ↔ ¬ Stranded P (reached P moves)) ∧
      ((∀ before after, moves = before ++ after → Recovers P (reached P before)) ↔
        ∀ step ∈ (Run.run (store P).step moves (Config.initial Disk.fresh)).log.history,
          ¬ Strands P step.write step.before) := by
  have hwritten : ∀ moves, Written P (reached P moves) := fun moves =>
    ((breaking_store P).inv_run written_fresh moves).1
  have hfresh : ¬ Stranded P Disk.fresh := fun h => nomatch h.1
  refine ⟨recovers_iff (hwritten moves), ?_⟩
  rw [← (breaking_store P).forall_reached_iff written_fresh hfresh moves]
  exact forall_congr' fun before => forall_congr' fun after => imp_congr_right fun _ =>
    recovers_iff (hwritten before)

/-! ## A reset that does not come to its end -/

/-- The fields of a record. -/
def fields : List (Unmarshal.Field Identity) :=
  [Unmarshal.stringField "installationId" fun text ident => { ident with installationID := text },
    Unmarshal.stringField "publicKey" fun text ident => { ident with publicKey := text },
    Unmarshal.stringField "publicKeyAlgorithm" fun text ident => { ident with algorithm := text },
    Unmarshal.stringField "deviceName" fun text ident => { ident with deviceName := text },
    Unmarshal.timeField (fun _ => none) "createdAt" fun time ident => { ident with createdAt := time }]

/-- A record as JSON. -/
def Identity.toJson (ident : Identity) : Json :=
  .object [Api.text "installationId" ident.installationID, Api.text "publicKey" ident.publicKey,
    Api.text "publicKeyAlgorithm" ident.algorithm, Api.text "deviceName" ident.deviceName,
    Api.text "createdAt" (Api.toISOString ident.createdAt.unixMilli)]

instance (t : Time) : Decidable (FourDigits t) := inferInstanceAs (Decidable (_ ∧ _))

/-- What is read of a record. -/
def readRecord (text : List Char) : Option Identity :=
  (Json.parse text).bind fun v => Unmarshal.struct id fields v ⟨"", "", "", "", Time.zero, []⟩

theorem readRecord_print (ident : Identity) (h : FourDigits ident.createdAt) : ∃ read,
    readRecord ident.toJson.print = some read ∧ read.publicKey = ident.publicKey := by
  have hreadable : ident.toJson.Readable := by
    simp [Identity.toJson, Api.text, Json.Readable, Json.ReadableMembers, Json.isRaw_quote]
  have hmember : ∀ key {field}, fields.find? (·.name = key) = some field → ∀ value rest ident,
      Unmarshal.members id fields ((Json.quote key, value) :: rest) ident =
        (field.set value ident).bind (Unmarshal.members id fields rest) :=
    fun key _ h value rest ident => Unmarshal.members_cons h
  refine ⟨{ ident with createdAt := .ofMilli ident.createdAt.unixMilli, privateKey := [] }, ?_, rfl⟩
  rw [readRecord, Json.parse_print hreadable]
  simp only [Identity.toJson, Api.text, Option.bind_some, Unmarshal.struct_object,
    hmember "installationId" rfl, hmember "publicKey" rfl, hmember "publicKeyAlgorithm" rfl,
    hmember "deviceName" rfl, hmember "createdAt" rfl, Unmarshal.set_stringField,
    Unmarshal.set_timeField _ _ _ (Api.parseRFC3339_toISOString h)]
  rfl

/-- A platform that keeps the key in a file only accessible to its user. -/
def plainPlatform : Platform where
  protect _ key := some key
  unprotect ciphertext := some ciphertext
  marshalIndent ident := if FourDigits ident.createdAt then some ident.toJson.print else none
  unmarshal := readRecord
  unprotect_protect _ key := ⟨key, rfl, rfl⟩
  unmarshal_marshalIndent ident h := ⟨ident.toJson.print, if_pos h, readRecord_print ident h⟩

/-- An enrolment, and a reset that crashes after its first operation. -/
def crashedReset : List (Move Request Empty) :=
  [.call (.loadOrCreate "Home PC" someDraw), .step 0, .step 0, .step 0, .step 0, .step 0, .call .reset, .step 1]

/-- **A crash from which the store never recovers.** The record is there without its key: `Load` finds no
identity, and `Create` finds one. -/
theorem crashedReset_not_recovers : ¬ Recovers plainPlatform (reached plainPlatform crashedReset) := by
  have hdisk : reached plainPlatform crashedReset =
      ⟨true, none, some (newIdentity "Home PC" someDraw).toJson.print⟩ := rfl
  obtain ⟨text, ident, htext, hread, hkey⟩ := marshalIndent_newIdentity plainPlatform "Home PC" someDraw
  obtain rfl : (newIdentity "Home PC" someDraw).toJson.print = text := Option.some.inj htext
  rw [hdisk, recovers_iff ⟨by simp, fun text' htext' => ⟨rfl, ident, _, ?_, hkey⟩⟩, not_not]
  · refine ⟨rfl, ?_⟩
    simp [Disk.held, Disk.recorded, recordedIn, hread, hkey, Except.toOption]
  · obtain rfl := Option.some.inj htext'
    exact hread

end IdentityStore
