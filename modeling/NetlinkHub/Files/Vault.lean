import NetlinkHub.Go.Os
import Mathlib.Data.Option.Basic

/-! # The vault of approved folders

The `files` package of the agent: the approved roots, `Resolve`, which turns a relative path from a
client into a path on disk or refuses, and the operations that go through it. An operation reads
the tree it finds and returns the tree it leaves; nobody else changes the tree while it runs.

What the tree does not hold is a parameter: the sizes of directories and the modification times
(`Attributes`), the SHA-256 function, and `strings.ToLower`, used for sorting only. -/

namespace Files

open Posix Filepath

/-- Why an operation is refused, with what its text is built from. -/
inductive Error where
  /-- "that path is outside the approved folder" -/
  | outsideRoot
  /-- "that folder has not been approved" -/
  | notApproved
  /-- "that path is not a file" -/
  | notAFile
  /-- "that path is not a folder" -/
  | notADirectory
  /-- "that path is not a folder", with the path to be approved -/
  | notADirectoryAt (path : Bytes)
  /-- "resolving" the path to be approved -/
  | resolving (path : Bytes) (err : Errno)
  /-- the path to be approved "cannot be opened" -/
  | cannotBeOpened (path : Bytes) (err : Errno)
  /-- an error of the operating system, wrapped -/
  | os (err : Errno)
  /-- the root of that name "is shared read-only" -/
  | sharedReadOnly (name : String)
  /-- "cannot resume past the end of the file" -/
  | pastTheEnd
  /-- "cannot resume at" the offset; "the file is" of another size -/
  | cannotResume (offset size : Int)
  /-- an error of the reader the data comes from, wrapped -/
  | reader (text : String)
  /-- "an approved folder cannot be deleted through NetLink" -/
  | approvedFolder
  deriving DecidableEq, Repr

/-- One item inside an approved folder. -/
structure Entry where
  name : Bytes
  path : Bytes
  isDir : Bool
  sizeBytes : Int
  modifiedAt : Int
  deriving DecidableEq, Repr

/-- One approved folder. `path` is what `EvalSymlinks` returned: the spelling of a location. -/
structure Root where
  id : String
  name : String
  path : Bytes
  readOnly : Bool
  path_spells : ∃ l, ValidLocation l ∧ render l = path

/-- The location a root's path spells. -/
def Root.location (root : Root) : Location := components root.path

theorem Root.validLocation (root : Root) : ValidLocation root.location := by
  obtain ⟨l, hl, hpath⟩ := root.path_spells
  rw [location, ← hpath, components_render hl]
  exact hl

@[simp] theorem Root.render_location (root : Root) : render root.location = root.path := by
  obtain ⟨l, hl, hpath⟩ := root.path_spells
  rw [location, ← hpath, components_render hl]

/-- The approved roots by their identifiers. -/
structure Vault where
  roots : List (String × Root)

/-- What the operating system reports about a node beside its kind and its bytes. -/
structure Attributes where
  dirSize : Location → Int
  modTime : Location → Int

/-- The size `Lstat` reports. -/
def Attributes.size (attrs : Attributes) (loc : Location) : Node → Int
  | .dir => attrs.dirSize loc
  | .file content => content.length
  | .link target => target.length

/-! ## Spelling rules -/

/-- The Windows separator. -/
def backslash : UInt8 := 92

/-- What separates a Windows file name from an alternate data stream. -/
def colon : UInt8 := 58

/-- `withinRoot`: the path is the root or continues it after a separator. -/
def withinRoot (root path : Bytes) : Bool :=
  let pre := if root.getLast? = some slash then root else root ++ [slash]
  path = root ∨ pre <+: path

/-- `isUNCPath`. -/
def isUNCPath (path : Bytes) : Bool := [backslash, backslash] <+: path ∨ [slash, slash] <+: path

/-- `hasDriveLetter`. -/
def hasDriveLetter : Bytes → Bool
  | c :: d :: _ => d = colon ∧ (97 ≤ c ∧ c ≤ 122 ∨ 65 ≤ c ∧ c ≤ 90)
  | _ => false

/-- `strings.ReplaceAll(relative, "\\", "/")`. -/
def replaceBackslashes (path : Bytes) : Bytes := path.map fun c => if c = backslash then slash else c

/-- The relative path with one kind of separator, cleaned; the root itself is empty. -/
def cleanRelative (relative : Bytes) : Bytes :=
  let cleaned := clean (replaceBackslashes relative)
  if cleaned = dot then [] else cleaned

/-- The lexical half of `Resolve`: the candidate path below the root, unless the spelling alone is
refused. -/
def candidate (root : Root) (relative : Bytes) : Except Error Bytes :=
  if isAbs relative ∨ hasDriveLetter relative ∨ isUNCPath relative then .error .outsideRoot
  else if 0 ∈ relative ∨ colon ∈ relative then .error .outsideRoot
  else
    let candidate := join [root.path, cleanRelative relative]
    if withinRoot root.path candidate then .ok candidate else .error .outsideRoot

/-- The loop of `existingAncestorIsInside`, with a bound on its rounds. -/
def ancestorLoop (fs : FileSystem) (root : Bytes) : Nat → Bytes → Bool
  | 0, _ => false
  | rounds + 1, current =>
    match evalSymlinks fs current with
    | .ok resolved => withinRoot root resolved
    | .error e =>
      if ¬ Os.isNotExist e then false
      else if dir current = current then false
      else if ¬ withinRoot root (dir current) ∧ dir current ≠ root then false
      else ancestorLoop fs root rounds (dir current)

/-- `existingAncestorIsInside`. Every round makes the path shorter. -/
def existingAncestorIsInside (fs : FileSystem) (root candidate : Bytes) : Bool :=
  ancestorLoop fs root (candidate.length + 1) (dir candidate)

/-! ## Operations -/

namespace Vault

variable (v : Vault) (fs : FileSystem)

/-- `Approve`. -/
def approve (cwd : Except Errno Bytes) (id name : String) (path : Bytes) (readOnly : Bool) :
    Except Error (Vault × Root) :=
  match abs cwd path with
  | .error e => .error (.resolving path e)
  | .ok absolute =>
    match h : evalSymlinks fs absolute with
    | .error e => .error (.cannotBeOpened path e)
    | .ok resolved =>
      match Os.stat fs resolved with
      | .error e => .error (.cannotBeOpened path e)
      | .ok (_, info) =>
        if info ≠ .dir then .error (.notADirectoryAt path)
        else
          let root : Root :=
            { id, name, path := resolved, readOnly,
              path_spells := by
                obtain ⟨l, hr, hl, -⟩ := node_of_evalSymlinks h
                exact ⟨l, hl, hr.symm⟩ }
          .ok ({ v with roots := (id, root) :: v.roots.filter (·.1 ≠ id) }, root)

/-- `Revoke`. -/
def revoke (id : String) : Vault := { v with roots := v.roots.filter (·.1 ≠ id) }

/-- `root`. -/
def root (id : String) : Except Error Root :=
  match v.roots.lookup id with
  | none => .error .notApproved
  | some root => .ok root

/-- `Resolve`. -/
def resolve (rootID : String) (relative : Bytes) : Except Error (Bytes × Root) :=
  match v.root rootID with
  | .error e => .error e
  | .ok root =>
    match candidate root relative with
    | .error e => .error e
    | .ok candidate =>
      match evalSymlinks fs candidate with
      | .error e =>
        if Os.isNotExist e then
          if existingAncestorIsInside fs root.path candidate then .ok (candidate, root)
          else .error .outsideRoot
        else .error (.os e)
      | .ok resolved =>
        if withinRoot root.path resolved then .ok (resolved, root) else .error .outsideRoot

/-- A symbolic link that does not lead to a place inside the root. -/
def leadsOut (root : Root) (full : Bytes) : Node → Bool
  | .link _ =>
    match evalSymlinks fs full with
    | .error _ => true
    | .ok target => !withinRoot root.path target
  | _ => false

/-- The entry `List` shows for an item, if any. -/
def entry (attrs : Attributes) (root : Root) (resolved : Bytes) (item : Name) : Option Entry :=
  match Os.lstat fs (resolved ++ slash :: item) with
  | .error _ => none
  | .ok (loc, info) =>
    let full := join [resolved, item]
    if leadsOut fs root full info then none
    else (rel root.path full).map fun relativePath =>
      { name := item, path := relativePath, isDir := info = .dir, sizeBytes := attrs.size loc info,
        modifiedAt := attrs.modTime loc }

/-- Folders first, then names without regard to case. -/
def entryLE (toLower : Bytes → Bytes) (a b : Entry) : Bool :=
  if a.isDir ≠ b.isDir then a.isDir else toLower a.name ≤ toLower b.name

/-- `List`. The order of entries whose names differ in case only is not fixed by the source. -/
def list (attrs : Attributes) (toLower : Bytes → Bytes) (rootID : String) (relative : Bytes) :
    Except Error (List Entry) :=
  match v.resolve fs rootID relative with
  | .error e => .error e
  | .ok (resolved, root) =>
    match Os.stat fs resolved with
    | .error e => .error (.os e)
    | .ok (_, info) =>
      if info ≠ .dir then .error .notADirectory
      else match Os.readDir fs resolved with
        | .error e => .error (.os e)
        | .ok items =>
          .ok ((items.filterMap (entry fs attrs root resolved)).mergeSort (entryLE toLower))

end Vault

/-- An open file: where it is, its bytes, and the position reading starts from. -/
structure OpenFile where
  location : Location
  content : Bytes
  position : Nat
  deriving DecidableEq, Repr

/-- What is written to a file: the bytes a reader yields, and the error it ends with, if any. -/
structure Data where
  bytes : Bytes
  err : Option String
  deriving DecidableEq, Repr

/-- What an operation that may change the tree leaves behind. -/
structure Outcome where
  fs : FileSystem
  written : Nat
  err : Option Error

/-- The bytes of a file after `data` was written at a position that is not past its end. -/
def writeAt (content : Bytes) (position : Nat) (data : Bytes) : Bytes :=
  content.take position ++ data ++ content.drop (position + data.length)

/-- The bytes at a location. -/
def contentAt (fs : FileSystem) (loc : Location) : Bytes :=
  match fs.node loc with
  | some (.file content) => content
  | _ => []

/-- `io.Copy` to an open file. -/
def copyTo (fs : FileSystem) (loc : Location) (position : Nat) (data : Data) : Outcome :=
  { fs := fs.setContent loc (writeAt (contentAt fs loc) position data.bytes)
    written := data.bytes.length
    err := data.err.map .reader }

/-- `hex.EncodeToString`. -/
def hexEncode (bytes : Bytes) : List Char :=
  bytes.flatMap fun b => [Nat.digitChar (b.toNat / 16), Nat.digitChar (b.toNat % 16)]

namespace Vault

variable (v : Vault) (fs : FileSystem)

/-- `Open`: the file, positioned at the offset, and its size. -/
def openFile (rootID : String) (relative : Bytes) (offset : Int) : Except Error (OpenFile × Int) :=
  match v.resolve fs rootID relative with
  | .error e => .error e
  | .ok (resolved, _) =>
    match Os.stat fs resolved with
    | .error e => .error (.os e)
    | .ok (_, .dir) => .error .notAFile
    | .ok (loc, _) =>
      let content := contentAt fs loc
      if 0 < offset then
        if (content.length : Int) < offset then .error .pastTheEnd
        else .ok (⟨loc, content, offset.toNat⟩, content.length)
      else .ok (⟨loc, content, 0⟩, content.length)

/-- `Checksum`. -/
def checksum (sha256 : Bytes → Bytes) (rootID : String) (relative : Bytes) :
    Except Error (List Char) :=
  match v.openFile fs rootID relative 0 with
  | .error e => .error e
  | .ok (reader, _) => .ok (hexEncode (sha256 (reader.content.drop reader.position)))

/-- `Write`. -/
def write (rootID : String) (relative : Bytes) (offset : Int) (data : Data) : Outcome :=
  match v.resolve fs rootID relative with
  | .error e => ⟨fs, 0, some e⟩
  | .ok (resolved, root) =>
    if root.readOnly then ⟨fs, 0, some (.sharedReadOnly root.name)⟩
    else match Os.mkdirAll fs (dir resolved) with
      | (fs, .error e) => ⟨fs, 0, some (.os e)⟩
      | (fs, .ok ()) =>
        match openCreate fs (components resolved) (offset = 0) with
        | .error e => ⟨fs, 0, some (.os e)⟩
        | .ok (loc, fs) =>
          if 0 < offset then
            let size := (contentAt fs loc).length
            if size ≠ offset then ⟨fs, 0, some (.cannotResume offset size)⟩
            else copyTo fs loc offset.toNat data
          else copyTo fs loc 0 data

/-- `MakeDir`. -/
def makeDir (rootID : String) (relative : Bytes) : Outcome :=
  match v.resolve fs rootID relative with
  | .error e => ⟨fs, 0, some e⟩
  | .ok (resolved, root) =>
    if root.readOnly then ⟨fs, 0, some (.sharedReadOnly root.name)⟩
    else match Os.mkdirAll fs resolved with
      | (fs, .error e) => ⟨fs, 0, some (.os e)⟩
      | (fs, .ok ()) => ⟨fs, 0, none⟩

/-- `Rename`. -/
def rename (rootID : String) («from» «to» : Bytes) : Outcome :=
  match v.resolve fs rootID «from» with
  | .error e => ⟨fs, 0, some e⟩
  | .ok (fromPath, root) =>
    if root.readOnly then ⟨fs, 0, some (.sharedReadOnly root.name)⟩
    else match v.resolve fs rootID «to» with
      | .error e => ⟨fs, 0, some e⟩
      | .ok (toPath, _) =>
        match Os.rename fs fromPath toPath with
        | .error e => ⟨fs, 0, some (.os e)⟩
        | .ok fs => ⟨fs, 0, none⟩

/-- `Delete`. -/
def delete (rootID : String) (relative : Bytes) : Outcome :=
  match v.resolve fs rootID relative with
  | .error e => ⟨fs, 0, some e⟩
  | .ok (resolved, root) =>
    if root.readOnly then ⟨fs, 0, some (.sharedReadOnly root.name)⟩
    else if resolved = root.path then ⟨fs, 0, some .approvedFolder⟩
    else match Os.remove fs resolved with
      | .error e => ⟨fs, 0, some (.os e)⟩
      | .ok fs => ⟨fs, 0, none⟩

end Vault

end Files
