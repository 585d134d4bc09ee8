import NetlinkHub.Posix.Calls
import Mathlib.Data.List.Perm.Basic

/-! # Trees that differ in the bytes of files

Two trees with the same directories, links and files, where only the bytes of files outside some
location may differ. Following a path reads no bytes, so paths lead to the same places in both. -/

namespace Posix

/-- A node without the bytes of a file. -/
def Node.shape : Node → Node
  | .file _ => .file []
  | x => x

/-- The same directories, links and files, with the same bytes at or below `top`. -/
structure AgreeBelow (top : Location) (fs fs' : FileSystem) : Prop where
  shape : ∀ p, (fs'.node p).map Node.shape = (fs.node p).map Node.shape
  below : ∀ p, top <+: p → fs'.node p = fs.node p

variable {fs fs' : FileSystem} {top cur loc : Location} {path : List Name}

namespace AgreeBelow

theorem node_eq_none (h : AgreeBelow top fs fs') (p : Location) :
    fs'.node p = none ↔ fs.node p = none := by
  have := h.shape p
  cases h₁ : fs.node p <;> cases h₂ : fs'.node p <;> simp_all

/-- A scan reads no bytes. -/
theorem scan_eq (h : AgreeBelow top fs fs') (cur : Location) (path : List Name) :
    scan fs' cur path = scan fs cur path := by
  induction path generalizing cur with
  | nil => rfl
  | cons n path ih =>
    rw [scan, scan, ih, ih, ih]
    have hs := h.shape (cur ++ [n])
    cases h₁ : fs.node (cur ++ [n]) with
    | none => rw [(h.node_eq_none _).mpr h₁]
    | some x =>
      rw [h₁] at hs
      cases h₂ : fs'.node (cur ++ [n]) with
      | none => rw [h₂] at hs; cases hs
      | some y => rw [h₂] at hs; cases x <;> cases y <;> simp_all [Node.shape]

/-- A walk reads no bytes. -/
theorem walk_eq (h : AgreeBelow top fs fs') (b : Nat) (cur : Location) (path : List Name) :
    walk fs' b cur path = walk fs b cur path := by
  induction b generalizing cur path with
  | zero => unfold walk; rw [h.scan_eq]
  | succ b ih =>
    unfold walk
    rw [h.scan_eq]
    cases scan fs cur path with
    | symlink dir target rest => exact ih _ _
    | _ => rfl

/-- The names in a directory are the same. -/
theorem perm_entries (h : AgreeBelow top fs fs') (dir : Location) :
    (fs'.entries dir).Perm (fs.entries dir) := by
  refine (List.perm_ext_iff_of_nodup (fs'.nodup_entries dir) (fs.nodup_entries dir)).mpr fun n => ?_
  rw [FileSystem.mem_entries, FileSystem.mem_entries, ne_eq, h.node_eq_none]

end AgreeBelow

end Posix
