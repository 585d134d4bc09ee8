import NetlinkHub.Go.Text

/-! # Checking a detached signature

What every verifier of the agent does with a signature: find the key by its identifier, decode the
signature, and ask Ed25519. The scheme itself is a parameter; that it cannot be forged is a
hypothesis on it (`Unforgeable`, `Binding`). -/

namespace Signature

open Posix (Bytes)

/-- `ed25519.Verify(key, message, sig)`. -/
abbrev Scheme := Bytes → List Char → Bytes → Bool

/-- `ed25519.PublicKeySize`. -/
def publicKeySize : Nat := 32

/-- The trusted keys by their identifiers. -/
abbrev Keys := List (String × Bytes)

/-- Why a signature is refused. -/
inductive Fault where
  | unknownKey
  | badSignature
  deriving DecidableEq, Repr

/-- Check a signature on a message. -/
def check (verify : Scheme) (trusted : Keys) (keyID : String) (message : List Char)
    (signature : String) : Except Fault Unit :=
  match trusted.lookup keyID with
  | none => .error .unknownKey
  | some key =>
    if key.length ≠ publicKeySize then .error .unknownKey
    else match Text.rawURLDecode signature with
      | none => .error .badSignature
      | some sig => if verify key message sig then .ok () else .error .badSignature

variable {verify : Scheme} {trusted : Keys} {keyID signature : String} {message : List Char}

theorem check_ok (h : check verify trusted keyID message signature = .ok ()) :
    ∃ key sig, trusted.lookup keyID = some key ∧ Text.rawURLDecode signature = some sig ∧
      verify key message sig = true := by
  unfold check at h
  split at h
  · cases h
  · rename_i key hkey
    split at h
    · cases h
    · split at h
      · cases h
      · rename_i sig hsig
        split at h
        · rename_i hv
          exact ⟨key, sig, hkey, hsig, hv⟩
        · cases h

/-- **Unforgeable.** What verifies under a trusted key was signed by the holder of the key. -/
def Unforgeable (verify : Scheme) (trusted : Keys) (signed : List Char → Prop) : Prop :=
  ∀ id key message sig, trusted.lookup id = some key → verify key message sig = true →
    signed message

/-- **Binding.** The signature on a message verifies on no other. -/
def Binding (verify : Scheme) (trusted : Keys) (signature : String) (message : List Char) : Prop :=
  ∀ id key other sig, trusted.lookup id = some key → Text.rawURLDecode signature = some sig →
    verify key other sig = true → other = message

theorem eq_of_check {original : List Char} (hbind : Binding verify trusted signature original)
    (h : check verify trusted keyID message signature = .ok ()) : message = original := by
  obtain ⟨key, sig, hkey, hsig, hv⟩ := check_ok h
  exact hbind keyID key message sig hkey hsig hv

end Signature
