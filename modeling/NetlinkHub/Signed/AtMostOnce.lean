import NetlinkHub.Signed.Command
import NetlinkHub.Signed.Grant

/-! # Power commands and grants are accepted once, or not

A nonce entry is dropped by a clock reading that is past the expiry carried in the first accepted
envelope. A later copy can still pass the expiry check: its own expiry may differ by less than the
millisecond the signature covers, or the clock may move between the check and the store. Each nonce
is accepted at most once exactly when this does not happen (`verify_once_iff`). -/

open ReplayGuard (Call ClockAdvances)

namespace PowerCommand

variable (v : Verifier) (scheme : Signature.Scheme)

/-- The commands a run of `Verify` calls accepts, from a new nonce store. -/
def acceptedCommands (calls : List (Call Envelope Time)) : List Command :=
  ReplayGuard.passed (v.checks scheme) Command.nonce Command.expiresAt .replayed calls []

/-- The first call that spends a nonce carries an expiry that no later call with the nonce reads a
clock past. Only calls whose envelope passes all other checks count. -/
def FirstExpiryKept (nonce : String) (calls : List (Call Envelope Time)) : Prop :=
  ReplayGuard.Kept nonce
    (ReplayGuard.attempts (v.checks scheme) Command.nonce Command.expiresAt calls)

end PowerCommand

namespace RemoteGrant

variable (v : Verifier) (scheme : Signature.Scheme)

/-- The grants a run of `Verify` calls accepts, from a new nonce store. -/
def acceptedGrants (calls : List (Call Envelope Time)) : List Grant :=
  ReplayGuard.passed (v.checks scheme) Grant.nonce Grant.expiresAt .replayed calls []

/-- The first call that spends a nonce carries an expiry that no later call with the nonce reads a
clock past. Only calls whose envelope passes all other checks count. -/
def FirstExpiryKept (nonce : String) (calls : List (Call Envelope Time)) : Prop :=
  ReplayGuard.Kept nonce (ReplayGuard.attempts (v.checks scheme) Grant.nonce Grant.expiresAt calls)

end RemoteGrant

/-- **Accepted at most once.** In every run of calls of one verifier with one nonce store, under a
clock that never goes back, a nonce is accepted at most once exactly when the expiry its first
passing envelope carries is not past at any later attempt with it; for power commands and for
session grants alike. -/
theorem verify_once_iff (scheme : Signature.Scheme) (nonce : String) :
    (∀ (v : PowerCommand.Verifier) (calls : List (Call PowerCommand.Envelope Time)), ClockAdvances calls →
      (((PowerCommand.acceptedCommands v scheme calls).filter (·.nonce = nonce)).length ≤ 1 ↔
        PowerCommand.FirstExpiryKept v scheme nonce calls)) ∧
    ∀ (v : RemoteGrant.Verifier) (calls : List (Call RemoteGrant.Envelope Time)),
      ClockAdvances calls →
      (((RemoteGrant.acceptedGrants v scheme calls).filter (·.nonce = nonce)).length ≤ 1 ↔
        RemoteGrant.FirstExpiryKept v scheme nonce calls) :=
  ⟨fun _ _ h => ReplayGuard.passed_once_iff nonce h, fun _ _ h => ReplayGuard.passed_once_iff nonce h⟩

/-! ## A copy that outlives the entry -/

namespace PowerCommand

/-- A command that expires one second after it was issued. -/
def shortLived : Command :=
  ⟨"c1", "power.lock", "d1", "s1", ⟨0⟩, ⟨1000000000⟩, "n1", "u1"⟩

/-- The same command, said to expire half a millisecond later. The signed text is the same. -/
def longerLived : Command := { shortLived with expiresAt := ⟨1000500000⟩ }

/-- A signature that verifies on the text of `shortLived` only. -/
def shortLivedScheme : Signature.Scheme := fun _ message _ => message = signingInput shortLived

/-- The verifier of the device the command is for. -/
def device : Verifier := newVerifier "d1" [("key", List.replicate 32 7)]

/-- The command is verified at once, its copy a fifth of a millisecond after the expiry. -/
def copiedLate : List (Call Envelope Time) :=
  [⟨⟨shortLived, "AAAA", "key"⟩, ⟨0⟩, ⟨0⟩⟩,
    ⟨⟨longerLived, "AAAA", "key"⟩, ⟨1000200000⟩, ⟨1000200000⟩⟩]

theorem unforgeable_shortLived :
    Signature.Unforgeable shortLivedScheme device.trustedKeys (· = signingInput shortLived) := by
  intro id key message sig _ h
  simpa [shortLivedScheme] using h

theorem clockAdvances_copiedLate : ClockAdvances copiedLate := by
  simp [ClockAdvances, copiedLate, Time.le_def]

/-- One signed command is accepted twice, and nothing was forged. -/
theorem copiedLate_accepted_twice :
    ClockAdvances copiedLate ∧
      Signature.Unforgeable shortLivedScheme device.trustedKeys (· = signingInput shortLived) ∧
      ((acceptedCommands device shortLivedScheme copiedLate).filter (·.nonce = "n1")).length = 2 :=
  ⟨clockAdvances_copiedLate, unforgeable_shortLived, by decide⟩

/-- The run is one where the first expiry is not kept. -/
theorem copiedLate_once_iff :
    ((acceptedCommands device shortLivedScheme copiedLate).filter (·.nonce = "n1")).length ≤ 1 ↔
      FirstExpiryKept device shortLivedScheme "n1" copiedLate :=
  (verify_once_iff shortLivedScheme "n1").1 device copiedLate clockAdvances_copiedLate

end PowerCommand
