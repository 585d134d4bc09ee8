import NetlinkHub.Signed.AtMostOnce

/-! # Rejected envelopes never count

A verifier over a run of envelopes, and over the same run without some that it rejects. The two nonce
stores drop their entries at different times, yet every envelope of the shorter run is judged as it was
in the longer one (`rejected_never_count`). -/

open ReplayGuard (Call ClockAdvances Marked keptCalls)

namespace PowerCommand

variable (v : Verifier) (scheme : Signature.Scheme)

/-- What a run of `Verify` calls answers, from a nonce store on. -/
def Verifier.results (calls : List (Call Envelope Time)) (seen : NonceStore) :
    List (Except Error Command) :=
  ReplayGuard.results (v.checks scheme) Command.nonce Command.expiresAt .replayed calls seen

theorem Verifier.results_cons (call : Call Envelope Time) (calls : List (Call Envelope Time))
    (seen : NonceStore) : v.results scheme (call :: calls) seen =
      (v.verify scheme call seen).1 :: v.results scheme calls (v.verify scheme call seen).2 := rfl

/-- Every envelope that is taken out is rejected where it stands. -/
def Verifier.RejectsRest (marked : List (Marked Envelope Time)) (seen : NonceStore) : Prop :=
  ReplayGuard.OnlyRefusedOut (v.checks scheme) Command.nonce Command.expiresAt .replayed marked seen

/-- The answers to the envelopes that stay, in the run of all. -/
def Verifier.keptResults (marked : List (Marked Envelope Time)) (seen : NonceStore) :
    List (Except Error Command) :=
  ReplayGuard.keptResults (v.checks scheme) Command.nonce Command.expiresAt .replayed marked seen

end PowerCommand

namespace RemoteGrant

variable (v : Verifier) (scheme : Signature.Scheme)

/-- What a run of `Verify` calls answers, from a nonce store on. -/
def Verifier.results (calls : List (Call Envelope Time)) (seen : NonceStore) :
    List (Except Error Grant) :=
  ReplayGuard.results (v.checks scheme) Grant.nonce Grant.expiresAt .replayed calls seen

theorem Verifier.results_cons (call : Call Envelope Time) (calls : List (Call Envelope Time))
    (seen : NonceStore) : v.results scheme (call :: calls) seen =
      (v.verify scheme call seen).1 :: v.results scheme calls (v.verify scheme call seen).2 := rfl

/-- Every envelope that is taken out is rejected where it stands. -/
def Verifier.RejectsRest (marked : List (Marked Envelope Time)) (seen : NonceStore) : Prop :=
  ReplayGuard.OnlyRefusedOut (v.checks scheme) Grant.nonce Grant.expiresAt .replayed marked seen

/-- The answers to the envelopes that stay, in the run of all. -/
def Verifier.keptResults (marked : List (Marked Envelope Time)) (seen : NonceStore) :
    List (Except Error Grant) :=
  ReplayGuard.keptResults (v.checks scheme) Grant.nonce Grant.expiresAt .replayed marked seen

end RemoteGrant

/-- **Rejected envelopes never count.** In every run of a verifier under a clock that never goes back, and
whatever its nonce store holds at the start: where any of the envelopes that it rejects are taken out, it
answers every other as before; for power commands and for session grants alike. -/
theorem rejected_never_count (scheme : Signature.Scheme) :
    (∀ (v : PowerCommand.Verifier) (seen : PowerCommand.NonceStore)
        (marked : List (Marked PowerCommand.Envelope Time)), ClockAdvances (marked.map Prod.fst) →
      v.RejectsRest scheme marked seen →
        v.results scheme (keptCalls marked) seen = v.keptResults scheme marked seen) ∧
    ∀ (v : RemoteGrant.Verifier) (seen : RemoteGrant.NonceStore)
        (marked : List (Marked RemoteGrant.Envelope Time)), ClockAdvances (marked.map Prod.fst) →
      v.RejectsRest scheme marked seen →
        v.results scheme (keptCalls marked) seen = v.keptResults scheme marked seen :=
  ⟨fun _ _ _ => ReplayGuard.results_kept_of_same, fun _ _ _ => ReplayGuard.results_kept_of_same⟩

/-! ## A replay and a forgery between two commands -/

namespace PowerCommand

/-- A second command of the same kind. -/
def secondCommand : Command := { shortLived with id := "c2", nonce := "n2" }

/-- A signature that verifies on the texts of the two commands. -/
def twoCommandsScheme : Signature.Scheme := fun _ message _ =>
  message = signingInput shortLived ∨ message = signingInput secondCommand

/-- The first command, a replay of it, a forgery that names the second one's nonce, and the second command.
The replay and the forgery are taken out. -/
def withRejected : List (Marked Envelope Time) :=
  [(⟨⟨shortLived, "AAAA", "key"⟩, ⟨0⟩, ⟨0⟩⟩, true),
    (⟨⟨shortLived, "AAAA", "key"⟩, ⟨1⟩, ⟨2⟩⟩, false),
    (⟨⟨{ secondCommand with action := "power.restart" }, "AAAA", "key"⟩, ⟨3⟩, ⟨3⟩⟩, false),
    (⟨⟨secondCommand, "AAAA", "key"⟩, ⟨4⟩, ⟨4⟩⟩, true)]

theorem clockAdvances_withRejected : ClockAdvances (withRejected.map Prod.fst) := by
  simp [ClockAdvances, withRejected, Time.le_def]

theorem results_withRejected : device.results twoCommandsScheme (withRejected.map Prod.fst) [] =
    [.ok shortLived, .error .replayed, .error .badSignature, .ok secondCommand] := by decide

theorem rejectsRest_withRejected : device.RejectsRest twoCommandsScheme withRejected [] := by
  intro p hp hout
  change p ∈ withRejected.zip (device.results twoCommandsScheme (withRejected.map Prod.fst) []) at hp
  rw [results_withRejected] at hp
  simp only [withRejected, List.zip_cons_cons, List.zip_nil_left, List.mem_cons, List.not_mem_nil,
    or_false] at hp
  rcases hp with rfl | rfl | rfl | rfl
  · cases hout
  · exact ⟨_, rfl⟩
  · exact ⟨_, rfl⟩
  · cases hout

/-- The two commands are answered as they are without the replay and the forgery. -/
theorem withRejected_never_count : device.results twoCommandsScheme (keptCalls withRejected) [] =
    device.keptResults twoCommandsScheme withRejected [] :=
  (rejected_never_count twoCommandsScheme).1 device [] withRejected clockAdvances_withRejected
    rejectsRest_withRejected

end PowerCommand
