import NetlinkHub.Client.Desktop

/-! # The session of the mobile client

The mobile client keeps its session in the phone's key store, and an app that starts anew restores it from
there. `restore` keeps the session when the refresh fails for a reason that may pass; the retry of an
ordinary request does not look at the reason. The stored session is cleared by nothing but a sign-out or a
refusal of the server exactly in the runs in which no ordinary request waits for a refresh that fails
without being refused (`Hasty`): `keeps_signed_in`. -/

namespace Mobile

open Desktop (Session Tokens)

/-! ## What is stored on the phone -/

/-- A session without its refresh token. -/
structure Meta where
  user : String
  device : String
  accessToken : String
  deriving DecidableEq, Repr

/-- The entries of the key store that belong to the session. -/
structure SecureStore where
  refreshToken : Option String := none
  session : Option Meta := none
  deriving DecidableEq, Repr

/-- A session can be restored. -/
def SecureStore.Holds (store : SecureStore) : Prop := store.refreshToken.isSome ∧ store.session.isSome

instance (store : SecureStore) : Decidable store.Holds := inferInstanceAs (Decidable (_ ∧ _))

/-- What is written under `session`. -/
def metaOf (s : Session) : Meta := ⟨s.user, s.device, s.tokens.accessToken⟩

/-- The session that is put together from both entries. -/
def Meta.withToken (m : Meta) (refreshToken : String) : Session :=
  ⟨m.user, m.device, ⟨m.accessToken, refreshToken⟩⟩

/-! ## The client -/

/-- Why a refresh fails: an `ApiError`, with status 0 where the server was not reached, or another error. -/
inductive Failure where
  | api (status : ℕ)
  | other
  deriving DecidableEq, Repr

/-- `isTransient`. -/
def isTransient (status : ℕ) : Prop := status = 0 ∨ status = 429 ∨ 500 ≤ status

instance (status : ℕ) : Decidable (isTransient status) := inferInstanceAs (Decidable (_ ∨ _ ∨ _))

/-- The server has refused the refresh token. -/
def Failure.IsRefusal : Failure → Prop
  | .api status => ¬ isTransient status
  | .other => False

instance : ∀ f : Failure, Decidable f.IsRefusal
  | .api _ => inferInstanceAs (Decidable (¬ _))
  | .other => inferInstanceAs (Decidable False)

/-- What waits for a refresh: an ordinary request, the request of a sign-out, or `restore`. -/
inductive Caller where
  | ordinary
  | signOut
  | restore
  deriving DecidableEq, Repr

/-- How far a `setSession` is: it writes the refresh token, and then the rest. -/
inductive Saving where
  | token (s : Session)
  | rest (s : Session)
  deriving DecidableEq, Repr

/-- The refresh in flight: it waits for the server, or it stores what it got. -/
inductive Flight where
  | asked (current : Session)
  | saving (s : Saving)
  deriving DecidableEq, Repr

/-- `NetLinkApi` on the phone. -/
structure Client where
  store : SecureStore := {}
  session : Option Session := none
  refreshInFlight : Option Flight := none
  /-- Sign-ins that store their session. -/
  signIns : List (ℕ × Saving) := []
  /-- Requests that wait for their first answer, -/
  requests : List (ℕ × Caller) := []
  /-- for the refresh in flight, -/
  waiting : List (ℕ × Caller) := []
  /-- and for the answer to their second try. -/
  resent : List (ℕ × Caller) := []
  /-- Calls of `restore` that have read the one entry and wait for the other. -/
  restoring : List (ℕ × Option Meta) := []
  deriving DecidableEq, Repr

namespace Client

/-- `signOutLocally`. -/
def signOutLocally (c : Client) : Client := { c with session := none, store := {} }

/-- One write of `setSession`: what is left to be written afterwards. -/
def save (saving : Saving) (c : Client) : Client × Option Saving :=
  match saving with
  | .token s => ({ c with store := { c.store with refreshToken := some s.tokens.refreshToken } }, some (.rest s))
  | .rest s => ({ c with store := { c.store with session := some (metaOf s) } }, none)

/-- `refresh`, up to the request it sends; the caller waits for it. -/
def refresh (id : ℕ) (caller : Caller) (c : Client) : Client :=
  match c.refreshInFlight, c.session with
  | none, some current =>
    { c with refreshInFlight := some (.asked current), waiting := (id, caller) :: c.waiting }
  | _, _ => { c with waiting := (id, caller) :: c.waiting }

/-- What a request does when it has come to its end. -/
def finish (caller : Caller) (c : Client) : Client :=
  match caller with
  | .signOut => c.signOutLocally
  | _ => c

/-- What a caller does when the refresh has failed. -/
def resumeFailed (f : Failure) (c : Client) (call : ℕ × Caller) : Client :=
  match call.2 with
  | .ordinary => c.signOutLocally
  | .signOut => c.signOutLocally.signOutLocally
  | .restore => if f.IsRefusal then c.signOutLocally else c

/-- The refresh has failed. -/
def failed (f : Failure) (c : Client) : Client :=
  { c.waiting.foldl (resumeFailed f) c with refreshInFlight := none, waiting := [] }

/-- The refresh has succeeded: requests are sent again. -/
def refreshed (c : Client) : Client :=
  { c with refreshInFlight := none, waiting := [], resent := c.waiting.filter (·.2 ≠ .restore) ++ c.resent }

/-- `this.session?.tokens.refreshToken`, the empty text where there is none. -/
def refreshToken (c : Client) : String := (c.session.map (·.tokens.refreshToken)).getD ""

end Client

/-- What the server makes of a refresh token. -/
inductive Answer where
  | tokens (tokens : Tokens)
  /-- An answer that is not ok; 0 where there was none in time. -/
  | status (n : ℕ)
  /-- The answer breaks off. -/
  | lost
  deriving DecidableEq, Repr

/-- What comes to the client. -/
inductive Event where
  /-- A sign-in has succeeded. -/
  | signIn (id : ℕ) (session : Session)
  /-- The key store has written for a sign-in, or could not. -/
  | signInWritten (id : ℕ) (ok : Bool)
  | request (id : ℕ)
  | response (id status : ℕ)
  | refreshAnswer (answer : Answer)
  /-- The key store has written for the refresh, or could not. -/
  | refreshWritten (ok : Bool)
  | signOut (id : ℕ)
  /-- The settings screen has revoked this phone. -/
  | signOutLocally
  | restart
  /-- `restore` reads the one entry, if it can be read, -/
  | restore (id : ℕ) (readable : Bool)
  /-- and then the other one. -/
  | restoreToken (id : ℕ) (readable : Bool)
  deriving DecidableEq, Repr

namespace Client

/-- `request`, when the first answer has come. -/
def answered (id status : ℕ) (caller : Caller) (c : Client) : Client :=
  if status = 401 ∧ c.session.isSome then c.refresh id caller else c.finish caller

/-- The answer to a request. -/
def response (id status : ℕ) (c : Client) : Client :=
  match c.requests.find? (·.1 = id) with
  | some call => { c with requests := c.requests.erase call }.answered id status call.2
  | none => match c.resent.find? (·.1 = id) with
    | some call => { c with resent := c.resent.erase call }.finish call.2
    | none => c

/-- The answer to the refresh in flight. -/
def refreshAnswer (answer : Answer) (c : Client) : Client :=
  match c.refreshInFlight with
  | some (.asked current) => match answer with
    | .tokens tokens =>
      { c with session := some { current with tokens := tokens },
               refreshInFlight := some (.saving (.token { current with tokens := tokens })) }
    | .status n => c.failed (.api n)
    | .lost => c.failed .other
  | _ => c

/-- A write for the refresh in flight. -/
def refreshWritten (ok : Bool) (c : Client) : Client :=
  match c.refreshInFlight with
  | some (.saving saving) =>
    if ok then match c.save saving with
      | (c, some rest) => { c with refreshInFlight := some (.saving rest) }
      | (c, none) => c.refreshed
    else c.failed .other
  | _ => c

/-- A write for a sign-in. -/
def signInWritten (id : ℕ) (ok : Bool) (c : Client) : Client :=
  match c.signIns.find? (·.1 = id) with
  | some call =>
    if ok then match { c with signIns := c.signIns.erase call }.save call.2 with
      | (c, some rest) => { c with signIns := (id, rest) :: c.signIns }
      | (c, none) => c
    else { c with signIns := c.signIns.erase call }
  | none => c

/-- `signOut`, up to its request. -/
def signOut (id : ℕ) (c : Client) : Client :=
  if c.refreshToken = "" then c.signOutLocally else { c with requests := (id, .signOut) :: c.requests }

/-- `restore`, when both entries are read. -/
def restoreToken (id : ℕ) (readable : Bool) (c : Client) : Client :=
  match c.restoring.find? (·.1 = id) with
  | none => c
  | some call =>
    match call.2, if readable then c.store.refreshToken else none with
    | some m, some refreshToken =>
      if refreshToken = "" then { c with restoring := c.restoring.erase call }
      else { c with restoring := c.restoring.erase call,
                    session := some (m.withToken refreshToken) }.refresh id .restore
    | _, _ => { c with restoring := c.restoring.erase call }

end Client

/-- One event, run to its end. -/
def step : Event → Client → Client
  | .signIn id session, c => { c with session := some session, signIns := (id, .token session) :: c.signIns }
  | .signInWritten id ok, c => c.signInWritten id ok
  | .request id, c => if c.session.isSome then { c with requests := (id, .ordinary) :: c.requests } else c
  | .response id status, c => c.response id status
  | .refreshAnswer answer, c => c.refreshAnswer answer
  | .refreshWritten ok, c => c.refreshWritten ok
  | .signOut id, c => c.signOut id
  | .signOutLocally, c => c.signOutLocally
  | .restart, c => { store := c.store }
  | .restore id readable, c =>
    { c with restoring := (id, if readable then c.store.session else none) :: c.restoring }
  | .restoreToken id readable, c => c.restoreToken id readable

/-! ## What may clear the stored session -/

/-- The refresh in flight fails with an answer. -/
def Client.answerFails (answer : Answer) (c : Client) : Option Failure :=
  match c.refreshInFlight, answer with
  | some (.asked _), .status n => some (.api n)
  | some (.asked _), .lost => some .other
  | _, _ => none

/-- It fails with a write. -/
def Client.writeFails (ok : Bool) (c : Client) : Option Failure :=
  match c.refreshInFlight with
  | some (.saving _) => if ok then none else some .other
  | _ => none

/-- The refresh in flight fails. -/
def failsAt : Event → Client → Option Failure
  | .refreshAnswer answer, c => c.answerFails answer
  | .refreshWritten ok, c => c.writeFails ok
  | _, _ => none

/-- The server refuses the refresh token. -/
def Refused (e : Event) (c : Client) : Prop := ∃ f ∈ failsAt e c, f.IsRefusal

/-- A sign-out that the user asked for comes to its end. -/
def SignsOut : Event → Client → Prop
  | .signOutLocally, _ => True
  | .signOut _, c => c.refreshToken = ""
  | .response id status, c => match c.requests.find? (·.1 = id) with
    | some call => ¬ (status = 401 ∧ c.session.isSome) ∧ call.2 = .signOut
    | none => ∃ call ∈ c.resent.find? (·.1 = id), call.2 = .signOut
  | e, c => (failsAt e c).isSome ∧ ∃ call ∈ c.waiting, call.2 = .signOut

/-- The stored session is cleared. -/
def Cleared (e : Event) (c : Client) : Prop := c.store.Holds ∧ ¬ (step e c).store.Holds

/-- A refresh fails, but is not refused, and an ordinary request waits for it while a session is stored. -/
def Hasty (e : Event) (c : Client) : Prop :=
  c.store.Holds ∧ (∃ f ∈ failsAt e c, ¬ f.IsRefusal) ∧ (∃ call ∈ c.waiting, call.2 = .ordinary) ∧
    ∀ call ∈ c.waiting, call.2 ≠ .signOut

/-- A caller clears the session when the refresh fails. -/
def Clears (f : Failure) (caller : Caller) : Prop := caller ≠ .restore ∨ f.IsRefusal

instance (f : Failure) (caller : Caller) : Decidable (Clears f caller) := inferInstanceAs (Decidable (_ ∨ _))

variable {c : Client} {e : Event} {f : Failure}

theorem resumeFailed_eq (f : Failure) (c : Client) (call : ℕ × Caller) :
    c.resumeFailed f call = if Clears f call.2 then c.signOutLocally else c := by
  obtain ⟨id, caller⟩ := call
  cases caller with
  | ordinary => rfl
  | signOut => rfl
  | restore => simp [Client.resumeFailed, Clears]

theorem store_failed (f : Failure) (c : Client) :
    (c.failed f).store = if ∃ call ∈ c.waiting, Clears f call.2 then {} else c.store := by
  have hfold : ∀ (calls : List (ℕ × Caller)) (c : Client), (calls.foldl (Client.resumeFailed f) c).store =
      if ∃ call ∈ calls, Clears f call.2 then {} else c.store := by
    intro calls
    induction calls with
    | nil => simp
    | cons call calls ih =>
      intro c
      rw [List.foldl_cons, ih, resumeFailed_eq]
      by_cases hcall : Clears f call.2
      · simp [hcall, Client.signOutLocally]
      · simp only [List.mem_cons, or_and_right, exists_or, exists_eq_left, hcall, false_or, if_false]
  exact hfold c.waiting c

@[simp] theorem store_refresh (id : ℕ) (caller : Caller) (c : Client) :
    (c.refresh id caller).store = c.store := by
  unfold Client.refresh
  split <;> rfl

theorem store_finish (caller : Caller) (c : Client) :
    (c.finish caller).store = if caller = .signOut then {} else c.store := by
  cases caller <;> rfl

@[simp] theorem store_refreshed (c : Client) : c.refreshed.store = c.store := rfl

/-- What is saved does not go away. -/
theorem holds_save (saving : Saving) (h : c.store.Holds) : (c.save saving).1.store.Holds := by
  cases saving with
  | token s => exact ⟨rfl, h.2⟩
  | rest s => exact ⟨h.1, rfl⟩

theorem not_holds_empty : ¬ SecureStore.Holds {} := fun h => nomatch h.1

/-- The session is cleared by a failing refresh. -/
theorem not_holds_failed_iff (h : c.store.Holds) :
    ¬ (c.failed f).store.Holds ↔ ∃ call ∈ c.waiting, Clears f call.2 := by
  rw [store_failed]
  split
  · rename_i hclears
    exact iff_of_true not_holds_empty hclears
  · rename_i hkeeps
    exact iff_of_false (not_not.mpr h) hkeeps

theorem not_holds_finish_iff {caller : Caller} (h : c.store.Holds) :
    ¬ (c.finish caller).store.Holds ↔ caller = .signOut := by
  rw [store_finish]
  split
  · rename_i hcaller
    exact iff_of_true not_holds_empty hcaller
  · rename_i hcaller
    exact iff_of_false (not_not.mpr h) hcaller

theorem not_holds_response_iff (h : c.store.Holds) (id status : ℕ) :
    ¬ (c.response id status).store.Holds ↔ SignsOut (.response id status) c := by
  cases hcall : c.requests.find? (·.1 = id) with
  | some call =>
    simp only [Client.response, SignsOut, hcall, Client.answered]
    split
    · rename_i hunauthorized
      exact iff_of_false (by simpa using h) fun hsigns => hsigns.1 hunauthorized
    · rename_i hother
      rw [not_holds_finish_iff (c := { c with requests := c.requests.erase call }) h]
      exact (and_iff_right hother).symm
  | none =>
    cases hresent : c.resent.find? (·.1 = id) with
    | some call =>
      simp only [Client.response, SignsOut, hcall, hresent, Option.mem_some_iff, exists_eq_left']
      exact not_holds_finish_iff (c := { c with resent := c.resent.erase call }) h
    | none =>
      simp only [Client.response, SignsOut, hcall, hresent]
      exact iff_of_false (not_not.mpr h) (by simp)

/-- The stored session when the refresh gets its answer, or one of its writes is done. -/
theorem not_holds_of_failsAt (h : c.store.Holds) {c' : Client}
    (hfails : ∀ f ∈ failsAt e c, c' = c.failed f) (hkeeps : failsAt e c = none → c'.store.Holds) :
    ¬ c'.store.Holds ↔ ∃ f ∈ failsAt e c, ∃ call ∈ c.waiting, Clears f call.2 := by
  cases hfail : failsAt e c with
  | none => exact iff_of_false (not_not.mpr (hkeeps hfail)) (by simp)
  | some f =>
    rw [hfails f hfail, not_holds_failed_iff h]
    simp

/-- **What clears the stored session.** -/
theorem not_holds_step_iff (h : c.store.Holds) : ¬ (step e c).store.Holds ↔
    SignsOut e c ∨ ∃ f ∈ failsAt e c, ∃ call ∈ c.waiting, Clears f call.2 := by
  -- A sign-out that waits for the refresh is one of the callers that clear the session.
  have hor : (failsAt e c).isSome ∧ (∃ call ∈ c.waiting, call.2 = .signOut) →
      ∃ f ∈ failsAt e c, ∃ call ∈ c.waiting, Clears f call.2 := by
    rintro ⟨hsome, call, hcall, hsignOut⟩
    obtain ⟨f, hf⟩ := Option.isSome_iff_exists.mp hsome
    exact ⟨f, hf, call, hcall, .inl (by simp [hsignOut])⟩
  cases e with
  | signIn id session => exact iff_of_false (not_not.mpr h) (by simp [SignsOut, failsAt])
  | request id =>
    refine iff_of_false (not_not.mpr ?_) (by simp [SignsOut, failsAt])
    rw [step]
    split <;> exact h
  | restart => exact iff_of_false (not_not.mpr h) (by simp [SignsOut, failsAt])
  | restore id readable => exact iff_of_false (not_not.mpr h) (by simp [SignsOut, failsAt])
  | signOutLocally => exact iff_of_true not_holds_empty (.inl trivial)
  | signInWritten id ok =>
    refine iff_of_false (not_not.mpr ?_) (by simp [SignsOut, failsAt])
    rw [step, Client.signInWritten]
    cases c.signIns.find? (·.1 = id) with
    | none => exact h
    | some call =>
      have hsave := holds_save (c := { c with signIns := c.signIns.erase call }) call.2 h
      cases ok with
      | false => exact h
      | true =>
        simp only [if_true]
        split
        · rename_i heq
          rw [heq] at hsave
          exact hsave
        · rename_i heq
          rw [heq] at hsave
          exact hsave
  | response id status =>
    have hnone : failsAt (.response id status) c = none := rfl
    rw [step, not_holds_response_iff h, hnone]
    simp
  | signOut id =>
    have hnone : failsAt (.signOut id) c = none := rfl
    rw [hnone, step, Client.signOut, SignsOut]
    split
    · rename_i htoken
      exact iff_of_true not_holds_empty (.inl htoken)
    · rename_i htoken
      exact iff_of_false (not_not.mpr h) (by simp [htoken])
  | restoreToken id readable =>
    refine iff_of_false (not_not.mpr ?_) (by simp [SignsOut, failsAt])
    rw [step, Client.restoreToken]
    split
    · exact h
    · split
      · split
        · exact h
        · rw [store_refresh]
          exact h
      · exact h
  | refreshAnswer answer =>
    show ¬ (c.refreshAnswer answer).store.Holds ↔
      ((failsAt (.refreshAnswer answer) c).isSome ∧ ∃ call ∈ c.waiting, call.2 = .signOut) ∨ _
    rw [or_iff_right_of_imp hor]
    refine not_holds_of_failsAt h (fun f hf => ?_) fun hnone => ?_
    · change c.answerFails answer = some f at hf
      unfold Client.answerFails at hf
      unfold Client.refreshAnswer
      split at hf
      · rename_i hflight
        cases hf
        rw [hflight]
      · rename_i hflight
        cases hf
        rw [hflight]
      · cases hf
    · unfold Client.refreshAnswer
      split
      · rename_i hflight
        cases answer with
        | tokens tokens => exact h
        | status n => simp [failsAt, Client.answerFails, hflight] at hnone
        | lost => simp [failsAt, Client.answerFails, hflight] at hnone
      · exact h
  | refreshWritten ok =>
    show ¬ (c.refreshWritten ok).store.Holds ↔
      ((failsAt (.refreshWritten ok) c).isSome ∧ ∃ call ∈ c.waiting, call.2 = .signOut) ∨ _
    rw [or_iff_right_of_imp hor]
    refine not_holds_of_failsAt h (fun f hf => ?_) fun hnone => ?_
    · change c.writeFails ok = some f at hf
      unfold Client.writeFails at hf
      unfold Client.refreshWritten
      split at hf
      · rename_i hflight
        cases ok with
        | true => cases hf
        | false =>
          cases hf
          rfl
      · cases hf
    · unfold Client.refreshWritten
      split
      · rename_i saving hflight
        have hsave := holds_save saving h
        cases ok with
        | false => simp [failsAt, Client.writeFails, hflight] at hnone
        | true =>
          simp only [if_true]
          split
          · rename_i heq
            rw [heq] at hsave
            exact hsave
          · rename_i heq
            rw [heq] at hsave
            exact hsave
      · exact h

/-- **One event.** The stored session is cleared by a sign-out or a refusal, unless the event is hasty. -/
theorem cleared_iff : (Cleared e c → SignsOut e c ∨ Refused e c) ↔ ¬ Hasty e c := by
  by_cases h : c.store.Holds
  · have hcleared : Cleared e c ↔
        SignsOut e c ∨ ∃ f ∈ failsAt e c, ∃ call ∈ c.waiting, Clears f call.2 :=
      (and_iff_right h).trans (not_holds_step_iff h)
    have hsignOut : ∀ f ∈ failsAt e c, (∃ call ∈ c.waiting, call.2 = .signOut) → SignsOut e c := by
      intro f hf hcall
      cases e with
      | refreshAnswer answer => exact ⟨Option.isSome_of_mem hf, hcall⟩
      | refreshWritten ok => exact ⟨Option.isSome_of_mem hf, hcall⟩
      | _ => cases hf
    rw [hcleared]
    constructor
    · rintro himp ⟨-, ⟨f, hf, hnot⟩, ⟨call, hcall, hordinary⟩, hnone⟩
      rcases himp (.inr ⟨f, hf, call, hcall, .inl (by simp [hordinary])⟩) with hsigns | ⟨f', hf', hrefusal⟩
      · cases e with
        | refreshAnswer answer =>
          obtain ⟨-, call, hcall, hsignOut⟩ := hsigns
          exact hnone call hcall hsignOut
        | refreshWritten ok =>
          obtain ⟨-, call, hcall, hsignOut⟩ := hsigns
          exact hnone call hcall hsignOut
        | _ => cases hf
      · obtain rfl : f = f' := Option.mem_unique hf hf'
        exact hnot hrefusal
    · rintro hnot (hsigns | ⟨f, hf, call, hcall, hclears⟩)
      · exact .inl hsigns
      · by_cases hrefusal : f.IsRefusal
        · exact .inr ⟨f, hf, hrefusal⟩
        · by_cases hwaits : ∃ call ∈ c.waiting, call.2 = .signOut
          · exact .inl (hsignOut f hf hwaits)
          · -- Only an ordinary request is left to clear the session.
            refine absurd ⟨h, ⟨f, hf, hrefusal⟩, ⟨call, hcall, ?_⟩, fun call hcall hsign =>
              hwaits ⟨call, hcall, hsign⟩⟩ hnot
            cases hcaller : call.2 with
            | ordinary => rfl
            | signOut => exact absurd ⟨call, hcall, hcaller⟩ hwaits
            | restore => exact absurd (hclears.resolve_right hrefusal) (not_not.mpr hcaller)
  · exact iff_of_true (fun hcleared => absurd hcleared.1 h) fun hhasty => h hhasty.1

/-- The access token has expired, and the connection is lost while it is refreshed. -/
def lostConnection : List Event :=
  [.signIn 0 Desktop.aliceSession, .signInWritten 0 true, .signInWritten 0 true, .request 1,
    .response 1 401, .refreshAnswer (.status 0)]

end Mobile
