import NetlinkHub.Run.Steps
import Mathlib.Data.List.Induction
import Mathlib.Data.List.Nodup
import Mathlib.Tactic.Tauto

/-! # The session of the desktop client

`NetLinkApi` keeps one session and one refresh in flight, and every answer that comes in runs to its end
before the next one. An answered refresh stores its tokens with the session that it started from, whatever
is stored by then; and it signs out when it fails. The stored session is what the latest sign-in, logout or
refresh of the stored session made of it, and no refresh token goes out twice, exactly in the runs without
a late answer (`Late`) and without a token that is still out (`Twice`): `session_lawful`. -/

namespace Desktop

/-! ## The client -/

/-- `SessionTokens`. -/
structure Tokens where
  accessToken : String
  refreshToken : String
  deriving DecidableEq, Repr

/-- `StoredSession`. -/
structure Session where
  user : String
  device : String
  tokens : Tokens
  deriving DecidableEq, Repr

/-- A session object: one that is made later is another one, whatever it holds. -/
structure Stored where
  object : ℕ
  session : Session
  deriving DecidableEq, Repr

/-- The refresh token of a stored session. -/
def Stored.token (stored : Stored) : String := stored.session.tokens.refreshToken

/-- `NetLinkApi`, and the calls that wait for the server. -/
structure Client where
  session : Option Stored := none
  /-- How many session objects there have been. -/
  objects : ℕ := 0
  /-- The session that the refresh in flight started from. -/
  refreshInFlight : Option Stored := none
  /-- Authenticated requests that wait for their first answer, -/
  requests : List ℕ := []
  /-- for the refresh in flight, -/
  waiting : List ℕ := []
  /-- and for the answer to their replay. -/
  replays : List ℕ := []
  /-- Calls of `logout` that wait for the server, and the tokens they sent. -/
  logouts : List (ℕ × String) := []
  /-- The refresh tokens that have been sent to the server, newest first. -/
  presented : List String := []
  deriving DecidableEq, Repr

namespace Client

/-- `setSession`. -/
def setSession (session : Option Session) (c : Client) : Client :=
  match session with
  | none => { c with session := none }
  | some s => { c with session := some ⟨c.objects, s⟩, objects := c.objects + 1 }

/-- `refresh`, up to the request it sends. -/
def refresh (c : Client) : Client :=
  if c.refreshInFlight.isSome then c
  else match c.session with
    | none => c
    | some current => { c with refreshInFlight := some current, presented := current.token :: c.presented }

/-- `request`, when the first answer has come. Status 0 stands for a request that did not get through. -/
def answered (id status : ℕ) (c : Client) : Client :=
  if status = 401 ∧ c.session.isSome then { c.refresh with waiting := id :: c.waiting } else c

/-- `refresh` and the requests that wait for it, when its answer has come: the tokens, or none where it
failed. -/
def refreshed (answer : Option Tokens) (c : Client) : Client :=
  match c.refreshInFlight with
  | none => c
  | some current =>
    match answer with
    | some tokens =>
      { c.setSession (some { current.session with tokens := tokens }) with
        refreshInFlight := none, waiting := [], replays := c.waiting ++ c.replays }
    | none =>
      { c.waiting.foldl (fun c _ => c.setSession none) c with refreshInFlight := none, waiting := [] }

/-- `this.session?.tokens.refreshToken`, the empty text where there is none. -/
def refreshToken (c : Client) : String := (c.session.map Stored.token).getD ""

/-- `logout`, up to the request it sends. -/
def logout (id : ℕ) (c : Client) : Client :=
  if c.refreshToken = "" then c.setSession none
  else { c with logouts := (id, c.refreshToken) :: c.logouts, presented := c.refreshToken :: c.presented }

/-- `logout`, when the server has answered. -/
def loggedOut (id : ℕ) (c : Client) : Client :=
  match c.logouts.find? (·.1 = id) with
  | none => c
  | some call => { c with logouts := c.logouts.erase call }.setSession none

end Client

/-- What comes to the client. -/
inductive Event where
  /-- A sign-in has succeeded. -/
  | signIn (session : Session)
  | request (id : ℕ)
  | response (id status : ℕ)
  | refreshAnswer (answer : Option Tokens)
  | logout (id : ℕ)
  /-- The server has answered a logout, or could not be reached. -/
  | logoutAnswer (id : ℕ)
  deriving DecidableEq, Repr

/-- One event, run to its end. -/
def step : Event → Client → Client
  | .signIn session, c => c.setSession (some session)
  | .request id, c => { c with requests := id :: c.requests }
  | .response id status, c =>
    if id ∈ c.requests then { c with requests := c.requests.erase id }.answered id status
    else { c with replays := c.replays.erase id }
  | .refreshAnswer answer, c => c.refreshed answer
  | .logout id, c => c.logout id
  | .logoutAnswer id, c => c.loggedOut id

/-! ## What should be stored -/

/-- An event that has a say in what is stored: a sign-in, a logout that comes to its end, or the answer to
a refresh that started from the session still stored. -/
def Decides : Event → Client → Prop
  | .signIn _, _ => True
  | .refreshAnswer _, c => c.refreshInFlight.isSome ∧ c.session = c.refreshInFlight
  | .logout _, c => c.refreshToken = ""
  | .logoutAnswer id, c => (c.logouts.find? (·.1 = id)).isSome
  | _, _ => False

/-- The answer to a refresh comes when the session it started from is no longer stored. A failure does no
harm where nothing is. -/
def Late : Event → Client → Prop
  | .refreshAnswer answer, c => c.refreshInFlight.isSome ∧ c.session ≠ c.refreshInFlight ∧
      (answer = none → c.session ≠ none)
  | _, _ => False

/-- The refresh tokens that wait for an answer of the server. -/
def Client.out (c : Client) : List String :=
  (c.refreshInFlight.map Stored.token).toList ++ c.logouts.map Prod.snd

/-- The refresh token of the stored session is sent, by a logout or by a new refresh. -/
def Presents : Event → Client → Prop
  | .response id status, c => id ∈ c.requests ∧ status = 401 ∧ c.session.isSome ∧ c.refreshInFlight = none
  | .logout _, c => c.refreshToken ≠ ""
  | _, _ => False

/-- The refresh token of the stored session is sent while it is out. -/
def Twice (e : Event) (c : Client) : Prop := Presents e c ∧ c.refreshToken ∈ c.out

instance : ∀ e c, Decidable (Decides e c)
  | .signIn _, _ => inferInstanceAs (Decidable True)
  | .refreshAnswer _, _ => inferInstanceAs (Decidable (_ ∧ _))
  | .logout _, _ => inferInstanceAs (Decidable (_ = _))
  | .logoutAnswer _, _ => inferInstanceAs (Decidable (_ = true))
  | .request _, _ => inferInstanceAs (Decidable False)
  | .response _ _, _ => inferInstanceAs (Decidable False)

instance : ∀ e c, Decidable (Late e c)
  | .refreshAnswer _, _ => inferInstanceAs (Decidable (_ ∧ _ ∧ (_ → _)))
  | .signIn _, _ => inferInstanceAs (Decidable False)
  | .request _, _ => inferInstanceAs (Decidable False)
  | .response _ _, _ => inferInstanceAs (Decidable False)
  | .logout _, _ => inferInstanceAs (Decidable False)
  | .logoutAnswer _, _ => inferInstanceAs (Decidable False)

instance : ∀ e c, Decidable (Presents e c)
  | .response _ _, _ => inferInstanceAs (Decidable (_ ∧ _ ∧ _ ∧ _))
  | .logout _, _ => inferInstanceAs (Decidable (_ ≠ _))
  | .signIn _, _ => inferInstanceAs (Decidable False)
  | .request _, _ => inferInstanceAs (Decidable False)
  | .refreshAnswer _, _ => inferInstanceAs (Decidable False)
  | .logoutAnswer _, _ => inferInstanceAs (Decidable False)

instance (e : Event) (c : Client) : Decidable (Twice e c) := inferInstanceAs (Decidable (_ ∧ _))

/-- The client, and what should be stored: what the latest event that had a say made of the session. -/
structure Tracked where
  client : Client := {}
  latest : Option Stored := none
  deriving DecidableEq, Repr

/-- One event, with what should be stored. -/
def track (e : Event) (t : Tracked) : Tracked where
  client := step e t.client
  latest := if Decides e t.client then (step e t.client).session else t.latest

/-- After a list of events. -/
def tracked (events : List Event) : Tracked := Run.run track events {}

/-- The refresh token that comes with an event. -/
def Event.issues : Event → Option String
  | .signIn session => some session.tokens.refreshToken
  | .refreshAnswer (some tokens) => some tokens.refreshToken
  | _ => none

/-! ## What one event does -/

/-- A refresh in flight has a request that waits for it. -/
def Awaited (c : Client) : Prop := c.refreshInFlight.isSome → c.waiting ≠ []

/-- What one event does to the session and to the tokens: nothing, or it signs out, or it stores a session,
or it sends the token of the stored one. -/
inductive Effect (e : Event) (c c' : Client) : Prop where
  | quiet (session : c'.session = c.session) (objects : c'.objects = c.objects) (out : c'.out = c.out)
      (presented : c'.presented = c.presented) (decides : ¬ Decides e c) (late : ¬ Late e c)
      (presents : ¬ Presents e c)
  | signsOut (session : c'.session = none) (out : c'.out ⊆ c.out) (presented : c'.presented = c.presented)
      (late : Late e c ↔ ¬ Decides e c ∧ c.session ≠ none) (presents : ¬ Presents e c)
  | signsIn (stored : Session) (issued : stored.tokens.refreshToken ∈ e.issues)
      (session : c'.session = some ⟨c.objects, stored⟩) (objects : c'.objects = c.objects + 1)
      (out : c'.out ⊆ c.out) (presented : c'.presented = c.presented) (late : Late e c ↔ ¬ Decides e c)
      (presents : ¬ Presents e c)
  | sends (stored : Stored) (found : c.session = some stored) (session : c'.session = c.session)
      (objects : c'.objects = c.objects) (out : ∀ t, t ∈ c'.out ↔ t = stored.token ∨ t ∈ c.out)
      (presented : c'.presented = stored.token :: c.presented) (decides : ¬ Decides e c) (late : ¬ Late e c)
      (presents : Presents e c)

variable {issued issued' : List String} {c : Client} {e : Event}

theorem refreshToken_of_session {stored : Stored} (h : c.session = some stored) :
    c.refreshToken = stored.token := by
  simp [Client.refreshToken, h]

/-- Signing out once for every request that waited. -/
theorem foldl_setSession_none {ids : List ℕ} (h : ids ≠ []) (c : Client) :
    ids.foldl (fun c _ => c.setSession none) c = { c with session := none } := by
  have hagain : ∀ (ids : List ℕ) (c : Client), ids.foldl (fun c _ => c.setSession none)
      { c with session := none } = { c with session := none } := by
    intro ids c
    induction ids with
    | nil => rfl
    | cons id ids ih => exact ih
  cases ids with
  | nil => exact absurd rfl h
  | cons id ids => exact hagain ids c

theorem effect_response (id status : ℕ) (c : Client) :
    Effect (.response id status) c (step (.response id status) c) := by
  by_cases hid : id ∈ c.requests
  · rw [step, if_pos hid, Client.answered]
    split
    · rename_i hunauthorized
      obtain ⟨stored, hstored⟩ := Option.isSome_iff_exists.mp hunauthorized.2
      replace hstored : c.session = some stored := hstored
      rcases Option.eq_none_or_eq_some c.refreshInFlight with hflight | ⟨current, hflight⟩
      · have hrefresh : ({ c with requests := c.requests.erase id } : Client).refresh =
            { c with requests := c.requests.erase id, refreshInFlight := some stored,
                     presented := stored.token :: c.presented } := by
          simp [Client.refresh, hflight, hstored]
        rw [hrefresh]
        exact .sends stored hstored rfl rfl (by simp [Client.out, hflight]) rfl (fun h => h) (fun h => h)
          ⟨hid, hunauthorized.1, by simp [hstored], hflight⟩
      · -- The request joins the refresh in flight.
        have hrefresh : ({ c with requests := c.requests.erase id } : Client).refresh =
            { c with requests := c.requests.erase id } := by simp [Client.refresh, hflight]
        rw [hrefresh]
        exact .quiet rfl rfl rfl rfl (fun h => h) (fun h => h) fun h => by simp [Presents, hflight] at h
    · rename_i hother
      exact .quiet rfl rfl rfl rfl (fun h => h) (fun h => h) fun h => hother ⟨h.2.1, h.2.2.1⟩
  · rw [step, if_neg hid]
    exact .quiet rfl rfl rfl rfl (fun h => h) (fun h => h) fun h => hid h.1

theorem effect_refreshAnswer (hawaited : Awaited c) (answer : Option Tokens) :
    Effect (.refreshAnswer answer) c (step (.refreshAnswer answer) c) := by
  cases hflight : c.refreshInFlight with
  | none =>
    have hsame : step (.refreshAnswer answer) c = c := by simp [step, Client.refreshed, hflight]
    rw [hsame]
    exact .quiet rfl rfl rfl rfl (by simp [Decides, hflight]) (by simp [Late, hflight]) id
  | some current =>
    have hwaiting : c.waiting ≠ [] := hawaited (by rw [hflight]; rfl)
    cases answer with
    | some tokens =>
      refine .signsIn { current.session with tokens := tokens } rfl ?_ ?_ ?_ ?_ ?_ id
      · simp [step, Client.refreshed, hflight, Client.setSession]
      · simp [step, Client.refreshed, hflight, Client.setSession]
      · simp [step, Client.refreshed, hflight, Client.setSession, Client.out]
      · simp [step, Client.refreshed, hflight, Client.setSession]
      · simp [Late, Decides, hflight]
    | none =>
      have hstep : step (.refreshAnswer none) c =
          { c with session := none, refreshInFlight := none, waiting := [] } := by
        simp [step, Client.refreshed, hflight, foldl_setSession_none hwaiting]
      rw [hstep]
      refine .signsOut rfl (by simp [Client.out]) rfl ?_ id
      simp [Late, Decides, hflight]

/-- **What one event does.** -/
theorem effect_step (e : Event) (hawaited : Awaited c) : Effect e c (step e c) := by
  cases e with
  | signIn session =>
    exact .signsIn session rfl rfl rfl (List.Subset.refl _) rfl (by simp [Late, Decides]) id
  | request id => exact .quiet rfl rfl rfl rfl (fun h => h) (fun h => h) (fun h => h)
  | response id status => exact effect_response id status c
  | refreshAnswer answer => exact effect_refreshAnswer hawaited answer
  | logout id =>
    by_cases htoken : c.refreshToken = ""
    · rw [step, Client.logout, if_pos htoken]
      refine .signsOut rfl (List.Subset.refl _) rfl ?_ (fun h => h htoken)
      simp [Late, Decides, htoken]
    · rw [step, Client.logout, if_neg htoken]
      rcases Option.eq_none_or_eq_some c.session with hsession | ⟨stored, hsession⟩
      · exact absurd (by simp [Client.refreshToken, hsession]) htoken
      · refine .sends stored hsession rfl rfl (fun t => ?_) ?_ htoken (fun h => h) htoken
        · simp only [Client.out, List.map_cons, List.mem_append, List.mem_cons,
            refreshToken_of_session hsession]
          tauto
        · rw [refreshToken_of_session hsession]
  | logoutAnswer id =>
    cases hcall : c.logouts.find? (·.1 = id) with
    | none =>
      have hsame : step (.logoutAnswer id) c = c := by simp [step, Client.loggedOut, hcall]
      rw [hsame]
      exact .quiet rfl rfl rfl rfl (by simp [Decides, hcall]) (fun h => h) (fun h => h)
    | some call =>
      have hstep : step (.logoutAnswer id) c =
          { c with logouts := c.logouts.erase call, session := none } := by
        simp [step, Client.loggedOut, hcall, Client.setSession]
      rw [hstep]
      refine .signsOut rfl ?_ rfl (by simp [Late, Decides, hcall]) (fun h => h)
      exact List.append_subset.mpr ⟨List.subset_append_left _ _,
        List.Subset.trans (List.map_subset _ List.erase_subset) (List.subset_append_right _ _)⟩

theorem awaited_step (e : Event) (h : Awaited c) : Awaited (step e c) := by
  cases e with
  | signIn session => exact h
  | request id => exact h
  | response id status =>
    unfold Awaited
    rw [step]
    split
    · rw [Client.answered]
      split
      · exact fun _ => List.cons_ne_nil _ _
      · exact h
    · exact h
  | refreshAnswer answer =>
    unfold Awaited
    rw [step, Client.refreshed]
    split
    · exact h
    · split <;> simp
  | logout id =>
    unfold Awaited
    rw [step, Client.logout]
    split
    · exact h
    · exact h
  | logoutAnswer id =>
    unfold Awaited
    rw [step, Client.loggedOut]
    split
    · exact h
    · exact h

/-! ## What every event keeps -/

/-- What holds of the client when the refresh tokens so far are those of a list. -/
structure Sound (issued : List String) (c : Client) : Prop where
  object : ∀ stored ∈ c.session, stored.object < c.objects
  awaited : Awaited c
  out : c.out ⊆ c.presented
  presented : c.presented ⊆ issued
  session : ∀ stored ∈ c.session, stored.token ∈ issued
  /-- A token of the stored session that was sent still waits for its answer. -/
  waits : ∀ stored ∈ c.session, stored.token ∈ c.presented → stored.token ∈ c.out

theorem sound_initial : Sound [] {} where
  object := by simp
  awaited := by simp [Awaited]
  out := by simp [Client.out]
  presented := by simp
  session := by simp
  waits := by simp

/-- **What one event keeps.** -/
theorem sound_step (h : Sound issued c) (hissues : ∀ t ∈ e.issues, t ∉ issued ∧ t ∈ issued')
    (hsubset : issued ⊆ issued') : Sound issued' (step e c) := by
  have hawaited := awaited_step e h.awaited
  rcases effect_step e h.awaited with ⟨hsession, hobjects, hout, hpresented, -, -, -⟩ |
    ⟨hsession, hout, hpresented, -, -⟩ | ⟨stored, hissued, hsession, hobjects, hout, hpresented, -, -⟩ |
    ⟨stored, hfound, hsession, hobjects, hout, hpresented, -, -, -⟩
  · refine ⟨?_, hawaited, ?_, ?_, ?_, ?_⟩
    · exact hsession ▸ hobjects ▸ h.object
    · exact hout ▸ hpresented ▸ h.out
    · exact hpresented ▸ List.Subset.trans h.presented hsubset
    · exact fun s hs => hsubset (h.session s (hsession ▸ hs))
    · exact hsession ▸ hout ▸ hpresented ▸ h.waits
  · refine ⟨by simp [hsession], hawaited, ?_, ?_, by simp [hsession], by simp [hsession]⟩
    · exact hpresented ▸ List.Subset.trans hout h.out
    · exact hpresented ▸ List.Subset.trans h.presented hsubset
  · -- The token of the new session is in no list yet.
    obtain ⟨hfresh, hnew⟩ := hissues _ hissued
    refine ⟨by simp [hsession, hobjects], hawaited, ?_, ?_, ?_, ?_⟩
    · exact hpresented ▸ List.Subset.trans hout h.out
    · exact hpresented ▸ List.Subset.trans h.presented hsubset
    · simpa [hsession, Stored.token] using hnew
    · intro s hs ht
      obtain rfl : ⟨c.objects, stored⟩ = s := Option.some.inj (hsession ▸ hs)
      exact absurd (h.presented (hpresented ▸ ht)) hfresh
  · refine ⟨?_, hawaited, ?_, ?_, ?_, ?_⟩
    · exact hsession ▸ hobjects ▸ h.object
    · intro t ht
      rw [hpresented]
      rcases (hout t).mp ht with rfl | ht
      · exact List.mem_cons_self
      · exact List.mem_cons_of_mem _ (h.out ht)
    · rw [hpresented]
      exact List.cons_subset.mpr ⟨hsubset (h.session stored hfound), List.Subset.trans h.presented hsubset⟩
    · exact fun s hs => hsubset (h.session s (hsession ▸ hs))
    · intro s hs _
      obtain rfl : stored = s := Option.some.inj (hfound.symm.trans (hsession ▸ hs))
      exact (hout _).mpr (.inl rfl)

/-- **The stored session.** One event keeps it what it should be unless the event is late. -/
theorem session_track_iff {t : Tracked} (h : Sound issued t.client) (hlatest : t.client.session = t.latest) :
    (track e t).client.session = (track e t).latest ↔ ¬ Late e t.client := by
  have htrack : (track e t).client.session = (track e t).latest ↔
      (¬ Decides e t.client → (step e t.client).session = t.client.session) := by
    unfold track
    by_cases hdecides : Decides e t.client
    · simp [hdecides]
    · simp [hdecides, hlatest]
  rw [htrack]
  rcases effect_step e h.awaited with ⟨hsession, -, -, -, -, hlate, -⟩ | ⟨hsession, -, -, hlate, -⟩ |
    ⟨stored, -, hsession, -, -, -, hlate, -⟩ | ⟨stored, -, hsession, -, -, -, -, hlate, -⟩
  · exact iff_of_true (fun _ => hsession) hlate
  · rw [hsession, hlate, not_and, not_not]
    exact imp_congr_right fun _ => eq_comm
  · rw [hlate, not_not, hsession]
    refine ⟨fun hsame => by_contra fun hdecides => ?_, fun hdecides hnot => absurd hdecides hnot⟩
    exact absurd (h.object _ (hsame hdecides).symm) (Nat.lt_irrefl _)
  · exact iff_of_true (fun _ => hsession) hlate

/-- **The tokens that are sent.** One event sends no token again unless it is still out. -/
theorem nodup_presented_step_iff (h : Sound issued c) :
    (step e c).presented.Nodup ↔ c.presented.Nodup ∧ ¬ Twice e c := by
  rcases effect_step e h.awaited with ⟨-, -, -, hpresented, -, -, hnot⟩ | ⟨-, -, hpresented, -, hnot⟩ |
    ⟨-, -, -, -, -, hpresented, -, hnot⟩ | ⟨stored, hfound, -, -, -, hpresented, -, -, hpresents⟩
  · rw [hpresented]
    exact (and_iff_left fun htwice => hnot htwice.1).symm
  · rw [hpresented]
    exact (and_iff_left fun htwice => hnot htwice.1).symm
  · rw [hpresented]
    exact (and_iff_left fun htwice => hnot htwice.1).symm
  · have htwice : Twice e c ↔ stored.token ∈ c.presented := by
      rw [Twice, and_iff_right hpresents, refreshToken_of_session hfound]
      exact ⟨fun ht => h.out ht, h.waits stored hfound⟩
    rw [hpresented, List.nodup_cons, htwice, and_comm]

/-! ## Runs -/

theorem sound_run {events : List Event} (hfresh : (events.filterMap Event.issues).Nodup) :
    Sound (events.filterMap Event.issues) (tracked events).client := by
  induction events using List.reverseRecOn with
  | nil => exact sound_initial
  | append_singleton events e ih =>
    rw [List.filterMap_append] at hfresh ⊢
    obtain ⟨hbefore, -, hdisjoint⟩ := List.nodup_append.mp hfresh
    rw [tracked, Run.run_append, Run.run_cons, Run.run_nil]
    refine sound_step (ih hbefore) (fun t ht => ?_) (List.subset_append_left _ _)
    have hlast : t ∈ [e].filterMap Event.issues := List.mem_filterMap.mpr ⟨e, List.mem_singleton_self e, ht⟩
    exact ⟨fun hmem => hdisjoint t hmem t hlast rfl, List.mem_append_right _ hlast⟩

/-- **What is stored, and what is sent.** Where the server issues no refresh token twice: after every part
of a run the stored session is what the latest sign-in, logout, or answer to a refresh that started from
the session still stored made of it, and no refresh token has been sent twice, exactly when no answer of
the run is late and no token is sent while it is out. -/
theorem session_lawful {events : List Event} (hfresh : (events.filterMap Event.issues).Nodup) :
    (∀ before after, events = before ++ after →
        (tracked before).client.session = (tracked before).latest ∧ (tracked before).client.presented.Nodup) ↔
      Run.Along track (fun e t => ¬ Late e t.client ∧ ¬ Twice e t.client) events {} := by
  induction events using List.reverseRecOn with
  | nil =>
    refine iff_of_true ?_ trivial
    rintro before after heq
    obtain ⟨rfl, -⟩ := List.append_eq_nil_iff.mp heq.symm
    exact ⟨rfl, List.nodup_nil⟩
  | append_singleton events e ih =>
    rw [List.filterMap_append] at hfresh
    have hbefore := (List.nodup_append.mp hfresh).1
    rw [Run.forall_prefix_append_singleton, ih hbefore, Run.along_append]
    refine and_congr_right fun halong => ?_
    obtain ⟨hlatest, hnodup⟩ := (ih hbefore).mpr halong events [] (List.append_nil _).symm
    have hsound := sound_run hbefore
    have hlast : tracked (events ++ [e]) = track e (tracked events) := by
      rw [tracked, Run.run_append]
      rfl
    rw [hlast]
    show _ ↔ (¬ Late e (tracked events).client ∧ ¬ Twice e (tracked events).client) ∧ True
    rw [and_true]
    refine and_congr (session_track_iff hsound hlatest) ?_
    show (step e (tracked events).client).presented.Nodup ↔ _
    rw [nodup_presented_step_iff hsound, and_iff_right hnodup]

/-- A session of one user. -/
def aliceSession : Session := ⟨"alice", "laptop", ⟨"access-1", "refresh-1"⟩⟩

/-- Two requests find the access token expired; one refresh serves both, and then the user logs out. -/
def refreshOnce : List Event :=
  [.signIn aliceSession, .request 0, .request 1, .response 0 401, .response 1 401,
    .refreshAnswer (some ⟨"access-2", "refresh-2"⟩), .response 0 200, .logout 2, .logoutAnswer 2]

theorem refreshOnce_lawful : (tracked refreshOnce).client.session = (tracked refreshOnce).latest ∧
    (tracked refreshOnce).client.presented.Nodup :=
  have hfresh : (refreshOnce.filterMap Event.issues).Nodup := by decide
  (session_lawful hfresh).mpr (by decide) refreshOnce [] (List.append_nil _).symm

/-! ## A session that comes back -/

/-- A refresh is in flight when the user logs out. -/
def logoutDuringRefresh : List Event :=
  [.signIn aliceSession, .request 0, .response 0 401, .logout 1, .logoutAnswer 1,
    .refreshAnswer (some ⟨"access-2", "refresh-2"⟩)]

/-- **A session that comes back.** Nothing should be stored after the logout, and the session is there
again, with new tokens; and the first refresh token was sent twice. -/
theorem logoutDuringRefresh_revives :
    (tracked logoutDuringRefresh).client.session =
        some ⟨1, { aliceSession with tokens := ⟨"access-2", "refresh-2"⟩ }⟩ ∧
      (tracked logoutDuringRefresh).latest = none ∧
      (tracked logoutDuringRefresh).client.presented = ["refresh-1", "refresh-1"] := by
  decide

end Desktop
