import NetlinkHub.Run.Steps
import Mathlib.Data.List.TakeWhile

/-! # Negotiation between the two peers

`Host.negotiate` and the viewer's `poll`, over a post box that delivers each message once and in order.
Either side hands a candidate to its peer connection only once the remote description is set, and drops
what it reaches before (`candidates_kept`). Candidates are posted beside the offer and the answer, so
they may come first; the viewer's polls may overlap, so they may also overtake it
(`candidates_dropped`). -/

namespace Negotiation

/-- `SignalMessage`, without its number: neither side reads it. -/
structure SignalMessage where
  kind : String
  payload : String
  deriving DecidableEq, Repr

/-- The peer connections, and how payloads are read. -/
structure Peer (γ : Type) where
  /-- A payload read as a candidate. -/
  candidate : String → Option γ
  /-- The host's answer to an offer that it can read and apply. -/
  answer : String → Option String
  /-- The viewer's connection accepts the answer. -/
  accepts : String → Bool

/-- The host in `negotiate`. -/
structure Host (γ : Type) where
  /-- The remote description is set. -/
  remote : Bool
  /-- The answer that is being sent. -/
  answering : Option String
  answered : Bool
  /-- What has been received and not been looked at. -/
  batch : List SignalMessage
  /-- The calls of `AddICECandidate`. -/
  added : List γ
  /-- `negotiate` has returned: the connection is up, the deadline has passed, or the session is over. -/
  returned : Bool

/-- One answered call of `poll`. -/
structure Poll where
  /-- The answer that `setRemoteDescription` is applying. -/
  applying : Option String
  rest : List SignalMessage
  deriving DecidableEq, Repr

/-- The viewer. -/
structure Viewer (γ : Type) where
  /-- The remote description is set. -/
  remote : Bool
  /-- The answered polls. -/
  polls : List Poll
  /-- The calls of `addIceCandidate`. -/
  added : List γ
  closed : Bool

/-- Both sides and the post box between them. -/
structure State (γ : Type) where
  /-- What the host has not collected. -/
  toHost : List SignalMessage
  /-- What the viewer has not collected. -/
  toViewer : List SignalMessage
  host : Host γ
  viewer : Viewer γ
  /-- All that has reached the server from the viewer. -/
  viewerPosted : List SignalMessage
  /-- All that has reached the server from the host. -/
  hostPosted : List SignalMessage

/-- What happens next. -/
inductive Event where
  /-- A message of the viewer reaches the server. -/
  | viewerPosts (m : SignalMessage)
  /-- A candidate of the host reaches the server. -/
  | hostPosts (payload : String)
  /-- `Receive` returns what is waiting, or the first messages of it. -/
  | receive (n : Nat)
  /-- The host looks at the next message. -/
  | handle
  /-- `Send` of the answer returns. -/
  | sent (ok : Bool)
  /-- `negotiate` returns at the head of its loop, or because the connection is up. -/
  | stop
  /-- A poll of the viewer is answered. -/
  | poll (n : Nat)
  /-- A poll goes on by one step. -/
  | step (i : Nat)
  /-- The viewer closes. -/
  | close
  deriving DecidableEq, Repr

variable {γ : Type}

/-- The host looks at a message. -/
def Host.handle (P : Peer γ) (m : SignalMessage) (h : Host γ) : Host γ :=
  if m.kind = "offer" then
    if h.answered then h
    else match P.answer m.payload with
      | none => { h with returned := true }
      | some answer => { h with remote := true, answering := some answer }
  else if m.kind = "candidate" then
    match P.candidate m.payload with
    | none => h
    | some c => if h.answered then { h with added := h.added ++ [c] } else h
  else if m.kind = "bye" then { h with returned := true }
  else h

/-- A poll of the viewer looks at a message. It may have to wait for `setRemoteDescription`. -/
def Viewer.handle (P : Peer γ) (m : SignalMessage) (v : Viewer γ) : Viewer γ × Option String :=
  if v.closed then (v, none)
  else if m.kind = "answer" ∧ ¬ v.remote then (v, some m.payload)
  else if m.kind = "candidate" ∧ v.remote then
    match P.candidate m.payload with
    | none => (v, none)
    | some c => ({ v with added := v.added ++ [c] }, none)
  else if m.kind = "bye" then ({ v with closed := true }, none)
  else (v, none)

/-- A message of the host reaches the server. -/
def State.hostPost (m : SignalMessage) (s : State γ) : State γ :=
  { s with toViewer := s.toViewer ++ [m], hostPosted := s.hostPosted ++ [m] }

/-- A poll of the viewer goes on. -/
def Viewer.step (P : Peer γ) (i : Nat) (v : Viewer γ) : Viewer γ :=
  match v.polls[i]? with
  | some ⟨some answer, rest⟩ =>
    { v with remote := v.remote || (P.accepts answer && !v.closed), polls := v.polls.set i ⟨none, rest⟩ }
  | some ⟨none, m :: rest⟩ =>
    let next := v.handle P m
    { next.1 with polls := v.polls.set i ⟨next.2, rest⟩ }
  | _ => v

/-- One event. -/
def step (P : Peer γ) : Event → State γ → State γ
  | .viewerPosts m, s => { s with toHost := s.toHost ++ [m], viewerPosted := s.viewerPosted ++ [m] }
  | .hostPosts payload, s => s.hostPost ⟨"candidate", payload⟩
  | .receive n, s =>
    if s.host.returned ∨ s.host.answering.isSome ∨ s.host.batch ≠ [] then s
    else { s with toHost := s.toHost.drop n, host := { s.host with batch := s.toHost.take n } }
  | .handle, s =>
    if s.host.returned ∨ s.host.answering.isSome then s
    else match s.host.batch with
      | [] => s
      | m :: rest => { s with host := Host.handle P m { s.host with batch := rest } }
  | .sent ok, s => match s.host.answering with
    | none => s
    | some answer =>
      if ok then
        { s.hostPost ⟨"answer", answer⟩ with
          host := { s.host with answering := none, answered := true } }
      else { s with host := { s.host with answering := none, returned := true } }
  | .stop, s => { s with host := { s.host with returned := true } }
  | .poll n, s =>
    if s.viewer.closed then s
    else { s with
      toViewer := s.toViewer.drop n
      viewer := { s.viewer with polls := s.viewer.polls ++ [⟨none, s.toViewer.take n⟩] } }
  | .step i, s => { s with viewer := s.viewer.step P i }
  | .close, s => { s with viewer := { s.viewer with closed := true } }

/-- Nothing has been posted. -/
def initial : State γ where
  toHost := []
  toViewer := []
  host := ⟨false, none, false, [], [], false⟩
  viewer := ⟨false, [], [], false⟩
  viewerPosted := []
  hostPosted := []

/-- The candidate that a message carries. -/
def candidateOf (P : Peer γ) (m : SignalMessage) : Option γ :=
  if m.kind = "candidate" then P.candidate m.payload else none

/-- What comes behind the first message of a kind. -/
def behind (kind : String) (ms : List SignalMessage) : List SignalMessage :=
  (ms.dropWhile (·.kind ≠ kind)).tail

/-- The poll has come to its end. -/
def Poll.Over (p : Poll) : Prop := p = ⟨none, []⟩

instance : DecidablePred Poll.Over := fun _ => inferInstanceAs (Decidable (_ = _))

/-- The host still negotiates, and has looked at everything. -/
def HostDone (s : State γ) : Prop := ¬ s.host.returned ∧ s.toHost = [] ∧ s.host.batch = []

/-- The viewer has not closed, has looked at everything, and has applied the answer. -/
def ViewerDone (s : State γ) : Prop :=
  ¬ s.viewer.closed ∧ s.toViewer = [] ∧ (∀ p ∈ s.viewer.polls, p.Over) ∧ s.viewer.remote

/-- No candidate is lost on either side. -/
def NoneLost (P : Peer γ) (s : State γ) : Prop :=
  (HostDone s → s.host.answered → ∀ m ∈ s.viewerPosted, ∀ c, candidateOf P m = some c → c ∈ s.host.added) ∧
    (ViewerDone s → ∀ m ∈ s.hostPosted, ∀ c, candidateOf P m = some c → c ∈ s.viewer.added)

/-- The viewer asks again only when its last poll has come to an end. -/
def PollsInTurn : Event → State γ → Prop
  | .poll _, s => ∀ p ∈ s.viewer.polls, p.Over
  | _, _ => True

variable {P : Peer γ} {s : State γ} {kind : String} {ms : List SignalMessage} {m : SignalMessage}

/-! ## What comes behind -/

theorem behind_append_of_mem (h : ∃ m ∈ ms, m.kind = kind) (ms' : List SignalMessage) :
    behind kind (ms ++ ms') = behind kind ms ++ ms' := by
  induction ms with
  | nil => simp at h
  | cons m ms ih =>
    by_cases hm : m.kind = kind
    · simp [behind, hm]
    · have hrest : ∃ m ∈ ms, m.kind = kind := by simpa [hm] using h
      simpa [behind, List.dropWhile_cons, hm] using ih hrest

theorem behind_of_not_mem (h : ∀ m ∈ ms, m.kind ≠ kind) : behind kind ms = [] := by
  rw [behind, List.dropWhile_eq_nil_iff.mpr (by simpa using h), List.tail_nil]

theorem behind_concat_of_not_mem (h : ∀ m ∈ ms, m.kind ≠ kind) (m : SignalMessage) :
    behind kind (ms ++ [m]) = [] := by
  rw [behind, List.dropWhile_append_of_pos (by simpa using h)]
  by_cases hm : m.kind = kind <;> simp [hm]

/-- The candidates behind the first message of a kind. -/
def candidatesBehind (P : Peer γ) (kind : String) (ms : List SignalMessage) : List γ :=
  (behind kind ms).filterMap (candidateOf P)

theorem candidatesBehind_of_not_mem (h : ∀ m ∈ ms, m.kind ≠ kind) : candidatesBehind P kind ms = [] := by
  rw [candidatesBehind, behind_of_not_mem h, List.filterMap_nil]

theorem candidatesBehind_concat_of_not_mem (h : ∀ m ∈ ms, m.kind ≠ kind) (m : SignalMessage) :
    candidatesBehind P kind (ms ++ [m]) = [] := by
  rw [candidatesBehind, behind_concat_of_not_mem h, List.filterMap_nil]

theorem candidatesBehind_concat_of_mem (h : ∃ m ∈ ms, m.kind = kind) (m : SignalMessage) :
    candidatesBehind P kind (ms ++ [m]) = candidatesBehind P kind ms ++ (candidateOf P m).toList := by
  rw [candidatesBehind, behind_append_of_mem h, List.filterMap_append, candidatesBehind]
  cases hm : candidateOf P m <;> simp [hm]

theorem candidateOf_of_ne (h : m.kind ≠ "candidate") : candidateOf P m = none := if_neg h

theorem candidateOf_of_eq (h : m.kind = "candidate") : candidateOf P m = P.candidate m.payload := if_pos h

/-! ## The host -/

/-- What the host has looked at, and what it made of it. -/
structure HostInv (P : Peer γ) (s : State γ) (seen : List SignalMessage) : Prop where
  order : s.viewerPosted = seen ++ s.host.batch ++ s.toHost
  added : s.host.added = candidatesBehind P "offer" seen
  offered : ¬ s.host.returned →
    ((s.host.answered ∨ s.host.answering.isSome) ↔ ∃ m ∈ seen, m.kind = "offer")
  answering : s.host.answering.isSome → ¬ s.host.answered
  reached : s.host.answered ∨ s.host.answering.isSome ∨ s.host.added ≠ [] → s.host.remote

/-- **A message that the host looks at.** -/
theorem HostInv.handle {seen rest : List SignalMessage} (h : HostInv P s seen) (hrunning : ¬ s.host.returned)
    (hidle : ¬ s.host.answering.isSome) (hbatch : s.host.batch = m :: rest) :
    HostInv P { s with host := Host.handle P m { s.host with batch := rest } } (seen ++ [m]) := by
  have horder : s.viewerPosted = seen ++ [m] ++ rest ++ s.toHost := by
    rw [h.order, hbatch]
    simp
  have hoffered : s.host.answered ↔ ∃ m ∈ seen, m.kind = "offer" := by
    rw [← h.offered hrunning]
    simp [hidle]
  have hseen : s.host.answered = false → ∀ m ∈ seen, m.kind ≠ "offer" := by
    intro hnot m hm hkind
    rw [hoffered.mpr ⟨m, hm, hkind⟩] at hnot
    cases hnot
  unfold Host.handle
  dsimp only
  split
  · rename_i hkind
    have hlater : ∃ m' ∈ seen ++ [m], m'.kind = "offer" := ⟨m, by simp, hkind⟩
    have hnone : candidateOf P m = none := candidateOf_of_ne (by simp [hkind])
    split
    · -- Another offer after the answer is ignored.
      rename_i hanswered
      refine ⟨horder, ?_, fun _ => iff_of_true (.inl hanswered) hlater, h.answering, h.reached⟩
      rw [candidatesBehind_concat_of_mem (hoffered.mp hanswered), hnone]
      simpa using h.added
    rename_i hnot
    have hfirst := hseen (by simpa using hnot)
    have hempty : s.host.added = [] := h.added.trans (candidatesBehind_of_not_mem hfirst)
    have hadded : s.host.added = candidatesBehind P "offer" (seen ++ [m]) :=
      hempty.trans (candidatesBehind_concat_of_not_mem hfirst m).symm
    split
    · refine ⟨horder, hadded, fun hr => absurd rfl hr, h.answering, h.reached⟩
    · refine ⟨horder, hadded, fun _ => iff_of_true (.inr rfl) hlater, fun _ => hnot, fun _ => rfl⟩
  rename_i hkind
  have hsame : (∃ m' ∈ seen ++ [m], m'.kind = "offer") ↔ ∃ m' ∈ seen, m'.kind = "offer" := by
    simp [or_and_right, exists_or, hkind]
  have hofferedNow : ¬ s.host.returned → ((s.host.answered ∨ s.host.answering.isSome) ↔
      ∃ m' ∈ seen ++ [m], m'.kind = "offer") := by
    rw [hsame]
    exact h.offered
  -- A message that carries no candidate adds none.
  have hkeeps : candidateOf P m = none → s.host.added = candidatesBehind P "offer" (seen ++ [m]) := by
    intro hnone
    cases hanswered : s.host.answered with
    | true =>
      rw [candidatesBehind_concat_of_mem (hoffered.mp hanswered), hnone]
      simpa using h.added
    | false =>
      rw [candidatesBehind_concat_of_not_mem (hseen hanswered)]
      exact h.added.trans (candidatesBehind_of_not_mem (hseen hanswered))
  split
  · rename_i hcandidate
    split
    · rename_i hnone
      exact ⟨horder, hkeeps (by rw [candidateOf_of_eq hcandidate, hnone]), hofferedNow, h.answering,
        h.reached⟩
    · rename_i c hc
      split
      · rename_i hanswered
        refine ⟨horder, ?_, hofferedNow, h.answering, fun _ => h.reached (.inl hanswered)⟩
        rw [candidatesBehind_concat_of_mem (hoffered.mp hanswered), candidateOf_of_eq hcandidate, hc,
          ← h.added]
        rfl
      · -- Before the offer, it is dropped.
        rename_i hnot
        have hfirst := hseen (by simpa using hnot)
        refine ⟨horder, ?_, hofferedNow, h.answering, h.reached⟩
        rw [candidatesBehind_concat_of_not_mem hfirst]
        exact h.added.trans (candidatesBehind_of_not_mem hfirst)
  · rename_i hcandidate
    have hnone : candidateOf P m = none := candidateOf_of_ne hcandidate
    split
    · exact ⟨horder, hkeeps hnone, fun hr => absurd rfl hr, h.answering, h.reached⟩
    · exact ⟨horder, hkeeps hnone, hofferedNow, h.answering, h.reached⟩

/-- **What the host keeps.** -/
theorem HostInv.step {seen : List SignalMessage} (h : HostInv P s seen) (e : Event) :
    ∃ seen', HostInv P (step P e s) seen' := by
  cases e with
  | viewerPosts m =>
    exact ⟨seen, by simp [Negotiation.step, h.order], h.added, h.offered, h.answering, h.reached⟩
  | hostPosts payload => exact ⟨seen, h.order, h.added, h.offered, h.answering, h.reached⟩
  | receive n =>
    simp only [Negotiation.step]
    split
    · exact ⟨seen, h⟩
    · rename_i hidle
      have hbatch : s.host.batch = [] := not_not.mp (not_or.mp (not_or.mp hidle).2).2
      refine ⟨seen, ?_, h.added, h.offered, h.answering, h.reached⟩
      simp [h.order, hbatch]
  | handle =>
    simp only [Negotiation.step]
    split
    · exact ⟨seen, h⟩
    rename_i hidle
    split
    · exact ⟨seen, h⟩
    · rename_i m rest hbatch
      exact ⟨_, h.handle (not_or.mp hidle).1 (not_or.mp hidle).2 hbatch⟩
  | sent ok =>
    simp only [Negotiation.step]
    split
    · exact ⟨seen, h⟩
    rename_i answer hanswering
    have hremote : s.host.remote := h.reached (.inr (.inl (by simp [hanswering])))
    split
    · refine ⟨seen, h.order, h.added, fun hr => ?_, nofun, fun _ => hremote⟩
      rw [← h.offered hr]
      simp [hanswering]
    · exact ⟨seen, h.order, h.added, fun hr => absurd rfl hr, nofun, fun _ => hremote⟩
  | stop => exact ⟨seen, h.order, h.added, fun hr => absurd rfl hr, h.answering, h.reached⟩
  | poll n =>
    simp only [Negotiation.step]
    split
    · exact ⟨seen, h⟩
    · exact ⟨seen, h.order, h.added, h.offered, h.answering, h.reached⟩
  | step i => exact ⟨seen, h.order, h.added, h.offered, h.answering, h.reached⟩
  | close => exact ⟨seen, h.order, h.added, h.offered, h.answering, h.reached⟩

/-! ## The viewer -/

/-- What the viewer has looked at, one poll after the other, and what it made of it. -/
structure ViewerInv (P : Peer γ) (s : State γ) (seen : List SignalMessage) (current : Poll) : Prop where
  polls : ∃ past : List Poll, (∀ p ∈ past, p.Over) ∧
    (s.viewer.polls = past ++ [current] ∨ s.viewer.polls = past ∧ current.Over)
  order : s.hostPosted = seen ++ current.rest ++ s.toViewer
  /-- The host answers once. -/
  answers : s.hostPosted.countP (·.kind = "answer") ≤ if s.host.answered then 1 else 0
  applying : current.applying.isSome → ¬ s.viewer.remote ∧ (∃ m ∈ seen, m.kind = "answer") ∧
    candidatesBehind P "answer" seen = []
  remote : s.viewer.remote → (∃ m ∈ seen, m.kind = "answer") ∧
    s.viewer.added = candidatesBehind P "answer" seen
  before : ¬ s.viewer.remote → s.viewer.added = []

/-- A poll that is not over is the current one. -/
theorem ViewerInv.current {seen : List SignalMessage} {current p : Poll} {i : Nat}
    (h : ViewerInv P s seen current) (hp : s.viewer.polls[i]? = some p) (hnot : ¬ p.Over) :
    p = current ∧ ∃ past : List Poll, (∀ p ∈ past, p.Over) ∧
      ∀ p', s.viewer.polls.set i p' = past ++ [p'] := by
  obtain ⟨past, hpast, hpolls | ⟨hpolls, -⟩⟩ := h.polls
  · rw [hpolls] at hp ⊢
    rcases lt_trichotomy i past.length with hi | rfl | hi
    · rw [List.getElem?_append_left hi] at hp
      exact absurd (hpast p (List.mem_of_getElem? hp)) hnot
    · rw [List.getElem?_concat_length] at hp
      refine ⟨(Option.some.inj hp).symm, past, hpast, fun p' => ?_⟩
      simp
    · rw [List.getElem?_eq_none (by simpa using Nat.succ_le_of_lt hi)] at hp
      cases hp
  · rw [hpolls] at hp
    exact absurd (hpast p (List.mem_of_getElem? hp)) hnot

/-- **A message that the viewer looks at.** -/
theorem ViewerInv.handle {seen rest : List SignalMessage} {past : List Poll} {i : Nat}
    (h : ViewerInv P s seen ⟨none, m :: rest⟩) (hpast : ∀ p ∈ past, p.Over)
    (hset : ∀ p', s.viewer.polls.set i p' = past ++ [p']) :
    let next := s.viewer.handle P m
    next.1.closed ∨ ViewerInv P
      { s with viewer := { next.1 with polls := s.viewer.polls.set i ⟨next.2, rest⟩ } } (seen ++ [m])
      ⟨next.2, rest⟩ := by
  have hpolls : ∀ p', ∃ past : List Poll, (∀ p ∈ past, p.Over) ∧
      (s.viewer.polls.set i p' = past ++ [p'] ∨ s.viewer.polls.set i p' = past ∧ p'.Over) :=
    fun p' => ⟨past, hpast, .inl (hset p')⟩
  have horder : s.hostPosted = seen ++ [m] ++ rest ++ s.toViewer := by
    rw [h.order]
    simp
  unfold Viewer.handle
  dsimp only
  split
  · rename_i hclosed
    exact .inl hclosed
  split
  · -- The one answer: nothing behind it has been looked at.
    rename_i hkind
    refine .inr ⟨hpolls _, horder, h.answers, fun _ => ⟨hkind.2, ⟨m, by simp, hkind.1⟩, ?_⟩,
      fun hr => absurd hr hkind.2, h.before⟩
    refine candidatesBehind_concat_of_not_mem (fun m' hm' hanswer => ?_) m
    have hcount := h.answers
    rw [horder] at hcount
    have hpos : 0 < seen.countP (·.kind = "answer") :=
      List.countP_pos_iff.mpr ⟨m', hm', by simpa using hanswer⟩
    simp only [List.countP_append, List.countP_singleton, hkind.1, decide_true, if_true] at hcount
    split at hcount <;> omega
  rename_i hkind
  -- A message that carries no candidate, or comes before the answer is applied, adds none.
  have hkeeps : (s.viewer.remote → candidateOf P m = none) →
      ViewerInv P { s with viewer := { s.viewer with polls := s.viewer.polls.set i ⟨none, rest⟩ } }
        (seen ++ [m]) ⟨none, rest⟩ := by
    intro hnone
    refine ⟨hpolls _, horder, h.answers, nofun, fun hr => ?_, h.before⟩
    obtain ⟨⟨m', hm', hanswer⟩, hadded⟩ := h.remote hr
    refine ⟨⟨m', List.mem_append_left _ hm', hanswer⟩, ?_⟩
    rw [candidatesBehind_concat_of_mem ⟨m', hm', hanswer⟩, hnone hr]
    simpa using hadded
  split
  · rename_i hcandidate
    obtain ⟨hcandidate, hremote⟩ := hcandidate
    split
    · rename_i hnone
      exact .inr (hkeeps fun _ => by rw [candidateOf_of_eq hcandidate, hnone])
    · rename_i c hc
      refine .inr ⟨hpolls _, horder, h.answers, nofun, fun _ => ?_, fun hr => absurd hremote hr⟩
      obtain ⟨⟨m', hm', hanswer⟩, hadded⟩ := h.remote hremote
      refine ⟨⟨m', List.mem_append_left _ hm', hanswer⟩, ?_⟩
      rw [candidatesBehind_concat_of_mem ⟨m', hm', hanswer⟩, candidateOf_of_eq hcandidate, hc, ← hadded]
      rfl
  rename_i hother
  split
  · exact .inl rfl
  · exact .inr (hkeeps fun hr => candidateOf_of_ne fun hcandidate => hother ⟨hcandidate, hr⟩)

/-- **What the viewer keeps**, when it polls in turn. -/
theorem ViewerInv.step {seen seenByHost : List SignalMessage} {current : Poll}
    (h : ViewerInv P s seen current) (hhost : HostInv P s seenByHost) (e : Event) (hturn : PollsInTurn e s) :
    (Negotiation.step P e s).viewer.closed ∨
      ∃ seen' current', ViewerInv P (Negotiation.step P e s) seen' current' := by
  have hsame : s.viewer.closed ∨ ∃ seen' current', ViewerInv P s seen' current' :=
    .inr ⟨seen, current, h⟩
  cases e with
  | viewerPosts m =>
    exact .inr ⟨seen, current, h.polls, h.order, h.answers, h.applying, h.remote, h.before⟩
  | hostPosts payload =>
    refine .inr ⟨seen, current, h.polls, ?_, ?_, h.applying, h.remote, h.before⟩
    · simp [Negotiation.step, State.hostPost, h.order]
    · have hcount : (s.hostPosted ++ [(⟨"candidate", payload⟩ : SignalMessage)]).countP
          (·.kind = "answer") = s.hostPosted.countP (·.kind = "answer") := by simp
      exact hcount.le.trans h.answers
  | receive n =>
    simp only [Negotiation.step]
    split
    · exact hsame
    · exact .inr ⟨seen, current, h.polls, h.order, h.answers, h.applying, h.remote, h.before⟩
  | handle =>
    simp only [Negotiation.step]
    split
    · exact hsame
    split
    · exact hsame
    · rename_i m rest hbatch
      have hanswered : (Host.handle P m { s.host with batch := rest }).answered = s.host.answered := by
        unfold Host.handle
        repeat' split
        all_goals rfl
      refine .inr ⟨seen, current, h.polls, h.order, ?_, h.applying, h.remote, h.before⟩
      show _ ≤ if (Host.handle P m { s.host with batch := rest }).answered then 1 else 0
      rw [hanswered]
      exact h.answers
  | sent ok =>
    simp only [Negotiation.step]
    split
    · exact hsame
    rename_i answer hanswering
    split
    · refine .inr ⟨seen, current, h.polls, ?_, ?_, h.applying, h.remote, h.before⟩
      · simp [State.hostPost, h.order]
      · have hnot := hhost.answering (by simp [hanswering])
        have hcount := h.answers
        rw [if_neg hnot] at hcount
        simpa [State.hostPost, List.countP_append] using hcount
    · exact .inr ⟨seen, current, h.polls, h.order, h.answers, h.applying, h.remote, h.before⟩
  | stop => exact .inr ⟨seen, current, h.polls, h.order, h.answers, h.applying, h.remote, h.before⟩
  | poll n =>
    simp only [Negotiation.step]
    split
    · exact hsame
    -- All polls are over, so nothing is waiting in the current one.
    obtain ⟨past, hpast, hpolls⟩ := h.polls
    have hcurrent : current = ⟨none, []⟩ := by
      rcases hpolls with hpolls | ⟨-, hcurrent⟩
      · exact hturn current (by simp [hpolls])
      · exact hcurrent
    subst hcurrent
    refine .inr ⟨seen, ⟨none, s.toViewer.take n⟩, ⟨s.viewer.polls, hturn, .inl rfl⟩, ?_, h.answers, nofun,
      h.remote, h.before⟩
    simp [h.order]
  | step i =>
    simp only [Negotiation.step, Viewer.step]
    split
    · rename_i answer rest hpoll
      obtain ⟨rfl, past, hpast, hset⟩ := h.current hpoll (by simp [Poll.Over])
      obtain ⟨hremote, hseen, hbehind⟩ := h.applying rfl
      refine .inr ⟨seen, ⟨none, rest⟩, ⟨past, hpast, .inl (hset _)⟩, h.order, h.answers, nofun,
        fun _ => ⟨hseen, (h.before hremote).trans hbehind.symm⟩, fun _ => h.before hremote⟩
    · rename_i m rest hpoll
      obtain ⟨rfl, past, hpast, hset⟩ := h.current hpoll (by simp [Poll.Over])
      exact (h.handle hpast hset).imp_right fun h' => ⟨_, _, h'⟩
    · exact hsame
  | close => exact .inl rfl

/-! ## A whole negotiation -/

/-- What the host has added when it has looked at everything. -/
structure HostKeeps (P : Peer γ) (s : State γ) : Prop where
  /-- A candidate is added only after the remote description is set. -/
  reached : s.host.added ≠ [] → s.host.remote
  added : HostDone s → s.host.added = candidatesBehind P "offer" s.viewerPosted

/-- What the viewer has added when it has looked at everything. -/
def ViewerKeeps (P : Peer γ) (s : State γ) : Prop :=
  ViewerDone s → s.viewer.added = candidatesBehind P "answer" s.hostPosted

theorem hostInv_initial (P : Peer γ) : HostInv P (initial : State γ) [] := by
  refine ⟨rfl, rfl, fun _ => ?_, nofun, ?_⟩ <;> simp [initial]

theorem viewerInv_initial (P : Peer γ) : ViewerInv P (initial : State γ) [] ⟨none, []⟩ :=
  ⟨⟨[], by simp, .inr ⟨rfl, rfl⟩⟩, rfl, Nat.zero_le _, nofun, nofun, fun _ => rfl⟩

/-- The host adds what it should, and so does a viewer that has not closed. -/
structure Sound (P : Peer γ) (s : State γ) : Prop where
  host : ∃ seen, HostInv P s seen
  viewer : s.viewer.closed ∨ ∃ seen current, ViewerInv P s seen current

theorem closed_step (e : Event) (h : s.viewer.closed) : (step P e s).viewer.closed := by
  cases e with
  | step i =>
    simp only [Negotiation.step, Viewer.step]
    split
    · exact h
    · simp [Viewer.handle, h]
    · exact h
  | close => rfl
  | _ =>
    simp only [Negotiation.step, State.hostPost]
    repeat' split
    all_goals exact h

theorem Sound.step (h : Sound P s) (e : Event) (hturn : PollsInTurn e s) : Sound P (step P e s) := by
  obtain ⟨seen, hhost⟩ := h.host
  refine ⟨hhost.step e, ?_⟩
  rcases h.viewer with hclosed | ⟨seen', current, hviewer⟩
  · exact .inl (closed_step e hclosed)
  · exact hviewer.step hhost e hturn

/-- **Candidates.** In every order of posts and every timing of polls, the host adds the candidates
behind the offer; and where the viewer polls in turn, it adds those behind the answer. -/
theorem candidates_kept (P : Peer γ) (events : List Event) :
    let s := Run.run (step P) events initial
    HostKeeps P s ∧ (Run.Along (step P) PollsInTurn events initial → ViewerKeeps P s) := by
  intro s
  refine ⟨?_, fun halong hdone => ?_⟩
  · have hhost : ∃ seen, HostInv P s seen := by
      refine Run.invariant (fun e s (h : ∃ seen, HostInv P s seen) => ?_) events ⟨[], hostInv_initial P⟩
      exact h.choose_spec.step e
    obtain ⟨seen, h⟩ := hhost
    refine ⟨fun hadded => h.reached (.inr (.inr hadded)), fun ⟨_, htoHost, hbatch⟩ => ?_⟩
    rw [h.added, h.order, htoHost, hbatch, List.append_nil, List.append_nil]
  · have hsound : Sound P s := halong.invariant (fun e _ hturn hinv => hinv.step e hturn)
      ⟨⟨[], hostInv_initial P⟩, .inr ⟨[], _, viewerInv_initial P⟩⟩
    obtain ⟨hopen, htoViewer, hpolls, hremote⟩ := hdone
    obtain ⟨seen, current, h⟩ := hsound.viewer.resolve_left hopen
    have hcurrent : current = ⟨none, []⟩ := by
      obtain ⟨past, -, hall | ⟨-, hcurrent⟩⟩ := h.polls
      · refine hpolls current ?_
        rw [hall]
        exact List.mem_append_right _ (List.mem_singleton_self _)
      · exact hcurrent
    rw [(h.remote hremote).2, h.order, htoViewer, hcurrent, List.append_nil, List.append_nil]

/-! ## Candidates that come too early -/

/-- Payloads are candidates as they are, and every offer is answered. -/
def plain : Peer String := ⟨some, fun _ => some "answer", fun _ => true⟩

/-- The viewer's offer and a candidate, in the order in which they reach the server, and the host's
answer and a candidate behind it. -/
def exchange (first second : SignalMessage) : List Event :=
  [.viewerPosts first, .viewerPosts second, .receive 2, .handle, .sent true, .handle, .sent true,
    .hostPosts "host", .poll 2, .step 0, .step 0, .step 0]

/-- The host's candidate is posted while the answer is on its way. -/
def candidateFirst : List Event :=
  [.viewerPosts ⟨"offer", "sdp"⟩, .receive 1, .handle, .hostPosts "host", .sent true, .poll 2, .step 0,
    .step 0, .step 0]

/-- The viewer's second poll comes to the candidate while the first applies the answer. -/
def pollsOverlap : List Event :=
  [.viewerPosts ⟨"offer", "sdp"⟩, .receive 1, .handle, .sent true, .poll 1, .step 0, .hostPosts "host",
    .poll 1, .step 1, .step 0]

instance (e : Event) (s : State γ) : Decidable (PollsInTurn e s) := by
  unfold PollsInTurn
  split <;> infer_instance

theorem candidates_kept_exchange :
    let s := Run.run (step plain) (exchange ⟨"offer", "sdp"⟩ ⟨"candidate", "viewer"⟩) initial
    (HostDone s ∧ s.host.added = ["viewer"]) ∧ (ViewerDone s ∧ s.viewer.added = ["host"]) ∧
      HostKeeps plain s ∧ ViewerKeeps plain s := by
  refine ⟨⟨?_, rfl⟩, ⟨?_, rfl⟩, ?_⟩
  · unfold HostDone
    decide
  · unfold ViewerDone
    decide
  · exact ⟨(candidates_kept plain _).1, (candidates_kept plain _).2 (by decide)⟩

/-- The viewer's candidate that overtakes the offer, the host's that overtakes the answer, and the
host's that the viewer's second poll comes to too early are lost. -/
theorem candidates_dropped :
    ¬ NoneLost plain (Run.run (step plain) (exchange ⟨"candidate", "viewer"⟩ ⟨"offer", "sdp"⟩) initial) ∧
      ¬ NoneLost plain (Run.run (step plain) candidateFirst initial) ∧
      ¬ NoneLost plain (Run.run (step plain) pollsOverlap initial) := by
  refine ⟨fun h => ?_, fun h => ?_, fun h => ?_⟩
  · exact absurd (h.1 (by unfold HostDone; decide) rfl ⟨"candidate", "viewer"⟩ (by decide) "viewer" rfl)
      (by decide)
  · exact absurd (h.2 (by unfold ViewerDone; decide) ⟨"candidate", "host"⟩ (by decide) "host" rfl)
      (by decide)
  · exact absurd (h.2 (by unfold ViewerDone; decide) ⟨"candidate", "host"⟩ (by decide) "host" rfl)
      (by decide)

end Negotiation
