import NetlinkHub.Api.OneLive

/-! # What a read leaves stale

`expireStale` runs on every read and closes the live sessions that meet a closing condition. It looks at
200 live sessions, stale or not. So it leaves nothing stale if and only if no live session beyond these
is stale (`nothing_stale_iff`); what it did not have to close stays as it was. -/

namespace Api

open Concurrent (Prog)
open Table (Op)

/-- A closing condition: the session should no longer be live. -/
inductive RemoteSessionRow.Overdue (s : RemoteSessionRow) (lastHeartbeatAt : Option Date) (now : Date) :
    Prop where
  | windowOver (notActive : s.state ≠ .active) (passed : s.expiresAt ≤ now)
  | connectingTooLong (connecting : s.state = .connecting)
    (long : now - s.issuedAt > remoteConnectTimeoutSeconds * 1000)
  | silent (long : now - s.lastSeenAt > remoteIdleTimeoutSeconds * 1000)
  | connectedTooLong (since : Date) (connected : s.connectedAt = some since)
    (long : now - since > remoteMaxDurationSeconds * 1000)
  | hostNotOnline (away : online lastHeartbeatAt now = false)

/-- The heartbeat that `expireStale` reads with a session. -/
def heartbeatOf (s : RemoteSessionRow) (w : World) : Option Date :=
  (findAgent s.agentId w).bind (·.lastHeartbeatAt)

/-- The session is live, and meets a closing condition by now. -/
def RemoteSessionRow.Stale (s : RemoteSessionRow) (w : World) : Prop :=
  s.state.Live ∧ s.Overdue (heartbeatOf s w) w.clock

/-- The live sessions, as `expireStale` selects them but for its bound. -/
def liveSessions (w : World) : List RemoteSessionRow := w.remoteSessions.filter fun s => s.state.Live

/-- The chain of conditions finds a reason exactly when one of them holds. -/
theorem staleReason_eq_none_iff (s : RemoteSessionRow) (lastHeartbeatAt : Option Date) (now : Date) :
    staleReason s lastHeartbeatAt now = none ↔ ¬ s.Overdue lastHeartbeatAt now := by
  constructor
  · intro hnone hoverdue
    rw [staleReason] at hnone
    split at hnone
    · cases hnone
    rename_i hwindow
    split at hnone
    · cases hnone
    rename_i hconnecting
    split at hnone
    · cases hnone
    rename_i hsilent
    split at hnone
    · cases hnone
    rename_i hconnected
    split at hnone
    · cases hnone
    rename_i honline
    cases hoverdue with
    | windowOver notActive passed => exact hwindow ⟨notActive, passed⟩
    | connectingTooLong connecting long => exact hconnecting ⟨connecting, long⟩
    | silent long => exact hsilent long
    | connectedTooLong since connected long => exact hconnected (by simpa [connected] using long)
    | hostNotOnline away => exact honline (by simp [away])
  · intro hfine
    unfold staleReason
    rw [if_neg fun h => hfine (.windowOver h.1 h.2), if_neg fun h => hfine (.connectingTooLong h.1 h.2),
      if_neg fun h => hfine (.silent h), if_neg fun h => ?_, if_neg fun h => hfine (.hostNotOnline ?_)]
    · simpa using h
    · obtain ⟨since, hsince, hlong⟩ := (Option.any_eq_true ..).mp h
      exact hfine (.connectedTooLong since hsince (of_decide_eq_true hlong))

/-! ## Closing -/

/-- Of the sessions, those with the given identifiers have ended, and the others are as they were. -/
structure Closed (ids : List String) (w t : World) : Prop where
  clock : t.clock = w.clock
  directory : t.directory = w.directory
  keys : t.remoteSessions.map (·.id) = w.remoteSessions.map (·.id)
  kept : ∀ s ∈ w.remoteSessions, s.id ∉ ids → s ∈ t.remoteSessions
  rest : ∀ s ∈ t.remoteSessions, s ∈ w.remoteSessions ∧ s.id ∉ ids ∨ s.state = .ended

theorem Closed.refl (w : World) : Closed [] w w :=
  ⟨rfl, rfl, rfl, fun _ hs _ => hs, fun _ hs => .inl ⟨hs, List.not_mem_nil⟩⟩

theorem Closed.trans {ids ids' : List String} {w t u : World} (h : Closed ids w t)
    (h' : Closed ids' t u) : Closed (ids ++ ids') w u where
  clock := h'.clock.trans h.clock
  directory := h'.directory.trans h.directory
  keys := h'.keys.trans h.keys
  kept := fun s hs hids => by
    obtain ⟨hnot, hnot'⟩ := not_or.mp fun hor => hids (List.mem_append.mpr hor)
    exact h'.kept s (h.kept s hs hnot) hnot'
  rest := fun s hs => by
    rcases h'.rest s hs with ⟨ht, hnot'⟩ | hended
    · rcases h.rest s ht with ⟨hw, hnot⟩ | hended
      · exact .inl ⟨hw, fun hmem => (List.mem_append.mp hmem).elim hnot hnot'⟩
      · exact .inr hended
    · exact .inr hended

/-- The end of `close` leaves the sessions alone. -/
theorem closeRest_ends (current : RemoteSessionRow) (reason : RemoteEndReason)
    (actorUserId : Option String) (context : Option RequestContext) (w : World) :
    (closeRest current reason actorUserId context).Ends exec (fun r t => r = .ok () ∧
      t.clock = w.clock ∧ t.directory = w.directory ∧ t.remoteSessions = w.remoteSessions) w := by
  unfold closeRest connectedSeconds
  cases current.connectedAt with
  | none => exact ⟨rfl, rfl, rfl, rfl⟩
  | some connectedAt => exact ⟨rfl, rfl, rfl, rfl⟩

/-- Undisturbed, `close` ends the session and no other. -/
theorem close_ends {w : World} (hnodup : (w.remoteSessions.map (·.id)).Nodup) {id : String}
    (hid : id ∈ w.remoteSessions.map (·.id)) (reason : RemoteEndReason) (actorUserId : Option String)
    (context : Option RequestContext) :
    (close id reason actorUserId context).Ends exec
      (fun r t => (∃ a, r = .ok a) ∧ Closed [id] w t) w := by
  obtain ⟨s, hs, rfl⟩ := List.mem_map.mp hid
  have hfound : findSession s.id w = some s := by
    have hkey := Table.find?_key hnodup hs
    exact hkey
  unfold close selectSession
  rw [select_bind, Prog.ends_stmt, hfound]
  dsimp only [Option.map_some, exec]
  split
  · -- A session that has ended already is left alone.
    rename_i hended
    refine ⟨⟨_, rfl⟩, rfl, rfl, rfl, fun _ hmem _ => hmem, fun t ht => ?_⟩
    by_cases hsame : t.id = s.id
    · have heq : t = s := Table.eq_of_key hnodup ht hs hsame
      exact .inr (heq ▸ hended)
    · exact .inl ⟨ht, fun hmem => hsame (List.mem_singleton.mp hmem)⟩
  · rw [newDate_bind, Prog.ends_stmt]
    unfold updateSession
    rw [Prog.stmt_bind, Prog.ends_stmt]
    have hfound' : findSession s.id (exec .clock w) = some s := hfound
    rw [hfound']
    refine (closeRest_ends ..).bind (fun _ t ht => ?_) fun e t ht => nomatch ht.1
    obtain ⟨-, hclock, hdirectory, hsessions⟩ := ht
    rw [Prog.ends_done]
    refine ⟨⟨_, rfl⟩, hclock, hdirectory, ?_, fun r hr hnot => ?_, fun r hr => ?_⟩
    · rw [hsessions]
      exact Table.map_update fun r => rfl
    · rw [hsessions]
      refine Table.mem_update.mpr ⟨r, hr, ?_⟩
      rw [if_neg]
      simpa using hnot
    · rw [hsessions] at hr
      obtain ⟨r₀, hr₀, rfl⟩ := Table.mem_update.mp hr
      split
      · exact .inr rfl
      · rename_i hother
        exact .inl ⟨hr₀, by simpa using hother⟩

/-- The sessions that the loop closes. -/
def overdueIds (now : Date) (sessions : List (RemoteSessionRow × Option Date)) : List String :=
  (sessions.filter fun s => (staleReason s.1 s.2 now).isSome).map (·.1.id)

/-- Undisturbed, the loop ends the sessions that meet a closing condition, and no other. -/
theorem closeEach_ends (now : Date) (sessions : List (RemoteSessionRow × Option Date)) {w : World}
    (hnodup : (w.remoteSessions.map (·.id)).Nodup)
    (hids : ∀ s ∈ sessions, s.1.id ∈ w.remoteSessions.map (·.id)) :
    (closeEach now sessions).Ends exec
      (fun r t => (∃ n, r = .ok n) ∧ Closed (overdueIds now sessions) w t) w := by
  induction sessions generalizing w with
  | nil => exact ⟨⟨0, rfl⟩, Closed.refl w⟩
  | cons session rest ih =>
    obtain ⟨s, lastHeartbeatAt⟩ := session
    have hrest : ∀ s ∈ rest, s.1.id ∈ w.remoteSessions.map (·.id) :=
      fun s hs => hids s (List.mem_cons_of_mem _ hs)
    unfold closeEach
    split
    · rename_i hnone
      have hsame : overdueIds now ((s, lastHeartbeatAt) :: rest) = overdueIds now rest := by
        simp [overdueIds, hnone]
      rw [hsame]
      exact ih hnodup hrest
    · rename_i reason hsome
      have hmore : overdueIds now ((s, lastHeartbeatAt) :: rest) = [s.id] ++ overdueIds now rest := by
        simp [overdueIds, hsome]
      rw [hmore]
      refine (close_ends hnodup (hids _ List.mem_cons_self) reason none none).bind
        (fun _ t ht => ?_) fun e t ht => nomatch ht.1.choose_spec
      -- Closing one session leaves the identifiers as they were, so the others are still there.
      have hkeys : t.remoteSessions.map (·.id) = w.remoteSessions.map (·.id) := ht.2.keys
      refine (ih (hkeys ▸ hnodup) (hkeys ▸ hrest)).bind (fun n u hu => ?_)
        fun e u hu => nomatch hu.1.choose_spec
      exact ⟨⟨_, rfl⟩, ht.2.trans hu.2⟩

/-! ## The whole call -/

/-- The session is among those that `expireStale` closes. -/
def ClosedBy (w : World) : List String :=
  (((liveSessions w).take 200).filter fun s =>
    (staleReason s (heartbeatOf s w) w.clock).isSome).map (·.id)

theorem expireStale_ends {w : World} (hnodup : (w.remoteSessions.map (·.id)).Nodup) :
    expireStale.Ends exec (fun r t => (∃ n, r = .ok n) ∧ Closed (ClosedBy w) w t) w := by
  unfold expireStale
  rw [newDate_bind, Prog.ends_stmt, select_bind, Prog.ends_stmt]
  have hids : ∀ s ∈ ((liveSessions w).take 200).map fun s => (s, heartbeatOf s w),
      s.1.id ∈ w.remoteSessions.map (·.id) := by
    intro s hs
    obtain ⟨row, hrow, rfl⟩ := List.mem_map.mp hs
    exact List.mem_map_of_mem (List.mem_filter.mp (List.mem_of_mem_take hrow)).1
  have hclosed : overdueIds w.clock (((liveSessions w).take 200).map fun s => (s, heartbeatOf s w)) =
      ClosedBy w := by
    rw [overdueIds, List.filter_map, List.map_map]
    rfl
  rw [← hclosed]
  exact closeEach_ends w.clock _ hnodup hids

/-- The database after an undisturbed `expireStale`. -/
def afterExpireStale (w : World) : World := (expireStale.runAlone exec w).2

/-- A session that is not stale is not closed: no other session has its identifier. -/
theorem not_closedBy_of_not_stale {w : World} (hnodup : (w.remoteSessions.map (·.id)).Nodup)
    {s : RemoteSessionRow} (hs : s ∈ w.remoteSessions) (hfine : ¬ s.Stale w) : s.id ∉ ClosedBy w := by
  intro hmem
  obtain ⟨s', hs', hid⟩ := List.mem_map.mp hmem
  obtain ⟨htake, hreason⟩ := List.mem_filter.mp hs'
  obtain ⟨hrow, hlive⟩ := List.mem_filter.mp (List.mem_of_mem_take htake)
  obtain rfl : s' = s := Table.eq_of_key hnodup hrow hs hid
  refine hfine ⟨of_decide_eq_true hlive, not_not.mp fun hnot => ?_⟩
  rw [(staleReason_eq_none_iff ..).mpr hnot] at hreason
  cases hreason

/-- A session beyond the bound is not closed. -/
theorem not_closedBy_of_mem_drop {w : World} (hnodup : (w.remoteSessions.map (·.id)).Nodup)
    {s : RemoteSessionRow} (hs : s ∈ (liveSessions w).drop 200) : s.id ∉ ClosedBy w := by
  intro hmem
  obtain ⟨s', hs', hid⟩ := List.mem_map.mp hmem
  have htake : s' ∈ (liveSessions w).take 200 := (List.mem_filter.mp hs').1
  -- It would have to have the identifier of one of the first 200.
  have hlive : ((liveSessions w).map (·.id)).Nodup := hnodup.sublist (List.filter_sublist.map _)
  rw [← List.take_append_drop 200 (liveSessions w), List.map_append] at hlive
  exact List.disjoint_of_nodup_append hlive (List.mem_map_of_mem htake)
    (hid ▸ List.mem_map_of_mem hs)

/-- Among the sessions within the bound, the stale ones are closed. -/
theorem closedBy_of_mem_take {w : World} {s : RemoteSessionRow} (hs : s ∈ (liveSessions w).take 200)
    (hstale : s.Stale w) : s.id ∈ ClosedBy w := by
  refine List.mem_map_of_mem (List.mem_filter.mpr ⟨hs, ?_⟩)
  rw [Option.isSome_iff_ne_none]
  exact fun hnone => (staleReason_eq_none_iff ..).mp hnone hstale.2

/-- A stale session beyond the bound is still there, and still stale. -/
theorem mem_afterExpireStale {w : World} (hnodup : (w.remoteSessions.map (·.id)).Nodup)
    {s : RemoteSessionRow} (hs : s ∈ (liveSessions w).drop 200) :
    s ∈ (afterExpireStale w).remoteSessions :=
  (expireStale_ends hnodup).2.kept s (List.mem_filter.mp (List.mem_of_mem_drop hs)).1
    (not_closedBy_of_mem_drop hnodup hs)

/-- **Nothing stale is left, up to the bound.** After an undisturbed `expireStale`, the clock stands where
it stood, no session is stale, and every session that was not stale is as it was, if and only if no live
session beyond the first 200 was stale. -/
theorem nothing_stale_iff (w : World) (hnodup : (w.remoteSessions.map (·.id)).Nodup) :
    ((∀ s ∈ (afterExpireStale w).remoteSessions, ¬ s.Stale (afterExpireStale w)) ∧
      ∀ s ∈ w.remoteSessions, ¬ s.Stale w → s ∈ (afterExpireStale w).remoteSessions) ↔
    ∀ s ∈ (liveSessions w).drop 200, ¬ s.Stale w := by
  have hclosed : Closed (ClosedBy w) w (afterExpireStale w) := (expireStale_ends hnodup).2
  -- What makes a session stale is its row, the clock and the agents, and the last two stay.
  have hstale : ∀ s : RemoteSessionRow, s.Stale (afterExpireStale w) ↔ s.Stale w := by
    intro s
    unfold RemoteSessionRow.Stale heartbeatOf findAgent
    rw [hclosed.clock, hclosed.directory]
  constructor
  · intro ⟨hnone, _⟩ s hs hs'
    exact hnone s (mem_afterExpireStale hnodup hs) ((hstale s).mpr hs')
  · intro hbeyond
    refine ⟨fun s hs hs' => ?_, fun s hs hfine =>
      hclosed.kept s hs (not_closedBy_of_not_stale hnodup hs hfine)⟩
    rw [hstale] at hs'
    rcases hclosed.rest s hs with ⟨hrow, hnot⟩ | hended
    · -- a live session is within the bound or beyond it
      have hlive : s ∈ liveSessions w := List.mem_filter.mpr ⟨hrow, decide_eq_true hs'.1⟩
      rw [← List.take_append_drop 200 (liveSessions w)] at hlive
      rcases List.mem_append.mp hlive with htake | hdrop
      · exact hnot (closedBy_of_mem_take htake hs')
      · exact hbeyond s hdrop hs'
    · exact hs'.1 hended

/-! ## A stale session behind 200 others -/

/-- A session of the computer in `screenWorld` whose viewer was last seen at the given time. -/
def watching (id : String) (lastSeenAt : Date) : RemoteSessionRow :=
  { id := id
    spaceId := "space"
    agentId := "agent"
    viewerId := "ada"
    viewerDeviceId := none
    mode := .view
    state := .active
    nonce := id
    issuedAt := 0
    expiresAt := 120000
    connectedAt := some 0
    endedAt := none
    endReason := none
    strategy := "direct"
    lastSeenAt := lastSeenAt
    refusedInputs := 0
    createdAt := 0 }

/-- A number as an identifier. -/
def tally (n : Nat) : String := String.ofList (List.replicate n 'a')

/-- So many sessions whose viewers are there, and one whose viewer has been silent for too long. -/
def crowded (n : Nat) : World :=
  { screenWorld with
    directory := { screenWorld.directory with
      agents := [⟨"agent", "space", "device", "Study", none, some 400000, none, none, false, false⟩]
      agentIds := by decide }
    clock := 400000
    remoteSessions := ((List.range n).map fun i => watching (tally i) 400000) ++
      [watching (tally n) 0] }

theorem tally_injective : Function.Injective tally := by
  intro m n heq
  have hlists : List.replicate m 'a' = List.replicate n 'a' := String.ofList_injective heq
  simpa using congrArg List.length hlists

theorem nodup_crowded (n : Nat) : ((crowded n).remoteSessions.map (·.id)).Nodup := by
  have hids : (crowded n).remoteSessions.map (·.id) = (List.range (n + 1)).map tally := by
    simp [crowded, watching, List.range_succ, Function.comp_def]
  rw [hids]
  exact List.nodup_range.map tally_injective

theorem liveSessions_crowded (n : Nat) : liveSessions (crowded n) = (crowded n).remoteSessions := by
  refine List.filter_eq_self.mpr fun s hs => ?_
  have hactive : s.state = .active := by
    rcases List.mem_append.mp hs with hfresh | hlast
    · obtain ⟨i, -, rfl⟩ := List.mem_map.mp hfresh
      rfl
    · rw [List.mem_singleton.mp hlast]
      rfl
  simp [hactive, RemoteSessionState.Live]

theorem nothing_stale_crowded : (∀ s ∈ (afterExpireStale (crowded 1)).remoteSessions,
      ¬ s.Stale (afterExpireStale (crowded 1))) ∧
    ∀ s ∈ (crowded 1).remoteSessions, ¬ s.Stale (crowded 1) →
      s ∈ (afterExpireStale (crowded 1)).remoteSessions := by
  refine (nothing_stale_iff (crowded 1) (nodup_crowded 1)).mpr fun s hs => ?_
  rw [liveSessions_crowded] at hs
  exact absurd hs (List.not_mem_nil)

/-- Behind 200 sessions that are all right, a stale session stays. -/
theorem stale_after_expireStale : ¬ ∀ s ∈ (afterExpireStale (crowded 200)).remoteSessions,
    ¬ s.Stale (afterExpireStale (crowded 200)) := by
  intro hnone
  have hclosed := (expireStale_ends (nodup_crowded 200)).2
  have hlast : watching (tally 200) 0 ∈ (liveSessions (crowded 200)).drop 200 := by
    rw [liveSessions_crowded, crowded, List.drop_left' (by simp)]
    exact List.mem_singleton.mpr rfl
  refine hnone _ (mem_afterExpireStale (nodup_crowded 200) hlast) ⟨nofun, .silent ?_⟩
  have hclock : (afterExpireStale (crowded 200)).clock = 400000 := hclosed.clock
  rw [hclock]
  decide

end Api
