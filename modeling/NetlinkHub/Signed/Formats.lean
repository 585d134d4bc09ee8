import NetlinkHub.Agent.Client
import NetlinkHub.Go.Timestamp
import NetlinkHub.Release.Manifest
import NetlinkHub.Signed.Command
import NetlinkHub.Signed.Grant
import NetlinkHub.Text.Delimited

/-! # The four signed formats

Power commands, session grants, agent requests and release manifests are signed with keys that some of
them share. A command on single lines is determined by its signed text, against any other command, and so
is a grant; and since each format begins with a line of its own, no text belongs to two of them
(`formats_bind`). -/

open Delimited (atBoundary_cons append_inj_of_notMem intercalate_inj_of_length)

/-! ## Commands -/

namespace PowerCommand

/-- The texts of a command are single lines. -/
structure Command.OneLine (c : Command) : Prop where
  id : '\n' ∉ c.id.toList
  action : '\n' ∉ c.action.toList
  deviceID : '\n' ∉ c.deviceID.toList
  spaceID : '\n' ∉ c.spaceID.toList
  nonce : '\n' ∉ c.nonce.toList
  requestedBy : '\n' ∉ c.requestedBy.toList

/-- Two commands with the same content; timestamps are compared to the millisecond. -/
structure Command.SameContent (c c' : Command) : Prop where
  id : c'.id = c.id
  action : c'.action = c.action
  deviceID : c'.deviceID = c.deviceID
  spaceID : c'.spaceID = c.spaceID
  issuedAt : c'.issuedAt.unixMilli = c.issuedAt.unixMilli
  expiresAt : c'.expiresAt.unixMilli = c.expiresAt.unixMilli
  nonce : c'.nonce = c.nonce
  requestedBy : c'.requestedBy = c.requestedBy

theorem Command.OneLine.newline_notMem {c : Command} (h : c.OneLine) :
    ∀ field ∈ c.signedFields, '\n' ∉ field := by
  intro field hfield
  simp only [Command.signedFields, List.mem_cons, List.not_mem_nil, or_false] at hfield
  rcases hfield with rfl | rfl | rfl | rfl | rfl | rfl | rfl | rfl | rfl
  · decide
  · exact h.id
  · exact h.action
  · exact h.deviceID
  · exact h.spaceID
  · exact c.issuedAt.newline_notMem_format
  · exact c.expiresAt.newline_notMem_format
  · exact h.nonce
  · exact h.requestedBy

/-- **The signed text of a command on single lines determines it**, against any other command. -/
theorem sameContent_of_signingInput {c c' : Command} (h : c.OneLine)
    (heq : signingInput c = signingInput c') : c.SameContent c' := by
  have hlen : c'.signedFields.length = c.signedFields.length := by simp [Command.signedFields]
  have hfields : c'.signedFields = c.signedFields :=
    intercalate_inj_of_length hlen h.newline_notMem heq.symm
  simp only [Command.signedFields, List.cons.injEq, String.toList_inj, true_and] at hfields
  obtain ⟨hid, haction, hdevice, hspace, hissued, hexpires, hnonce, hrequested, -⟩ := hfields
  exact ⟨hid, haction, hdevice, hspace, Time.format_inj hissued, Time.format_inj hexpires, hnonce,
    hrequested⟩

end PowerCommand

/-! ## Grants -/

namespace RemoteGrant

/-- The texts of a grant are single lines. -/
structure Grant.OneLine (g : Grant) : Prop where
  sessionID : '\n' ∉ g.sessionID.toList
  spaceID : '\n' ∉ g.spaceID.toList
  agentID : '\n' ∉ g.agentID.toList
  mode : '\n' ∉ g.mode.toList
  requestedBy : '\n' ∉ g.requestedBy.toList
  nonce : '\n' ∉ g.nonce.toList

/-- Two grants with the same content; timestamps are compared to the millisecond. -/
structure Grant.SameContent (g g' : Grant) : Prop where
  sessionID : g'.sessionID = g.sessionID
  spaceID : g'.spaceID = g.spaceID
  agentID : g'.agentID = g.agentID
  mode : g'.mode = g.mode
  requestedBy : g'.requestedBy = g.requestedBy
  issuedAt : g'.issuedAt.unixMilli = g.issuedAt.unixMilli
  expiresAt : g'.expiresAt.unixMilli = g.expiresAt.unixMilli
  nonce : g'.nonce = g.nonce

theorem Grant.OneLine.newline_notMem {g : Grant} (h : g.OneLine) :
    ∀ field ∈ g.signedFields, '\n' ∉ field := by
  intro field hfield
  simp only [Grant.signedFields, List.mem_cons, List.not_mem_nil, or_false] at hfield
  rcases hfield with rfl | rfl | rfl | rfl | rfl | rfl | rfl | rfl | rfl
  · decide
  · exact h.sessionID
  · exact h.spaceID
  · exact h.agentID
  · exact h.mode
  · exact h.requestedBy
  · exact g.issuedAt.newline_notMem_format
  · exact g.expiresAt.newline_notMem_format
  · exact h.nonce

/-- **The signed text of a grant on single lines determines it**, against any other grant. -/
theorem sameContent_of_signingInput {g g' : Grant} (h : g.OneLine)
    (heq : signingInput g = signingInput g') : g.SameContent g' := by
  have hlen : g'.signedFields.length = g.signedFields.length := by simp [Grant.signedFields]
  have hfields : g'.signedFields = g.signedFields :=
    intercalate_inj_of_length hlen h.newline_notMem heq.symm
  simp only [Grant.signedFields, List.cons.injEq, String.toList_inj, true_and] at hfields
  obtain ⟨hsession, hspace, hagent, hmode, hrequested, hissued, hexpires, hnonce, -⟩ := hfields
  exact ⟨hsession, hspace, hagent, hmode, hrequested, Time.format_inj hissued,
    Time.format_inj hexpires, hnonce⟩

end RemoteGrant

/-! ## The first line -/

namespace Signed

/-- A text that begins with a line of its own. -/
def StartsWith (line : String) (text : List Char) : Prop := ∃ rest, text = line.toList ++ '\n' :: rest

theorem startsWith_command (c : PowerCommand.Command) :
    StartsWith "netlink.power.v1" (PowerCommand.signingInput c) :=
  ⟨_, List.intercalate_cons_cons⟩

theorem startsWith_grant (g : RemoteGrant.Grant) :
    StartsWith "netlink.remote.v1" (RemoteGrant.signingInput g) :=
  ⟨_, List.intercalate_cons_cons⟩

theorem startsWith_manifest (beyond : Char → Char) (m : Release.Manifest) :
    StartsWith "netlink.release.v1" (Release.signingInput beyond m) :=
  ⟨_, List.intercalate_cons_cons⟩

theorem startsWith_request (digest : Posix.Bytes → String) (method : String)
    (path timestamp nonce : List Char) (body : Posix.Bytes) :
    StartsWith "netlink.agent.v1" (Client.signingInput digest method path timestamp nonce body) := by
  have hline : "netlink.agent.v1\n".toList = "netlink.agent.v1".toList ++ ['\n'] := by decide
  unfold Client.signingInput StartsWith
  rw [hline]
  generalize "netlink.agent.v1".toList = first
  simp only [List.append_assoc, List.singleton_append]
  exact ⟨_, rfl⟩

/-- Texts that begin with different lines differ. -/
theorem StartsWith.ne {line line' : String} {text text' : List Char} (h : StartsWith line text)
    (h' : StartsWith line' text') (hline : '\n' ∉ line.toList) (hline' : '\n' ∉ line'.toList)
    (hne : line ≠ line') : text ≠ text' := by
  obtain ⟨rest, rfl⟩ := h
  obtain ⟨rest', rfl⟩ := h'
  intro heq
  have hsame := (append_inj_of_notMem (atBoundary_cons rest) (atBoundary_cons rest') hline hline' heq).1
  exact hne (String.toList_inj.mp hsame)

/-- **The signed formats.** The signed text of a command on single lines determines the command, and that
of a grant the grant; and the texts of two formats are never the same. -/
theorem formats_bind (digest : Posix.Bytes → String) (beyond : Char → Char) :
    (∀ c c' : PowerCommand.Command, c.OneLine →
        PowerCommand.signingInput c = PowerCommand.signingInput c' → c.SameContent c') ∧
      (∀ g g' : RemoteGrant.Grant, g.OneLine →
        RemoteGrant.signingInput g = RemoteGrant.signingInput g' → g.SameContent g') ∧
      ∀ (c : PowerCommand.Command) (g : RemoteGrant.Grant) (m : Release.Manifest) (method : String)
        (path timestamp nonce : List Char) (body : Posix.Bytes),
        [PowerCommand.signingInput c, RemoteGrant.signingInput g,
          Client.signingInput digest method path timestamp nonce body,
          Release.signingInput beyond m].Pairwise (· ≠ ·) := by
  refine ⟨fun c c' => PowerCommand.sameContent_of_signingInput,
    fun g g' => RemoteGrant.sameContent_of_signingInput,
    fun c g m method path timestamp nonce body => ?_⟩
  have hcommand := startsWith_command c
  have hgrant := startsWith_grant g
  have hrequest := startsWith_request digest method path timestamp nonce body
  have hmanifest := startsWith_manifest beyond m
  simp only [List.pairwise_cons, List.mem_cons, List.not_mem_nil, or_false, forall_eq_or_imp, forall_eq,
    false_implies, implies_true, List.Pairwise.nil, and_true]
  exact ⟨⟨hcommand.ne hgrant (by decide) (by decide) (by decide),
      hcommand.ne hrequest (by decide) (by decide) (by decide),
      hcommand.ne hmanifest (by decide) (by decide) (by decide)⟩,
    ⟨hgrant.ne hrequest (by decide) (by decide) (by decide),
      hgrant.ne hmanifest (by decide) (by decide) (by decide)⟩,
    hrequest.ne hmanifest (by decide) (by decide) (by decide)⟩

end Signed
