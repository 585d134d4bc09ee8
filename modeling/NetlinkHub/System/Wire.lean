import NetlinkHub.Api.Remote
import NetlinkHub.Go.Json
import NetlinkHub.Signed.Command
import NetlinkHub.Signed.Grant

/-! # Signed envelopes on the wire

The control plane signs a text, sends the fields as JSON, and the agent makes the text anew from what it
decodes. Both sides come to the same text (`genuine_envelopes`): strings come back from JSON as they were,
and a timestamp of a four-digit year is written by `Format` as it was by `toISOString`. -/

/-! ## What the agent decodes -/

namespace PowerCommand

open Unmarshal (stringField timeField structField)

variable (fold : String → String) (parse : List Char → Option Time)

/-- The fields of `Command`, by their JSON names. -/
def commandFields : List (Unmarshal.Field Command) :=
  [stringField "id" fun text c => { c with id := text },
    stringField "action" fun text c => { c with action := text },
    stringField "deviceId" fun text c => { c with deviceID := text },
    stringField "spaceId" fun text c => { c with spaceID := text },
    timeField parse "issuedAt" fun time c => { c with issuedAt := time },
    timeField parse "expiresAt" fun time c => { c with expiresAt := time },
    stringField "nonce" fun text c => { c with nonce := text },
    stringField "requestedBy" fun text c => { c with requestedBy := text }]

/-- The fields of `Envelope`. -/
def envelopeFields : List (Unmarshal.Field Envelope) :=
  [structField fold (commandFields parse) "command" (·.command) fun c env => { env with command := c },
    stringField "signature" fun text env => { env with signature := text },
    stringField "keyId" fun text env => { env with keyID := text }]

/-- The zero value of `Envelope`. -/
def zeroEnvelope : Envelope := ⟨⟨"", "", "", "", Time.zero, Time.zero, "", ""⟩, "", ""⟩

/-- `UnmarshalEnvelope`. -/
def unmarshalEnvelope (raw : List Char) : Option Envelope :=
  (Json.parse raw).bind fun value => Unmarshal.struct fold (envelopeFields fold parse) value zeroEnvelope

end PowerCommand

namespace RemoteGrant

open Unmarshal (stringField timeField structField)

variable (fold : String → String) (parse : List Char → Option Time)

/-- The fields of `Grant`, by their JSON names. -/
def grantFields : List (Unmarshal.Field Grant) :=
  [stringField "sessionId" fun text g => { g with sessionID := text },
    stringField "spaceId" fun text g => { g with spaceID := text },
    stringField "agentId" fun text g => { g with agentID := text },
    stringField "mode" fun text g => { g with mode := text },
    stringField "requestedBy" fun text g => { g with requestedBy := text },
    timeField parse "issuedAt" fun time g => { g with issuedAt := time },
    timeField parse "expiresAt" fun time g => { g with expiresAt := time },
    stringField "nonce" fun text g => { g with nonce := text }]

/-- The fields of `Envelope`. -/
def envelopeFields : List (Unmarshal.Field Envelope) :=
  [structField fold (grantFields parse) "grant" (·.grant) fun g env => { env with grant := g },
    stringField "signature" fun text env => { env with signature := text },
    stringField "keyId" fun text env => { env with keyID := text }]

/-- The zero value of `Envelope`. -/
def zeroEnvelope : Envelope := ⟨⟨"", "", "", "", "", Time.zero, Time.zero, ""⟩, "", ""⟩

/-- `UnmarshalEnvelope`. -/
def unmarshalEnvelope (raw : List Char) : Option Envelope :=
  (Json.parse raw).bind fun value => Unmarshal.struct fold (envelopeFields fold parse) value zeroEnvelope

end RemoteGrant

namespace Api

/-! ## What the control plane sends -/

/-- A member whose value is a string. -/
def text (name value : String) : List Char × Json := (Json.quote name, .string (Json.quote value))

/-- A signed command as an object. -/
def SignedCommand.toJson (signed : SignedCommand) : Json :=
  .object [(Json.quote "command", .object [text "id" signed.command.id, text "action" signed.command.action,
      text "deviceId" signed.command.deviceId, text "spaceId" signed.command.spaceId,
      text "issuedAt" signed.command.issuedAt, text "expiresAt" signed.command.expiresAt,
      text "nonce" signed.command.nonce, text "requestedBy" signed.command.requestedBy]),
    text "signature" signed.signature, text "keyId" signed.keyId]

/-- A signed grant as an object. -/
def SignedGrant.toJson (signed : SignedGrant) : Json :=
  .object [(Json.quote "grant", .object [text "sessionId" signed.grant.sessionId,
      text "spaceId" signed.grant.spaceId, text "agentId" signed.grant.agentId,
      text "mode" signed.grant.mode, text "requestedBy" signed.grant.requestedBy,
      text "issuedAt" signed.grant.issuedAt, text "expiresAt" signed.grant.expiresAt,
      text "nonce" signed.grant.nonce]),
    text "signature" signed.signature, text "keyId" signed.keyId]

/-- `JSON.stringify`. -/
def SignedCommand.stringify (signed : SignedCommand) : List Char := signed.toJson.print

/-- `JSON.stringify`. -/
def SignedGrant.stringify (signed : SignedGrant) : List Char := signed.toJson.print

theorem readable_command (signed : SignedCommand) : signed.toJson.Readable := by
  simp [SignedCommand.toJson, text, Json.Readable, Json.ReadableMembers, Json.isRaw_quote]

theorem readable_grant (signed : SignedGrant) : signed.toJson.Readable := by
  simp [SignedGrant.toJson, text, Json.Readable, Json.ReadableMembers, Json.isRaw_quote]

/-! ## Timestamps -/

/-- A date of a four-digit year. -/
def InYears (d : Date) : Prop :=
  0 ≤ (Time.civil (d / 86400000)).1 ∧ (Time.civil (d / 86400000)).1 ≤ 9999

variable {d : Date}

/-- Both languages write a date of a four-digit year in the same way. -/
theorem toISOString_eq (h : InYears d) : (toISOString d).toList = (Time.ofMilli d).format := by
  have hms : (Time.ofMilli d).unixMilli = d := by
    simp only [Time.unixMilli, Time.ofMilli]
    omega
  have hyears : 0 ≤ (Time.civil (d / 86400000)).1 ∧ (Time.civil (d / 86400000)).1 ≤ 9999 := h
  simp only [toISOString, Time.format, hms, if_pos hyears, String.toList_ofList]

theorem plain_appendInt (x : Int) (width : ℕ) : ∀ c ∈ Time.appendInt x width, Json.IsPlain c := by
  have hdigit : ∀ c : Char, c.isDigit → Json.IsPlain c := by
    intro c hc
    have hrange : 48 ≤ c.toNat ∧ c.toNat ≤ 57 := by
      simpa [Char.isDigit, UInt32.le_iff_toNat_le] using hc
    refine ⟨?_, ?_, by omega⟩
    · rintro rfl
      exact absurd hrange (by decide)
    · rintro rfl
      exact absurd hrange (by decide)
  intro c hc
  unfold Time.appendInt at hc
  simp only [List.append_assoc] at hc
  rcases List.mem_append.mp hc with hc | hc
  · split at hc
    · rw [List.mem_singleton.mp hc]
      exact ⟨by decide, by decide, by decide⟩
    · cases hc
  · exact hdigit c (Time.isDigit_padded _ _ c hc)

/-- A timestamp is written into a JSON string as it is. -/
theorem quote_toISOString (h : InYears d) : Json.quote (toISOString d) = (Time.ofMilli d).format := by
  rw [← toISOString_eq h]
  refine Json.quote_of_plain fun c hc => ?_
  rw [toISOString_eq h] at hc
  have hmark : ∀ c ∈ ['-', 'T', ':', '.', 'Z'], Json.IsPlain c := by
    simp [Json.IsPlain]
  simp only [Time.format, List.mem_append, List.mem_cons, List.not_mem_nil, or_false] at hc
  rcases hc with (((((((hc | hc | hc) | hc | hc) | hc | hc) | hc | hc) | hc | hc) | hc | hc) | hc)
  all_goals first
    | exact plain_appendInt _ _ c hc
    | (rw [hc]; exact hmark _ (by decide))

/-- The agent reads a timestamp as the date it was written from. -/
theorem parseRFC3339_toISOString (h : InYears d) :
    Time.parseRFC3339 (Json.quote (toISOString d)) = some (Time.ofMilli d) := by
  have hms : (Time.ofMilli d).unixMilli = d := by
    simp only [Time.unixMilli, Time.ofMilli]
    omega
  have hyears : 0 ≤ (Time.civil (d / 86400000)).1 ∧ (Time.civil (d / 86400000)).1 ≤ 9999 := h
  rw [quote_toISOString h, Time.parseRFC3339_format (by rw [hms]; exact hyears.1)
    (by rw [hms]; exact hyears.2), hms]

/-! ## What comes out at the agent -/

variable (fold : String → String) (parse : List Char → Option Time) (signer : Signer)

/-- The fields of a command are decoded as they were signed. -/
theorem struct_command {p : CommandPayload} {issued expires : Time}
    (hissued : Time.parseRFC3339 (Json.quote p.issuedAt) = some issued)
    (hexpires : Time.parseRFC3339 (Json.quote p.expiresAt) = some expires) (c : PowerCommand.Command) :
    Unmarshal.struct fold (PowerCommand.commandFields parse)
        (.object [text "id" p.id, text "action" p.action, text "deviceId" p.deviceId,
          text "spaceId" p.spaceId, text "issuedAt" p.issuedAt, text "expiresAt" p.expiresAt,
          text "nonce" p.nonce, text "requestedBy" p.requestedBy]) c =
      some ⟨p.id, p.action, p.deviceId, p.spaceId, issued, expires, p.nonce, p.requestedBy⟩ := by
  have hmember : ∀ key {field}, (PowerCommand.commandFields parse).find? (·.name = key) = some field →
      ∀ value rest c, Unmarshal.members fold (PowerCommand.commandFields parse)
        ((Json.quote key, value) :: rest) c =
          (field.set value c).bind (Unmarshal.members fold (PowerCommand.commandFields parse) rest) :=
    fun key _ h value rest c => Unmarshal.members_cons h
  simp only [Unmarshal.struct_object, text, hmember "id" rfl, hmember "action" rfl,
    hmember "deviceId" rfl, hmember "spaceId" rfl, hmember "issuedAt" rfl, hmember "expiresAt" rfl,
    hmember "nonce" rfl, hmember "requestedBy" rfl, Unmarshal.set_stringField, Option.bind_some,
    Unmarshal.set_timeField _ _ _ hissued, Unmarshal.set_timeField _ _ _ hexpires]
  rfl

/-- The fields of a grant are decoded as they were signed. -/
theorem struct_grant {p : GrantPayload} {issued expires : Time}
    (hissued : Time.parseRFC3339 (Json.quote p.issuedAt) = some issued)
    (hexpires : Time.parseRFC3339 (Json.quote p.expiresAt) = some expires) (g : RemoteGrant.Grant) :
    Unmarshal.struct fold (RemoteGrant.grantFields parse)
        (.object [text "sessionId" p.sessionId, text "spaceId" p.spaceId, text "agentId" p.agentId,
          text "mode" p.mode, text "requestedBy" p.requestedBy, text "issuedAt" p.issuedAt,
          text "expiresAt" p.expiresAt, text "nonce" p.nonce]) g =
      some ⟨p.sessionId, p.spaceId, p.agentId, p.mode, p.requestedBy, issued, expires, p.nonce⟩ := by
  have hmember : ∀ key {field}, (RemoteGrant.grantFields parse).find? (·.name = key) = some field →
      ∀ value rest g, Unmarshal.members fold (RemoteGrant.grantFields parse)
        ((Json.quote key, value) :: rest) g =
          (field.set value g).bind (Unmarshal.members fold (RemoteGrant.grantFields parse) rest) :=
    fun key _ h value rest g => Unmarshal.members_cons h
  simp only [Unmarshal.struct_object, text, hmember "sessionId" rfl, hmember "spaceId" rfl,
    hmember "agentId" rfl, hmember "mode" rfl, hmember "requestedBy" rfl, hmember "issuedAt" rfl,
    hmember "expiresAt" rfl, hmember "nonce" rfl, Unmarshal.set_stringField, Option.bind_some,
    Unmarshal.set_timeField _ _ _ hissued, Unmarshal.set_timeField _ _ _ hexpires]
  rfl

/-- **A command arrives as it was signed.** -/
theorem unmarshal_command {p : CommandPayload} {issued expires : Date} (hissued : InYears issued)
    (hexpires : InYears expires) (hfrom : p.issuedAt = toISOString issued)
    (huntil : p.expiresAt = toISOString expires) (signature keyId : String) :
    PowerCommand.unmarshalEnvelope fold parse (SignedCommand.stringify ⟨p, signature, keyId⟩) =
      some ⟨⟨p.id, p.action, p.deviceId, p.spaceId, Time.ofMilli issued, Time.ofMilli expires, p.nonce,
        p.requestedBy⟩, signature, keyId⟩ := by
  have hcommand := struct_command fold parse (p := p) (hfrom ▸ parseRFC3339_toISOString hissued)
    (huntil ▸ parseRFC3339_toISOString hexpires)
  have hmember : ∀ key {field},
      (PowerCommand.envelopeFields fold parse).find? (·.name = key) = some field → ∀ value rest env,
        Unmarshal.members fold (PowerCommand.envelopeFields fold parse)
          ((Json.quote key, value) :: rest) env =
            (field.set value env).bind
              (Unmarshal.members fold (PowerCommand.envelopeFields fold parse) rest) :=
    fun key _ h value rest env => Unmarshal.members_cons h
  rw [PowerCommand.unmarshalEnvelope, SignedCommand.stringify, Json.parse_print (readable_command _)]
  simp only [SignedCommand.toJson, Option.bind_some, Unmarshal.struct_object, hmember "command" rfl,
    Unmarshal.structField, hcommand, Option.map_some]
  simp only [text, hmember "signature" rfl, hmember "keyId" rfl, Unmarshal.set_stringField,
    Option.bind_some]
  rfl

/-- **A grant arrives as it was signed.** -/
theorem unmarshal_grant {p : GrantPayload} {issued expires : Date} (hissued : InYears issued)
    (hexpires : InYears expires) (hfrom : p.issuedAt = toISOString issued)
    (huntil : p.expiresAt = toISOString expires) (signature keyId : String) :
    RemoteGrant.unmarshalEnvelope fold parse (SignedGrant.stringify ⟨p, signature, keyId⟩) =
      some ⟨⟨p.sessionId, p.spaceId, p.agentId, p.mode, p.requestedBy, Time.ofMilli issued,
        Time.ofMilli expires, p.nonce⟩, signature, keyId⟩ := by
  have hgrant := struct_grant fold parse (p := p) (hfrom ▸ parseRFC3339_toISOString hissued)
    (huntil ▸ parseRFC3339_toISOString hexpires)
  have hmember : ∀ key {field},
      (RemoteGrant.envelopeFields fold parse).find? (·.name = key) = some field → ∀ value rest env,
        Unmarshal.members fold (RemoteGrant.envelopeFields fold parse)
          ((Json.quote key, value) :: rest) env =
            (field.set value env).bind
              (Unmarshal.members fold (RemoteGrant.envelopeFields fold parse) rest) :=
    fun key _ h value rest env => Unmarshal.members_cons h
  rw [RemoteGrant.unmarshalEnvelope, SignedGrant.stringify, Json.parse_print (readable_grant _)]
  simp only [SignedGrant.toJson, Option.bind_some, Unmarshal.struct_object, hmember "grant" rfl,
    Unmarshal.structField, hgrant, Option.map_some]
  simp only [text, hmember "signature" rfl, hmember "keyId" rfl, Unmarshal.set_stringField,
    Option.bind_some]
  rfl

/-- **Both sides sign the same text.** Whatever command or grant of four-digit years the control plane
signs: the agent decodes it, makes the same text from it, and accepts the signature, where what the
signing key puts on a text verifies under it. -/
theorem genuine_envelopes {verify : Signature.Scheme} {trusted : Signature.Keys}
    (hsigns : ∀ message,
      Signature.check verify trusted signer.keyId message (signer.signText message) = .ok ()) :
    (∀ p issued expires, InYears issued → InYears expires → p.issuedAt = toISOString issued →
        p.expiresAt = toISOString expires →
        ∃ env, PowerCommand.unmarshalEnvelope fold parse (signer.sign p).stringify = some env ∧
          PowerCommand.signingInput env.command = buildSigningInput p ∧
          Signature.check verify trusted env.keyID (PowerCommand.signingInput env.command)
            env.signature = .ok ()) ∧
      ∀ p issued expires, InYears issued → InYears expires → p.issuedAt = toISOString issued →
        p.expiresAt = toISOString expires →
        ∃ env, RemoteGrant.unmarshalEnvelope fold parse (signer.signGrant p).stringify = some env ∧
          RemoteGrant.signingInput env.grant = buildGrantSigningInput p ∧
          Signature.check verify trusted env.keyID (RemoteGrant.signingInput env.grant)
            env.signature = .ok () := by
  constructor
  · intro p issued expires hissued hexpires hfrom huntil
    have hinput : PowerCommand.signingInput ⟨p.id, p.action, p.deviceId, p.spaceId, Time.ofMilli issued,
        Time.ofMilli expires, p.nonce, p.requestedBy⟩ = buildSigningInput p := by
      simp only [PowerCommand.signingInput, PowerCommand.Command.signedFields, buildSigningInput, hfrom,
        huntil, toISOString_eq hissued, toISOString_eq hexpires]
    refine ⟨_, unmarshal_command fold parse hissued hexpires hfrom huntil _ _, hinput, ?_⟩
    rw [hinput]
    exact hsigns _
  · intro p issued expires hissued hexpires hfrom huntil
    have hinput : RemoteGrant.signingInput ⟨p.sessionId, p.spaceId, p.agentId, p.mode, p.requestedBy,
        Time.ofMilli issued, Time.ofMilli expires, p.nonce⟩ = buildGrantSigningInput p := by
      simp only [RemoteGrant.signingInput, RemoteGrant.Grant.signedFields, buildGrantSigningInput,
        GrantPayload.signedFields, hfrom, huntil, toISOString_eq hissued, toISOString_eq hexpires]
    refine ⟨_, unmarshal_grant fold parse hissued hexpires hfrom huntil _ _, hinput, ?_⟩
    rw [hinput]
    exact hsigns _

/-! ## A command on its way -/

/-- A signing key whose signature is always the same. -/
def plainSigner : Signer := ⟨"cp-plain", fun _ => "AAAA"⟩

/-- The scheme it belongs to. -/
def plainScheme : Signature.Scheme := fun _ _ sig => sig = [0, 0, 0]

/-- The keys of an agent that trusts it. -/
def plainKeys : Signature.Keys := [("cp-plain", List.replicate 32 7)]

/-- A command to lock a computer, on a leap day. -/
def lockPayload : CommandPayload :=
  ⟨"c1", "power.lock", "d1", "s1", toISOString 1709164800123, toISOString 1709164860123, "n\"1", "u1"⟩

/-- What the key signs verifies under it. -/
theorem check_plainSigner (message : List Char) : Signature.check plainScheme plainKeys plainSigner.keyId
    message (plainSigner.signText message) = .ok () := by
  have hdecode : Text.rawURLDecode "AAAA" = some [0, 0, 0] := by decide
  simp [Signature.check, plainScheme, plainKeys, plainSigner, hdecode, Signature.publicKeySize]

theorem genuine_envelopes_lock :
    ∃ env, PowerCommand.unmarshalEnvelope id (fun _ => none) (plainSigner.sign lockPayload).stringify =
        some env ∧
      PowerCommand.signingInput env.command = buildSigningInput lockPayload ∧
      Signature.check plainScheme plainKeys env.keyID (PowerCommand.signingInput env.command)
        env.signature = .ok () :=
  (genuine_envelopes id (fun _ => none) plainSigner check_plainSigner).1 lockPayload 1709164800123
    1709164860123 (by unfold InYears; decide) (by unfold InYears; decide) rfl rfl

end Api
