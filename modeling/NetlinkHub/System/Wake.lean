import NetlinkHub.Agent.Agent
import NetlinkHub.Api.Delivery

/-! # A wake, from the request to the wire

A wake command goes from the control plane to a helper, which sends the magic packet. The command names
the target by its row alone: the payload carries no hardware address, and the helper aims the packet at
the address of its own interface. What it sends is for the target only if the two are the same address
(`wakes_target_iff`). -/

namespace Wake

open Api (AgentRow AgentPrincipal HttpException Outside PowerCommandRow PowerRequest PowerResponse
  SignedCommand Signer World Write findAgent payload powerMachine powerRun)
open Concurrent (Config Move)

/-- What `UnmarshalEnvelope` makes of a signed command on the wire; `parseTime` reads a timestamp. -/
def received (parseTime : String → Option Time) (s : SignedCommand) : Option PowerCommand.Envelope :=
  (parseTime s.command.issuedAt).bind fun issuedAt =>
    (parseTime s.command.expiresAt).map fun expiresAt =>
      { command := ⟨s.command.id, s.command.action, s.command.deviceId, s.command.spaceId, issuedAt,
          expiresAt, s.command.nonce, s.command.requestedBy⟩
        signature := s.signature
        keyID := s.keyId }

/-- A poll has answered a wake command for a target, as the control plane holds it. -/
structure Collected (c : Config World Write HttpException PowerRequest PowerResponse) (i : Nat)
    (principal : AgentPrincipal) (s : SignedCommand) (target : AgentRow) : Prop where
  answered : ∃ cs, c.Answered i (.collectFor principal) (.commands cs) ∧ s ∈ cs
  row : ∃ row ∈ c.log.shared.powerCommands, row.id = s.command.id ∧ row.action = .wake ∧
    findAgent row.targetAgentId c.log.shared = some target

/-- The agent carries out a command that it has collected: its verifier lets the command through. -/
structure CarriesOut (parseTime : String → Option Time) (scheme : Signature.Scheme)
    (verifier : PowerCommand.Verifier) (arrival : Agent.PowerArrival) (a : Agent.State)
    (s : SignedCommand) : Prop where
  received : arrival.envelope = received parseTime s
  accepted : ∃ envelope verified, arrival.envelope = some envelope ∧
    (verifier.verify scheme ⟨envelope, arrival.now, arrival.reading⟩ a.powerNonces).1 = .ok verified

/-- The agent puts a packet on the network while it handles a command. -/
def Sends (scheme : Signature.Scheme) (verifier : PowerCommand.Verifier)
    (arrival : Agent.PowerArrival) (a : Agent.State) (packet : Wol.Packet) : Prop :=
  ∃ sent, (Agent.handlePowerCommand scheme verifier arrival a).packets = sent ++ a.packets ∧
    packet ∈ sent

/-- A magic packet for an agent: six `0xFF` octets and sixteen copies of the address that the control
plane holds for it. -/
def WakesUp (target : AgentRow) (packet : Wol.Packet) : Prop :=
  ∃ text mac, target.macAddress = some text ∧ Wol.parseMAC text = .ok mac ∧
    packet.payload = List.replicate 6 0xFF ++ (List.replicate 16 mac).flatten

/-- The address of an interface, if it has one that can be read, is that of an agent. -/
def SameAddress (interface : Agent.Interface) (target : AgentRow) : Prop :=
  ∀ mac, Wol.parseMAC interface.mac = .ok mac →
    ∃ text, target.macAddress = some text ∧ Wol.parseMAC text = .ok mac

variable {parseTime : String → Option Time} {scheme : Signature.Scheme}
  {verifier : PowerCommand.Verifier} {arrival : Agent.PowerArrival} {a : Agent.State}
  {s : SignedCommand} {target : AgentRow} {packet : Wol.Packet}

@[simp] theorem packets_see (time : Time) : (a.see time).packets = a.packets := rfl

@[simp] theorem packets_reportPower (id : String) (succeeded : Bool) (detail : String) :
    (Agent.reportPower id succeeded detail a).packets = a.packets := by
  unfold Agent.reportPower
  split <;> rfl

/-- What passes the verifier is the command that was received. -/
theorem verified_eq {envelope : PowerCommand.Envelope} {now reading : Time}
    {nonces : PowerCommand.NonceStore} {c : PowerCommand.Command}
    (h : (verifier.verify scheme ⟨envelope, now, reading⟩ nonces).1 = .ok c) :
    c = envelope.command := by
  rcases ReplayGuard.pass_cases (verifier.checks scheme) PowerCommand.Command.nonce
    PowerCommand.Command.expiresAt .replayed ⟨envelope, now, reading⟩ nonces with
    ⟨e, hpass⟩ | ⟨c', hchecks, hpass⟩
  · rw [PowerCommand.Verifier.verify, hpass] at h
    cases h
  · rw [PowerCommand.Verifier.verify, hpass] at h
    simp only at h
    split at h
    · cases h
      exact (PowerCommand.checks_ok hchecks).1
    · cases h

/-- **What an agent sends** for a command that it carries out. -/
theorem sends_iff (h : CarriesOut parseTime scheme verifier arrival a s) :
    Sends scheme verifier arrival a packet ↔
      packet ∈ (Power.execute arrival.machine s.command.action
        (Agent.powerTarget arrival.interface)).2 := by
  obtain ⟨envelope, verified, henvelope, haccepted⟩ := h.accepted
  have haction : verified.action = s.command.action := by
    have hreceived := h.received
    rw [henvelope, Wake.received, eq_comm, Option.bind_eq_some_iff] at hreceived
    obtain ⟨issuedAt, -, hreceived⟩ := hreceived
    obtain ⟨expiresAt, -, rfl⟩ := Option.map_eq_some_iff.mp hreceived
    rw [verified_eq haccepted]
  have hpackets : (Agent.handlePowerCommand scheme verifier arrival a).packets =
      (Power.execute arrival.machine s.command.action (Agent.powerTarget arrival.interface)).2 ++
        a.packets := by
    unfold Agent.handlePowerCommand
    rw [henvelope]
    simp only
    rw [haccepted]
    simp only [haction]
    split <;> simp
  constructor
  · rintro ⟨sent, hsent, hmem⟩
    rw [hpackets] at hsent
    rwa [List.append_cancel_right hsent]
  · intro hmem
    exact ⟨_, hpackets, hmem⟩

/-- A command for a wake is delivered as one. -/
theorem Collected.action {signer : Signer} {hashSecret : String → String} {w : World}
    (hids : (w.powerCommands.map (·.id)).Nodup) {moves : List (Move PowerRequest Outside)} {i : Nat}
    {principal : AgentPrincipal}
    (h : Collected (powerRun signer hashSecret w moves) i principal s target) :
    s.command.action = "power.wake" := by
  have hgood := Api.good_powerRun signer hashSecret hids moves
  obtain ⟨cs, hanswered, hs⟩ := h.answered
  obtain ⟨row, hrow, hid, hwake, -⟩ := h.row
  obtain ⟨row', hrow', hsigned, -⟩ := (hgood.answered hanswered principal cs rfl rfl).signed s hs
  have hid' : row'.id = s.command.id := by
    rw [hsigned]
    rfl
  -- One row for an identifier: the payload is that of the wake.
  obtain rfl : row' = row := Table.eq_of_key hgood.inv.ids hrow' hrow (hid'.trans hid.symm)
  rw [hsigned]
  show row'.action.text = "power.wake"
  rw [hwake]
  rfl

/-- **A wake reaches its target** exactly when the interface of the helper has the target's address, or
none that can be read. -/
theorem wakes_target_iff (signer : Signer) (hashSecret : String → String) (w : World)
    (hids : (w.powerCommands.map (·.id)).Nodup) (moves : List (Move PowerRequest Outside)) (i : Nat)
    (principal : AgentPrincipal)
    (hcollected : Collected (powerRun signer hashSecret w moves) i principal s target)
    (hcarries : CarriesOut parseTime scheme verifier arrival a s) :
    (∀ packet, Sends scheme verifier arrival a packet → WakesUp target packet) ↔
      SameAddress arrival.interface target := by
  have hwake := hcollected.action hids
  constructor
  · intro h mac hmac
    -- The packet that the helper sends for its own address.
    have hbuild := Wol.buildMagicPacket_parseMAC hmac
    have hsends : Sends scheme verifier arrival a
        ⟨List.replicate 6 0xFF ++ (List.replicate 16 mac).flatten,
          Wol.orGlobal (Agent.powerTarget arrival.interface).broadcastIP, Wol.defaultPort⟩ := by
      rw [sends_iff hcarries, Power.packets_execute]
      exact ⟨hwake, mac, hmac, hbuild, rfl, rfl⟩
    obtain ⟨text, mac', htext, hmac', hpayload⟩ := h _ hsends
    refine ⟨text, htext, ?_⟩
    have hbuild' := Wol.buildMagicPacket_parseMAC hmac'
    rw [← hpayload] at hbuild'
    rw [hmac', Wol.buildMagicPacket_inj hbuild' hbuild]
  · intro h packet hsends
    rw [sends_iff hcarries, Power.packets_execute] at hsends
    obtain ⟨-, mac, hmac, hbuild, -, -⟩ := hsends
    obtain ⟨text, htext, hmac'⟩ := h mac hmac
    rw [Wol.buildMagicPacket_parseMAC hmac, Except.ok.injEq] at hbuild
    exact ⟨text, mac, htext, hmac', hbuild.symm⟩

/-! ## A study that is woken from the hall -/

/-- The computer that is asleep. -/
def study : AgentRow :=
  ⟨"study", "space", "study-device", "Study", none, none, some "00:1A:2B:3C:4D:01", some "10.0.0.5",
    false, true⟩

/-- The helper on the same network. -/
def hall : AgentRow :=
  ⟨"hall", "space", "hall-device", "Hall", none, some 900, some "00:1A:2B:3C:4D:02", some "10.0.0.9",
    true, true⟩

theorem oneLine_nonce : Api.OneLine "nonce" := by decide

/-- Both computers, and the user who may wake them. -/
def house : World where
  directory :=
    { agents := [study, hall]
      members := [⟨"space", "user", "owner", ["power.wake"], false, none⟩]
      spaces := [⟨"space", "user"⟩]
      users := [⟨"user", "Ada"⟩]
      agentIds := by decide
      memberIds := by decide }
  challenges := []
  powerCommands := []
  remoteSessions := []
  remoteSignals := []
  audit := []
  published := []
  clock := 1000
  uuid := ⟨"command", by decide⟩
  random := ⟨"nonce", oneLine_nonce⟩

/-- The user asks for the study, and the hall polls. -/
def wakeStudy : List (Move PowerRequest Outside) :=
  [Move.call (.requestCommand "user" "phone" "space" ⟨.wake, "study", none, none⟩ ⟨none, none, none⟩),
      Move.call (.collectFor ⟨"user", "hall-device"⟩)] ++
    List.replicate 14 (Move.step 0) ++ List.replicate 5 (Move.step 1)

/-- The signing key of the control plane; the scheme below looks at texts only. -/
def signer : Signer := ⟨"key", fun _ => "AAAA"⟩

/-- What the hall collects. -/
def wakeCommand : SignedCommand :=
  signer.sign ⟨"command", "power.wake", "hall-device", "space", Api.toISOString 1000,
    Api.toISOString 121000, "nonce", "user"⟩

/-- The two timestamps of the command. -/
def houseTime (text : String) : Option Time :=
  if text = Api.toISOString 1000 then some (Time.ofMilli 1000)
  else if text = Api.toISOString 121000 then some (Time.ofMilli 121000) else none

/-- Only the text of the command was signed. -/
def houseScheme : Signature.Scheme := fun _ message _ =>
  message = Api.buildSigningInput wakeCommand.command

/-- The verifier of the hall. -/
def hallVerifier : PowerCommand.Verifier :=
  PowerCommand.newVerifier "hall-device" [("key", List.replicate 32 0)]

/-- The command arrives at the hall, which has a network interface. -/
def hallArrival (mac : String) : Agent.PowerArrival where
  envelope := received houseTime wakeCommand
  now := Time.ofMilli 2000
  reading := Time.ofMilli 2000
  interface := ⟨"10.0.0.9", mac⟩
  machine := ⟨.other, fun _ _ => none, none, none, fun _ => none⟩

/-- The agent of the hall. -/
def hallAgent : Agent.State := Agent.new (some ⟨"hall-device", "hall"⟩) ⟨0⟩

theorem collected_house :
    Collected (powerRun signer id house wakeStudy) 1 ⟨"user", "hall-device"⟩ wakeCommand study :=
  ⟨⟨[wakeCommand], rfl, List.mem_cons_self⟩, _, List.mem_cons_self, rfl, rfl, rfl⟩

/-- The command as the hall reads it. -/
def wakeEnvelope : PowerCommand.Envelope :=
  ⟨⟨"command", "power.wake", "hall-device", "space", Time.ofMilli 1000, Time.ofMilli 121000, "nonce",
    "user"⟩, "AAAA", "key"⟩

theorem received_wakeCommand : received houseTime wakeCommand = some wakeEnvelope := by decide

theorem verify_wakeEnvelope : (hallVerifier.verify houseScheme
    ⟨wakeEnvelope, Time.ofMilli 2000, Time.ofMilli 2000⟩ []).1 = .ok wakeEnvelope.command := by
  have h : (hallVerifier.verify houseScheme
      ⟨wakeEnvelope, Time.ofMilli 2000, Time.ofMilli 2000⟩ []).1.toOption =
        some wakeEnvelope.command := by decide
  generalize (hallVerifier.verify houseScheme
    ⟨wakeEnvelope, Time.ofMilli 2000, Time.ofMilli 2000⟩ []).1 = result at h ⊢
  cases result with
  | error e => cases h
  | ok c => exact congrArg Except.ok (Option.some.inj h)

theorem carriesOut_hall (mac : String) :
    CarriesOut houseTime houseScheme hallVerifier (hallArrival mac) hallAgent wakeCommand :=
  ⟨rfl, wakeEnvelope, wakeEnvelope.command, received_wakeCommand, verify_wakeEnvelope⟩

/-- A helper without an adapter sends nothing, so nothing goes to another address. -/
theorem wakes_target_noAdapter : SameAddress (hallArrival "").interface study ∧ ∀ packet,
    Sends houseScheme hallVerifier (hallArrival "") hallAgent packet → WakesUp study packet := by
  have hsame : SameAddress (hallArrival "").interface study := fun mac hmac => by cases hmac
  exact ⟨hsame, (wakes_target_iff signer id house (by decide) wakeStudy 1 ⟨"user", "hall-device"⟩
    collected_house (carriesOut_hall "")).mpr hsame⟩

/-- The hall wakes itself: its packet is not for the study. -/
theorem hall_wakes_itself :
    Collected (powerRun signer id house wakeStudy) 1 ⟨"user", "hall-device"⟩ wakeCommand study ∧
      CarriesOut houseTime houseScheme hallVerifier (hallArrival "00:1A:2B:3C:4D:02") hallAgent
        wakeCommand ∧
      ∃ packet, Sends houseScheme hallVerifier (hallArrival "00:1A:2B:3C:4D:02") hallAgent packet ∧
        ¬ WakesUp study packet := by
  refine ⟨collected_house, carriesOut_hall _, ⟨List.replicate 6 0xFF ++
    (List.replicate 16 [0x00, 0x1A, 0x2B, 0x3C, 0x4D, 0x02]).flatten, "10.0.0.255", 9⟩, ?_, ?_⟩
  · rw [sends_iff (carriesOut_hall _), Power.packets_execute]
    exact ⟨rfl, [0x00, 0x1A, 0x2B, 0x3C, 0x4D, 0x02], by rfl, by rfl, by decide, rfl⟩
  · rintro ⟨text, mac, htext, hmac, hpayload⟩
    cases htext
    have hstudy : Wol.parseMAC "00:1A:2B:3C:4D:01" = .ok [0x00, 0x1A, 0x2B, 0x3C, 0x4D, 0x01] := by rfl
    rw [hstudy] at hmac
    cases hmac
    revert hpayload
    decide

end Wake
