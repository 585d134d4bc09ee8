import NetlinkHub.Go.Text

/-! # Wake-on-LAN magic packets

The `wol` package: reading a MAC address, building the packet and sending it. A hexadecimal text of
twelve digits gives six octets (`parseMAC_length`), and a packet determines the address it was built
from (`buildMagicPacket_inj`). -/

namespace Wol

open Posix (Bytes)

/-- `DefaultPort`. -/
def defaultPort : Nat := 9

/-- `errBadMAC`. -/
def errBadMAC : String := "netlink: MAC address must be six octets, e.g. 00:1A:2B:3C:4D:5E"

/-- A hexadecimal digit. -/
def nibble (c : Char) : Option Nat :=
  if c.isDigit then some (c.toNat - '0'.toNat)
  else if 'a' ≤ c ∧ c ≤ 'f' then some (c.toNat - 'a'.toNat + 10)
  else if 'A' ≤ c ∧ c ≤ 'F' then some (c.toNat - 'A'.toNat + 10)
  else none

/-- The octets of a text, two digits each. -/
def octets : List Char → Option Bytes
  | c :: d :: rest => do
    let hi ← nibble c
    let lo ← nibble d
    let bytes ← octets rest
    pure (UInt8.ofNat (16 * hi + lo) :: bytes)
  | [] => some []
  | [_] => none

/-- `ParseMAC`. A letter beyond ASCII is no digit, so counting letters instead of bytes refuses the
same texts. -/
def parseMAC (value : String) : Except String Bytes :=
  let cleaned := (Text.trimSpace value.toList).filter fun c => c ∉ [':', '-', '.', ' ']
  if cleaned.length ≠ 12 then .error errBadMAC
  else match octets cleaned with
    | none => .error errBadMAC
    | some mac => .ok mac

/-- `BuildMagicPacket`. -/
def buildMagicPacket (mac : Bytes) : Except String Bytes :=
  if mac.length ≠ 6 then .error errBadMAC
  else .ok (List.replicate 6 0xFF ++ (List.replicate 16 mac).flatten)

/-- What `Sender.Send` is asked to put on the network. -/
structure Packet where
  payload : Bytes
  broadcast : String
  port : Nat
  deriving DecidableEq, Repr

/-- A broadcast address, the global one where none is given. -/
def orGlobal (broadcast : String) : String := if broadcast = "" then "255.255.255.255" else broadcast

@[simp] theorem orGlobal_orGlobal (broadcast : String) :
    orGlobal (orGlobal broadcast) = orGlobal broadcast := by
  unfold orGlobal
  split <;> simp_all

/-- `Wake`: the packet it sends, if any, and its error. `send` is the sender's answer. -/
def wake (send : Packet → Option String) (macAddress broadcast : String) (port : Nat) :
    Option String × List Packet :=
  match parseMAC macAddress with
  | .error e => (some e, [])
  | .ok mac => match buildMagicPacket mac with
    | .error e => (some e, [])
    | .ok payload =>
      let port := if port = 0 then defaultPort else port
      (send ⟨payload, orGlobal broadcast, port⟩, [⟨payload, orGlobal broadcast, port⟩])

/-! ## Addresses and packets -/

/-- Two digits an octet. -/
theorem octets_length {cs : List Char} {mac : Bytes} (h : octets cs = some mac) :
    cs.length = 2 * mac.length := by
  induction cs using octets.induct generalizing mac with
  | case1 c d rest ih =>
    rw [octets] at h
    simp only [Option.bind_eq_bind, Option.bind_eq_some_iff, Option.pure_def, Option.some.injEq] at h
    obtain ⟨hi, -, lo, -, bytes, hbytes, rfl⟩ := h
    simp only [List.length_cons, ih hbytes]
    omega
  | case2 => simp_all [octets]
  | case3 c => simp [octets] at h

/-- An address has six octets. -/
theorem parseMAC_length {value : String} {mac : Bytes} (h : parseMAC value = .ok mac) :
    mac.length = 6 := by
  unfold parseMAC at h
  simp only at h
  split at h
  · cases h
  rename_i hlen
  split at h
  · cases h
  rename_i octs hoct
  cases h
  have := octets_length hoct
  omega

/-- An address that was read makes a packet. -/
theorem buildMagicPacket_parseMAC {value : String} {mac : Bytes} (h : parseMAC value = .ok mac) :
    buildMagicPacket mac = .ok (List.replicate 6 0xFF ++ (List.replicate 16 mac).flatten) := by
  rw [buildMagicPacket, if_neg (by rw [parseMAC_length h]; decide)]

/-- **The packet determines the address.** -/
theorem buildMagicPacket_inj {mac mac' payload : Bytes} (h : buildMagicPacket mac = .ok payload)
    (h' : buildMagicPacket mac' = .ok payload) : mac = mac' := by
  unfold buildMagicPacket at h h'
  split at h
  · cases h
  split at h'
  · cases h'
  rename_i hlen hlen'
  rw [not_not] at hlen hlen'
  rw [Except.ok.injEq] at h h'
  have heq := List.append_cancel_left (h.trans h'.symm)
  rw [List.replicate_succ, List.flatten_cons, List.replicate_succ, List.flatten_cons] at heq
  exact (List.append_inj heq (hlen.trans hlen'.symm)).1

/-- **What a wake sends**: one packet, when the address can be read. -/
theorem mem_packets_wake {send : Packet → Option String} {macAddress broadcast : String} {port : Nat}
    {packet : Packet} :
    packet ∈ (wake send macAddress broadcast port).2 ↔ ∃ mac, parseMAC macAddress = .ok mac ∧
      buildMagicPacket mac = .ok packet.payload ∧
      packet.broadcast = orGlobal broadcast ∧ packet.port = (if port = 0 then defaultPort else port) := by
  unfold wake
  cases hmac : parseMAC macAddress with
  | error e => simp
  | ok mac =>
    have hbuild := buildMagicPacket_parseMAC hmac
    obtain ⟨payload, address, socket⟩ := packet
    simp only [hbuild, List.mem_singleton, Packet.mk.injEq, Except.ok.injEq, exists_eq_left']
    exact and_congr_left' eq_comm

end Wol

example : Wol.parseMAC " 00:1a-2B.3c 4d5E" = .ok [0x00, 0x1A, 0x2B, 0x3C, 0x4D, 0x5E] := by decide
