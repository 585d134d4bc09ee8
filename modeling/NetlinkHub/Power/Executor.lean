import NetlinkHub.Power.MagicPacket

/-! # Carrying out a power command

The `power` package: what each platform does for each action of the fixed list. The machine is a
record of what its operating system answers. Only a wake puts a packet on the network
(`packets_execute`). -/

namespace Power

open Wol (Packet)

/-- `Target`: the machine a wake is aimed at. -/
structure Target where
  macAddress : String
  broadcastIP : String
  deriving DecidableEq, Repr

/-- The three builds of the package. -/
inductive Platform where
  | windows
  | darwin
  | other
  deriving DecidableEq, Repr

/-- What the machine answers when it is asked to act; `none` is success. -/
structure Machine where
  platform : Platform
  /-- The command runner. -/
  run : String → List String → Option String
  lockWorkstation : Option String
  suspend : Option String
  /-- `Sender.Send`. -/
  send : Packet → Option String

/-- `ErrUnsupportedAction` wrapped around an action. -/
def errUnsupportedAction (action : String) : String :=
  "netlink: this action is not supported on this platform: " ++ action

/-- `wakeExecutor.wake`. -/
def wake (m : Machine) (target : Target) : Except String String × List Packet :=
  if target.macAddress = "" then
    (.error "netlink: no network address registered for that computer", [])
  else
    let broadcast := Wol.orGlobal target.broadcastIP
    match Wol.wake m.send target.macAddress broadcast Wol.defaultPort with
    | (some e, packets) => (.error e, packets)
    | (none, packets) =>
      (.ok ("Magic packet sent to " ++ target.macAddress ++ " via " ++ broadcast), packets)

/-- The detail of an action, or its error. -/
def outcome (error : Option String) (detail : String) : Except String String :=
  match error with
  | some e => .error e
  | none => .ok detail

/-- The Windows executor's actions other than a wake. -/
def executeWindows (m : Machine) (action : String) : Except String String :=
  if action = "power.restart" then
    outcome (m.run "shutdown.exe" ["/r", "/t", "0", "/c", "NetLink: restarting at your request"])
      "Restart started"
  else if action = "power.shutdown" then
    outcome (m.run "shutdown.exe" ["/s", "/t", "0", "/c", "NetLink: shutting down at your request"])
      "Shutdown started"
  else if action = "power.cancel" then .ok "Any pending shutdown was cancelled"
  else if action = "power.lock" then outcome m.lockWorkstation "Workstation locked"
  else if action = "power.sleep" then outcome m.suspend "Sleep requested"
  else .error (errUnsupportedAction action)

/-- `elevationHint`. -/
def elevationHint (error verb : String) : String :=
  if "not permitted".toList <:+: error.toList ∨ "must be root".toList <:+: error.toList then
    "netlink: NetLink must be installed as a system service to " ++ verb ++
      " this Mac — run `sudo netlink-agent install`: " ++ error
  else "netlink: could not " ++ verb ++ " this Mac: " ++ error

/-- The macOS executor's actions other than a wake. -/
def executeDarwin (m : Machine) (action : String) : Except String String :=
  if action = "power.restart" then
    outcome ((m.run "shutdown" ["-r", "now"]).map (elevationHint · "restart")) "Restarting"
  else if action = "power.shutdown" then
    outcome ((m.run "shutdown" ["-h", "now"]).map (elevationHint · "shut down")) "Shutting down"
  else if action = "power.sleep" then
    outcome ((m.run "pmset" ["sleepnow"]).map ("netlink: could not put this Mac to sleep: " ++ ·))
      "Sleeping"
  else if action = "power.lock" then
    outcome ((m.run "/System/Library/CoreServices/Menu Extras/User.menu/Contents/Resources/CGSession"
      ["-suspend"]).map ("netlink: could not lock this Mac: " ++ ·)) "Locked"
  else .error (errUnsupportedAction action)

/-- `Execute`: the detail or the error, and the packets sent on the way. -/
def execute (m : Machine) (action : String) (target : Target) :
    Except String String × List Packet :=
  if action = "power.wake" then wake m target
  else match m.platform with
    | .windows => (executeWindows m action, [])
    | .darwin => (executeDarwin m action, [])
    | .other =>
      (.error (errUnsupportedAction action ++ " (NetLink performs power actions on Windows)"), [])

/-- **Only a wake sends, and it sends one magic packet** for the address it is aimed at. -/
theorem packets_execute {m : Machine} {action : String} {target : Target} {packet : Packet} :
    packet ∈ (execute m action target).2 ↔ action = "power.wake" ∧ ∃ mac,
      Wol.parseMAC target.macAddress = .ok mac ∧ Wol.buildMagicPacket mac = .ok packet.payload ∧
        packet.broadcast = Wol.orGlobal target.broadcastIP ∧ packet.port = Wol.defaultPort := by
  unfold execute
  split
  · rename_i hwake
    rw [and_iff_right hwake, wake]
    split
    · rename_i hnone
      -- No address is registered: the wake is refused, and the empty text is no address either.
      have hempty : Wol.parseMAC "" = .error Wol.errBadMAC := by decide
      simp [hnone, hempty]
    · -- Whatever the sender answers, the packets are those of `Wol.wake`.
      have hpackets : ∀ o : Option String × List Packet, (match o with
          | (some e, packets) => (Except.error e, packets)
          | (none, packets) => (Except.ok ("Magic packet sent to " ++ target.macAddress ++ " via " ++
              Wol.orGlobal target.broadcastIP), packets)).2 = o.2 := by
        rintro ⟨_ | _, _⟩ <;> rfl
      simp only [hpackets]
      rw [Wol.mem_packets_wake, Wol.orGlobal_orGlobal]
      rfl
  · rename_i hwake
    cases m.platform <;> simp [hwake]

end Power
