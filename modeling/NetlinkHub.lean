import NetlinkHub.Text.Delimited
import NetlinkHub.Text.Json
import NetlinkHub.Text.SemVer
import NetlinkHub.Text.Bits
import NetlinkHub.Posix.Path
import NetlinkHub.Posix.FileSystem
import NetlinkHub.Posix.Resolve
import NetlinkHub.Posix.Calls
import NetlinkHub.Posix.Agreement
import NetlinkHub.Go.Filepath
import NetlinkHub.Go.Os
import NetlinkHub.Files.Vault
import NetlinkHub.Files.Resolve
import NetlinkHub.Files.Confinement
import NetlinkHub.Files.Disclosure
import NetlinkHub.Files.Upload
import NetlinkHub.Files.Refused
import NetlinkHub.Files.Listing
import NetlinkHub.Go.Time
import NetlinkHub.Go.Base64
import NetlinkHub.Go.Calendar
import NetlinkHub.Go.Timestamp
import NetlinkHub.Go.Json
import NetlinkHub.Go.Text
import NetlinkHub.Go.Signature
import NetlinkHub.Release.Manifest
import NetlinkHub.Release.Binding
import NetlinkHub.Client.Desktop
import NetlinkHub.Client.Mobile
import NetlinkHub.Client.Base64Url
import NetlinkHub.Resources.Work
import NetlinkHub.Release.Updates
import NetlinkHub.Release.Versions
import NetlinkHub.Signed.ReplayGuard
import NetlinkHub.Signed.Command
import NetlinkHub.Signed.Grant
import NetlinkHub.Signed.AtMostOnce
import NetlinkHub.Signed.Rejections
import NetlinkHub.Run.Steps
import NetlinkHub.Run.FixedWindow
import NetlinkHub.Run.Pages
import NetlinkHub.Power.MagicPacket
import NetlinkHub.Power.Executor
import NetlinkHub.Remote.Session
import NetlinkHub.Remote.Gate
import NetlinkHub.Remote.Presses
import NetlinkHub.Remote.Rate
import NetlinkHub.Go.Binary
import NetlinkHub.Remote.Frames
import NetlinkHub.Agent.Identity
import NetlinkHub.Agent.Agent
import NetlinkHub.Agent.Lifetime
import NetlinkHub.Concurrent.Program
import NetlinkHub.Concurrent.Machine
import NetlinkHub.Concurrent.Table
import NetlinkHub.Api.World
import NetlinkHub.Api.Spaces
import NetlinkHub.Api.Power
import NetlinkHub.Api.PowerSteps
import NetlinkHub.Api.HandOut
import NetlinkHub.Api.Delivery
import NetlinkHub.Api.Cancel
import NetlinkHub.Api.Outstanding
import NetlinkHub.Api.PowerScreen
import NetlinkHub.Api.Results
import NetlinkHub.Api.OneLive
import NetlinkHub.Api.Parties
import NetlinkHub.Api.PostBox
import NetlinkHub.Api.Append
import NetlinkHub.Api.Sweep
import NetlinkHub.Api.Stale
import NetlinkHub.Api.RateLimit
import NetlinkHub.Api.Audit
import NetlinkHub.Remote.Negotiation
import NetlinkHub.System.Wake
import NetlinkHub.System.MacAddress
import NetlinkHub.Account.Agents
import NetlinkHub.Account.Enrollment
import NetlinkHub.Account.Families
import NetlinkHub.Account.Challenges
import NetlinkHub.Account.Codes
import NetlinkHub.Account.SignIn
import NetlinkHub.Account.Lockout
import NetlinkHub.Account.WakeSettings
import NetlinkHub.Account.Disguise
import NetlinkHub.Account.Trust
import NetlinkHub.Account.Revocation
import NetlinkHub.Account.Severed
import NetlinkHub.Api.StepUp
import NetlinkHub.Account.Presence
import NetlinkHub.Account.Refusals
import NetlinkHub.Agent.Client
import NetlinkHub.Signed.Formats
import NetlinkHub.Agent.Hosts
import NetlinkHub.System.Hosting
import NetlinkHub.System.Withdrawal
import NetlinkHub.System.Wire
import NetlinkHub.System.Violations
import NetlinkHub.System.ControlPlane
import NetlinkHub.System.Confirmation
import NetlinkHub.System.Sessions
import NetlinkHub.System.RemoteControl
import NetlinkHub.Sharing.World
import NetlinkHub.Concurrent.Trace
import NetlinkHub.Sharing.Allocations
import NetlinkHub.Sharing.Access
import NetlinkHub.Sharing.Claim
import NetlinkHub.Sharing.Lifecycle
import NetlinkHub.Sharing.Owners
import NetlinkHub.Sharing.Delegation
import NetlinkHub.Sharing.Pool
import NetlinkHub.Sharing.Usage
import NetlinkHub.Sharing.Limits
import NetlinkHub.Number.Double
import NetlinkHub.Number.Shortest
import NetlinkHub.Number.Text
import NetlinkHub.Sharing.Amounts
import NetlinkHub.Files.Ancestors
import NetlinkHub.Agent.EnrollmentFile
import NetlinkHub.Agent.Keychain
import NetlinkHub.Api.Metrics
import NetlinkHub.Concurrent.Maintain
import NetlinkHub.Sharing.Demo
import NetlinkHub.Sharing.Unmetered
import NetlinkHub.Account.Guesses
import NetlinkHub.Agent.Launchd
import NetlinkHub.Release.Envelope
import NetlinkHub.Release.Tool
