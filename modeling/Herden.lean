import Herden.Proofs.ActivityHook
import Herden.Proofs.AgentWait
import Herden.Proofs.ChannelAdmission
import Herden.Proofs.Client.EndpointCommands
import Herden.Proofs.Client.EndpointWriter
import Herden.Proofs.ClientWriterQueue
import Herden.Proofs.Events
import Herden.Proofs.EventsSession.Activation
import Herden.Proofs.EventsSession.Subscriptions
import Herden.Proofs.Console.Updates
import Herden.Proofs.Hud
import Herden.Proofs.Lease
import Herden.Proofs.Pairing.Code
import Herden.Proofs.Pairing.Verdict
import Herden.Proofs.Layout.Resize
import Herden.Proofs.Layout.Rollback
import Herden.Proofs.Layout.Tiling
import Herden.Proofs.MicrophoneService
import Herden.Proofs.NotifyHook
import Herden.Proofs.Persist
import Herden.Proofs.SessionWriter
import Herden.Proofs.Pty.Input
import Herden.Proofs.RawInput
import Herden.Proofs.Renderer
import Herden.Proofs.RenderAnsi
import Herden.Proofs.ActivityRequest
import Herden.Proofs.Surface.Scroll
import Herden.Proofs.Terminal.ExitGate
import Herden.Proofs.Terminal.Expiry
import Herden.Proofs.Terminal.ForeignSession
import Herden.Proofs.TerminalAttach
import Herden.Proofs.VoicePipeline
import Herden.Proofs.Surface.Delta
import Herden.Proofs.Surface.Reuse
import Herden.Proofs.Surface.Checked
import Herden.Proofs.Surface.Retained
import Herden.Proofs.Blit
import Herden.Proofs.TextSelection
import Herden.Proofs.RawInput.Drain
import Herden.Proofs.RawInput.Mouse
import Herden.Proofs.Framing
import Herden.Proofs.Osc
import Herden.Proofs.Osc.Ends
import Herden.Proofs.AppIds
import Herden.Proofs.KittyGraphics
import Herden.Lib.Search
import Herden.Runtime.Client.DirectGraphics
import Herden.Proofs.Client.DirectGraphics
import Herden.Lib.Sshd
import Herden.Proofs.Pairing.Enrolled
import Herden.Lib.Str
import Herden.Runtime.Manifest.Region
import Herden.Proofs.Manifest.Region
import Herden.Runtime.Manifest.Version
import Herden.Runtime.Manifest.Rules
import Herden.Proofs.Manifest.Rules
import Herden.Lib.Padded
import Herden.Proofs.Manifest.Version
import Herden.Runtime.Manifest.Update
import Herden.Proofs.Manifest.Update
import Herden.Runtime.KittyKeyboard
import Herden.Proofs.KittyKeyboard
import Herden.Proofs.KittyKeyboard.Commands
import Herden.Lib.FixedWindow
import Herden.Relay.RateLimit
import Herden.Proofs.RateLimit
import Herden.Lib.Skim
import Herden.Runtime.Xtgettcap
import Herden.Proofs.Xtgettcap
import Herden.Lib.Lines
import Herden.Runtime.Integration.Command
import Herden.Runtime.Integration.TomlEdit
import Herden.Proofs.Integration.Codex
import Herden.Proofs.Integration.Kimi
import Herden.Proofs.Integration.TomlEdit
import Herden.Proofs.Config.Labels
import Herden.Runtime.Terminal.HistoryRead
import Herden.Proofs.Terminal.HistoryRead
import Herden.Proofs.Surface.Connection
