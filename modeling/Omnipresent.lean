import Omnipresent.Transition
import Omnipresent.HashMap
import Omnipresent.Protocol.Wire
import Omnipresent.Protocol.Control
import Omnipresent.Session.Manager
import Omnipresent.Topology.Advance
import Omnipresent.Trust.Completeness
import Omnipresent.Trust.Pins
import Omnipresent.Daemon.Bounds
import Omnipresent.Daemon.Panics
import Omnipresent.Daemon.RemovePeer
import Omnipresent.Daemon.Pending
import Omnipresent.HandOver.Protocol
import Omnipresent.HandOver.Pair
import Omnipresent.HandOver.Hub
import Omnipresent.Daemon.Messages
import Omnipresent.Network.State
import Omnipresent.Network.Refinement
import Omnipresent.Network.Pair
import Omnipresent.Network.Hub
import Omnipresent.Daemon.Homecoming
import Omnipresent.Clipboard.OptIn
import Omnipresent.Clipboard.Echo
import Omnipresent.Clipboard.Network
import Omnipresent.Daemon.Settings
import Omnipresent.Daemon.Changes
import Omnipresent.Daemon.Strokes
import Omnipresent.Network.Meeting
import Omnipresent.Protocol.Truncation
import Omnipresent.Transport.Quic
import Omnipresent.Daemon.Arrangement
import Omnipresent.Session.Replay
import Omnipresent.App.Supervisor
import Omnipresent.Input.Chords
import Omnipresent.Topology.Scaling
import Omnipresent.Topology.RoundTrip
import Omnipresent.Daemon.Coalesce
import Omnipresent.Daemon.RateLimiter
import Omnipresent.Trust.Hosts
import Omnipresent.Trust.Refusal
import Omnipresent.Input.Stamps
import Omnipresent.Trust.Dedup
import Omnipresent.Trust.Removal
import Omnipresent.Trust.Parsing
import Omnipresent.Security.Authority
import Omnipresent.App.Announcements
import Omnipresent.Transport.Delivery
import Omnipresent.Transport.Control
import Omnipresent.App.Started
import Omnipresent.Security.Identity
import Omnipresent.LossyText
import Omnipresent.App.Log
import Omnipresent.App.DaemonStore
import Omnipresent.Bits
import Omnipresent.Input.Desktop
import Omnipresent.Input.MacosSource
import Omnipresent.Input.Motion
import Omnipresent.Input.Tally
import Omnipresent.Input.Toggled
import Omnipresent.Protocol.Remap
import Omnipresent.Topology.Projection
import Omnipresent.Watch
import Omnipresent.Daemon.Subscriptions
import Omnipresent.Daemon.Peer
import Omnipresent.Watchdog
import Omnipresent.Daemon.Heartbeat
import Omnipresent.Postcard.Shortest
import Omnipresent.Protocol.Shortest
import Omnipresent.Streak
import Omnipresent.Input.MacosSink
import Omnipresent.Input.Gestures
import Omnipresent.TwoWay
import Omnipresent.Input.LinuxSink
import Omnipresent.Transport.Interrupted
import Omnipresent.Daemon.Consent
import Omnipresent.App.Tray
import Omnipresent.Envelope
import Omnipresent.Daemon.Allowance
import Omnipresent.Input.WindowsMouse
import Omnipresent.Daemon.CaptureThread
import Omnipresent.Daemon.Subscribers
