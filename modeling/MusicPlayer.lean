import MusicPlayer.Lib.CBytes
import MusicPlayer.Lib.Outcome
import MusicPlayer.Lib.Program
import MusicPlayer.Lib.Attempt
import MusicPlayer.Lib.Trace
import MusicPlayer.Lib.FirstMatch
import MusicPlayer.Lib.Chain
import MusicPlayer.Lib.Wakeups
import MusicPlayer.Lib.Heap
import MusicPlayer.Lib.Percent
import MusicPlayer.Lib.Rounding
import MusicPlayer.Lib.Utf8
import MusicPlayer.Lib.Quoted
import MusicPlayer.Message
import MusicPlayer.Server.Frame
import MusicPlayer.Server.Registry
import MusicPlayer.Server.Database
import MusicPlayer.Server.Pairing
import MusicPlayer.Server.Dispatch
import MusicPlayer.Server.Isolation
import MusicPlayer.Server.Routing
import MusicPlayer.Server.Protocol
import MusicPlayer.Server.Nodes
import MusicPlayer.Server.Expiry
import MusicPlayer.Server.Unwind
import MusicPlayer.Server.Malformed
import MusicPlayer.Server.Access
import MusicPlayer.Server.Statements
import MusicPlayer.Server.Accounts
import MusicPlayer.Server.Failures
import MusicPlayer.Server.Binding
import MusicPlayer.Server.Writer
import MusicPlayer.Speaker.Receive
import MusicPlayer.Speaker.Memory
import MusicPlayer.Speaker.Player
import MusicPlayer.Speaker.Semaphore
import MusicPlayer.Speaker.Requests
import MusicPlayer.Speaker.Processes
import MusicPlayer.Speaker.Sharing
import MusicPlayer.Speaker.Balance
import MusicPlayer.Speaker.Record
import MusicPlayer.Speaker.Playlist
import MusicPlayer.Speaker.Navigation
import MusicPlayer.Speaker.Current
import MusicPlayer.Speaker.Flags
import MusicPlayer.Speaker.Modes
import MusicPlayer.Speaker.Lengths
import MusicPlayer.Speaker.MusicLink
import MusicPlayer.Speaker.Select
import MusicPlayer.Speaker.Volume
import MusicPlayer.Speaker.Stick
import MusicPlayer.Speaker.Outgoing
import MusicPlayer.Speaker.Button
import MusicPlayer.Speaker.Press
import MusicPlayer.Speaker.Voice
import MusicPlayer.Tts
import MusicPlayer.Tts.Signals
import MusicPlayer.Asr
import MusicPlayer.TestServer
import MusicPlayer.Server.Forwarding
import MusicPlayer.Answers
import MusicPlayer.Transfer
import MusicPlayer.Buffers
import MusicPlayer.Speaker.Link
import MusicPlayer.Server.Arrivals
import MusicPlayer.Server.Presence
import MusicPlayer.Speaker.Playing
import MusicPlayer.Speaker.Playthrough
import MusicPlayer.Speaker.Endings
import MusicPlayer.Speaker.Unattended
import MusicPlayer.Speaker.Spoken
import MusicPlayer.Speaker.Keyboard
import MusicPlayer.App.Receive
import MusicPlayer.App.Remote
import MusicPlayer.App.Session
import MusicPlayer.App.Listing
