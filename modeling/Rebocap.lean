import Rebocap.Bridge.Relay
import Rebocap.Driver.CoordinatesInverse
import Rebocap.Driver.StaleQueue
import Rebocap.Net.Client
import Rebocap.Proto.Encode
import Rebocap.Lib.Run
import Rebocap.Lib.Simulation
import Rebocap.Lib.RateLimit
import Rebocap.Net.Socket
import Rebocap.Net.Streams
import Rebocap.Proto.Acceptance
import Rebocap.Proto.Bounds
import Rebocap.Proto.Concatenation
import Rebocap.Proto.Conformance
import Rebocap.Proto.EncodeRoundtrip
import Rebocap.Install.DesktopExec
import Rebocap.Lib.RatScalar
import Rebocap.Net.Indices
import Rebocap.Net.Sending
import Rebocap.Driver.Resync
import Rebocap.Hooks.Handles
import Rebocap.Hooks.Transparency
import Rebocap.Hooks.HandPose
import Rebocap.Driver.WalkInPlace
import Rebocap.Driver.WipSafety
import Rebocap.Driver.Devices
import Rebocap.Driver.Tracker
import Rebocap.Driver.Registry
import Rebocap.Driver.Rounds
import Rebocap.Driver.TrackerReports
import Rebocap.Driver.ChaperoneSearch
import Rebocap.Driver.Universe
import Rebocap.Driver.PlaySpace
import Rebocap.Driver.Handshake
import Rebocap.Driver.Replacement
import Rebocap.Hooks.PendingList
import Rebocap.Hooks.Captured
import Rebocap.Hooks.Mixer
import Rebocap.Driver.HeadOrientation
import Rebocap.Driver.WalkDirection
import Rebocap.Driver.TreadmillCache
import Rebocap.Driver.Sends
import Rebocap.Driver.Dispatch
import Rebocap.Driver.UnknownIds
import Rebocap.Driver.Silence
import Rebocap.Bridge.BothWays
import Rebocap.Driver.EndToEnd
import Rebocap.Driver.Pace
import Rebocap.Net.Descriptors
import Rebocap.Net.Linearization
import Rebocap.Lib.Progress
import Rebocap.Net.Stopping
import Rebocap.Bridge.Handles
import Rebocap.Lib.Fairness
import Rebocap.Bridge.Streams
import Rebocap.Bridge.Ending
import Rebocap.Hooks.Vtables
import Rebocap.Hooks.Withheld
import Rebocap.Driver.Process
import Rebocap.Lib.Shell
import Rebocap.Install.Launcher
