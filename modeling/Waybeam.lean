import Waybeam.Machine
import Waybeam.Numeric
import Waybeam.Ring
import Waybeam.Vehicle.Config
import Waybeam.Vehicle.Wire
import Waybeam.Vehicle.Fec
import Waybeam.Vehicle.Commit
import Waybeam.Vehicle.Selector
import Waybeam.Vehicle.Wcmd
import Waybeam.Vehicle.Loop
import Waybeam.Vehicle.Frame
import Waybeam.Vehicle.Override
import Waybeam.Vehicle.Pressure
import Waybeam.Vehicle.Silence
import Waybeam.Vehicle.Mirror
import Waybeam.Vehicle.Realign
import Waybeam.Vehicle.Operator
import Waybeam.Vehicle.Delivery
import Waybeam.Vehicle.Ordered
import Waybeam.Vehicle.Dedup
import Waybeam.Csa.Agent
import Waybeam.Ground.State
import Waybeam.Csa.Replay
import Waybeam.Csa.Session
import Waybeam.Csa.Contain
import Waybeam.Ground.Csa
import Waybeam.Ground.Verify
import Waybeam.Link.Command
import Waybeam.Link.Frame
import Waybeam.Link.Pair
import Waybeam.Link.Revert
import Waybeam.Link.Agreement
import Waybeam.Vehicle.Evidence
import Waybeam.Vehicle.Rate
import Waybeam.Vehicle.Reply
import Waybeam.Vehicle.Recovery
import Waybeam.Ground.Cmd
import Waybeam.Vehicle.Law
import Waybeam.Vehicle.Flap
import Waybeam.Vehicle.Reversal
import Waybeam.Vehicle.SetFec
import Waybeam.Children
import Waybeam.Ground.Lifecycle
import Waybeam.Ground.Stop
import Waybeam.Ground.Orphan
import Waybeam.Ground.Probe
import Waybeam.Link.Probe
import Waybeam.Json
import Waybeam.Link.Contract
import Waybeam.Ground.Purity
import Waybeam.Tokens
import Waybeam.Ground.Config
import Waybeam.Doc
import Waybeam.Ground.Slice
import Waybeam.Ground.Record
import Waybeam.Ground.Scan
import Waybeam.Ground.Forward
import Waybeam.Ground.Lock
import Waybeam.Strtod
import Waybeam.Telemetry.Derive
import Waybeam.Telemetry.Capture
import Waybeam.Telemetry.Conserve
import Waybeam.Telemetry.Store
import Waybeam.Telemetry.Delete
import Waybeam.Vehicle.Sizing
import Waybeam.Vehicle.Ticks
import Waybeam.Vehicle.Absorb
import Waybeam.Vehicle.Dwell
import Waybeam.Vehicle.Quiet
import Waybeam.Vehicle.Ledger
import Waybeam.Csa.Anchor
import Waybeam.Telemetry.Trend
import Waybeam.Shell
import Waybeam.Multicall.ConfigEnv
import Waybeam.Loads
import Waybeam.Telemetry.Columns
import Waybeam.Telemetry.Agree
import Waybeam.Multicall.Keyseed
import Waybeam.Ground.Numbers
import Waybeam.Vehicle.Budget
import Waybeam.Vehicle.Window
import Waybeam.Vehicle.Desync
import Waybeam.Trees
import Waybeam.Spans
import Waybeam.Nesting
import Waybeam.Walk
import Waybeam.Ground.Params
import Waybeam.Ground.Load
import Waybeam.Ground.Overlay
import Waybeam.Ground.Isolation
import Waybeam.Erase
import Waybeam.Ground.Histogram
import Waybeam.Ground.Decode
import Waybeam.Link.Score
import Waybeam.Vehicle.Registry
import Waybeam.Vehicle.Sessions
import Waybeam.Vehicle.Scorer
import Waybeam.Vehicle.Api
import Waybeam.Vehicle.Tunables
import Waybeam.Vehicle.Peers
import Waybeam.EventStream
import Waybeam.Vehicle.Subscribe
import Waybeam.Vehicle.QParam
import Waybeam.Vehicle.Serving
import Waybeam.Packed
import Waybeam.Link.Sidecar
import Waybeam.Probes.Timing
import Waybeam.Probes.Rows
import Waybeam.Probes.Sync
import Waybeam.Welford
import Waybeam.Probes.Summary
import Waybeam.Multicall.KeyFile
import Waybeam.Link.Keys
