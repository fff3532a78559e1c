import Sceptre.Foundation.OrderedDict
import Sceptre.Interpreter.Outcomes
import Sceptre.Runtime.Pipeline
import Sceptre.Runtime.Conservation
import Sceptre.Runtime.Gapless
import Sceptre.Runtime.Labels
import Sceptre.Metrics.Books
import Sceptre.Metrics.Transmission
import Sceptre.Runtime.Isolation
import Sceptre.Metrics.LossReport
import Sceptre.Wire.Encoding
import Sceptre.Metrics.Untimed
import Sceptre.Foundation.Fifo
import Sceptre.Threads.Queue
import Sceptre.Threads.Source
import Sceptre.Threads.Accounting
import Sceptre.Threads.System
import Sceptre.Threads.Wakeup
import Sceptre.Buffer.Accounts
import Sceptre.Runtime.FinalFlush
import Sceptre.Buffer.Undated
import Sceptre.Runtime.Undated
import Sceptre.Threads.Projections
import Sceptre.Threads.Capture
import Sceptre.Threads.Program
import Sceptre.Threads.Replay
import Sceptre.Threads.RoundTrip
import Sceptre.Foundation.Layout
import Sceptre.Wire.HeaderLayout
import Sceptre.Interpreter.Datagram
import Sceptre.Wire.ContextLayout
import Sceptre.Foundation.Reorder
import Sceptre.Metrics.Reordering
import Sceptre.Foundation.Sweep
import Sceptre.Foundation.Hull
import Sceptre.Metrics.GapIntegral
import Sceptre.Metrics.Efficiency
import Sceptre.Metrics.Masking
import Sceptre.Foundation.Windows
import Sceptre.Wire.PayloadFormat
import Sceptre.Foundation.Triple
import Sceptre.Buffer.Rules
import Sceptre.Buffer.Stitching
import Sceptre.Buffer.Representation
import Sceptre.Runtime.Framing
import Sceptre.Foundation.Admission
import Sceptre.Threads.Recording
import Sceptre.Foundation.Variant
import Sceptre.Threads.Unwind
import Sceptre.Threads.Ending
import Sceptre.Threads.Exit
import Sceptre.Windowing.Bounded
import Sceptre.Threads.Balance
import Sceptre.Wire.SampleSize
import Sceptre.Threads.Memory
import Sceptre.Foundation.Groups
import Sceptre.Foundation.Tally
import Sceptre.Foundation.Climb
import Sceptre.Runtime.Sender
import Sceptre.Runtime.Contents
import Sceptre.Runtime.Latency
import Sceptre.Runtime.Heartbeat
import Sceptre.Metrics.Throughput
import Sceptre.Interpreter.Logging
import Sceptre.Interpreter.Audit
import Sceptre.Threads.Delivery
import Sceptre.Threads.ReceiveUdp
import Sceptre.Threads.Captured
import Sceptre.Threads.Recovery
import Sceptre.Threads.Pacing
import Sceptre.Threads.Sequential
import Sceptre.Runtime.Counters
import Sceptre.Threads.Losses
