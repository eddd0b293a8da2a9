import Vitals.Dispatch
import Vitals.Telemetry
import Vitals.Channel.Error
import Vitals.Session.Lifecycle
import Vitals.Session.Timeline
import Vitals.Decimal.Text
import Vitals.ChartSeries
import Vitals.Channel.Endpoint
import Vitals.Channel.Memory
import Vitals.Channel.Memory.Switchboard
import Vitals.Channel.WebSocket.Pipe
import Vitals.CommandLine.Shutdown
import Vitals.CommandLine.Execution
import Vitals.Main
import Vitals.Proofs.Telemetry.Cursor
import Vitals.Proofs.Telemetry.Operation
import Vitals.Proofs.Telemetry.Window
import Vitals.Proofs.Telemetry.History
import Vitals.Proofs.Wire.Extent
import Vitals.Proofs.Wire.Language
import Vitals.Proofs.Message
import Vitals.Proofs.Framing
import Vitals.Proofs.Session.Duplex
import Vitals.Proofs.Session.RequestLog
import Vitals.Proofs.Session.StatHistory
import Vitals.Proofs.Dispatch
import Vitals.Proofs.Session.Run
import Vitals.Proofs.Session.Timeline
import Vitals.Proofs.Session.Shutdown
import Vitals.Proofs.Session.Inbound
import Vitals.Proofs.Session.Broadcast
import Vitals.Proofs.Session.Outbound
import Vitals.Proofs.Language
import Vitals.Proofs.Batch
import Vitals.Proofs.Exchange
import Vitals.Proofs.Exchange.Discipline
import Vitals.Proofs.Telemetry.Pause
import Vitals.Proofs.Telemetry.Progress
import Vitals.Proofs.Telemetry.Redelivery
import Vitals.Proofs.Telemetry.Seed
import Vitals.Proofs.Channel.Memory
import Vitals.Proofs.Guard
import Vitals.Proofs.Telemetry.Order
import Vitals.Proofs.Reencoding
import Vitals.Proofs.Dispatch.Accounting
import Vitals.Proofs.Telemetry.Tally
import Vitals.Proofs.Session.Polling
import Vitals.Proofs.Exchange.Timeout
import Vitals.Proofs.Text.Blank
import Vitals.Proofs.Channel.Endpoint
import Vitals.Proofs.Channel.Host
import Vitals.Proofs.Report.StatTable
import Vitals.Proofs.Report.EventLine
import Vitals.Proofs.Channel.WebSocket
import Vitals.Proofs.Config.Template
import Vitals.Proofs.ChartSeries
import Vitals.Proofs.Report.Size
import Vitals.Proofs.Rule.Layouts
import Vitals.Proofs.Batch.Visible
import Vitals.Proofs.Wire.Indexed
import Vitals.Proofs.Wire.Calls
import Vitals.Proofs.Wire.Overwrite
import Vitals.Proofs.Text.Boundary
import Vitals.Proofs.Record.Sizes
