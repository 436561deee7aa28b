import SinkReach.Command.Run
import SinkReach.Config.Writer
import SinkReach.Main
import SinkReach.Pattern.Json
import SinkReach.Proofs.Canonical.Constructions
import SinkReach.Proofs.Pool.Reports
import SinkReach.Term.Build
import SinkReach.Proofs.Canonical.Sorts
import SinkReach.Proofs.Checks
import SinkReach.Proofs.PathOrder
import SinkReach.Proofs.Batch
import SinkReach.Proofs.Csv
import SinkReach.Proofs.Files
import SinkReach.Proofs.SpanTable
import SinkReach.Proofs.InProcess
import SinkReach.Proofs.Pattern.Template
import SinkReach.Proofs.ReportDocument
import SinkReach.Proofs.Scan
import SinkReach.Proofs.PathJoin
import SinkReach.Proofs.Arithmetic
import SinkReach.Proofs.Canonical.Size
import SinkReach.Proofs.Building
import SinkReach.Proofs.Rows
import SinkReach.Proofs.Accounting
import SinkReach.Proofs.Builders
import SinkReach.Proofs.Width
import SinkReach.Proofs.Layers
import SinkReach.Proofs.Precedence
import SinkReach.Proofs.Collection
