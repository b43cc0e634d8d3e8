import Retag.Main
import Retag.Session
import Retag.Proofs.CommandLine.Run
import Retag.Proofs.Manifest.Plain
import Retag.Proofs.Number.Rounding
import Retag.Proofs.Number.Shortest
import Retag.Proofs.Number.Decimal
import Retag.Proofs.Document.Spans
import Retag.Proofs.Manifest.Entry
import Retag.Proofs.Manifest.Shelf
import Retag.Proofs.Manifest.Fault
import Retag.Proofs.Manifest.Effect
import Retag.Proofs.Markup.Token.Double
import Retag.Proofs.Markup.Mirror
import Retag.Proofs.Markup.Float
import Retag.Proofs.Calendar.Timestamp
import Retag.Proofs.Markup.Loaded
import Retag.Proofs.Markup.Built
import Retag.Proofs.Manifest.Stable
import Retag.Proofs.Manifest.Frame
import Retag.Proofs.CommandLine.Exit
import Retag.Proofs.CommandLine.DryRun
import Retag.Proofs.CommandLine.Arguments
import Retag.Proofs.Hook
import Retag.Session.Step
import Retag.Proofs.Session
import Retag.Proofs.Manifest.Locate
import Retag.Proofs.Manifest.Quoting
import Retag.Proofs.Journal.Setup
import Retag.Proofs.Session.Launch
import Retag.Proofs.CommandLine.Options
import Retag.Proofs.Version
import Retag.Proofs.Manifest.LineEnds
