import TrafficSheet.AddressTree.Basic
import TrafficSheet.Bytes.Lemmas
import TrafficSheet.Canvas.Recording
import TrafficSheet.Capture.Basic
import TrafficSheet.Files.Tree
import TrafficSheet.Main
import TrafficSheet.Proofs.AddressTree.Bound
import TrafficSheet.Proofs.AddressTree.Coarsening
import TrafficSheet.Proofs.AddressTree.FullDetail
import TrafficSheet.Proofs.AddressTree.Labels
import TrafficSheet.Proofs.AddressTree.Nodes
import TrafficSheet.Proofs.Bandwidth.Coarser
import TrafficSheet.Proofs.Capture.GoodPart
import TrafficSheet.Proofs.CommandLine.Outcome
import TrafficSheet.Proofs.Page.BarLabels
import TrafficSheet.Proofs.Page.Summary
import TrafficSheet.Proofs.Pdf.LiteralString
import TrafficSheet.Proofs.Pdf.Page
import TrafficSheet.Proofs.Plot.Dots
import TrafficSheet.Proofs.Ranking.Top
import TrafficSheet.Proofs.Report.AnyOrder
import TrafficSheet.Proofs.Report.Framing
import TrafficSheet.Proofs.Report.Listing
import TrafficSheet.Proofs.Report.Padding
import TrafficSheet.Proofs.Report.Percentages
import TrafficSheet.Proofs.Report.SnapLength
import TrafficSheet.Proofs.Report.Times
