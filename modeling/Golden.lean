import Golden.Main
import Golden.Proofs.CommandLine.Modes
import Golden.Proofs.Comparison.Expectation
import Golden.Proofs.Config.Reloaded
import Golden.Proofs.Line.Cursor
import Golden.Proofs.Line.Inserted
import Golden.Proofs.Line.Isolated
import Golden.Proofs.Line.Padding
import Golden.Proofs.Report.Reread
import Golden.Proofs.Screenshot.Blessed
import Golden.Proofs.Screenshot.Classified
import Golden.Proofs.Screenshot.Pictured
import Golden.Proofs.Screenshot.Reloaded
import Golden.Proofs.Line.Missing
import Golden.Proofs.Line.Changed
import Golden.Proofs.Line.Reached
import Golden.Proofs.Screenshot.Header
import Golden.Proofs.Annotation.WorkflowCommand
import Golden.Proofs.Screenshot.Visible
import Golden.Proofs.Screenshot.Untouched
import Golden.Proofs.Comparison.Findings
import Golden.Proofs.Pixel.Converted
