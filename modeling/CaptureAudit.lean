import CaptureAudit.Main
import CaptureAudit.Proofs.Analysis.Classification
import CaptureAudit.Proofs.Analysis.MemberOrder
import CaptureAudit.Proofs.Analysis.Scalars
import CaptureAudit.Proofs.Capture.Paths
import CaptureAudit.Proofs.Capture.Recursion
import CaptureAudit.Proofs.Command.Formats
import CaptureAudit.Proofs.Command.Verdict
import CaptureAudit.Proofs.Files.Listing
import CaptureAudit.Proofs.Json.CutTexts
import CaptureAudit.Proofs.Json.Locality
import CaptureAudit.Proofs.Key.ByValue
import CaptureAudit.Proofs.Report.Details
import CaptureAudit.Proofs.Report.Faithful
import CaptureAudit.Proofs.Report.KeyLists
import CaptureAudit.Proofs.Report.Range
import CaptureAudit.Proofs.Report.Recovered
import CaptureAudit.Proofs.Scan.Accounts
import CaptureAudit.Proofs.Scan.Truncation
import CaptureAudit.Proofs.Summary.AnyOrder
import CaptureAudit.Proofs.Yaml.Strings
