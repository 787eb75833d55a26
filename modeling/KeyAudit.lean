import KeyAudit.Main
import KeyAudit.Proofs.Audit.Complete
import KeyAudit.Proofs.Audit.Order
import KeyAudit.Proofs.Command.Agree
import KeyAudit.Proofs.Command.Boundary
import KeyAudit.Proofs.Resource.Written
import KeyAudit.Proofs.Walk.Reach
import KeyAudit.Proofs.Audit.Events
import KeyAudit.Proofs.Console.Markup
import KeyAudit.Proofs.Console.Writing
import KeyAudit.Proofs.Command.Status
import KeyAudit.Proofs.Audit.Copies
import KeyAudit.Proofs.Audit.Settings
import KeyAudit.Proofs.Audit.Joined
import KeyAudit.Proofs.Resource.Form
import KeyAudit.Proofs.Resource.Lines
import KeyAudit.Proofs.Config.Stored
import KeyAudit.Proofs.CommandLine.Formats
import KeyAudit.Proofs.Resource.Quotes
import KeyAudit.Proofs.Walk.Calls
import KeyAudit.Proofs.Audit.Laws
import KeyAudit.Proofs.Config.Filter
import KeyAudit.Proofs.Config.Grouping
import KeyAudit.Proofs.Console.Verbatim
import KeyAudit.Proofs.Audit.Records
import KeyAudit.Proofs.Finding
import KeyAudit.Proofs.Walk.Inside
import KeyAudit.Proofs.Log.Configuring
import KeyAudit.Proofs.Audit.Limits
