import Logo.Main
import Logo.Proofs.Scan.Append
import Logo.Proofs.Scan.Lines
import Logo.Proofs.Scan.RoundTrip
import Logo.Proofs.Evaluation.Limit
import Logo.Proofs.Evaluation.Invariant
import Logo.Proofs.Evaluation.Balance
import Logo.Proofs.Registry.Holders
import Logo.Proofs.Session.Compile
import Logo.Proofs.Session.Rest
import Logo.Proofs.Evaluation.Waiting
import Logo.Proofs.Evaluation.Resume
import Logo.Proofs.Scan.Nesting
import Logo.Proofs.Session.Capture
import Logo.Proofs.Text.Lowercase
import Logo.Proofs.Session.Reentry
import Logo.Proofs.Evaluation.Asking
import Logo.Proofs.Evaluation.Failing
import Logo.Proofs.Primitive.Reading
import Logo.Proofs.Evaluation.Range
import Logo.Proofs.Session.Range
import Logo.Proofs.Evaluation.Stopping
import Logo.Proofs.Evaluation.Leaving
import Logo.Proofs.Session.Pending
import Logo.Proofs.Session.Layout
import Logo.Proofs.Registry.ClosedForm
import Logo.Proofs.Evaluation.Likeness
import Logo.Proofs.Primitive.Likeness
import Logo.Proofs.Session.Likeness
import Logo.Proofs.Session.Reads
import Logo.Proofs.Session.Verbosity
import Logo.Proofs.Session.Redefinition
import Logo.Proofs.Decimal.Numeral
import Logo.Proofs.Operator.Tiers
import Logo.Proofs.Evaluation.Infix
import Logo.Proofs.Primitive.Equality
import Logo.Proofs.Scan.Characters
import Logo.Proofs.Primitive.Building
import Logo.Proofs.Evaluation.Simulation
import Logo.Proofs.Evaluation.Comments
import Logo.Proofs.Primitive.Pieces
import Logo.Proofs.Primitive.Storing
import Logo.Proofs.Evaluation.Supply
import Logo.Proofs.Operator.Unset
import Logo.Proofs.Decimal.Division
import Logo.Proofs.Session.Script
import Logo.Proofs.Evaluation.Shortage
import Logo.Proofs.Session.Unfinished
import Logo.Proofs.Scope.Store
import Logo.Proofs.Evaluation.InPlace
