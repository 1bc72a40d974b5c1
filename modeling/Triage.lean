import Triage.Proofs.Query.RoundTrip
import Triage.Proofs.Expr.Congruence
import Triage.Proofs.Shared.Memo
import Triage.Proofs.Search.Links
import Triage.Proofs.Query.Completion
import Triage.Proofs.Catalog.Leaves
import Triage.Proofs.Search.Normal
import Triage.Proofs.Expr.Contents
import Triage.Proofs.Query.Brackets
import Triage.Proofs.Expr.Respelled
import Triage.Proofs.Catalog.Variants
import Triage.Proofs.Expr.Entries
import Triage.Proofs.Warning.Spelling
import Triage.Proofs.Issue.Json
import Triage.Proofs.Issue.Union
import Triage.Proofs.Search.Url
import Triage.Proofs.Expr.Depth
import Triage.Proofs.Scan.Calls
import Triage.Catalog.Basic
