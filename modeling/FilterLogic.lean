import FilterLogic.Main
import FilterLogic.Condition.Trace
import FilterLogic.Proofs.Expr.Completeness
import FilterLogic.Proofs.Expr.Soundness
import FilterLogic.Proofs.Expr.Display
import FilterLogic.Proofs.Expr.Substitution
import FilterLogic.Proofs.Expr.Tiling
import FilterLogic.Proofs.Expr.Conservation
import FilterLogic.Proofs.Expr.Layout
import FilterLogic.Proofs.Expr.Diagnosis
import FilterLogic.Proofs.Expr.Folding
import FilterLogic.Proofs.Request.RoundTrip
import FilterLogic.Proofs.Registry.Requests
import FilterLogic.Proofs.Resolution.Memory
import FilterLogic.Proofs.Resolution.Backends
import FilterLogic.Proofs.Resolution.Walk
import FilterLogic.Proofs.Resolution.Construction
import FilterLogic.Proofs.Resolution.Writes
import FilterLogic.Proofs.Resolution.Validated
import FilterLogic.Proofs.Sql.Parameters
import FilterLogic.Proofs.Sql.Unambiguity
import FilterLogic.Proofs.Text.Like
import FilterLogic.Proofs.Records.Integers
import FilterLogic.Proofs.Records.Operators
import FilterLogic.Proofs.Records.Locality
import FilterLogic.Proofs.Records.Negation
import FilterLogic.Proofs.CommandLine.Runs
import FilterLogic.Proofs.Registry.Contents
import FilterLogic.Proofs.Resolution.Suggestions
import FilterLogic.Proofs.Operator.Spelling
import FilterLogic.Proofs.Report.Colors
