import QueryExec.Evaluation
import QueryExec.Proofs.Execution
import QueryExec.Proofs.PassThrough
import QueryExec.Proofs.PerBinding
import QueryExec.Proofs.Recombination
import QueryExec.Proofs.Reopening
import QueryExec.Proofs.Types.Expressions
import QueryExec.Proofs.Updates
import QueryExec.Proofs.Writes
import QueryExec.Session.Step
import QueryExec.Proofs.Types.Nullability
import QueryExec.Proofs.Action.Tandem
import QueryExec.Proofs.Tandem.Regime
import QueryExec.Proofs.Tandem.Operators
import QueryExec.Proofs.Tandem.Grouping
import QueryExec.Proofs.Tandem.Plans
import QueryExec.Proofs.Modes
import QueryExec.Proofs.Types.Aggregates
import QueryExec.Proofs.Types.Plans
import QueryExec.Proofs.Types.Soundness
import QueryExec.Proofs.Row.Equality
import QueryExec.Proofs.Snapshot
import QueryExec.Proofs.CurrentBinding
import QueryExec.Proofs.Aftermath
import QueryExec.Proofs.Safety.Runs
import QueryExec.Proofs.Independence
import QueryExec.Proofs.Phases
import QueryExec.Proofs.Sharing.Audit
import QueryExec.Proofs.Sharing.Holding
import QueryExec.Proofs.Expr.Wholes
import QueryExec.Proofs.Types.Comparisons
import QueryExec.Proofs.Expr.Exactness
import QueryExec.Proofs.Accumulation
import QueryExec.Proofs.PendingBindings
import QueryExec.Proofs.LazyRows
import QueryExec.Proofs.Expr.Finiteness
import QueryExec.Proofs.Conversion.Floats
import QueryExec.Proofs.Window
import QueryExec.Proofs.Expr.Bits
import QueryExec.Proofs.Expr.Scopes
import QueryExec.Proofs.Conversion.Catalogs
import QueryExec.Proofs.Numbering.Sessions
