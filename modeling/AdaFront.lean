import AdaFront.Main
import AdaFront.Symbols.Command
import AdaFront.Proofs.Grammar
import AdaFront.Proofs.Lookahead
import AdaFront.Proofs.Prediction
import AdaFront.Proofs.TaskForms
import AdaFront.Proofs.Running
import AdaFront.Proofs.Recognition
import AdaFront.Proofs.Lexing
import AdaFront.Proofs.Elaboration
import AdaFront.Proofs.TableLinks
import AdaFront.Proofs.TableRuns
import AdaFront.Proofs.Scoping
import AdaFront.Proofs.Leading
import AdaFront.Proofs.ExpressionWalk
import AdaFront.Proofs.Mirroring
import AdaFront.Proofs.StatementWalk
import AdaFront.Proofs.DeclarationWalk
import AdaFront.Proofs.Refinement
import AdaFront.Proofs.Trees
import AdaFront.Proofs.Coverage
import AdaFront.Proofs.Deeds
import AdaFront.Proofs.Actions
import AdaFront.Proofs.ScopeDiscipline
import AdaFront.Proofs.Feeding
import AdaFront.Proofs.Renaming
import AdaFront.Proofs.Parallel
import AdaFront.Proofs.TokenDependence
import AdaFront.Proofs.Termination
import AdaFront.Proofs.LinesRead
import AdaFront.Proofs.Attempts
import AdaFront.Proofs.Handles
import AdaFront.Proofs.Deliveries
import AdaFront.Proofs.TextLines
import AdaFront.Proofs.Wording
import AdaFront.Proofs.Verbosity
import AdaFront.Proofs.Additions
import AdaFront.Proofs.Places
import AdaFront.Proofs.Finality
import AdaFront.Proofs.Accounting
import AdaFront.Proofs.Characters
import AdaFront.Proofs.Covering
import AdaFront.Proofs.NameErrors
import AdaFront.Proofs.ExactArithmetic
import AdaFront.Proofs.Evaluation
import AdaFront.Proofs.Exponentiation
import AdaFront.Proofs.Identifiers
import AdaFront.Proofs.NameInvariance
import AdaFront.Proofs.NameLists
import AdaFront.Proofs.Phases
import AdaFront.Proofs.RoleDiscipline
import AdaFront.Proofs.ScopeTrace
import AdaFront.Proofs.TableCommands
import AdaFront.Proofs.ScopeDumps
import AdaFront.Proofs.Layouts
import AdaFront.Proofs.Positions
import AdaFront.Proofs.Streaming
import AdaFront.Proofs.NameGroups
import AdaFront.Proofs.Alignment
import AdaFront.Proofs.FileTrees
import AdaFront.Proofs.CommandEffects
