import TypedEval.Ty
import TypedEval.Text.Escaped
import TypedEval.Text.Quoted
import TypedEval.Fault
import TypedEval.Decimal.Shortest
import TypedEval.Decimal.Text
import TypedEval.Arith
import TypedEval.Range
import TypedEval.Layout
import TypedEval.Function
import TypedEval.Value.Basic
import TypedEval.Value.Builder
import TypedEval.Value.View
import TypedEval.Value.Elements
import TypedEval.Value.Text
import TypedEval.Value.Equality
import TypedEval.Frame
import TypedEval.Run
import TypedEval.Closure
import TypedEval.Script
import TypedEval.Node.Basic
import TypedEval.Node.Build
import TypedEval.Node.Eval
import TypedEval.Code
import TypedEval.Call
import TypedEval.Call.Depth
import TypedEval.Builtin.Math
import TypedEval.Builtin.Sequence
import TypedEval.Builtin.Registry
import TypedEval.Builtin.Host
import TypedEval.Program
import TypedEval.Proofs.Discipline
import TypedEval.Proofs.Check
import TypedEval.Proofs.Arith
import TypedEval.Proofs.Frame
import TypedEval.Proofs.Locality
import TypedEval.Proofs.Renaming.Values
import TypedEval.Proofs.Renaming.Frames
import TypedEval.Proofs.Renaming.Stores
import TypedEval.Proofs.Renaming.Natives
import TypedEval.Proofs.Renaming.Evaluation
import TypedEval.Proofs.Renaming.Closed
import TypedEval.Proofs.Reexecution
import TypedEval.Proofs.Closure.Basic
import TypedEval.Proofs.Closure.Lasting
import TypedEval.Proofs.Closure.Snapshot
import TypedEval.Proofs.Closure.Transfer
import TypedEval.Proofs.Typing.Basic
import TypedEval.Proofs.Value.Sequences
import TypedEval.Proofs.Typing.Admitted
import TypedEval.Proofs.Typing.Frames
import TypedEval.Proofs.Typing.Closures
import TypedEval.Proofs.Typing.Sequences
import TypedEval.Proofs.Typing.Builtins
import TypedEval.Proofs.Node.Accepted
import TypedEval.Proofs.Typing.Evaluation
import TypedEval.Proofs.Typing.Soundness
import TypedEval.Proofs.View.Positions
import TypedEval.Proofs.View.Slicing
import TypedEval.Proofs.View.Chains
import TypedEval.Proofs.History.Basic
import TypedEval.Proofs.History.Backtrace
import TypedEval.Proofs.History.Session
import TypedEval.Proofs.Value.Members
import TypedEval.Proofs.Value.Enumeration
import TypedEval.Proofs.Range
import TypedEval.Proofs.Value.Packed
import TypedEval.Proofs.View.Access
import TypedEval.Proofs.Value.Building
import TypedEval.Proofs.Value.Equality
import TypedEval.Proofs.Value.References
import TypedEval.Proofs.Node.Items
import TypedEval.Proofs.SelfReference.Basic
import TypedEval.Proofs.SelfReference.Natives
import TypedEval.Proofs.SelfReference.Knots
import TypedEval.Proofs.SelfReference.History
import TypedEval.Proofs.SelfReference.Evaluation
import TypedEval.Proofs.SelfReference.Session
import TypedEval.Proofs.Builtin.Protocol
import TypedEval.Proofs.Builtin.Callbacks
import TypedEval.Proofs.Boxed.Basic
import TypedEval.Proofs.Boxed.Agreement
import TypedEval.Proofs.Boxed.Evaluation
import TypedEval.Proofs.Boxed.Calls
import TypedEval.Proofs.Termination.Reducible
import TypedEval.Proofs.Termination.Places
import TypedEval.Proofs.Termination.Evaluation
import TypedEval.Proofs.Termination.Calls
import TypedEval.Proofs.Termination.Programs
import TypedEval.Proofs.Readability
import TypedEval.Proofs.Builtin.Registrations
import TypedEval.Proofs.Frame.Representation
import TypedEval.Proofs.Identity.Basic
import TypedEval.Proofs.Identity.Erasure
import TypedEval.Proofs.Identity.Accounts
import TypedEval.Proofs.Identity.Instances
import TypedEval.Proofs.Identity.Evaluation
