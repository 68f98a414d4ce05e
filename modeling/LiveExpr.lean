import LiveExpr.Text.Normal
import LiveExpr.Text.Grapheme
import LiveExpr.Text.Quoted
import LiveExpr.Text.Base64
import LiveExpr.Uuid
import LiveExpr.Sha384
import LiveExpr.Number.Layout
import LiveExpr.Time.IsoText
import LiveExpr.Json.Printer
import LiveExpr.Json.Parser
import LiveExpr.TreeForm.Expr
import LiveExpr.TreeForm.Ty
import LiveExpr.Value.Equality
import LiveExpr.Codec.Roundtrip
import LiveExpr.Codec.Queryable
import LiveExpr.Codec.MachineJson
import LiveExpr.Codec.Developer
import LiveExpr.Codec.EndUser
import LiveExpr.Codec.Hashable
import LiveExpr.Typing.Unify
import LiveExpr.Assoc
import LiveExpr.Eval.Interpreter
import LiveExpr.Eval.Execution
import LiveExpr.Stdlib
import LiveExpr.CommandLine
import LiveExpr.Session.Basic
import LiveExpr.Main
import LiveExpr.Proofs.WellFormed
import LiveExpr.Proofs.Unobserved
import LiveExpr.Proofs.Nodes
import LiveExpr.Proofs.Replaying
import LiveExpr.Proofs.Replay
import LiveExpr.Proofs.JsonText
import LiveExpr.Proofs.Calendar
import LiveExpr.Proofs.Encodings
import LiveExpr.Proofs.Rounding
import LiveExpr.Proofs.RoundTrip
import LiveExpr.Proofs.Words
import LiveExpr.Proofs.Rereading
import LiveExpr.Proofs.Keys
import LiveExpr.Proofs.Kernel
import LiveExpr.Proofs.ShownNames
import LiveExpr.Proofs.Frames
import LiveExpr.Proofs.Confinement
import LiveExpr.Proofs.Mirroring
import LiveExpr.Proofs.Recall
import LiveExpr.Proofs.Agreement
import LiveExpr.Proofs.Stored
import LiveExpr.Proofs.Unchanged
import LiveExpr.Proofs.Redaction
import LiveExpr.Proofs.Parts
import LiveExpr.Proofs.Regime
import LiveExpr.Proofs.Reached
import LiveExpr.Proofs.Kinds
import LiveExpr.Proofs.Boundary
import LiveExpr.Proofs.Sparing
import LiveExpr.Proofs.Attribution
import LiveExpr.Proofs.Finishing
import LiveExpr.Proofs.FirstOrder
import LiveExpr.Proofs.Inhabitation
import LiveExpr.Proofs.Fuel
import LiveExpr.Proofs.Patterns
import LiveExpr.Proofs.Cases
import LiveExpr.Proofs.Occurrences
import LiveExpr.Proofs.Lockstep
import LiveExpr.Proofs.Scoping
import LiveExpr.Proofs.Reports
import LiveExpr.Proofs.Library
import LiveExpr.Proofs.Places
import LiveExpr.Proofs.TakenPath
import LiveExpr.Proofs.LiveValues
import LiveExpr.Proofs.PlainData
import LiveExpr.Proofs.Restoring
import LiveExpr.Proofs.Transparency
import LiveExpr.Proofs.Unhashed
import LiveExpr.Proofs.Accordance
import LiveExpr.Proofs.TreeForms
import LiveExpr.Proofs.Dispatch
import LiveExpr.Proofs.Signatures
import LiveExpr.Proofs.Syllables
import LiveExpr.Proofs.Lookups
import LiveExpr.Proofs.Reprinting
import LiveExpr.Proofs.Arguments
