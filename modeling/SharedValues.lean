import SharedValues.Call
import SharedValues.CommandLine
import SharedValues.Console
import SharedValues.Fault
import SharedValues.Harness
import SharedValues.Json.Document
import SharedValues.Json.Text
import SharedValues.Json.Token
import SharedValues.Literal
import SharedValues.Loop
import SharedValues.Main
import SharedValues.Method
import SharedValues.Proofs.Agreement.Bisimulation
import SharedValues.Proofs.Agreement.Depth
import SharedValues.Proofs.Agreement.Leading
import SharedValues.Proofs.Agreement.Strictness
import SharedValues.Proofs.Effect.Frame
import SharedValues.Proofs.Effect.InPlace
import SharedValues.Proofs.Harness.Judgement
import SharedValues.Proofs.Json.Reading
import SharedValues.Proofs.Json.Scanning
import SharedValues.Proofs.Literal.EscapedQuotes
import SharedValues.Proofs.Literal.RoundTrip
import SharedValues.Proofs.Literal.Unquoted
import SharedValues.Proofs.Loop.Bounded
import SharedValues.Proofs.Loop.History
import SharedValues.Proofs.Loop.Live
import SharedValues.Proofs.Method.Index
import SharedValues.Proofs.Method.Insertion
import SharedValues.Proofs.Operator.Associativity
import SharedValues.Proofs.Operator.Congruence
import SharedValues.Proofs.Operator.Containment
import SharedValues.Proofs.Order.Equality
import SharedValues.Proofs.Order.Lexicographic
import SharedValues.Proofs.Order.Mirror
import SharedValues.Proofs.Order.WeakOrder
import SharedValues.Proofs.Path.Trail
import SharedValues.Proofs.Path.Walks
import SharedValues.Proofs.Render.Printable
import SharedValues.Proofs.Render.Recursion
import SharedValues.Proofs.Report.Composition
import SharedValues.Proofs.Report.Consistency
import SharedValues.Proofs.Report.Document
import SharedValues.Proofs.Report.Tally
import SharedValues.Proofs.Script.Printing
import SharedValues.Proofs.Store.Acyclic
import SharedValues.Proofs.Store.Closed
import SharedValues.Proofs.Store.Extension
import SharedValues.Proofs.Store.Renaming
import SharedValues.Proofs.Text.Encoding
import SharedValues.Proofs.Transcript.Parting
import SharedValues.Proofs.Tree.Agreement
import SharedValues.Proofs.Tree.Denotation
import SharedValues.Proofs.Tree.Order
import SharedValues.Proofs.Tree.Recursion
import SharedValues.Proofs.Tree.Written
import SharedValues.Report.Basic
import SharedValues.Report.Document
import SharedValues.Report.Summary
import SharedValues.Runner
import SharedValues.Scenario
import SharedValues.Script.Machine
import SharedValues.Script.Record
import SharedValues.Script.Run
import SharedValues.Script.Syntax
import SharedValues.Store.Access
import SharedValues.Store.Basic
import SharedValues.Store.Path
import SharedValues.Store.Reach
import SharedValues.Text.Character
import SharedValues.Text.Digits
import SharedValues.Text.Unicode
import SharedValues.Transcript
import SharedValues.Value
import SharedValues.Value.Bisimilar
import SharedValues.Value.Equality
import SharedValues.Value.Operators
import SharedValues.Value.Order
import SharedValues.Value.Render
import SharedValues.Value.Tree
