import Estree.Ast.Encode
import Estree.Ast.Node
import Estree.Ast.Shape
import Estree.Ast.Tree
import Estree.Command.Arguments
import Estree.Command.Files
import Estree.Command.Response
import Estree.Convert.Context
import Estree.Convert.Expression
import Estree.Convert.Function
import Estree.Convert.Literal
import Estree.Convert.Module
import Estree.Convert.Outcome
import Estree.Convert.Pattern
import Estree.Convert.Program
import Estree.Convert.Statement
import Estree.Cst.Basic
import Estree.Cst.Decode
import Estree.Cst.Diagnostics
import Estree.Cst.Kind
import Estree.Cst.Preorder
import Estree.Json.Basic
import Estree.Json.Difference
import Estree.Json.Parser
import Estree.Json.Printer
import Estree.Main
import Estree.Number.Double
import Estree.Number.Literal
import Estree.Number.Shortest
import Estree.Options
import Estree.Proofs.Built.Basic
import Estree.Proofs.Built.Expression
import Estree.Proofs.Built.Pattern
import Estree.Proofs.Built.Statement
import Estree.Proofs.Checked.Basic
import Estree.Proofs.Checked.Escape
import Estree.Proofs.Checked.LineIndex
import Estree.Proofs.Checked.Program
import Estree.Proofs.Comments
import Estree.Proofs.Conformance
import Estree.Proofs.Containment
import Estree.Proofs.Cst
import Estree.Proofs.Difference
import Estree.Proofs.Digit
import Estree.Proofs.Encode
import Estree.Proofs.Escape.Basic
import Estree.Proofs.Escape.Grammar
import Estree.Proofs.Failure
import Estree.Proofs.Grammar
import Estree.Proofs.Injectivity
import Estree.Proofs.Json
import Estree.Proofs.Layout
import Estree.Proofs.Leaves
import Estree.Proofs.LineIndex
import Estree.Proofs.Log.Basic
import Estree.Proofs.Log.Expression
import Estree.Proofs.Log.Pattern
import Estree.Proofs.Log.Program
import Estree.Proofs.Log.Statement
import Estree.Proofs.Number
import Estree.Proofs.Options
import Estree.Proofs.Order
import Estree.Proofs.Outcome
import Estree.Proofs.Pattern
import Estree.Proofs.Place
import Estree.Proofs.Row
import Estree.Proofs.Simulation.Basic
import Estree.Proofs.Simulation.Descent
import Estree.Proofs.Simulation.Expression
import Estree.Proofs.Simulation.Likeness
import Estree.Proofs.Simulation.Pattern
import Estree.Proofs.Simulation.Statement
import Estree.Proofs.Slices
import Estree.Proofs.Source
import Estree.Proofs.Spans
import Estree.Proofs.Trace
import Estree.Proofs.Tree
import Estree.Proofs.Untyped.Basic
import Estree.Proofs.Untyped.Conversion
import Estree.Regex.Pattern
import Estree.Regex.Property
import Estree.Text.Digit
import Estree.Text.Escape
import Estree.Text.Identifier
import Estree.Text.LineIndex
import Estree.Text.Scanner
import Estree.Text.Source
import Estree.Toml.Basic
import Estree.Toml.Parser
import Estree.Proofs.Escape.Value
import Estree.Proofs.Template
import Estree.Proofs.Target.Basic
import Estree.Proofs.Target.Vocabulary
import Estree.Proofs.Target.Wrapper
import Estree.Proofs.Target.Assigned
import Estree.Proofs.Rounding
import Estree.Proofs.Integer
import Estree.Proofs.Escape.Quote
import Estree.Proofs.Escape.LeadingZeros
import Estree.Proofs.Elision
import Estree.Proofs.Diagnostics
import Estree.Proofs.Sequence.Basic
import Estree.Proofs.Sequence.Frontier
import Estree.Proofs.Module.Basic
import Estree.Proofs.Module.Names
import Estree.Proofs.Module.Modifier
import Estree.Proofs.Position
import Estree.Proofs.Command.Arguments
import Estree.Proofs.Command.Line
import Estree.Proofs.Command.Response
import Estree.Proofs.Recovery
