import CircuitScript.Blueprint.Basic
import CircuitScript.Blueprint.Decode
import CircuitScript.Blueprint.Entity
import CircuitScript.Blueprint.Exchange
import CircuitScript.Blueprint.Format
import CircuitScript.Blueprint.Grid
import CircuitScript.Blueprint.Position
import CircuitScript.Blueprint.Record
import CircuitScript.Cli.Arguments
import CircuitScript.Cli.Run
import CircuitScript.Codec.Base64
import CircuitScript.Codec.Deflate
import CircuitScript.Codec.Huffman
import CircuitScript.Codec.Zlib
import CircuitScript.Compile
import CircuitScript.Error
import CircuitScript.Event
import CircuitScript.Expr.Basic
import CircuitScript.Expr.Operator
import CircuitScript.Expr.Reader
import CircuitScript.Expr.Simplify
import CircuitScript.Formula.Class
import CircuitScript.Formula.Declaration
import CircuitScript.Formula.Expression
import CircuitScript.Formula.Form
import CircuitScript.Formula.Function
import CircuitScript.Formula.Letter
import CircuitScript.Formula.Module
import CircuitScript.Formula.Numeral
import CircuitScript.Formula.Object
import CircuitScript.Formula.Pattern
import CircuitScript.Formula.Program
import CircuitScript.Formula.Reader
import CircuitScript.Formula.Statement
import CircuitScript.Formula.Token
import CircuitScript.Formula.Type
import CircuitScript.Json.Basic
import CircuitScript.Json.Decode
import CircuitScript.Json.Number
import CircuitScript.Json.Reader
import CircuitScript.Json.Writer
import CircuitScript.Layout.Draft
import CircuitScript.Layout.Lower
import CircuitScript.Layout.Place
import CircuitScript.Layout.Route
import CircuitScript.Main
import CircuitScript.Names
import CircuitScript.Number.Binary64
import CircuitScript.Number.Shortest
import CircuitScript.Proofs.Assignment
import CircuitScript.Proofs.AssignmentFeedback
import CircuitScript.Proofs.AssignmentWiring
import CircuitScript.Proofs.BlueprintRoundTrip
import CircuitScript.Proofs.CallPlaces
import CircuitScript.Proofs.Centering
import CircuitScript.Proofs.Clearance
import CircuitScript.Proofs.CodecRoundTrip
import CircuitScript.Proofs.Collision
import CircuitScript.Proofs.CompileOutcome
import CircuitScript.Proofs.Condition
import CircuitScript.Proofs.Connectivity
import CircuitScript.Proofs.ConstructShape
import CircuitScript.Proofs.Construction
import CircuitScript.Proofs.CursorMoves
import CircuitScript.Proofs.DecodedBlueprint
import CircuitScript.Proofs.Emission
import CircuitScript.Proofs.EqualityDoubling
import CircuitScript.Proofs.ErrorPlace
import CircuitScript.Proofs.Evaluation
import CircuitScript.Proofs.ExpressionReading
import CircuitScript.Proofs.ExpressionText
import CircuitScript.Proofs.FormulaNames
import CircuitScript.Proofs.GateReaders
import CircuitScript.Proofs.Grammar
import CircuitScript.Proofs.Inventory
import CircuitScript.Proofs.JsonExtent
import CircuitScript.Proofs.JsonRoundTrip
import CircuitScript.Proofs.LayoutActs
import CircuitScript.Proofs.LayoutEffects
import CircuitScript.Proofs.LayoutPlan
import CircuitScript.Proofs.LayoutRun
import CircuitScript.Proofs.LoopFeedback
import CircuitScript.Proofs.NormalForm
import CircuitScript.Proofs.NumeralReading
import CircuitScript.Proofs.NumericNames
import CircuitScript.Proofs.Occupancy
import CircuitScript.Proofs.Outcome
import CircuitScript.Proofs.Payload
import CircuitScript.Proofs.Realization
import CircuitScript.Proofs.RecordReading
import CircuitScript.Proofs.RelayTiles
import CircuitScript.Proofs.RouteChain
import CircuitScript.Proofs.RouteReach
import CircuitScript.Proofs.RouteStrokes
import CircuitScript.Proofs.Routing
import CircuitScript.Proofs.ScopeCalls
import CircuitScript.Proofs.ScratchHygiene
import CircuitScript.Proofs.ScratchPool
import CircuitScript.Proofs.ScratchTaking
import CircuitScript.Proofs.ScriptReading
import CircuitScript.Proofs.ScriptShape
import CircuitScript.Proofs.Settlement
import CircuitScript.Proofs.Simplification
import CircuitScript.Proofs.SpatialIndex
import CircuitScript.Proofs.StepOutcome
import CircuitScript.Proofs.StepSequence
import CircuitScript.Proofs.TruthPreservation
import CircuitScript.Proofs.WireReach
import CircuitScript.Proofs.Wiring
import CircuitScript.Scope
import CircuitScript.Script.Context
import CircuitScript.Script.Cursor
import CircuitScript.Script.Decompose
import CircuitScript.Script.Json
import CircuitScript.Script.Node
import CircuitScript.Script.Parser
import CircuitScript.Signal
import CircuitScript.Text.Blank
import CircuitScript.Text.Identifier
import CircuitScript.Text.Quoted
import CircuitScript.Text.Range
import CircuitScript.Text.Unseen
