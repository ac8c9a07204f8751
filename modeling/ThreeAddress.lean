import ThreeAddress.Text.Basic
import ThreeAddress.Text.Piece
import ThreeAddress.Text.Printable
import ThreeAddress.Text.Quoted
import ThreeAddress.Text.Template
import ThreeAddress.Position
import ThreeAddress.Instr
import ThreeAddress.Program
import ThreeAddress.NameSupply
import ThreeAddress.Log
import ThreeAddress.Symbol.Basic
import ThreeAddress.Symbol.Table
import ThreeAddress.Diagnostic.Fault
import ThreeAddress.Diagnostic.Sinks
import ThreeAddress.Script.Terms
import ThreeAddress.Script.Lists
import ThreeAddress.Request
import ThreeAddress.Script.Emission
import ThreeAddress.Metric
import ThreeAddress.Compilation.Basic
import ThreeAddress.Compilation.Setting
import ThreeAddress.Script.Statement
import ThreeAddress.Session.Basic
import ThreeAddress.Session.Lowering
import ThreeAddress.Session.Run
import ThreeAddress.Proofs.Host
import ThreeAddress.Proofs.Names
import ThreeAddress.Proofs.Effects
import ThreeAddress.Proofs.Temporaries
import ThreeAddress.Proofs.Unbounded
import ThreeAddress.Proofs.Machine
import ThreeAddress.Proofs.Structured
import ThreeAddress.Proofs.Meaning
import ThreeAddress.Proofs.Chronicle
import ThreeAddress.Proofs.Labels
import ThreeAddress.Proofs.Journal
import ThreeAddress.Proofs.Tables
import ThreeAddress.Proofs.Reports
import ThreeAddress.Proofs.Metrics
import ThreeAddress.Proofs.Footprint
import ThreeAddress.Proofs.Growth
import ThreeAddress.Proofs.Failures
import ThreeAddress.Proofs.Operands
import ThreeAddress.Proofs.Strokes
import ThreeAddress.Proofs.Independence
import ThreeAddress.Proofs.Reading
import ThreeAddress.Proofs.Declarations
import ThreeAddress.Proofs.Observation
import ThreeAddress.Proofs.Marks
import ThreeAddress.Proofs.Relocation
import ThreeAddress.Proofs.FaultTrees
import ThreeAddress.Proofs.Writers
import ThreeAddress.Proofs.Deliveries
import ThreeAddress.Proofs.Spans
import ThreeAddress.Proofs.Coordinates
import ThreeAddress.Proofs.Dumps
import ThreeAddress.Proofs.Starts
import ThreeAddress.Proofs.Traces
import ThreeAddress.Proofs.Numbering
import ThreeAddress.Proofs.Requests
