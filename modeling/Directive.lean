import Directive.Call.Grammar
import Directive.Config.Load
import Directive.Config.Trusted
import Directive.Log.Family
import Directive.Placeholder
import Directive.Proofs.Document.Recognition
import Directive.Registry
import Directive.Stock
import Directive.Value.Plain
import Directive.Proofs.Call.Format
import Directive.Proofs.Alignment
import Directive.Proofs.Call.Alignment
import Directive.Proofs.Document.Canonical
import Directive.Proofs.Placeholder.Extraction
import Directive.Proofs.Placeholder.Pipeline
import Directive.Proofs.Render.Failure
import Directive.Proofs.Document.Tiling
import Directive.Proofs.LineIndex
import Directive.Proofs.Document.Cut
import Directive.Proofs.Placeholder.Collision
import Directive.Proofs.Placeholder.Candidates
import Directive.Proofs.Document.Splice
import Directive.Proofs.Render.Policy
import Directive.Proofs.Numeral
import Directive.Proofs.Render.Effects
import Directive.Proofs.Literal.RoundTrip
import Directive.Proofs.Document.Surroundings
import Directive.Proofs.Literal.Diagnosis
import Directive.Proofs.Placeholder.Restoring
import Directive.Proofs.Placeholder.Exactness
import Directive.Proofs.Document.Positions
import Directive.Proofs.Literal.Integers
import Directive.Proofs.Record
import Directive.Proofs.Arguments
import Directive.Registry.Run
import Directive.Proofs.Document.Names
import Directive.Proofs.Config.Validation
import Directive.Proofs.Text.Pieces
import Directive.Proofs.Debug
import Directive.Proofs.FileTree
import Directive.Proofs.Config.Loading
import Directive.Proofs.Log.Family
import Directive.Proofs.Literal.Nesting
import Directive.Proofs.Literal.Moving
import Directive.Proofs.Literal.Scan
