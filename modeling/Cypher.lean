import Cypher.Chain
import Cypher.Clause
import Cypher.Clause.Kind
import Cypher.Clause.Slot
import Cypher.Config
import Cypher.Config.Encoding
import Cypher.Double
import Cypher.Double.Shortest
import Cypher.Double.Text
import Cypher.Environment
import Cypher.Error
import Cypher.Expression
import Cypher.Expression.Kind
import Cypher.Fields
import Cypher.Layout
import Cypher.Operator
import Cypher.Parameter
import Cypher.Path.Range
import Cypher.Pattern
import Cypher.Phrase
import Cypher.Phrase.Layout
import Cypher.Proofs.Carrying
import Cypher.Proofs.Delimiters
import Cypher.Proofs.Distinct
import Cypher.Proofs.Edges
import Cypher.Proofs.Faults
import Cypher.Proofs.Filling
import Cypher.Proofs.Grammar
import Cypher.Proofs.Growth
import Cypher.Proofs.Identification
import Cypher.Proofs.Indentation
import Cypher.Proofs.Levels
import Cypher.Proofs.Naming
import Cypher.Proofs.Parts
import Cypher.Proofs.Quotation
import Cypher.Proofs.Reachability
import Cypher.Proofs.Reading
import Cypher.Proofs.Registration
import Cypher.Proofs.Rendering
import Cypher.Proofs.Renumbering
import Cypher.Proofs.Replacement
import Cypher.Proofs.Spelling
import Cypher.Proofs.Stability
import Cypher.Proofs.Tokens
import Cypher.Proofs.Words
import Cypher.Query
import Cypher.Text.Blank
import Cypher.Text.Block
import Cypher.Text.Decimal
import Cypher.Text.Identifier
import Cypher.Text.Quoted
import Cypher.Value
import Cypher.Variable
import Cypher.Proofs.Unambiguity
import Cypher.Proofs.Succession
import Cypher.Proofs.Clashes
import Cypher.Proofs.Linkage
import Cypher.Proofs.Requests
import Cypher.Proofs.Backing
import Cypher.Proofs.Scanning
import Cypher.Proofs.Decoding
import Cypher.Proofs.Margins
import Cypher.Proofs.Placement
import Cypher.Proofs.Fitting
import Cypher.Proofs.Composition
import Cypher.Proofs.Trimming
import Cypher.Proofs.LeafText
import Cypher.Proofs.Recall
import Cypher.Proofs.Depth
import Cypher.Proofs.Compounds
import Cypher.Proofs.Boundaries
import Cypher.Proofs.Turns
import Cypher.Proofs.Slots
import Cypher.Proofs.Accumulation
import Cypher.Proofs.Runs
import Cypher.Proofs.Hops
import Cypher.Proofs.Choices
import Cypher.Proofs.Interleaving
import Cypher.Proofs.Members
import Cypher.Proofs.Silence
import Cypher.Proofs.Idling
import Cypher.Proofs.Insertion
import Cypher.Proofs.Bodies
import Cypher.Proofs.Keys
import Cypher.Proofs.Lines
