import SparqlSelect.Json.Writer
import SparqlSelect.Proofs.Compile.Accepted
import SparqlSelect.Proofs.Compile.AggregateBranches
import SparqlSelect.Proofs.Compile.Agreement
import SparqlSelect.Proofs.Compile.Aliases
import SparqlSelect.Proofs.Compile.Answers
import SparqlSelect.Proofs.Compile.Assembly
import SparqlSelect.Proofs.Compile.Braces
import SparqlSelect.Proofs.Compile.ClauseOrder
import SparqlSelect.Proofs.Compile.Elements
import SparqlSelect.Proofs.Compile.Fragments
import SparqlSelect.Proofs.Compile.Ignored
import SparqlSelect.Proofs.Compile.Operations
import SparqlSelect.Proofs.Compile.OwnKeys
import SparqlSelect.Proofs.Compile.Prologue
import SparqlSelect.Proofs.Compile.RepeatedClauses
import SparqlSelect.Proofs.Compile.Selection
import SparqlSelect.Proofs.Compile.Sessions
import SparqlSelect.Proofs.Compile.Values
import SparqlSelect.Proofs.Filter.Areas
import SparqlSelect.Proofs.Filter.Escapes
import SparqlSelect.Proofs.Filter.Intervals
import SparqlSelect.Proofs.Filter.Ordering
import SparqlSelect.Proofs.Fragment.Brackets
import SparqlSelect.Proofs.Fragment.LocalNames
import SparqlSelect.Proofs.Fragment.Nesting
import SparqlSelect.Proofs.Query.Faithful
import SparqlSelect.Proofs.Query.Indentation
import SparqlSelect.Proofs.Query.Variables
import SparqlSelect.Proofs.Request.Forms
import SparqlSelect.Proofs.Request.Paths
import SparqlSelect.Proofs.Service.Numbers
import SparqlSelect.Proofs.Settings.RoundTrip
import SparqlSelect.Settings.Yaml
