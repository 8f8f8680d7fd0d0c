import RecordQuery.Condition.Outline
import RecordQuery.Condition.Structure
import RecordQuery.Evaluation
import RecordQuery.QueryCache.Setting
import RecordQuery.Registry.Structure
import RecordQuery.Workspace
import RecordQuery.Proofs.Evaluation.Complement
import RecordQuery.Proofs.Grammar.Completeness
import RecordQuery.Proofs.Grammar.Soundness
import RecordQuery.Proofs.Compile.Binding
import RecordQuery.Proofs.Compile.Acceptance
import RecordQuery.Proofs.Compile.Meaning
import RecordQuery.Proofs.QueryCache.OrderOfUse
import RecordQuery.Proofs.QueryCache.Valid
import RecordQuery.Proofs.QueryCache.RecencyList
import RecordQuery.Proofs.QueryCache.Refinement
import RecordQuery.Proofs.QueryCache.Contents
import RecordQuery.Proofs.Workspace.Transparency
import RecordQuery.Proofs.Evaluation.Trials
import RecordQuery.Proofs.Compile.Shape
import RecordQuery.Proofs.Evaluation.ShortCircuit
import RecordQuery.Proofs.Token.Boundary
import RecordQuery.Proofs.Token.Scans
import RecordQuery.Proofs.Token.Word
import RecordQuery.Proofs.Literal.Written
import RecordQuery.Proofs.Token.Vocabulary
import RecordQuery.Proofs.Grammar.Completion
import RecordQuery.Proofs.Grammar.Refusal
import RecordQuery.Proofs.Compile.FirstError
import RecordQuery.Proofs.Condition.Rendering
import RecordQuery.Proofs.Compile.RoundTrip
import RecordQuery.Proofs.Condition.Height
import RecordQuery.Proofs.Compile.NormalForm
import RecordQuery.Proofs.Compile.Composition
import RecordQuery.Proofs.QueryCache.History
import RecordQuery.Proofs.QueryCache.Inclusion
import RecordQuery.Proofs.Token.Layout
import RecordQuery.Proofs.Grammar.Places
import RecordQuery.Proofs.Compile.Layout
import RecordQuery.Proofs.Grammar.Moves
import RecordQuery.Proofs.Grammar.WrittenCalls
import RecordQuery.Proofs.Grammar.OpenGroups
import RecordQuery.Proofs.Condition.Bare
import RecordQuery.Proofs.Compile.CallOrder
import RecordQuery.Proofs.Compile.Resolution
import RecordQuery.Proofs.Compile.Faults
import RecordQuery.Proofs.Evaluation.Steady
import RecordQuery.Proofs.Evaluation.Reordering
import RecordQuery.Proofs.Token.LongestMatch
import RecordQuery.Proofs.Token.Coverage
import RecordQuery.Proofs.Literal.Writing
import RecordQuery.Proofs.Evaluation.Search
import RecordQuery.Proofs.Compile.Operands
import RecordQuery.Proofs.Condition.DoubleNegation
import RecordQuery.Proofs.Text.Edits
import RecordQuery.Proofs.Text.Lowercase
import RecordQuery.Proofs.Registry.Suggestion
import RecordQuery.Proofs.Compile.Suggestion
import RecordQuery.Proofs.Evaluation.LastAnswer
import RecordQuery.Proofs.Literal.Numeral
import RecordQuery.Proofs.Compile.IntegerRange
import RecordQuery.Proofs.Evaluation.TwoCalls
import RecordQuery.Proofs.Evaluation.Enumeration
import RecordQuery.Proofs.Compile.Enumeration
import RecordQuery.Proofs.Text.Quoted
import RecordQuery.Proofs.Condition.Display
import RecordQuery.Proofs.Condition.Outline
import RecordQuery.Proofs.Compile.Dump
import RecordQuery.Proofs.Evaluation.Regrouping
import RecordQuery.Proofs.QueryCache.Checked
import RecordQuery.Proofs.QueryCache.Representation
import RecordQuery.Proofs.Compile.CompleteCalls
import RecordQuery.Proofs.Compile.EventLog
import RecordQuery.Proofs.QueryCache.Eviction
import RecordQuery.Proofs.Workspace.EventLog
