import Constituency.Chart.Agenda
import Constituency.Chart.Basic
import Constituency.Chart.Buckets
import Constituency.Chart.Filing
import Constituency.Chart.Lemmas
import Constituency.Chart.Printer
import Constituency.Grammar.Basic
import Constituency.Grammar.Corner
import Constituency.Grammar.Index
import Constituency.Grammar.Printer
import Constituency.Grammar.Rule
import Constituency.Inference.Demand
import Constituency.Inference.Growth
import Constituency.Inference.LeftCorner
import Constituency.Inference.Offer
import Constituency.Inference.TopDown
import Constituency.Item.Basic
import Constituency.Item.Printer
import Constituency.Item.Span
import Constituency.Notation.Draft
import Constituency.Notation.Source
import Constituency.Notation.Token
import Constituency.Parse.Basic
import Constituency.Parse.Config
import Constituency.Parse.Parser
import Constituency.Parse.Progress
import Constituency.Parse.Saturation
import Constituency.Parse.Sweep
import Constituency.Parse.Trace
import Constituency.Pattern.Bracket
import Constituency.Pattern.CharClass
import Constituency.Pattern.Escape
import Constituency.Pattern.Expr
import Constituency.Pattern.Flags
import Constituency.Pattern.Program
import Constituency.Pattern.Reader
import Constituency.Pattern.Words
import Constituency.Text.Alphabetic
import Constituency.Text.Blank
import Constituency.Text.CaseCycle
import Constituency.Text.DecimalDigit
import Constituency.Text.Numeric
import Constituency.Text.Ranges
import Constituency.Text.Sorted
import Constituency.Text.WordChar
import Constituency.Proofs.Grammar.Closure
import Constituency.Proofs.Derivation.Language
import Constituency.Proofs.Derivation.Reach
import Constituency.Proofs.Inference.Calculus
import Constituency.Proofs.Inference.Sweeping
import Constituency.Proofs.Inference.Combining
import Constituency.Proofs.Chart.Delivery
import Constituency.Proofs.Chart.Calls
import Constituency.Proofs.Inference.Deduction
import Constituency.Proofs.Parse.Capacity
import Constituency.Proofs.Parse.Progress
import Constituency.Proofs.Parse.Sweep
import Constituency.Proofs.Parse.Saturation
import Constituency.Proofs.Parse.Outcome
import Constituency.Proofs.Inference.Closure
import Constituency.Proofs.Recognition.Foreseen
import Constituency.Proofs.Recognition.TopDown
import Constituency.Proofs.Recognition.LeftCorner
import Constituency.Proofs.Derivation.Tiling
import Constituency.Proofs.Recognition.Grounding
import Constituency.Proofs.Recognition.HeadCorner
import Constituency.Proofs.Derivation.Tree
import Constituency.Proofs.Recognition.Trees
import Constituency.Proofs.Recognition.Unambiguous
import Constituency.Proofs.Inference.Keys
import Constituency.Proofs.Parse.Order
import Constituency.Proofs.Parse.Extent
import Constituency.Proofs.Parse.Limit
import Constituency.Proofs.Parse.Moments
import Constituency.Proofs.Chart.Waiting
import Constituency.Proofs.Parse.Queueing
import Constituency.Proofs.Recognition.Anchoring
import Constituency.Proofs.Grammar.Mirror
import Constituency.Proofs.Recognition.Mirror
import Constituency.Proofs.Inference.Early
import Constituency.Proofs.Parse.Online
import Constituency.Proofs.Inference.Safety
import Constituency.Proofs.Notation.Lexing
import Constituency.Proofs.Notation.Table
import Constituency.Proofs.Notation.Reading
import Constituency.Proofs.Notation.Acceptance
import Constituency.Proofs.Notation.Faults
import Constituency.Proofs.Grammar.Search
import Constituency.Proofs.Notation.Printing
import Constituency.Proofs.Inference.Exhaustion
import Constituency.Proofs.Parse.Accounting
import Constituency.Proofs.Parse.Reporting
import Constituency.Proofs.Parse.Passes
import Constituency.Proofs.Inference.Projection
import Constituency.Proofs.Item.Printing
import Constituency.Proofs.Grammar.Tables
import Constituency.Proofs.Text.Runs
import Constituency.Proofs.Text.Spacing
import Constituency.Proofs.Pattern.Repetition
import Constituency.Proofs.Parse.Tokens
