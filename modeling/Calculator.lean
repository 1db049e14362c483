import Calculator.Decimal.Value
import Calculator.Main
import Calculator.Proofs.ExactValue
import Calculator.Proofs.Transparency
import Calculator.Proofs.Patterns
import Calculator.Proofs.Tiling
import Calculator.Proofs.RoundTrip
import Calculator.Proofs.Nodes
import Calculator.Proofs.Literals
import Calculator.Proofs.Relaxing
import Calculator.Proofs.Carets
import Calculator.Proofs.Layout
import Calculator.Proofs.Nesting
import Calculator.Proofs.Extents
import Calculator.Proofs.Placement
import Calculator.Proofs.Rounding
import Calculator.Proofs.Representation
import Calculator.Proofs.Powers
import Calculator.Proofs.LineByLine
import Calculator.Proofs.Order
import Calculator.Proofs.SeparatedText
import Calculator.Proofs.GroupedText
import Calculator.Proofs.Refusals
import Calculator.Proofs.Stack
import Calculator.Proofs.Traces
import Calculator.Proofs.Shown
import Calculator.Proofs.LongestChain
import Calculator.Proofs.Rendering
import Calculator.Proofs.ScaleOverflow
import Calculator.Proofs.SkippedLines
