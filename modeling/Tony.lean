import Tony.Lexer.Session
import Tony.Main
import Tony.Proofs.Boundary
import Tony.Proofs.Reachable
import Tony.Proofs.Coverage
import Tony.Proofs.Locality
import Tony.Proofs.Pattern
import Tony.Proofs.Scope
import Tony.Proofs.Taken
import Tony.Proofs.Reading
import Tony.Proofs.Landmark
import Tony.Proofs.Turn
import Tony.Proofs.Progress
import Tony.Proofs.Bracketing
import Tony.Proofs.Appending
import Tony.Proofs.Modes
import Tony.Proofs.Beginning
import Tony.Proofs.Spelling
import Tony.Proofs.Concatenation
import Tony.Proofs.CarriageReturn
import Tony.Proofs.LineEnding
import Tony.Proofs.MarkReading
import Tony.Proofs.LineMark
import Tony.Proofs.Log
import Tony.Proofs.Failure
import Tony.Proofs.Merging
import Tony.Proofs.Places
import Tony.Proofs.Printing
import Tony.Proofs.Unquoting
import Tony.Proofs.Transcript
import Tony.Proofs.Outcome
import Tony.Proofs.Neighbours
import Tony.Proofs.Segmentation
import Tony.Proofs.Passage
import Tony.Proofs.DoubleString
import Tony.Proofs.BlockExtent
import Tony.Proofs.Candidates
import Tony.Proofs.NextToken
import Tony.Proofs.Tag
import Tony.Proofs.Numeral
import Tony.Proofs.FallThrough
import Tony.Proofs.BlockContents
import Tony.Proofs.Constant
import Tony.Proofs.Chaining
import Tony.Proofs.Comment
import Tony.Proofs.SingleQuote
import Tony.Proofs.PlaceOrder
import Tony.Proofs.Lookup
import Tony.Proofs.Indentation
