import TapeC.Machine
import TapeC.Main
import TapeC.Session
import TapeC.Proofs.Nesting
import TapeC.Proofs.Partners
import TapeC.Proofs.Unmatched
import TapeC.Proofs.Block
import TapeC.Proofs.Build
import TapeC.Proofs.Machine
import TapeC.Proofs.Indentation
import TapeC.Proofs.Decoding
import TapeC.Proofs.Delivery
import TapeC.Proofs.TempFile
import TapeC.Proofs.CompileRun
import TapeC.Proofs.Session
import TapeC.Proofs.Position
import TapeC.Proofs.Diagnostics
import TapeC.Proofs.Arguments
import TapeC.Proofs.Comments
import TapeC.Proofs.Routes
import TapeC.Proofs.FailedRuns
import TapeC.Proofs.Counter
import TapeC.Proofs.Repair
import TapeC.Proofs.Concatenation
import TapeC.Proofs.Endings
import TapeC.Proofs.Shape
import TapeC.Proofs.Lines
import TapeC.Proofs.Layout
import TapeC.Proofs.Braces
import TapeC.Proofs.Merge
import TapeC.Proofs.Message
