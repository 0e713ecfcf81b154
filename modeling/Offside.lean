import Offside.Main
import Offside.Proofs.BlankInsertion
import Offside.Proofs.BlankSources
import Offside.Proofs.BlankSwap
import Offside.Proofs.CursorPlaces
import Offside.Proofs.Display
import Offside.Proofs.ExitStatus
import Offside.Proofs.FaultState
import Offside.Proofs.FirstFault
import Offside.Proofs.Indentation
import Offside.Proofs.Inputs
import Offside.Proofs.LineBoundary
import Offside.Proofs.LineCount
import Offside.Proofs.LiteralEnds
import Offside.Proofs.Marks
import Offside.Proofs.MaximalMunch
import Offside.Proofs.Nesting
import Offside.Proofs.Quotation
import Offside.Proofs.Rendering
import Offside.Proofs.Reuse
import Offside.Proofs.RoundTrip
import Offside.Proofs.Tiling
import Offside.Proofs.Totality
import Offside.Scan.Session
