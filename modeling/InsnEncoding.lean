import InsnEncoding.Description.Grammar
import InsnEncoding.Description.Printer
import InsnEncoding.Directory
import InsnEncoding.Format.Grammar
import InsnEncoding.Format.WellFormed
import InsnEncoding.Main
import InsnEncoding.Session
import InsnEncoding.Proofs.Validity
import InsnEncoding.Proofs.Encoding
import InsnEncoding.Proofs.Decoding
import InsnEncoding.Proofs.Footprint
import InsnEncoding.Proofs.Rearrangement
import InsnEncoding.Proofs.OperandOrder
import InsnEncoding.Proofs.Numeral
import InsnEncoding.Proofs.FirstAndLast
import InsnEncoding.Proofs.FirstOffender
import InsnEncoding.Proofs.FormatGrammar
import InsnEncoding.Proofs.FormatRoundTrip
import InsnEncoding.Proofs.LineLayout
import InsnEncoding.Description.Meaning
import InsnEncoding.Proofs.LineMeaning
import InsnEncoding.Proofs.LastAttribute
import InsnEncoding.Proofs.Writes
import InsnEncoding.Proofs.ManualFormat
import InsnEncoding.Proofs.BitBudget
import InsnEncoding.Proofs.FormatText
import InsnEncoding.Proofs.LineRoundTrip
import InsnEncoding.Proofs.FormatObstacle
import InsnEncoding.Proofs.FormatViability
import InsnEncoding.Proofs.Result
import InsnEncoding.Proofs.FormatReprint
import InsnEncoding.Proofs.Listing
import InsnEncoding.Collection
import InsnEncoding.Proofs.Readable
import InsnEncoding.Proofs.Collection
import InsnEncoding.Proofs.StrictReading
import InsnEncoding.Proofs.Catalog
import InsnEncoding.Proofs.DescriptionOrder
import InsnEncoding.Proofs.CommandLine
import InsnEncoding.Proofs.ReachableErrors
import InsnEncoding.Proofs.LineEnds
import InsnEncoding.Proofs.Register
import InsnEncoding.Proofs.ByteScan
