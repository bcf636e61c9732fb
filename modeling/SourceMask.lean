import SourceMask.Main
import SourceMask.Proofs.Text.Exchange
import SourceMask.Proofs.SourceFile.Kept
import SourceMask.Proofs.Edit.Order
import SourceMask.Proofs.Tree.Outermost
import SourceMask.Proofs.Tree.WellFormed
import SourceMask.Proofs.Masking.Frame
import SourceMask.Proofs.Tree.Shift
import SourceMask.Proofs.Masking.Siblings
import SourceMask.Proofs.Report.ReadBack
import SourceMask.Proofs.Names.Register
import SourceMask.Proofs.Report.Document
import SourceMask.Proofs.CommandLine.Agreement
import SourceMask.Proofs.Names.Uses
import SourceMask.Proofs.Names.Keyword
import SourceMask.Proofs.Names.Later
import SourceMask.Proofs.Token.Alignment
import SourceMask.Proofs.Masking.Alignment
import SourceMask.Proofs.Names.Discovery
import SourceMask.Proofs.Tree.Address
import SourceMask.Proofs.Names.Dotted
import SourceMask.Proofs.Token.Conservation
import SourceMask.Proofs.Token.Kind
import SourceMask.Proofs.Filter.LineEnding
import SourceMask.Proofs.Filter.Escape
import SourceMask.Proofs.Tree.Defect
import SourceMask.Proofs.Names.Matches
