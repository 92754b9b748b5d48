import TwoPass.Main
import TwoPass.Proofs.Action
import TwoPass.Proofs.Object.Image
import TwoPass.Proofs.Object.Order
import TwoPass.Proofs.Statement.Code
import TwoPass.Proofs.Statement.Failure
import TwoPass.Proofs.Assembly.Layout
import TwoPass.Proofs.Assembly.Placement
import TwoPass.Proofs.Assembly.Revision
import TwoPass.Proofs.Assembly.Relative
import TwoPass.Proofs.Assembly.Completion
import TwoPass.Proofs.Session.Resolution
import TwoPass.Proofs.Session.MemoryMap
import TwoPass.Proofs.Machine.Decode
import TwoPass.Proofs.Assembly.Scope
import TwoPass.Proofs.Assembly.Calls
import TwoPass.Proofs.Assembly.Sources
import TwoPass.Proofs.Assembly.Recovery
import TwoPass.Proofs.Assembly.Blanking
import TwoPass.Proofs.Action.Agreement
import TwoPass.Proofs.Assembly.Retuning
import TwoPass.Proofs.Session.Strictness
import TwoPass.Proofs.Object.Shape
import TwoPass.Proofs.Assembly.Modes
import TwoPass.Proofs.Assembly.Truncation
import TwoPass.Proofs.Assembly.ErrorLimit
import TwoPass.Proofs.Text.Field
import TwoPass.Proofs.Assembly.ObjectFile
import TwoPass.Proofs.Assembly.Selection
import TwoPass.Proofs.Session.Reading
import TwoPass.Proofs.Statement.Numbering
import TwoPass.Proofs.Assembly.Inertness
import TwoPass.Proofs.Assembly.Constants
import TwoPass.Proofs.Assembly.Warnings
import TwoPass.Proofs.Session.Widths
import TwoPass.Proofs.Session.References
import TwoPass.Proofs.Files.Path
import TwoPass.Proofs.Files.Store
import TwoPass.Proofs.Session.Writing
import TwoPass.Proofs.CommandLine.Arguments
import TwoPass.Proofs.CommandLine.Delivery
import TwoPass.Proofs.Operand.Numeral
import TwoPass.Proofs.Source.Canonical
import TwoPass.Proofs.Symbol.Closure
import TwoPass.Proofs.Symbol.Distance
import TwoPass.Proofs.Statement.Data
import TwoPass.Proofs.Object.Packing
import TwoPass.Proofs.Assembly.Coherence
import TwoPass.Proofs.Operand.LetterCase
import TwoPass.Proofs.Statement.LetterCase
import TwoPass.Proofs.Assembly.SymbolFile
import TwoPass.Proofs.Operand.Grammar
