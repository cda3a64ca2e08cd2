import Pictogram.Main
import Pictogram.Proofs.Class.RoundTrip
import Pictogram.Proofs.Code.Assignment
import Pictogram.Proofs.Parse.Language
import Pictogram.Proofs.Source.Agreement
import Pictogram.Proofs.Source.Safety
import Pictogram.Proofs.Token.Relexing
import Pictogram.Token.Stream
import Pictogram.World
import Pictogram.Proofs.Token.Joining
import Pictogram.Proofs.Parse.Joining
import Pictogram.Proofs.Source.Relabel
import Pictogram.Proofs.Source.Session
import Pictogram.Proofs.Code.Relabel
import Pictogram.Proofs.Renaming
import Pictogram.Proofs.Code.Computation
import Pictogram.Proofs.Class.Indexing
import Pictogram.Proofs.Source.Frame
import Pictogram.Proofs.Source.Counting
import Pictogram.Proofs.Parse.Earliest
import Pictogram.Proofs.Token.Position
import Pictogram.Proofs.Token.Written
import Pictogram.Proofs.Code.Disassembly
import Pictogram.Proofs.Code.Allotment
import Pictogram.Proofs.Shell.Balance
import Pictogram.Proofs.CommandLine.Compiling
import Pictogram.Proofs.Machine.Decoding
import Pictogram.Proofs.Code.Relocation
import Pictogram.Proofs.Code.Encoding
import Pictogram.Proofs.Parse.Descent
import Pictogram.Proofs.Parse.Number
