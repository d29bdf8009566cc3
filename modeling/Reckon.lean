import Reckon.Main
import Reckon.Proofs.Session.Conversation
import Reckon.Proofs.Session.Framing
import Reckon.Proofs.Session.History
import Reckon.Proofs.Shared.Counter
import Reckon.Proofs.Shared.Independence
import Reckon.Proofs.Statement.Accounting
import Reckon.Proofs.Statement.Application
import Reckon.Proofs.Statement.Assignment
import Reckon.Proofs.Statement.Integers
import Reckon.Proofs.Statement.Kinds
import Reckon.Proofs.Statement.Locality
import Reckon.Proofs.Statement.Lookup
import Reckon.Proofs.Statement.Nesting
import Reckon.Proofs.Statement.Printing
import Reckon.Proofs.Statement.Pushback
import Reckon.Proofs.Statement.Rendering
import Reckon.Proofs.Value.Arithmetic
import Reckon.Proofs.Value.Comparison
import Reckon.Proofs.Value.Functions
import Reckon.Proofs.Lexer.Runs
import Reckon.Proofs.Parsing.Recorded
import Reckon.Proofs.Statement.Progress
