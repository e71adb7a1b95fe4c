import MessageBoard.Http.Server
import MessageBoard.Main
import MessageBoard.Proofs.Call
import MessageBoard.Proofs.Discipline
import MessageBoard.Proofs.Accepted
import MessageBoard.Proofs.Wording
import MessageBoard.Proofs.Rejection
import MessageBoard.Proofs.Table
import MessageBoard.Proofs.Serving
import MessageBoard.Proofs.Walk
import MessageBoard.Proofs.Overlap
import MessageBoard.Proofs.Numerals
import MessageBoard.Proofs.Spelling
import MessageBoard.Proofs.Tokens
import MessageBoard.Proofs.Documents
import MessageBoard.Proofs.Shapes
import MessageBoard.Proofs.Records
import MessageBoard.Proofs.Encoding
import MessageBoard.Proofs.Quotation
import MessageBoard.Proofs.Scalars
import MessageBoard.Proofs.Layout
import MessageBoard.Proofs.Addresses
import MessageBoard.Proofs.Keeper
import MessageBoard.Proofs.Lifetime
import MessageBoard.Proofs.Placeholders
import MessageBoard.Proofs.Cuts
import MessageBoard.Proofs.Masking
import MessageBoard.Proofs.Redaction
import MessageBoard.Proofs.Reload
import MessageBoard.Proofs.Together
import MessageBoard.Proofs.Return
import MessageBoard.Proofs.Inclusion
import MessageBoard.Proofs.Composed
import MessageBoard.Proofs.Disclosure
import MessageBoard.Proofs.Grammar
import MessageBoard.Proofs.Validity
import MessageBoard.Proofs.Declared
import MessageBoard.Proofs.Edits
import MessageBoard.Proofs.Commands
import MessageBoard.Proofs.Tally
import MessageBoard.Proofs.Votes
import MessageBoard.Proofs.ByteOrder
import MessageBoard.Proofs.Clause
import MessageBoard.Proofs.Faults
import MessageBoard.Proofs.Comparison
import MessageBoard.Proofs.Predicate
import MessageBoard.Proofs.Switches
import MessageBoard.Proofs.Layers
import MessageBoard.Proofs.Overrides
import MessageBoard.Proofs.Parameters
import MessageBoard.Proofs.Gathering
import MessageBoard.Proofs.Answers
import MessageBoard.Proofs.Continuation
import MessageBoard.Proofs.Patching
import MessageBoard.Proofs.Contacts
import MessageBoard.Proofs.Judgement
import MessageBoard.Proofs.Creatable
import MessageBoard.Proofs.Absence
import MessageBoard.Proofs.Building
import MessageBoard.Proofs.Queries
import MessageBoard.Proofs.Origins
import MessageBoard.Proofs.Assembly
import MessageBoard.Proofs.Ordering
