import Cloak.Process
import Cloak.Proofs.Agreement
import Cloak.Proofs.Coverage
import Cloak.Proofs.Degrading
import Cloak.Proofs.Independence
import Cloak.Proofs.Placing
import Cloak.Proofs.Positions
import Cloak.Proofs.RoundTrip
import Cloak.Proofs.Unclosed
import Cloak.Proofs.Overlap
import Cloak.Proofs.Processing
import Cloak.Proofs.Quoting
import Cloak.Proofs.Marks
import Cloak.Proofs.Transparency
import Cloak.Proofs.Selection
import Cloak.Proofs.Drafting
import Cloak.Proofs.Shields
import Cloak.Proofs.Undoing
import Cloak.Proofs.Delimiters
import Cloak.Proofs.Elements
import Cloak.Proofs.Printing
import Cloak.Proofs.Fences
import Cloak.Proofs.BodyLine
import Cloak.Proofs.Interpolation
import Cloak.Proofs.MaskedFences
import Cloak.Proofs.Isolation
import Cloak.Proofs.Footprint
import Cloak.Proofs.Neutral
import Cloak.Proofs.TagColons
