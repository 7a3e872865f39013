import Indirection.Main
import Indirection.Proofs.Bounds
import Indirection.Proofs.Outcome
import Indirection.Proofs.Reordering
import Indirection.Proofs.Filtering
import Indirection.Proofs.Layering
import Indirection.Proofs.Entering
import Indirection.Proofs.Parenthesizing
import Indirection.Proofs.Consuming
import Indirection.Proofs.Revisiting
import Indirection.Proofs.Ending
import Indirection.Proofs.Overwriting
import Indirection.Proofs.Opacity
import Indirection.Proofs.Locating
import Indirection.Proofs.Attributing
import Indirection.Proofs.Excluding
import Indirection.Proofs.Lowering
import Indirection.Proofs.Resolving
import Indirection.Proofs.DepthFirst
import Indirection.Proofs.Widening
import Indirection.Proofs.Splitting
import Indirection.Proofs.Reporting
import Indirection.Proofs.Naming
import Indirection.Proofs.Delimiting
import Indirection.Proofs.Halting
