import ReversePolish.Disk.Listing
import ReversePolish.Main
import ReversePolish.Proofs.Bindings.Commuting
import ReversePolish.Proofs.Bindings.Hash
import ReversePolish.Proofs.Command.Complaining
import ReversePolish.Proofs.Command.Looking
import ReversePolish.Proofs.Command.Splitting
import ReversePolish.Proofs.Command.Upkeep
import ReversePolish.Proofs.Command.Verbatim
import ReversePolish.Proofs.Complaint.Marking
import ReversePolish.Proofs.Expression.Evaluation
import ReversePolish.Proofs.Machine.Refinement
import ReversePolish.Proofs.Quotient
import ReversePolish.Proofs.Session.Beneath
import ReversePolish.Proofs.Session.Detour
import ReversePolish.Proofs.Session.Display
import ReversePolish.Proofs.Session.Format
import ReversePolish.Proofs.Session.Height
import ReversePolish.Proofs.Session.Interchange
import ReversePolish.Proofs.Session.Listing
import ReversePolish.Proofs.Session.Operands
import ReversePolish.Proofs.Session.Refusal
import ReversePolish.Proofs.Session.Restoring
