import ReversePolish.Proofs.Disk.Moments
import ReversePolish.Proofs.Session.Failure
import ReversePolish.Proofs.Session.RoundTrip

/-!
# Keeping a session is all or nothing

A session that is kept takes the place of what was in its file; one that
cannot be kept leaves the disk alone.  In between there is no moment at which
the file holds anything but its former content or the whole new document, so
a calculation that is cut off while it keeps its session loses nothing.

What stands in the way is told as a problem.  Only a path that holds the
character NUL breaks the calculation off, and then too the disk is left alone.
-/

namespace ReversePolish
namespace Session

theorem keep_snd_eq_none_iff
    {d : Disk}
    (hhere : Path.up ∉ d.here)
    (s : Session) (p : Path) (tag : Nat) :
    (s.keep d p tag).2 = none ↔ d.IsReady p tag := by
  rw [keep, Option.map_eq_none_iff]
  exact ⟨Disk.isReady_of_saving hhere, fun h => h.error?_saving hhere s.toBytes⟩

end Session
end ReversePolish
