import ReversePolish.Proofs.Disk.Ways
import ReversePolish.Session.Keeping

/-!
# What the disk refuses to a session

A session is asked for, resumed, kept and forgotten at the path of its file.
What the disk refuses to the last three of these is a problem.  To ask for a
session is something else: for a path that is too long the disk does not
answer, and that is a breakdown.

A path that holds the character NUL breaks off whatever is done with it, except
that there is no session when one is asked for.
-/

namespace ReversePolish

namespace Failure

/-- A refusal of the disk is told unless the path is at fault. -/
theorem ofDisk_of_ne
    {e : Disk.Error} (tell : Disk.Error → Problem) (p : Path)
    (h : e ≠ .nulInPath) :
    ofDisk tell p e = .problem (tell e) :=
  if_neg h

end Failure

namespace Session

variable {d : Disk} {p : Path}

/-! ### Paths that hold the character NUL -/

theorem isKept_of_holdsNul
    (d : Disk)
    (h : p.HoldsNul) :
    isKept d p = .ok false := by
  rw [isKept, Disk.isPresent, Disk.find_of_holdsNul d h]
  rfl

theorem resume_of_holdsNul
    (d : Disk)
    (h : p.HoldsNul) :
    resume d p = .error (.breakdown (.disk .nulInPath p)) := by
  rw [resume, Disk.read_of_holdsNul d h]
  rfl

theorem forget_of_holdsNul
    (d : Disk)
    (h : p.HoldsNul) :
    forget d p = ([], some (.breakdown (.disk .nulInPath p))) := by
  rw [forget, Disk.removing_of_holdsNul d h]
  rfl

/-! ### Other paths -/

/-- The disk does not say whether a session is kept if the path is too long. -/
theorem isKept_eq_error_iff
    {b : Breakdown} :
    isKept d p = .error b ↔ ¬ p.HoldsNul ∧ d.IsTooLong p ∧ b = .disk .nameTooLong p := by
  rw [isKept, Outcome.mapError_eq_error]
  constructor
  · rintro ⟨e, he, rfl⟩
    obtain ⟨rfl, hnul, h⟩ := Disk.isPresent_eq_error_iff.1 he
    exact ⟨hnul, h, rfl⟩
  · rintro ⟨hnul, h, rfl⟩
    exact ⟨.nameTooLong, Disk.isPresent_eq_error_iff.2 ⟨rfl, hnul, h⟩, rfl⟩

theorem resume_of_unreadable
    {e : Disk.Error}
    (hnul : ¬ p.HoldsNul)
    (h : d.read p = .error e)
    (he : e ≠ .noEntry) :
    resume d p = .error (.problem (.unreadable e)) := by
  have hother : e ≠ .nulInPath := by
    rintro rfl
    exact Disk.read_ne_nulInPath hnul h
  rw [resume, h, ← Failure.ofDisk_of_ne .unreadable p hother]
  cases e with
  | noEntry => exact absurd rfl he
  | _ => rfl

/-- Keeping a session fails where saving its file does. -/
theorem keep_snd_of_not_holdsNul
    (s : Session) (d : Disk) (tag : Nat)
    (hnul : ¬ p.HoldsNul) :
    (s.keep d p tag).2 =
      (d.saving p tag s.toBytes).error?.map fun e => .problem (.unwritable e) := by
  rw [keep]
  cases herror : (d.saving p tag s.toBytes).error? with
  | none => rfl
  | some e =>
      have hother : e ≠ .nulInPath := by
        rintro rfl
        exact Disk.error?_saving_ne_nulInPath hnul s.toBytes herror
      exact congrArg some (Failure.ofDisk_of_ne _ p hother)

/-- Forgetting a session fails where removing its file does, unless the file is missing anyway. -/
theorem forget_snd_eq_some_iff
    {failure : Failure}
    (hnul : ¬ p.HoldsNul) :
    (forget d p).2 = some failure ↔
      ∃ e, (d.removing p).error? = some e ∧ e ≠ .noEntry ∧
        failure = .problem (.irremovable e) := by
  have hother := Disk.error?_removing_ne_nulInPath (d := d) hnul
  rw [forget]
  generalize (d.removing p).error? = error? at hother ⊢
  cases error? with
  | none => simp
  | some e =>
      cases e with
      | nulInPath => exact absurd rfl hother
      | _ => simp [Failure.ofDisk, eq_comm]

/-! ### Sessions that are resumed -/

theorem not_holdsNul_of_resume
    {s : Session}
    (h : resume d p = .ok s) :
    ¬ p.HoldsNul := by
  intro hnul
  rw [resume_of_holdsNul d hnul] at h
  cases h

/-- Whether a session is kept can be said wherever one is resumed. -/
theorem exists_isKept_of_resume
    {s : Session}
    (h : resume d p = .ok s) :
    ∃ kept, isKept d p = .ok kept := by
  cases hkept : isKept d p with
  | ok kept => exact ⟨kept, rfl⟩
  | error b =>
      obtain ⟨hnul, hlong, -⟩ := isKept_eq_error_iff.1 hkept
      have hread : d.read p = .error .nameTooLong :=
        Outcome.bind_eq_error.2 (Or.inl (hlong.find_eq hnul))
      rw [resume_of_unreadable hnul hread (by decide)] at h
      cases h

end Session

end ReversePolish
