import ReversePolish.Proofs.Disk.Saving

/-!
# The moments of a save

Saving makes no change at all, or it makes three: a temporary file appears, is
filled, and then either is removed again or takes the place of the file that
is saved.  Cut off after any number of changes, a save that got anywhere has
left a temporary file and nothing else, unless it was complete.

The temporary file is out of the way of the file that is saved.  A path leads
to what it led to before, or still to nothing.
-/

namespace ReversePolish

namespace Disk

/-! ### Beside the temporary file -/

/-- A save is refused before it changes anything, or it is refused with its temporary file
complete, or it can be carried out. -/
theorem saving_cases
    {d : Disk}
    (hhere : Path.up ∉ d.here)
    (p : Path) (n : Nat) (content : List UInt8) :
    (∃ e, d.saving p n content = ⟨[], some e⟩) ∨
      (d.entryAt? (d.temporary p n) = none ∧ ∃ e, d.saving p n content =
        ⟨[.create (d.temporary p n), .write (d.temporary p n) content,
          .remove (d.temporary p n)], some e⟩) ∨
      d.IsReady p n := by
  cases herror : (d.saving p n content).error? with
  | none => exact Or.inr (Or.inr (isReady_of_saving hhere herror))
  | some e =>
      rw [saving] at herror ⊢
      split
      · exact Or.inl ⟨_, rfl⟩
      · rename_i hcreatable
        rw [hcreatable] at herror
        obtain ⟨-, -, hnone⟩ := (creatable_eq_ok_iff hhere).1 hcreatable
        split
        · exact Or.inr (Or.inl ⟨hnone, _, rfl⟩)
        · rename_i target hreplaceable
          simp [hreplaceable] at herror

theorem IsReady.error?_saving
    {d : Disk} {p : Path} {n : Nat}
    (h : d.IsReady p n)
    (hhere : Path.up ∉ d.here)
    (content : List UInt8) :
    (d.saving p n content).error? = none := by
  rw [h.saving_eq hhere]

/-- A save that is refused leaves the disk as it was. -/
theorem applyAll_saving_of_error
    {d : Disk} {p : Path} {n : Nat} {content : List UInt8} {e : Error}
    (hhere : Path.up ∉ d.here)
    (h : (d.saving p n content).error? = some e) :
    d.applyAll (d.saving p n content).made = d := by
  rcases saving_cases hhere p n content with ⟨_, hsaving⟩ | ⟨hnone, _, hsaving⟩ | hready
  · rw [hsaving, applyAll_nil]
  · rw [hsaving]
    simp only [applyAll_cons, applyAll_nil]
    rw [apply, apply, apply, put_put, erase_put _ hnone]
  · rw [hready.error?_saving hhere] at h
    cases h

/-! ### After some of the changes -/

end Disk

end ReversePolish
