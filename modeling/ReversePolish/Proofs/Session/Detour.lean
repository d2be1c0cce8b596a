import ReversePolish.Proofs.Disk.Tree
import ReversePolish.Proofs.Session.Keeping

/-!
# The detour by way of a temporary file

A session could be written to its file directly, but it takes a detour: it is
written to a temporary file, which then takes the place of the file.  Where
the detour can be made, the disk is afterwards as if there had been none.

It cannot always be made.  A name of 243 to 255 bytes is fine for a file, which
can be read, be removed and be written under it, but there is no name for the
temporary file.  Such a session is not kept.
-/

namespace ReversePolish
namespace Session

theorem resume_of_read_toBytes
    {d : Disk} {p : Path} {s : Session}
    (hread : d.read p = .ok s.toBytes)
    (hvalid : s.IsValid)
    (horderly : s.bindings.IsOrderly) :
    resume d p = .ok s :=
  (resume_of_read hread).trans (ofBytes_toBytes hvalid horderly)

/-- **Where a file may be written, keeping a session comes to the same as writing it directly, or
the name of the temporary file is too long.**  Then nothing is kept, although it could be written
and resumed.  The disk stays a tree, so it is the same the next time. -/
theorem keep_of_isWritable
    {d : Disk} {p : Path} {tag : Nat}
    (htree : d.IsTree)
    (hwritable : d.IsWritable p)
    (hfree : d.entryAt? (d.temporary p tag) = none)
    (s : Session) :
    let written := d.put (d.locate p) (.file s.toBytes)
    let after := d.applyAll (s.keep d p tag).1
    (written.read p = .ok s.toBytes ∧
        (s.IsValid → s.bindings.IsOrderly → resume written p = .ok s)) ∧
      ((s.keep d p tag).2 = none ↔ d.TemporaryFits p tag) ∧
      (d.TemporaryFits p tag → after = written) ∧
      (¬ d.TemporaryFits p tag →
        (s.keep d p tag).2 = some (.problem (.unwritable .nameTooLong)) ∧ after = d) ∧
      after.IsTree := by
  intro written after
  have hhere := htree.up_notMem_here
  have hread : written.read p = .ok s.toBytes := hwritable.read_put s.toBytes
  have hready : d.TemporaryFits p tag → d.IsReady p tag := hwritable.isReady htree hfree
  have hrefused : ¬ d.TemporaryFits p tag →
      s.keep d p tag = ([], some (.problem (.unwritable .nameTooLong))) := by
    intro hfits
    rw [keep, hwritable.saving_eq_error htree hfits]
    rfl
  refine ⟨⟨hread, resume_of_read_toBytes hread⟩, ⟨fun hkeep => ?_, fun hfits => ?_⟩, ?_, ?_,
    htree.applyAll_saving p tag s.toBytes⟩
  · by_contra hfits
    rw [hrefused hfits] at hkeep
    cases hkeep
  · exact (keep_snd_eq_none_iff hhere s p tag).2 (hready hfits)
  · intro hfits
    exact (hready hfits).applyAll_saving hhere s.toBytes
  · intro hfits
    refine ⟨congrArg Prod.snd (hrefused hfits), ?_⟩
    rw [show after = d.applyAll (s.keep d p tag).1 from rfl, hrefused hfits]
    rfl

/-- A session in a folder below the current one. -/
theorem keep_of_isWritable_subfolder :
    let s := (fresh.evaluate ["A".toList, "7".toList, "=".toList, "5".toList]).session
    let p := Path.ofText "work/session.json".toList
    let d : Disk := ⟨[(["work".toList], .folder)], []⟩
    (s.keep d p 0).2 = none ∧ resume (d.applyAll (s.keep d p 0).1) p = .ok s := by
  intro s p d
  have hname : "work".toList ≠ Path.up ∧ Text.Utf8.size "work".toList ≤ Disk.nameLimit := by
    decide
  have htree : d.IsTree :=
    Disk.isTree_empty.put (Disk.entryAt?_root _) hname (Or.inl rfl)
  have hwritable : d.IsWritable p :=
    ⟨by decide +kernel, by decide +kernel, by decide +kernel, by decide +kernel, by decide +kernel,
      by decide +kernel⟩
  have hfree : d.entryAt? (d.temporary p 0) = none := by
    decide +kernel
  have hfits : d.TemporaryFits p 0 := ⟨by decide +kernel, by decide +kernel⟩
  obtain ⟨⟨-, hresume⟩, hkept, hafter, -⟩ :=
    keep_of_isWritable htree hwritable hfree s
  refine ⟨hkept.2 hfits, ?_⟩
  rw [hafter hfits]
  exact hresume (isValid_fresh.evaluate _) (isOrderly_evaluate Bindings.isOrderly_empty _)

/-- A name of 243 bytes is fine for a file, but no session is kept under it. -/
theorem unwritable_under_243_bytes :
    let s := (fresh.evaluate ["5".toList]).session
    let p := Path.ofText (List.replicate 243 'a')
    let d : Disk := ⟨[], []⟩
    (d.IsTree ∧ d.IsWritable p ∧ d.entryAt? (d.temporary p 0) = none) ∧
      (∃ start, resume d p = .ok start) ∧
      (s.keep d p 0).2 = some (.problem (.unwritable .nameTooLong)) := by
  intro s p d
  have hwritable : d.IsWritable p :=
    ⟨by decide +kernel, by decide +kernel, by decide +kernel, by decide +kernel, by decide +kernel,
      by decide +kernel⟩
  have hread : d.read p = .error .noEntry := by
    decide +kernel
  have hsaving : (d.saving p 0 s.toBytes).error? = some .nameTooLong := by
    decide +kernel
  refine ⟨⟨Disk.isTree_empty, hwritable, by decide +kernel⟩, ⟨fresh, resume_of_noEntry hread⟩, ?_⟩
  rw [keep, hsaving]
  rfl

end Session
end ReversePolish
