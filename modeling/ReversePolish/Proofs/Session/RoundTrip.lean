import ReversePolish.Proofs.Disk.Saving
import ReversePolish.Proofs.Session.Resuming

/-!
# Keeping a session and resuming it

Restoring asks nothing of the texts of a record, so a session may hold texts
that evaluating never makes.  It can be kept all the same, and its file holds
exactly its stack and its bindings.  Resuming tells the sessions apart: one
that is valid comes back as it was, chain for chain, and any other is refused.
-/

namespace ReversePolish
namespace Session

/-- What a session can be at all: one that is restored from a record, whatever the record holds,
or that evaluating makes of another.  A fresh session is restored from an empty record. -/
inductive Possible : Session → Prop
  | restore (r : Record) : Possible (ofRecord r)
  | evaluate {s : Session} (h : Possible s) (texts : List Text) :
      Possible (s.evaluate texts).session

/-- Nothing but the layout of the bindings is the same in all of them. -/
theorem possible_iff
    {s : Session} :
    s.Possible ↔ s.bindings.IsOrderly := by
  constructor
  · intro h
    induction h with
    | restore r => exact Bindings.isOrderly_ofList r.bindings
    | evaluate _ texts ih => exact isOrderly_evaluate ih texts
  · intro h
    rw [← ofRecord_toRecord h]
    exact .restore s.toRecord

/-- A session that is kept without a problem is what its file holds. -/
theorem read_of_keep
    {s : Session} {d : Disk} {p : Path} {tag : Nat}
    (hhere : Path.up ∉ d.here)
    (hkeep : (s.keep d p tag).2 = none) :
    (d.applyAll (s.keep d p tag).1).read p = .ok s.toBytes := by
  have hready : d.IsReady p tag :=
    Disk.isReady_of_saving hhere (Option.map_eq_none_iff.1 hkeep)
  rw [keep, hready.applyAll_saving hhere]
  exact hready.read_put s.toBytes

/-- **A kept session is resumed as it was if it is valid and refused if it is not.**  Its file holds
its stack and its bindings either way. -/
theorem resume_keep
    {s : Session} {d : Disk} {p : Path} {tag : Nat}
    (hpossible : s.Possible)
    (htexts : ∀ t ∈ s.toRecord.texts, t.IsClassifiable)
    (hhere : Path.up ∉ d.here)
    (hkeep : (s.keep d p tag).2 = none) :
    let kept := d.applyAll (s.keep d p tag).1
    (s.IsValid → resume kept p = .ok s) ∧
      (¬ s.IsValid → ∃ flaw, resume kept p = .error (.problem (.flaw flaw))) ∧
      kept.read p = .ok s.toBytes ∧
      ∃ t, Text.Utf8.decode s.toBytes = .ok t ∧
        Json.parse t = .ok (.object
          [(Text.Symbol.ofText "stack".toList,
              .array (s.stack.toList.map Record.stringOf)),
            (Text.Symbol.ofText "variables".toList,
              .array (s.bindings.toList.map Record.pairOf))]) := by
  intro kept
  have hread : kept.read p = .ok s.toBytes := read_of_keep hhere hkeep
  refine ⟨?_, ?_, hread, s.toText, s.decode_toBytes, s.parse_toText⟩
  · intro hvalid
    rw [resume_of_read hread]
    exact ofBytes_toBytes hvalid (possible_iff.1 hpossible)
  · intro hinvalid
    rw [resume_of_read hread]
    exact ofBytes_toBytes_of_not_isValid hinvalid htexts

/-- A session whose stack holds a quotation mark before a character beyond the first plane: what is
kept of it is refused. -/
theorem resume_keep_astral_entry :
    let s := ofRecord ⟨["5".toList, "\x22😀".toList], [("K".toList, "-7".toList)]⟩
    let d : Disk := ⟨[], []⟩
    let p : Path := ⟨.here, ["session.json".toList]⟩
    let kept := d.applyAll (s.keep d p 0).1
    kept.read p = .ok (Text.Utf8.encode
        ("\x7b\"stack\": [\"5\", \"\\\"\\ud83d\\ude00\"], ".toList ++
          "\"variables\": [[\"K\", \"-7\"]]\x7d".toList)) ∧
      ∃ flaw, resume kept p = .error (.problem (.flaw flaw)) := by
  intro s d p kept
  have hwords : Word.classify s.toRecord.texts = .ok
      [⟨"5".toList, 0, some (.integer 5)⟩, ⟨"\x22😀".toList, 1, none⟩,
        ⟨"K".toList, 2, some (.name 'K')⟩, ⟨"-7".toList, 3, some (.integer (-7))⟩] := by
    decide +kernel
  have hinvalid : ¬ s.IsValid := by
    intro hvalid
    have hnone : Token.ofText? "\x22😀".toList = .ok none := by
      decide +kernel
    obtain ⟨token, htoken, -⟩ :=
      Text.isOperand_iff.1 (hvalid.entries "\x22😀".toList List.mem_cons_self)
    rw [hnone] at htoken
    cases htoken
  have hbytes : s.toBytes = Text.Utf8.encode
      ("\x7b\"stack\": [\"5\", \"\\\"\\ud83d\\ude00\"], ".toList ++
        "\"variables\": [[\"K\", \"-7\"]]\x7d".toList) := by
    decide +kernel
  obtain ⟨-, hrefused, hread, -⟩ :=
    resume_keep (d := d) (p := p) (.restore _) (Word.exists_classify_iff.1 ⟨_, hwords⟩)
      (show Path.up ∉ d.here from List.not_mem_nil) (show (s.keep d p 0).2 = none by decide +kernel)
  rw [← hbytes]
  exact ⟨hread, hrefused hinvalid⟩

end Session
end ReversePolish
