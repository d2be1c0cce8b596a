import ReversePolish.Proofs.Bindings.Order
import ReversePolish.Proofs.Session.Resuming

/-!
# The format of session files

Resuming accepts the documents that hold a record and no others, provided that
every string of the document can be classified.  The entries of the stack are
then the array in its order, and the pairs count as assignments, one after the
other.  A document that is refused is refused for its first flaw, and this flaw
is what the problem says.
-/

namespace ReversePolish

namespace Session

open Record (Lists IsFormatted FirstFlaw)

/-- A file that holds a document is resumed as what the document is read as. -/
theorem resume_eq_of_document
    {d : Disk} {p : Path} {t : Text} {document : Json}
    (hread : d.read p = .ok (Text.Utf8.encode t))
    (hdocument : Json.parse t = .ok document) :
    resume d p =
      ((Record.ofDocument document).mapError Failure.ofRefusal).map ofRecord := by
  rw [resume_of_read hread, ofBytes, Text.Utf8.decode_eq_ok_iff.2 rfl]
  simp only [ofText, hdocument]
  cases Record.ofDocument document with
  | ok r => rfl
  | error refusal => rfl

/-- **Resuming accepts the documents of the format, and refuses any other for its first flaw.**
The stack of the session is the array of the document, and the pairs count as assignments.  The
problem with a document says what its first flaw is. -/
theorem resume_iff_isFormatted
    {d : Disk} {p : Path} {t : Text} {document : Json}
    (hread : d.read p = .ok (Text.Utf8.encode t))
    (hdocument : Json.parse t = .ok document)
    (hstrings : document.IsClassifiable) :
    ((∃ s, resume d p = .ok s) ↔ IsFormatted document) ∧
      (∀ s, resume d p = .ok s → ∃ stack bindings,
        Lists document (stack.map Record.stringOf) (bindings.map Record.pairOf) ∧
          s.stack.toList = stack ∧
          (∀ name, s.bindings.find? name = Association.last? name bindings) ∧
          ∀ i, (s.bindings.chain i).map Prod.fst =
            ((bindings.map Prod.fst).filter fun name => Bindings.bucket name = i).eraseDups) ∧
      (¬ IsFormatted document →
        ∃ flaw, resume d p = .error (.problem (.flaw flaw)) ∧ FirstFlaw document flaw ∧
          flaw.Says (Problem.flaw flaw).message) ∧
      ∀ flaw, FirstFlaw document flaw →
        resume d p = .error (.problem (.flaw flaw)) ∧
          flaw.Says (Problem.flaw flaw).message := by
  have hresume := resume_eq_of_document hread hdocument
  have hrefused : ∀ flaw, FirstFlaw document flaw →
      resume d p = .error (.problem (.flaw flaw)) ∧ flaw.Says (Problem.flaw flaw).message := by
    intro flaw hflaw
    refine ⟨?_, flaw.says_message⟩
    rw [hresume, (Record.ofDocument_eq_error_iff hstrings).2 ⟨flaw, hflaw, rfl⟩]
    rfl
  rw [Record.isFormatted_iff]
  cases hrecord : Record.ofDocument document with
  | ok r =>
      have hsession : resume d p = .ok (ofRecord r) := by
        rw [hresume, hrecord]
        rfl
      refine ⟨⟨fun _ => ⟨r, rfl⟩, fun _ => ⟨_, hsession⟩⟩, ?_, fun hnone => ?_, hrefused⟩
      · intro s hs
        obtain rfl := Except.ok.inj (hsession.symm.trans hs)
        obtain ⟨members, rfl, hstack, hvariables, -⟩ := Record.ofDocument_eq_ok_iff.1 hrecord
        exact ⟨r.stack, r.bindings, .object hstack hvariables, stack_ofRecord r,
          Bindings.find?_ofList r.bindings, Bindings.map_fst_chain_ofList r.bindings⟩
      · exact absurd ⟨r, rfl⟩ hnone
  | error refusal =>
      obtain ⟨flaw, hflaw, rfl⟩ := (Record.ofDocument_eq_error_iff hstrings).1 hrecord
      obtain ⟨hproblem, hsays⟩ := hrefused flaw hflaw
      refine ⟨⟨?_, ?_⟩, ?_, fun _ => ⟨flaw, hproblem, hflaw, hsays⟩, hrefused⟩
      · rintro ⟨s, hs⟩
        rw [hproblem] at hs
        cases hs
      · rintro ⟨r, hr⟩
        cases hr
      · intro s hs
        rw [hproblem] at hs
        cases hs

/-- A document that lists a name twice is accepted.  If both an entry and a name are not as they
should be, the entry is what the document is refused for; and a name without a value is shown as the
array that it stands in. -/
theorem resume_iff_isFormatted_two_flaws :
    let p : Path := ⟨.here, ["session.json".toList]⟩
    let holding (t : Text) : Disk :=
      ⟨[(["session.json".toList], .file (Text.Utf8.encode t))], []⟩
    let repeated : Record := ⟨["A".toList], [("A".toList, "7".toList), ("A".toList, "8".toList)]⟩
    let flawed : Record := ⟨["7".toList, "x".toList], [("y".toList, "8".toList)]⟩
    let single : Json := .array [Record.stringOf "A".toList]
    let unpaired : Json := .object [(Text.Symbol.ofText "variables".toList, .array [single])]
    let entry : Flaw := .entry (Record.stringOf "x".toList)
    let pair : Flaw := .pair single
    (∃ s, resume (holding repeated.toDocument.write) p = .ok s) ∧
      (resume (holding flawed.toDocument.write) p = .error (.problem (.flaw entry)) ∧
        (Problem.flaw entry).message =
          "stack entry \x27x\x27 is neither an integer nor a variable".toList) ∧
      resume (holding unpaired.write) p = .error (.problem (.flaw pair)) ∧
        (Problem.flaw pair).message =
          "variable entry [\x27A\x27] is not a [name, value] pair".toList := by
  intro p holding repeated flawed single unpaired entry pair
  have hread : ∀ t, (holding t).read p = .ok (Text.Utf8.encode t) := by
    intro t
    rfl
  refine ⟨?_, ⟨?_, by decide +kernel⟩, ?_, by decide +kernel⟩
  · have hwords : Word.classify repeated.texts = .ok
        [⟨"A".toList, 0, some (.name 'A')⟩, ⟨"A".toList, 1, some (.name 'A')⟩,
          ⟨"7".toList, 2, some (.integer 7)⟩, ⟨"A".toList, 3, some (.name 'A')⟩,
          ⟨"8".toList, 4, some (.integer 8)⟩] := by
      decide +kernel
    have hA : Text.IsName "A".toList := ⟨'A', by decide +kernel⟩
    have h7 : Text.IsInteger "7".toList := ⟨7, by decide +kernel⟩
    have h8 : Text.IsInteger "8".toList := ⟨8, by decide +kernel⟩
    have hvalid : repeated.IsValid :=
      { entries := List.forall_mem_singleton.2 (Or.inr hA)
        names := List.forall_mem_cons.2 ⟨hA, List.forall_mem_singleton.2 hA⟩
        values := List.forall_mem_cons.2 ⟨h7, List.forall_mem_singleton.2 h8⟩ }
    have hformatted : IsFormatted repeated.toDocument :=
      Record.isFormatted_iff.2 ⟨repeated, Record.ofDocument_toDocument_iff.2 ⟨rfl, hvalid⟩⟩
    exact (resume_iff_isFormatted (hread _) repeated.parse_write_toDocument
      (Record.isClassifiable_toDocument (Word.exists_classify_iff.1 ⟨_, hwords⟩))).1.2 hformatted
  · have hx : Token.ofText? "x".toList = .ok none := by
      decide +kernel
    have hwords : Word.classify flawed.texts = .ok
        [⟨"7".toList, 0, some (.integer 7)⟩, ⟨"x".toList, 1, none⟩, ⟨"y".toList, 2, none⟩,
          ⟨"8".toList, 3, some (.integer 8)⟩] := by
      decide +kernel
    have hflaw : FirstFlaw flawed.toDocument entry := by
      have h7 : Text.IsOperand "7".toList := Or.inl ⟨7, by decide +kernel⟩
      have hlists : Lists flawed.toDocument
          ([Record.stringOf "7".toList] ++ [Record.stringOf "x".toList])
          [Record.pairOf ("y".toList, "8".toList)] := .object rfl rfl
      refine .entry hlists (List.forall_mem_singleton.2 ⟨_, rfl, h7⟩) ?_
      rintro ⟨t, ht, hoperand⟩
      obtain rfl := Record.stringOf_inj ht
      obtain ⟨token, htoken, -⟩ := Text.isOperand_iff.1 hoperand
      rw [hx] at htoken
      cases htoken
    exact ((resume_iff_isFormatted (hread _) flawed.parse_write_toDocument
      (Record.isClassifiable_toDocument (Word.exists_classify_iff.1 ⟨_, hwords⟩))).2.2.2 _
        hflaw).1
  · have hsingle : Json.IsPlain 1 single :=
      .array (List.forall_mem_singleton.2 (.string 0 _))
    have hplain : Json.IsPlain 3 unpaired :=
      .object (List.forall_mem_singleton.2 ⟨_, rfl⟩) (List.nodup_singleton _)
        (List.forall_mem_singleton.2 (.array (List.forall_mem_singleton.2 hsingle)))
    have hA : (Record.stringOf "A".toList).IsClassifiable :=
      Json.isClassifiable_string_iff.2 ⟨some (.name 'A'), by decide +kernel⟩
    have hstrings : single.IsClassifiable :=
      Json.isClassifiable_array_iff.2 (List.forall_mem_singleton.2 hA)
    have hunpaired : unpaired.IsClassifiable :=
      Json.isClassifiable_object_iff.2 (List.forall_mem_singleton.2
        (Json.isClassifiable_array_iff.2 (List.forall_mem_singleton.2 hstrings)))
    have hflaw : FirstFlaw unpaired pair := by
      have hlists : Lists unpaired [] ([] ++ [single]) := .object rfl rfl
      refine .pair hlists (List.forall_mem_nil _) (List.forall_mem_nil _) (.shape ?_)
      intro name value h
      have hitems : [Record.stringOf "A".toList] = [.string name, .string value] := Json.array.inj h
      cases hitems
    exact ((resume_iff_isFormatted (hread _) (hplain.parse_write (by decide)) hunpaired).2.2.2 _
      hflaw).1

end Session
end ReversePolish
