import ReversePolish.Proofs.Json.Nesting
import ReversePolish.Proofs.Session.Resuming

/-!
# Files that are no session

Resuming should answer whatever a file holds: with a valid session, or with
the problem that there is.  Three things lie beyond that.  Bytes that are the
UTF-8 form of no text are not reported as a problem, and neither are a text
that is nested too deeply to be read and a document in which reading comes to a
word that is overlong.  Every other content of a file has its answer.
-/

namespace ReversePolish
namespace Session

/-- Resuming answers: with a session that is valid, or with a problem. -/
inductive Answers (d : Disk) (p : Path) : Prop
  | session {s : Session} (h : resume d p = .ok s) (hvalid : s.IsValid)
  | problem {problem : Problem} (h : resume d p = .error (.problem problem))

theorem answers_iff
    {d : Disk} {p : Path} :
    Answers d p ↔ ∀ b, resume d p ≠ .error (.breakdown b) := by
  constructor
  · rintro (⟨hanswer, -⟩ | hanswer) b hbreakdown
    · rw [hanswer] at hbreakdown
      cases hbreakdown
    · rw [hanswer] at hbreakdown
      cases hbreakdown
  · intro h
    cases hresume : resume d p with
    | ok s => exact .session hresume (isValid_of_resume hresume).1
    | error failure =>
        cases failure with
        | problem problem => exact .problem hresume
        | breakdown b => exact absurd hresume (h b)

/-- A text breaks resuming off when it is nested too deeply, or is a document in which reading comes
to an overlong word. -/
theorem ofText_eq_breakdown_iff
    {t : Text} {b : Breakdown} :
    ofText t = .error (.breakdown b) ↔
      (∃ c, Json.parse t = .error (.nesting c) ∧ b = .nesting c) ∨
        ∃ document word, Json.parse t = .ok document ∧ Record.BreaksAt document word ∧
          b = .numeral (.tooLong (Numeral.digits word).length) := by
  constructor
  · intro h
    rw [ofText] at h
    split at h
    · rename_i f hfault
      cases f with
      | malformed => cases h
      | nesting c =>
          cases h
          exact Or.inl ⟨c, hfault, rfl⟩
    · rename_i document hdocument
      split at h
      · rename_i refusal hrefusal
        cases refusal with
        | flaw flaw => cases h
        | fault f =>
            cases h
            obtain ⟨word, hbreaks, rfl⟩ := Record.ofDocument_eq_fault_iff.1 hrefusal
            exact Or.inr ⟨document, word, hdocument, hbreaks, rfl⟩
      · cases h
  · rintro (⟨c, hfault, rfl⟩ | ⟨document, word, hdocument, hbreaks, rfl⟩)
    · rw [ofText, hfault]
      rfl
    · have hrefusal := Record.ofDocument_eq_fault_iff.2 ⟨word, hbreaks, rfl⟩
      rw [ofText, hdocument]
      simp only [hrefusal, Failure.ofRefusal]

theorem ofBytes_eq_breakdown_iff
    {bytes : List UInt8} {b : Breakdown} :
    ofBytes bytes = .error (.breakdown b) ↔
      (∃ f, Text.Utf8.decode bytes = .error f ∧ b = .encoding f) ∨
        (∃ t c, bytes = Text.Utf8.encode t ∧ Json.parse t = .error (.nesting c) ∧
          b = .nesting c) ∨
        ∃ t document word, bytes = Text.Utf8.encode t ∧ Json.parse t = .ok document ∧
          Record.BreaksAt document word ∧
          b = .numeral (.tooLong (Numeral.digits word).length) := by
  constructor
  · intro h
    rw [ofBytes] at h
    split at h
    · rename_i f hdecode
      cases h
      exact Or.inl ⟨f, hdecode, rfl⟩
    · rename_i t hdecode
      have hbytes := Text.Utf8.decode_eq_ok_iff.1 hdecode
      rcases ofText_eq_breakdown_iff.1 h with
        ⟨c, hfault, hb⟩ | ⟨document, word, hdocument, hbreaks, hb⟩
      · exact Or.inr (Or.inl ⟨t, c, hbytes, hfault, hb⟩)
      · exact Or.inr (Or.inr ⟨t, document, word, hbytes, hdocument, hbreaks, hb⟩)
  · rintro (⟨f, hdecode, rfl⟩ | ⟨t, c, hbytes, hfault, hb⟩ |
      ⟨t, document, word, hbytes, hdocument, hbreaks, hb⟩)
    · rw [ofBytes, hdecode]
    · rw [ofBytes, Text.Utf8.decode_eq_ok_iff.2 hbytes]
      exact ofText_eq_breakdown_iff.2 (Or.inl ⟨c, hfault, hb⟩)
    · rw [ofBytes, Text.Utf8.decode_eq_ok_iff.2 hbytes]
      exact ofText_eq_breakdown_iff.2 (Or.inr ⟨document, word, hdocument, hbreaks, hb⟩)

/-- A session with an overlong entry above operands can be kept, and not resumed. -/
theorem ofBytes_toBytes_of_isOverlong
    {s : Session} {below above : List Text} {t : Text}
    (hstack : s.stack.toList = below ++ t :: above)
    (hbelow : ∀ u ∈ below, u.IsOperand)
    (ht : Numeral.IsOverlong t) :
    ofBytes s.toBytes = .error (.breakdown (.numeral (.tooLong (Numeral.digits t).length))) := by
  have hbreaks : Record.BreaksAt s.toRecord.toDocument t := by
    obtain ⟨hentries, hpairs⟩ := Record.part_of_toDocument (r := s.toRecord) rfl
    have hitems : s.toRecord.stack.map Record.stringOf =
        below.map Record.stringOf ++ Record.stringOf t :: above.map Record.stringOf := by
      rw [toRecord, hstack, List.map_append, List.map_cons]
    exact .entry (hentries.trans (congrArg Json.array hitems)) hpairs hbelow ht
  exact ofBytes_eq_breakdown_iff.2
    (Or.inr (Or.inr ⟨s.toText, _, t, rfl, s.parse_toText, hbreaks, rfl⟩))

/-- A file that begins with more opening brackets than may be open breaks resuming off. -/
theorem resume_of_brackets
    {d : Disk} {p : Path} (rest : Text)
    (hread : d.read p =
      .ok (Text.Utf8.encode (List.replicate (Json.nestingLimit + 1) '[' ++ rest))) :
    resume d p = .error (.breakdown (.nesting .array)) := by
  rw [resume_of_read hread]
  exact ofBytes_eq_breakdown_iff.2
    (Or.inr (Or.inl ⟨_, .array, rfl, Json.parse_brackets rest, rfl⟩))

/-- **Resuming a file is answered unless the file is not in UTF-8, is nested too deeply or comes to an
overlong word.**  In these three cases it is broken off, with what cannot be decoded or read.  Too
deep is only what opens more than `Json.nestingLimit` arrays and objects inside one another. -/
theorem answers_of_read_iff
    {d : Disk} {p : Path} {bytes : List UInt8}
    (hread : d.read p = .ok bytes) :
    (Answers d p ↔
        ∃ t, bytes = Text.Utf8.encode t ∧
          (∀ c, Json.parse t ≠ .error (.nesting c)) ∧
          ∀ document word, Json.parse t = .ok document → ¬ Record.BreaksAt document word) ∧
      (∀ b, resume d p = .error (.breakdown b) ↔
        (∃ f, Text.Utf8.decode bytes = .error f ∧ b = .encoding f) ∨
          (∃ t c, bytes = Text.Utf8.encode t ∧ Json.parse t = .error (.nesting c) ∧
            b = .nesting c) ∨
          ∃ t document word, bytes = Text.Utf8.encode t ∧ Json.parse t = .ok document ∧
            Record.BreaksAt document word ∧
            b = .numeral (.tooLong (Numeral.digits word).length)) ∧
      ∀ t c, bytes = Text.Utf8.encode t → Json.parse t = .error (.nesting c) →
        Json.nestingLimit < Json.deepest t := by
  rw [answers_iff, resume_of_read hread]
  refine ⟨⟨?_, ?_⟩, fun b => ofBytes_eq_breakdown_iff,
    fun t c _ hfault => Json.nestingLimit_lt_deepest hfault⟩
  · intro h
    cases hdecode : Text.Utf8.decode bytes with
    | error f => exact absurd (ofBytes_eq_breakdown_iff.2 (Or.inl ⟨f, hdecode, rfl⟩)) (h _)
    | ok t =>
        have hbytes := Text.Utf8.decode_eq_ok_iff.1 hdecode
        refine ⟨t, hbytes, ?_, ?_⟩
        · intro c hfault
          exact h _ (ofBytes_eq_breakdown_iff.2 (Or.inr (Or.inl ⟨t, c, hbytes, hfault, rfl⟩)))
        · intro document word hdocument hbreaks
          exact h _ (ofBytes_eq_breakdown_iff.2
            (Or.inr (Or.inr ⟨t, document, word, hbytes, hdocument, hbreaks, rfl⟩)))
  · rintro ⟨t, hbytes, hnested, ht⟩ b hbreakdown
    have hdecode := Text.Utf8.decode_eq_ok_iff.2 hbytes
    -- Bytes are the form of one text only.
    have hsame : ∀ other, bytes = Text.Utf8.encode other → other = t := by
      intro other hother
      exact Except.ok.inj ((Text.Utf8.decode_eq_ok_iff.2 hother).symm.trans hdecode)
    rcases ofBytes_eq_breakdown_iff.1 hbreakdown with
      ⟨f, hfault, -⟩ | ⟨other, c, hother, hfault, -⟩ |
        ⟨other, document, word, hother, hdocument, hbreaks, -⟩
    · rw [hdecode] at hfault
      cases hfault
    · obtain rfl := hsame other hother
      exact hnested c hfault
    · obtain rfl := hsame other hother
      exact ht document word hdocument hbreaks

/-- An array of one name is no session, and that is the answer. -/
theorem answers_of_read_iff_array :
    let d : Disk := ⟨[(["session.json".toList], .file (Text.Utf8.encode "[\"A\"]".toList))], []⟩
    let p : Path := ⟨.here, ["session.json".toList]⟩
    d.read p = .ok (Text.Utf8.encode "[\"A\"]".toList) ∧ Answers d p := by
  intro d p
  have hread : d.read p = .ok (Text.Utf8.encode "[\"A\"]".toList) := by
    decide +kernel
  have harray : Json.parse "[\"A\"]".toList = .ok (.array [.string [.char 'A']]) := by
    rfl
  refine ⟨hread, (answers_of_read_iff hread).1.2 ⟨_, rfl, ?_, ?_⟩⟩
  · intro c hfault
    rw [harray] at hfault
    cases hfault
  · intro document word hdocument hbreaks
    rw [harray] at hdocument
    cases hdocument
    cases hbreaks

/-- A byte that starts no character breaks resuming off, and so do a thousand opening brackets and a
stack on which the number one is spelled with enough zeros. -/
theorem not_answers_invalid_start :
    let p : Path := ⟨.here, ["session.json".toList]⟩
    let holding (bytes : List UInt8) : Disk := ⟨[(["session.json".toList], .file bytes)], []⟩
    let nested := Text.Utf8.encode (List.replicate 1000 '[')
    let overlong := ofRecord ⟨[List.replicate 4300 '0' ++ ['1']], []⟩
    resume (holding [0xff]) p = .error (.breakdown (.encoding ⟨.invalidStart, 0, 0, 0xff⟩)) ∧
      ¬ Answers (holding [0xff]) p ∧
      resume (holding nested) p = .error (.breakdown (.nesting .array)) ∧
      ¬ Answers (holding nested) p ∧
      resume (holding overlong.toBytes) p = .error (.breakdown (.numeral (.tooLong 4301))) ∧
      ¬ Answers (holding overlong.toBytes) p := by
  intro p holding nested overlong
  have hread : ∀ bytes, (holding bytes).read p = .ok bytes := by
    intro bytes
    rfl
  have hencoding : resume (holding [0xff]) p =
      .error (.breakdown (.encoding ⟨.invalidStart, 0, 0, 0xff⟩)) := by
    have hdecode : Text.Utf8.decode [0xff] = .error ⟨.invalidStart, 0, 0, 0xff⟩ := by
      decide +kernel
    rw [resume_of_read (hread _), ofBytes, hdecode]
  have hnesting : resume (holding nested) p = .error (.breakdown (.nesting .array)) := by
    have hcount : 1000 = Json.nestingLimit + 1 + 7 := rfl
    refine resume_of_brackets (List.replicate 7 '[') ?_
    rw [hread, List.replicate_append_replicate, ← hcount]
  have hnumeral : resume (holding overlong.toBytes) p =
      .error (.breakdown (.numeral (.tooLong 4301))) := by
    have hbytes := ofBytes_toBytes_of_isOverlong (s := overlong) (stack_ofRecord _)
      (List.forall_mem_nil _) (Numeral.isOverlong_zeros_one (Nat.le_refl 4300))
    rw [Numeral.length_digits_zeros_one] at hbytes
    rw [resume_of_read (hread _), hbytes]
  exact ⟨hencoding, fun h => answers_iff.1 h _ hencoding,
    hnesting, fun h => answers_iff.1 h _ hnesting,
    hnumeral, fun h => answers_iff.1 h _ hnumeral⟩

end Session
end ReversePolish
