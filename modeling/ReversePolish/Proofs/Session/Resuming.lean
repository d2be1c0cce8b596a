import ReversePolish.Proofs.Json.Documents
import ReversePolish.Proofs.Session.Flaw
import ReversePolish.Session.Keeping

/-!
# Sessions that are kept and resumed

The bytes of a valid session are a session again, and if the layout of its
bindings is orderly it is the same one, chain for chain.  The bytes of any
other session are refused, as far as its texts can be classified.  Whatever
bytes are read as a session, the session is valid and orderly: what reading
lets pass is what evaluating can make.
-/

namespace ReversePolish

namespace Record

/-- The document of a record is plain: an object of arrays, of which one holds further arrays. -/
theorem isPlain_toDocument
    (r : Record) :
    r.toDocument.IsPlain 3 := by
  have hentries : ∀ item ∈ r.stack.map stringOf, item.IsPlain 1 := by
    intro item hitem
    obtain ⟨t, -, rfl⟩ := List.mem_map.1 hitem
    exact .string 1 t
  have hpairs : ∀ item ∈ r.bindings.map pairOf, item.IsPlain 1 := by
    intro item hitem
    obtain ⟨⟨name, value⟩, -, rfl⟩ := List.mem_map.1 hitem
    refine .array (List.forall_mem_cons.2 ⟨.string 0 name, ?_⟩)
    exact List.forall_mem_singleton.2 (.string 0 value)
  have hnodup : [Text.Symbol.ofText "stack".toList, Text.Symbol.ofText "variables".toList].Nodup := by
    decide
  refine .object ?_ hnodup ?_
  · refine List.forall_mem_cons.2 ⟨⟨"stack".toList, rfl⟩, ?_⟩
    exact List.forall_mem_singleton.2 ⟨"variables".toList, rfl⟩
  · refine List.forall_mem_cons.2 ⟨.array hentries, ?_⟩
    exact List.forall_mem_singleton.2 (.array hpairs)

theorem parse_write_toDocument
    (r : Record) :
    Json.parse r.toDocument.write = .ok r.toDocument :=
  r.isPlain_toDocument.parse_write (by decide)

/-- The two members of a document that a record is written as. -/
theorem part_of_toDocument
    {r : Record} {members : List (List Text.Symbol × Json)}
    (h : r.toDocument = .object members) :
    part "stack".toList members = .array (r.stack.map stringOf) ∧
      part "variables".toList members = .array (r.bindings.map pairOf) := by
  obtain rfl := Json.object.inj h
  exact ⟨rfl, rfl⟩

/-- The document of a record is read as that record, if the record is valid, and as no other. -/
theorem ofDocument_toDocument_iff
    {r other : Record} :
    ofDocument r.toDocument = .ok other ↔ other = r ∧ r.IsValid := by
  constructor
  · intro h
    obtain ⟨members, hdocument, hstack, hvariables, hvalid⟩ := ofDocument_eq_ok_iff.1 h
    obtain ⟨hown, hownVariables⟩ := part_of_toDocument hdocument
    have hsame : r.stack.map stringOf = other.stack.map stringOf :=
      Json.array.inj (hown.symm.trans hstack)
    have hsameBindings : r.bindings.map pairOf = other.bindings.map pairOf :=
      Json.array.inj (hownVariables.symm.trans hvariables)
    obtain rfl : r = other := by
      obtain ⟨stack, bindings⟩ := r
      obtain ⟨otherStack, otherBindings⟩ := other
      congr 1
      · exact (List.map_inj_right fun _ _ => stringOf_inj).1 hsame
      · exact (List.map_inj_right fun _ _ => pairOf_inj).1 hsameBindings
    exact ⟨rfl, hvalid⟩
  · rintro ⟨rfl, hvalid⟩
    obtain ⟨hstack, hvariables⟩ := part_of_toDocument (r := other) rfl
    exact ofDocument_eq_ok_iff.2 ⟨_, rfl, hstack, hvariables, hvalid⟩

/-- If nothing in a record keeps it from being classified, its document is read or has a flaw. -/
theorem ofDocument_toDocument_of_not_isValid
    {r : Record}
    (h : ¬ r.IsValid)
    (htexts : ∀ t ∈ r.texts, t.IsClassifiable) :
    ∃ flaw, ofDocument r.toDocument = .error (.flaw flaw) := by
  cases hread : ofDocument r.toDocument with
  | ok other => exact absurd (ofDocument_toDocument_iff.1 hread).2 h
  | error refusal =>
      have hclassifiable := isClassifiable_toDocument htexts
      obtain ⟨flaw, -, rfl⟩ := (ofDocument_eq_error_iff hclassifiable).1 hread
      exact ⟨flaw, rfl⟩

/-- Whatever a document is read as is valid. -/
theorem isValid_of_ofDocument
    {document : Json} {r : Record}
    (h : ofDocument document = .ok r) :
    r.IsValid := by
  obtain ⟨-, -, -, -, hvalid⟩ := ofDocument_eq_ok_iff.1 h
  exact hvalid

end Record

namespace Session

theorem isValid_toRecord_iff
    {s : Session} :
    s.toRecord.IsValid ↔ s.IsValid := by
  constructor
  · intro h
    exact ⟨fun t ht => h.entries t (List.mem_reverse.2 ht), h.names, h.values⟩
  · intro h
    exact ⟨fun t ht => h.entries t (List.mem_reverse.1 ht), h.names, h.values⟩

theorem isValid_ofRecord
    {r : Record}
    (h : r.IsValid) :
    (ofRecord r).IsValid where
  entries t ht := h.entries t (List.mem_reverse.1 ht)
  names pair hpair := h.names pair (Bindings.mem_toList_ofList hpair)
  values pair hpair := h.values pair (Bindings.mem_toList_ofList hpair)

theorem ofRecord_toRecord
    {s : Session}
    (h : s.bindings.IsOrderly) :
    ofRecord s.toRecord = s := by
  rw [ofRecord, toRecord, Stack.ofList_toList, h.ofList_toList]

theorem decode_toBytes
    (s : Session) :
    Text.Utf8.decode s.toBytes = .ok s.toText :=
  Text.Utf8.decode_eq_ok_iff.2 rfl

/-- The text of a session is parsed as the document of its record. -/
theorem parse_toText
    (s : Session) :
    Json.parse s.toText = .ok s.toRecord.toDocument :=
  s.toRecord.parse_write_toDocument

/-- The bytes of a valid session hold what its record restores, and those of no other are accepted. -/
theorem ofBytes_toBytes_eq_ok_iff
    {s t : Session} :
    ofBytes s.toBytes = .ok t ↔ s.IsValid ∧ t = ofRecord s.toRecord := by
  rw [ofBytes, decode_toBytes]
  simp only [ofText, parse_toText]
  cases hread : Record.ofDocument s.toRecord.toDocument with
  | ok r =>
      obtain ⟨rfl, hvalid⟩ := Record.ofDocument_toDocument_iff.1 hread
      simp [isValid_toRecord_iff.1 hvalid, eq_comm]
  | error refusal =>
      have hinvalid : ¬ s.IsValid := by
        intro hvalid
        rw [Record.ofDocument_toDocument_iff.2 ⟨rfl, isValid_toRecord_iff.2 hvalid⟩] at hread
        cases hread
      simp [hinvalid]

/-- **The bytes of a valid and orderly session hold that session.** -/
theorem ofBytes_toBytes
    {s : Session}
    (hvalid : s.IsValid)
    (horderly : s.bindings.IsOrderly) :
    ofBytes s.toBytes = .ok s :=
  ofBytes_toBytes_eq_ok_iff.2 ⟨hvalid, (ofRecord_toRecord horderly).symm⟩

/-- The bytes of a session that is not valid are refused. -/
theorem ofBytes_toBytes_of_not_isValid
    {s : Session}
    (h : ¬ s.IsValid)
    (htexts : ∀ t ∈ s.toRecord.texts, t.IsClassifiable) :
    ∃ flaw, ofBytes s.toBytes = .error (.problem (.flaw flaw)) := by
  have hrecord : ¬ s.toRecord.IsValid := fun hvalid => h (isValid_toRecord_iff.1 hvalid)
  obtain ⟨flaw, hflaw⟩ := Record.ofDocument_toDocument_of_not_isValid hrecord htexts
  refine ⟨flaw, ?_⟩
  rw [ofBytes, decode_toBytes]
  simp only [ofText, parse_toText, hflaw, Failure.ofRefusal]

/-- Every session that bytes hold is valid and orderly. -/
theorem isValid_of_ofBytes
    {bytes : List UInt8} {s : Session}
    (h : ofBytes bytes = .ok s) :
    s.IsValid ∧ s.bindings.IsOrderly := by
  rw [ofBytes] at h
  split at h
  · cases h
  · rw [ofText] at h
    split at h
    · cases h
    · split at h
      · cases h
      · rename_i r hr
        cases h
        exact ⟨isValid_ofRecord (Record.isValid_of_ofDocument hr), Bindings.isOrderly_ofList _⟩

theorem resume_of_read
    {d : Disk} {p : Path} {bytes : List UInt8}
    (h : d.read p = .ok bytes) :
    resume d p = ofBytes bytes := by
  rw [resume, h]

theorem resume_of_noEntry
    {d : Disk} {p : Path}
    (h : d.read p = .error .noEntry) :
    resume d p = .ok fresh := by
  rw [resume, h]

/-- Every session that is resumed is valid and orderly. -/
theorem isValid_of_resume
    {d : Disk} {p : Path} {s : Session}
    (h : resume d p = .ok s) :
    s.IsValid ∧ s.bindings.IsOrderly := by
  rw [resume] at h
  split at h
  · cases h
    exact ⟨isValid_fresh, Bindings.isOrderly_empty⟩
  · cases h
  · exact isValid_of_ofBytes h

end Session

end ReversePolish
