import ReversePolish.Proofs.Association
import ReversePolish.Proofs.Session.Document

/-!
# The flaws of documents

A document that holds a record is an object in which `stack` is an array of
operands and `variables` an array of pairs of a name and a value.  If every
string of a document can be classified, it is read as a record or refused for
its first flaw: its kind comes before the kinds of its members, these come
before the entries of the stack, and these before the pairs.  What is said of a
flaw names the kind of the flaw and shows the item that has it.
-/

namespace ReversePolish

open Text (Symbol)

namespace Json

/-- A string stands in a document: it is the document, or it stands in an item or in the value of
a member. -/
inductive Holds : Json → List Symbol → Prop
  | string (symbols : List Symbol) : Holds (.string symbols) symbols
  | item {items : List Json} {item : Json} {symbols : List Symbol}
      (hmem : item ∈ items) (h : Holds item symbols) : Holds (.array items) symbols
  | member {members : List (List Symbol × Json)} {key : List Symbol} {value : Json}
      {symbols : List Symbol} (hmem : (key, value) ∈ members) (h : Holds value symbols) :
      Holds (.object members) symbols

/-- Every string that stands in the document can be classified if it is a text. -/
def IsClassifiable (document : Json) : Prop :=
  ∀ t, document.Holds (Symbol.ofText t) → t.IsClassifiable

theorem isClassifiable_string_iff
    {t : Text} :
    (string (Symbol.ofText t)).IsClassifiable ↔ t.IsClassifiable := by
  constructor
  · intro h
    exact h t (.string _)
  · intro h u hu
    generalize hsymbols : Symbol.ofText u = symbols at hu
    cases hu
    exact Symbol.ofText_inj hsymbols ▸ h

theorem isClassifiable_array_iff
    {items : List Json} :
    (array items).IsClassifiable ↔ ∀ item ∈ items, item.IsClassifiable := by
  constructor
  · intro h item hitem t ht
    exact h t (.item hitem ht)
  · rintro h t (_ | ⟨hitem, ht⟩)
    exact h _ hitem t ht

theorem isClassifiable_object_iff
    {members : List (List Symbol × Json)} :
    (object members).IsClassifiable ↔ ∀ member ∈ members, member.2.IsClassifiable := by
  constructor
  · intro h member hmember t ht
    exact h t (.member hmember ht)
  · rintro h t (_ | _ | ⟨hmember, ht⟩)
    exact h _ hmember t ht

end Json

namespace Record

/-- An entry of a stack: a string that is an operand. -/
def IsEntry (entry : Json) : Prop :=
  ∃ t, entry = stringOf t ∧ t.IsOperand

/-- An array of two strings, of which the first is a name and the second an integer. -/
def IsPair (entry : Json) : Prop :=
  ∃ pair, entry = pairOf pair ∧ pair.1.IsName ∧ pair.2.IsInteger

/-- The two members of a document are arrays of these items. -/
inductive Lists : Json → List Json → List Json → Prop
  | object {members : List (List Symbol × Json)} {entries pairs : List Json}
      (hstack : part "stack".toList members = .array entries)
      (hvariables : part "variables".toList members = .array pairs) :
      Lists (.object members) entries pairs

/-- The documents that hold a record. -/
def IsFormatted (document : Json) : Prop :=
  ∃ entries pairs, Lists document entries pairs ∧
    (∀ entry ∈ entries, IsEntry entry) ∧ ∀ entry ∈ pairs, IsPair entry

/-- What is wrong with an entry that is no pair.  The name is looked at before the value. -/
inductive PairFlaw : Json → Flaw → Prop
  | shape {entry : Json}
      (h : ∀ name value, entry ≠ .array [.string name, .string value]) :
      PairFlaw entry (.pair entry)
  | name {name value : List Symbol}
      (h : ¬ ∃ t, name = Symbol.ofText t ∧ t.IsName) :
      PairFlaw (.array [.string name, .string value]) (.name name)
  | value {name : Text} {value : List Symbol}
      (hname : name.IsName)
      (h : ¬ ∃ t, value = Symbol.ofText t ∧ t.IsInteger) :
      PairFlaw (.array [stringOf name, .string value]) (.value name value)

/-- The first flaw of a document.  All that comes before it is as it should be. -/
inductive FirstFlaw : Json → Flaw → Prop
  | notObject {document : Json}
      (h : ∀ members, document ≠ .object members) :
      FirstFlaw document .notObject
  | notLists {members : List (List Symbol × Json)}
      (h : ¬ ∃ entries pairs, Lists (.object members) entries pairs) :
      FirstFlaw (.object members) .notLists
  | entry {document : Json} {below : List Json} {entry : Json} {above pairs : List Json}
      (hlists : Lists document (below ++ entry :: above) pairs)
      (hbelow : ∀ entry ∈ below, IsEntry entry)
      (hentry : ¬ IsEntry entry) :
      FirstFlaw document (.entry entry)
  | pair {document : Json} {entries before : List Json} {entry : Json} {after : List Json}
      {flaw : Flaw}
      (hlists : Lists document entries (before ++ entry :: after))
      (hentries : ∀ entry ∈ entries, IsEntry entry)
      (hbefore : ∀ entry ∈ before, IsPair entry)
      (hentry : PairFlaw entry flaw) :
      FirstFlaw document flaw

end Record

/-! ### Flaws in words -/

/-- What is to be said of a flaw. -/
inductive Flaw.Says : Flaw → Text → Prop
  | notObject : Says .notObject "expected a JSON object".toList
  | notLists : Says .notLists "\x27stack\x27 and \x27variables\x27 must be lists".toList
  | entry (entry : Json) :
      Says (.entry entry)
        ("stack entry ".toList ++ entry.display ++
          " is neither an integer nor a variable".toList)
  | pair (entry : Json) :
      Says (.pair entry)
        ("variable entry ".toList ++ entry.display ++
          " is not a [name, value] pair".toList)
  | name (name : List Symbol) :
      Says (.name name) (Text.Quoted.ofSymbols name ++ " is not a variable name".toList)
  | value (name : Text) (value : List Symbol) :
      Says (.value name value)
        ("variable ".toList ++ name ++ " holds ".toList ++ Text.Quoted.ofSymbols value ++
          ", which is not an integer".toList)

theorem Flaw.says_message
    (flaw : Flaw) :
    flaw.Says flaw.message := by
  cases flaw <;> constructor

namespace Record

/-! ### Strings of the items -/

/-- In the array that stands in for a missing member there is no string. -/
theorem isClassifiable_part
    {members : List (List Symbol × Json)}
    (h : (Json.object members).IsClassifiable)
    (key : Text) :
    (part key members).IsClassifiable := by
  rw [part]
  cases hmember : Json.member? key members with
  | none => exact Json.isClassifiable_array_iff.2 (List.forall_mem_nil _)
  | some value =>
      exact Json.isClassifiable_object_iff.1 h _ (Association.mem_of_find?_eq_some hmember)

theorem Lists.isClassifiable
    {document : Json} {entries pairs : List Json}
    (h : Lists document entries pairs)
    (hdocument : document.IsClassifiable) :
    (∀ entry ∈ entries, entry.IsClassifiable) ∧ ∀ entry ∈ pairs, entry.IsClassifiable := by
  obtain ⟨hstack, hvariables⟩ := h
  rw [← Json.isClassifiable_array_iff, ← Json.isClassifiable_array_iff, ← hstack, ← hvariables]
  exact ⟨isClassifiable_part hdocument _, isClassifiable_part hdocument _⟩

theorem isClassifiable_strings
    {first second : List Symbol}
    (h : (Json.array [.string first, .string second]).IsClassifiable) :
    (Json.string first).IsClassifiable ∧ (Json.string second).IsClassifiable := by
  obtain ⟨hfirst, hrest⟩ := List.forall_mem_cons.1 (Json.isClassifiable_array_iff.1 h)
  exact ⟨hfirst, List.forall_mem_singleton.1 hrest⟩

/-- Each text of a record stands in its document. -/
theorem isClassifiable_toDocument
    {r : Record}
    (h : ∀ t ∈ r.texts, t.IsClassifiable) :
    r.toDocument.IsClassifiable := by
  rw [texts, List.forall_mem_append, List.forall_mem_flatMap] at h
  obtain ⟨hstack, hbindings⟩ := h
  refine Json.isClassifiable_object_iff.2 (List.forall_mem_cons.2 ⟨?_, ?_⟩)
  · refine Json.isClassifiable_array_iff.2 (List.forall_mem_map.2 fun t ht => ?_)
    exact Json.isClassifiable_string_iff.2 (hstack t ht)
  · refine List.forall_mem_singleton.2 (Json.isClassifiable_array_iff.2 ?_)
    refine List.forall_mem_map.2 fun pair hpair => Json.isClassifiable_array_iff.2 ?_
    obtain ⟨hname, hrest⟩ := List.forall_mem_cons.1 (hbindings pair hpair)
    refine List.forall_mem_cons.2 ⟨Json.isClassifiable_string_iff.2 hname, ?_⟩
    exact List.forall_mem_singleton.2
      (Json.isClassifiable_string_iff.2 (List.forall_mem_singleton.1 hrest))

/-! ### Items that are read -/

theorem Lists.ofDocument_eq
    {document : Json} {entries pairs : List Json}
    (h : Lists document entries pairs) :
    ofDocument document =
      (do
        let stack ← entries.mapM readEntry
        let bindings ← pairs.mapM readPair
        return ⟨stack, bindings⟩) := by
  obtain ⟨hstack, hvariables⟩ := h
  exact ofDocument_object hstack hvariables

theorem mapM_readEntry_iff
    {entries : List Json} :
    (∃ stack, entries.mapM readEntry = .ok stack) ↔ ∀ entry ∈ entries, IsEntry entry := by
  simp only [Outcome.mapM_eq_ok_iff readEntry_eq_ok_iff]
  exact Outcome.forall_written_iff.symm

theorem mapM_readPair_iff
    {pairs : List Json} :
    (∃ bindings, pairs.mapM readPair = .ok bindings) ↔ ∀ entry ∈ pairs, IsPair entry := by
  simp only [Outcome.mapM_eq_ok_iff readPair_eq_ok_iff]
  exact Outcome.forall_written_iff.symm

/-- The documents of the format are those that are read. -/
theorem isFormatted_iff
    {document : Json} :
    IsFormatted document ↔ ∃ r, ofDocument document = .ok r := by
  constructor
  · rintro ⟨entries, pairs, hlists, hentries, hpairs⟩
    obtain ⟨stack, hstack⟩ := mapM_readEntry_iff.2 hentries
    obtain ⟨bindings, hbindings⟩ := mapM_readPair_iff.2 hpairs
    refine ⟨⟨stack, bindings⟩, ?_⟩
    rw [hlists.ofDocument_eq]
    exact Outcome.bind_eq_ok.2 ⟨stack, hstack, Outcome.bind_eq_ok.2 ⟨bindings, hbindings, rfl⟩⟩
  · rintro ⟨r, hr⟩
    obtain ⟨members, rfl, hstack, hvariables, hvalid⟩ := ofDocument_eq_ok_iff.1 hr
    refine ⟨_, _, .object hstack hvariables, ?_, ?_⟩
    · exact Outcome.forall_written_iff.2 ⟨r.stack, rfl, hvalid.entries⟩
    · exact Outcome.forall_written_iff.2 ⟨r.bindings, rfl,
        fun pair hpair => ⟨hvalid.names pair hpair, hvalid.values pair hpair⟩⟩

/-! ### Items that are refused -/

/-- If a string can be classified, it is refused for the flaw that goes with the test. -/
theorem eq_flaw_of_readWord
    {accepts : Token → Bool} {flaw : Flaw} {symbols : List Symbol} {refusal : Refusal}
    (h : (Json.string symbols).IsClassifiable)
    (hread : readWord accepts flaw symbols = .error refusal) :
    refusal = .flaw flaw := by
  rw [readWord] at hread
  split at hread
  · cases hread
    rfl
  · rename_i t ht
    obtain rfl := Symbol.toText?_eq_some_iff.1 ht
    obtain ⟨token?, htoken⟩ := h t (.string _)
    rw [htoken] at hread
    simp only at hread
    split at hread <;> cases hread
    rfl

theorem readWord_eq_error_iff
    {accepts : Token → Bool} {flaw : Flaw} {symbols : List Symbol} {refusal : Refusal}
    (h : (Json.string symbols).IsClassifiable) :
    readWord accepts flaw symbols = .error refusal ↔
      refusal = .flaw flaw ∧ ¬ ∃ t, symbols = Symbol.ofText t ∧
        ∃ token, Token.ofText? t = .ok (some token) ∧ accepts token = true :=
  Outcome.eq_error_iff_of_forall (exists_congr fun _ => readWord_eq_ok_iff)
    fun _ => eq_flaw_of_readWord h

theorem readEntry_eq_error_iff
    {entry : Json} {refusal : Refusal}
    (h : entry.IsClassifiable) :
    readEntry entry = .error refusal ↔ refusal = .flaw (.entry entry) ∧ ¬ IsEntry entry := by
  refine Outcome.eq_error_iff_of_forall (exists_congr fun t => readEntry_eq_ok_iff entry t) ?_
  intro other hread
  unfold readEntry at hread
  split at hread
  · exact eq_flaw_of_readWord h hread
  · cases hread
    rfl

theorem readPair_eq_error_iff
    {entry : Json} {refusal : Refusal}
    (h : entry.IsClassifiable) :
    readPair entry = .error refusal ↔ ∃ flaw, PairFlaw entry flaw ∧ refusal = .flaw flaw := by
  constructor
  · intro hread
    unfold readPair at hread
    split at hread
    · obtain ⟨hname, hvalue⟩ := isClassifiable_strings h
      rcases Outcome.bind_eq_error.1 hread with hreadName | ⟨name, hreadName, hrest⟩
      · obtain ⟨rfl, hnone⟩ := (readWord_eq_error_iff hname).1 hreadName
        simp only [← Text.isName_iff] at hnone
        exact ⟨_, .name hnone, rfl⟩
      · obtain ⟨rfl, htoken⟩ := readWord_eq_ok_iff.1 hreadName
        rcases Outcome.bind_eq_error.1 hrest with hreadValue | ⟨value, -, hdone⟩
        · obtain ⟨rfl, hnone⟩ := (readWord_eq_error_iff hvalue).1 hreadValue
          simp only [← Text.isInteger_iff] at hnone
          exact ⟨_, .value (Text.isName_iff.2 htoken) hnone, rfl⟩
        · cases hdone
    · rename_i hshape
      cases hread
      exact ⟨_, .shape hshape, rfl⟩
  · rintro ⟨flaw, hflaw, rfl⟩
    cases hflaw with
    | shape hshape =>
        unfold readPair
        split
        · exact absurd rfl (hshape _ _)
        · rfl
    | name hnone =>
        simp only [Text.isName_iff] at hnone
        obtain ⟨hname, -⟩ := isClassifiable_strings h
        refine Outcome.bind_eq_error.2 (Or.inl ?_)
        exact (readWord_eq_error_iff hname).2 ⟨rfl, hnone⟩
    | value hname hnone =>
        simp only [Text.isInteger_iff] at hnone
        obtain ⟨-, hvalue⟩ := isClassifiable_strings h
        refine Outcome.bind_eq_error.2
          (Or.inr ⟨_, readWord_eq_ok_iff.2 ⟨rfl, Text.isName_iff.1 hname⟩, ?_⟩)
        refine Outcome.bind_eq_error.2 (Or.inl ?_)
        exact (readWord_eq_error_iff hvalue).2 ⟨rfl, hnone⟩

theorem mapM_readEntry_eq_error_iff
    {entries : List Json} {refusal : Refusal}
    (h : ∀ entry ∈ entries, entry.IsClassifiable) :
    entries.mapM readEntry = .error refusal ↔
      ∃ below entry above, entries = below ++ entry :: above ∧
        (∀ entry ∈ below, IsEntry entry) ∧ ¬ IsEntry entry ∧
        refusal = .flaw (.entry entry) := by
  rw [Outcome.mapM_eq_error_iff_written readEntry_eq_ok_iff]
  constructor
  · rintro ⟨below, entry, above, rfl, hbelow, hread⟩
    obtain ⟨hrefusal, hentry⟩ := (readEntry_eq_error_iff (h entry (by simp))).1 hread
    exact ⟨below, entry, above, rfl, hbelow, hentry, hrefusal⟩
  · rintro ⟨below, entry, above, rfl, hbelow, hentry, hrefusal⟩
    have hread := (readEntry_eq_error_iff (h entry (by simp))).2 ⟨hrefusal, hentry⟩
    exact ⟨below, entry, above, rfl, hbelow, hread⟩

theorem mapM_readPair_eq_error_iff
    {pairs : List Json} {refusal : Refusal}
    (h : ∀ entry ∈ pairs, entry.IsClassifiable) :
    pairs.mapM readPair = .error refusal ↔
      ∃ before entry after flaw, pairs = before ++ entry :: after ∧
        (∀ entry ∈ before, IsPair entry) ∧ PairFlaw entry flaw ∧ refusal = .flaw flaw := by
  rw [Outcome.mapM_eq_error_iff_written readPair_eq_ok_iff]
  constructor
  · rintro ⟨before, entry, after, rfl, hbefore, hread⟩
    obtain ⟨flaw, hflaw, hrefusal⟩ := (readPair_eq_error_iff (h entry (by simp))).1 hread
    exact ⟨before, entry, after, flaw, rfl, hbefore, hflaw, hrefusal⟩
  · rintro ⟨before, entry, after, flaw, rfl, hbefore, hflaw, hrefusal⟩
    have hread := (readPair_eq_error_iff (h entry (by simp))).2 ⟨flaw, hflaw, hrefusal⟩
    exact ⟨before, entry, after, rfl, hbefore, hread⟩

/-- **A document is refused for its first flaw.** -/
theorem ofDocument_eq_error_iff
    {document : Json} {refusal : Refusal}
    (h : document.IsClassifiable) :
    ofDocument document = .error refusal ↔
      ∃ flaw, FirstFlaw document flaw ∧ refusal = .flaw flaw := by
  constructor
  · intro hread
    unfold ofDocument at hread
    split at hread
    · rename_i members
      split at hread
      · rename_i entries pairs hstack hvariables
        have hlists : Lists (.object members) entries pairs := .object hstack hvariables
        obtain ⟨hentries, hpairs⟩ := hlists.isClassifiable h
        rcases Outcome.bind_eq_error.1 hread with hrefused | ⟨stack, hok, hrest⟩
        · obtain ⟨below, entry, above, rfl, hbelow, hentry, rfl⟩ :=
            (mapM_readEntry_eq_error_iff hentries).1 hrefused
          exact ⟨_, .entry hlists hbelow hentry, rfl⟩
        · -- The pairs are come to only when the whole stack has passed.
          rcases Outcome.bind_eq_error.1 hrest with hrefused | ⟨bindings, -, hdone⟩
          · obtain ⟨before, entry, after, flaw, rfl, hbefore, hflaw, rfl⟩ :=
              (mapM_readPair_eq_error_iff hpairs).1 hrefused
            exact ⟨flaw, .pair hlists (mapM_readEntry_iff.1 ⟨stack, hok⟩) hbefore hflaw, rfl⟩
          · cases hdone
      · rename_i hnone
        cases hread
        refine ⟨_, .notLists ?_, rfl⟩
        rintro ⟨entries, pairs, ⟨hstack, hvariables⟩⟩
        exact hnone entries pairs hstack hvariables
    · rename_i hobject
      cases hread
      exact ⟨_, .notObject hobject, rfl⟩
  · rintro ⟨flaw, hflaw, rfl⟩
    cases hflaw with
    | notObject hobject =>
        unfold ofDocument
        split
        · exact absurd rfl (hobject _)
        · rfl
    | notLists hnone =>
        simp only [ofDocument]
        split
        · rename_i hstack hvariables
          exact absurd ⟨_, _, .object hstack hvariables⟩ hnone
        · rfl
    | entry hlists hbelow hentry =>
        obtain ⟨hentries, -⟩ := hlists.isClassifiable h
        rw [hlists.ofDocument_eq]
        refine Outcome.bind_eq_error.2 (Or.inl ?_)
        exact (mapM_readEntry_eq_error_iff hentries).2 ⟨_, _, _, rfl, hbelow, hentry, rfl⟩
    | pair hlists hall hbefore hentry =>
        obtain ⟨-, hpairs⟩ := hlists.isClassifiable h
        obtain ⟨stack, hok⟩ := mapM_readEntry_iff.2 hall
        rw [hlists.ofDocument_eq]
        refine Outcome.bind_eq_error.2 (Or.inr ⟨stack, hok, Outcome.bind_eq_error.2 (Or.inl ?_)⟩)
        exact (mapM_readPair_eq_error_iff hpairs).2 ⟨_, _, _, _, rfl, hbefore, hentry, rfl⟩

end Record

end ReversePolish
