import ReversePolish.Proofs.Outcome
import ReversePolish.Proofs.Session.Validity
import ReversePolish.Proofs.Word.Overlong
import ReversePolish.Session.Document

/-!
# What a document is read as

A document is read as a record exactly when its two members are those of a
valid record; what else it holds does not matter.  Reading has two other ways
to end: at the first flaw, or at the first word that is overlong, provided
that all that is looked at before it is as it should be.
-/

namespace ReversePolish

theorem Text.Symbol.toText?_eq_some_iff
    {symbols : List Symbol} {t : Text} :
    toText? symbols = some t ↔ symbols = ofText t := by
  constructor
  · intro h
    induction symbols generalizing t with
    | nil =>
        cases h
        rfl
    | cons symbol rest ih =>
        cases symbol with
        | surrogate code => cases h
        | char c =>
            obtain ⟨u, hrest, rfl⟩ := Option.map_eq_some_iff.1 h
            rw [ih hrest]
            rfl
  · rintro rfl
    exact toText?_ofText t

theorem Text.Symbol.ofText_inj
    {t u : Text}
    (h : ofText t = ofText u) :
    t = u := by
  have htext := toText?_eq_some_iff.2 h
  rw [toText?_ofText] at htext
  exact Option.some.inj htext

namespace Record

open Text (Symbol)

/-- Every text of the record means what it should as a word. -/
structure IsValid (r : Record) : Prop where
  entries : ∀ t ∈ r.stack, t.IsOperand
  names : ∀ pair ∈ r.bindings, pair.1.IsName
  values : ∀ pair ∈ r.bindings, pair.2.IsInteger

/-- All texts of a record. -/
def texts (r : Record) : List Text :=
  r.stack ++ r.bindings.flatMap fun pair => [pair.1, pair.2]

theorem stringOf_inj
    {t u : Text}
    (h : stringOf t = stringOf u) :
    t = u :=
  Symbol.ofText_inj (Json.string.inj h)

theorem pairOf_inj
    {pair other : Text × Text}
    (h : pairOf pair = pairOf other) :
    pair = other := by
  obtain ⟨hname, hrest⟩ := List.cons.inj (Json.array.inj h)
  exact Prod.ext (stringOf_inj hname) (stringOf_inj (List.cons.inj hrest).1)

/-! ### Words of a document -/

section Words

variable {accepts : Token → Bool} {flaw : Flaw} {symbols : List Symbol}

/-- A string passes if it is a text with a meaning that the test accepts. -/
theorem readWord_eq_ok_iff
    {t : Text} :
    readWord accepts flaw symbols = .ok t ↔
      symbols = Symbol.ofText t ∧
        ∃ token, Token.ofText? t = .ok (some token) ∧ accepts token = true := by
  constructor
  · intro h
    rw [readWord] at h
    split at h
    · cases h
    · rename_i text htext
      split at h
      · cases h
      · rename_i token? htoken
        split at h
        · rename_i haccepts
          cases h
          obtain ⟨token, rfl, haccepts⟩ := (Option.any_eq_true _ _).1 haccepts
          exact ⟨Symbol.toText?_eq_some_iff.1 htext, token, htoken, haccepts⟩
        · cases h
  · rintro ⟨rfl, token, htoken, haccepts⟩
    rw [readWord_ofText accepts flaw t htoken, Option.any_some, if_pos haccepts]

/-- Whatever the test is, a string that is overlong cannot be read. -/
theorem readWord_eq_fault_iff
    {f : Numeral.Fault} :
    readWord accepts flaw symbols = .error (.fault f) ↔
      ∃ t, symbols = Symbol.ofText t ∧ Numeral.IsOverlong t ∧
        f = .tooLong (Numeral.digits t).length := by
  constructor
  · intro h
    rw [readWord] at h
    split at h
    · cases h
    · rename_i text htext
      split at h
      · rename_i fault htoken
        cases h
        exact ⟨text, Symbol.toText?_eq_some_iff.1 htext, Token.ofText?_eq_error_iff.1 htoken⟩
      · split at h <;> cases h
  · rintro ⟨t, rfl, ht⟩
    rw [readWord, Symbol.toText?_ofText]
    simp only [Token.ofText?_eq_error_iff.2 ht]

end Words

theorem readEntry_eq_ok_iff
    (entry : Json) (t : Text) :
    readEntry entry = .ok t ↔ entry = stringOf t ∧ t.IsOperand := by
  rw [Text.isOperand_iff]
  constructor
  · intro h
    unfold readEntry at h
    split at h
    · obtain ⟨rfl, htoken⟩ := readWord_eq_ok_iff.1 h
      exact ⟨rfl, htoken⟩
    · cases h
  · rintro ⟨rfl, htoken⟩
    exact readWord_eq_ok_iff.2 ⟨rfl, htoken⟩

theorem readEntry_eq_fault_iff
    {entry : Json} {f : Numeral.Fault} :
    readEntry entry = .error (.fault f) ↔
      ∃ t, entry = stringOf t ∧ Numeral.IsOverlong t ∧
        f = .tooLong (Numeral.digits t).length := by
  constructor
  · intro h
    unfold readEntry at h
    split at h
    · obtain ⟨t, rfl, ht⟩ := readWord_eq_fault_iff.1 h
      exact ⟨t, rfl, ht⟩
    · cases h
  · rintro ⟨t, rfl, ht⟩
    exact readWord_eq_fault_iff.2 ⟨t, rfl, ht⟩

theorem readPair_eq_ok_iff
    (entry : Json) (pair : Text × Text) :
    readPair entry = .ok pair ↔ entry = pairOf pair ∧ pair.1.IsName ∧ pair.2.IsInteger := by
  rw [Text.isName_iff, Text.isInteger_iff]
  constructor
  · intro h
    unfold readPair at h
    split at h
    · obtain ⟨name, hreadName, h⟩ := Outcome.bind_eq_ok.1 h
      obtain ⟨value, hreadValue, h⟩ := Outcome.bind_eq_ok.1 h
      cases h
      obtain ⟨rfl, hname⟩ := readWord_eq_ok_iff.1 hreadName
      obtain ⟨rfl, hvalue⟩ := readWord_eq_ok_iff.1 hreadValue
      exact ⟨rfl, hname, hvalue⟩
    · cases h
  · rintro ⟨rfl, hname, hvalue⟩
    obtain ⟨name, value⟩ := pair
    refine Outcome.bind_eq_ok.2 ⟨name, readWord_eq_ok_iff.2 ⟨rfl, hname⟩, ?_⟩
    exact Outcome.bind_eq_ok.2 ⟨value, readWord_eq_ok_iff.2 ⟨rfl, hvalue⟩, rfl⟩

/-- A pair of strings in which a word comes up that is overlong: the name, or the value if the
name is as it should be. -/
inductive PairBreaksAt : Json → Text → Prop
  | name {t : Text} (value : List Symbol) (ht : Numeral.IsOverlong t) :
      PairBreaksAt (.array [stringOf t, .string value]) t
  | value {name t : Text} (hname : name.IsName) (ht : Numeral.IsOverlong t) :
      PairBreaksAt (pairOf (name, t)) t

theorem readPair_eq_fault_iff
    {entry : Json} {f : Numeral.Fault} :
    readPair entry = .error (.fault f) ↔
      ∃ t, PairBreaksAt entry t ∧ f = .tooLong (Numeral.digits t).length := by
  constructor
  · intro h
    unfold readPair at h
    split at h
    · rename_i nameSymbols valueSymbols
      rcases Outcome.bind_eq_error.1 h with hreadName | ⟨name, hreadName, h⟩
      · obtain ⟨t, rfl, ht, hf⟩ := readWord_eq_fault_iff.1 hreadName
        exact ⟨t, .name valueSymbols ht, hf⟩
      · rcases Outcome.bind_eq_error.1 h with hreadValue | ⟨value, -, h⟩
        · obtain ⟨rfl, hname⟩ := readWord_eq_ok_iff.1 hreadName
          obtain ⟨t, rfl, ht, hf⟩ := readWord_eq_fault_iff.1 hreadValue
          exact ⟨t, .value (Text.isName_iff.2 hname) ht, hf⟩
        · cases h
    · cases h
  · rintro ⟨t, hentry, hf⟩
    cases hentry with
    | name value ht =>
        refine Outcome.bind_eq_error.2 (Or.inl ?_)
        exact readWord_eq_fault_iff.2 ⟨t, rfl, ht, hf⟩
    | @value name _ hname ht =>
        refine Outcome.bind_eq_error.2
          (Or.inr ⟨name, readWord_eq_ok_iff.2 ⟨rfl, Text.isName_iff.1 hname⟩, ?_⟩)
        refine Outcome.bind_eq_error.2 (Or.inl ?_)
        exact readWord_eq_fault_iff.2 ⟨t, rfl, ht, hf⟩

/-! ### Documents -/

/-- The value of a member, for which an empty array stands in if it is missing. -/
def part (key : Text) (members : List (List Symbol × Json)) : Json :=
  (Json.member? key members).getD (.array [])

/-- Reading goes through two arrays. -/
theorem ofDocument_object
    {members : List (List Symbol × Json)} {entries pairs : List Json}
    (hstack : part "stack".toList members = .array entries)
    (hvariables : part "variables".toList members = .array pairs) :
    ofDocument (.object members) =
      (do
        let stack ← entries.mapM readEntry
        let bindings ← pairs.mapM readPair
        return ⟨stack, bindings⟩) := by
  rw [part] at hstack hvariables
  rw [ofDocument]
  simp only [hstack, hvariables]

/-- What has no two arrays has a flaw. -/
theorem ofDocument_eq_flaw_or
    (document : Json) :
    (∃ flaw, ofDocument document = .error (.flaw flaw)) ∨
      ∃ members entries pairs, document = .object members ∧
        part "stack".toList members = .array entries ∧
        part "variables".toList members = .array pairs := by
  unfold ofDocument
  split
  · rename_i members
    split
    · rename_i entries pairs hstack hvariables
      exact Or.inr ⟨members, entries, pairs, rfl, hstack, hvariables⟩
    · exact Or.inl ⟨_, rfl⟩
  · exact Or.inl ⟨_, rfl⟩

/-- **A document holds a record when its two members are those of the record, and the record is
valid.** -/
theorem ofDocument_eq_ok_iff
    {document : Json} {r : Record} :
    ofDocument document = .ok r ↔
      ∃ members, document = .object members ∧
        part "stack".toList members = .array (r.stack.map stringOf) ∧
        part "variables".toList members = .array (r.bindings.map pairOf) ∧ r.IsValid := by
  constructor
  · intro h
    rcases ofDocument_eq_flaw_or document with
      ⟨flaw, hflaw⟩ | ⟨members, entries, pairs, rfl, hentries, hpairs⟩
    · rw [hflaw] at h
      cases h
    · rw [ofDocument_object hentries hpairs] at h
      obtain ⟨stack, hstack, h⟩ := Outcome.bind_eq_ok.1 h
      obtain ⟨bindings, hbindings, h⟩ := Outcome.bind_eq_ok.1 h
      cases h
      obtain ⟨rfl, hoperands⟩ := (Outcome.mapM_eq_ok_iff readEntry_eq_ok_iff).1 hstack
      obtain ⟨rfl, hpairwise⟩ := (Outcome.mapM_eq_ok_iff readPair_eq_ok_iff).1 hbindings
      exact ⟨members, rfl, hentries, hpairs, hoperands,
        fun pair hpair => (hpairwise pair hpair).1, fun pair hpair => (hpairwise pair hpair).2⟩
  · rintro ⟨members, rfl, hstack, hvariables, hvalid⟩
    have hentries : (r.stack.map stringOf).mapM readEntry = .ok r.stack :=
      (Outcome.mapM_eq_ok_iff readEntry_eq_ok_iff).2 ⟨rfl, hvalid.entries⟩
    have hpairs : (r.bindings.map pairOf).mapM readPair = .ok r.bindings :=
      (Outcome.mapM_eq_ok_iff readPair_eq_ok_iff).2
        ⟨rfl, fun pair hpair => ⟨hvalid.names pair hpair, hvalid.values pair hpair⟩⟩
    rw [ofDocument_object hstack hvariables]
    exact Outcome.bind_eq_ok.2 ⟨r.stack, hentries, Outcome.bind_eq_ok.2 ⟨r.bindings, hpairs, rfl⟩⟩

/-- Reading a document comes to a word that is overlong.  All that is looked at before it is as it
should be: the entries below it if it is in the stack, else the whole stack and the pairs before
its own. -/
inductive BreaksAt : Json → Text → Prop
  | entry {members : List (List Symbol × Json)} {below : List Text} {t : Text}
      {above pairs : List Json}
      (hstack : part "stack".toList members = .array (below.map stringOf ++ stringOf t :: above))
      (hvariables : part "variables".toList members = .array pairs)
      (hbelow : ∀ u ∈ below, u.IsOperand)
      (ht : Numeral.IsOverlong t) :
      BreaksAt (.object members) t
  | pair {members : List (List Symbol × Json)} {stack : List Text}
      {before : List (Text × Text)} {entry : Json} {after : List Json} {t : Text}
      (hstack : part "stack".toList members = .array (stack.map stringOf))
      (hvariables : part "variables".toList members =
        .array (before.map pairOf ++ entry :: after))
      (hoperands : ∀ u ∈ stack, u.IsOperand)
      (hbefore : ∀ pair ∈ before, pair.1.IsName ∧ pair.2.IsInteger)
      (hentry : PairBreaksAt entry t) :
      BreaksAt (.object members) t

/-- **Reading a document is broken off at the first overlong word that it comes to.** -/
theorem ofDocument_eq_fault_iff
    {document : Json} {f : Numeral.Fault} :
    ofDocument document = .error (.fault f) ↔
      ∃ t, BreaksAt document t ∧ f = .tooLong (Numeral.digits t).length := by
  constructor
  · intro h
    rcases ofDocument_eq_flaw_or document with
      ⟨flaw, hflaw⟩ | ⟨members, entries, pairs, rfl, hentries, hpairs⟩
    · rw [hflaw] at h
      cases h
    · rw [ofDocument_object hentries hpairs] at h
      rcases Outcome.bind_eq_error.1 h with hstack | ⟨stack, hstack, h⟩
      · obtain ⟨below, entry, above, rfl, hbelow, hentry⟩ :=
          (Outcome.mapM_eq_error_iff readEntry_eq_ok_iff).1 hstack
        obtain ⟨t, rfl, ht, hf⟩ := readEntry_eq_fault_iff.1 hentry
        exact ⟨t, .entry hentries hpairs hbelow ht, hf⟩
      · rcases Outcome.bind_eq_error.1 h with hbindings | ⟨bindings, -, h⟩
        · obtain ⟨before, entry, after, rfl, hbefore, hentry⟩ :=
            (Outcome.mapM_eq_error_iff readPair_eq_ok_iff).1 hbindings
          obtain ⟨rfl, hoperands⟩ := (Outcome.mapM_eq_ok_iff readEntry_eq_ok_iff).1 hstack
          obtain ⟨t, ht, hf⟩ := readPair_eq_fault_iff.1 hentry
          exact ⟨t, .pair hentries hpairs hoperands hbefore ht, hf⟩
        · cases h
  · rintro ⟨t, hbreaks, hf⟩
    cases hbreaks with
    | @entry members below _ above pairs hstack hvariables hbelow ht =>
        rw [ofDocument_object hstack hvariables]
        refine Outcome.bind_eq_error.2 (Or.inl ?_)
        refine (Outcome.mapM_eq_error_iff readEntry_eq_ok_iff).2
          ⟨below, stringOf t, above, rfl, hbelow, ?_⟩
        exact readEntry_eq_fault_iff.2 ⟨t, rfl, ht, hf⟩
    | @pair members stack before entry after _ hstack hvariables hoperands hbefore hentry =>
        have hentries : (stack.map stringOf).mapM readEntry = .ok stack :=
          (Outcome.mapM_eq_ok_iff readEntry_eq_ok_iff).2 ⟨rfl, hoperands⟩
        rw [ofDocument_object hstack hvariables]
        refine Outcome.bind_eq_error.2 (Or.inr ⟨stack, hentries, ?_⟩)
        refine Outcome.bind_eq_error.2 (Or.inl ?_)
        exact (Outcome.mapM_eq_error_iff readPair_eq_ok_iff).2
          ⟨before, entry, after, rfl, hbefore, readPair_eq_fault_iff.2 ⟨t, hentry, hf⟩⟩

end Record

end ReversePolish
