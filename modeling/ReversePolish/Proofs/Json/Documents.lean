import ReversePolish.Proofs.Association
import ReversePolish.Proofs.Json.Strings
import ReversePolish.Proofs.Outcome

/-!
# Reading back documents

A plain document is made up of strings of characters, arrays and objects whose
keys differ, of which only so many stand inside one another.  The written form
of a plain document reads back as the document, whatever follows it, if there
is room for its arrays and objects; the depth that reading is given suffices as
soon as it reaches the length of the written form.
-/

namespace ReversePolish
namespace Json

/-- Documents made up of strings of characters, arrays, and objects whose keys differ, with no more
than the given number of arrays and objects inside one another. -/
inductive IsPlain : Nat → Json → Prop
  | string (level : Nat) (t : Text) : IsPlain level (.string (Text.Symbol.ofText t))
  | array {level : Nat} {items : List Json}
      (hitems : ∀ item ∈ items, IsPlain level item) : IsPlain (level + 1) (.array items)
  | object {level : Nat} {members : List (List Text.Symbol × Json)}
      (hkeys : ∀ entry ∈ members, ∃ t, entry.1 = Text.Symbol.ofText t)
      (hnodup : (members.map Prod.fst).Nodup)
      (hvalues : ∀ entry ∈ members, IsPlain level entry.2) :
      IsPlain (level + 1) (.object members)

section Plain

variable {level : Nat}

theorem skipBlanks_cons
    {c : Char} (rest : Text)
    (h : isBlank c = false) :
    skipBlanks (c :: rest) = c :: rest :=
  List.dropWhile_cons_of_neg (by rw [h]; exact Bool.false_ne_true)

/-- A plain document starts with a quotation mark, a bracket or a brace. -/
theorem IsPlain.write_eq_cons
    {j : Json}
    (h : IsPlain level j) :
    ∃ c t, j.write = c :: t ∧ isBlank c = false ∧ c ≠ ']' := by
  cases h with
  | string t =>
      rw [write, writeString]
      exact ⟨_, _, rfl, by decide, by decide⟩
  | array hitems =>
      rw [write]
      exact ⟨_, _, rfl, by decide, by decide⟩
  | object hkeys hnodup hvalues =>
      rw [write]
      exact ⟨_, _, rfl, by decide, by decide⟩

theorem IsPlain.skipBlanks_write
    {j : Json}
    (h : IsPlain level j)
    (rest : Text) :
    skipBlanks (j.write ++ rest) = j.write ++ rest := by
  obtain ⟨c, t, hwrite, hblank, -⟩ := h.write_eq_cons
  rw [hwrite, List.cons_append, skipBlanks_cons _ hblank]

/-- What reading a written value comes to, whatever follows it, with room for so many arrays and
objects inside one another. -/
def ReadsBack (level : Nat) (j : Json) : Prop :=
  ∀ depth room rest, j.write.length ≤ depth → level ≤ room →
    readValue depth room (j.write ++ rest) = .ok (j, rest)

theorem writeItems_cons_cons
    (item next : Json) (rest : List Json) :
    writeItems (item :: next :: rest) =
      item.write ++ ',' :: ' ' :: writeItems (next :: rest) := by
  rw [writeItems, List.append_assoc]
  · rfl
  · exact fun h => by cases h

/-- Items in a row start as the first of them does. -/
theorem writeItems_eq_cons
    {item : Json} (rest : List Json)
    (h : IsPlain level item) :
    ∃ c t, writeItems (item :: rest) = c :: t ∧ isBlank c = false ∧ c ≠ ']' := by
  obtain ⟨c, t, hwrite, hblank, hbracket⟩ := h.write_eq_cons
  cases rest with
  | nil =>
      rw [writeItems]
      exact ⟨c, t, hwrite, hblank, hbracket⟩
  | cons next rest =>
      rw [writeItems_cons_cons, hwrite]
      exact ⟨c, _, rfl, hblank, hbracket⟩

theorem skipBlanks_writeItems
    {item : Json} (rest : List Json) (behind : Text)
    (h : IsPlain level item) :
    skipBlanks (writeItems (item :: rest) ++ behind) = writeItems (item :: rest) ++ behind := by
  obtain ⟨c, t, hwrite, hblank, -⟩ := writeItems_eq_cons rest h
  rw [hwrite, List.cons_append, skipBlanks_cons _ hblank]

/-- Items read back up to the bracket that closes them. -/
theorem readItems_writeItems
    {items : List Json} {room : Nat} (depth : Nat) (rest : Text)
    (hne : items ≠ [])
    (hplain : ∀ item ∈ items, IsPlain level item)
    (hread : ∀ item ∈ items, ReadsBack level item)
    (hdepth : (writeItems items).length < depth)
    (hroom : level ≤ room) :
    readItems depth room (writeItems items ++ ']' :: rest) = .ok (items, rest) := by
  induction items generalizing depth with
  | nil => exact absurd rfl hne
  | cons item items ih =>
      obtain ⟨depth, rfl⟩ := Nat.exists_eq_succ_of_ne_zero (Nat.ne_zero_of_lt hdepth)
      have hitem := hread item List.mem_cons_self
      cases items with
      | nil =>
          rw [writeItems] at hdepth ⊢
          rw [readItems, hitem depth room _ (by omega) hroom]
          rfl
      | cons next items =>
          rw [List.forall_mem_cons] at hplain hread
          rw [writeItems_cons_cons, List.length_append, List.length_cons,
            List.length_cons] at hdepth
          have htail := ih depth (List.cons_ne_nil next items) hplain.2 hread.2 (by omega)
          have hskip : skipBlanks (' ' :: (writeItems (next :: items) ++ ']' :: rest)) =
              writeItems (next :: items) ++ ']' :: rest :=
            skipBlanks_writeItems items (']' :: rest) (hplain.2 next List.mem_cons_self)
          rw [← hskip] at htail
          rw [writeItems_cons_cons, List.append_assoc, readItems,
            hitem depth room _ (by omega) hroom]
          refine Outcome.bind_eq_ok.2 ⟨_, rfl, ?_⟩
          simp only [List.cons_append, skipBlanks_cons _ (show isBlank ',' = false from rfl), htail]
          rfl

theorem writeMembers_cons_cons
    (key : List Text.Symbol) (value : Json) (next : List Text.Symbol × Json)
    (rest : List (List Text.Symbol × Json)) :
    writeMembers ((key, value) :: next :: rest) =
      writeString key ++ ':' :: ' ' :: (value.write ++ ',' :: ' ' ::
        writeMembers (next :: rest)) := by
  rw [writeMembers]
  · simp
  · exact fun h => by cases h

theorem writeMembers_singleton
    (key : List Text.Symbol) (value : Json) :
    writeMembers [(key, value)] = writeString key ++ ':' :: ' ' :: value.write := by
  rw [writeMembers]
  simp

/-- Members in a row start with a quotation mark. -/
theorem writeMembers_eq_cons
    (member : List Text.Symbol × Json) (rest : List (List Text.Symbol × Json)) :
    ∃ t, writeMembers (member :: rest) = '\x22' :: t := by
  obtain ⟨key, value⟩ := member
  have hstring : writeString key = '\x22' :: (key.flatMap writeSymbol ++ ['\x22']) := rfl
  cases rest with
  | nil =>
      rw [writeMembers_singleton, hstring]
      exact ⟨_, rfl⟩
  | cons next rest =>
      rw [writeMembers_cons_cons, hstring]
      exact ⟨_, rfl⟩

theorem skipBlanks_writeMembers
    (member : List Text.Symbol × Json) (rest : List (List Text.Symbol × Json))
    (behind : Text) :
    skipBlanks (writeMembers (member :: rest) ++ behind) =
      writeMembers (member :: rest) ++ behind := by
  obtain ⟨t, hwrite⟩ := writeMembers_eq_cons member rest
  rw [hwrite, List.cons_append, skipBlanks_cons _ rfl]

/-- Members read back up to the brace that closes them. -/
theorem readMembers_writeMembers
    {members : List (List Text.Symbol × Json)} {room : Nat} (depth : Nat) (rest : Text)
    (hne : members ≠ [])
    (hkeys : ∀ entry ∈ members, ∃ t, entry.1 = Text.Symbol.ofText t)
    (hplain : ∀ entry ∈ members, IsPlain level entry.2)
    (hread : ∀ entry ∈ members, ReadsBack level entry.2)
    (hdepth : (writeMembers members).length < depth)
    (hroom : level ≤ room) :
    readMembers depth room (writeMembers members ++ '\x7d' :: rest) = .ok (members, rest) := by
  induction members generalizing depth with
  | nil => exact absurd rfl hne
  | cons entry members ih =>
      obtain ⟨depth, rfl⟩ := Nat.exists_eq_succ_of_ne_zero (Nat.ne_zero_of_lt hdepth)
      rw [List.forall_mem_cons] at hkeys hplain hread
      obtain ⟨key, value⟩ := entry
      obtain ⟨⟨t, rfl⟩, hkeys⟩ := hkeys
      obtain ⟨hvalue, hplain⟩ := hplain
      obtain ⟨hfirst, hread⟩ := hread
      have hstring : ∀ behind, writeString (Text.Symbol.ofText t) ++ behind =
          '\x22' :: ((Text.Symbol.ofText t).flatMap writeSymbol ++ '\x22' :: behind) := by
        intro behind
        simp [writeString]
      cases members with
      | nil =>
          rw [writeMembers_singleton, List.length_append, List.length_cons,
            List.length_cons] at hdepth
          have hcolon : ∀ behind, skipBlanks (' ' :: (value.write ++ behind)) =
              value.write ++ behind := hvalue.skipBlanks_write
          rw [writeMembers_singleton, List.append_assoc, hstring, readMembers,
            readString_writeString]
          refine Outcome.bind_eq_ok.2 ⟨_, rfl, ?_⟩
          simp only [List.cons_append, skipBlanks_cons _ (show isBlank ':' = false from rfl), hcolon]
          refine Outcome.bind_eq_ok.2
            ⟨_, hfirst depth room _ (show value.write.length ≤ depth by omega) hroom, ?_⟩
          simp only [skipBlanks_cons _ (show isBlank '\x7d' = false from rfl)]
          rfl
      | cons next members =>
          rw [writeMembers_cons_cons, List.length_append, List.length_cons,
            List.length_cons, List.length_append, List.length_cons, List.length_cons] at hdepth
          have hcolon : ∀ behind, skipBlanks (' ' :: (value.write ++ behind)) =
              value.write ++ behind := hvalue.skipBlanks_write
          have htail := ih depth (List.cons_ne_nil next members) hkeys hplain hread (by omega)
          have hskip : skipBlanks (' ' :: (writeMembers (next :: members) ++ '\x7d' :: rest)) =
              writeMembers (next :: members) ++ '\x7d' :: rest :=
            skipBlanks_writeMembers next members ('\x7d' :: rest)
          rw [← hskip] at htail
          rw [writeMembers_cons_cons, List.append_assoc, hstring, readMembers,
            readString_writeString]
          refine Outcome.bind_eq_ok.2 ⟨_, rfl, ?_⟩
          simp only [List.cons_append, List.append_assoc,
            skipBlanks_cons _ (show isBlank ':' = false from rfl), hcolon]
          refine Outcome.bind_eq_ok.2
            ⟨_, hfirst depth room _ (show value.write.length ≤ depth by omega) hroom, ?_⟩
          simp only [skipBlanks_cons _ (show isBlank ',' = false from rfl), htail]
          rfl

theorem ofMembers_of_nodup
    {members : List (List Text.Symbol × Json)}
    (h : (members.map Prod.fst).Nodup) :
    ofMembers members = object members :=
  have hnew : (([] ++ members).map Prod.fst).Nodup := h
  congrArg object (Association.foldl_put hnew)

/-- **A plain document reads back.** -/
theorem IsPlain.readsBack
    {j : Json}
    (h : IsPlain level j) :
    ReadsBack level j := by
  induction h with
  | string level t =>
      intro depth room rest hdepth _
      rw [write, writeString] at hdepth ⊢
      obtain ⟨depth, rfl⟩ := Nat.exists_eq_succ_of_ne_zero (Nat.ne_zero_of_lt hdepth)
      rw [List.cons_append, List.append_assoc, List.singleton_append, readValue,
        readString_writeString]
      rfl
  | @array level items hitems ih =>
      intro depth room rest hdepth hroom
      obtain ⟨room, rfl⟩ := Nat.exists_eq_succ_of_ne_zero (Nat.ne_zero_of_lt hroom)
      rw [write] at hdepth ⊢
      obtain ⟨depth, rfl⟩ := Nat.exists_eq_succ_of_ne_zero (Nat.ne_zero_of_lt hdepth)
      rw [List.length_cons, List.length_append, List.length_singleton] at hdepth
      rw [List.cons_append, List.append_assoc, List.singleton_append, readValue]
      refine Outcome.bind_eq_ok.2 ⟨room, rfl, ?_⟩
      cases items with
      | nil => rfl
      | cons item items =>
          have hitem := hitems item List.mem_cons_self
          have hread := readItems_writeItems depth rest (List.cons_ne_nil item items) hitems ih
            (by omega) (Nat.le_of_succ_le_succ hroom)
          rw [skipBlanks_writeItems items (']' :: rest) hitem]
          split
          · rename_i closed heq
            obtain ⟨c, t, hwrite, -, hbracket⟩ := writeItems_eq_cons items hitem
            rw [hwrite, List.cons_append] at heq
            exact absurd (List.cons.inj heq).1 hbracket
          · rw [hread]
            rfl
  | @object level members hkeys hnodup hvalues ih =>
      intro depth room rest hdepth hroom
      obtain ⟨room, rfl⟩ := Nat.exists_eq_succ_of_ne_zero (Nat.ne_zero_of_lt hroom)
      rw [write] at hdepth ⊢
      obtain ⟨depth, rfl⟩ := Nat.exists_eq_succ_of_ne_zero (Nat.ne_zero_of_lt hdepth)
      rw [List.length_cons, List.length_append, List.length_singleton] at hdepth
      rw [List.cons_append, List.append_assoc, List.singleton_append, readValue]
      refine Outcome.bind_eq_ok.2 ⟨room, rfl, ?_⟩
      cases members with
      | nil => rfl
      | cons member members =>
          have hread := readMembers_writeMembers depth rest (List.cons_ne_nil member members)
            hkeys hvalues ih (by omega) (Nat.le_of_succ_le_succ hroom)
          rw [skipBlanks_writeMembers]
          split
          · rename_i closed heq
            obtain ⟨t, hwrite⟩ := writeMembers_eq_cons member members
            rw [hwrite, List.cons_append] at heq
            exact absurd (List.cons.inj heq).1 (by decide)
          · rw [hread]
            exact congrArg (fun j => Except.ok (j, rest)) (ofMembers_of_nodup hnodup)

/-- A plain document is what parsing its written form gives, if it is not nested too deeply. -/
theorem IsPlain.parse_write
    {j : Json}
    (h : IsPlain level j)
    (hlevel : level ≤ nestingLimit) :
    parse j.write = .ok j := by
  have hskip : skipBlanks j.write = j.write := by
    simpa using h.skipBlanks_write []
  have hread : readValue (2 * j.write.length + 2) nestingLimit j.write = .ok (j, []) := by
    simpa using h.readsBack (2 * j.write.length + 2) nestingLimit [] (by omega) hlevel
  rw [parse, hskip, hread]
  rfl

end Plain

end Json
end ReversePolish
