import ReversePolish.Json.Parser
import ReversePolish.Proofs.Outcome

/-!
# How deeply a text is nested

How many arrays and objects are open at once can be counted on a text alone,
whether or not it is a document: outside strings a bracket or brace opens one
or closes one.  Reading keeps to this count.  What it has read leaves as many
open as there were before, and a text that it refuses for its nesting has more
open at once than there is room for.

In the other direction, a text that begins with more opening brackets than
there is room for is refused, whatever follows.
-/

namespace ReversePolish
namespace Json

/-! ### The levels of a text -/

/-- The greatest level that a text opens, if so many containers are open at its start.  In a string
nothing is opened or closed, and a backslash takes the character behind it with it. -/
def levels : (inString : Bool) → (level : Nat) → Text → Nat
  | _, _, [] => 0
  | true, level, '\x5c' :: _ :: rest => levels true level rest
  | true, level, c :: rest => levels (c ≠ '\x22') level rest
  | false, level, c :: rest =>
      if c = '\x22' then levels true level rest
      else if c = '[' ∨ c = '\x7b' then max (level + 1) (levels false (level + 1) rest)
      else if c = ']' ∨ c = '\x7d' then levels false (level - 1) rest
      else levels false level rest

/-- The greatest number of arrays and objects that are open inside one another in a text. -/
def deepest (t : Text) : Nat :=
  levels false 0 t

/-- The characters that open or close a string, an array or an object. -/
def isMark (c : Char) : Bool :=
  c = '\x22' || c = '[' || c = '\x7b' || c = ']' || c = '\x7d'

theorem levels_of_not_isMark
    {c : Char} (level : Nat) (rest : Text)
    (h : isMark c = false) :
    levels false level (c :: rest) = levels false level rest := by
  simp only [isMark, Bool.or_eq_false_iff, decide_eq_false_iff_not] at h
  obtain ⟨⟨⟨⟨hquote, hbracket⟩, hbrace⟩, hclosing⟩, hclosingBrace⟩ := h
  rw [levels, if_neg hquote, if_neg (not_or.2 ⟨hbracket, hbrace⟩),
    if_neg (not_or.2 ⟨hclosing, hclosingBrace⟩)]

theorem levels_append
    {piece : Text} (level : Nat) (rest : Text)
    (h : ∀ c ∈ piece, isMark c = false) :
    levels false level (piece ++ rest) = levels false level rest := by
  induction piece with
  | nil => rfl
  | cons c piece ih =>
      obtain ⟨hc, hpiece⟩ := List.forall_mem_cons.1 h
      rw [List.cons_append, levels_of_not_isMark level _ hc, ih hpiece]

theorem levels_dropWhile
    {p : Char → Bool} (level : Nat) (t : Text)
    (h : ∀ c, p c = true → isMark c = false) :
    levels false level (t.dropWhile p) = levels false level t := by
  have hpiece : ∀ c ∈ t.takeWhile p, isMark c = false :=
    fun c hc => h c (List.all_eq_true.1 List.all_takeWhile c hc)
  rw [← levels_append level (t.dropWhile p) hpiece, List.takeWhile_append_dropWhile]

theorem levels_skipBlanks
    (level : Nat) (t : Text) :
    levels false level (skipBlanks t) = levels false level t := by
  refine levels_dropWhile level t fun c hc => ?_
  simp only [isBlank, Bool.or_eq_true, beq_iff_eq] at hc
  rcases hc with ((rfl | rfl) | rfl) | rfl <;> decide

/-! ### What is read between marks -/

theorem levels_of_expect?
    {piece t rest : Text} (level : Nat)
    (hpiece : ∀ c ∈ piece, isMark c = false)
    (h : expect? piece t = some rest) :
    levels false level rest = levels false level t := by
  induction piece generalizing t with
  | nil =>
      cases h
      rfl
  | cons c piece ih =>
      obtain ⟨hc, hpiece⟩ := List.forall_mem_cons.1 hpiece
      cases t with
      | nil => cases h
      | cons d t =>
          rw [expect?] at h
          split at h
          · rename_i heq
            rw [ih hpiece h, ← heq, levels_of_not_isMark level t hc]
          · cases h

theorem levels_of_readNamed?
    {t rest : Text} {value : Json} (level : Nat)
    (h : readNamed? t = some (value, rest)) :
    levels false level rest = levels false level t := by
  obtain ⟨⟨name, value⟩, hmem, hname⟩ := List.exists_of_findSome?_eq_some h
  obtain ⟨found, hfound, hrest⟩ := Option.map_eq_some_iff.1 hname
  cases hrest
  refine levels_of_expect? level (fun c hc => ?_) hfound
  have hmarks : (named.all fun entry => entry.1.all fun c => !isMark c) = true := by
    decide
  have hall := List.all_eq_true.1 hmarks _ hmem
  exact Bool.not_eq_true' _ ▸ List.all_eq_true.1 hall c hc

theorem isMark_of_isDigit
    {c : Char}
    (h : Lexeme.isDigit c = true) :
    isMark c = false := by
  cases hmark : isMark c with
  | false => rfl
  | true =>
      simp only [isMark, Bool.or_eq_true, decide_eq_true_eq] at hmark
      rcases hmark with (((rfl | rfl) | rfl) | rfl) | rfl <;> cases h

theorem levels_of_readWhole
    {t whole rest : Text} (level : Nat)
    (h : readWhole t = some (whole, rest)) :
    levels false level rest = levels false level t := by
  cases t with
  | nil => cases h
  | cons c t =>
      rw [readWhole] at h
      split at h
      · rename_i hzero
        cases h
        rw [hzero, levels_of_not_isMark level _ (by decide)]
      · split at h
        · rename_i hdigit
          cases h
          rw [levels_dropWhile level t fun _ => isMark_of_isDigit,
            levels_of_not_isMark level t (isMark_of_isDigit hdigit)]
        · cases h

theorem levels_of_readFraction?
    {t digits rest : Text} (level : Nat)
    (h : readFraction? t = some (digits, rest)) :
    levels false level rest = levels false level t := by
  unfold readFraction? at h
  split at h
  · rename_i behind
    simp only at h
    split at h
    · cases h
    · cases h
      rw [levels_dropWhile level behind fun _ => isMark_of_isDigit,
        levels_of_not_isMark level behind (by decide)]
  · cases h

theorem levels_of_readExponentDigits?
    {negative : Bool} {t rest : Text} {exponent : Int} (level : Nat)
    (h : readExponentDigits? negative t = some (exponent, rest)) :
    levels false level rest = levels false level t := by
  simp only [readExponentDigits?] at h
  split at h
  · cases h
  · cases h
    exact levels_dropWhile level t fun _ => isMark_of_isDigit

theorem levels_of_readExponent?
    {t rest : Text} {exponent : Int} (level : Nat)
    (h : readExponent? t = some (exponent, rest)) :
    levels false level rest = levels false level t := by
  unfold readExponent? at h
  split at h
  · rename_i mark behind
    split at h
    · rename_i hmark
      have hskip : levels false level (mark :: behind) = levels false level behind := by
        rcases hmark with rfl | rfl <;> exact levels_of_not_isMark level behind (by decide)
      rw [hskip]
      split at h
      · rw [levels_of_readExponentDigits? level h, levels_of_not_isMark level _ (by decide)]
      · rw [levels_of_readExponentDigits? level h, levels_of_not_isMark level _ (by decide)]
      · exact levels_of_readExponentDigits? level h
    · cases h
  · cases h

theorem levels_of_getD
    {α : Type} {read? : Option (α × Text)} {t : Text} (default : α) (level : Nat)
    (h : ∀ a rest, read? = some (a, rest) → levels false level rest = levels false level t) :
    levels false level (read?.getD (default, t)).2 = levels false level t := by
  cases hread : read? with
  | none => rfl
  | some found => exact h found.1 found.2 hread

theorem levels_of_readMagnitude
    {negative : Bool} {t rest : Text} {value : Json} (level : Nat)
    (h : readMagnitude negative t = some (value, rest)) :
    levels false level rest = levels false level t := by
  obtain ⟨⟨whole, behind⟩, hwhole, h⟩ := Option.bind_eq_some_iff.1 h
  have hfraction := levels_of_getD [] level
    fun _ _ hread => levels_of_readFraction? (t := behind) level hread
  have hexponent := levels_of_getD 0 level
    fun _ _ hread => levels_of_readExponent? (t := ((readFraction? behind).getD ([], behind)).2)
      level hread
  rw [← levels_of_readWhole level hwhole, ← hfraction, ← hexponent]
  simp only at h
  split at h
  · split at h
    · cases h
    · cases h
      rfl
  · cases h
    rfl

theorem levels_of_readNumber
    {t rest : Text} {value : Json} (level : Nat)
    (h : readNumber t = some (value, rest)) :
    levels false level rest = levels false level t := by
  unfold readNumber at h
  split at h
  · rw [levels_of_readMagnitude level h, levels_of_not_isMark level _ (by decide)]
  · exact levels_of_readMagnitude level h

/-! ### Strings -/

theorem levels_string_cons
    {c : Char} (level : Nat) (rest : Text)
    (hquote : c ≠ '\x22')
    (hbackslash : c ≠ '\x5c') :
    levels true level (c :: rest) = levels true level rest := by
  rw [levels]
  · simp [hquote]
  · rintro d behind hc -
    exact absurd hc hbackslash

theorem levels_of_hexDigit?
    {c : Char} {value : Nat} (level : Nat) (rest : Text)
    (h : hexDigit? c = some value) :
    levels true level (c :: rest) = levels true level rest := by
  refine levels_string_cons level rest ?_ ?_ <;>
    · rintro rfl
      cases h

/-- A string is read up to where it ends in the count. -/
theorem levels_of_readCodes
    {t rest : Text} {codes : List Nat} (level : Nat)
    (h : readCodes t = some (codes, rest)) :
    levels true level t = levels false level rest := by
  fun_induction readCodes t generalizing codes with
  | case1 => cases h
  | case2 behind =>
      cases h
      rfl
  | case3 a b c d behind ih =>
      obtain ⟨unit, hunit, h⟩ := Option.bind_eq_some_iff.1 h
      obtain ⟨⟨others, found⟩, hothers, h⟩ := Option.bind_eq_some_iff.1 h
      cases h
      obtain ⟨valueA, ha, hunit⟩ := Option.bind_eq_some_iff.1 hunit
      obtain ⟨valueB, hb, hunit⟩ := Option.bind_eq_some_iff.1 hunit
      obtain ⟨valueC, hc, hunit⟩ := Option.bind_eq_some_iff.1 hunit
      obtain ⟨valueD, hd, -⟩ := Option.bind_eq_some_iff.1 hunit
      rw [← ih hothers, levels, levels_of_hexDigit? level _ ha, levels_of_hexDigit? level _ hb,
        levels_of_hexDigit? level _ hc, levels_of_hexDigit? level _ hd]
  | case4 mark behind hunit ih =>
      obtain ⟨c, -, h⟩ := Option.bind_eq_some_iff.1 h
      obtain ⟨⟨others, found⟩, hothers, h⟩ := Option.bind_eq_some_iff.1 h
      cases h
      rw [← ih hothers, levels]
  | case5 c behind => cases h
  | case6 c behind hquote hunit hmark hplain ih =>
      obtain ⟨⟨others, found⟩, hothers, h⟩ := Option.bind_eq_some_iff.1 h
      cases h
      obtain ⟨-, hbackslash⟩ := not_or.1 hplain
      rw [← ih hothers, levels_string_cons level behind ?_ hbackslash]
      rintro rfl
      exact hquote rfl

theorem levels_of_readString
    {t rest : Text} {symbols : List Text.Symbol} (level : Nat)
    (h : readString t = some (symbols, rest)) :
    levels true level t = levels false level rest := by
  obtain ⟨⟨codes, found⟩, hcodes, h⟩ := Option.bind_eq_some_iff.1 h
  cases h
  exact levels_of_readCodes level hcodes

/-! ### Reading -/

/-- What reading may answer to a text at whose start so many containers are open and with so much
room for others: the rest of the text, at whose start `after` are open, or a refusal, which is for
the nesting only where the text opens more than there is room for. -/
inductive Keeps {α : Type} (level room after : Nat) (t : Text) : Except Fault (α × Text) → Prop
  | read {a : α} {rest : Text} (h : levels false after rest ≤ levels false level t) :
      Keeps level room after t (.ok (a, rest))
  | malformed : Keeps level room after t (.error .malformed)
  | nesting {c : Container} (h : level + room < levels false level t) :
      Keeps level room after t (.error (.nesting c))

namespace Keeps

variable {α β : Type} {level room between after : Nat} {t : Text}

/-- What is kept further on in a text, with as much in all, is kept from the start. -/
theorem of_le
    {level' room' : Nat} {t' : Text} {x : Except Fault (α × Text)}
    (h : Keeps level' room' after t' x)
    (hlevels : levels false level' t' ≤ levels false level t)
    (hroom : level' + room' = level + room) :
    Keeps level room after t x := by
  cases h with
  | read h => exact .read (Nat.le_trans h hlevels)
  | malformed => exact .malformed
  | nesting h => exact .nesting (hroom ▸ Nat.lt_of_lt_of_le h hlevels)

theorem bind
    {x : Except Fault (α × Text)} {f : α × Text → Except Fault (β × Text)}
    (h : Keeps level room between t x)
    (hf : ∀ a rest, levels false between rest ≤ levels false level t →
      Keeps level room after t (f (a, rest))) :
    Keeps level room after t (x >>= f) := by
  cases h with
  | read h => exact hf _ _ h
  | malformed => exact .malformed
  | nesting h => exact .nesting h

theorem wellFormed
    {x : Option (α × Text)}
    (h : ∀ a rest, x = some (a, rest) → levels false after rest ≤ levels false level t) :
    Keeps level room after t (wellFormed x) := by
  cases x with
  | none => exact .malformed
  | some found => exact .read (h found.1 found.2 rfl)

end Keeps

theorem levels_open
    {c : Char} (level : Nat) (rest : Text)
    (h : c = '[' ∨ c = '\x7b') :
    levels false level (c :: rest) = max (level + 1) (levels false (level + 1) rest) := by
  have hquote : c ≠ '\x22' := by
    rintro rfl
    revert h
    decide
  rw [levels, if_neg hquote, if_pos h]

theorem levels_close
    {c : Char} (level : Nat) (rest : Text)
    (h : c = ']' ∨ c = '\x7d') :
    levels false (level + 1) (c :: rest) = levels false level rest := by
  have hother : c ≠ '\x22' ∧ ¬ (c = '[' ∨ c = '\x7b') := by
    rcases h with rfl | rfl <;> decide
  rw [levels, if_neg hother.1, if_neg hother.2, if_pos h, Nat.add_sub_cancel]

/-- A container is entered at its bracket, or refused there for want of room. -/
theorem Keeps.enter
    {α : Type} {level room after : Nat} {rest : Text} {c : Char} {container : Container}
    {f : Nat → Except Fault (α × Text)}
    (hc : c = '[' ∨ c = '\x7b')
    (hf : ∀ room', room = room' + 1 → Keeps (level + 1) room' after rest (f room')) :
    Keeps level room after (c :: rest) (Json.enter container room >>= f) := by
  cases room with
  | zero =>
      refine .nesting ?_
      rw [levels_open level rest hc]
      omega
  | succ room =>
      refine (hf room rfl).of_le ?_ (by omega)
      rw [levels_open level rest hc]
      exact Nat.le_max_right _ _

/-- What reading at a depth keeps to, at every level and with any room. -/
structure Counts (depth : Nat) : Prop where
  value (level room : Nat) (t : Text) : Keeps level room level t (readValue depth room t)
  items (level room : Nat) (t : Text) :
    Keeps (level + 1) room level t (readItems depth room t)
  members (level room : Nat) (t : Text) :
    Keeps (level + 1) room level t (readMembers depth room t)

theorem keeps_plain
    {level room : Nat} {t : Text} :
    Keeps level room level t (wellFormed ((readNamed? t).or (readNumber t))) := by
  refine .wellFormed fun value rest h => Nat.le_of_eq ?_
  cases hnamed : readNamed? t with
  | none =>
      rw [hnamed, Option.none_or] at h
      exact levels_of_readNumber level h
  | some found =>
      rw [hnamed, Option.some_or] at h
      exact levels_of_readNamed? level (hnamed.trans h)

/-- A string after its quotation mark, and what follows it. -/
theorem keeps_string
    {α : Type} {level room after : Nat} {rest : Text}
    {f : List Text.Symbol × Text → Except Fault (α × Text)}
    (hf : ∀ symbols behind, levels false level behind ≤ levels false level ('\x22' :: rest) →
      Keeps level room after ('\x22' :: rest) (f (symbols, behind))) :
    Keeps level room after ('\x22' :: rest) (wellFormed (readString rest) >>= f) := by
  refine Keeps.bind (.wellFormed fun symbols behind hstring => Nat.le_of_eq ?_) hf
  rw [← levels_of_readString level hstring]
  rfl

namespace Counts

variable {depth : Nat}

/-- A step into a value. -/
theorem value_succ
    (h : Counts depth)
    (level room : Nat) (t : Text) :
    Keeps level room level t (readValue (depth + 1) room t) := by
  unfold readValue
  split
  · exact keeps_string fun symbols behind hbehind => .read hbehind
  · rename_i rest
    refine Keeps.enter (Or.inl rfl) fun room _ => ?_
    have hskip := levels_skipBlanks (level + 1) rest
    split
    · rename_i behind hblank
      refine .read (Nat.le_of_eq ?_)
      rw [← hskip, hblank, levels_close level behind (Or.inl rfl)]
    · refine ((h.items level room _).bind ?_).of_le (Nat.le_of_eq hskip) rfl
      exact fun items behind hbehind => .read hbehind
  · rename_i rest
    refine Keeps.enter (Or.inr rfl) fun room _ => ?_
    have hskip := levels_skipBlanks (level + 1) rest
    split
    · rename_i behind hblank
      refine .read (Nat.le_of_eq ?_)
      rw [← hskip, hblank, levels_close level behind (Or.inr rfl)]
    · refine ((h.members level room _).bind ?_).of_le (Nat.le_of_eq hskip) rfl
      exact fun members behind hbehind => .read hbehind
  · exact keeps_plain

/-- Behind a character between parts, blanks or not, a text goes on at the same level. -/
theorem levels_skipBlanks_of_eq_cons
    {rest behind : Text} {c : Char} (level : Nat)
    (hc : isMark c = false)
    (h : skipBlanks rest = c :: behind) :
    levels false level (skipBlanks behind) = levels false level rest := by
  rw [levels_skipBlanks, ← levels_skipBlanks level rest, h, levels_of_not_isMark level behind hc]

/-- A step into the items of an array. -/
theorem items_succ
    (h : Counts depth)
    (level room : Nat) (t : Text) :
    Keeps (level + 1) room level t (readItems (depth + 1) room t) := by
  rw [readItems]
  refine (h.value (level + 1) room t).bind fun item rest hrest => ?_
  have hskip := levels_skipBlanks (level + 1) rest
  simp only
  split
  · rename_i behind hblank
    rw [hblank, levels_close level behind (Or.inl rfl)] at hskip
    exact .read (hskip ▸ hrest)
  · rename_i behind hblank
    have hcomma := levels_skipBlanks_of_eq_cons (level + 1) (by decide) hblank
    refine ((h.items level room _).bind ?_).of_le (hcomma ▸ hrest) rfl
    exact fun items behind hbehind => .read hbehind
  · exact .malformed

/-- A step into the members of an object. -/
theorem members_succ
    (h : Counts depth)
    (level room : Nat) (t : Text) :
    Keeps (level + 1) room level t (readMembers (depth + 1) room t) := by
  unfold readMembers
  split
  · rename_i start
    refine keeps_string fun key rest hkey => ?_
    simp only
    split
    · rename_i behind hblank
      have hcolon := levels_skipBlanks_of_eq_cons (level + 1) (by decide) hblank
      refine (?_ : Keeps (level + 1) room level _ _).of_le (hcolon ▸ hkey) rfl
      refine (h.value (level + 1) room _).bind fun value rest hrest => ?_
      have hskip := levels_skipBlanks (level + 1) rest
      simp only
      split
      · rename_i behind hblank
        rw [hblank, levels_close level behind (Or.inr rfl)] at hskip
        exact .read (hskip ▸ hrest)
      · rename_i behind hblank
        have hcomma := levels_skipBlanks_of_eq_cons (level + 1) (by decide) hblank
        refine ((h.members level room _).bind ?_).of_le (hcomma ▸ hrest) rfl
        exact fun members behind hbehind => .read hbehind
      · exact .malformed
    · exact .malformed
  · exact .malformed

end Counts

theorem counts
    (depth : Nat) :
    Counts depth := by
  induction depth with
  | zero => exact ⟨fun _ _ _ => .malformed, fun _ _ _ => .malformed, fun _ _ _ => .malformed⟩
  | succ depth ih => exact ⟨ih.value_succ, ih.items_succ, ih.members_succ⟩

/-- **A text is refused for its nesting only if it opens more arrays and objects inside one another
than may be open.** -/
theorem nestingLimit_lt_deepest
    {t : Text} {c : Container}
    (h : parse t = .error (.nesting c)) :
    nestingLimit < deepest t := by
  have hskip := levels_skipBlanks 0 t
  rcases Outcome.bind_eq_error.1 h with hvalue | ⟨⟨value, rest⟩, -, hrest⟩
  · have hkeeps := (counts (2 * t.length + 2)).value 0 nestingLimit (skipBlanks t)
    rw [hvalue] at hkeeps
    cases hkeeps with
    | nesting hnesting => rwa [Nat.zero_add, hskip] at hnesting
  · simp only at hrest
    split at hrest <;> cases hrest

/-! ### Texts that are refused -/

theorem readValue_brackets
    (extra room : Nat) (rest : Text) :
    readValue (extra + 2 * room + 1) room (List.replicate (room + 1) '[' ++ rest) =
      .error (.nesting .array) := by
  induction room with
  | zero => rfl
  | succ room ih =>
      have hitems : readItems (extra + 2 * room + 2) room
          (List.replicate (room + 1) '[' ++ rest) = .error (.nesting .array) := by
        rw [readItems, ih]
        rfl
      have hblank : skipBlanks (List.replicate (room + 1) '[' ++ rest) =
          List.replicate (room + 1) '[' ++ rest := rfl
      rw [List.replicate_succ, List.cons_append, readValue]
      refine Outcome.bind_eq_error.2 (Or.inr ⟨room, rfl, ?_⟩)
      rw [hblank]
      split
      · rename_i behind heq
        cases heq
      · exact Outcome.bind_eq_error.2 (Or.inl hitems)

/-- A text that begins with more opening brackets than may be open is refused, whatever follows. -/
theorem parse_brackets
    (rest : Text) :
    parse (List.replicate (nestingLimit + 1) '[' ++ rest) = .error (.nesting .array) := by
  generalize ht : List.replicate (nestingLimit + 1) '[' ++ rest = t
  have hskip : skipBlanks t = t := by
    rw [← ht]
    rfl
  have hlength : 2 * t.length + 2 = 2 * rest.length + 3 + 2 * nestingLimit + 1 := by
    rw [← ht, List.length_append, List.length_replicate]
    omega
  rw [parse, hskip, hlength, ← ht]
  exact Outcome.bind_eq_error.2 (Or.inl (readValue_brackets _ nestingLimit rest))

end Json
end ReversePolish
