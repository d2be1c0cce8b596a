import ReversePolish.Proofs.Word.Kind

/-!
# Scanning by longest match

A lexeme has a form: an optional sign before digits, a letter, or the
character of an operator.  The first lexeme of a text is the longest piece at
its start that has such a form, and the others follow in the same way from
where it ends.  This is all there is to say about scanning: where some piece
at the start has a form the first lexeme is found, and a text is cut into
lexemes in one way only.
-/

namespace ReversePolish

/-- The character that denotes an operation. -/
def Arithmetic.symbol : Arithmetic → Char
  | add => '+'
  | subtract => '-'
  | multiply => '*'
  | divide => '/'

/-- The character that denotes an operator. -/
def Operator.symbol : Operator → Char
  | arithmetic operation => operation.symbol
  | assign => '='

theorem Operator.ofChar?_eq_some_iff
    {c : Char} {op : Operator} :
    ofChar? c = some op ↔ c = op.symbol := by
  constructor
  · intro h
    unfold ofChar? at h
    split at h <;> cases h <;> rfl
  · rintro rfl
    cases op with
    | arithmetic operation => cases operation <;> rfl
    | assign => rfl

theorem Numeral.isSpelling_cons_iff
    {c : Char} {rest : Text} :
    IsSpelling (c :: rest) ↔
      (Lexeme.isDigit c = true ∨ Lexeme.isSign c = true ∧ rest ≠ []) ∧
        ∀ d ∈ rest, Lexeme.isDigit d = true := by
  constructor
  · rintro (h | ⟨sign, digits, hsign, h, heq⟩)
    · obtain ⟨hc, hrest⟩ := List.forall_mem_cons.1 h.isDigit
      exact ⟨Or.inl hc, hrest⟩
    · obtain ⟨rfl, rfl⟩ := List.cons.inj heq
      exact ⟨Or.inr ⟨hsign, h.ne_nil⟩, h.isDigit⟩
  · rintro ⟨hc | ⟨hc, hne⟩, hrest⟩
    · exact Or.inl ⟨List.cons_ne_nil c rest, List.forall_mem_cons.2 ⟨hc, hrest⟩⟩
    · exact Or.inr ⟨c, rest, hc, ⟨hne, hrest⟩, rfl⟩

namespace Lexeme

/-- The piece of text that a lexeme is. -/
def text : Lexeme → Text
  | integer text => text
  | name letter => [letter]
  | operator op => [op.symbol]

/-- The forms of lexemes. -/
def IsFormed : Lexeme → Prop
  | integer text => Numeral.IsSpelling text
  | name letter => isLetter letter = true
  | operator _ => True

/-- A lexeme comes first in a text, and the rest behind it: no piece at the start of the text that
has a form is longer. -/
structure IsFirst (t : Text) (lexeme : Lexeme) (rest : Text) : Prop where
  formed : lexeme.IsFormed
  split : t = lexeme.text ++ rest
  longest : ∀ other : Lexeme, other.IsFormed → other.text <+: t →
    other.text.length ≤ lexeme.text.length

/-- A text consists of lexemes each of which comes first in what the ones before it leave. -/
inductive Scans : Text → List Lexeme → Prop
  | nil : Scans [] []
  | cons {t rest : Text} {lexeme : Lexeme} {lexemes : List Lexeme}
      (hfirst : IsFirst t lexeme rest)
      (hrest : Scans rest lexemes) :
      Scans t (lexeme :: lexemes)

/-! ### Pieces that have a form -/

theorem IsFormed.text_ne_nil
    {lexeme : Lexeme}
    (h : lexeme.IsFormed) :
    lexeme.text ≠ [] := by
  cases lexeme with
  | integer text =>
      rintro rfl
      rcases h with h | ⟨sign, digits, -, -, heq⟩
      · exact h.ne_nil rfl
      · cases heq
  | name letter => exact List.cons_ne_nil letter []
  | operator op => exact List.cons_ne_nil op.symbol []

/-- What has a form is found where it stands alone. -/
theorem IsFormed.next?_text
    {lexeme : Lexeme}
    (h : lexeme.IsFormed) :
    next? lexeme.text = some (lexeme, []) := by
  cases lexeme with
  | integer text => exact next?_eq_integer_iff.2 ⟨h, rfl⟩
  | name letter => exact next?_eq_name_iff.2 ⟨h, rfl⟩
  | operator op =>
      cases op with
      | arithmetic operation => cases operation <;> rfl
      | assign => rfl

/-- No piece has two forms. -/
theorem IsFormed.text_inj
    {lexeme other : Lexeme}
    (h : lexeme.IsFormed)
    (hother : other.IsFormed)
    (heq : lexeme.text = other.text) :
    lexeme = other := by
  have hnext := h.next?_text
  rw [heq, hother.next?_text] at hnext
  exact (Prod.mk.inj (Option.some.inj hnext)).1.symm

/-- The test by which an integer is recognised at its first character. -/
def opensInteger (c : Char) (rest : Text) : Bool :=
  isDigit c || (isSign c && !(rest.takeWhile isDigit).isEmpty)

theorem opensInteger_iff
    {c : Char} {rest : Text} :
    opensInteger c rest = true ↔ Numeral.IsSpelling (c :: rest.takeWhile isDigit) := by
  rw [Numeral.isSpelling_cons_iff, and_iff_left fun d hd => List.mem_takeWhile_imp hd,
    opensInteger]
  simp only [Bool.or_eq_true, Bool.and_eq_true, Bool.not_eq_true', List.isEmpty_eq_false_iff]

theorem next?_cons
    (c : Char) (rest : Text) :
    next? (c :: rest) =
      if opensInteger c rest then
        some (integer (c :: rest.takeWhile isDigit), rest.dropWhile isDigit)
      else if isLetter c then some (name c, rest)
      else (Operator.ofChar? c).map fun op => (operator op, rest) := rfl

/-- A spelling at the start of a text reaches no further than the digits do. -/
theorem length_le_of_isSpelling
    {c : Char} {rest text : Text}
    (h : Numeral.IsSpelling text)
    (hleads : text <+: c :: rest) :
    opensInteger c rest = true ∧ text.length ≤ (rest.takeWhile isDigit).length + 1 := by
  obtain ⟨behind, hsplit⟩ := hleads
  cases text with
  | nil =>
      have hformed : (integer []).IsFormed := h
      exact absurd rfl hformed.text_ne_nil
  | cons first more =>
      rw [List.cons_append] at hsplit
      obtain ⟨rfl, rfl⟩ := List.cons.inj hsplit
      obtain ⟨hfirst, hmore⟩ := Numeral.isSpelling_cons_iff.1 h
      have htake : (more ++ behind).takeWhile isDigit = more ++ behind.takeWhile isDigit :=
        List.takeWhile_append_of_pos hmore
      constructor
      · rw [opensInteger_iff, Numeral.isSpelling_cons_iff, htake]
        refine ⟨hfirst.imp_right (And.imp_right fun hne => ?_), ?_⟩
        · exact List.append_ne_nil_of_left_ne_nil hne _
        · rw [← htake]
          exact fun d hd => List.mem_takeWhile_imp hd
      · rw [htake, List.length_append, List.length_cons]
        omega

/-- A piece with a form at the start of a text is a spelling or a single character. -/
theorem IsFormed.length_le
    {lexeme : Lexeme} {c : Char} {rest : Text}
    (h : lexeme.IsFormed)
    (hleads : lexeme.text <+: c :: rest) :
    lexeme.text.length ≤
      if opensInteger c rest then (rest.takeWhile isDigit).length + 1 else 1 := by
  cases lexeme with
  | integer text =>
      obtain ⟨hopens, hlength⟩ := length_le_of_isSpelling h hleads
      rw [if_pos hopens]
      exact hlength
  | name letter =>
      rw [text, List.length_singleton]
      split <;> omega
  | operator op =>
      rw [text, List.length_singleton]
      split <;> omega

/-! ### The first lexeme -/

/-- What is found at the start of a text is the longest piece there that has a form. -/
theorem isFirst_of_next?
    {t rest : Text} {lexeme : Lexeme}
    (h : next? t = some (lexeme, rest)) :
    IsFirst t lexeme rest := by
  cases t with
  | nil => cases h
  | cons c t =>
      have hlongest : ∀ other : Lexeme, other.IsFormed → other.text <+: c :: t →
          other.text.length ≤ if opensInteger c t then (t.takeWhile isDigit).length + 1 else 1 :=
        fun other hother hleads => hother.length_le hleads
      rw [next?_cons] at h
      split at h
      · rename_i hopens
        cases h
        refine ⟨opensInteger_iff.1 hopens, ?_, ?_⟩
        · rw [text, List.cons_append, List.takeWhile_append_dropWhile]
        · rw [if_pos hopens] at hlongest
          exact hlongest
      · rename_i hopens
        rw [if_neg hopens] at hlongest
        split at h
        · rename_i hletter
          cases h
          exact ⟨hletter, rfl, hlongest⟩
        · obtain ⟨op, hop, heq⟩ := Option.map_eq_some_iff.1 h
          cases heq
          obtain rfl := Operator.ofChar?_eq_some_iff.1 hop
          exact ⟨trivial, rfl, hlongest⟩

/-- Where some piece at the start has a form, a lexeme is found. -/
theorem IsFormed.exists_next?
    {lexeme : Lexeme} {t : Text}
    (h : lexeme.IsFormed)
    (hleads : lexeme.text <+: t) :
    ∃ first rest, next? t = some (first, rest) := by
  cases t with
  | nil => exact absurd (List.prefix_nil.1 hleads) h.text_ne_nil
  | cons c t =>
      rw [next?_cons]
      split
      · exact ⟨_, _, rfl⟩
      · rename_i hopens
        cases lexeme with
        | integer text => exact absurd (length_le_of_isSpelling h hleads).1 hopens
        | name letter =>
            obtain ⟨rfl, -⟩ := List.cons_prefix_cons.1 hleads
            have hletter : isLetter letter = true := h
            rw [if_pos hletter]
            exact ⟨_, _, rfl⟩
        | operator op =>
            obtain ⟨rfl, -⟩ := List.cons_prefix_cons.1 hleads
            rw [Operator.ofChar?_eq_some_iff.2 rfl]
            split
            · exact ⟨_, _, rfl⟩
            · exact ⟨_, _, rfl⟩

/-- Only one lexeme comes first. -/
theorem IsFirst.unique
    {t rest behind : Text} {lexeme other : Lexeme}
    (h : IsFirst t lexeme rest)
    (hother : IsFirst t other behind) :
    lexeme = other ∧ rest = behind := by
  have hleads : lexeme.text <+: t := ⟨rest, h.split.symm⟩
  have hotherPrefix : other.text <+: t := ⟨behind, hother.split.symm⟩
  have hlength : lexeme.text.length = other.text.length :=
    Nat.le_antisymm (hother.longest lexeme h.formed hleads)
      (h.longest other hother.formed hotherPrefix)
  obtain ⟨htext, hrest⟩ := List.append_inj (h.split.symm.trans hother.split) hlength
  exact ⟨h.formed.text_inj hother.formed htext, hrest⟩

/-- **The lexeme that is found is the one that comes first.** -/
theorem next?_eq_some_iff
    {t rest : Text} {lexeme : Lexeme} :
    next? t = some (lexeme, rest) ↔ IsFirst t lexeme rest := by
  refine ⟨isFirst_of_next?, fun h => ?_⟩
  obtain ⟨first, behind, hnext⟩ := h.formed.exists_next? ⟨rest, h.split.symm⟩
  obtain ⟨rfl, rfl⟩ := h.unique (isFirst_of_next? hnext)
  exact hnext

/-! ### All lexemes -/

/-- **A text is scanned by longest match, again and again.** -/
theorem scan?_eq_some_iff
    {t : Text} {lexemes : List Lexeme} :
    scan? t = some lexemes ↔ Scans t lexemes := by
  constructor
  · intro h
    induction lexemes generalizing t with
    | nil =>
        rw [scan?_eq_nil_iff.1 h]
        exact .nil
    | cons lexeme lexemes ih =>
        obtain ⟨rest, hnext, hrest⟩ := scan?_eq_cons_iff.1 h
        exact .cons (isFirst_of_next? hnext) (ih hrest)
  · intro h
    induction h with
    | nil => exact scan?_nil
    | cons hfirst _ ih => exact scan?_eq_cons_iff.2 ⟨_, next?_eq_some_iff.2 hfirst, ih⟩

/-- There is no other way of scanning by longest match. -/
theorem eq_scan?_iff
    {scan : Text → Option (List Lexeme)} :
    scan = scan? ↔ ∀ t lexemes, scan t = some lexemes ↔ Scans t lexemes := by
  constructor
  · rintro rfl t lexemes
    exact scan?_eq_some_iff
  · intro h
    funext t
    exact Option.ext fun lexemes => (h t lexemes).trans scan?_eq_some_iff.symm

end Lexeme

end ReversePolish
