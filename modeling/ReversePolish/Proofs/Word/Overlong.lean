import ReversePolish.Proofs.Word.Classification

/-!
# Overlong numerals

A word is counted before it is read, and the two look at different things: the
count takes the digits behind the zeros at the start, and reading takes all of
them.  A numeral that has more digits than a numeral may have, few of which are
significant, therefore passes the count and cannot be read.  No other text is
in the way of being classified, and an expression can be classified unless one
of its words is overlong.
-/

namespace ReversePolish

namespace Numeral

/-- The digits of a numeral, without its sign. -/
def digits (t : Text) : Text :=
  t.filter Lexeme.isDigit

/-- A numeral with more digits than may be read, of which few are significant. -/
structure IsOverlong (t : Text) : Prop where
  isSpelling : IsSpelling t
  tooLong : digitLimit < (digits t).length
  fewSignificant : ((digits t).dropWhile (· == '0')).length ≤ mostDigits

theorem AllDigits.digits_eq
    {t : Text}
    (h : AllDigits t) :
    digits t = t :=
  List.filter_eq_self.2 h.isDigit

theorem isDigit_of_isSign
    {sign : Char}
    (h : Lexeme.isSign sign = true) :
    Lexeme.isDigit sign = false := by
  simp only [Lexeme.isSign, Bool.or_eq_true, beq_iff_eq] at h
  rcases h with rfl | rfl <;> decide

theorem isSign_of_isDigit
    {c : Char}
    (h : Lexeme.isDigit c = true) :
    Lexeme.isSign c = false := by
  by_contra hsign
  rw [Bool.not_eq_false] at hsign
  rw [isDigit_of_isSign hsign] at h
  cases h

theorem digits_cons_of_isSign
    {sign : Char} {t : Text}
    (hsign : Lexeme.isSign sign = true)
    (h : AllDigits t) :
    digits (sign :: t) = t := by
  rw [digits, List.filter_cons_of_neg (by simp [isDigit_of_isSign hsign])]
  exact h.digits_eq

/-- Digits have no sign to be dropped. -/
theorem AllDigits.significant_eq
    {t : Text}
    (h : AllDigits t) :
    significant t = t.dropWhile (· == '0') := by
  cases t with
  | nil => rfl
  | cons c rest =>
      have hc := isSign_of_isDigit (h.isDigit c List.mem_cons_self)
      rw [significant, List.dropWhile_cons_of_neg (p := fun c => c == '+' || c == '-')]
      exact Bool.eq_false_iff.1 hc

/-- What is counted of a numeral are its digits behind the zeros at the start. -/
theorem IsSpelling.significant_eq
    {t : Text}
    (h : IsSpelling t) :
    significant t = (digits t).dropWhile (· == '0') := by
  rcases h with h | ⟨sign, rest, hsign, h, rfl⟩
  · rw [h.digits_eq, h.significant_eq]
  · rw [digits_cons_of_isSign hsign h, ← h.significant_eq]
    exact congrArg (List.dropWhile (· == '0')) (List.dropWhile_cons_of_pos hsign)

/-- The integer that a numeral spells, however long it is. -/
def spelledValue (t : Text) : Int :=
  if t.head? = some '-' then -(magnitude (digits t) : Int) else magnitude (digits t)

/-- Reading a numeral fails when it has too many digits, and only then. -/
theorem IsSpelling.read_eq
    {t : Text}
    (h : IsSpelling t) :
    read t =
      if digitLimit < (digits t).length then .error (.tooLong (digits t).length)
      else .ok (spelledValue t) := by
  rcases h with h | ⟨sign, rest, hsign, h, rfl⟩
  · have hhead : t.head? ≠ some '-' := by
      intro hminus
      have hdigit := h.isDigit '-' (List.mem_of_head? hminus)
      revert hdigit
      decide
    rw [read_digits h, spelledValue, if_neg hhead, h.digits_eq]
  · rw [read_sign_digits hsign h, spelledValue, digits_cons_of_isSign hsign h]
    simp only [List.head?_cons, Option.some.injEq]

theorem IsSpelling.inRange_eq
    {t : Text}
    (h : IsSpelling t) :
    inRange t =
      if mostDigits < ((digits t).dropWhile (· == '0')).length then .ok false
      else if digitLimit < (digits t).length then .error (.tooLong (digits t).length)
      else .ok (decide (Fits (spelledValue t))) := by
  rw [inRange, h.significant_eq, h.read_eq]
  split
  · rfl
  · split <;> rfl

/-- A numeral is overlong when it passes the count and cannot be read. -/
theorem IsSpelling.inRange_eq_error_iff
    {t : Text} {f : Fault}
    (h : IsSpelling t) :
    inRange t = .error f ↔ IsOverlong t ∧ f = .tooLong (digits t).length := by
  rw [h.inRange_eq]
  constructor
  · intro hfault
    split at hfault
    · cases hfault
    · rename_i hcount
      split at hfault
      · rename_i hlimit
        cases hfault
        exact ⟨⟨h, hlimit, Nat.not_lt.1 hcount⟩, rfl⟩
      · cases hfault
  · rintro ⟨⟨-, hlimit, hcount⟩, rfl⟩
    rw [if_neg (Nat.not_lt.2 hcount), if_pos hlimit]

/-! The number one with zeros before it. -/

theorem allDigits_zeros_one
    (n : Nat) :
    AllDigits (List.replicate n '0' ++ ['1']) where
  ne_nil := List.append_ne_nil_of_right_ne_nil _ (List.cons_ne_nil '1' [])
  isDigit c hc := by
    rcases List.mem_append.1 hc with hzero | hone
    · rw [(List.mem_replicate.1 hzero).2]
      decide
    · rw [List.mem_singleton.1 hone]
      decide

theorem length_digits_zeros_one
    (n : Nat) :
    (digits (List.replicate n '0' ++ ['1'])).length = n + 1 := by
  rw [(allDigits_zeros_one n).digits_eq, List.length_append, List.length_replicate,
    List.length_singleton]

/-- However many zeros there are, a single digit is counted. -/
theorem isOverlong_zeros_one
    {n : Nat}
    (h : digitLimit ≤ n) :
    IsOverlong (List.replicate n '0' ++ ['1']) where
  isSpelling := Or.inl (allDigits_zeros_one n)
  tooLong := by
    rw [length_digits_zeros_one]
    exact Nat.lt_succ_of_le h
  fewSignificant := by
    have hzeros : ∀ c ∈ List.replicate n '0', (c == '0') = true := by
      intro c hc
      rw [(List.mem_replicate.1 hc).2]
      rfl
    rw [(allDigits_zeros_one n).digits_eq, List.dropWhile_append_of_pos hzeros]
    decide

end Numeral

/-! ### Words -/

/-- **Overlong numerals are the only texts that cannot be classified.** -/
theorem Token.ofText?_eq_error_iff
    {t : Text} {f : Numeral.Fault} :
    ofText? t = .error f ↔
      Numeral.IsOverlong t ∧ f = .tooLong (Numeral.digits t).length := by
  constructor
  · intro h
    rw [ofText?] at h
    split at h
    · rename_i text hscan
      obtain ⟨hspelling, rfl⟩ :=
        Lexeme.next?_eq_integer_iff.1 (Lexeme.scan?_eq_singleton_iff.1 hscan)
      rcases Outcome.bind_eq_error.1 h with hrange | ⟨inRange, hrange, h⟩
      · exact hspelling.inRange_eq_error_iff.1 hrange
      · -- What is in range was read once already, so reading it again goes through.
        cases inRange with
        | false => cases h
        | true =>
            exfalso
            rcases Outcome.bind_eq_error.1 h with hread | ⟨value, -, h⟩
            · rw [Numeral.inRange, hread] at hrange
              split at hrange <;> cases hrange
            · cases h
    · cases h
    · cases h
    · cases h
  · rintro ⟨h, rfl⟩
    have hscan : Lexeme.scan? t = some [.integer t] :=
      Lexeme.scan?_eq_singleton_iff.2 (Lexeme.next?_eq_integer_iff.2 ⟨h.isSpelling, rfl⟩)
    rw [ofText?, hscan]
    exact Outcome.bind_eq_error.2
      (Or.inl (h.isSpelling.inRange_eq_error_iff.2 ⟨h, rfl⟩))

theorem Text.isClassifiable_iff
    {t : Text} :
    t.IsClassifiable ↔ ¬ Numeral.IsOverlong t := by
  constructor
  · rintro ⟨token?, htoken⟩ h
    rw [Token.ofText?_eq_error_iff.2 ⟨h, rfl⟩] at htoken
    cases htoken
  · intro h
    cases htoken : Token.ofText? t with
    | ok token? => exact ⟨token?, htoken⟩
    | error f => exact absurd (Token.ofText?_eq_error_iff.1 htoken).1 h

namespace Word

/-- The first overlong word keeps an expression from being classified. -/
theorem classifyFrom_eq_error_iff
    {spot : Nat} {texts : List Text} {f : Numeral.Fault} :
    classifyFrom spot texts = .error f ↔
      ∃ before t after, texts = before ++ t :: after ∧ (∀ u ∈ before, u.IsClassifiable) ∧
        Numeral.IsOverlong t ∧ f = .tooLong (Numeral.digits t).length := by
  induction texts generalizing spot with
  | nil =>
      refine ⟨fun h => (by cases h), ?_⟩
      rintro ⟨before, t, after, h, -⟩
      cases before <;> cases h
  | cons first rest ih =>
      rw [classifyFrom, Outcome.bind_eq_error]
      constructor
      · rintro (hfirst | ⟨token?, htoken, h⟩)
        · exact ⟨[], first, rest, rfl, List.forall_mem_nil _, Token.ofText?_eq_error_iff.1 hfirst⟩
        · rcases Outcome.bind_eq_error.1 h with hrest | ⟨tail, -, h⟩
          · obtain ⟨before, t, after, rfl, hbefore, ht⟩ := ih.1 hrest
            exact ⟨first :: before, t, after, rfl,
              List.forall_mem_cons.2 ⟨⟨token?, htoken⟩, hbefore⟩, ht⟩
          · cases h
      · rintro ⟨before, t, after, htexts, hbefore, ht⟩
        cases before with
        | nil =>
            obtain ⟨rfl, rfl⟩ := List.cons.inj htexts
            exact Or.inl (Token.ofText?_eq_error_iff.2 ht)
        | cons u before =>
            obtain ⟨rfl, rfl⟩ := List.cons.inj htexts
            obtain ⟨⟨token?, htoken⟩, hbefore⟩ := List.forall_mem_cons.1 hbefore
            refine Or.inr ⟨token?, htoken, Outcome.bind_eq_error.2 (Or.inl ?_)⟩
            exact ih.2 ⟨before, t, after, rfl, hbefore, ht⟩

end Word

end ReversePolish
