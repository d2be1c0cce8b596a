import Mathlib.Data.List.Nodup
import ReversePolish.Command.Request

/-!
# Arguments, each for itself

An argument is looked at before anything is known of its place.  The long
forms of the flags differ in their first letters, so an argument decides for
one flag or for none, with one exception: two hyphens with an equals sign
right behind them cut every long form down to nothing.  Such an argument is
refused wherever it stands before a separator; all others get a role.
-/

namespace ReversePolish

namespace Flag

theorem letter_inj
    {f g : Flag}
    (h : f.letter = g.letter) :
    f = g := by
  rw [← Option.some_inj, ← ofLetter?_letter f, ← ofLetter?_letter g, h]

/-- A long form starts with the letter of the short one. -/
theorem exists_long_eq
    (f : Flag) :
    ∃ rest, f.long = '-' :: '-' :: f.letter :: rest := by
  cases f <;> exact ⟨_, rfl⟩

end Flag

namespace Argument

/-! ### Roles -/

/-- An argument that could be any flag with a value. -/
def IsUndecided (t : Text) : Prop :=
  ['-', '-', '='] <+: t

instance (t : Text) : Decidable (IsUndecided t) :=
  inferInstanceAs (Decidable (['-', '-', '='] <+: t))

theorem letter_of_mem_abbreviated
    {c : Char} {front : Text} {f : Flag}
    (h : f ∈ abbreviated ('-' :: '-' :: c :: front)) :
    f.letter = c := by
  obtain ⟨rest, hlong⟩ := f.exists_long_eq
  rw [abbreviated, List.mem_filter, List.isPrefixOf_iff_prefix, hlong] at h
  simp only [List.cons_prefix_cons] at h
  exact h.2.2.2.1.symm

/-- Behind two hyphens one letter decides. -/
theorem abbreviated_cases
    (c : Char) (front : Text) :
    abbreviated ('-' :: '-' :: c :: front) = [] ∨
      ∃ f, abbreviated ('-' :: '-' :: c :: front) = [f] := by
  have hletter := @letter_of_mem_abbreviated c front
  have hnodup : (abbreviated ('-' :: '-' :: c :: front)).Nodup :=
    List.Nodup.filter _ (by decide)
  generalize abbreviated ('-' :: '-' :: c :: front) = flags at hletter hnodup
  rcases flags with _ | ⟨f, _ | ⟨g, rest⟩⟩
  · exact Or.inl rfl
  · exact Or.inr ⟨f, rfl⟩
  · have hsame : f = g := Flag.letter_inj ((hletter (by simp)).trans (hletter (by simp)).symm)
    simp [hsame] at hnodup

theorem splitEquals?_cons
    {c : Char} (rest : Text)
    (h : c ≠ '=') :
    splitEquals? (c :: rest) =
      (splitEquals? rest).map fun (front, behind) => (c :: front, behind) := by
  simp only [splitEquals?, List.dropWhile_cons, List.takeWhile_cons, ne_eq, h, not_false_eq_true,
    decide_true, if_true]
  split <;> rfl

/-- An argument stands for at most one flag if it is neither the separator nor undecided. -/
theorem candidates_cases
    {t : Text}
    (hseparator : t ≠ separatorText)
    (h : ¬ IsUndecided t) :
    candidates t = [] ∨ ∃ m, candidates t = [m] := by
  unfold candidates
  split
  · rename_i rest
    cases rest with
    | nil => exact absurd rfl hseparator
    | cons c rest =>
        have hc : c ≠ '=' := by
          rintro rfl
          exact h ⟨rest, rfl⟩
        -- Whether there is an equals sign or not, the letter stands in front of it.
        rw [splitEquals?_cons rest hc]
        cases splitEquals? rest with
        | none =>
            rcases abbreviated_cases c rest with hnone | ⟨f, hf⟩
            · exact Or.inl (by simp [hnone])
            · exact Or.inr ⟨_, by simp [hf]; rfl⟩
        | some found =>
            rcases abbreviated_cases c found.1 with hnone | ⟨f, hf⟩
            · exact Or.inl (by simp [hnone])
            · exact Or.inr ⟨_, by simp [hf]; rfl⟩
  · rename_i c rest _
    cases Flag.ofLetter? c with
    | none => exact Or.inl rfl
    | some f => exact Or.inr ⟨_, rfl⟩
  · exact Or.inl rfl

/-- What could be any flag abbreviates the long forms of all. -/
theorem roleOf_of_isUndecided
    {t : Text}
    (h : IsUndecided t) :
    roleOf t = .error Flag.all := by
  obtain ⟨behind, rfl⟩ := h
  rfl

theorem exists_roleOf
    {t : Text}
    (hseparator : t ≠ separatorText)
    (h : ¬ IsUndecided t) :
    ∃ role, roleOf t = .ok role ∧ role ≠ .separator := by
  unfold roleOf
  split
  · exact ⟨.plain, rfl, by simp⟩
  · cases whole? t with
    | some m => exact ⟨.flag m, rfl, by simp⟩
    | none =>
        rcases candidates_cases hseparator h with hnone | ⟨m, hm⟩
        · simp only [hnone]
          split
          · exact ⟨.plain, rfl, by simp⟩
          · exact ⟨.unknown, rfl, by simp⟩
        · simp only [hm]
          exact ⟨.flag m, rfl, by simp⟩

/-! ### All arguments -/

theorem classify_cons
    {t : Text} {role : Role} (rest : List Text)
    (hseparator : t ≠ separatorText)
    (h : roleOf t = .ok role) :
    classify (t :: rest) = (classify rest).map (⟨t, role⟩ :: ·) := by
  rw [classify, if_neg hseparator, h]
  cases classify rest <;> rfl

/-- What does not start with a hyphen is plain. -/
theorem classify_of_head?
    {t : Text} (rest : List Text)
    (h : t.head? ≠ some '-') :
    classify (t :: rest) = (classify rest).map (⟨t, .plain⟩ :: ·) := by
  refine classify_cons rest ?_ (by rw [roleOf, if_pos h])
  rintro rfl
  exact h rfl

/-- Without a separator, arguments that decide are classified, each for itself. -/
theorem exists_classify
    {texts : List Text}
    (hseparator : ∀ t ∈ texts, t ≠ separatorText)
    (h : ∀ t ∈ texts, ¬ IsUndecided t) :
    ∃ arguments, classify texts = .ok arguments ∧ arguments.map text = texts ∧
      ∀ a ∈ arguments, a.role ≠ .separator := by
  induction texts with
  | nil => exact ⟨[], rfl, rfl, List.forall_mem_nil _⟩
  | cons t rest ih =>
      obtain ⟨ht, hrest⟩ := List.forall_mem_cons.1 h
      obtain ⟨hne, hseparator⟩ := List.forall_mem_cons.1 hseparator
      obtain ⟨role, hrole, hplain⟩ := exists_roleOf hne ht
      obtain ⟨arguments, hclassify, htexts, hroles⟩ := ih hseparator hrest
      refine ⟨⟨t, role⟩ :: arguments, ?_, ?_, List.forall_mem_cons.2 ⟨hplain, hroles⟩⟩
      · rw [classify_cons rest hne hrole, hclassify]
        rfl
      · rw [List.map_cons, htexts]

/-- The first argument that does not decide is refused, whatever stands before it. -/
theorem classify_of_isUndecided
    {before : List Text} {t : Text} (after : List Text)
    (hseparator : ∀ u ∈ before, u ≠ separatorText)
    (hbefore : ∀ u ∈ before, ¬ IsUndecided u)
    (ht : IsUndecided t) :
    classify (before ++ t :: after) = .error ⟨t, Flag.all⟩ := by
  induction before with
  | nil =>
      have hne : t ≠ separatorText := by
        rintro rfl
        exact absurd ht (by decide)
      rw [List.nil_append, classify, if_neg hne, roleOf_of_isUndecided ht]
  | cons first before ih =>
      obtain ⟨hfirst, hbefore⟩ := List.forall_mem_cons.1 hbefore
      obtain ⟨hne, hseparator⟩ := List.forall_mem_cons.1 hseparator
      obtain ⟨role, hrole, -⟩ := exists_roleOf hne hfirst
      rw [List.cons_append, classify_cons _ hne hrole, ih hseparator hbefore]
      rfl

theorem exists_first_isUndecided
    {texts : List Text}
    (h : ∃ t ∈ texts, IsUndecided t) :
    ∃ before t after, texts = before ++ t :: after ∧
      (∀ u ∈ before, ¬ IsUndecided u) ∧ IsUndecided t := by
  have hsome : (texts.find? fun t => decide (IsUndecided t)).isSome := by
    simpa using h
  obtain ⟨t, ht⟩ := Option.isSome_iff_exists.1 hsome
  obtain ⟨hundecided, before, after, hsplit, hbefore⟩ := List.find?_eq_some_iff_append.1 ht
  exact ⟨before, t, after, hsplit, fun u hu => by simpa using hbefore u hu,
    of_decide_eq_true hundecided⟩

end Argument

end ReversePolish
