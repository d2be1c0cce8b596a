import ReversePolish.Proofs.Word.Kind

/-!
# Classifying the words of an expression

All texts of an expression can be classified or none of its words is
evaluated.  If they can, the words are the texts in their order, each with its
position and its meaning, so classifying respects initial parts and pieces: in
the second of two pieces every position is larger by the length of the first.
-/

namespace ReversePolish
namespace Word

/-- The word with so many words more before it. -/
def shift (n : Nat) (w : Word) : Word :=
  { w with spot := n + w.spot }

theorem classifyFrom_cons_eq_ok_iff
    {spot : Nat} {t : Text} {rest : List Text} {words : List Word} :
    classifyFrom spot (t :: rest) = .ok words ↔
      ∃ token? tail, Token.ofText? t = .ok token? ∧
        classifyFrom (spot + 1) rest = .ok tail ∧ words = ⟨t, spot, token?⟩ :: tail := by
  rw [classifyFrom, Outcome.bind_eq_ok]
  constructor
  · rintro ⟨token?, htoken, h⟩
    obtain ⟨tail, htail, h⟩ := Outcome.bind_eq_ok.1 h
    exact ⟨token?, tail, htoken, htail, (Except.ok.inj h).symm⟩
  · rintro ⟨token?, tail, htoken, htail, rfl⟩
    exact ⟨token?, htoken, Outcome.bind_eq_ok.2 ⟨tail, htail, rfl⟩⟩

theorem exists_classifyFrom_iff
    {spot : Nat} {texts : List Text} :
    (∃ words, classifyFrom spot texts = .ok words) ↔ ∀ t ∈ texts, t.IsClassifiable := by
  induction texts generalizing spot with
  | nil => exact ⟨fun _ t ht => (by cases ht), fun _ => ⟨[], rfl⟩⟩
  | cons t rest ih =>
      rw [List.forall_mem_cons, ← @ih (spot + 1)]
      constructor
      · rintro ⟨words, h⟩
        obtain ⟨token?, tail, htoken, htail, -⟩ := classifyFrom_cons_eq_ok_iff.1 h
        exact ⟨⟨token?, htoken⟩, tail, htail⟩
      · rintro ⟨⟨token?, htoken⟩, tail, htail⟩
        exact ⟨_, classifyFrom_cons_eq_ok_iff.2 ⟨token?, tail, htoken, htail, rfl⟩⟩

theorem exists_classify_iff
    {texts : List Text} :
    (∃ words, classify texts = .ok words) ↔ ∀ t ∈ texts, t.IsClassifiable :=
  exists_classifyFrom_iff

theorem classifyFrom_shift
    {spot : Nat} {texts : List Text} {words : List Word} (n : Nat)
    (h : classifyFrom spot texts = .ok words) :
    classifyFrom (n + spot) texts = .ok (words.map (shift n)) := by
  induction texts generalizing spot words with
  | nil =>
      cases h
      rfl
  | cons t rest ih =>
      obtain ⟨token?, tail, htoken, htail, rfl⟩ := classifyFrom_cons_eq_ok_iff.1 h
      exact classifyFrom_cons_eq_ok_iff.2 ⟨token?, tail.map (shift n), htoken, ih htail, rfl⟩

theorem classifyFrom_append
    {spot : Nat} {first rest : List Text} {firstWords restWords : List Word}
    (hfirst : classifyFrom spot first = .ok firstWords)
    (hrest : classifyFrom (spot + first.length) rest = .ok restWords) :
    classifyFrom spot (first ++ rest) = .ok (firstWords ++ restWords) := by
  induction first generalizing spot firstWords with
  | nil =>
      cases hfirst
      exact hrest
  | cons t first ih =>
      obtain ⟨token?, tail, htoken, htail, rfl⟩ := classifyFrom_cons_eq_ok_iff.1 hfirst
      have hlength : spot + (t :: first).length = spot + 1 + first.length := by
        rw [List.length_cons]
        omega
      rw [hlength] at hrest
      exact classifyFrom_cons_eq_ok_iff.2
        ⟨token?, tail ++ restWords, htoken, ih htail hrest, rfl⟩

/-- The words of two pieces, of which the second stands behind the first. -/
theorem classify_append
    {first rest : List Text} {firstWords restWords : List Word}
    (hfirst : classify first = .ok firstWords)
    (hrest : classify rest = .ok restWords) :
    classify (first ++ rest) = .ok (firstWords ++ restWords.map (shift first.length)) := by
  refine classifyFrom_append hfirst ?_
  rw [Nat.zero_add]
  exact classifyFrom_shift first.length hrest

theorem map_text_of_classifyFrom
    {spot : Nat} {texts : List Text} {words : List Word}
    (h : classifyFrom spot texts = .ok words) :
    words.map text = texts := by
  induction texts generalizing spot words with
  | nil =>
      cases h
      rfl
  | cons t rest ih =>
      obtain ⟨token?, tail, -, htail, rfl⟩ := classifyFrom_cons_eq_ok_iff.1 h
      rw [List.map_cons, ih htail]

/-- A word stands behind as many words as its position says. -/
theorem spot_of_classifyFrom
    {spot : Nat} {texts : List Text} {done rest : List Word} {w : Word}
    (h : classifyFrom spot texts = .ok (done ++ w :: rest)) :
    w.spot = spot + done.length := by
  induction done generalizing spot texts with
  | nil =>
      cases texts with
      | nil => cases h
      | cons t texts =>
          obtain ⟨token?, tail, -, -, heq⟩ := classifyFrom_cons_eq_ok_iff.1 h
          obtain ⟨rfl, -⟩ := List.cons.inj heq
          rfl
  | cons first done ih =>
      cases texts with
      | nil => cases h
      | cons t texts =>
          obtain ⟨token?, tail, -, htail, heq⟩ := classifyFrom_cons_eq_ok_iff.1 h
          obtain ⟨-, rfl⟩ := List.cons.inj heq
          rw [ih htail, List.length_cons]
          omega

theorem classifyFrom_take
    {spot : Nat} {texts : List Text} {words : List Word}
    (h : classifyFrom spot texts = .ok words)
    (n : Nat) :
    classifyFrom spot (texts.take n) = .ok (words.take n) := by
  induction texts generalizing spot words n with
  | nil =>
      cases h
      rw [List.take_nil, List.take_nil]
      rfl
  | cons t rest ih =>
      obtain ⟨token?, tail, htoken, htail, rfl⟩ := classifyFrom_cons_eq_ok_iff.1 h
      cases n with
      | zero => rfl
      | succ n =>
          exact classifyFrom_cons_eq_ok_iff.2 ⟨token?, tail.take n, htoken, ih htail n, rfl⟩

/-- The meaning that a word has been given is that of its text. -/
theorem token?_of_classifyFrom
    {spot : Nat} {texts : List Text} {words : List Word} {w : Word}
    (h : classifyFrom spot texts = .ok words)
    (hw : w ∈ words) :
    Token.ofText? w.text = .ok w.token? := by
  induction texts generalizing spot words with
  | nil =>
      cases h
      cases hw
  | cons t rest ih =>
      obtain ⟨token?, tail, htoken, htail, rfl⟩ := classifyFrom_cons_eq_ok_iff.1 h
      rcases List.mem_cons.1 hw with rfl | hw
      · exact htoken
      · exact ih htail hw

end Word
end ReversePolish
