import ReversePolish.Proofs.Session.Validity

/-!
# Reading what is displayed

The stack and the bindings are displayed as they are, without quotes and
escapes.  In a valid session that is no loss, for its texts are made of signs,
digits and letters: no blank, colon or line feed of a display is part of one.
So the words between the brackets are the entries of the stack, and each line
between the braces is a name with its value.

A display of bindings does not show where a chain ends.  The names say it, as
each of them belongs to one chain, so orderly bindings are read back as well.
Two sessions that look alike are therefore the same.
-/

namespace ReversePolish

/-! ### Characters of operands -/

/-- What is spelled as an integer has signs and digits only. -/
theorem Numeral.IsSpelling.isSign_or_isDigit
    {t : Text} {c : Char}
    (h : IsSpelling t)
    (hc : c ∈ t) :
    Lexeme.isSign c = true ∨ Lexeme.isDigit c = true := by
  rcases h with hdigits | ⟨sign, digits, hsign, hdigits, rfl⟩
  · exact Or.inr (hdigits.isDigit c hc)
  · rcases List.mem_cons.1 hc with rfl | hmem
    · exact Or.inl hsign
    · exact Or.inr (hdigits.isDigit c hmem)

/-- The characters that operands have. -/
def Text.isOperandCharacter (c : Char) : Bool :=
  Lexeme.isSign c || Lexeme.isDigit c || Lexeme.isLetter c

theorem Text.IsOperand.isOperandCharacter
    {t : Text} {c : Char}
    (h : t.IsOperand)
    (hc : c ∈ t) :
    Text.isOperandCharacter c = true := by
  simp only [Text.isOperandCharacter, Bool.or_eq_true]
  rcases h with ⟨value, htoken⟩ | ⟨letter, htoken⟩
  · obtain ⟨hspelling, -, -⟩ := Token.ofText?_eq_integer_iff.1 htoken
    exact Or.inl (hspelling.isSign_or_isDigit hc)
  · obtain ⟨hletter, rfl⟩ := Token.ofText?_eq_name_iff.1 htoken
    rw [List.mem_singleton.1 hc]
    exact Or.inr hletter

/-- A character of another kind is in no operand. -/
theorem Text.IsOperand.notMem
    {t : Text} {c : Char}
    (h : t.IsOperand)
    (hc : Text.isOperandCharacter c = false) :
    c ∉ t := by
  intro hmem
  rw [h.isOperandCharacter hmem] at hc
  cases hc

/-! ### Stacks -/

namespace Stack

/-- The words between the brackets of a display, in their order.  Each of them is closed by a blank,
so nothing stands behind the last blank. -/
def wordsShown (t : Text) : List Text :=
  ((t.drop "[ ".toList.length).dropLast.splitOn ' ').dropLast

theorem splitOn_flatMap
    {words : List Text} {separator : Char}
    (h : ∀ word ∈ words, separator ∉ word) :
    (words.flatMap (· ++ [separator])).splitOn separator = words ++ [[]] := by
  induction words with
  | nil => rfl
  | cons word rest ih =>
      obtain ⟨hword, hrest⟩ := List.forall_mem_cons.1 h
      rw [List.flatMap_cons, List.append_assoc, List.singleton_append,
        List.splitOn_append_cons_self_of_not_mem hword, ih hrest]
      rfl

/-- What the display of a stack shows are its entries. -/
theorem wordsShown_render
    {s : Stack}
    (h : ∀ entry ∈ s.entries, ' ' ∉ entry) :
    wordsShown s.render = s.entries := by
  have hinner : (s.render.drop "[ ".toList.length).dropLast =
      s.entries.flatMap (· ++ [' ']) := by
    rw [render, List.append_assoc, List.drop_left, List.dropLast_concat]
  rw [wordsShown, hinner, splitOn_flatMap h, List.dropLast_concat]

end Stack

/-! ### Bindings -/

namespace Bindings

/-- The name and the value on a line of a display, which are set apart by a colon and a blank. -/
def pairOn (line : Text) : Text × Text :=
  let inner := (line.drop "\t[".toList.length).dropLast
  (inner.takeWhile (· != ':'), (inner.dropWhile (· != ':')).drop ": ".toList.length)

/-- The pairs on the lines between the braces of a display, in their order. -/
def pairsShown (t : Text) : List (Text × Text) :=
  (t.splitOn '\n').tail.dropLast.map pairOn

theorem pairOn_renderPair
    {pair : Text × Text}
    (h : ':' ∉ pair.1) :
    pairOn ('\t' :: renderPair pair) = pair := by
  obtain ⟨name, value⟩ := pair
  have hinner : (('\t' :: renderPair (name, value)).drop "\t[".toList.length).dropLast =
      name ++ ':' :: ' ' :: value := by
    have hline : '\t' :: renderPair (name, value) =
        "\t[".toList ++ ((name ++ ':' :: ' ' :: value) ++ [']']) := by
      simp [renderPair]
    rw [hline, List.drop_left, List.dropLast_concat]
  have hname : ∀ c ∈ name, (c != ':') = true := by
    rintro c hc
    refine bne_iff_ne.2 ?_
    rintro rfl
    exact h hc
  rw [pairOn, hinner, List.takeWhile_append_of_pos hname, List.dropWhile_append_of_pos hname]
  simp

theorem lines_render
    {b : Bindings}
    (h : ∀ pair ∈ b.toList, '\n' ∉ pair.1 ∧ '\n' ∉ pair.2) :
    b.render.splitOn '\n' =
      ['\x7b'] :: (b.toList.map fun pair => '\t' :: renderPair pair) ++ [['\x7d']] := by
  refine List.splitOn_intercalate '\n' ?_ (by simp)
  intro line hline
  simp only [List.cons_append, List.mem_cons, List.mem_append, List.mem_map,
    List.not_mem_nil, or_false] at hline
  rcases hline with rfl | ⟨pair, hpair, rfl⟩ | rfl
  · decide
  · obtain ⟨hname, hvalue⟩ := h pair hpair
    simp [renderPair, hname, hvalue]
  · decide

/-- What the display of bindings shows are the names with their values. -/
theorem pairsShown_render
    {b : Bindings}
    (hlines : ∀ pair ∈ b.toList, '\n' ∉ pair.1 ∧ '\n' ∉ pair.2)
    (hcolons : ∀ pair ∈ b.toList, ':' ∉ pair.1) :
    pairsShown b.render = b.toList := by
  rw [pairsShown, lines_render hlines, List.cons_append, List.tail_cons, List.dropLast_concat,
    List.map_map]
  calc
    _ = b.toList.map id :=
      List.map_congr_left fun pair hpair => pairOn_renderPair (hcolons pair hpair)
    _ = b.toList := List.map_id _

end Bindings

/-! ### Sessions -/

namespace Session

theorem IsValid.wordsShown_render
    {s : Session}
    (h : s.IsValid) :
    Stack.wordsShown s.stack.render = s.stack.entries :=
  Stack.wordsShown_render fun entry hentry => (h.entries entry hentry).notMem (by decide)

theorem IsValid.pairsShown_render
    {s : Session}
    (h : s.IsValid) :
    Bindings.pairsShown s.bindings.render = s.bindings.toList := by
  have hname : ∀ pair ∈ s.bindings.toList, pair.1.IsOperand :=
    fun pair hpair => Or.inr (h.names pair hpair)
  have hvalue : ∀ pair ∈ s.bindings.toList, pair.2.IsOperand :=
    fun pair hpair => Or.inl (h.values pair hpair)
  refine Bindings.pairsShown_render (fun pair hpair => ⟨?_, ?_⟩) fun pair hpair => ?_
  · exact (hname pair hpair).notMem (by decide)
  · exact (hvalue pair hpair).notMem (by decide)
  · exact (hname pair hpair).notMem (by decide)

/-- **What is displayed of a session determines the session.**  Reading the words of the stack from
the last to the first, and the pairs of the bindings in their order, rebuilds both of them; so
sessions of which the same is displayed are the same. -/
theorem display_determines
    {s : Session}
    (hvalid : s.IsValid)
    (horderly : s.bindings.IsOrderly) :
    (Stack.wordsShown s.stack.render).reverse = s.stack.toList ∧
      Stack.ofList (Stack.wordsShown s.stack.render).reverse = s.stack ∧
      Bindings.pairsShown s.bindings.render = s.bindings.toList ∧
      Bindings.ofList (Bindings.pairsShown s.bindings.render) = s.bindings ∧
      ∀ t : Session, t.IsValid → t.bindings.IsOrderly →
        (s.stack.render = t.stack.render → s.stack = t.stack) ∧
          (s.bindings.render = t.bindings.render → s.bindings = t.bindings) := by
  have hstack : ∀ u : Session, u.IsValid →
      Stack.ofList (Stack.wordsShown u.stack.render).reverse = u.stack := by
    intro u hu
    rw [hu.wordsShown_render]
    exact u.stack.ofList_toList
  have hbindings : ∀ u : Session, u.IsValid → u.bindings.IsOrderly →
      Bindings.ofList (Bindings.pairsShown u.bindings.render) = u.bindings := by
    intro u hu huorderly
    rw [hu.pairsShown_render]
    exact huorderly.ofList_toList
  refine ⟨congrArg List.reverse hvalid.wordsShown_render, hstack s hvalid,
    hvalid.pairsShown_render, hbindings s hvalid horderly, ?_⟩
  intro t htvalid htorderly
  constructor
  · intro hrender
    rw [← hstack s hvalid, hrender, hstack t htvalid]
  · intro hrender
    rw [← hbindings s hvalid horderly, hrender, hbindings t htvalid htorderly]

/-- Two names of one chain that were bound in either order, and one value in two spellings: all of
it can be seen. -/
theorem display_determines_shared_chain :
    let s := (fresh.evaluate
      (["K", "7", "=", "A", "-0", "=", "007", "K"].map String.toList)).session
    let t := (fresh.evaluate
      (["A", "-0", "=", "K", "7", "=", "7", "K"].map String.toList)).session
    Stack.ofList (Stack.wordsShown "[ K 007 ]".toList).reverse = s.stack ∧
      Bindings.ofList (Bindings.pairsShown "\x7b\n\t[K: 7]\n\t[A: -0]\n\x7d".toList) = s.bindings ∧
      s.stack.render ≠ t.stack.render ∧ s.bindings.render ≠ t.bindings.render := by
  intro s t
  have hstack : s.stack.render = "[ K 007 ]".toList := by
    decide +kernel
  have hbindings : s.bindings.render = "\x7b\n\t[K: 7]\n\t[A: -0]\n\x7d".toList := by
    decide +kernel
  have hother : s.stack ≠ t.stack ∧ s.bindings ≠ t.bindings := by
    decide +kernel
  have hvalid : ∀ texts, (fresh.evaluate texts).session.IsValid := isValid_fresh.evaluate
  have horderly : ∀ texts, (fresh.evaluate texts).session.bindings.IsOrderly :=
    isOrderly_evaluate Bindings.isOrderly_empty
  obtain ⟨-, hwords, -, hpairs, hsame⟩ := display_determines (hvalid _) (horderly _)
  obtain ⟨hsameStack, hsameBindings⟩ := hsame t (hvalid _) (horderly _)
  rw [← hstack, ← hbindings]
  exact ⟨hwords, hpairs, fun h => hother.1 (hsameStack h), fun h => hother.2 (hsameBindings h)⟩

end Session
end ReversePolish
