import ReversePolish.Proofs.Session.Atomicity
import ReversePolish.Proofs.Session.Validity
import ReversePolish.Proofs.Word.Grammar

/-!
# Expressions in two pieces

Evaluating an expression is evaluating its first piece and then, unless that
ends early, its second piece from where the first one ended.  All that the
second piece has to know of the first is the number of its words: a word that
fails there is reported that much further on.  Words that lead from one
session to another can so be chained.
-/

namespace ReversePolish

namespace Halt

/-- The halt behind so many words more. -/
def shift (n : Nat) : Halt → Halt
  | .stopped word spot cause => .stopped word (n + spot) cause
  | .unreadable fault => .unreadable fault

end Halt

namespace Evaluation

/-- The evaluation behind so many words more. -/
def shift (n : Nat) (e : Evaluation) : Evaluation :=
  { e with halt? := e.halt?.map (Halt.shift n) }

@[simp] theorem halt?_shift
    (n : Nat) (e : Evaluation) :
    (e.shift n).halt? = e.halt?.map (Halt.shift n) := rfl

theorem behind_shift
    (n : Nat) (e : Evaluation) (steps : List Step) :
    (e.shift n).behind steps = (e.behind steps).shift n := rfl

end Evaluation

namespace Session

/-- Where a word stands matters only to what is reported about it. -/
theorem step_shift
    (s : Session) (n : Nat) (w : Word) :
    s.step (w.shift n) = (s.step w).mapError fun i => ⟨i.halt.shift n, i.session⟩ := by
  obtain ⟨text, spot, token?⟩ := w
  rcases token? with _ | value | letter | op
  · rfl
  · rfl
  · rfl
  · simp only [Word.shift, step, operate]
    split
    · rfl
    · split <;> rfl

theorem run_shift
    (s : Session) (n : Nat) (words : List Word) :
    s.run (words.map (Word.shift n)) = (s.run words).shift n := by
  induction words generalizing s with
  | nil => rfl
  | cons w rest ih =>
      have hshift := s.step_shift n w
      rw [List.map_cons]
      cases hstep : s.step w with
      | error interruption =>
          rw [hstep] at hshift
          rw [run_cons_of_error _ hstep, run_cons_of_error _ hshift]
          rfl
      | ok next =>
          rw [hstep] at hshift
          rw [run_cons_of_ok _ hstep, run_cons_of_ok _ hshift, ih, Evaluation.behind_shift]
          rfl

/-- **Evaluating two pieces is evaluating one after the other.** -/
theorem evaluate_append
    (s : Session) {first rest : List Text}
    (hfirst : ∀ t ∈ first, t.IsClassifiable)
    (hrest : ∀ t ∈ rest, t.IsClassifiable) :
    s.evaluate (first ++ rest) =
      (s.evaluate first).andThen fun t => (t.evaluate rest).shift first.length := by
  obtain ⟨firstWords, hfirst⟩ := Word.exists_classify_iff.2 hfirst
  obtain ⟨restWords, hrest⟩ := Word.exists_classify_iff.2 hrest
  rw [evaluate_of_classify s (Word.classify_append hfirst hrest), run_append,
    evaluate_of_classify s hfirst]
  refine congrArg _ (funext fun t => ?_)
  rw [run_shift, evaluate_of_classify t hrest]

theorem isClassifiable_operator
    (op : Operator) :
    ∀ t ∈ [[op.symbol]], Text.IsClassifiable t := by
  intro t ht
  rw [List.mem_singleton.1 ht]
  exact ⟨_, Token.ofText?_eq_operator_iff.2 rfl⟩

/-- Evaluating the words goes through and leads from one session to the other. -/
def Leads (s : Session) (texts : List Text) (t : Session) : Prop :=
  (s.evaluate texts).halt? = none ∧ (s.evaluate texts).session = t

theorem evaluate_singleton
    {t : Text} {token? : Option Token} (s : Session)
    (h : Token.ofText? t = .ok token?) :
    s.evaluate [t] = s.run [⟨t, 0, token?⟩] :=
  s.evaluate_of_classify (Word.classifyFrom_cons_eq_ok_iff.2 ⟨_, [], h, rfl, rfl⟩)

/-! ### Single words -/

theorem leads_operand
    {t : Text} (s : Session)
    (h : t.IsOperand) :
    s.Leads [t] (s.push t) := by
  rcases h with ⟨value, hvalue⟩ | ⟨letter, hletter⟩
  · rw [Leads, s.evaluate_singleton hvalue]
    exact ⟨rfl, rfl⟩
  · rw [Leads, s.evaluate_singleton hletter]
    exact ⟨rfl, rfl⟩

theorem takeOperands_push_push
    (s : Session) (left right : Text) :
    ((s.push right).push left).takeOperands = .ok (left, right, s) := rfl

section Operators

variable {op : Operator} {s : Session} {left right : Text}

theorem leads_operator
    {effect : Effect}
    (h : op.effect s.bindings left right = .ok effect) :
    ((s.push right).push left).Leads [[op.symbol]] (s.perform effect) := by
  rw [Leads, evaluate_singleton _ (Token.ofText?_eq_operator_iff.2 rfl)]
  simp [run, step, operate, takeOperands_push_push, h]

theorem halt?_operator
    {cause : Cause}
    (h : op.effect s.bindings left right = .error (.cause cause)) :
    (((s.push right).push left).evaluate [[op.symbol]]).halt? =
      some (.stopped [op.symbol] 0 cause) := by
  rw [evaluate_singleton _ (Token.ofText?_eq_operator_iff.2 rfl)]
  simp [run, step, operate, takeOperands_push_push, h]

end Operators

/-! ### Pieces -/

section Pieces

variable {s t : Session} {first rest : List Text}

theorem halt?_append_of_leads
    (hfirst : ∀ t ∈ first, t.IsClassifiable)
    (hrest : ∀ t ∈ rest, t.IsClassifiable)
    (h : s.Leads first t) :
    (s.evaluate (first ++ rest)).halt? =
      (t.evaluate rest).halt?.map (Halt.shift first.length) := by
  obtain ⟨hdone, rfl⟩ := h
  rw [evaluate_append s hfirst hrest, Evaluation.andThen_of_done _ hdone]
  rfl

theorem Leads.append
    {u : Session}
    (hfirst : ∀ t ∈ first, t.IsClassifiable)
    (hrest : ∀ t ∈ rest, t.IsClassifiable)
    (h : s.Leads first t)
    (h' : t.Leads rest u) :
    s.Leads (first ++ rest) u := by
  obtain ⟨hdone', rfl⟩ := h'
  refine ⟨?_, ?_⟩
  · rw [halt?_append_of_leads hfirst hrest h, hdone', Option.map_none]
  · obtain ⟨hdone, rfl⟩ := h
    rw [evaluate_append s hfirst hrest, Evaluation.andThen_of_done _ hdone]
    rfl

theorem halt?_append_of_halted
    {halt : Halt}
    (hfirst : ∀ t ∈ first, t.IsClassifiable)
    (hrest : ∀ t ∈ rest, t.IsClassifiable)
    (h : (s.evaluate first).halt? = some halt) :
    (s.evaluate (first ++ rest)).halt? = some halt := by
  rw [evaluate_append s hfirst hrest, Evaluation.andThen_of_halted _ h, h]

end Pieces

/-- A word that fails is one of the expression. -/
theorem spot_lt_length
    {s : Session} {texts : List Text} {word : Text} {spot : Nat} {cause : Cause}
    (h : (s.evaluate texts).halt? = some (.stopped word spot cause)) :
    spot < texts.length := by
  obtain ⟨hspot, -⟩ := List.getElem?_eq_some_iff.1 (evaluate_eq_stopped h).1
  exact hspot

/-! ### The word that fails -/

section Failing

variable {s : Session} {texts : List Text} {word : Text} {spot : Nat} {cause : Cause}

/-- Behind words that are done, an expression ends as what is left of it. -/
theorem halt?_of_done
    (htexts : ∀ t ∈ texts, t.IsClassifiable)
    (hword : texts[spot]? = some word)
    (hbefore : (s.evaluate (texts.take spot)).halt? = none) :
    (s.evaluate texts).halt? =
      ((s.evaluate (texts.take spot)).session.evaluate
        ([word] ++ texts.drop (spot + 1))).halt?.map (Halt.shift spot) := by
  obtain ⟨hspot, rfl⟩ := List.getElem?_eq_some_iff.1 hword
  have hsplit : texts = texts.take spot ++ ([texts[spot]] ++ texts.drop (spot + 1)) := by
    rw [List.singleton_append, ← List.drop_eq_getElem_cons hspot, List.take_append_drop]
  have hlength : (texts.take spot).length = spot := List.length_take_of_le (Nat.le_of_lt hspot)
  rw [hsplit] at htexts
  obtain ⟨htake, hdrop⟩ := List.forall_mem_append.1 htexts
  have happend := halt?_append_of_leads htake hdrop ⟨hbefore, rfl⟩
  rw [← hsplit, hlength] at happend
  exact happend

/-- An expression stops at a word when the words before it are done and the word by itself stops in
the session that they lead to. -/
theorem halt?_eq_stopped_iff
    (htexts : ∀ t ∈ texts, t.IsClassifiable) :
    (s.evaluate texts).halt? = some (.stopped word spot cause) ↔
      texts[spot]? = some word ∧ (s.evaluate (texts.take spot)).halt? = none ∧
        ((s.evaluate (texts.take spot)).session.evaluate [word]).halt? =
          some (.stopped word 0 cause) := by
  have hdrop : ∀ t ∈ texts.drop (spot + 1), t.IsClassifiable :=
    fun t ht => htexts t (List.mem_of_mem_drop ht)
  constructor
  · intro h
    obtain ⟨hword, hbefore, -⟩ := evaluate_eq_stopped h
    have hsingle : ∀ t ∈ [word], t.IsClassifiable :=
      List.forall_mem_singleton.2 (htexts word (List.mem_of_getElem? hword))
    refine ⟨hword, hbefore, ?_⟩
    rw [halt?_of_done htexts hword hbefore] at h
    cases hhalt : ((s.evaluate (texts.take spot)).session.evaluate [word]).halt? with
    | none =>
        -- A later word would be reported further on.
        rw [halt?_append_of_leads hsingle hdrop ⟨hhalt, rfl⟩, Option.map_map] at h
        obtain ⟨later, -, hlater⟩ := Option.map_eq_some_iff.1 h
        cases later with
        | unreadable f => cases hlater
        | stopped word' spot' cause' =>
            have hspot : spot + (1 + spot') = spot := (Halt.stopped.inj hlater).2.1
            omega
    | some halt =>
        rw [halt?_append_of_halted hsingle hdrop hhalt, Option.map_some, Option.some_inj] at h
        cases halt with
        | unreadable f => cases h
        | stopped word' spot' cause' =>
            obtain ⟨rfl, hspot, rfl⟩ := Halt.stopped.inj h
            obtain rfl : spot' = 0 := by omega
            rfl
  · rintro ⟨hword, hbefore, hhalt⟩
    have hsingle : ∀ t ∈ [word], t.IsClassifiable :=
      List.forall_mem_singleton.2 (htexts word (List.mem_of_getElem? hword))
    rw [halt?_of_done htexts hword hbefore, halt?_append_of_halted hsingle hdrop hhalt]
    rfl

/-- Nothing behind the word that fails takes part in the stop. -/
theorem halt?_evaluate_take_succ
    (h : (s.evaluate texts).halt? = some (.stopped word spot cause)) :
    (s.evaluate (texts.take (spot + 1))).halt? = some (.stopped word spot cause) := by
  have htexts : ∀ t ∈ texts, t.IsClassifiable :=
    Word.exists_classify_iff.1 (exists_classify_of_halt? s texts (by simp [h]))
  obtain ⟨hword, hbefore, hhalt⟩ := (halt?_eq_stopped_iff htexts).1 h
  refine (halt?_eq_stopped_iff fun t ht => htexts t (List.mem_of_mem_take ht)).2 ⟨?_, ?_⟩
  · rw [List.getElem?_take_of_lt (Nat.lt_succ_self spot), hword]
  · rw [List.take_take, Nat.min_eq_left (Nat.le_succ spot)]
    exact ⟨hbefore, hhalt⟩

end Failing

end Session

end ReversePolish
