import ReversePolish.Proofs.Session.Resuming
import ReversePolish.Proofs.Session.Reading
import ReversePolish.Proofs.Session.Splitting

/-!
# Sessions as expressions

A session can be written down as an expression: an assignment for each of its
bindings, in their order, and then the entries of its stack from the bottom to
the top.  If the session is valid and orderly, evaluating this listing in a
fresh session goes through and leads to the session itself, with every text as
it was spelled and every chain as it stood.  So what restoring a record takes
on trust, evaluating arrives at with all of its checks.
-/

namespace ReversePolish
namespace Session

/-- The words that bind a name to a value. -/
def assignment (pair : Text × Text) : List Text :=
  [pair.1, pair.2, ['=']]

/-- The words that make the bindings of a session and then put the entries on its stack. -/
def listing (s : Session) : List Text :=
  s.bindings.toList.flatMap assignment ++ s.stack.toList

theorem effect_assign
    {name value : Text}
    (b : Bindings)
    (hname : name.IsName)
    (hvalue : value.IsInteger) :
    Operator.assign.effect b value name = .ok (.bind name value) := by
  obtain ⟨n, hn⟩ := hvalue
  rw [Operator.effect, Text.integer?_of_isName hname, Text.integer?_eq_some_iff.2 hn]
  rfl

theorem isClassifiable_assignment
    {pair : Text × Text}
    (hname : pair.1.IsName)
    (hvalue : pair.2.IsInteger) :
    ∀ t ∈ assignment pair, t.IsClassifiable := by
  refine List.forall_mem_cons.2 ⟨Text.IsOperand.isClassifiable (Or.inr hname), ?_⟩
  exact List.forall_mem_cons.2
    ⟨Text.IsOperand.isClassifiable (Or.inl hvalue), isClassifiable_operator .assign⟩

/-- An assignment binds its name and leaves the stack as it was. -/
theorem leads_assignment
    {pair : Text × Text}
    (s : Session)
    (hname : pair.1.IsName)
    (hvalue : pair.2.IsInteger) :
    s.Leads (assignment pair) { s with bindings := s.bindings.insert pair.1 pair.2 } := by
  have hwords := isClassifiable_assignment hname hvalue
  obtain ⟨name, value⟩ := pair
  obtain ⟨hfirst, hrest⟩ := List.forall_mem_cons.1 hwords
  obtain ⟨hsecond, hlast⟩ := List.forall_mem_cons.1 hrest
  have hbind : ((s.push name).push value).Leads [['=']]
      (s.perform (.bind name value)) :=
    leads_operator (effect_assign s.bindings hname hvalue)
  have hvalues : (s.push name).Leads ([value] ++ [['=']]) (s.perform (.bind name value)) :=
    (leads_operand _ (Or.inl hvalue)).append (List.forall_mem_singleton.2 hsecond) hlast hbind
  exact (leads_operand s (Or.inr hname)).append (List.forall_mem_singleton.2 hfirst) hrest hvalues

theorem leads_nil
    (s : Session) :
    s.Leads [] s :=
  ⟨rfl, rfl⟩

/-- Assignments make their bindings one after the other. -/
theorem leads_assignments
    {pairs : List (Text × Text)}
    (s : Session)
    (h : ∀ pair ∈ pairs, pair.1.IsName ∧ pair.2.IsInteger) :
    s.Leads (pairs.flatMap assignment) { s with bindings := s.bindings.insertAll pairs } := by
  induction pairs generalizing s with
  | nil => exact s.leads_nil
  | cons pair rest ih =>
      obtain ⟨⟨hname, hvalue⟩, hrest⟩ := List.forall_mem_cons.1 h
      refine (s.leads_assignment hname hvalue).append
        (isClassifiable_assignment hname hvalue) ?_ (ih _ hrest)
      intro t ht
      obtain ⟨other, hother, ht⟩ := List.mem_flatMap.1 ht
      exact isClassifiable_assignment (hrest other hother).1 (hrest other hother).2 t ht

/-- Operands go on the stack as they are spelled. -/
theorem leads_operands
    {texts : List Text}
    (s : Session)
    (h : ∀ t ∈ texts, t.IsOperand) :
    s.Leads texts { s with stack := .ofList (s.stack.toList ++ texts) } := by
  induction texts generalizing s with
  | nil =>
      rw [List.append_nil, Stack.ofList_toList]
      exact s.leads_nil
  | cons t rest ih =>
      obtain ⟨ht, hrest⟩ := List.forall_mem_cons.1 h
      have hpushed := ih (s.push t) hrest
      rw [push, Stack.toList_push, List.append_assoc] at hpushed
      exact (s.leads_operand ht).append (List.forall_mem_singleton.2 ht.isClassifiable)
        (fun u hu => (hrest u hu).isClassifiable) hpushed

theorem IsValid.leads_listing
    {s : Session}
    (h : s.IsValid) :
    fresh.Leads s.listing (ofRecord s.toRecord) := by
  have hpairs : ∀ pair ∈ s.bindings.toList, pair.1.IsName ∧ pair.2.IsInteger :=
    fun pair hpair => ⟨h.names pair hpair, h.values pair hpair⟩
  refine (fresh.leads_assignments hpairs).append ?_
    (fun t ht => (h.operands t ht).isClassifiable) (leads_operands _ h.operands)
  intro t ht
  obtain ⟨pair, hpair, ht⟩ := List.mem_flatMap.1 ht
  exact isClassifiable_assignment (hpairs pair hpair).1 (hpairs pair hpair).2 t ht

/-- **Evaluating the listing of a session rebuilds the session**, as restoring its record does.
The entries of its stack alone rebuild the stack, whatever the bindings are. -/
theorem evaluate_listing
    {s : Session}
    (hvalid : s.IsValid)
    (horderly : s.bindings.IsOrderly) :
    (fresh.evaluate s.listing).halt? = none ∧
      (fresh.evaluate s.listing).session = s ∧
      ofRecord s.toRecord = s ∧
      ∀ b : Bindings,
        (evaluate ⟨∅, b⟩ s.stack.toList).halt? = none ∧
          (evaluate ⟨∅, b⟩ s.stack.toList).session = ⟨s.stack, b⟩ := by
  have hrestored : ofRecord s.toRecord = s := ofRecord_toRecord horderly
  obtain ⟨hdone, hsession⟩ := hvalid.leads_listing
  refine ⟨hdone, hsession.trans hrestored, hrestored, fun b => ?_⟩
  obtain ⟨hstackDone, hstack⟩ := leads_operands ⟨∅, b⟩ hvalid.operands
  exact ⟨hstackDone, hstack.trans (congrArg (Session.mk · b) s.stack.ofList_toList)⟩

/-- Two names of one chain, of which the later letter was bound first, and numerals that are not
canonical. -/
theorem evaluate_listing_shared_chain :
    let s := (fresh.evaluate
      (["K", "-0", "=", "B", "+12", "=", "A", "1", "=", "K", "007", "=", "00", "K"].map
        String.toList)).session
    s.listing = ["B", "+12", "=", "K", "007", "=", "A", "1", "=", "00", "K"].map String.toList ∧
      (fresh.evaluate s.listing).session = s := by
  intro s
  have hlisting : s.listing =
      ["B", "+12", "=", "K", "007", "=", "A", "1", "=", "00", "K"].map String.toList := by
    decide +kernel
  have hvalid : s.IsValid := isValid_fresh.evaluate _
  have horderly : s.bindings.IsOrderly := isOrderly_evaluate Bindings.isOrderly_empty _
  exact ⟨hlisting, (evaluate_listing hvalid horderly).2.1⟩

end Session
end ReversePolish
