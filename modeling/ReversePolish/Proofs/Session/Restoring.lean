import ReversePolish.Proofs.Bindings.Order
import ReversePolish.Proofs.Session.Resuming

/-!
# Recording and restoring

A session is more than its record, for the record does not say in which chain
a name stands.  Still nothing is lost: whatever is done to a session, its
record restores it, chain for chain.

The other way round a record may list names repeatedly and in any order.
Restoring settles it: the stack stays, and the bindings are those of the five
chains, one chain after the other.  What has been settled stays as it is.
-/

namespace ReversePolish

/-- What restoring makes of a record: the bindings come chain by chain, in each chain every name
where it first comes, with the value that it is given last. -/
def Record.settled (r : Record) : Record :=
  ⟨r.stack, (List.finRange Bindings.chainCount).flatMap fun i =>
    Association.settle (r.bindings.filter fun pair => Bindings.bucket pair.1 = i)⟩

namespace Session

/-- What becomes of a fresh session when entries are put on the stack or taken off it, names are
bound and expressions are evaluated, in any order and whatever the texts are. -/
inductive Attainable : Session → Prop
  | fresh : Attainable fresh
  | push {s : Session} (h : Attainable s) (entry : Text) : Attainable (s.push entry)
  | pop {s : Session} {top : Text} {below : Stack} (h : Attainable s)
      (hpop : s.stack.pop? = some (top, below)) : Attainable { s with stack := below }
  | insert {s : Session} (h : Attainable s) (name value : Text) :
      Attainable { s with bindings := s.bindings.insert name value }
  | evaluate {s : Session} (h : Attainable s) (texts : List Text) :
      Attainable (s.evaluate texts).session

/-- Nothing that is done to a session disturbs the layout of its bindings. -/
theorem Attainable.isOrderly
    {s : Session}
    (h : s.Attainable) :
    s.bindings.IsOrderly := by
  induction h with
  | fresh => exact Bindings.isOrderly_empty
  | push _ entry ih => exact ih
  | pop _ hpop ih => exact ih
  | insert _ name value ih => exact ih.insert name value
  | evaluate _ texts ih => exact isOrderly_evaluate ih texts

theorem toRecord_ofRecord
    (r : Record) :
    (ofRecord r).toRecord = r.settled := by
  have hbindings : (Bindings.ofList r.bindings).toList = r.settled.bindings := by
    rw [Bindings.toList_eq_flatMap, funext (Bindings.chain_ofList r.bindings)]
    rfl
  rw [toRecord, stack_ofRecord]
  exact congrArg (Record.mk r.stack) hbindings

/-- **A session is restored from its record, and a record is settled by restoring it.**  To settle
it once more changes nothing. -/
theorem restoring_record :
    (∀ s : Session, s.Attainable → ofRecord s.toRecord = s) ∧
      ∀ r : Record, (ofRecord r).toRecord = r.settled ∧
        (ofRecord (ofRecord r).toRecord).toRecord = (ofRecord r).toRecord := by
  refine ⟨fun s h => ofRecord_toRecord h.isOrderly, fun r => ⟨toRecord_ofRecord r, ?_⟩⟩
  rw [ofRecord_toRecord (Bindings.isOrderly_ofList r.bindings)]

/-- A session in which a later name of a chain is bound before an earlier one, and a record that
lists a name twice. -/
theorem restoring_record_repeated_name :
    let bound := (fresh.push "x y".toList).evaluate ["K".toList, "1".toList, "=".toList]
    let s : Session := { bound.session with bindings := bound.session.bindings.insert "A".toList [] }
    let r : Record := ⟨["007".toList, "".toList],
      [("K".toList, "1".toList), ("B".toList, "2".toList), ("K".toList, "3".toList),
        ("A".toList, "4".toList), ("".toList, "é".toList)]⟩
    s.Attainable ∧ ofRecord s.toRecord = s ∧
      (ofRecord r).toRecord = ⟨["007".toList, "".toList],
        [("".toList, "é".toList), ("B".toList, "2".toList), ("K".toList, "3".toList),
          ("A".toList, "4".toList)]⟩ := by
  intro bound s r
  have hattainable : s.Attainable :=
    .insert (.evaluate (.push .fresh "x y".toList) _) "A".toList []
  refine ⟨hattainable, restoring_record.1 s hattainable, (restoring_record.2 r).1.trans ?_⟩
  decide +kernel

end Session

end ReversePolish
