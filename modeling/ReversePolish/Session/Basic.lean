import ReversePolish.Bindings.Basic
import ReversePolish.Session.Stack

/-!
# Sessions

A session is all that lasts from one calculation to the next: the stack and
the bindings of variables.  Its `Record` is the plain data to be kept, the
stack from the bottom to the top and the bindings in their order.  Making the
bindings of a record again, in their order, brings back the same chains.
Nothing is asked of the texts in a record.
-/

namespace ReversePolish

/-- The state of a calculation. -/
structure Session where
  stack : Stack
  bindings : Bindings
deriving DecidableEq, Repr

/-- What is kept of a session. -/
structure Record where
  /-- The stack from the bottom to the top. -/
  stack : List Text
  /-- Names with their values. -/
  bindings : List (Text × Text)
deriving DecidableEq, Repr

namespace Session

/-- The session with which a calculation starts. -/
def fresh : Session := ⟨∅, ∅⟩

instance : Inhabited Session := ⟨fresh⟩

/-- Puts an entry on the stack. -/
def push (s : Session) (entry : Text) : Session :=
  { s with stack := s.stack.push entry }

/-- The record of a session. -/
def toRecord (s : Session) : Record :=
  ⟨s.stack.toList, s.bindings.toList⟩

/-- The session of a record. -/
def ofRecord (r : Record) : Session :=
  ⟨.ofList r.stack, .ofList r.bindings⟩

@[simp] theorem stack_ofRecord
    (r : Record) :
    (ofRecord r).stack.toList = r.stack :=
  Stack.toList_ofList r.stack

end Session

end ReversePolish
