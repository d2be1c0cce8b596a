import ReversePolish.Disk.Change
import ReversePolish.Json.Parser
import ReversePolish.Json.Printer
import ReversePolish.Session.Document
import ReversePolish.Text.Utf8

/-!
# Keeping sessions

Between two calculations a session lies in a file, as the JSON text of its
document in UTF-8.  `resume` reads the session of a file; where there is no
file, a fresh session begins.  `keep` saves a session and `forget` removes its
file, which may be missing.

What stands in the way is a `Problem`, to be told to the user.  A few things
lie beyond that: an ill-formed byte sequence, a document that is nested too
deeply, a numeral that cannot be read, a path that holds the character NUL, and
a name for which a disk does not even say whether something is there.  Such a
`Breakdown` breaks the calculation off.
-/

namespace ReversePolish

/-- What stands in the way of resuming, keeping or forgetting a session. -/
inductive Problem where
  | unreadable (e : Disk.Error)
  | unwritable (e : Disk.Error)
  | irremovable (e : Disk.Error)
  /-- The file holds no JSON text. -/
  | notJson
  | flaw (f : Flaw)
deriving Repr

namespace Problem

/-- The problem in words. -/
def message : Problem → Text
  | unreadable e => "cannot read: ".toList ++ e.message
  | unwritable e => "cannot write: ".toList ++ e.message
  | irremovable e => "cannot remove: ".toList ++ e.message
  | notJson => "not valid JSON".toList
  | flaw f => f.message

end Problem

/-- What breaks a calculation off. -/
inductive Breakdown where
  /-- A numeral cannot be read. -/
  | numeral (f : Numeral.Fault)
  /-- A file is not in UTF-8. -/
  | encoding (f : Text.Utf8.Fault)
  /-- A document has a container inside too many others. -/
  | nesting (c : Json.Container)
  /-- The disk refuses to look up a path. -/
  | disk (e : Disk.Error) (path : Path)
  /-- No path is given where one is needed. -/
  | noPath
deriving DecidableEq, Repr

namespace Breakdown

/-- The breakdown in words. -/
def message : Breakdown → Text
  | numeral f => f.message
  | encoding f => f.message
  | nesting c =>
      "maximum recursion depth exceeded while decoding a JSON ".toList ++ c.name ++
        " from a unicode string".toList
  | disk e path =>
      match e.number? with
      | none => e.message
      | some number =>
          "[Errno ".toList ++ Numeral.ofNat number ++ "] ".toList ++ e.message ++
            ": ".toList ++ Text.Quoted.ofText path.toText
  | noPath => "expected str, bytes or os.PathLike object, not list".toList

end Breakdown

/-- Why a session is not resumed, kept or forgotten. -/
inductive Failure where
  | problem (p : Problem)
  | breakdown (b : Breakdown)
deriving Repr

namespace Failure

/-- A refusal of the disk as a failure, which is told as a problem unless the path itself is at
fault. -/
def ofDisk (tell : Disk.Error → Problem) (p : Path) (e : Disk.Error) : Failure :=
  if e = .nulInPath then breakdown (.disk e p) else problem (tell e)

/-- A text that is no document as a failure. -/
def ofFault : Json.Fault → Failure
  | .malformed => problem .notJson
  | .nesting c => breakdown (.nesting c)

/-- A refused document as a failure. -/
def ofRefusal : Refusal → Failure
  | .flaw f => problem (.flaw f)
  | .fault f => breakdown (.numeral f)

end Failure

namespace Session

/-- The session that a text holds. -/
def ofText (t : Text) : Except Failure Session :=
  match Json.parse t with
  | .error f => .error (.ofFault f)
  | .ok document =>
      match Record.ofDocument document with
      | .error refusal => .error (.ofRefusal refusal)
      | .ok r => .ok (ofRecord r)

/-- The text that holds a session. -/
def toText (s : Session) : Text :=
  s.toRecord.toDocument.write

/-- The session that bytes hold. -/
def ofBytes (bytes : List UInt8) : Except Failure Session :=
  match Text.Utf8.decode bytes with
  | .error f => .error (.breakdown (.encoding f))
  | .ok t => ofText t

/-- The bytes that hold a session. -/
def toBytes (s : Session) : List UInt8 :=
  Text.Utf8.encode s.toText

/-- Whether there is anything where a session is kept. -/
def isKept (d : Disk) (p : Path) : Except Breakdown Bool :=
  (d.isPresent p).mapError fun e => .disk e p

/-- The session of a file, or a fresh one if there is no file. -/
def resume (d : Disk) (p : Path) : Except Failure Session :=
  match d.read p with
  | .error .noEntry => .ok fresh
  | .error e => .error (.ofDisk .unreadable p e)
  | .ok bytes => ofBytes bytes

/-- The changes that keep a session, and what they fail for. -/
def keep (s : Session) (d : Disk) (p : Path) (tag : Nat) : List Change × Option Failure :=
  let changes := d.saving p tag s.toBytes
  (changes.made, changes.error?.map (.ofDisk .unwritable p))

/-- The changes that remove the file of a session, and what they fail for. -/
def forget (d : Disk) (p : Path) : List Change × Option Failure :=
  let changes := d.removing p
  match changes.error? with
  | some .noEntry => (changes.made, none)
  | error? => (changes.made, error?.map (.ofDisk .irremovable p))

end Session

end ReversePolish
