import ReversePolish.Complaint.Excerpt
import ReversePolish.Complaint.Outburst
import ReversePolish.Disk.Path
import ReversePolish.Session.Evaluation

/-!
# Complaints

What goes wrong is collected as complaints.  A complaint says what the matter
is, shows where, and may have something to add.  On the console all complaints
come together, after one outburst.
-/

namespace ReversePolish

/-- Something that went wrong, as it is told to the user. -/
structure Complaint where
  intro : Text
  excerpts : List Excerpt
  /-- Lines at the end. -/
  footer : List Text
deriving DecidableEq, Repr

namespace Complaint

/-- A complaint as it is shown. -/
def toText (c : Complaint) : Text :=
  ['\n'].intercalate (c.intro :: c.excerpts.map Excerpt.toText ++ c.footer)

/-- The complaint that an expression could not be evaluated beyond a word. -/
def ofStop? (words : List Text) (spot : Int) (cause : Cause) : Option Complaint :=
  (Excerpt.ofWord? words spot "stopped here".toList).map fun excerpt =>
    ⟨cause.message, [excerpt],
      if spot = 0 then [] else ["Everything to the left of this was already done.".toList]⟩

/-- The complaint about the file of a session. -/
def ofProblem (p : Path) (problem : Text) : Complaint :=
  ⟨"Something went pear-shaped with the session file ".toList ++ p.toText, [], [problem]⟩

/-- The line above everything. -/
def banner : Text :=
  List.replicate 60 '*'

/-- The line above each complaint. -/
def rule : Text :=
  (List.replicate 20 "  -".toList).flatten

/-- What the console shows of complaints, and the picks that are left. -/
def console (complaints : List Complaint) (picks : Picks) : Text × Picks :=
  if complaints.isEmpty then ([], picks)
  else
    let (outburst, picks) := Outburst.utter picks
    (Text.lines (banner :: outburst :: complaints.flatMap fun c => [rule, c.toText]), picks)

/-- Shows complaints and then insists that there be none: if there are some, the outcome holds
the message to break off with, after another outburst. -/
def insist
    (complaints : List Complaint) (message : Text) (picks : Picks) :
    Text × Option Text × Picks :=
  if complaints.isEmpty then ([], none, picks)
  else
    let (shown, picks) := console complaints picks
    let (outburst, picks) := Outburst.utter picks
    (shown, some (outburst ++ ' ' :: message), picks)

/-- A remark of several parts, on a line of its own. -/
def remark (parts : List Text) : Text :=
  Text.lines [[' '].intercalate parts]

end Complaint

end ReversePolish
