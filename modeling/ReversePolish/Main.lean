import ReversePolish.Command.Run

/-!
# The program

What a run does is decided by `Run.ofArguments`.  This module looks up what the
decision depends on, namely what stands on the disk along the path of the
session file and a few random numbers, and carries the decision out.
-/

namespace ReversePolish
namespace Program

/-- A location as the operating system takes it. -/
def nameOf (place : Location) : String :=
  String.ofList (Path.toText ⟨.root, place⟩)

/-- What stands at a location. -/
def observe (place : Location) : IO (Option Entry) := do
  try
    let content ← IO.FS.readBinFile (nameOf place)
    return some (.file content.toList)
  catch
    | .inappropriateType _ 21 _ => return some .folder
    | .noFileOrDirectory .. | .inappropriateType .. | .invalidArgument .. => return none
    | e => throw e

/-- The locations at which a path is looked at, from the given one on. -/
def route (place : Location) : List Text → List Location
  | [] => [place]
  | part :: rest => place :: route (Disk.next place part) rest

/-- The part of the real disk on which the fate of a path depends. -/
def survey (path : Path) : IO Disk := do
  let here := (Path.ofText (← IO.currentDir).toString.toList).parts
  let bare : Disk := ⟨[], here⟩
  let places :=
    route [] here ++ route (bare.start path) path.parts ++
      route [] (bare.locate path.parent)
  let mut disk := bare
  for place in places do
    unless place.isEmpty do
      if let some entry ← observe place then
        disk := disk.put place entry
  return disk

/-- The path of the session file for the given arguments, if they lead to one. -/
def pathFor (arguments : List Text) : Path :=
  match Demand.ofTexts arguments with
  | .ok (.request r) => .ofText (r.options.session?.getD [])
  | _ => .ofText []

/-- Changes the real disk. -/
def perform : Change → IO Unit
  | .create place => discard <| IO.FS.Handle.mk (nameOf place) .writeNew
  | .write place content => IO.FS.writeBinFile (nameOf place) ⟨content.toArray⟩
  | .rename source target => IO.FS.rename (nameOf source) (nameOf target)
  | .remove place => IO.FS.removeFile (nameOf place)

/-- Numbers for one outburst. -/
def throwDice : IO Picks := do
  let numbers ← [Outburst.particles, Outburst.oaths, Outburst.resignations].mapM
    fun options => do return Int.ofNat (← IO.rand 0 (options.length - 1))
  return ⟨numbers, 0⟩

/-- Runs the program with the given arguments and answers its exit status. -/
def run (arguments : List Text) : IO UInt32 := do
  let disk ← survey (pathFor arguments)
  let tag ← IO.rand 0 (Disk.tagCount - 1)
  let run := Run.ofArguments disk (← throwDice) tag arguments
  run.changes.forM perform
  IO.print (String.ofList run.output)
  IO.eprint (String.ofList run.errors)
  match run.ending with
  | .returned => return 0
  | .status code => return code.toUInt32
  | .breakdown b =>
      IO.eprintln (String.ofList b.message)
      return 1

end Program
end ReversePolish

/-- The entry point of the program. -/
def main (arguments : List String) : IO UInt32 :=
  ReversePolish.Program.run (arguments.map String.toList)
