import ReversePolish.Command.Request

/-!
# Usage

What the program says about itself: one line on how it is called, the help
with all flags and commands, an introduction for those who call it without
arguments, and the lines that report a mistake in the arguments.
-/

namespace ReversePolish
namespace Usage

/-- The name under which the program is called. -/
def program : Text := "postfix".toList

/-- The names of the commands, as a choice. -/
def choice : Text :=
  '\x7b' :: ([','].intercalate (Command.all.map Command.name) ++ ['\x7d'])

/-- How the program is called. -/
def line : Text :=
  "usage: ".toList ++ program ++ " [-h] [-s SESSION] [-v] [-q] ".toList ++ choice ++
    " ...".toList

/-- The help. -/
def help : Text :=
  Text.lines <|
    [line, [],
     "Reverse-Polish calculator with a persistent stack and variables.".toList, [],
     "positional arguments:".toList,
     "  ".toList ++ choice] ++
    ["                        input an expression, print the stack, print the",
     "                        variables, or clear the session.",
     "  words                 for input: integers, variables A-Z, and operators + -",
     "                        * / =",
     "",
     "options:",
     "  -h, --help            show this help message and exit",
     "  -s SESSION, --session SESSION",
     "                        where to keep the session (default: session.json)",
     "  -v, --verbose         Say more about what is going on.",
     "  -q, --quiet           Do not echo the stack after every word of input."].map
      String.toList

/-- What the program says when it is called without arguments. -/
def introduction : Text :=
  Text.lines <|
    ["This is Postfix++, a reverse-Polish calculator that remembers.".toList, [], line] ++
    ["",
     "",
     "The stack and the variables carry over from one invocation to the next.",
     "For example:",
     "",
     "    postfix input 3 4 5 + \x5c* && postfix print",
     "",
     "leaves [ 27 ] on the stack, and then",
     "",
     "    postfix input A 3 =",
     "    postfix input A 7 \x5c*",
     "    postfix variables",
     "    postfix clear",
     "",
     "binds A, multiplies it by 7, shows the variables, and starts over.",
     "",
     "    postfix -h",
     "",
     "will explain all the arguments. Options go before the command:",
     "everything after the command is taken as words of input."].map String.toList

/-- How a mistake in the arguments is reported. -/
def report (m : Mistake) : Text :=
  Text.lines [line, program ++ ": error: ".toList ++ m.message]

end Usage
end ReversePolish
