import RegexTree.CommandLine.Arguments
import RegexTree.Report

/-!
# What the command line answers

Every command reads one input and answers with a code and the texts of the two output streams.
-/

namespace RegexTree.CommandLine

/-- Why an input cannot be read. -/
inductive ReadFailure where
  | notFound
  | isDirectory
  | notText
  | other (detail : String)
  deriving DecidableEq

/-- The wording of a failed reading. -/
def ReadFailure.message : ReadFailure → String
  | notFound => "No such file or directory (os error 2)"
  | isDirectory => "Is a directory (os error 21)"
  | notText => "stream did not contain valid UTF-8"
  | other detail => detail

/-- What the program leaves behind. -/
structure Outcome where
  code : UInt32 := 0
  stdout : String := ""
  stderr : String := ""
  deriving DecidableEq

namespace Outcome

/-- The outcome of arguments that are refused. -/
def usage : Outcome := { code := 2, stderr := "usage: cfgex (compile | convert | check) INPUT\n" }

/-- The outcome of a failure, after what has been written. -/
def failure (message : String) (stdout : String) : Outcome := { code := 1, stdout, stderr := "Error: " ++ message ++ "\n" }

/-- The outcome that shows a result on a line, or the failure in its place. -/
def ofResult : Except Error String → Outcome
  | .ok text => { stdout := text ++ "\n" }
  | .error e => failure e.message ""

end Outcome

namespace Command

variable {σ : Type}

/-- The input of a command, a dash for the standard one. -/
def input : Command → String
  | compile input _ _ _ => input
  | convert input _ => input
  | check input _ => input

/-- The regex of an input, which states one pattern or a list. -/
def regexOf (ids : IdSource σ) (list : Bool) (limit : Nat) (text : String) (s : σ) : Except Error String :=
  if list then (Pattern.compileListText ids limit text s).1 else (Pattern.compileText ids limit text s).1

/-- The outcome of a command whose input has been read. -/
def answer (ids : IdSource σ) (command : Command) (text : String) (s : σ) : Outcome :=
  match command with
  | compile _ list report limit =>
    if report then .ofResult ((Report.ofText ids limit text s).1.map Report.text)
    else .ofResult (regexOf ids list limit text s)
  | convert _ target =>
    .ofResult ((Pattern.convert ids target text s).1.map fun text => String.ofList (Text.trimEnd text.toList))
  | check input list =>
    match regexOf ids list defaultDepthLimit text s with
    | .ok regex => { stdout := "✓ Valid: " ++ input ++ "\n  Output: " ++ regex ++ "\n" }
    | .error e => .failure e.message ("✗ Invalid: " ++ input ++ "\n")

/-- The outcome of a command, whose input may be unreadable. -/
def outcome (ids : IdSource σ) (command : Command) (source : Except ReadFailure String) (s : σ) : Outcome :=
  match source with
  | .ok text => command.answer ids text s
  | .error e => .failure ("cannot read " ++ command.input ++ ": " ++ e.message) ""

end Command

/-- The name and the version of the program. -/
def versionText : String := "cfgex 0.1.0\n"

/-- What the program says of its use. -/
def helpText : String :=
  "Compile JSON/YAML pattern configurations into regular expressions\n\n" ++
    "  cfgex compile INPUT [--list] [--debug] [--max-depth N]\n" ++
    "  cfgex convert INPUT --to (json | yaml)\n" ++
    "  cfgex check INPUT [--list]\n"

end RegexTree.CommandLine
