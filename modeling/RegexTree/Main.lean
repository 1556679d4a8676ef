import RegexTree.CommandLine.Outcome
import RegexTree.Uuid

/-!
# The command line program
-/

namespace RegexTree.CommandLine

/-- All that a stream holds. -/
partial def readAll (stream : IO.FS.Stream) (bytes : ByteArray) : IO ByteArray := do
  let more ← stream.read 65536
  if more.isEmpty then return bytes else readAll stream (bytes ++ more)

/-- The text of an input, a dash for the standard one. -/
def readInput (input : String) : IO (Except ReadFailure String) := do
  try
    let bytes ← if input = "-" then readAll (← IO.getStdin) .empty else IO.FS.readBinFile input
    match String.fromUTF8? bytes with
    | some text => return .ok text
    | none => return .error .notText
  catch
    | .noFileOrDirectory .. => return .error .notFound
    | .inappropriateType .. => return .error .isDirectory
    | e => return .error (.other e.toString)

/-- The outcome of a request. -/
def fulfil : Request → IO Outcome
  | .version => return { stdout := versionText }
  | .help => return { stdout := helpText }
  | .run command => do
    let seed := (← IO.getRandomBytes 8).foldl (fun n b => 256 * n + b.toNat) 0
    return command.outcome Uuid.source (← readInput command.input) (mkStdGen seed)

end RegexTree.CommandLine

open RegexTree.CommandLine in
/-- Answers the arguments. -/
def main (arguments : List String) : IO UInt32 := do
  let outcome ←
    match Request.ofArguments? arguments with
    | some request => fulfil request
    | none => pure Outcome.usage
  IO.print outcome.stdout
  IO.eprint outcome.stderr
  return outcome.code
