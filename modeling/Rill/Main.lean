import Rill.Cli

/-! The command line. -/
namespace Rill.Cli

/-- Reads a file as text. -/
def readText (path : String) : IO (Except FileError String) := do
  try
    let bytes ← IO.FS.readBinFile path
    match String.fromUTF8? bytes with
    | some text => return .ok text
    | none => return .error (.other "stream did not contain valid UTF-8")
  catch
    | .noFileOrDirectory _ _ _ => return .error .notFound
    | .invalidArgument _ code _ =>
      return .error (if code.toInt32.toInt.natAbs = 36 then .nameTooLong else .invalidPath)
    | .inappropriateType _ code _ =>
      return .error (if code.toInt32.toInt.natAbs = 21 then .isDirectory else .notDirectory)
    | e => return .error (.other e.toString)

/-- Reads the files at these paths and those they may include, seen from a directory. -/
partial def readAll (directory : String) (known : List (String × Except FileError String)) :
    List String → IO (List (String × Except FileError String))
  | [] => return known
  | path :: paths => do
    if (known.lookup path).isSome then readAll directory known paths
    else
      let text ← readText path
      let more := match text with
        | .ok source => (includes source).map (Path.resolve directory)
        | .error _ => []
      readAll directory ((path, text) :: known) (more ++ paths)

/-- Does what the arguments ask for, with files of the system. -/
def perform (args : List String) : IO UInt32 := do
  let files ← match Request.ofArgs? args with
    | some (.command c) => readAll (Path.directory c.path) [] [c.path]
    | _ => pure []
  let outcome := execute (fun path => (files.lookup path).getD (.error .notFound)) args
  IO.print outcome.output
  for line in outcome.diagnostics.flatMap Diagnostic.lines do
    IO.eprintln line
  return outcome.code.toUInt32

end Rill.Cli

def main (args : List String) : IO UInt32 := Rill.Cli.perform args
