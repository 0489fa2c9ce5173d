import Rill.Cli.Arguments
import Rill.Files
import Rill.Report
import Rill.Syntax.Outline
import Rill.Syntax.Polish
import Rill.Token.Printer

/-! What the command line does, given its arguments and a way to read files. -/
namespace Rill.Cli

/-- What is told about a failure. -/
inductive Diagnostic where
  | line (text : String)
  | report (r : Report)

def Diagnostic.lines : Diagnostic → List String
  | line text => [text]
  | report r => r.lines

/-- What a command leaves behind. -/
structure Outcome where
  code : Nat
  output : String
  diagnostics : List Diagnostic

namespace Outcome

def success (output : String) : Outcome := ⟨0, output, []⟩

/-- The arguments were not understood. -/
def usage : Outcome :=
  ⟨2, "", [.line "Usage: tokenize|parse|run PATH [--format FORMAT]"]⟩

/-- The script could not be read. -/
def unreadable (path : String) (e : FileError) : Outcome :=
  ⟨101, "", [.line (path ++ ": " ++ e.message)]⟩

/-- The script was refused before it ran. -/
def refused (output : String) (diagnostics : List Diagnostic) : Outcome :=
  ⟨65, output, diagnostics⟩

/-- The script failed while it ran. -/
def failed (output : String) (diagnostic : Diagnostic) : Outcome := ⟨70, output, [diagnostic]⟩

end Outcome

def version : String := "brook 0.1.0"

/-- Lines of text, each with its end. -/
def unlines (lines : List String) : String := String.join (lines.map (· ++ "\n"))

/-- The tokens of a source, one a line. -/
def Outcome.ofTokens (source : String) (style : TokenStyle) : Outcome :=
  let lines := Text.Lines.ofString source
  let tokenLine (t : Token) : String := match style with
    | .basic => t.line
    | .debug => t.outline.compact
  let errorLine (e : Token.Error) : String := match style with
    | .basic => e.line lines
    | .debug => e.outline.compact
  let pieces := Token.pieces source ++ [.ok (Token.endOf source)]
  let output := unlines (pieces.filterMap fun
    | .ok t => some (tokenLine t)
    | .error _ => none)
  let diagnostics := pieces.filterMap fun
    | .ok _ => none
    | .error e => some (Diagnostic.line (errorLine e))
  if diagnostics.isEmpty then .success output else .refused output diagnostics

/-- The tree of a source. -/
def Outcome.ofTree (source : String) (style : TreeStyle) : Outcome :=
  match Syntax.parse source with
  | .ok program =>
    .success ((match style with
      | .sexpr => Syntax.Program.polish program
      | .debug => (Syntax.Program.outline program).tall) ++ "\n")
  | .error e => .refused "" [.line (e.line (.ofString source))]

def syntaxDiagnostic (source : String) (e : Syntax.Error) : ErrorStyle → Diagnostic
  | .basic => .line (e.line (.ofString source))
  | .debug => .line e.outline.compact
  | .pretty => .report (Report.ofSyntax e)

def placementDiagnostic (source : String) (e : Syntax.PlacementError) : ErrorStyle → Diagnostic
  | .basic => .line (e.line (.ofString source))
  | .debug => .line e.outline.compact
  | .pretty => .report (Report.ofPlacement e)

def exceptionDiagnostic (source : String) (e : Exception) : ErrorStyle → Diagnostic
  | .basic => .line (e.line (.ofString source))
  | .debug => .line e.outline.compact
  | .pretty => .report (Report.ofException source e)

/-- Codes that the system cannot report become the greatest one it can. -/
def exitStatus (code : Int) : Nat := if 0 ≤ code ∧ code ≤ 255 then code.toNat else 255

/-- What a source prints. -/
def Outcome.ofRun (source : String) (style : ErrorStyle) (settings : Settings) : Outcome :=
  let (result, session) := (Session.start settings).run source
  let output := session.machine.output
  match result with
  | .ok _ => .success output
  | .error (.syntaxError e) => .refused output [syntaxDiagnostic source e style]
  | .error (.misplaced e) => .refused output [placementDiagnostic source e style]
  | .error (.halted (.exception e)) => .failed output (exceptionDiagnostic source e style)
  | .error (.halted (.exit code)) => ⟨exitStatus code, output, []⟩
  | .error (.halted .outOfFuel) => .failed output (.line "The script did not end.")
  | .error (.halted .defect) => .failed output (.line "The language itself went wrong.")

/-- Included files are looked for from the directory of the script. -/
def settings (read : FileReader) (path : String) (maxCallDepth : Nat) (globalAssignment : Bool) :
    Settings where
  maxCallDepth
  globalAssignment
  source included := (read (Path.resolve (Path.directory path) included)).mapError FileError.message
  hosts := #[]

/-- Reads the script and goes on with it. -/
def withScript (read : FileReader) (path : String) (body : String → Outcome) : Outcome :=
  match read path with
  | .ok source => body source
  | .error e => .unreadable path e

def Command.execute (read : FileReader) : Command → Outcome
  | .tokenize path style => withScript read path (.ofTokens · style)
  | .parse path style => withScript read path (.ofTree · style)
  | .run path style maxCallDepth globalAssignment =>
    withScript read path (.ofRun · style (settings read path maxCallDepth globalAssignment))

/-- Does what the arguments ask for. -/
def execute (read : FileReader) (args : List String) : Outcome :=
  match Request.ofArgs? args with
  | none => .usage
  | some .help => .success (unlines ["Usage: tokenize|parse|run PATH [--format FORMAT]"])
  | some .version => .success (unlines [version])
  | some (.command c) => c.execute read

/-- The paths that a source may include: the strings that follow the word for it. -/
def includesOf : List Token → List String
  | t :: u :: rest =>
    if t.kind = .keyword .includeWord ∧ u.kind = .string then
      Text.unescape u.text :: includesOf (u :: rest)
    else includesOf (u :: rest)
  | _ => []

/-- All paths that a source may include. -/
def includes (source : String) : List String :=
  includesOf ((Token.pieces source).filterMap Except.toOption)

/-- The script that a command works on. -/
def Command.path : Command → String
  | .tokenize path _ | .parse path _ | .run path _ _ _ => path

end Rill.Cli
