import Rill.Decimal.Reader

/-! The arguments of the command line. -/
namespace Rill.Cli

inductive TokenStyle where
  | basic | debug
deriving DecidableEq, Repr

inductive TreeStyle where
  | sexpr | debug
deriving DecidableEq, Repr

inductive ErrorStyle where
  | basic | debug | pretty
deriving DecidableEq, Repr

def TokenStyle.ofName? : String → Option TokenStyle
  | "basic" => some basic
  | "debug" => some debug
  | _ => none

def TreeStyle.ofName? : String → Option TreeStyle
  | "sexpr" => some sexpr
  | "debug" => some debug
  | _ => none

def ErrorStyle.ofName? : String → Option ErrorStyle
  | "basic" => some basic
  | "debug" => some debug
  | "pretty" => some pretty
  | _ => none

/-- What to do with the script at a path. -/
inductive Command where
  | tokenize (path : String) (style : TokenStyle)
  | parse (path : String) (style : TreeStyle)
  | run (path : String) (style : ErrorStyle) (maxCallDepth : Nat) (globalAssignment : Bool)
deriving DecidableEq, Repr

inductive Request where
  | help
  | version
  | command (c : Command)
deriving DecidableEq, Repr

/-- Why the reading of arguments ended before their end. -/
inductive Stop where
  | help
  | usage
deriving DecidableEq, Repr

/-- The options of a command. Every command takes one path besides. -/
structure Options where
  /-- Those with a value, and which values they take. -/
  valued : List (String × (String → Bool))
  flags : List String

/-- What was given to a command. -/
structure Given where
  path : Option String
  values : List (String × String)
  flags : List String
deriving DecidableEq, Repr

namespace Given

def empty : Given := ⟨none, [], []⟩

/-- There is one path, and it is not empty. -/
def addPath (given : Given) (path : String) : Except Stop Given :=
  if given.path.isSome ∨ path.isEmpty then .error .usage else .ok { given with path := some path }

/-- An option is given at most once, with a value it takes. -/
def addValue (options : Options) (given : Given) (name value : String) : Except Stop Given :=
  match options.valued.lookup name with
  | none => .error .usage
  | some accepts =>
    if (given.values.lookup name).isNone ∧ accepts value then
      .ok { given with values := (name, value) :: given.values }
    else .error .usage

def addFlag (options : Options) (given : Given) (name : String) : Except Stop Given :=
  if options.flags.contains name ∧ ¬ given.flags.contains name then
    .ok { given with flags := name :: given.flags }
  else .error .usage

/-- Arguments none of which is an option. -/
def addPaths (given : Given) : List String → Except Stop Given
  | [] => .ok given
  | arg :: args => do (← given.addPath arg).addPaths args

/-- Reads arguments from left to right, up to the first that asks for help or is wrong. -/
def add (options : Options) (given : Given) : List String → Except Stop Given
  | [] => .ok given
  | arg :: args =>
    if arg = "--" then given.addPaths args
    else if arg = "--help" then .error .help
    else if arg.startsWith "--" then
      match arg.splitOn "=" with
      | [name] =>
        if (options.valued.lookup name).isSome then
          match args with
          | [] => .error .usage
          | value :: args =>
            if value.startsWith "-" then .error .usage
            else do (← given.addValue options name value).add options args
        else do (← given.addFlag options name).add options args
      | name :: value => do (← given.addValue options name ("=".intercalate value)).add options args
      | [] => .error .usage
    else if arg.startsWith "-h" then .error .help
    else if arg.startsWith "-" ∧ arg ≠ "-" then .error .usage
    else do (← given.addPath arg).add options args

/-- The style that was asked for, or else the usual one. -/
def style {α : Type} (given : Given) (ofName? : String → Option α) (usual : α) : α :=
  ((given.values.lookup "--format").bind ofName?).getD usual

end Given

/-- A number of 64 bits without a sign other than plus. -/
def number? (s : String) : Option Nat :=
  let digits := match s.toList with
    | '+' :: digits => digits
    | digits => digits
  let n := Decimal.ofDigits digits
  if !digits.isEmpty && digits.all Char.isDigit && decide (n < UInt64.size) then some n else none

/-- How many calls may be in progress at once unless the command line says otherwise. -/
def usualCallDepth : Nat := 2000

/-- Reads the arguments of a command. -/
def readCommand (options : Options) (make : String → Given → Command) (args : List String) :
    Except Stop Request := do
  let given ← Given.empty.add options args
  match given.path with
  | some path => return .command (make path given)
  | none => throw .usage

def formats {α : Type} (ofName? : String → Option α) : String × (String → Bool) :=
  ("--format", fun name => (ofName? name).isSome)

def tokenizeOptions : Options := ⟨[formats TokenStyle.ofName?], []⟩

def parseOptions : Options := ⟨[formats TreeStyle.ofName?], []⟩

def runOptions : Options :=
  ⟨[formats ErrorStyle.ofName?, ("--max-call-depth", fun s => (number? s).isSome)],
    ["--global-assignment"]⟩

/-- The names of the commands. -/
def commands : List String := ["tokenize", "parse", "run", "help"]

/-- What the arguments ask for. -/
def Request.read : List String → Except Stop Request
  | "tokenize" :: args =>
    readCommand tokenizeOptions
      (fun path given => .tokenize path (given.style TokenStyle.ofName? .basic)) args
  | "parse" :: args =>
    readCommand parseOptions
      (fun path given => .parse path (given.style TreeStyle.ofName? .sexpr)) args
  | "run" :: args =>
    readCommand runOptions
      (fun path given => .run path (given.style ErrorStyle.ofName? .pretty)
        (((given.values.lookup "--max-call-depth").bind number?).getD usualCallDepth)
        (given.flags.contains "--global-assignment")) args
  | ["help"] => .ok .help
  | ["help", name] => if commands.contains name then .ok .help else .error .usage
  | arg :: _ =>
    if arg = "--help" ∨ arg.startsWith "-h" then .ok .help
    else if arg = "--version" ∨ arg.startsWith "-V" then .ok .version
    else .error .usage
  | [] => .error .usage

/-- What the arguments ask for; asking a command for help is asking for help. -/
def Request.ofArgs? (args : List String) : Option Request :=
  match Request.read args with
  | .ok request => some request
  | .error .help => some .help
  | .error .usage => none

end Rill.Cli
