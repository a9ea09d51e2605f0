/-! The arguments of a command line: options with a double dash, flags with a single one, and the
subcommands `explore` and `target`. -/
namespace HeaderSurvey.CommandLine

inductive Command where
  | explore (unit : String) (config output : Option String)
  | target (triple : String) (format : Option String)
deriving DecidableEq, Repr

/-- What the arguments ask for. -/
inductive Request where
  | run (command : Command)
  | version
  | help
  /-- The arguments make no sense. -/
  | misuse (reason : String)
deriving DecidableEq, Repr

/-- The arguments of one level, before or after the subcommand. -/
structure Level where
  verbose : Bool := false
  quiet : Bool := false
  values : List (String × String) := []
  positionals : List String := []
deriving DecidableEq, Repr

/-- What the value of an option stands for. -/
inductive ValueSort where
  | text
  /-- The name of a file, which is not empty. -/
  | path
deriving DecidableEq, Repr

/-- What a level accepts: options with a value, how many other arguments, and whether it can show
the version. -/
structure Grammar where
  options : List (String × ValueSort) := []
  positionals : Nat := 0
  hasVersion : Bool := false

abbrev Parsed := Except Request

namespace Level

/-- A flag may be given once on a level. -/
def addVerbose (l : Level) : Parsed Level :=
  if l.verbose then .error (.misuse "--verbose is given twice") else .ok { l with verbose := true }

def addQuiet (l : Level) : Parsed Level :=
  if l.quiet then .error (.misuse "--quiet is given twice") else .ok { l with quiet := true }

/-- Letters after a single dash. -/
def addFlags (g : Grammar) : Level → List Char → Parsed Level
  | l, [] => .ok l
  | l, c :: rest => do
    if c = 'v' then addFlags g (← l.addVerbose) rest
    else if c = 'q' then addFlags g (← l.addQuiet) rest
    else if c = 'h' then .error .help
    else if c = 'V' ∧ g.hasVersion then .error .version
    else .error (.misuse ("unknown flag -" ++ c.toString))

/-- The value of an option; an option may be given once. -/
def addValue (l : Level) (name : String) (sort : ValueSort) (value : String) : Parsed Level :=
  if sort = .path ∧ value = "" then .error (.misuse ("--" ++ name ++ " needs a value"))
  else if (l.values.lookup name).isSome then .error (.misuse ("--" ++ name ++ " is given twice"))
  else .ok { l with values := l.values ++ [(name, value)] }

def addPositional (g : Grammar) (l : Level) (value : String) : Parsed Level :=
  if l.positionals.length < g.positionals then
    .ok { l with positionals := l.positionals ++ [value] }
  else .error (.misuse ("unexpected argument " ++ value))

/-- A name after a double dash that takes no value. -/
def addLongFlag (g : Grammar) (l : Level) (name : String) : Parsed Level :=
  if name = "verbose" then l.addVerbose
  else if name = "quiet" then l.addQuiet
  else if name = "help" then .error .help
  else if name = "version" ∧ g.hasVersion then .error .version
  else .error (.misuse ("unknown option --" ++ name))

end Level

/-- The forms of an argument. -/
inductive Form where
  | plain
  /-- All arguments after a double dash are taken as they are. -/
  | stop
  | flags (letters : List Char)
  | option (name : String) (value : Option String)

def form (argument : String) : Form :=
  match argument.toList with
  | ['-', '-'] => .stop
  | '-' :: '-' :: rest =>
    match rest.dropWhile (· ≠ '=') with
    | '=' :: value =>
      .option (String.ofList (rest.takeWhile (· ≠ '='))) (some (String.ofList value))
    | _ => .option (String.ofList rest) none
  | '-' :: c :: rest => .flags (c :: rest)
  | _ => .plain

/-- Whether an argument can be the value of the option before it. -/
def isValue (argument : String) : Bool := form argument matches .plain

/-- Reads the arguments of a level to the end. -/
def readLevel (g : Grammar) (l : Level) : List String → Parsed Level
  | [] => .ok l
  | argument :: rest =>
    match form argument with
    | .plain => l.addPositional g argument >>= fun l => readLevel g l rest
    | .stop => rest.foldlM (Level.addPositional g) l
    | .flags letters => l.addFlags g letters >>= fun l => readLevel g l rest
    | .option name (some value) =>
      match g.options.lookup name with
      | some sort => l.addValue name sort value >>= fun l => readLevel g l rest
      | none => .error (.misuse ("unexpected --" ++ name))
    | .option name none =>
      match g.options.lookup name with
      | some sort =>
        match rest with
        | [] => .error (.misuse ("--" ++ name ++ " needs a value"))
        | value :: rest =>
          if isValue value then l.addValue name sort value >>= fun l => readLevel g l rest
          else .error (.misuse ("--" ++ name ++ " needs a value"))
      | none => l.addLongFlag g name >>= fun l => readLevel g l rest

/-- Verbose and quiet exclude each other on a level. -/
def Level.check (l : Level) : Parsed Level :=
  if l.verbose && l.quiet then .error (.misuse "--verbose cannot be used with --quiet") else .ok l

def readExplore (arguments : List String) : Parsed Command := do
  let l ← readLevel { options := [("unit", .path), ("config", .path), ("output", .path)] } {}
      arguments
  let _ ← l.check
  match l.values.lookup "unit" with
  | some unit => return .explore unit (l.values.lookup "config") (l.values.lookup "output")
  | none => .error (.misuse "--unit is required")

def readTarget (arguments : List String) : Parsed Command := do
  let l ← readLevel { options := [("format", .text)], positionals := 1 } {} arguments
  let _ ← l.check
  match l.positionals with
  | [triple] => return .target triple (l.values.lookup "format")
  | _ => .error (.misuse "a target triple is required")

/-- Help is given on the program, or on one subcommand. -/
def helpOn : List String → Request
  | [] | ["explore"] | ["target"] | ["help"] => .help
  | name :: _ => .misuse ("no help on " ++ name)

def readSubcommand (name : String) (arguments : List String) : Parsed Command :=
  if name = "explore" then readExplore arguments
  else if name = "target" then readTarget arguments
  else if name = "help" then .error (helpOn arguments)
  else .error (.misuse ("unknown subcommand " ++ name))

/-- Reads flags up to the subcommand, then the subcommand with its own arguments. -/
def readCommand : Level → List String → Parsed Command
  | _, [] => .error (.misuse "a subcommand is required")
  | l, argument :: rest =>
    let g : Grammar := { hasVersion := true }
    match form argument with
    | .plain => do
      let command ← readSubcommand argument rest
      let _ ← l.check
      return command
    | .stop => .error (.misuse "a subcommand is required")
    | .flags letters => do readCommand (← l.addFlags g letters) rest
    | .option name none => do readCommand (← l.addLongFlag g name) rest
    | .option name (some _) => .error (.misuse ("unexpected --" ++ name))

def Request.ofArguments (arguments : List String) : Request :=
  match readCommand {} arguments with
  | .ok command => .run command
  | .error request => request

end HeaderSurvey.CommandLine
