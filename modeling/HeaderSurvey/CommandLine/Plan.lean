import HeaderSurvey.CommandLine.Arguments
import HeaderSurvey.CommandLine.Directory
import HeaderSurvey.Survey.Run
import HeaderSurvey.Unit.Validation

/-! What a command line does: from the arguments and the files that they name to what is printed and
written. -/
namespace HeaderSurvey

/-- The message of an error, and of the error that caused it. -/
def SurveyError.messages (e : SurveyError) : List String :=
  match e with
  | .target cause => [e.message, cause.message]
  | _ => [e.message]

namespace CommandLine

structure Response where
  exit : Nat := 0
  out : String := ""
  err : String := ""
deriving DecidableEq, Repr

/-- A command either has its answer, or writes a file first. -/
inductive Plan where
  | reply (response : Response)
  | write (path content : String) (written failed : Response)
deriving DecidableEq, Repr

/-- The chain of messages of a failure on one line. -/
def failureLine (messages : List String) : String := "error: " ++ Text.join ": " messages ++ "\n"

def failure (messages : List String) : Response := { exit := 1, err := failureLine messages }

/-! ## Targets -/

def targetText (p : Platform) : String :=
  "=== Target: " ++ p.triple ++ " ===\n" ++
  "  Architecture:     " ++ p.architecture.name ++ "\n" ++
  "  Vendor:           " ++ p.vendor ++ "\n" ++
  "  Operating system: " ++ p.operatingSystem?.getD "none" ++ "\n" ++
  "  Environment:      " ++ p.environment?.getD "none" ++ "\n" ++
  "  Pointer width:    " ++ toString p.pointerBits ++ " bits (" ++ toString p.pointerBytes ++
    " bytes)\n"

def targetDocument (p : Platform) : Json :=
  .object [("architecture", .string p.architecture.name),
    ("environment", .ofOption .string p.environment?),
    ("operating-system", .ofOption .string p.operatingSystem?),
    ("pointer-width-bits", .nat p.pointerBits),
    ("triple", .string p.triple),
    ("vendor", .string p.vendor)]

def describeTarget (triple : String) (format : Option String) : Response :=
  match Platform.ofTriple triple with
  | .error e => failure ["parsing target '" ++ triple ++ "'", e.message]
  | .ok p =>
    match format with
    | none | some "human" => { out := targetText p }
    | some "json" => { out := (targetDocument p).pretty ++ "\n" }
    | some other => failure ["unknown format: '" ++ other ++ "'. Use 'human' or 'json'."]

/-! ## Surveys -/

/-- The text of a file. -/
def contentOf : FileEntry → Except SurveyError String
  | .file (some content) => .ok content
  | .sink => .ok ""
  | .file none => .error (.file "the file is not a text")
  | .directory => .error (.file "is a directory")
  | .missing => .error (.file "no such file")

/-- Puts what was being done before the messages of an error. -/
def during {α : Type} (activity : String) (result : Except SurveyError α) :
    Except (List String) α :=
  result.mapError fun e => activity :: e.messages

/-- Reads settings and unit from files and surveys the unit. -/
def surveyFiles (entry : String → FileEntry) (unit : String) (config : Option String) :
    Except (List String) Outcome := do
  if !(entry unit matches .file _) then .error ["translation unit dump not found: " ++ unit]
  let settings ← match config with
    | some path => during ("loading " ++ path) do Settings.ofText (← contentOf (entry path))
    | none => pure {}
  let u ← during ("loading " ++ unit) do TranslationUnit.ofText (← contentOf (entry unit))
  during ("exploring " ++ unit) (survey settings u)

def diagnosticLines (diagnostics : List Diagnostic) : String :=
  String.join (diagnostics.map fun d => d.describe ++ "\n")

def summaryLine (o : Outcome) (path : String) : String :=
  "Explored '" ++ o.snapshot.fileName ++ "' (" ++ toString o.snapshot.nodeCount ++ " nodes, " ++
    toString o.diagnostics.length ++ " diagnostics) → " ++ path ++ "\n"

def explore (entry : String → FileEntry) (unit : String) (config output : Option String) : Plan :=
  match surveyFiles entry unit config with
  | .error messages => .reply (failure messages)
  | .ok o =>
    let err := diagnosticLines o.diagnostics
    match output with
    | none => .reply { out := o.snapshot.toText ++ "\n", err }
    | some path =>
      .write path o.snapshot.toText { out := summaryLine o path, err }
        { exit := 1
          err := err ++ failureLine
            ["writing " ++ path, (SurveyError.file "cannot write").message] }

/-! ## Commands -/

def versionText : String := "c2ast 0.1.0\n"

def helpText : String :=
  "Usage: c2ast [-v | -q] explore --unit FILE [--config FILE] [--output FILE]\n" ++
  "       c2ast [-v | -q] target TRIPLE [--format human|json]\n" ++
  "       c2ast --version\n"

/-- What a command line does, given what each path leads to. -/
def plan (arguments : List String) (entry : String → FileEntry) : Plan :=
  match Request.ofArguments arguments with
  | .version => .reply { out := versionText }
  | .help => .reply { out := helpText }
  | .misuse reason => .reply { exit := 2, err := "error: " ++ reason ++ "\n" ++ helpText }
  | .run (.target triple format) => .reply (describeTarget triple format)
  | .run (.explore unit config output) => explore entry unit config output

/-- The files that a command line reads. -/
def inputs (arguments : List String) : List String :=
  match Request.ofArguments arguments with
  | .run (.explore unit config _) => unit :: config.toList
  | _ => []

/-- Runs a command line in a directory. -/
def runIn (d : Directory) (arguments : List String) : Response × Directory :=
  match plan arguments d.entry with
  | .reply response => (response, d)
  | .write path content written failed =>
    match d.write? path content with
    | some d => (written, d)
    | none => (failed, d)

end CommandLine
end HeaderSurvey
