import HeaderSurvey.Declaration.Node
import HeaderSurvey.Diagnostic
import HeaderSurvey.Survey.Context

/-! The changing state of a survey: for each category the nodes that wait and the names that have
been offered. A name is accepted at most once in its category. -/
namespace HeaderSurvey

inductive Category where
  | macros
  | globals
  | functions
  | types
deriving DecidableEq, Repr

namespace Category

def all : List Category := [macros, globals, functions, types]

def label : Category → String
  | macros => "macros"
  | globals => "variables"
  | functions => "functions"
  | types => "types"

def ofKind : Kind → Category
  | .macroObject => macros
  | .globalVariable => globals
  | .function => functions
  | _ => types

/-- Whether nodes of the category count at all, by the `Switches`. -/
def isEnabled (s : Switches) : Category → Bool
  | macros => s.macroObjects
  | globals => s.globals
  | functions => s.functions
  | types => true

end Category

structure Frontier where
  queue : List VisitNode := []
  visited : List String := []
deriving DecidableEq, Repr

/-- What became of an offered `VisitNode`. -/
inductive Verdict where
  | disabled
  | duplicate
  /-- New, but declared in a system header that does not count. -/
  | filtered
  | accepted
deriving DecidableEq, Repr

/-- What happened in a survey, for the `journal`. -/
inductive Event where
  | offered (node : VisitNode) (verdict : Verdict)
  /-- A reference to a type was described by a use. -/
  | described (use : TypeUse)
  /-- A node was taken up to be finished. -/
  | handled (node : VisitNode)
  | finished (node : VisitNode) (result : Node)
deriving DecidableEq, Repr

structure Session where
  macros : Frontier := {}
  globals : Frontier := {}
  functions : Frontier := {}
  types : Frontier := {}
  /-- The tokens of each macro at its first definition. -/
  macroTokens : List (String × List String) := []
  diagnostics : List Diagnostic := []
  /-- All that happened so far, latest first. -/
  journal : List Event := []
deriving DecidableEq, Repr

/-- Steps of a survey. A step that fails keeps what it has done to the `Session`. -/
abbrev SurveyM := ExceptT SurveyError (StateM Session)

namespace Session

def frontier (s : Session) : Category → Frontier
  | .macros => s.macros
  | .globals => s.globals
  | .functions => s.functions
  | .types => s.types

def setFrontier (s : Session) (category : Category) (f : Frontier) : Session :=
  match category with
  | .macros => { s with macros := f }
  | .globals => { s with globals := f }
  | .functions => { s with functions := f }
  | .types => { s with types := f }

def isVisited (s : Session) (category : Category) (name : String) : Bool :=
  (s.frontier category).visited.contains name

def isQueued (s : Session) (category : Category) : Bool := !(s.frontier category).queue.isEmpty

/-- Whether no node waits in any category. -/
def isExhausted (s : Session) : Bool := Category.all.all fun category => !s.isQueued category

def markVisited (s : Session) (category : Category) (name : String) : Session :=
  let f := s.frontier category
  s.setFrontier category { f with visited := name :: f.visited }

def enqueue (s : Session) (category : Category) (node : VisitNode) : Session :=
  let f := s.frontier category
  s.setFrontier category { f with queue := f.queue ++ [node] }

def record (s : Session) (event : Event) : Session := { s with journal := event :: s.journal }

/-- Removes all waiting nodes of a category. -/
def take (category : Category) : SurveyM (List VisitNode) := do
  let s ← get
  let f := s.frontier category
  set (s.setFrontier category { f with queue := [] })
  return f.queue

/-- Removes the first waiting node of a category. -/
def pop (category : Category) : SurveyM (Option VisitNode) := do
  let s ← get
  let f := s.frontier category
  match f.queue with
  | [] => return none
  | node :: rest =>
    set (s.setFrontier category { f with queue := rest })
    return some node

end Session

namespace Context

/-- Whether a declaration counts, by the file it stands in. -/
def acceptsCursor (x : Context) (c : Cursor) : Bool :=
  x.switches.systemDeclarations || !c.position.inSystemHeader

/-- Whether a type counts, over at most that many pointers and arrays: these are judged by what they
lead to, and count if that is declared nowhere. -/
def acceptsTypeWithin (x : Context) : Nat → Cursor → TypeEntry → Except SurveyError Bool
  | 0, _, _ => .error .unending
  | layers + 1, c, entry =>
    let inner? : Option TypeId :=
      if entry.kind = .pointer then some entry.pointeeId
      else if entry.kind.isArray then some entry.elementId
      else none
    match inner? with
    | none => .ok (x.acceptsCursor c)
    | some t => do
      let inner ← x.unit.typeAt t
      let declaration ← x.unit.declarationOf inner
      if declaration.kind = .noDeclFound then return true
      x.acceptsTypeWithin layers declaration inner

/-- Whether `node` counts: it is not from a system header, or `systemDeclarations` are wanted. -/
def accepts (x : Context) (node : VisitNode) : Except SurveyError Bool := do
  let cursor ← x.unit.cursorAt node.cursor
  match Category.ofKind node.kind with
  | .types => x.acceptsTypeWithin (x.unit.types.size + 2) cursor (← x.unit.typeAt node.type)
  | _ => return x.acceptsCursor cursor

/-- What to report about a node whose `key` is in `visited` already. -/
def repetition? (x : Context) (s : Session) (node : VisitNode) :
    Except SurveyError (Option Diagnostic) := do
  match Category.ofKind node.kind with
  | .macros =>
    let cursor ← x.unit.cursorAt node.cursor
    return if s.macroTokens.lookup node.name = some cursor.macroTokens then none
      else some (.macroExists node.name node.location)
  | .globals | .functions => return some (.redeclared node.kind node.name node.location)
  | .types => return none

/-- Records the tokens of a macro that is offered for the first time. -/
def rememberTokens (x : Context) (node : VisitNode) : SurveyM Unit := do
  if Category.ofKind node.kind = .macros then
    let cursor ← x.unit.cursorAt node.cursor
    modify fun s => { s with macroTokens := (node.name, cursor.macroTokens) :: s.macroTokens }

/-- Decides on a node whose category `isEnabled`. Its `key` is in `visited` afterwards whatever the
verdict. -/
def judge (x : Context) (node : VisitNode) : SurveyM Verdict := do
  let category := Category.ofKind node.kind
  if (← get).isVisited category node.key then
    let diagnostic ← x.repetition? (← get) node
    modify fun s => { s with diagnostics := s.diagnostics ++ diagnostic.toList }
    return .duplicate
  modify (·.markVisited category node.key)
  x.rememberTokens node
  if ← x.accepts node then
    modify (·.enqueue category node)
    return .accepted
  return .filtered

/-- Offers `node` to its category, and writes the verdict into the `journal`. -/
def offer (x : Context) (node : VisitNode) : SurveyM Verdict := do
  let verdict ← if (Category.ofKind node.kind).isEnabled x.switches then x.judge node
    else pure .disabled
  modify (·.record (.offered node verdict))
  return verdict

end Context
end HeaderSurvey
