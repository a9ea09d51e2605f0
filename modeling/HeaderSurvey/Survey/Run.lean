import HeaderSurvey.Survey.Assembly
import HeaderSurvey.Survey.Finish

/-! A whole survey: the top level is scanned, macros and variables are finished, then functions and
types in turn until nothing waits. -/
namespace HeaderSurvey

structure Progress where
  session : Session := {}
  assembly : Assembly

abbrev RunM := ExceptT SurveyError (StateM Progress)

/-- A step of the `Session` within a run. -/
def onSession {α : Type} (step : SurveyM α) : RunM α := fun p =>
  let (result, session) := step p.session
  (result, { p with session })

namespace Context

/-- Finishes `node` and puts the result into the snapshot. -/
def complete (x : Context) (node : VisitNode) : RunM Unit := do
  let result ← onSession do
    let result ← x.finish node
    modify (·.record (.finished node result))
    return result
  modify fun p => { p with assembly := p.assembly.add result }

/-- Finishes the waiting nodes of a category, round after round: those that turn up during a round
wait for the next one. -/
def drain (x : Context) (category : Category) : Nat → RunM Unit
  | 0 => throw .unending
  | rounds + 1 => do
    let batch ← onSession (Session.take category)
    if batch.isEmpty then return ()
    batch.forM x.complete
    x.drain category rounds

/-- Finishes the waiting nodes of a category one by one, first come, first served. -/
def drainOneByOne (x : Context) (category : Category) : Nat → RunM Unit
  | 0 => throw .unending
  | nodes + 1 => do
    match ← onSession (Session.pop category) with
    | none => return ()
    | some node =>
      x.complete node
      x.drainOneByOne category nodes

/-- Functions and types in turn, each for at most `rounds` rounds of `drain`. -/
def alternateFor (x : Context) (rounds : Nat) : Nat → RunM Unit
  | 0 => throw .unending
  | turns + 1 => do
    if (← get).session.isExhausted then return ()
    x.drain .functions rounds
    x.drain .types rounds
    x.alternateFor rounds turns

/-- A whole run, which fails with `SurveyError.unending` if a category takes more than `rounds`
rounds or functions and types more than `turns` turns. -/
def runFor (x : Context) (rounds turns : Nat) : RunM Unit := do
  onSession x.scan
  x.drain .macros rounds
  x.drain .globals rounds
  x.alternateFor rounds turns

end Context

/-- The platform that a unit was made for. -/
def TranslationUnit.platform (u : TranslationUnit) : Except SurveyError Platform := do
  let info ← u.targetInfo
  (Platform.ofTripleAndBits info.triple info.pointerBits).mapError .target

structure Outcome where
  snapshot : Snapshot
  diagnostics : List Diagnostic
deriving DecidableEq

/-- Where a survey starts: its `Context`, and a `Progress` with an empty snapshot. -/
def beginSurvey (s : Settings) (u : TranslationUnit) : Except SurveyError (Context × Progress) := do
  let requested ← s.platform
  let actual ← u.platform
  return (Context.ofSettings u s actual.pointerBits,
    { assembly := Assembly.start u.filePath requested actual })

/-- Surveys a unit within `rounds` and `turns` (see `Context.runFor`). The reports of the session
come before those of the assembly. -/
def surveyFor (rounds turns : Nat) (s : Settings) (u : TranslationUnit) :
    Except SurveyError Outcome := do
  let (x, start) ← beginSurvey s u
  match x.runFor rounds turns start with
  | (.error e, _) => .error e
  | (.ok (), p) =>
    return { snapshot := p.assembly.snapshot
             diagnostics := p.session.diagnostics ++ p.assembly.diagnostics }

/-- The rounds and turns that `survey` allows. Every round but the last finishes a node under a
name that no earlier one has, so that a run past this limit would hold as many names. -/
def patience : Nat := 0x7fffffffffffffff

def survey (s : Settings) (u : TranslationUnit) : Except SurveyError Outcome :=
  surveyFor patience patience s u

end HeaderSurvey
