import HeaderSurvey.Diagnostic
import HeaderSurvey.Snapshot.Basic

/-! Collecting finished declarations into a snapshot. Of several of one category and name the first
is kept and each later one reported. Pointers, arrays and primitives are only counted: the uses that
refer to them describe them in full. -/
namespace HeaderSurvey

structure Assembly where
  snapshot : Snapshot
  diagnostics : List Diagnostic := []
  unmapped : Nat := 0
deriving DecidableEq

namespace Assembly

def start (fileName : String) (requested actual : Platform) : Assembly :=
  { snapshot := { fileName, requested, actual } }

/-- The snapshot with the node, unless its map has an entry of that name already. -/
def insert? (s : Snapshot) : Node → Option Snapshot
  | .macroObject m =>
    if s.macroObjects.contains m.name then none
    else some { s with macroObjects := s.macroObjects.insert m.name m }
  | .globalVariable v =>
    if s.globals.contains v.name then none
    else some { s with globals := s.globals.insert v.name v }
  | .function f =>
    if s.functions.contains f.name then none
    else some { s with functions := s.functions.insert f.name f }
  | .record r =>
    if s.records.contains r.name then none else some { s with records := s.records.insert r.name r }
  | .enum e =>
    if s.enums.contains e.name then none else some { s with enums := s.enums.insert e.name e }
  | .typeAlias a =>
    if s.typeAliases.contains a.name then none
    else some { s with typeAliases := s.typeAliases.insert a.name a }
  | .opaqueType o =>
    if s.opaqueTypes.contains o.name then none
    else some { s with opaqueTypes := s.opaqueTypes.insert o.name o }
  | .functionPointer p =>
    if s.functionPointers.contains p.name then none
    else some { s with functionPointers := s.functionPointers.insert p.name p }
  | .pointer _ | .array _ | .primitive _ => none

/-- Whether a node has a place in a snapshot. -/
def isMapped : Node → Bool
  | .pointer _ | .array _ | .primitive _ => false
  | _ => true

def add (a : Assembly) (node : Node) : Assembly :=
  if isMapped node then
    match insert? a.snapshot node with
    | some snapshot => { a with snapshot }
    | none =>
      { a with diagnostics := a.diagnostics ++ [.duplicateNode node.kind node.name node.location] }
  else { a with unmapped := a.unmapped + 1 }

end Assembly
end HeaderSurvey
