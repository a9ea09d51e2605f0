import HeaderSurvey.Declaration.Kind
import HeaderSurvey.Unit.Basic

/-! What a reference to a type refers to: its kind, and the type that stands for it from then on. A
typedef stands for itself; other wrappers are taken off. -/
namespace HeaderSurvey.TranslationUnit

/-- The type under one `attributed` wrapper, or `t` itself. -/
def unwrapAttributed (u : TranslationUnit) (t : TypeId) : Except SurveyError TypeId := do
  let entry ← u.typeAt t
  return if entry.kind = .attributed then entry.modifiedId else t

/-- A type with its entry and the declaration through which it was found. -/
structure Declared where
  type : TypeId
  entry : TypeEntry
  declaration : Cursor
deriving Repr

/-- The type of the declaration of `t`, where there is one. -/
def declaredType (u : TranslationUnit) (t : TypeId) : Except SurveyError Declared := do
  let entry ← u.typeAt t
  let declaration ← u.declarationOf entry
  if declaration.kind = .noDeclFound then return ⟨t, entry, declaration⟩
  let declared ← u.typeAt declaration.type
  return if declared.kind = .invalid then ⟨t, entry, declaration⟩
    else ⟨declaration.type, declared, declaration⟩

/-- Whether a pointer leads to a function, directly, under an `attributed` wrapper or by its
canonical type. -/
def pointsToFunction (u : TranslationUnit) (pointer : TypeEntry) : Except SurveyError Bool := do
  let t ← u.unwrapAttributed pointer.pointeeId
  let pointee ← u.typeAt t
  let canonical ← u.typeAt (pointee.canonicalId t)
  return pointee.kind.isFunction || canonical.kind.isFunction

/-- Kind and type that a reference stands for, over a chain of at most that many types. -/
def classifyWithin (u : TranslationUnit) : Nat → TypeId → Except SurveyError (Kind × TypeId)
  | 0, t => do
    let entry ← u.typeAt t
    .error (.invalidUnit (.unresolved entry.spelling))
  | levels + 1, t => do
    let ⟨t, entry, declaration⟩ ← u.declaredType t
    if entry.kind.isPrimitive then return (.primitive, t)
    match entry.kind with
    | .enum => return (.enum, t)
    | .record =>
      return (if entry.size = Layout.incomplete then .opaqueType
        else if declaration.kind = .unionDecl then .union else .struct, t)
    | .typedef =>
      let underlying ← u.typeAt declaration.underlyingId
      if underlying.kind = .pointer then return (.typeAlias, t)
      let (kind, resolved) ← u.classifyWithin levels declaration.underlyingId
      let target ← u.typeAt resolved
      return (if kind = .opaqueType ∨ target.size = Layout.incomplete then .opaqueType
        else .typeAlias, t)
    | .functionProto | .functionNoProto => return (.function, t)
    | .pointer => return (if ← u.pointsToFunction entry then .functionPointer else .pointer, t)
    | .attributed => u.classifyWithin levels entry.modifiedId
    | .elaborated => u.classifyWithin levels entry.namedId
    | .constantArray | .incompleteArray => return (.array, t)
    | .unexposed =>
      if entry.canonicalId t = t then .error (.unknownTypeKind entry.kind entry.spelling)
      else u.classifyWithin levels (entry.canonicalId t)
    | kind => .error (.unknownTypeKind kind entry.spelling)

/-- Wrappers and typedefs that `classify` follows before it gives a type up. -/
def maxWrappers : Nat := 64

def classify (u : TranslationUnit) (t : TypeId) : Except SurveyError (Kind × TypeId) :=
  u.classifyWithin (maxWrappers + 1) t

end HeaderSurvey.TranslationUnit
