import HeaderSurvey.Error

/-! Translation unit dumps: an arena of cursors, which are the declarations of a C source, and an
arena of types. Cursors and types refer to each other by their numbers in the arenas. -/
namespace HeaderSurvey

abbrev CursorId := Nat

abbrev TypeId := Nat

/-- The cursor of the whole unit. -/
def CursorId.root : CursorId := 0

/-- The cursor that stands for a missing declaration. -/
def CursorId.noDeclaration : CursorId := 1

/-- The type that stands for a missing type. -/
def TypeId.invalid : TypeId := 0

/-! Layout numbers below zero say why there is no layout. -/

def Layout.invalid : Int := -1

def Layout.incomplete : Int := -2

structure FilePosition where
  file : Option String := none
  line : Nat := 0
  column : Nat := 0
  inSystemHeader : Bool := false
deriving DecidableEq, Repr, Inhabited

structure Cursor where
  kind : CursorKind
  spelling : String := ""
  type : TypeId := TypeId.invalid
  linkage : Linkage := .noLinkage
  anonymous : Bool := false
  position : FilePosition := {}
  children : List CursorId := []
  macroBuiltin : Bool := false
  macroFunctionLike : Bool := false
  macroTokens : List String := []
  underlying : Option TypeId := none
  offsetBits : Int := Layout.invalid
  enumValue : Int := 0
  integerType : Option TypeId := none
deriving DecidableEq, Repr

structure TypeEntry where
  kind : TypeKind
  spelling : String := ""
  declaration : Option CursorId := none
  size : Int := Layout.invalid
  align : Int := Layout.invalid
  arraySize : Int := Layout.invalid
  pointee : Option TypeId := none
  element : Option TypeId := none
  modified : Option TypeId := none
  named : Option TypeId := none
  canonical : Option TypeId := none
  result : Option TypeId := none
  arguments : List TypeId := []
  variadic : Bool := false
  convention : DeclaredConvention := .c
  fields : List CursorId := []
deriving DecidableEq, Repr

structure TargetInfo where
  triple : String
  pointerBits : Nat
deriving DecidableEq, Repr

structure TranslationUnit where
  filePath : String
  target : TargetInfo
  cursors : Array Cursor
  types : Array TypeEntry
deriving DecidableEq, Repr

/-! ## Links, with what a missing one stands for -/

namespace Cursor

def underlyingId (c : Cursor) : TypeId := c.underlying.getD TypeId.invalid

def integerTypeId (c : Cursor) : TypeId := c.integerType.getD TypeId.invalid

end Cursor

namespace TypeEntry

def declarationId (t : TypeEntry) : CursorId := t.declaration.getD CursorId.noDeclaration

def pointeeId (t : TypeEntry) : TypeId := t.pointee.getD TypeId.invalid

def elementId (t : TypeEntry) : TypeId := t.element.getD TypeId.invalid

def modifiedId (t : TypeEntry) : TypeId := t.modified.getD TypeId.invalid

def namedId (t : TypeEntry) : TypeId := t.named.getD TypeId.invalid

def resultId (t : TypeEntry) : TypeId := t.result.getD TypeId.invalid

/-- A type without a canonical form is its own; `self` is its number. -/
def canonicalId (t : TypeEntry) (self : TypeId) : TypeId := t.canonical.getD self

end TypeEntry

namespace TranslationUnit

def cursorAt (u : TranslationUnit) (c : CursorId) : Except SurveyError Cursor :=
  match u.cursors[c]? with
  | some cursor => .ok cursor
  | none => .error (.dangling (.cursor c))

def typeAt (u : TranslationUnit) (t : TypeId) : Except SurveyError TypeEntry :=
  match u.types[t]? with
  | some entry => .ok entry
  | none => .error (.dangling (.type t))

/-- The cursor that declares a type. -/
def declarationOf (u : TranslationUnit) (t : TypeEntry) : Except SurveyError Cursor :=
  u.cursorAt t.declarationId

/-- The children of a cursor that satisfy a test, in order. -/
def childrenWhere (u : TranslationUnit) (c : Cursor) (test : Cursor → Bool) :
    Except SurveyError (List (CursorId × Cursor)) := do
  let children ← c.children.mapM fun id => do return (id, ← u.cursorAt id)
  return children.filter fun child => test child.2

def childrenOfKind (u : TranslationUnit) (c : Cursor) (kind : CursorKind) :
    Except SurveyError (List (CursorId × Cursor)) :=
  u.childrenWhere c (·.kind == kind)

/-- The platform data that the dump was made with. -/
def targetInfo (u : TranslationUnit) : Except SurveyError TargetInfo :=
  if u.target.triple = "" ∨ u.target.pointerBits = 0 then .error (.noTarget u.filePath)
  else .ok u.target

end TranslationUnit
end HeaderSurvey
