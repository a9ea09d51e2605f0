import HeaderSurvey.Unit.Codec
import HeaderSurvey.Unit.Links

/-! Which translation units can be used: the three reserved places are taken, every handle is in its
arena, and no chain of type links comes back to its start. -/
namespace HeaderSurvey.TranslationUnit

def hasCursor (u : TranslationUnit) (c : CursorId) : Bool := c < u.cursors.size

def hasType (u : TranslationUnit) (t : TypeId) : Bool := t < u.types.size

/-- Whether all handles of a cursor are in range. -/
def hasCursorHandles (u : TranslationUnit) (c : Cursor) : Bool :=
  u.hasType c.type && c.underlying.all u.hasType && c.integerType.all u.hasType &&
    c.children.all u.hasCursor

/-- Whether all handles of a type are in range. -/
def hasTypeHandles (u : TranslationUnit) (t : TypeEntry) : Bool :=
  t.pointee.all u.hasType && t.element.all u.hasType && t.modified.all u.hasType &&
    t.named.all u.hasType && t.canonical.all u.hasType && t.result.all u.hasType &&
    t.arguments.all u.hasType && t.declaration.all u.hasCursor && t.fields.all u.hasCursor

/-- The first reason for `validate` not to use `u`. -/
def fault? (u : TranslationUnit) : Option UnitFault :=
  if u.cursors[0]?.map (·.kind) ≠ some .translationUnit then some .root
  else if u.cursors[1]?.map (·.kind) ≠ some .noDeclFound then some .noDeclaration
  else if u.types[0]?.map (·.kind) ≠ some .invalid then some .invalidType
  else match u.cursors.toList.findIdx? fun c => !u.hasCursorHandles c with
    | some i => some (.cursorHandle i)
    | none =>
      match u.types.toList.findIdx? fun t => !u.hasTypeHandles t with
      | some i => some (.typeHandle i)
      | none => u.firstTypeCycle?.map .typeCycle

def validate (u : TranslationUnit) : Except SurveyError TranslationUnit :=
  match u.fault? with
  | some fault => .error (.invalidUnit fault)
  | none => .ok u

/-- Reads a unit and checks that it can be used. -/
def ofDocument (document : Json) : Except SurveyError TranslationUnit :=
  match decode document with
  | .ok u => u.validate
  | .error fault => .error (.document fault)

def ofText (text : String) : Except SurveyError TranslationUnit :=
  match Json.read? text with
  | some document => ofDocument document
  | none => .error (.document .malformed)

end HeaderSurvey.TranslationUnit
