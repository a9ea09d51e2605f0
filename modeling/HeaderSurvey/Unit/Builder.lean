import HeaderSurvey.Declaration.Node
import HeaderSurvey.Text.Search
import HeaderSurvey.Text.Split
import HeaderSurvey.Unit.Basic
import HeaderSurvey.Unit.Layout

/-! Building a translation unit step by step, with natural layouts and the spellings that a C
compiler front end gives to types. Each declaration stands on a line of its own in the current
file. -/
namespace HeaderSurvey

structure Builder where
  unit : TranslationUnit
  file : String
  line : Nat := 0
  system : Bool := false
  /-- The primitive types that the unit has already. -/
  primitives : List (TypeKind × TypeId) := []
  longSize : Int
  pointerSize : Int
deriving Repr

namespace Builder

def start (file triple : String) (pointerBits : Nat) : Builder :=
  let pointerSize : Int := (pointerBits / 8 : Nat)
  { unit :=
      { filePath := file
        target := ⟨triple, pointerBits⟩
        cursors := #[{ kind := .translationUnit, spelling := file }, { kind := .noDeclFound }]
        types := #[{ kind := .invalid }] }
    file
    longSize := if Text.contains triple "windows" || pointerSize == 4 then 4 else 8
    pointerSize }

/-! ## Arenas and lines -/

def typeAt (b : Builder) (t : TypeId) : TypeEntry := b.unit.types.getD t { kind := .invalid }

def cursorAt (b : Builder) (c : CursorId) : Cursor := b.unit.cursors.getD c { kind := .noDeclFound }

/-- The number that the next cursor gets. -/
def nextCursor (b : Builder) : CursorId := b.unit.cursors.size

/-- The number that the next type gets. -/
def nextType (b : Builder) : TypeId := b.unit.types.size

def addCursors (b : Builder) (cursors : List Cursor) : Builder :=
  { b with unit := { b.unit with cursors := b.unit.cursors ++ cursors.toArray } }

def addCursor (b : Builder) (c : Cursor) : Builder := b.addCursors [c]

def addType (b : Builder) (t : TypeEntry) : Builder :=
  { b with unit := { b.unit with types := b.unit.types.push t } }

def modifyCursor (b : Builder) (c : CursorId) (f : Cursor → Cursor) : Builder :=
  { b with unit := { b.unit with cursors := b.unit.cursors.modify c f } }

def modifyType (b : Builder) (t : TypeId) (f : TypeEntry → TypeEntry) : Builder :=
  { b with unit := { b.unit with types := b.unit.types.modify t f } }

/-- Makes a cursor a child of the unit. -/
def addTopLevel (b : Builder) (c : CursorId) : Builder :=
  b.modifyCursor CursorId.root fun root => { root with children := root.children ++ [c] }

/-- The position of the declaration that comes after `n` others. -/
def positionAfter (b : Builder) (n : Nat) : FilePosition :=
  { file := some b.file, line := b.line + n + 1, column := 1, inSystemHeader := b.system }

def skipLines (b : Builder) (n : Nat) : Builder := { b with line := b.line + n }

/-- Where a declaration without a name stands, in the spelling of its type. -/
def placeText (p : FilePosition) : String :=
  p.file.getD "" ++ ":" ++ toString p.line ++ ":" ++ toString p.column

/-! ## Types without a declaration -/

/-- Spelling and size of a primitive type; the alignment is the size. -/
def primitiveLayout? (longSize : Int) : TypeKind → Option (String × Int)
  | .void => some ("void", Layout.incomplete)
  | .bool => some ("_Bool", 1)
  | .charS | .charU => some ("char", 1)
  | .sChar => some ("signed char", 1)
  | .uChar => some ("unsigned char", 1)
  | .short => some ("short", 2)
  | .uShort => some ("unsigned short", 2)
  | .int => some ("int", 4)
  | .uInt => some ("unsigned int", 4)
  | .long => some ("long", longSize)
  | .uLong => some ("unsigned long", longSize)
  | .longLong => some ("long long", 8)
  | .uLongLong => some ("unsigned long long", 8)
  | .int128 => some ("__int128", 16)
  | .uInt128 => some ("unsigned __int128", 16)
  | .wChar => some ("wchar_t", 4)
  | .char16 => some ("char16_t", 2)
  | .char32 => some ("char32_t", 4)
  | .half => some ("__fp16", 2)
  | .float16 => some ("_Float16", 2)
  | .float => some ("float", 4)
  | .double => some ("double", 8)
  | .longDouble => some ("long double", 16)
  | .float128 => some ("__float128", 16)
  | _ => none

/-- A primitive type, added when it is first asked for and kept in `primitives`. -/
def primitive (b : Builder) (kind : TypeKind) : Builder × TypeId :=
  match b.primitives.lookup kind with
  | some t => (b, t)
  | none =>
    match primitiveLayout? b.longSize kind with
    | none => (b, TypeId.invalid)
    | some (spelling, size) =>
      ({ b.addType { kind, spelling, size, align := size } with
          primitives := (kind, b.nextType) :: b.primitives }, b.nextType)

def constQualified (b : Builder) (t : TypeId) : Builder × TypeId :=
  let target := b.typeAt t
  (b.addType { target with spelling := "const " ++ target.spelling, canonical := none }, b.nextType)

/-- A star goes into the brackets of a function type, and after the name of any other; only a star
may stand right before it. -/
def pointerSpelling (target : TypeEntry) : String :=
  if target.kind.isFunction then
    String.ofList (Text.replaceFirst " (".toList " (*)(".toList target.spelling.toList)
  else if target.spelling.toList.getLast? = some '*' then target.spelling ++ "*"
  else target.spelling ++ " *"

def pointer (b : Builder) (pointee : TypeId) : Builder × TypeId :=
  (b.addType
    { kind := .pointer, spelling := pointerSpelling (b.typeAt pointee), size := b.pointerSize,
      align := b.pointerSize, pointee := some pointee }, b.nextType)

/-- The signed 64-bit number that agrees with `n` in its lowest 64 bits. -/
def wrapped (n : Int) : Int := n.bmod 0x10000000000000000

/-- An array of `count` elements, whose size is their product, `wrapped` to 64 bits. -/
def constantArray (b : Builder) (element : TypeId) (count : Int) : Builder × TypeId :=
  let target := b.typeAt element
  (b.addType
    { kind := .constantArray, spelling := target.spelling ++ "[" ++ toString count ++ "]",
      size := wrapped (max target.size 0 * count), align := target.align, arraySize := count,
      element := some element }, b.nextType)

def incompleteArray (b : Builder) (element : TypeId) : Builder × TypeId :=
  let target := b.typeAt element
  (b.addType
    { kind := .incompleteArray, spelling := target.spelling ++ "[]", size := Layout.incomplete,
      align := target.align, element := some element }, b.nextType)

/-- The result before the brackets, then the arguments, with dots for a variadic function and `void`
for no arguments at all. -/
def functionSpelling (b : Builder) (result : TypeId) (arguments : List TypeId) (variadic : Bool) :
    String :=
  let parts := arguments.map (b.typeAt · |>.spelling) ++ (if variadic then ["..."] else [])
  (b.typeAt result).spelling ++ " (" ++
    Text.join ", " (if parts.isEmpty then ["void"] else parts) ++ ")"

def functionType (b : Builder) (result : TypeId) (arguments : List TypeId) (variadic : Bool)
    (convention : DeclaredConvention) : Builder × TypeId :=
  (b.addType
    { kind := .functionProto, spelling := b.functionSpelling result arguments variadic, size := 1,
      align := 4, result := some result, arguments, variadic, convention }, b.nextType)

def elaborated (b : Builder) (named : TypeId) : Builder × TypeId :=
  let target := b.typeAt named
  (b.addType
    { kind := .elaborated, spelling := target.spelling, declaration := target.declaration,
      size := target.size, align := target.align, named := some named,
      canonical := some (target.canonicalId named) }, b.nextType)

def attributed (b : Builder) (modified : TypeId) : Builder × TypeId :=
  let target := b.typeAt modified
  (b.addType
    { kind := .attributed, spelling := target.spelling, size := target.size, align := target.align,
      modified := some modified, canonical := some (target.canonicalId modified) }, b.nextType)

def unexposed (b : Builder) (canonical : TypeId) : Builder × TypeId :=
  let target := b.typeAt canonical
  (b.addType
    { kind := .unexposed, spelling := target.spelling, size := target.size, align := target.align,
      canonical := some canonical }, b.nextType)

/-! ## Records -/

abbrev NamedTypes := List (String × TypeId)

/-- Room that a type takes as a field; an incomplete one takes none. -/
def fieldExtent (b : Builder) (t : TypeId) : Extent :=
  ⟨max (b.typeAt t).size 0, max (b.typeAt t).align 1⟩

/-- Gives `fields` and a layout to a type with a declaration, in place of those it had. -/
def defineRecord (b : Builder) (t : TypeId) (fields : NamedTypes) : Builder :=
  match (b.typeAt t).declaration with
  | none => b
  | some c =>
    let union := (b.cursorAt c).kind == .unionDecl
    let layout := RecordLayout.ofFields union (fields.map (b.fieldExtent ·.2))
    let cursors := (fields.zip layout.offsets).mapIdx fun i (field, offset) =>
      { kind := CursorKind.fieldDecl, spelling := field.1, type := field.2,
        position := b.positionAfter i, offsetBits := offset * 8 : Cursor }
    let ids := List.range' b.nextCursor fields.length
    (((b.addCursors cursors).skipLines fields.length).modifyCursor c
      fun cursor => { cursor with children := ids }).modifyType t
      fun entry => { entry with size := layout.size, align := layout.align, fields := ids }

def recordCursorKind : RecordTag → CursorKind
  | .struct => .structDecl
  | .union => .unionDecl

def recordKeyword : RecordTag → String
  | .struct => "struct"
  | .union => "union"

/-- A record declaration and its type; without `fields` it stays incomplete. -/
def addRecord (b : Builder) (tag : RecordTag) (name spelling : String) (anonymous : Bool)
    (fields : Option NamedTypes) : Builder × TypeId :=
  let t := b.nextType
  let b' := ((b.addCursor
    { kind := recordCursorKind tag, spelling := name, type := t, anonymous,
      position := b.positionAfter 0 }).skipLines 1).addType
    { kind := .record, spelling, declaration := some b.nextCursor, size := Layout.incomplete,
      align := Layout.incomplete }
  match fields with
  | some fields => (b'.defineRecord t fields, t)
  | none => (b', t)

/-- The spelling of a record type without a name. -/
def namelessSpelling (b : Builder) (tag : RecordTag) (marker : String) : String :=
  recordKeyword tag ++ " (" ++ marker ++ " at " ++ placeText (b.positionAfter 0) ++ ")"

def namedRecord (b : Builder) (tag : RecordTag) (name : String) (fields : Option NamedTypes) :
    Builder × TypeId :=
  let (b', t) := b.addRecord tag name (recordKeyword tag ++ " " ++ name) false fields
  (b'.addTopLevel b.nextCursor, t)

def anonymousRecord (b : Builder) (tag : RecordTag) (fields : NamedTypes) : Builder × TypeId :=
  b.addRecord tag "" (b.namelessSpelling tag "anonymous") true (some fields)

def unnamedStruct (b : Builder) (fields : NamedTypes) : Builder × TypeId :=
  b.addRecord .struct "" (b.namelessSpelling .struct "unnamed") false (some fields)

/-! ## Other declarations -/

def typedef (b : Builder) (name : String) (underlying : TypeId) : Builder × TypeId :=
  let target := b.typeAt underlying
  ((((b.addCursor
    { kind := .typedefDecl, spelling := name, type := b.nextType, position := b.positionAfter 0,
      underlying := some underlying }).skipLines 1).addType
    { kind := .typedef, spelling := name, declaration := some b.nextCursor, size := target.size,
      align := target.align, canonical := some (target.canonicalId underlying) }).addTopLevel
    b.nextCursor, b.nextType)

/-- A struct that has a name only through a typedef, under an `elaborated` wrapper. -/
def typedefStruct (b : Builder) (name : String) (fields : NamedTypes) : Builder × TypeId :=
  let (b, record) := b.addRecord .struct "" name false (some fields)
  let (b, wrapped) := b.elaborated record
  b.typedef name wrapped

/-- An enumeration over `int` if some value is negative, over `unsigned int` otherwise. -/
def addEnum (b : Builder) (name spelling : String) (anonymous : Bool)
    (values : List (String × Int)) :
    Builder × TypeId :=
  let (b', integer) := b.primitive (if values.any (·.2 < 0) then .int else .uInt)
  let t := b'.nextType
  let constants := values.mapIdx fun i (constant, value) =>
    { kind := CursorKind.enumConstantDecl, spelling := constant, type := t,
      position := b.positionAfter (i + 1), enumValue := value : Cursor }
  ((((b'.addCursor
    { kind := .enumDecl, spelling := name, type := t, linkage := .external, anonymous,
      position := b.positionAfter 0, integerType := some integer,
      children := List.range' (b.nextCursor + 1) values.length }).addCursors constants).skipLines
    (values.length + 1)).addType
    { kind := .enum, spelling, declaration := some b.nextCursor, size := 4, align := 4 }, t)

def namedEnum (b : Builder) (name : String) (values : List (String × Int)) : Builder × TypeId :=
  let (b', t) := b.addEnum name ("enum " ++ name) false values
  (b'.addTopLevel b.nextCursor, t)

def anonymousEnum (b : Builder) (values : List (String × Int)) (topLevel : Bool) :
    Builder × TypeId :=
  let spelling := "enum (anonymous at " ++ placeText (b.positionAfter 0) ++ ")"
  let (b', t) := b.addEnum "" spelling true values
  (if topLevel then b'.addTopLevel b.nextCursor else b', t)

/-- A function of the type `t`, with its parameters before it; parameters without a name in `names`
have the empty one. -/
def addFunction (b : Builder) (name : String) (t : TypeId) (names : List String)
    (linkage : Linkage) :
    Builder × CursorId :=
  let arguments := (b.typeAt t).arguments
  let position := b.positionAfter 0
  let parameters := arguments.mapIdx fun i argument =>
    { kind := CursorKind.parmDecl, spelling := names[i]?.getD "", type := argument,
      position : Cursor }
  let b' := (b.addCursors parameters).skipLines 1
  let function := b'.nextCursor
  ((b'.addCursor
    { kind := .functionDecl, spelling := name, type := t, linkage, position,
      children := List.range' b.nextCursor arguments.length }).addTopLevel function, function)

def function (b : Builder) (name : String) (result : TypeId) (parameters : NamedTypes)
    (variadic : Bool) : Builder × CursorId :=
  let (b, t) := b.functionType result (parameters.map (·.2)) variadic .c
  b.addFunction name t (parameters.map (·.1)) .external

def staticFunction (b : Builder) (name : String) (result : TypeId) : Builder × CursorId :=
  let (b, t) := b.functionType result [] false .c
  b.addFunction name t [] .internal

def globalVariable (b : Builder) (name : String) (t : TypeId) (linkage : Linkage) :
    Builder × CursorId :=
  (((b.addCursor
    { kind := .varDecl, spelling := name, type := t, linkage,
      position := b.positionAfter 0 }).skipLines 1).addTopLevel b.nextCursor, b.nextCursor)

inductive MacroSort where
  | object
  | functionLike
  /-- Defined by the compiler, without a place in a file. -/
  | builtin
  /-- Defined on the command line; it takes a line, but names no file. -/
  | commandLine
deriving DecidableEq, Repr

def macroPosition (b : Builder) : MacroSort → FilePosition
  | .object | .functionLike => b.positionAfter 0
  | .builtin => {}
  | .commandLine => { line := b.line + 1, column := 9 }

def macroDefinition (b : Builder) (sort : MacroSort) (name : String) (tokens : List String) :
    Builder × CursorId :=
  (((b.addCursor
    { kind := .macroDefinition, spelling := name, position := b.macroPosition sort,
      macroBuiltin := sort == .builtin, macroFunctionLike := sort == .functionLike,
      macroTokens := tokens }).skipLines
    (if sort = .builtin then 0 else 1)).addTopLevel b.nextCursor, b.nextCursor)

/-! ## Steps -/

/-- One step of building. -/
inductive Step where
  | inFile (path : String)
  | systemHeader (on : Bool)
  | primitive (kind : TypeKind)
  | constQualified (t : TypeId)
  | pointer (t : TypeId)
  | constantArray (t : TypeId) (count : Int)
  | incompleteArray (t : TypeId)
  | functionType (result : TypeId) (arguments : List TypeId) (variadic : Bool)
      (convention : DeclaredConvention)
  | elaborated (t : TypeId)
  | attributed (t : TypeId)
  | unexposed (t : TypeId)
  | defineRecord (t : TypeId) (fields : NamedTypes)
  | record (tag : RecordTag) (name : String) (fields : NamedTypes)
  | forwardRecord (tag : RecordTag) (name : String)
  | anonymousRecord (tag : RecordTag) (fields : NamedTypes)
  | unnamedStruct (fields : NamedTypes)
  | typedefStruct (name : String) (fields : NamedTypes)
  | typedef (name : String) (t : TypeId)
  | enum (name : String) (values : List (String × Int))
  | anonymousEnum (values : List (String × Int)) (topLevel : Bool)
  | function (name : String) (result : TypeId) (parameters : NamedTypes) (variadic : Bool)
  | functionOfType (name : String) (t : TypeId) (names : List String)
  | staticFunction (name : String) (result : TypeId)
  | globalVariable (name : String) (t : TypeId) (linkage : Linkage)
  | macroDefinition (sort : MacroSort) (name : String) (tokens : List String)
deriving DecidableEq, Repr

/-- What a step has made. -/
inductive Made where
  | nothing
  | type (t : TypeId)
  | cursor (c : CursorId)
deriving DecidableEq, Repr

private def madeType (r : Builder × TypeId) : Builder × Made := (r.1, .type r.2)

private def madeCursor (r : Builder × CursorId) : Builder × Made := (r.1, .cursor r.2)

def Step.run (b : Builder) : Step → Builder × Made
  | inFile path => ({ b with file := path, line := 0 }, .nothing)
  | systemHeader on => ({ b with system := on }, .nothing)
  | primitive kind => madeType (b.primitive kind)
  | constQualified t => madeType (b.constQualified t)
  | pointer t => madeType (b.pointer t)
  | constantArray t count => madeType (b.constantArray t count)
  | incompleteArray t => madeType (b.incompleteArray t)
  | functionType result arguments variadic convention =>
    madeType (b.functionType result arguments variadic convention)
  | elaborated t => madeType (b.elaborated t)
  | attributed t => madeType (b.attributed t)
  | unexposed t => madeType (b.unexposed t)
  | defineRecord t fields => (b.defineRecord t fields, .nothing)
  | record tag name fields => madeType (b.namedRecord tag name (some fields))
  | forwardRecord tag name => madeType (b.namedRecord tag name none)
  | anonymousRecord tag fields => madeType (b.anonymousRecord tag fields)
  | unnamedStruct fields => madeType (b.unnamedStruct fields)
  | typedefStruct name fields => madeType (b.typedefStruct name fields)
  | typedef name t => madeType (b.typedef name t)
  | enum name values => madeType (b.namedEnum name values)
  | anonymousEnum values topLevel => madeType (b.anonymousEnum values topLevel)
  | function name result parameters variadic =>
    madeCursor (b.function name result parameters variadic)
  | functionOfType name t names => madeCursor (b.addFunction name t names .external)
  | staticFunction name result => madeCursor (b.staticFunction name result)
  | globalVariable name t linkage => madeCursor (b.globalVariable name t linkage)
  | macroDefinition sort name tokens => madeCursor (b.macroDefinition sort name tokens)

end Builder
end HeaderSurvey
