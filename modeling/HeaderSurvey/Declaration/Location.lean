import HeaderSurvey.Json.Decode

/-! Places in source files, by file name and path as a snapshot shows them. -/
namespace HeaderSurvey

structure Location where
  fileName : String
  filePath : String
  line : Nat
  column : Nat
deriving DecidableEq, Repr

namespace Location

/-- The place of what is declared nowhere. -/
def none : Location := ⟨"", "", 0, 0⟩

instance : Inhabited Location := ⟨none⟩

/-- Whether no file is named. -/
def isNull (l : Location) : Bool := l.filePath == "" && l.fileName == ""

/-- Path, line and column, separated by colons. -/
def position (path : String) (l : Location) : String :=
  path ++ ":" ++ toString l.line ++ ":" ++ toString l.column

/-- The place in a message; the path is preferred to the name. -/
def describe (l : Location) : String :=
  if l.isNull then "<no location>"
  else l.position (if l.filePath == "" then l.fileName else l.filePath)

def encode (l : Location) : Json :=
  .object [("file_name", .string l.fileName), ("file_path", .string l.filePath),
    ("line_number", .nat l.line), ("line_column", .nat l.column)]

def shape : Fields.Shape := { names := ["file_name", "file_path", "line_number", "line_column"] }

def decode : Decoder Location := fun document => do
  let r ← Fields.read shape document
  return {
    fileName := ← r.required "file_name" Decode.text
    filePath := ← r.required "file_path" Decode.text
    line := ← r.required "line_number" Decode.nat32
    column := ← r.required "line_column" Decode.nat32 }

end Location
end HeaderSurvey
