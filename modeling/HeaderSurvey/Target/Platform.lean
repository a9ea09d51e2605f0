import HeaderSurvey.Json.Decode
import HeaderSurvey.Target.Architecture
import HeaderSurvey.Text.Blank
import HeaderSurvey.Text.Split

/-! Target platforms: a triple such as `x86_64-unknown-linux-gnu` with the width of its pointers. A
survey keeps two of them, the one asked for and the one the dump was made for. -/
namespace HeaderSurvey

/-- What is wrong with the text of a triple. -/
inductive TripleFault where
  | empty
  | tooShort
  | emptyComponent
  | unknownWidth (architecture : Architecture)
deriving DecidableEq, Repr

def TripleFault.message : TripleFault → String
  | empty => "empty triple"
  | tooShort => "expected at least 'arch-vendor' components"
  | emptyComponent => "empty component"
  | unknownWidth architecture =>
    "unknown pointer width for architecture '" ++ architecture.name ++ "'"

inductive TargetError where
  | invalidTriple (triple : String) (fault : TripleFault)
  | invalidPointerWidth (triple : String) (bits : Nat)
deriving DecidableEq, Repr

def TargetError.message : TargetError → String
  | invalidTriple triple fault => "invalid target triple '" ++ triple ++ "': " ++ fault.message
  | invalidPointerWidth triple bits =>
    "invalid pointer width " ++ toString bits ++ " for target '" ++ triple ++ "'"

/-- The components of a triple, separated by `-`. -/
def tripleComponents (triple : String) : List String := Text.pieces '-' triple

/-- The first fault of a triple, without regard to its architecture. -/
def tripleFault? (triple : String) : Option TripleFault :=
  if triple.toList.all Text.isBlank then some .empty
  else if (tripleComponents triple).length < 2 then some .tooShort
  else if (tripleComponents triple).any (· == "") then some .emptyComponent
  else none

structure Platform where
  triple : String
  pointerBits : Nat
deriving DecidableEq, Repr

namespace Platform

def ofTripleAndBits (triple : String) (bits : Nat) : Except TargetError Platform :=
  match tripleFault? triple with
  | some fault => .error (.invalidTriple triple fault)
  | none =>
    if bits = 16 ∨ bits = 32 ∨ bits = 64 then .ok ⟨triple, bits⟩
    else .error (.invalidPointerWidth triple bits)

def tripleArchitecture (triple : String) : Architecture :=
  Architecture.ofComponent ((tripleComponents triple).headD "")

/-- The platform of a triple, with the pointer width of its architecture. -/
def ofTriple (triple : String) : Except TargetError Platform :=
  match tripleFault? triple with
  | some fault => .error (.invalidTriple triple fault)
  | none =>
    match (tripleArchitecture triple).pointerBits? with
    | some bits => ofTripleAndBits triple bits
    | none => .error (.invalidTriple triple (.unknownWidth (tripleArchitecture triple)))

def pointerBytes (p : Platform) : Nat := p.pointerBits / 8

def architecture (p : Platform) : Architecture := tripleArchitecture p.triple

def vendor (p : Platform) : String := (tripleComponents p.triple)[1]?.getD "unknown"

def operatingSystem? (p : Platform) : Option String := (tripleComponents p.triple)[2]?

def environment? (p : Platform) : Option String := (tripleComponents p.triple)[3]?

def linuxGnu : Platform := ⟨"x86_64-unknown-linux-gnu", 64⟩

def appleDarwin : Platform := ⟨"aarch64-apple-darwin", 64⟩

def windowsMsvc : Platform := ⟨"x86_64-pc-windows-msvc", 64⟩

instance : Inhabited Platform := ⟨linuxGnu⟩

/-! ## Documents -/

def encode (p : Platform) : Json :=
  .object [("triple", .string p.triple), ("pointer-width-bits", .nat p.pointerBits)]

def shape : Fields.Shape := { names := ["triple", "pointer-width-bits"] }

/-- Reads a platform; a width that is missing or null is that of the architecture. The triple and
the width are checked as for any other platform. -/
def decode : Decoder Platform := fun document => do
  let r ← Fields.read shape document
  let triple ← r.required "triple" Decode.text
  let bits ← r.withDefault "pointer-width-bits" none (Decode.nullable Decode.nat32)
  let platform := match bits with
    | some bits => ofTripleAndBits triple bits
    | none => ofTriple triple
  match platform with
  | .ok platform => .ok platform
  | .error fault => .error (.refused fault.message)

end Platform
end HeaderSurvey
