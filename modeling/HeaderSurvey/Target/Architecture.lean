/-! Processor architectures, as named by the first component of a target triple. -/
namespace HeaderSurvey

inductive Architecture where
  | x86
  | x86_64
  | arm
  | aarch64
  | riscv32
  | riscv64
  | wasm32
  | wasm64
  | powerPC
  | powerPC64
  | mips
  | mips64
  /-- An architecture about which nothing is known but its name. -/
  | other (name : String)
deriving DecidableEq, Repr

namespace Architecture

/-- The spellings that stand for an architecture of their own. -/
def spellings : List (String × Architecture) :=
  [("i386", x86), ("i486", x86), ("i586", x86), ("i686", x86), ("x86", x86),
   ("x86_64", x86_64), ("amd64", x86_64), ("x86_64h", x86_64),
   ("aarch64", aarch64), ("arm64", aarch64), ("arm64e", aarch64), ("aarch64_be", aarch64),
   ("riscv32", riscv32), ("riscv64", riscv64), ("wasm32", wasm32), ("wasm64", wasm64),
   ("powerpc", powerPC), ("ppc", powerPC),
   ("powerpc64", powerPC64), ("powerpc64le", powerPC64), ("ppc64", powerPC64),
   ("ppc64le", powerPC64),
   ("mips", mips), ("mipsel", mips), ("mips64", mips64), ("mips64el", mips64)]

/-- A component in the table means its entry; any other that starts with `arm` or `thumb` is a
32-bit ARM. -/
def ofComponent (component : String) : Architecture :=
  match spellings.lookup component with
  | some architecture => architecture
  | none =>
    if "arm".toList.isPrefixOf component.toList ||
      "thumb".toList.isPrefixOf component.toList then arm
    else other component

/-- Width of a pointer in bits. -/
def pointerBits? : Architecture → Option Nat
  | x86 | arm | riscv32 | wasm32 | powerPC | mips => some 32
  | x86_64 | aarch64 | riscv64 | wasm64 | powerPC64 | mips64 => some 64
  | other _ => none

def name : Architecture → String
  | x86 => "x86"
  | x86_64 => "x86_64"
  | arm => "arm"
  | aarch64 => "aarch64"
  | riscv32 => "riscv32"
  | riscv64 => "riscv64"
  | wasm32 => "wasm32"
  | wasm64 => "wasm64"
  | powerPC => "powerpc"
  | powerPC64 => "powerpc64"
  | mips => "mips"
  | mips64 => "mips64"
  | other name => name

end Architecture
end HeaderSurvey
