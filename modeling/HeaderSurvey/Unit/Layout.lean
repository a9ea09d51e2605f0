/-! Natural layout of records: each field at the next multiple of its alignment, or all of them at
the start in a union. -/
namespace HeaderSurvey

/-- The next multiple of `align` from `n` on. -/
def alignUp (n align : Int) : Int :=
  if align ≤ 1 then n else (n + align - 1) / align * align

structure Extent where
  size : Int
  align : Int
deriving DecidableEq, Repr

structure RecordLayout where
  offsets : List Int
  size : Int
  align : Int
deriving DecidableEq, Repr

namespace RecordLayout

/-- Offsets of fields that follow one that ends at `start`. -/
def offsetsFrom (union : Bool) (start : Int) : List Extent → List Int
  | [] => []
  | field :: fields =>
    let offset := if union then 0 else alignUp start field.align
    offset :: offsetsFrom union (offset + field.size) fields

/-- The end of the field that reaches furthest. -/
def reach (offsets : List Int) (fields : List Extent) : Int :=
  (offsets.zip fields).foldl (fun n f => max n (f.1 + f.2.size)) 0

def strictest (fields : List Extent) : Int := fields.foldl (fun n f => max n f.align) 1

def ofFields (union : Bool) (fields : List Extent) : RecordLayout :=
  let offsets := offsetsFrom union 0 fields
  let align := strictest fields
  { offsets, size := alignUp (reach offsets fields) align, align }

end RecordLayout
end HeaderSurvey
