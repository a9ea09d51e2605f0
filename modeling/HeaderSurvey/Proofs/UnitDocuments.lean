import HeaderSurvey.Proofs.Records
import HeaderSurvey.Unit.Validation

/-! Units in documents. A unit whose numbers have room in their fields is read back from its
document, and from its text, as it was; the check of a unit that was read is the check of the one
that was written. -/
namespace HeaderSurvey

/-! ## Vocabularies -/

theorem CursorKind.decode_encode (k : CursorKind) : CursorKind.decode k.encode = .ok k :=
  Decode.oneOf_name (by cases k <;> decide) (by decide)

theorem TypeKind.decode_encode (k : TypeKind) : TypeKind.decode k.encode = .ok k :=
  Decode.oneOf_name (by cases k <;> decide) (by decide)

theorem Linkage.decode_encode (k : Linkage) : Linkage.decode k.encode = .ok k :=
  Decode.oneOf_name (by cases k <;> decide) (by decide)

theorem DeclaredConvention.decode_encode (k : DeclaredConvention) :
    DeclaredConvention.decode k.encode = .ok k :=
  Decode.oneOf_name (by cases k <;> decide) (by decide)

/-! ## Links -/

theorem Decode.nullable_nat {link : Option Nat} (h : link.all isNat32 = true) :
    Decode.nullable Decode.nat32 (.ofOption .nat link) = .ok link := by
  apply Decode.nullable_ofOption
  · intro n hnull
    cases hnull
  · intro n hn
    exact Decode.nat32_nat ((Option.all_eq_true _ _).1 h n hn)

private theorem Decode.list_nat {links : List Nat} (h : links.all isNat32 = true) :
    Decode.list Decode.nat32 (.ofList .nat links) = .ok links := by
  apply Decode.list_same
  intro n hn
  exact Decode.nat32_nat (List.all_eq_true.1 h n hn)

/-! ## Entries -/

namespace FilePosition

def fits (p : FilePosition) : Bool := isNat32 p.line && isNat32 p.column

theorem decode_encode {p : FilePosition} (h : p.fits = true) : decode p.encode = .ok p := by
  simp only [fits, Bool.and_eq_true] at h
  have hfile : Decode.nullable Decode.text (.ofOption .string p.file) = .ok p.file :=
    Decode.nullable_ofOption (fun _ hnull => by cases hnull) fun _ _ => rfl
  simp [decode, encode, List.lookup_cons, hfile, Decode.nat32_nat, h]

end FilePosition

namespace Cursor

/-- Whether the numbers of a cursor have room in their fields. -/
def fits (c : Cursor) : Bool :=
  isNat32 c.type && c.position.fits && c.children.all isNat32 && c.underlying.all isNat32 &&
    c.integerType.all isNat32 && isInt64 c.offsetBits && isInt64 c.enumValue

theorem decode_encode {c : Cursor} (h : c.fits = true) : decode c.encode = .ok c := by
  simp only [fits, Bool.and_eq_true] at h
  obtain ⟨⟨⟨⟨⟨⟨htype, hposition⟩, hchildren⟩, hunderlying⟩, hinteger⟩, hoffset⟩, hvalue⟩ := h
  simp [decode, shape, encode, List.lookup_cons, CursorKind.decode_encode, Linkage.decode_encode,
    FilePosition.decode_encode hposition, Decode.nat32_nat htype, Decode.list_nat hchildren,
    Decode.nullable_nat hunderlying,
    Decode.nullable_nat hinteger, Decode.int64_integer hoffset, Decode.int64_integer hvalue]

end Cursor

namespace TypeEntry

/-- Whether the numbers of a type have room in their fields. -/
def fits (t : TypeEntry) : Bool :=
  isInt64 t.size && isInt64 t.align && isInt64 t.arraySize && t.declaration.all isNat32 &&
    t.pointee.all isNat32 && t.element.all isNat32 && t.modified.all isNat32 &&
    t.named.all isNat32 &&
    t.canonical.all isNat32 && t.result.all isNat32 && t.arguments.all isNat32 &&
    t.fields.all isNat32

theorem decode_encode {t : TypeEntry} (h : t.fits = true) : decode t.encode = .ok t := by
  simp only [fits, Bool.and_eq_true] at h
  simp [decode, shape, encode, List.lookup_cons, TypeKind.decode_encode,
    DeclaredConvention.decode_encode, Decode.nullable_nat, Decode.list_nat, Decode.int64_integer, h]

end TypeEntry

theorem TargetInfo.decode_encode {t : TargetInfo} (h : isNat32 t.pointerBits = true) :
    TargetInfo.decode t.encode = .ok t := by
  simp [TargetInfo.decode, TargetInfo.encode, List.lookup_cons, Decode.nat32_nat h]

namespace TranslationUnit

/-- Whether the numbers of a unit have room in their fields. -/
def fits (u : TranslationUnit) : Bool :=
  isNat32 u.target.pointerBits && u.cursors.toList.all Cursor.fits &&
  u.types.toList.all TypeEntry.fits

theorem decode_encode {u : TranslationUnit} (h : u.fits = true) : decode u.encode = .ok u := by
  simp only [fits, Bool.and_eq_true, List.all_eq_true] at h
  obtain ⟨⟨hbits, hcursors⟩, htypes⟩ := h
  have hcursors' : Decode.list Cursor.decode (.ofList Cursor.encode u.cursors.toList) =
      .ok u.cursors.toList :=
    Decode.list_same fun c hc => Cursor.decode_encode (hcursors c hc)
  have htypes' : Decode.list TypeEntry.decode (.ofList TypeEntry.encode u.types.toList) =
      .ok u.types.toList :=
    Decode.list_same fun t ht => TypeEntry.decode_encode (htypes t ht)
  simp [decode, encode, List.lookup_cons, TargetInfo.decode_encode hbits, hcursors', htypes']

theorem isPlain_encode (u : TranslationUnit) : u.encode.isPlain = true := by
  simp [encode, TargetInfo.encode, Cursor.encode, CursorKind.encode, Linkage.encode,
    FilePosition.encode, TypeEntry.encode, TypeKind.encode, DeclaredConvention.encode]

theorem nesting_encode_le (u : TranslationUnit) : u.encode.nesting ≤ 4 := by
  have hlink : ∀ link : Option Nat, (Json.ofOption .nat link).nesting = 0 :=
    fun link => Json.nesting_ofOption fun _ => rfl
  have hlinks : ∀ links : List Nat, (Json.ofList .nat links).nesting ≤ 1 :=
    fun links => Json.nesting_ofList_le.2 fun n _ => Nat.le_refl 0
  have htexts : ∀ texts : List String, (Json.ofList .string texts).nesting ≤ 1 :=
    fun texts => Json.nesting_ofList_le.2 fun s _ => Nat.le_refl 0
  have htarget : u.target.encode.nesting ≤ 1 := by
    apply Json.nesting_object_le.2
    simp
  have hposition : ∀ p : FilePosition, p.encode.nesting ≤ 1 := by
    intro p
    have hfile : (Json.ofOption .string p.file).nesting = 0 := Json.nesting_ofOption fun _ => rfl
    apply Json.nesting_object_le.2
    simp [hfile]
  have hcursor : ∀ c : Cursor, c.encode.nesting ≤ 2 := by
    intro c
    apply Json.nesting_object_le.2
    simp [CursorKind.encode, Linkage.encode, hposition, hlink, hlinks, htexts]
  have htype : ∀ t : TypeEntry, t.encode.nesting ≤ 2 := by
    intro t
    apply Json.nesting_object_le.2
    simp [TypeKind.encode, DeclaredConvention.encode, hlink, hlinks]
  have hcursors : (Json.ofList Cursor.encode u.cursors.toList).nesting ≤ 3 :=
    Json.nesting_ofList_le.2 fun c _ => hcursor c
  have htypes : (Json.ofList TypeEntry.encode u.types.toList).nesting ≤ 3 :=
    Json.nesting_ofList_le.2 fun t _ => htype t
  apply Json.nesting_object_le.2
  simp [hcursors, htypes, Nat.le_trans htarget]

theorem ofText_eq_validate {text : String} {document : Json} {u : TranslationUnit}
    (hread : Json.read? text = some document) (hdecode : decode document = .ok u) :
    ofText text = u.validate := by
  simp only [ofText, hread, ofDocument, hdecode]

end TranslationUnit

/-- A unit that `fits` its fields is read back by `decode` as it was, whether it can be used or not.
So `ofText` of its text is that unit if it has no `fault?`, and that fault otherwise. -/
theorem unit_restored {u : TranslationUnit} (h : u.fits = true) :
    TranslationUnit.decode u.encode = .ok u ∧
      (u.fault? = none → TranslationUnit.ofText u.toText = .ok u) ∧
      ∀ fault, u.fault? = some fault →
        TranslationUnit.ofText u.toText = .error (.invalidUnit fault) := by
  have hdecode := TranslationUnit.decode_encode h
  have hnesting : u.encode.nesting ≤ Json.maxNesting := Nat.le_trans u.nesting_encode_le (by decide)
  have htext : Json.read? u.toText = some u.encode := Json.read?_pretty u.isPlain_encode hnesting
  have hchecked := TranslationUnit.ofText_eq_validate htext hdecode
  refine ⟨hdecode, ?_, ?_⟩
  · intro hnone
    rw [hchecked, TranslationUnit.validate, hnone]
  · intro fault hsome
    rw [hchecked, TranslationUnit.validate, hsome]

/-- A unit with the largest and the smallest numbers, and a cursor whose type is not there. -/
def danglingUnit : TranslationUnit :=
  { filePath := "lost.h"
    target := { triple := "x86_64-unknown-linux-gnu", pointerBits := 64 }
    cursors := #[
      { kind := .translationUnit, spelling := "lost.h", children := [2] },
      { kind := .noDeclFound },
      { kind := .varDecl, spelling := "caf\u00e9 \"\\\x01", type := 0xFFFFFFFF,
        linkage := .external,
        position := { file := some "lost.h", line := 0xFFFFFFFF, column := 1 },
        offsetBits := -0x8000000000000000, enumValue := 0x7FFFFFFFFFFFFFFF }]
    types := #[{ kind := .invalid }] }

theorem danglingUnit_restored :
    danglingUnit.fits = true ∧ danglingUnit.fault? = some (.cursorHandle 2) ∧
    TranslationUnit.decode danglingUnit.encode = .ok danglingUnit ∧
    TranslationUnit.ofText danglingUnit.toText = .error (.invalidUnit (.cursorHandle 2)) := by
  have hfits : danglingUnit.fits = true := by decide
  have hfault : danglingUnit.fault? = some (.cursorHandle 2) := by decide
  obtain ⟨hdecode, -, hchecked⟩ := unit_restored hfits
  exact ⟨hfits, hfault, hdecode, hchecked _ hfault⟩

end HeaderSurvey
