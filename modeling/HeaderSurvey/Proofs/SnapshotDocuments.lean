import HeaderSurvey.Proofs.Platforms
import HeaderSurvey.Snapshot.Basic

/-! Snapshots in documents. A document leaves out a location that names no file, and with it a line
and a column that such a location may have; everything else is read back as it was written. -/
namespace HeaderSurvey

theorem Kind.decode_encode (k : Kind) : Kind.decode k.encode = .ok k :=
  Decode.oneOf_name (by cases k <;> decide) (by decide)

theorem CallingConvention.decode_encode (k : CallingConvention) :
    CallingConvention.decode k.encode = .ok k :=
  Decode.oneOf_name (by cases k <;> decide) (by decide)

theorem RecordTag.decode_encode (k : RecordTag) : RecordTag.decode k.encode = .ok k :=
  Decode.oneOf_name (by cases k <;> decide) (by decide)

namespace Location

def fits (l : Location) : Bool := isNat32 l.line && isNat32 l.column

theorem decode_encode {l : Location} (h : l.fits = true) : decode l.encode = .ok l := by
  simp only [fits, Bool.and_eq_true] at h
  simp [decode, shape, encode, List.lookup_cons, Decode.nat32_nat, h]

@[simp] theorem isPlain_encode (l : Location) : l.encode.isPlain = true := by simp [encode]

private theorem eq_none {l : Location} (h : l.isNull = true) (hline : l.line = 0)
    (hcolumn : l.column = 0) :
    l = Location.none := by
  cases l
  simp_all [isNull, Location.none]

end Location

/-! ## Uses of types -/

namespace TypeLayer

/-- Whether the numbers of a layer have room in their fields. -/
def fits (l : TypeLayer) : Bool :=
  isInt64 l.size && l.align.all isInt64 && l.elementSize.all isInt64 && l.count.all isInt64 &&
  l.location.fits

/-- The location of a layer, if its document shows one. -/
def location? (l : TypeLayer) : Option Location :=
  if l.location.isNull then none else some l.location

/-- The layer as it is read from its document. -/
def written (l : TypeLayer) : TypeLayer := { l with location := l.location?.getD Location.none }

private theorem location?_written (l : TypeLayer) : l.written.location? = l.location? := by
  by_cases h : l.location.isNull = true
  · have hnone : l.location? = none := if_pos h
    rw [hnone, location?, written, hnone]
    rfl
  · have hsome : l.location? = some l.location := if_neg h
    rw [hsome, location?, written, hsome]
    exact if_neg h

theorem members_eq (l : TypeLayer) : l.members =
    [("name", .string l.name), ("kind", l.kind.encode), ("size_of", .integer l.size)] ++
      Json.optionalMember "align_of" .integer l.align ++
      Json.optionalMember "element_size" .integer l.elementSize ++
      Json.optionalMember "array_size_of" .integer l.count ++
      Json.optionalMember "location" Location.encode l.location? ++
      Json.flagMember "is_anonymous" l.anonymous := by
  unfold members location?
  split <;> rfl

private theorem members_written (l : TypeLayer) : l.written.members = l.members := by
  rw [members_eq, members_eq, location?_written]
  rfl

private theorem names_members (l : TypeLayer) : (l.members.map (·.1)).Sublist
    ["name", "kind", "size_of", "align_of", "element_size", "array_size_of", "location",
      "is_anonymous"] := by
  rw [members_eq]
  simp only [List.map_append]
  exact (((((List.Sublist.refl _).append Json.names_optionalMember).append
    Json.names_optionalMember).append
    Json.names_optionalMember).append Json.names_optionalMember).append Json.names_flagMember

theorem written_eq_self {l : TypeLayer}
    (h : l.location.isNull = true → l.location.line = 0 ∧ l.location.column = 0) :
    l.written = l := by
  have hlocation : l.location?.getD Location.none = l.location := by
    unfold location?
    split
    · next hnull => exact (Location.eq_none hnull (h hnull).1 (h hnull).2).symm
    · rfl
  rw [written, hlocation]

end TypeLayer

namespace TypeUse

/-- Whether the numbers of all layers have room in their fields. -/
def fits (t : TypeUse) : Bool := t.levels.all fun level => level.layer.fits

/-- The use as it is read from its document. -/
def written : TypeUse → TypeUse
  | leaf layer => leaf layer.written
  | layered layer inner => layered layer.written inner.written

theorem encode_eq (t : TypeUse) :
    t.encode = .object (t.layer.members ++ Json.optionalMember "inner_type" encode t.inner?) := by
  cases t with
  | leaf layer => exact congrArg Json.object (List.append_nil _).symm
  | layered layer inner => rfl

@[simp] theorem encode_written (t : TypeUse) : t.written.encode = t.encode := by
  induction t with
  | leaf layer => rw [written, encode, encode, TypeLayer.members_written]
  | layered layer inner ih => rw [written, encode, encode, TypeLayer.members_written, ih]

theorem written_eq_self {t : TypeUse} (h : ∀ level ∈ t.levels, level.layer.written = level.layer) :
    t.written = t := by
  induction t with
  | leaf layer =>
    have hlayer : layer.written = layer := h _ List.mem_cons_self
    rw [written, hlayer]
  | layered layer inner ih =>
    have hlayer : layer.written = layer := h _ List.mem_cons_self
    have hinner := ih fun level hlevel => h level (List.mem_cons_of_mem _ hlevel)
    rw [written, hlayer, hinner]

private theorem decodeLayer_encode {t : TypeUse} (h : t.layer.fits = true) :
    decodeLayer t.encode = .ok t.layer.written := by
  simp only [TypeLayer.fits, Bool.and_eq_true] at h
  obtain ⟨⟨⟨⟨hsize, halign⟩, helement⟩, hcount⟩, hlocation⟩ := h
  have hnames :
      ((t.layer.members ++ Json.optionalMember "inner_type" encode t.inner?).map (·.1)).Nodup := by
    rw [List.map_append]
    apply List.Nodup.sublist (t.layer.names_members.append Json.names_optionalMember)
    decide
  have hplace : readOr (.ok Location.none) Location.decode (t.layer.location?.map Location.encode) =
      .ok (t.layer.location?.getD Location.none) := by
    unfold TypeLayer.location?
    split
    · simp
    · simpa using Location.decode_encode hlocation
  have hread : Fields.read shape t.encode = .ok (Fields.ofMembers shape.names
      (t.layer.members ++ Json.optionalMember "inner_type" encode t.inner?)) := by
    rw [encode_eq]
    exact Fields.read_object hnames
  simp only [decodeLayer, hread, ok_bind]
  simp [shape, TypeLayer.members_eq, List.lookup_append, List.lookup_cons, Kind.decode_encode,
    Decode.int64_integer hsize, Decode.readOr_integer halign, Decode.readOr_integer helement,
    Decode.readOr_integer hcount, hplace, TypeLayer.written]

private theorem decodeMember_eq (members : List (String × Json)) :
    decodeMember members = readOr (.ok none) (Decode.nullable decode)
      (members.lookup "inner_type") := by
  induction members with
  | nil => rfl
  | cons m members ih =>
    rw [decodeMember, List.lookup_cons]
    by_cases h : m.1 = "inner_type"
    · simp [h, Decode.nullable]
    · have hne : ("inner_type" == m.1) = false := beq_false_of_ne (Ne.symm h)
      rw [if_neg h, hne, ih]

theorem decode_layer {t : TypeUse} (h : t.layer.fits = true)
    (hinner : ∀ inner ∈ t.inner?, decode inner.encode = .ok inner.written) :
    decode t.encode = .ok (ofLayer t.layer.written (t.inner?.map written)) := by
  have hlayer := decodeLayer_encode h
  have hlookup : t.layer.members.lookup "inner_type" = none := by
    simp [TypeLayer.members_eq, List.lookup_append, List.lookup_cons]
  have hmember : decodeMember
      (t.layer.members ++ Json.optionalMember "inner_type" encode t.inner?) =
      .ok (t.inner?.map written) := by
    rw [decodeMember_eq, List.lookup_append, hlookup, Json.lookup_optionalMember]
    cases hcase : t.inner? with
    | none => simp
    | some inner =>
      have hnull : inner.encode ≠ .null := by simp [encode_eq inner]
      simpa using Decode.nullable_some hnull (hinner inner hcase)
  rw [encode_eq] at hlayer ⊢
  simp [decode, hlayer, hmember]

theorem decode_encode {t : TypeUse} (h : t.fits = true) : decode t.encode = .ok t.written := by
  simp only [fits, List.all_eq_true] at h
  induction t with
  | leaf layer => exact decode_layer (h _ List.mem_cons_self) (by simp [inner?])
  | layered layer inner ih =>
    have hinner := ih fun level hlevel => h level (List.mem_cons_of_mem _ hlevel)
    apply decode_layer (h _ List.mem_cons_self)
    intro other hother
    cases hother
    exact hinner

@[simp] theorem isPlain_encode (t : TypeUse) : t.encode.isPlain = true := by
  have hmembers : ∀ layer : TypeLayer, (layer.members.all fun m => m.2.isPlain) = true := by
    intro layer
    simp [TypeLayer.members_eq, Kind.encode]
  induction t with
  | leaf layer => simpa [encode] using hmembers layer
  | layered layer inner ih => simpa [encode, ih] using hmembers layer

end TypeUse

/-! ## Declarations -/

def Node.fits : Node → Bool
  | macroObject m => m.location.fits
  | globalVariable v => v.location.fits && v.type.fits
  | function f =>
    f.location.fits && f.result.fits && f.parameters.all fun p => p.location.fits && p.type.fits
  | record r =>
    r.location.fits && isInt64 r.size && r.align.all isInt64 &&
      r.fields.all fun f => f.location.fits && f.type.fits && isInt64 f.offset
  | enum e =>
    e.location.fits && isInt64 e.size && e.integerType.fits && e.values.all fun v => isInt64 v.value
  | typeAlias a => a.location.fits && a.underlying.fits
  | opaqueType o => o.location.fits && isInt64 o.size
  | functionPointer p =>
    p.location.fits && isInt64 p.size && p.result.fits && p.parameters.all fun q => q.type.fits
  | pointer p => p.location.fits && isInt64 p.size && p.pointee.fits
  | array a => a.location.fits && isInt64 a.size && a.element.fits && a.count.all isInt64
  | primitive p => p.location.fits && isInt64 p.size

theorem MacroObject.decode_encode {m : MacroObject} (h : (Node.macroObject m).fits = true) :
    MacroObject.decode m.encode = .ok m := by
  obtain ⟨name, location, tokens, value, typeName⟩ := m
  have hlocation := Location.decode_encode h
  cases typeName <;>
    simp [MacroObject.decode, MacroObject.encode, Json.optionalMember, List.lookup_cons, hlocation]

namespace GlobalVariable

def written (v : GlobalVariable) : GlobalVariable := { v with type := v.type.written }

theorem decode_encode {v : GlobalVariable} (h : (Node.globalVariable v).fits = true) :
    decode v.encode = .ok v.written := by
  simp only [Node.fits, Bool.and_eq_true] at h
  simp [decode, encode, List.lookup_cons, Location.decode_encode h.1, TypeUse.decode_encode h.2,
    written]

end GlobalVariable

namespace FunctionParameter

def written (p : FunctionParameter) : FunctionParameter := { p with type := p.type.written }

theorem decode_encode {p : FunctionParameter} (hlocation : p.location.fits = true)
    (htype : p.type.fits = true) :
    decode p.encode = .ok p.written := by
  simp [decode, encode, List.lookup_cons, Location.decode_encode hlocation,
    TypeUse.decode_encode htype, written]

end FunctionParameter

namespace FunctionDecl

def written (f : FunctionDecl) : FunctionDecl :=
  { f with result := f.result.written, parameters := f.parameters.map FunctionParameter.written }

theorem decode_encode {f : FunctionDecl} (h : (Node.function f).fits = true) :
    decode f.encode = .ok f.written := by
  simp only [Node.fits, Bool.and_eq_true, List.all_eq_true] at h
  obtain ⟨⟨hlocation, hresult⟩, hparameters⟩ := h
  have hlist : Decode.list FunctionParameter.decode
      (.ofList FunctionParameter.encode f.parameters) =
      .ok (f.parameters.map FunctionParameter.written) := by
    apply Decode.list_ofList
    intro p hp
    exact FunctionParameter.decode_encode (hparameters p hp).1 (hparameters p hp).2
  cases hvariadic : f.variadic <;>
    simp [decode, encode, Json.flagMember, List.lookup_cons, Location.decode_encode hlocation,
      CallingConvention.decode_encode, TypeUse.decode_encode hresult, hlist, hvariadic, written]

end FunctionDecl

namespace RecordField

def written (f : RecordField) : RecordField := { f with type := f.type.written }

theorem decode_encode {f : RecordField} (hlocation : f.location.fits = true)
    (htype : f.type.fits = true) (hoffset : isInt64 f.offset = true) :
    decode f.encode = .ok f.written := by
  simp [decode, encode, List.lookup_cons, Location.decode_encode hlocation,
    TypeUse.decode_encode htype, Decode.int64_integer hoffset, written]

end RecordField

namespace RecordDecl

def written (d : RecordDecl) : RecordDecl := { d with fields := d.fields.map RecordField.written }

theorem decode_encode {d : RecordDecl} (h : (Node.record d).fits = true) :
    decode d.encode = .ok d.written := by
  simp only [Node.fits, Bool.and_eq_true, List.all_eq_true] at h
  obtain ⟨⟨⟨hlocation, hsize⟩, halign⟩, hfields⟩ := h
  have hlist : Decode.list RecordField.decode (.ofList RecordField.encode d.fields) =
      .ok (d.fields.map RecordField.written) := by
    apply Decode.list_ofList
    intro f hf
    obtain ⟨⟨hplace, htype⟩, hoffset⟩ := hfields f hf
    exact RecordField.decode_encode hplace htype hoffset
  obtain ⟨tag, name, location, size, align, fields⟩ := d
  cases align with
  | none =>
    simp [decode, encode, Json.optionalMember, List.lookup_cons, RecordTag.decode_encode,
      Location.decode_encode hlocation, Decode.int64_integer hsize, hlist, written]
  | some align =>
    have hsome : Decode.nullable Decode.int64 (.integer align) = .ok (some align) :=
      Decode.nullable_some (by simp) (Decode.int64_integer halign)
    simp [decode, encode, Json.optionalMember, List.lookup_cons, RecordTag.decode_encode,
      Location.decode_encode hlocation, Decode.int64_integer hsize, hsome, hlist, written]

end RecordDecl

theorem EnumValue.decode_encode {v : EnumValue} (h : isInt64 v.value = true) :
    EnumValue.decode v.encode = .ok v := by
  simp [EnumValue.decode, EnumValue.encode, List.lookup_cons, Decode.int64_integer h]

namespace EnumDecl

def written (e : EnumDecl) : EnumDecl := { e with integerType := e.integerType.written }

theorem decode_encode {e : EnumDecl} (h : (Node.enum e).fits = true) :
    decode e.encode = .ok e.written := by
  simp only [Node.fits, Bool.and_eq_true, List.all_eq_true] at h
  obtain ⟨⟨⟨hlocation, hsize⟩, htype⟩, hvalues⟩ := h
  have hlist : Decode.list EnumValue.decode (.ofList EnumValue.encode e.values) = .ok e.values :=
    Decode.list_same fun v hv => EnumValue.decode_encode (hvalues v hv)
  simp [decode, encode, List.lookup_cons, Location.decode_encode hlocation,
    Decode.int64_integer hsize, TypeUse.decode_encode htype, hlist, written]

end EnumDecl

namespace TypeAlias

def written (a : TypeAlias) : TypeAlias := { a with underlying := a.underlying.written }

theorem decode_encode {a : TypeAlias} (h : (Node.typeAlias a).fits = true) :
    decode a.encode = .ok a.written := by
  simp only [Node.fits, Bool.and_eq_true] at h
  simp [decode, encode, List.lookup_cons, Location.decode_encode h.1, TypeUse.decode_encode h.2,
    written]

end TypeAlias

theorem OpaqueType.decode_encode {o : OpaqueType} (h : (Node.opaqueType o).fits = true) :
    OpaqueType.decode o.encode = .ok o := by
  simp only [Node.fits, Bool.and_eq_true] at h
  simp [OpaqueType.decode, OpaqueType.encode, List.lookup_cons, Location.decode_encode h.1,
    Decode.int64_integer h.2]

namespace PointerParameter

def written (p : PointerParameter) : PointerParameter := { p with type := p.type.written }

theorem decode_encode {p : PointerParameter} (h : p.type.fits = true) :
    decode p.encode = .ok p.written := by
  simp [decode, encode, List.lookup_cons, TypeUse.decode_encode h, written]

end PointerParameter

namespace FunctionPointer

def written (p : FunctionPointer) : FunctionPointer :=
  { p with result := p.result.written, parameters := p.parameters.map PointerParameter.written }

theorem decode_encode {p : FunctionPointer} (h : (Node.functionPointer p).fits = true) :
    decode p.encode = .ok p.written := by
  simp only [Node.fits, Bool.and_eq_true, List.all_eq_true] at h
  obtain ⟨⟨⟨hlocation, hsize⟩, hresult⟩, hparameters⟩ := h
  have hlist : Decode.list PointerParameter.decode (.ofList PointerParameter.encode p.parameters) =
      .ok (p.parameters.map PointerParameter.written) :=
    Decode.list_ofList fun q hq => PointerParameter.decode_encode (hparameters q hq)
  simp [decode, encode, List.lookup_cons, Location.decode_encode hlocation,
    Decode.int64_integer hsize, CallingConvention.decode_encode, TypeUse.decode_encode hresult,
    hlist, written]

end FunctionPointer

namespace Node

/-- The declaration as it is read from its document. -/
def written : Node → Node
  | globalVariable v => globalVariable v.written
  | function f => function f.written
  | record r => record r.written
  | enum e => enum e.written
  | typeAlias a => typeAlias a.written
  | functionPointer p => functionPointer p.written
  | n => n

theorem encode_written (n : Node) : n.written.encode = n.encode := by
  cases n <;> simp [written, encode, GlobalVariable.written, GlobalVariable.encode,
    FunctionDecl.written, FunctionDecl.encode, FunctionParameter.written, FunctionParameter.encode,
    RecordDecl.written,
    RecordDecl.encode, RecordField.written, RecordField.encode, EnumDecl.written, EnumDecl.encode,
    TypeAlias.written, TypeAlias.encode, FunctionPointer.written, FunctionPointer.encode,
    PointerParameter.written, PointerParameter.encode, Json.ofList]

theorem isPlain_encode (n : Node) : n.encode.isPlain = true := by
  cases n <;> simp [encode, MacroObject.encode, GlobalVariable.encode, FunctionDecl.encode,
    FunctionParameter.encode, RecordDecl.encode, RecordField.encode, EnumDecl.encode,
    EnumValue.encode,
    TypeAlias.encode, OpaqueType.encode, FunctionPointer.encode, PointerParameter.encode,
    PointerType.encode,
    ArrayType.encode, PrimitiveType.encode, CallingConvention.encode, RecordTag.encode]

theorem written_eq_self {n : Node} (h : ∀ t ∈ n.uses, t.written = t) : n.written = n := by
  cases n with
  | macroObject | opaqueType | pointer | array | primitive => rfl
  | globalVariable v =>
    have htype : v.type.written = v.type := h _ List.mem_cons_self
    rw [written, GlobalVariable.written, htype]
  | function f =>
    have hresult : f.result.written = f.result := h _ List.mem_cons_self
    have hparameters : f.parameters.map FunctionParameter.written = f.parameters := by
      apply map_eq_self
      intro p hp
      have htype : p.type.written = p.type := h _ (List.mem_cons_of_mem _ (List.mem_map_of_mem hp))
      rw [FunctionParameter.written, htype]
    rw [written, FunctionDecl.written, hresult, hparameters]
  | record r =>
    have hfields : r.fields.map RecordField.written = r.fields := by
      apply map_eq_self
      intro f hf
      have htype : f.type.written = f.type := h _ (List.mem_map_of_mem hf)
      rw [RecordField.written, htype]
    rw [written, RecordDecl.written, hfields]
  | enum e =>
    have htype : e.integerType.written = e.integerType := h _ List.mem_cons_self
    rw [written, EnumDecl.written, htype]
  | typeAlias a =>
    have htype : a.underlying.written = a.underlying := h _ List.mem_cons_self
    rw [written, TypeAlias.written, htype]
  | functionPointer p =>
    have hresult : p.result.written = p.result := h _ List.mem_cons_self
    have hparameters : p.parameters.map PointerParameter.written = p.parameters := by
      apply map_eq_self
      intro q hq
      have htype : q.type.written = q.type := h _ (List.mem_cons_of_mem _ (List.mem_map_of_mem hq))
      rw [PointerParameter.written, htype]
    rw [written, FunctionPointer.written, hresult, hparameters]

end Node

/-! ## Snapshots -/

namespace Snapshot

def nodes (s : Snapshot) : List Node :=
  s.macroObjects.entries.map (.macroObject ·.2) ++ s.globals.entries.map (.globalVariable ·.2) ++
    s.functions.entries.map (.function ·.2) ++ s.records.entries.map (.record ·.2) ++
    s.enums.entries.map (.enum ·.2) ++ s.typeAliases.entries.map (.typeAlias ·.2) ++
    s.opaqueTypes.entries.map (.opaqueType ·.2) ++
      s.functionPointers.entries.map (.functionPointer ·.2)

/-- The snapshot as it is read from its document. -/
def written (s : Snapshot) : Snapshot :=
  { s with
    globals := s.globals.map GlobalVariable.written
    functions := s.functions.map FunctionDecl.written
    records := s.records.map RecordDecl.written
    enums := s.enums.map EnumDecl.written
    typeAliases := s.typeAliases.map TypeAlias.written
    functionPointers := s.functionPointers.map FunctionPointer.written }

theorem forall_nodes {s : Snapshot} {P : Node → Prop} : (∀ n ∈ s.nodes, P n) ↔
    (∀ e ∈ s.macroObjects.entries, P (.macroObject e.2)) ∧
      (∀ e ∈ s.globals.entries, P (.globalVariable e.2)) ∧
      (∀ e ∈ s.functions.entries, P (.function e.2)) ∧ (∀ e ∈ s.records.entries, P (.record e.2)) ∧
      (∀ e ∈ s.enums.entries, P (.enum e.2)) ∧ (∀ e ∈ s.typeAliases.entries, P (.typeAlias e.2)) ∧
      (∀ e ∈ s.opaqueTypes.entries, P (.opaqueType e.2)) ∧
      ∀ e ∈ s.functionPointers.entries, P (.functionPointer e.2) := by
  simp only [nodes, List.forall_mem_append, List.forall_mem_map, and_assoc]

theorem decode_encode {s : Snapshot} (hrequested : s.requested.isValid = true)
    (hactual : s.actual.isValid = true) (h : ∀ n ∈ s.nodes, n.fits = true) :
    decode s.encode = .ok s.written := by
  obtain ⟨hmacros, hglobals, hfunctions, hrecords, henums, haliases, hhidden, hpointers⟩ :=
    forall_nodes.1 h
  have hmacros' := NameMap.decode_same fun e he => MacroObject.decode_encode (hmacros e he)
  have hglobals' := NameMap.decode_encode fun e he => GlobalVariable.decode_encode (hglobals e he)
  have hfunctions' := NameMap.decode_encode fun e he => FunctionDecl.decode_encode (hfunctions e he)
  have hrecords' := NameMap.decode_encode fun e he => RecordDecl.decode_encode (hrecords e he)
  have henums' := NameMap.decode_encode fun e he => EnumDecl.decode_encode (henums e he)
  have haliases' := NameMap.decode_encode fun e he => TypeAlias.decode_encode (haliases e he)
  have hhidden' := NameMap.decode_same fun e he => OpaqueType.decode_encode (hhidden e he)
  have hpointers' := NameMap.decode_encode fun e he =>
    FunctionPointer.decode_encode (hpointers e he)
  simp [decode, shape, encode, List.lookup_cons, Platform.decode_encode hrequested,
    Platform.decode_encode hactual, hmacros', hglobals', hfunctions', hrecords', henums', haliases',
    hhidden', hpointers', written]

theorem encode_written (s : Snapshot) : s.written.encode = s.encode := by
  have hglobals : (s.globals.map GlobalVariable.written).encode GlobalVariable.encode = _ :=
    NameMap.encode_map fun v => Node.encode_written (.globalVariable v)
  have hfunctions : (s.functions.map FunctionDecl.written).encode FunctionDecl.encode = _ :=
    NameMap.encode_map fun f => Node.encode_written (.function f)
  have hrecords : (s.records.map RecordDecl.written).encode RecordDecl.encode = _ :=
    NameMap.encode_map fun r => Node.encode_written (.record r)
  have henums : (s.enums.map EnumDecl.written).encode EnumDecl.encode = _ :=
    NameMap.encode_map fun e => Node.encode_written (.enum e)
  have haliases : (s.typeAliases.map TypeAlias.written).encode TypeAlias.encode = _ :=
    NameMap.encode_map fun a => Node.encode_written (.typeAlias a)
  have hpointers : (s.functionPointers.map FunctionPointer.written).encode
      FunctionPointer.encode = _ :=
    NameMap.encode_map fun p => Node.encode_written (.functionPointer p)
  simp only [encode, written, hglobals, hfunctions, hrecords, henums, haliases, hpointers]

theorem written_eq_self {s : Snapshot} (h : ∀ n ∈ s.nodes, n.written = n) : s.written = s := by
  obtain ⟨-, hglobals, hfunctions, hrecords, henums, haliases, -, hpointers⟩ := forall_nodes.1 h
  have hglobals' := NameMap.map_eq_self fun e he => Node.globalVariable.inj (hglobals e he)
  have hfunctions' := NameMap.map_eq_self fun e he => Node.function.inj (hfunctions e he)
  have hrecords' := NameMap.map_eq_self fun e he => Node.record.inj (hrecords e he)
  have henums' := NameMap.map_eq_self fun e he => Node.enum.inj (henums e he)
  have haliases' := NameMap.map_eq_self fun e he => Node.typeAlias.inj (haliases e he)
  have hpointers' := NameMap.map_eq_self fun e he => Node.functionPointer.inj (hpointers e he)
  rw [written, hglobals', hfunctions', hrecords', henums', haliases', hpointers']

theorem isPlain_encode (s : Snapshot) : s.encode.isPlain = true := by
  have hall := forall_nodes.1 fun n (_ : n ∈ s.nodes) => n.isPlain_encode
  simp only [Node.encode] at hall
  simpa [encode] using hall

end Snapshot

/-- A snapshot of valid platforms whose declarations `fits` their fields is read back by `decode`
from its document, and by `ofText` from its text unless that is nested too deep. What is read has
the same document. It is the snapshot itself if no level of a use has a line or a column in a
location that `isNull`. -/
theorem snapshot_restored {s : Snapshot} (hrequested : s.requested.isValid = true)
    (hactual : s.actual.isValid = true) (hfits : ∀ n ∈ s.nodes, n.fits = true) :
    ∃ r, Snapshot.decode s.encode = .ok r ∧ r.encode = s.encode ∧
      (s.encode.nesting ≤ Json.maxNesting → Snapshot.ofText s.toText = .ok r) ∧
      ((∀ n ∈ s.nodes, ∀ t ∈ n.uses, ∀ level ∈ t.levels, level.layer.location.isNull = true →
        level.layer.location.line = 0 ∧ level.layer.location.column = 0) → r = s) := by
  have hdecode := Snapshot.decode_encode hrequested hactual hfits
  refine ⟨s.written, hdecode, s.encode_written, ?_, ?_⟩
  · intro hnesting
    have htext : Json.read? s.toText = some s.encode := Json.read?_pretty s.isPlain_encode hnesting
    rw [Snapshot.ofText, Decoder.ofText_eq htext, hdecode]
  · intro hplaced
    apply Snapshot.written_eq_self
    intro n hn
    apply Node.written_eq_self
    intro t ht
    apply TypeUse.written_eq_self
    intro level hlevel
    exact TypeLayer.written_eq_self (hplaced n hn t ht level hlevel)

/-- A function of an array of pointers to a structure, and the structure with such a pointer in
it. -/
def chainSnapshot : Snapshot :=
  let place : Location := ⟨"chain.h", "lib/chain.h", 3, 1⟩
  let target : TypeLayer := { name := "link", kind := .struct, size := 8, location := place }
  let pointer : TypeLayer := { name := "link *", kind := .pointer, size := 8, align := some 8 }
  let row : TypeLayer :=
    { name := "link *[4]", kind := .array, size := 32, elementSize := some 8, count := some 4 }
  let link : TypeUse := .layered pointer (.leaf target)
  let join : FunctionDecl :=
    { name := "join", location := place, convention := .sysV64, result := link,
      parameters := [⟨"links", place, .layered row link⟩], variadic := true }
  let record : RecordDecl :=
    { tag := .struct, name := "link", location := place, size := 8, align := some 8,
      fields := [⟨"next", place, link, 0⟩] }
  { fileName := "chain.h", requested := .linuxGnu, actual := .windowsMsvc,
    functions := NameMap.empty.insert "join" join, records := NameMap.empty.insert "link" record }

theorem chainSnapshot_restored :
    chainSnapshot.requested.isValid = true ∧ chainSnapshot.actual.isValid = true ∧
    (∀ n ∈ chainSnapshot.nodes, n.fits = true) ∧
    (∃ n ∈ chainSnapshot.nodes, ∃ t ∈ n.uses, ∃ level ∈ t.levels,
      level.layer.location.isNull = true) ∧
    Snapshot.decode chainSnapshot.encode = .ok chainSnapshot ∧
    Snapshot.ofText chainSnapshot.toText = .ok chainSnapshot := by
  have hrequested : chainSnapshot.requested.isValid = true := by decide
  have hactual : chainSnapshot.actual.isValid = true := by decide
  have hfits : ∀ n ∈ chainSnapshot.nodes, n.fits = true := by decide
  have hnull : ∃ n ∈ chainSnapshot.nodes, ∃ t ∈ n.uses, ∃ level ∈ t.levels,
      level.layer.location.isNull = true := by decide
  obtain ⟨r, hdecode, -, htext, hsame⟩ := snapshot_restored hrequested hactual hfits
  obtain rfl := hsame (by decide)
  exact ⟨hrequested, hactual, hfits, hnull, hdecode, htext (by decide)⟩

end HeaderSurvey
