import HeaderSurvey.Survey.Assembly
import Mathlib.Tactic.SplitIfs

/-! The snapshot as a set of shelves, one for each sort of declaration. The assembly of a list of
nodes keeps on each shelf the first node of each name. -/
namespace HeaderSurvey

namespace NameMap

variable {α : Type}

theorem lookup_cons (e : String × α) (entries : List (String × α)) (key : String) :
    (e :: entries).lookup key = if key = e.1 then some e.2 else entries.lookup key := by
  obtain ⟨name, a⟩ := e
  rw [List.lookup_cons]
  split <;> simp_all

private theorem lookup_place (name key : String) (a : α) (entries : List (String × α)) :
    (place name a entries).lookup key = if key = name then some a else entries.lookup key := by
  induction entries with
  | nil => simp [place, lookup_cons]
  | cons e rest ih =>
    rw [place]
    split
    · rw [lookup_cons]
    · split
      · next heq =>
        subst heq
        simp only [lookup_cons]
        split_ifs <;> rfl
      · next hne =>
        simp only [lookup_cons, ih]
        split_ifs <;> simp_all

private theorem get?_insert (m : NameMap α) (name key : String) (a : α) :
    (m.insert name a).get? key = if key = name then some a else m.get? key :=
  lookup_place name key a m.entries

theorem get?_insert_new (m : NameMap α) (name key : String) (a : α) :
    (if m.contains name then m else m.insert name a).get? key =
      (m.get? key).or (if name = key then some a else none) := by
  by_cases hk : name = key
  · subst hk
    rw [contains]
    cases hm : m.get? name with
    | none => simp [get?_insert]
    | some b => simp [hm]
  · rw [if_neg hk, Option.or_none]
    split
    · rfl
    · rw [get?_insert, if_neg (Ne.symm hk)]

end NameMap

/-- `struct` and `union` stand on one shelf. -/
def Kind.shelf : Kind → Kind
  | .union => .struct
  | kind => kind

theorem Kind.eq_of_shelf {k kind : Kind} (hk : kind.isRecord = false) (h : k.shelf = kind.shelf) :
    k = kind := by
  have hself : kind.shelf = kind := by cases kind <;> first | rfl | cases hk
  rw [hself] at h
  subst h
  cases k <;> first | rfl | cases hk

/-- The kinds of types that have a place in a snapshot. -/
def Kind.isShelved : Kind → Bool
  | .struct | .union | .enum | .typeAlias | .opaqueType | .functionPointer => true
  | _ => false

theorem Kind.isType_of_isShelved {kind : Kind} (h : kind.isShelved = true) :
    kind.isType = true := by
  cases kind <;> first | rfl | cases h

theorem Kind.isType_shelf (kind : Kind) : kind.shelf.isType = kind.isType := by
  cases kind <;> rfl

theorem Kind.isShelved_shelf (kind : Kind) : kind.shelf.isShelved = kind.isShelved := by
  cases kind <;> rfl

/-- The node of that `name` on the shelf of a kind; pointers, arrays and primitives have none. -/
def Snapshot.find? (s : Snapshot) (name : String) : Kind → Option Node
  | .macroObject => (s.macroObjects.get? name).map .macroObject
  | .globalVariable => (s.globals.get? name).map .globalVariable
  | .function => (s.functions.get? name).map .function
  | .struct | .union => (s.records.get? name).map .record
  | .enum => (s.enums.get? name).map .enum
  | .typeAlias => (s.typeAliases.get? name).map .typeAlias
  | .opaqueType => (s.opaqueTypes.get? name).map .opaqueType
  | .functionPointer => (s.functionPointers.get? name).map .functionPointer
  | .pointer | .array | .primitive => none

/-- Whether `node` goes to the shelf of `kind` under `name`. -/
def Assembly.fits (name : String) (kind : Kind) (node : Node) : Bool :=
  isMapped node && decide (node.kind.shelf = kind.shelf ∧ node.name = name)

theorem Assembly.fits_iff {name : String} {kind : Kind} {node : Node} :
    fits name kind node = true ↔
      isMapped node = true ∧ node.kind.shelf = kind.shelf ∧ node.name = name := by
  simp [fits]

theorem Assembly.isMapped_of_isShelved {r : Node} (h : r.kind.isShelved = true) :
    isMapped r = true := by
  cases r <;> first | rfl | cases h

theorem Snapshot.containsType_iff {s : Snapshot} {name : String} :
    s.containsType name = true ↔
      ∃ kind : Kind, kind.isShelved = true ∧ (s.find? name kind).isSome = true := by
  simp only [containsType, NameMap.contains, Bool.or_eq_true]
  constructor
  · rintro ((((h | h) | h) | h) | h)
    · exact ⟨.struct, rfl, Option.isSome_map.trans h⟩
    · exact ⟨.enum, rfl, Option.isSome_map.trans h⟩
    · exact ⟨.typeAlias, rfl, Option.isSome_map.trans h⟩
    · exact ⟨.opaqueType, rfl, Option.isSome_map.trans h⟩
    · exact ⟨.functionPointer, rfl, Option.isSome_map.trans h⟩
  · rintro ⟨kind, hk, h⟩
    cases kind <;> simp_all [find?, Kind.isShelved]

/-- One shelf of a snapshot: reading it, replacing it, and what goes there. -/
structure Shelf (α : Type) where
  kind : Kind
  wrap : α → Node
  get : Snapshot → NameMap α
  set : Snapshot → NameMap α → Snapshot
  set_get : ∀ s, set s (get s) = s
  find?_set : ∀ s m name k, (set s m).find? name k =
    if kind = k.shelf then (m.get? name).map wrap else s.find? name k
  fits_wrap : ∀ a name k, Assembly.fits name k (wrap a) =
    decide (kind = k.shelf ∧ (wrap a).name = name)
  insert?_wrap : ∀ s a, Assembly.insert? s (wrap a) =
    if (get s).contains (wrap a).name then none else some (set s ((get s).insert (wrap a).name a))

namespace Shelf

def macroObjects : Shelf MacroObject :=
  ⟨.macroObject, .macroObject, (·.macroObjects), fun s m => { s with macroObjects := m },
    fun _ => rfl, fun _ _ _ k => by cases k <;> rfl, fun _ _ _ => rfl, fun _ _ => rfl⟩

def globals : Shelf GlobalVariable :=
  ⟨.globalVariable, .globalVariable, (·.globals), fun s m => { s with globals := m }, fun _ => rfl,
    fun _ _ _ k => by cases k <;> rfl, fun _ _ _ => rfl, fun _ _ => rfl⟩

def functions : Shelf FunctionDecl :=
  ⟨.function, .function, (·.functions), fun s m => { s with functions := m }, fun _ => rfl,
    fun _ _ _ k => by cases k <;> rfl, fun _ _ _ => rfl, fun _ _ => rfl⟩

def records : Shelf RecordDecl :=
  ⟨.struct, .record, (·.records), fun s m => { s with records := m }, fun _ => rfl,
    fun _ _ _ k => by cases k <;> rfl, fun r _ _ => by cases r with | mk tag => cases tag <;> rfl,
    fun _ _ => rfl⟩

def enums : Shelf EnumDecl :=
  ⟨.enum, .enum, (·.enums), fun s m => { s with enums := m }, fun _ => rfl,
    fun _ _ _ k => by cases k <;> rfl, fun _ _ _ => rfl, fun _ _ => rfl⟩

def typeAliases : Shelf TypeAlias :=
  ⟨.typeAlias, .typeAlias, (·.typeAliases), fun s m => { s with typeAliases := m }, fun _ => rfl,
    fun _ _ _ k => by cases k <;> rfl, fun _ _ _ => rfl, fun _ _ => rfl⟩

def opaqueTypes : Shelf OpaqueType :=
  ⟨.opaqueType, .opaqueType, (·.opaqueTypes), fun s m => { s with opaqueTypes := m }, fun _ => rfl,
    fun _ _ _ k => by cases k <;> rfl, fun _ _ _ => rfl, fun _ _ => rfl⟩

def functionPointers : Shelf FunctionPointer :=
  ⟨.functionPointer, .functionPointer, (·.functionPointers),
    fun s m => { s with functionPointers := m }, fun _ => rfl, fun _ _ _ k => by cases k <;> rfl,
    fun _ _ _ => rfl, fun _ _ => rfl⟩

theorem find?_insert {α : Type} (shelf : Shelf α) (s : Snapshot) (a : α) (name : String)
    (k : Kind) :
    ((Assembly.insert? s (shelf.wrap a)).getD s).find? name k =
      (s.find? name k).or (if Assembly.fits name k (shelf.wrap a) then some (shelf.wrap a)
        else none) := by
  have hinsert : (Assembly.insert? s (shelf.wrap a)).getD s =
      shelf.set s (if (shelf.get s).contains (shelf.wrap a).name then shelf.get s
        else (shelf.get s).insert (shelf.wrap a).name a) := by
    rw [shelf.insert?_wrap]
    split
    · exact (shelf.set_get s).symm
    · rfl
  rw [hinsert, shelf.find?_set, NameMap.get?_insert_new, shelf.fits_wrap]
  by_cases hk : shelf.kind = k.shelf
  · have hs : s.find? name k = ((shelf.get s).get? name).map shelf.wrap := by
      rw [← shelf.set_get s, shelf.find?_set, if_pos hk, shelf.set_get]
    rw [if_pos hk, hs]
    by_cases hn : (shelf.wrap a).name = name <;> cases (shelf.get s).get? name <;> simp [hk, hn]
  · simp [hk]

end Shelf

namespace Assembly

theorem snapshot_add (a : Assembly) (node : Node) :
    (a.add node).snapshot = (insert? a.snapshot node).getD a.snapshot := by
  unfold add
  split
  · cases insert? a.snapshot node <;> rfl
  · cases node <;> first | rfl | simp_all [isMapped]

private theorem find?_add (a : Assembly) (node : Node) (name : String) (kind : Kind) :
    (a.add node).snapshot.find? name kind =
      (a.snapshot.find? name kind).or (if fits name kind node then some node else none) := by
  rw [snapshot_add]
  cases node with
  | macroObject m => exact Shelf.macroObjects.find?_insert a.snapshot m name kind
  | globalVariable v => exact Shelf.globals.find?_insert a.snapshot v name kind
  | function f => exact Shelf.functions.find?_insert a.snapshot f name kind
  | record r => exact Shelf.records.find?_insert a.snapshot r name kind
  | enum e => exact Shelf.enums.find?_insert a.snapshot e name kind
  | typeAlias t => exact Shelf.typeAliases.find?_insert a.snapshot t name kind
  | opaqueType o => exact Shelf.opaqueTypes.find?_insert a.snapshot o name kind
  | functionPointer p => exact Shelf.functionPointers.find?_insert a.snapshot p name kind
  | pointer | array | primitive => exact (Option.or_none).symm

/-- `add` keeps what is there: of the nodes that `fits` finds, the first is kept. -/
theorem find?_foldl_add (nodes : List Node) (a : Assembly) (name : String) (kind : Kind) :
    (nodes.foldl add a).snapshot.find? name kind =
      (a.snapshot.find? name kind).or (nodes.find? (fits name kind)) := by
  induction nodes generalizing a with
  | nil => exact (Option.or_none).symm
  | cons node nodes ih =>
    rw [List.foldl_cons, ih, find?_add, List.find?_cons, Option.or_assoc]
    cases fits name kind node <;> rfl

theorem find?_start (nodes : List Node) (file : String) (requested actual : Platform)
    (name : String) (kind : Kind) :
    (nodes.foldl add (start file requested actual)).snapshot.find? name kind =
      nodes.find? (fits name kind) := by
  rw [find?_foldl_add]
  cases kind <;> rfl

end Assembly
end HeaderSurvey
