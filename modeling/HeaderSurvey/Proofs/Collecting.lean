import HeaderSurvey.Proofs.Shelves
import HeaderSurvey.Proofs.Succession
import Mathlib.Data.List.Induction

/-! What becomes of a list of finished nodes. Each node is put on its shelf, or reported because its
name is taken there, or only counted, so that no node is lost: the first of each name on each shelf
is kept, and the reports tell of the others in the order in which they came. -/
namespace HeaderSurvey

namespace NameMap

variable {α : Type}

private theorem length_place {name : String} {a : α} {entries : List (String × α)}
    (h : entries.lookup name = none) : (place name a entries).length = entries.length + 1 := by
  induction entries with
  | nil => rfl
  | cons e rest ih =>
    rw [lookup_cons] at h
    split at h
    · cases h
    · next hne =>
      rw [place, if_neg hne]
      split
      · rfl
      · simp only [List.length_cons, ih h]

theorem size_insert {m : NameMap α} {name : String} (a : α) (h : m.contains name = false) :
    (m.insert name a).size = m.size + 1 :=
  length_place (Option.isSome_eq_false_iff.1 h |> Option.isNone_iff_eq_none.1)

end NameMap

namespace Assembly

variable {s s' : Snapshot} {node : Node}

theorem isMapped_eq_false_iff :
    isMapped node = false ↔ node.kind ∈ [.pointer, .array, .primitive] := by
  cases node with
  | record r =>
    have hkind : (Node.record r).kind = .struct ∨ (Node.record r).kind = .union := by
      rw [Node.kind]
      cases r.tag
      · exact Or.inl rfl
      · exact Or.inr rfl
    rcases hkind with hkind | hkind <;> simp [hkind, isMapped]
  | _ => simp [isMapped, Node.kind]

/-- `insert?` refuses a node exactly if `find?` has one of its name and kind. -/
theorem insert?_eq_none_iff (h : isMapped node = true) :
    insert? s node = none ↔ (s.find? node.name node.kind).isSome = true := by
  cases node with
  | record r =>
    have hshelf : s.find? r.name r.tag.kind = (s.records.get? r.name).map .record := by
      cases r.tag <;> rfl
    simp only [insert?, Node.name, Node.kind, hshelf, Option.isSome_map]
    split <;> simp_all [NameMap.contains]
  | pointer | array | primitive => cases h
  | _ =>
    simp only [insert?, Node.name, Node.kind, Snapshot.find?, Option.isSome_map]
    split <;> simp_all [NameMap.contains]

theorem nodeCount_insert? (h : insert? s node = some s') : s'.nodeCount = s.nodeCount + 1 := by
  cases node with
  | pointer | array | primitive => cases h
  | _ =>
    simp only [insert?, Option.ite_none_left_eq_some, Option.some.injEq] at h
    obtain ⟨hnew, rfl⟩ := h
    simp only [Snapshot.nodeCount, NameMap.size_insert _ (Bool.eq_false_iff.2 hnew)]
    omega

/-- What `add` does with one node: it is counted, or reported, or put on its shelf. -/
inductive Adds (a : Assembly) (node : Node) : Assembly → Prop where
  | counted (unmapped : isMapped node = false) : Adds a node { a with unmapped := a.unmapped + 1 }
  | reported (mapped : isMapped node = true)
      (taken : (a.snapshot.find? node.name node.kind).isSome = true) :
      Adds a node
        { a with diagnostics := a.diagnostics ++
          [.duplicateNode node.kind node.name node.location] }
  | kept {snapshot : Snapshot} (mapped : isMapped node = true)
      (free : (a.snapshot.find? node.name node.kind).isSome = false)
      (larger : snapshot.nodeCount = a.snapshot.nodeCount + 1) : Adds a node { a with snapshot }

theorem adds_add (a : Assembly) (node : Node) : Adds a node (a.add node) := by
  unfold add
  split
  · next hmapped =>
    split
    · next snapshot hinsert =>
      refine .kept hmapped ?_ (nodeCount_insert? hinsert)
      rw [Bool.eq_false_iff, Ne, ← insert?_eq_none_iff hmapped, hinsert]
      exact Option.some_ne_none snapshot
    · next hinsert => exact .reported hmapped ((insert?_eq_none_iff hmapped).1 hinsert)
  · next hmapped => exact .counted (Bool.eq_false_iff.2 hmapped)

theorem Adds.diagnostics {a b : Assembly} (h : Adds a node b) :
    b.diagnostics = a.diagnostics ++ if (a.snapshot.find? node.name node.kind).isSome
      then [.duplicateNode node.kind node.name node.location] else [] := by
  cases h with
  | counted hunmapped =>
    cases node with
    | pointer | array | primitive => simp [Snapshot.find?, Node.kind]
    | _ => cases hunmapped
  | reported _ taken => rw [if_pos taken]
  | kept _ free => simp [free]

theorem Adds.unmapped {a b : Assembly} (h : Adds a node b) :
    b.unmapped = a.unmapped + if isMapped node then 0 else 1 := by
  cases h with
  | counted hunmapped => simp [hunmapped]
  | reported hmapped => simp [hmapped]
  | kept hmapped => simp [hmapped]

/-- `Adds` puts a node into the snapshot, the diagnostics or the count of `unmapped`, and into one
of them only. -/
theorem Adds.total {a b : Assembly} (h : Adds a node b) :
    b.snapshot.nodeCount + b.diagnostics.length + b.unmapped =
      a.snapshot.nodeCount + a.diagnostics.length + a.unmapped + 1 := by
  cases h with
  | counted => simp only [Nat.add_assoc]
  | reported =>
    simp only [List.length_append, List.length_singleton]
    omega
  | kept _ _ larger =>
    simp only [larger]
    omega

/-- The assembly that `add` makes of `nodes` one after the other, from nothing. -/
def ofNodes (file : String) (requested actual : Platform) (nodes : List Node) : Assembly :=
  nodes.foldl add (start file requested actual)

/-- What is reported of a `node` that comes after others: one of `before` has its category and its
name. -/
def report (before : List Node) (node : Node) : List Diagnostic :=
  if before.any (fits node.name node.kind) then [.duplicateNode node.kind node.name node.location]
    else []

section Whole

variable (file : String) (requested actual : Platform) (nodes : List Node)

theorem ofNodes_concat (node : Node) : ofNodes file requested actual (nodes ++ [node]) =
    (ofNodes file requested actual nodes).add node := by
  simp [ofNodes, List.foldl_append]

private theorem diagnostics_ofNodes :
    (ofNodes file requested actual nodes).diagnostics = inTurn report nodes := by
  induction nodes using List.reverseRecOn with
  | nil => rfl
  | append_singleton nodes node ih =>
    have htaken :
        ((ofNodes file requested actual nodes).snapshot.find? node.name node.kind).isSome =
        nodes.any (fits node.name node.kind) := by
      rw [ofNodes, find?_start, Bool.eq_iff_iff, List.find?_isSome, List.any_eq_true]
    rw [ofNodes_concat, (adds_add _ node).diagnostics, inTurn_concat, ih, htaken, report]

private theorem unmapped_ofNodes : (ofNodes file requested actual nodes).unmapped =
    nodes.countP fun node => node.kind ∈ [.pointer, .array, .primitive] := by
  induction nodes using List.reverseRecOn with
  | nil => rfl
  | append_singleton nodes node ih =>
    rw [ofNodes_concat, (adds_add _ node).unmapped, ih, List.countP_append, List.countP_singleton]
    simp only [decide_eq_true_eq, ← isMapped_eq_false_iff]
    cases isMapped node <;> rfl

private theorem total_ofNodes :
    (ofNodes file requested actual nodes).snapshot.nodeCount +
      (ofNodes file requested actual nodes).diagnostics.length +
      (ofNodes file requested actual nodes).unmapped = nodes.length := by
  induction nodes using List.reverseRecOn with
  | nil => rfl
  | append_singleton nodes node ih =>
    rw [ofNodes_concat, (adds_add _ node).total, ih, List.length_append, List.length_singleton]

/-- `find?` in the snapshot of `ofNodes` gives the first node that `fits` name and kind, where
structures and unions are one kind. The diagnostics are `report` of each node in turn, `unmapped`
counts pointers, arrays and primitives, and `nodeCount`, diagnostics and `unmapped` together account
for all nodes. -/
theorem ofNodes_keeps_first :
    (∀ name kind, (ofNodes file requested actual nodes).snapshot.find? name kind =
      nodes.find? (fits name kind)) ∧
    (ofNodes file requested actual nodes).diagnostics = inTurn report nodes ∧
    (ofNodes file requested actual nodes).unmapped =
      nodes.countP (fun node => node.kind ∈ [.pointer, .array, .primitive]) ∧
    (ofNodes file requested actual nodes).snapshot.nodeCount +
      (ofNodes file requested actual nodes).diagnostics.length +
      (ofNodes file requested actual nodes).unmapped = nodes.length := by
  refine ⟨fun name kind => ?_, ?_, ?_, ?_⟩
  · exact find?_start nodes file requested actual name kind
  · exact diagnostics_ofNodes file requested actual nodes
  · exact unmapped_ofNodes file requested actual nodes
  · exact total_ofNodes file requested actual nodes

end Whole

end Assembly
end HeaderSurvey
