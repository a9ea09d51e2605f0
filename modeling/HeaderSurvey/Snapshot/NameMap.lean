import HeaderSurvey.Json.Decode

/-! Finite maps keyed by names. The entries are kept in increasing order of their names, so equal
maps have equal entries and the written form depends only on the contents. -/
namespace HeaderSurvey

structure NameMap (α : Type) where
  entries : List (String × α)
  ordered : entries.Pairwise (fun a b => a.1 < b.1)
deriving DecidableEq

namespace NameMap

variable {α : Type}

def empty : NameMap α := ⟨[], List.Pairwise.nil⟩

instance : Inhabited (NameMap α) := ⟨empty⟩

def get? (m : NameMap α) (name : String) : Option α := m.entries.lookup name

def contains (m : NameMap α) (name : String) : Bool := (m.get? name).isSome

def size (m : NameMap α) : Nat := m.entries.length

/-- Puts an entry in its place among ordered entries, in place of one of the same name. -/
def place (name : String) (a : α) : List (String × α) → List (String × α)
  | [] => [(name, a)]
  | e :: rest =>
    if name < e.1 then (name, a) :: e :: rest
    else if name = e.1 then (name, a) :: rest
    else e :: place name a rest

theorem mem_place {name : String} {a : α} {entries : List (String × α)} {e : String × α}
    (h : e ∈ place name a entries) : e = (name, a) ∨ e ∈ entries := by
  induction entries with
  | nil => simpa [place] using h
  | cons f rest ih =>
    rw [place] at h
    split at h
    · simpa using h
    · split at h
      · rcases List.mem_cons.1 h with h | h
        · exact Or.inl h
        · exact Or.inr (List.mem_cons_of_mem _ h)
      · rcases List.mem_cons.1 h with h | h
        · exact Or.inr (by simp [h])
        · exact (ih h).imp id (List.mem_cons_of_mem _)

theorem place_ordered (name : String) (a : α) {entries : List (String × α)}
    (h : entries.Pairwise (fun a b => a.1 < b.1)) :
    (place name a entries).Pairwise (fun a b => a.1 < b.1) := by
  induction entries with
  | nil => simp [place]
  | cons e rest ih =>
    obtain ⟨he, hr⟩ := List.pairwise_cons.1 h
    rw [place]
    split
    · next hlt =>
      refine List.pairwise_cons.2 ⟨fun f hf => ?_, h⟩
      rcases List.mem_cons.1 hf with rfl | hf
      · exact hlt
      · exact String.lt_trans hlt (he f hf)
    · next hle =>
      split
      · next heq => exact List.pairwise_cons.2 ⟨fun f hf => heq ▸ he f hf, hr⟩
      · next hne =>
        refine List.pairwise_cons.2 ⟨fun f hf => ?_, ih hr⟩
        rcases mem_place hf with rfl | hf
        · exact Decidable.byContradiction fun h' =>
            hne (String.le_antisymm (String.not_lt.1 h') (String.not_lt.1 hle))
        · exact he f hf

/-- The map with that entry added; an entry of the same name is replaced. -/
def insert (m : NameMap α) (name : String) (a : α) : NameMap α :=
  ⟨place name a m.entries, place_ordered name a m.ordered⟩

def encode (value : α → Json) (m : NameMap α) : Json :=
  .object (m.entries.map fun e => (e.1, value e.2))

/-- Reads a map from an object. Of several members of one name the last counts. -/
def decode (value : Decoder α) : Decoder (NameMap α)
  | .object members => members.foldlM (fun m e => m.insert e.1 <$> value e.2) empty
  | _ => .error (.expected "an object")

end NameMap
end HeaderSurvey
