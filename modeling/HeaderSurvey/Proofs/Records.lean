import HeaderSurvey.Declaration.TypeUse
import HeaderSurvey.Proofs.Documents
import HeaderSurvey.Snapshot.NameMap
import Mathlib.Data.List.Nodup

/-! Values in documents. A value is read back from the document that was written of it: numbers that
have room in their fields, the words of a vocabulary, lists, maps, and records field by field. What
stands under the name of a field is what was written there, and a field that was left out is read as
its default. -/
namespace HeaderSurvey

variable {α β : Type}

-- The rules for sequences and for values that may be left out are not proved by `rfl`: as
-- definitional rules they
-- would make the kernel count up to the bounds of the number readers.
@[simp] theorem ok_bind {ε : Type} (a : α) (f : α → Except ε β) : (Except.ok a >>= f) = f a := by
  simp [bind, Except.bind]

/-- Reads what stands for a value, or gives `missing` if nothing does. -/
def readOr (missing : Except DecodeFault α) (value : Decoder α) : Option Json → Except DecodeFault α
  | some document => value document
  | none => missing

@[simp] theorem readOr_some {missing : Except DecodeFault α} {value : Decoder α} {document : Json} :
    readOr missing value (some document) = value document := by
  rw [readOr]

@[simp] theorem readOr_none {missing : Except DecodeFault α} {value : Decoder α} :
    readOr missing value none = missing := by
  rw [readOr]

theorem map_eq_self {f : α → α} {items : List α} (h : ∀ a ∈ items, f a = a) :
    items.map f = items := by
  rw [List.map_congr_left h, List.map_id']

def isInt64 (n : Int) : Bool := -0x8000000000000000 ≤ n && n < 0x8000000000000000

def isNat32 (n : Nat) : Bool := n < 0x100000000

/-! ## Single values -/

namespace Decode

@[simp] theorem text_string (s : String) : text (.string s) = .ok s := rfl

@[simp] theorem flag_bool (b : Bool) : flag (.bool b) = .ok b := rfl

theorem int64_integer {n : Int} (h : isInt64 n = true) : int64 (.integer n) = .ok n := by
  simp only [isInt64, Bool.and_eq_true, decide_eq_true_eq] at h
  rw [int64, if_pos h]

theorem nat32_nat {n : Nat} (h : isNat32 n = true) : nat32 (.nat n) = .ok n := by
  have hrange : (0 : Int) ≤ (n : Int) ∧ (n : Int) < 0x100000000 := by
    simp only [isNat32, decide_eq_true_eq] at h
    omega
  rw [Json.nat, nat32, if_pos hrange, Int.toNat_natCast]

/-- `oneOf` reads a word as its value, if no other value is written alike. -/
theorem oneOf_name {values : List α} {name : α → String} {value : α} (hmem : value ∈ values)
    (hdistinct : (values.map name).Nodup) :
    oneOf values name (.string (name value)) = .ok value := by
  have hfind : values.find? (name · == name value) = some value := by
    induction values with
    | nil => cases hmem
    | cons first rest ih =>
      rw [List.map_cons, List.nodup_cons] at hdistinct
      rcases List.mem_cons.1 hmem with rfl | hrest
      · simp
      · have hne : name first ≠ name value := by
          intro heq
          exact hdistinct.1 (heq ▸ List.mem_map_of_mem hrest)
        simp [hne, ih hrest hdistinct.2]
  simp [oneOf, hfind]

theorem list_ofList {encode : α → Json} {decode : Decoder β} {read : α → β} {items : List α}
    (h : ∀ a ∈ items, decode (encode a) = .ok (read a)) :
    list decode (.ofList encode items) = .ok (items.map read) := by
  have hall : (items.map encode).mapM decode = .ok (items.map read) := by
    induction items with
    | nil => rfl
    | cons a items ih =>
      have hfirst := h a List.mem_cons_self
      have hrest := ih fun a' ha' => h a' (List.mem_cons_of_mem a ha')
      rw [List.map_cons, List.mapM_cons, hfirst, hrest]
      rfl
  exact hall

theorem list_same {encode : α → Json} {decode : Decoder α} {items : List α}
    (h : ∀ a ∈ items, decode (encode a) = .ok a) :
    list decode (.ofList encode items) = .ok items := by
  rw [list_ofList h, List.map_id']

@[simp] theorem list_text (texts : List String) : list text (.ofList .string texts) = .ok texts :=
  list_same fun _ _ => rfl

theorem nullable_some {decode : Decoder α} {document : Json} {a : α} (hnull : document ≠ .null)
    (h : decode document = .ok a) : nullable decode document = .ok (some a) := by
  cases document <;>
    first | exact absurd rfl hnull | simp [nullable, unlessNull, h, Functor.map, Except.map]

@[simp] theorem nullable_text (s : String) : nullable text (.string s) = .ok (some s) := rfl

theorem nullable_ofOption {encode : α → Json} {decode : Decoder α} {value : Option α}
    (hnull : ∀ a, encode a ≠ .null) (h : ∀ a ∈ value, decode (encode a) = .ok a) :
    nullable decode (.ofOption encode value) = .ok value := by
  cases value with
  | none => rfl
  | some a => exact nullable_some (hnull a) (h a rfl)

theorem readOr_integer {value : Option Int} (h : value.all isInt64 = true) :
    readOr (.ok none) (nullable int64) (value.map Json.integer) = .ok value := by
  cases value with
  | none => rfl
  | some n => exact nullable_some (by simp) (int64_integer h)

@[simp] theorem readOr_flag (b : Bool) :
    readOr (.ok false) flag (if b = true then some (Json.bool true) else none) = .ok b := by
  cases b <;> rfl

end Decode

/-! ## Records -/

namespace Fields

variable {names : List String} {members : List (String × Json)} {field : String}

def ofMembers (names : List String) (members : List (String × Json)) : Fields :=
  ⟨names.map (named members)⟩

/-- `Fields.read` lets pass any members under other names than those of the fields. -/
theorem read_object_of_countP (h : ∀ field ∈ names, members.countP (·.1 == field) ≤ 1) :
    Fields.read { names } (.object members) = .ok (ofMembers names members) := by
  have hnone : names.find? (fun field => 1 < members.countP (·.1 == field)) = none := by
    rw [List.find?_eq_none]
    intro field hfield
    simpa using h field hfield
  have hopen : members.find? (fun _ => false) = none := by simp [List.find?_eq_none]
  simp [Fields.read, hnone, hopen, ofMembers]

@[simp] theorem read_object (h : (members.map (·.1)).Nodup) :
    Fields.read { names } (.object members) = .ok (ofMembers names members) := by
  refine read_object_of_countP fun field _ => ?_
  have hcount := List.nodup_iff_count_le_one.1 h field
  rwa [List.count, List.countP_map] at hcount

private theorem slot_ofMembers (h : field ∈ names) :
    (ofMembers names members).slot field = (named members field).2 := by
  have hlookup : (names.map (named members)).lookup field = some (named members field).2 := by
    induction names with
    | nil => cases h
    | cons name names ih =>
      by_cases hname : field = name
      · subst hname
        simp [named]
      · have hrest := ih (List.mem_of_ne_of_mem hname h)
        have hne : (field == name) = false := by simpa using hname
        rw [List.map_cons, named, List.lookup_cons, hne]
        exact hrest
  rw [slot, ofMembers, hlookup]
  rfl

@[simp] theorem required_ofMembers {value : Decoder α} (h : field ∈ names) :
    (ofMembers names members).required field value =
      readOr (.error (.missing field)) value (members.lookup field) := by
  rw [required, slot_ofMembers h, named]
  cases members.lookup field <;> rfl

@[simp] theorem withDefault_ofMembers {value : Decoder α} {default : α} (h : field ∈ names) :
    (ofMembers names members).withDefault field default value =
      readOr (.ok default) value (members.lookup field) := by
  rw [withDefault, slot_ofMembers h, named]
  cases members.lookup field <;> rfl

end Fields

namespace Json

@[simp] theorem isPlain_nat (n : Nat) : (nat n).isPlain = true := rfl

@[simp] theorem isPlain_ofOption {encode : α → Json} {value : Option α} :
    (ofOption encode value).isPlain = value.all fun a => (encode a).isPlain := by
  cases value <;> rfl

@[simp] theorem isPlain_ofList {encode : α → Json} {items : List α} :
    (ofList encode items).isPlain = items.all fun a => (encode a).isPlain := by
  rw [ofList, isPlain_array, List.all_map]
  rfl

@[simp] theorem nesting_nat (n : Nat) : (nat n).nesting = 0 := rfl

theorem nesting_ofOption {encode : α → Json} {value : Option α} (h : ∀ a, (encode a).nesting = 0) :
    (ofOption encode value).nesting = 0 := by
  cases value with
  | none => rfl
  | some a => exact h a

theorem nesting_ofList_le {encode : α → Json} {items : List α} {n : Nat} :
    (ofList encode items).nesting ≤ n + 1 ↔ ∀ a ∈ items, (encode a).nesting ≤ n := by
  rw [ofList, nesting_array_le, List.forall_mem_map]

@[simp] theorem all_optionalMember {name : String} {encode : α → Json} {value : Option α}
    {p : String × Json → Bool} :
    (optionalMember name encode value).all p = value.all fun a => p (name, encode a) := by
  cases value <;> simp [optionalMember]

@[simp] theorem all_flagMember {name : String} {flag : Bool} {p : String × Json → Bool} :
    (flagMember name flag).all p = (!flag || p (name, .bool true)) := by
  cases flag <;> simp [flagMember]

theorem names_optionalMember {name : String} {encode : α → Json} {value : Option α} :
    ((optionalMember name encode value).map (·.1)).Sublist [name] := by
  cases value <;> simp [optionalMember]

theorem names_flagMember {name : String} {flag : Bool} :
    ((flagMember name flag).map (·.1)).Sublist [name] := by
  cases flag <;> simp [flagMember]

@[simp] theorem lookup_optionalMember {name field : String} {encode : α → Json} {value : Option α} :
    (optionalMember name encode value).lookup field = if field = name then value.map encode
      else none := by
  cases value with
  | none => simp [optionalMember]
  | some a => by_cases h : field = name <;> simp [optionalMember, h]

@[simp] theorem lookup_flagMember {name field : String} {flag : Bool} :
    (flagMember name flag).lookup field = if field = name ∧
    flag = true then some (.bool true) else none := by
  cases flag with
  | false => simp [flagMember]
  | true => by_cases h : field = name <;> simp [flagMember, h]

end Json

theorem Decoder.ofText_eq {value : Decoder α} {text : String} {document : Json}
    (h : Json.read? text = some document) : Decoder.ofText value text = value document := by
  simp only [Decoder.ofText, h]

/-! ## Maps -/

namespace NameMap

private theorem eq_of_entries {m n : NameMap α} (h : m.entries = n.entries) : m = n := by
  cases m
  cases n
  cases h
  rfl

def map (f : α → β) (m : NameMap α) : NameMap β :=
  ⟨m.entries.map fun e => (e.1, f e.2), List.pairwise_map.2 m.ordered⟩

theorem map_eq_self {f : α → α} {m : NameMap α} (h : ∀ e ∈ m.entries, f e.2 = e.2) :
    m.map f = m := by
  apply eq_of_entries
  apply HeaderSurvey.map_eq_self
  intro e he
  rw [h e he]

theorem encode_map {encode : α → Json} {f : α → α} {m : NameMap α}
    (h : ∀ a, encode (f a) = encode a) :
    (m.map f).encode encode = m.encode encode := by
  simp [NameMap.encode, map, h]

private theorem place_last {name : String} {a : α} {entries : List (String × α)}
    (h : ∀ e ∈ entries, e.1 < name) :
    place name a entries = entries ++ [(name, a)] := by
  induction entries with
  | nil => rfl
  | cons e entries ih =>
    have hfirst : e.1 < name := h e List.mem_cons_self
    have hafter : ¬ name < e.1 := String.lt_asymm hfirst
    have hne : name ≠ e.1 := (String.ne_of_lt hfirst).symm
    rw [place, if_neg hafter, if_neg hne, ih fun e' he' => h e' (List.mem_cons_of_mem e he')]
    rfl

theorem foldlM_insert {encode : α → Json} {decode : Decoder β} {read : α → β}
    {entries : List (String × α)} (h : ∀ e ∈ entries, decode (encode e.2) = .ok (read e.2))
    (hordered : entries.Pairwise fun a b => a.1 < b.1) (m : NameMap β)
    (hafter : ∀ e ∈ m.entries, ∀ e' ∈ entries, e.1 < e'.1) :
    ∃ n : NameMap β, n.entries = m.entries ++ entries.map (fun e => (e.1, read e.2)) ∧
      (entries.map fun e => (e.1, encode e.2)).foldlM (fun m e => m.insert e.1 <$> decode e.2) m =
        .ok n := by
  induction entries generalizing m with
  | nil => exact ⟨m, by simp, rfl⟩
  | cons e entries ih =>
    obtain ⟨hfirst, hrest⟩ := List.pairwise_cons.1 hordered
    have hinsert : (m.insert e.1 (read e.2)).entries = m.entries ++ [(e.1, read e.2)] :=
      place_last fun e' he' => hafter e' he' e List.mem_cons_self
    have hlater : ∀ e' ∈ (m.insert e.1 (read e.2)).entries, ∀ e'' ∈ entries, e'.1 < e''.1 := by
      intro e' he' e'' he''
      rw [hinsert] at he'
      rcases List.mem_append.1 he' with hold | hnew
      · exact hafter e' hold e'' (List.mem_cons_of_mem e he'')
      · rw [List.mem_singleton.1 hnew]
        exact hfirst e'' he''
    obtain ⟨n, hentries, hn⟩ := ih (fun e' he' => h e' (List.mem_cons_of_mem e he')) hrest _ hlater
    refine ⟨n, ?_, ?_⟩
    · rw [hentries, hinsert, List.append_assoc]
      rfl
    · rw [List.map_cons, List.foldlM_cons, h e List.mem_cons_self]
      exact hn

theorem decode_encode {encode : α → Json} {decode : Decoder β} {read : α → β} {m : NameMap α}
    (h : ∀ e ∈ m.entries, decode (encode e.2) = .ok (read e.2)) :
    NameMap.decode decode (m.encode encode) = .ok (m.map read) := by
  obtain ⟨n, hentries, hn⟩ := foldlM_insert h m.ordered empty (by simp [empty])
  have heq : n = m.map read := eq_of_entries hentries
  rw [← heq]
  exact hn

theorem decode_same {encode : α → Json} {decode : Decoder α} {m : NameMap α}
    (h : ∀ e ∈ m.entries, decode (encode e.2) = .ok e.2) :
    NameMap.decode decode (m.encode encode) = .ok m := by
  have hread : ∀ e ∈ m.entries, decode (encode e.2) = .ok (id e.2) := h
  rw [decode_encode hread, map_eq_self fun _ _ => rfl]

@[simp] theorem isPlain_encode {encode : α → Json} {m : NameMap α} :
    (m.encode encode).isPlain = m.entries.all fun e => (encode e.2).isPlain := by
  rw [NameMap.encode, Json.isPlain_object, List.all_map]
  rfl

end NameMap

end HeaderSurvey
