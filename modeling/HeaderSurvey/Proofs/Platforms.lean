import HeaderSurvey.Proofs.CompactDocuments
import HeaderSurvey.Proofs.Naming
import HeaderSurvey.Proofs.Records
import HeaderSurvey.Proofs.Steps
import HeaderSurvey.Target.Platform

/-! Target platforms. They are made of a triple and a width, of a triple alone, or from a document,
and each of these ways checks a part of what it is given. Together the checks come down to one
grammar of triples and to three widths, whichever way a platform comes about, and every platform is
read back from its document. -/
namespace HeaderSurvey

/-! ## Triples -/

/-- `triple` is made of these `components`: two or more, none of them empty, with dashes between
them. -/
structure IsTriple (triple : String) (components : List String) : Prop where
  several : 2 ≤ components.length
  filled : ∀ component ∈ components, component ≠ "" ∧ '-' ∉ component.toList
  joined : triple = Text.join "-" components

variable {triple : String} {components : List String}

private theorem IsTriple.components_eq (h : IsTriple triple components) :
    tripleComponents triple = components := by
  have hne : components ≠ [] := List.ne_nil_of_length_pos (Nat.lt_of_lt_of_le (by decide) h.several)
  rw [h.joined]
  exact Text.pieces_join (by simp) hne fun component hmem => (h.filled component hmem).2

theorem IsTriple.architecture_eq {first : String} {rest : List String}
    (h : IsTriple triple (first :: rest)) :
    Platform.tripleArchitecture triple = Architecture.ofComponent first := by
  rw [Platform.tripleArchitecture, h.components_eq, List.headD_cons]

private theorem isTriple_iff : IsTriple triple (tripleComponents triple) ↔
    2 ≤ (tripleComponents triple).length ∧ "" ∉ tripleComponents triple := by
  constructor
  · intro h
    exact ⟨h.several, fun hempty => (h.filled "" hempty).1 rfl⟩
  · rintro ⟨hseveral, hempty⟩
    refine ⟨hseveral, fun component hmem => ⟨fun heq => hempty (heq ▸ hmem), ?_⟩,
      (Text.join_pieces (by simp) triple).symm⟩
    exact Text.not_mem_of_mem_pieces hmem

theorem not_blank_of_components (h : 2 ≤ (tripleComponents triple).length) :
    triple.toList.all Text.isBlank = false := by
  by_contra hblank
  rw [Bool.not_eq_false, List.all_eq_true] at hblank
  have hfree : ∀ c ∈ triple.toList, (c == '-') = false := by
    intro c hc
    by_contra hdash
    obtain rfl : c = '-' := by simpa using hdash
    exact absurd (hblank '-' hc) (by decide)
  rw [tripleComponents, Text.pieces, Text.cut_of_free hfree] at h
  simp at h

private theorem tripleFault?_eq_none_iff :
    tripleFault? triple = none ↔ IsTriple triple (tripleComponents triple) := by
  have hany : (tripleComponents triple).any (· == "") = true ↔
      "" ∈ tripleComponents triple := by simp
  rw [isTriple_iff, tripleFault?]
  constructor
  · intro h
    split at h
    · cases h
    · split at h
      · cases h
      · split at h
        · cases h
        · next hshort hempty => exact ⟨Nat.le_of_not_lt hshort, mt hany.2 hempty⟩
  · rintro ⟨hseveral, hempty⟩
    rw [if_neg (by simp [not_blank_of_components hseveral]), if_neg (Nat.not_lt_of_le hseveral),
      if_neg (mt hany.1 hempty)]

theorem exists_isTriple_iff :
    (∃ components, IsTriple triple components) ↔ tripleFault? triple = none := by
  rw [tripleFault?_eq_none_iff]
  exact ⟨fun ⟨components, h⟩ => h.components_eq ▸ h, fun h => ⟨_, h⟩⟩

private theorem exists_isTriple_cons (h : tripleFault? triple = none) :
    ∃ first rest, IsTriple triple (first :: rest) := by
  obtain ⟨first, rest, hcomponents⟩ := List.exists_cons_of_ne_nil (Text.pieces_ne_nil '-' triple)
  exact ⟨first, rest, hcomponents ▸ tripleFault?_eq_none_iff.1 h⟩

private theorem Architecture.pointerBits?_cases {a : Architecture} {bits : Nat}
    (h : a.pointerBits? = some bits) :
    bits = 32 ∨ bits = 64 := by
  cases a <;> cases h <;> decide

namespace Platform

variable {bits : Nat} {p : Platform} {members : List (String × Json)} {width : Option Json}

/-! ## Ways to a platform -/

theorem ofTripleAndBits_eq_ok_iff : ofTripleAndBits triple bits = .ok p ↔
    tripleFault? triple = none ∧ (bits = 16 ∨ bits = 32 ∨ bits = 64) ∧ p = ⟨triple, bits⟩ := by
  unfold ofTripleAndBits
  split
  · next hfault => simp [hfault]
  · next hfault =>
    split
    · next hbits => simp [hfault, hbits, eq_comm]
    · next hbits => simp [hfault, hbits]

private theorem ofTriple_eq (hfault : tripleFault? triple = none)
    (hbits : (tripleArchitecture triple).pointerBits? = some bits) :
    ofTriple triple = ofTripleAndBits triple bits := by
  rw [ofTriple, hfault, hbits]

theorem ofTriple_eq_ok_iff : ofTriple triple = .ok p ↔
    ∃ bits, (tripleArchitecture triple).pointerBits? = some bits ∧
      ofTripleAndBits triple bits = .ok p := by
  constructor
  · intro h
    unfold ofTriple at h
    split at h
    · cases h
    · split at h
      · next bits hbits => exact ⟨bits, hbits, h⟩
      · cases h
  · rintro ⟨bits, hbits, h⟩
    rw [ofTriple_eq (ofTripleAndBits_eq_ok_iff.1 h).1 hbits, h]

/-- Whether the triple and the width pass the checks of `ofTripleAndBits`. -/
def isValid (p : Platform) : Bool := (ofTripleAndBits p.triple p.pointerBits).toOption = some p

theorem isValid_iff : p.isValid = true ↔ ofTripleAndBits p.triple p.pointerBits = .ok p := by
  cases h : ofTripleAndBits p.triple p.pointerBits <;> simp [isValid, h, Except.toOption]

theorem isValid_of_ok (h : ofTripleAndBits triple bits = .ok p) : p.isValid = true := by
  obtain ⟨-, -, rfl⟩ := ofTripleAndBits_eq_ok_iff.1 h
  exact isValid_iff.2 h

/-! ## Documents -/

theorem nullable_nat32 (h : isNat32 bits = true) :
    Decode.nullable Decode.nat32 (.nat bits) = .ok (some bits) :=
  Decode.nullable_some (by simp [Json.nat]) (Decode.nat32_nat h)

def refusal (e : TargetError) : DecodeFault := .refused e.message

private theorem decode_eq (document : Json) : decode document = (do
    let r ← Fields.read shape document
    let triple ← r.required "triple" Decode.text
    let bits ← r.withDefault "pointer-width-bits" none (Decode.nullable Decode.nat32)
    (bits.elim (ofTriple triple) (ofTripleAndBits triple)).mapError refusal) := by
  unfold decode
  refine bind_congr fun r => bind_congr fun triple => bind_congr fun bits => ?_
  cases bits with
  | none =>
    dsimp only [Option.elim_none]
    cases ofTriple triple <;> rfl
  | some bits =>
    dsimp only [Option.elim_some]
    cases ofTripleAndBits triple bits <;> rfl

private theorem lookup_eq_head?_filter (name : String) (members : List (String × Json)) :
    members.lookup name = (members.filter (·.1 == name)).head?.map (·.2) := by
  induction members with
  | nil => rfl
  | cons m members ih =>
    rw [List.lookup_cons, List.filter_cons, ih, Bool.beq_comm]
    cases m.1 == name <;> rfl

/-- The `members` of an object that gives a `triple`, and at most one `width`. Members under other
names do not matter. -/
structure Gives (members : List (String × Json)) (triple : String) (width : Option Json) :
    Prop where
  triple : members.filter (·.1 == "triple") = [("triple", .string triple)]
  width : members.filter (·.1 == "pointer-width-bits") =
    width.toList.map (Prod.mk "pointer-width-bits")

/-- `decode` of an object reads the width, and makes the platform of the triple with it or
without. -/
theorem decode_object (h : Gives members triple width) : decode (.object members) =
    readOr (.ok none) (Decode.nullable Decode.nat32) width >>= fun bits =>
      (bits.elim (ofTriple triple) (ofTripleAndBits triple)).mapError refusal := by
  have htriple : members.lookup "triple" = some (.string triple) := by
    rw [lookup_eq_head?_filter, h.triple]
    rfl
  have hwidth : members.lookup "pointer-width-bits" = width := by
    rw [lookup_eq_head?_filter, h.width]
    cases width <;> rfl
  have hread : Fields.read shape (.object members) =
      .ok (Fields.ofMembers shape.names members) := by
    refine Fields.read_object_of_countP fun field hfield => ?_
    simp only [List.mem_cons, List.not_mem_nil, or_false] at hfield
    rw [List.countP_eq_length_filter]
    rcases hfield with rfl | rfl
    · simp [h.triple]
    · rw [h.width]
      cases width <;> simp
  rw [decode_eq, hread]
  simp [shape, htriple, hwidth]

theorem decode_object_eq_ok_iff (h : Gives members triple (some (.nat bits))) :
    decode (.object members) = .ok p ↔ ofTripleAndBits triple bits = .ok p := by
  rw [decode_object h, readOr_some]
  by_cases hbits : isNat32 bits = true
  · rw [nullable_nat32 hbits, ok_bind, mapError_eq_ok_iff]
    rfl
  · have hrange : ¬ ((0 : Int) ≤ (bits : Int) ∧ (bits : Int) < 0x100000000) := by
      simp only [isNat32, decide_eq_true_eq] at hbits
      omega
    have hwide : ¬ (bits = 16 ∨ bits = 32 ∨ bits = 64) := by
      rintro (rfl | rfl | rfl) <;> exact hbits rfl
    have hrefused : Decode.nat32 (.nat bits) = .error (.outOfRange bits) := by
      rw [Json.nat, Decode.nat32, if_neg hrange]
    have hfailed : Decode.nullable Decode.nat32 (.nat bits) = .error (.outOfRange bits) := by
      rw [Decode.nullable, hrefused]
      rfl
    rw [hfailed, ofTripleAndBits_eq_ok_iff]
    simp [hwide, bind, Except.bind]

theorem decode_encode (h : p.isValid = true) : decode p.encode = .ok p := by
  have hgives : Gives [("triple", .string p.triple), ("pointer-width-bits", .nat p.pointerBits)]
      p.triple
      (some (.nat p.pointerBits)) := ⟨rfl, rfl⟩
  exact (decode_object_eq_ok_iff hgives).2 (isValid_iff.1 h)

@[simp] theorem isPlain_encode (p : Platform) : p.encode.isPlain = true := by simp [encode]

private theorem ofText_of_isValid (h : p.isValid = true) :
    Decoder.ofText decode p.encode.compact = .ok p ∧
    Decoder.ofText decode p.encode.pretty = .ok p := by
  have hnesting : p.encode.nesting ≤ Json.maxNesting := by
    simp [encode, Json.nesting, Json.nestingMembers, Json.nat, Json.maxNesting]
  rw [Decoder.ofText_eq (Json.read?_compact p.isPlain_encode hnesting),
    Decoder.ofText_eq (Json.read?_pretty p.isPlain_encode hnesting), decode_encode h]
  exact ⟨rfl, rfl⟩

/-! ## All platforms -/

/-- The ways to a `Platform`: a triple and a width, a triple alone, a document, and the platforms
that are there from the start, which nobody checks. -/
inductive Obtained : Platform → Prop where
  | given {triple : String} {bits : Nat} {p : Platform}
      (made : ofTripleAndBits triple bits = .ok p) : Obtained p
  | derived {triple : String} {p : Platform} (made : ofTriple triple = .ok p) : Obtained p
  | read {document : Json} {p : Platform} (made : decode document = .ok p) : Obtained p
  | preset {p : Platform} (listed : p ∈ [linuxGnu, appleDarwin, windowsMsvc]) : Obtained p

theorem Obtained.isValid (h : Obtained p) : p.isValid = true := by
  have hderived : ∀ {triple p}, ofTriple triple = .ok p → p.isValid = true := by
    intro triple p h
    obtain ⟨bits, -, hmade⟩ := ofTriple_eq_ok_iff.1 h
    exact isValid_of_ok hmade
  cases h with
  | given made => exact isValid_of_ok made
  | derived made => exact hderived made
  | read made =>
    simp only [decode_eq, bind_eq_ok_iff, mapError_eq_ok_iff] at made
    obtain ⟨r, -, triple, -, bits, -, made⟩ := made
    cases bits with
    | none => exact hderived made
    | some bits => exact isValid_of_ok made
  | preset listed =>
    revert p
    decide

/-- `ofTripleAndBits` makes a platform exactly if the triple has two or more components, none of
them empty, and the width is 16, 32 or 64. `ofTriple` does exactly if the architecture of the first
component has known `pointerBits?`, and it makes the platform with that width. `decode` of an object
does what its triple does, with its width if it has one that is not null. Every platform that is
`Obtained` has such a triple and such a width, and is read back from its document and from both
forms of its text. -/
theorem obtained_stable :
    (∀ triple bits p, ofTripleAndBits triple bits = .ok p ↔
      (∃ components, IsTriple triple components) ∧ (bits = 16 ∨ bits = 32 ∨ bits = 64) ∧
      p = ⟨triple, bits⟩) ∧
    (∀ triple p, ofTriple triple = .ok p ↔ ∃ first rest bits, IsTriple triple (first :: rest) ∧
      (Architecture.ofComponent first).pointerBits? = some bits ∧ p = ⟨triple, bits⟩) ∧
    (∀ triple first rest bits, IsTriple triple (first :: rest) →
      (Architecture.ofComponent first).pointerBits? = some bits →
      ofTriple triple = ofTripleAndBits triple bits) ∧
    (∀ members triple width, Gives members triple width →
      (width = none ∨ width = some .null →
        decode (.object members) = (ofTriple triple).mapError refusal) ∧
      ∀ bits, width = some (.nat bits) →
        (∀ p, decode (.object members) = .ok p ↔ ofTripleAndBits triple bits = .ok p) ∧
        (isNat32 bits = true → decode (.object members) = (ofTripleAndBits triple bits).mapError
          refusal)) ∧
    ∀ p, Obtained p → (∃ components, IsTriple p.triple components) ∧
      (p.pointerBits = 16 ∨ p.pointerBits = 32 ∨ p.pointerBits = 64) ∧ decode p.encode = .ok p ∧
      Decoder.ofText decode p.encode.compact = .ok p ∧
      Decoder.ofText decode p.encode.pretty = .ok p := by
  refine ⟨fun triple bits p => ?_, fun triple p => ?_, fun triple first rest bits h hbits => ?_,
    fun members triple width h => ⟨fun hwidth => ?_, ?_⟩, fun p h => ?_⟩
  · rw [ofTripleAndBits_eq_ok_iff, exists_isTriple_iff]
  · rw [ofTriple_eq_ok_iff]
    constructor
    · rintro ⟨bits, hbits, hmade⟩
      obtain ⟨hfault, -, rfl⟩ := ofTripleAndBits_eq_ok_iff.1 hmade
      obtain ⟨first, rest, htriple⟩ := exists_isTriple_cons hfault
      exact ⟨first, rest, bits, htriple, htriple.architecture_eq ▸ hbits, rfl⟩
    · rintro ⟨first, rest, bits, htriple, hbits, rfl⟩
      refine ⟨bits, htriple.architecture_eq ▸ hbits, ofTripleAndBits_eq_ok_iff.2 ⟨?_, ?_, rfl⟩⟩
      · exact exists_isTriple_iff.1 ⟨_, htriple⟩
      · exact Or.inr (Architecture.pointerBits?_cases hbits)
  · exact ofTriple_eq (exists_isTriple_iff.1 ⟨_, h⟩) (h.architecture_eq ▸ hbits)
  · rw [decode_object h]
    rcases hwidth with rfl | rfl <;> rfl
  · rintro bits rfl
    refine ⟨fun p => decode_object_eq_ok_iff h, fun hbits => ?_⟩
    rw [decode_object h, readOr_some, nullable_nat32 hbits, ok_bind]
    rfl
  · have hvalid := h.isValid
    obtain ⟨hfault, hbits, -⟩ := ofTripleAndBits_eq_ok_iff.1 (isValid_iff.1 hvalid)
    exact ⟨exists_isTriple_iff.2 hfault, hbits, decode_encode hvalid, ofText_of_isValid hvalid⟩

/-- An object for a board without a system, with members that say nothing about the platform. -/
def thumbMembers : List (String × Json) :=
  [("note", .null), ("pointer-width-bits", .null), ("triple", .string "thumbv7em-none-eabi"),
    ("note", .bool true)]

/-- `Architecture.ofComponent` knows `thumbv7em` by the start of its name only. On `gnux32` pointers
are narrower than the architecture has them, and a document keeps their width. -/
theorem obtained_thumb_stable :
    IsTriple "thumbv7em-none-eabi" ["thumbv7em", "none", "eabi"] ∧
    ofTriple "thumbv7em-none-eabi" = .ok ⟨"thumbv7em-none-eabi", 32⟩ ∧
    ofTripleAndBits "thumbv7em-none-eabi" 32 = ofTriple "thumbv7em-none-eabi" ∧
    Gives thumbMembers "thumbv7em-none-eabi" (some .null) ∧
    decode (.object thumbMembers) = .ok ⟨"thumbv7em-none-eabi", 32⟩ ∧
    Obtained ⟨"x86_64-unknown-linux-gnux32", 32⟩ ∧
    decode (encode ⟨"x86_64-unknown-linux-gnux32", 32⟩) =
      .ok ⟨"x86_64-unknown-linux-gnux32", 32⟩ := by
  obtain ⟨hgiven, hderived, hsame, hread, hstable⟩ := obtained_stable
  have htriple : IsTriple "thumbv7em-none-eabi" ["thumbv7em", "none", "eabi"] :=
    ⟨by decide, by decide, by decide⟩
  have hknown : (Architecture.ofComponent "thumbv7em").pointerBits? = some 32 := by decide
  have hboard : ofTriple "thumbv7em-none-eabi" = .ok ⟨"thumbv7em-none-eabi", 32⟩ :=
    (hderived _ _).2 ⟨_, _, 32, htriple, hknown, rfl⟩
  have hgives : Gives thumbMembers "thumbv7em-none-eabi" (some .null) := ⟨rfl, rfl⟩
  have hdocument := (hread _ _ _ hgives).1 (Or.inr rfl)
  have hnarrow : Obtained ⟨"x86_64-unknown-linux-gnux32", 32⟩ :=
    .given ((hgiven "x86_64-unknown-linux-gnux32" 32 _).2
      ⟨⟨["x86_64", "unknown", "linux", "gnux32"], by decide, by decide, by decide⟩, by decide, rfl⟩)
  rw [hboard] at hdocument
  exact ⟨htriple, hboard, (hsame _ _ _ _ htriple hknown).symm, hgives, hdocument, hnarrow,
    (hstable _ hnarrow).2.2.1⟩

end Platform
end HeaderSurvey
