import HeaderSurvey.Proofs.Drain
import HeaderSurvey.Proofs.Shelves

/-! Types that are asked to stay opaque. Whatever a reference leads to under such a name is finished
as an opaque type. The scan of the top level does not look at the request, so an enumeration that it
offers first is finished as an enumeration. -/
namespace HeaderSurvey

namespace Context

private theorem Referenced.not_overridden {x : Context} {node : VisitNode} (h : x.Referenced node)
    (hk : node.kind ≠ .opaqueType) : x.isOverridden node = false := by
  obtain ⟨-, candidate, parent, index, container, h⟩ := h
  obtain ⟨referrer, g, ⟨-, rfl⟩ | ⟨asked, rfl, -⟩⟩ := (resolve_sound h).sighting
  · exact absurd rfl hk
  · exact asked

/-- After the `scan` exactly the `accepted` nodes are in the queues. -/
theorem accepted_scan {x : Context} {u : PUnit} {t : Session} (h : Returns x.scan {} u t)
    (c : Category) :
    t.accepted c = (t.frontier c).queue := by
  have hledger : Ledger x [] [] t := (Ledger.initial x).grow (fun _ => Or.inr) (scan_returns h)
  have hresults : t.results = [] := results_grow (scan_returns h)
  have hhandled : t.handled = [] := by
    rw [hledger.finished, hresults]
    rfl
  rw [hledger.balance, Session.handledIn, hhandled]
  rfl

private theorem topLevel_of_scan {x : Context} {u : PUnit} {t : Session} {node : VisitNode}
    {c : Category} (h : Returns x.scan {} u t) (hnode : node ∈ (t.frontier c).queue) :
    x.TopLevel node ∧ node.category = c := by
  rw [← accepted_scan h] at hnode
  obtain ⟨hoffer, hc⟩ := Ledger.mem_accepted hnode
  obtain ⟨later, hoffers, hlater⟩ :=
    OffersOnly.of_run (fun _ _ => Grows.offersOnly) (scan_returns h)
  rw [hoffers] at hoffer
  exact ⟨hlater _ hoffer, hc⟩

end Context

variable {x : Context} {file : String} {requested actual : Platform} {t : Session} {p : Progress}
  {name : String} {kind : Kind}

namespace Steady

theorem find?_isSome_iff (h : Steady x (Assembly.start file requested actual) t [] p) :
    (p.assembly.snapshot.find? name kind).isSome = true ↔
      ∃ e ∈ p.session.results, Assembly.fits name kind e.2 = true := by
  rw [h.assembled, Assembly.find?_start, List.find?_isSome]
  constructor
  · rintro ⟨r, hr, hfits⟩
    obtain ⟨e, he, rfl⟩ := List.mem_map.1 hr
    exact ⟨e, he, hfits⟩
  · rintro ⟨e, he, hfits⟩
    exact ⟨e.2, List.mem_map_of_mem he, hfits⟩

theorem mem_results (h : Steady x (Assembly.start file requested actual) t [] p) {r : Node}
    (hfound : p.assembly.snapshot.find? name kind = some r) :
    ∃ node, (node, r) ∈ p.session.results := by
  rw [h.assembled, Assembly.find?_start] at hfound
  obtain ⟨e, he, rfl⟩ := List.mem_map.1 (List.mem_of_find?_eq_some hfound)
  exact ⟨e.1, he⟩

theorem mem_offers_of_result {start : Assembly} (h : Steady x start t [] p) {e : VisitNode × Node}
    (he : e ∈ p.session.results) : (e.1, .accepted) ∈ p.session.offers := by
  have hmem : e.1 ∈ p.session.handledIn e.1.category := by
    rw [Session.handledIn, h.ledger.finished]
    simpa using ⟨_, he⟩
  have haccepted : e.1 ∈ p.session.accepted e.1.category := by
    rw [h.ledger.balance]
    simp [hmem]
  exact (Ledger.mem_accepted haccepted).1

/-- An `accepted` node of a kind that `isShelved` can be looked up in the end. -/
theorem find?_of_accepted (h : Steady x (Assembly.start file requested actual) t [] p)
    (hempty : ∀ c, (p.session.frontier c).queue = []) {node : VisitNode}
    (hoffer : (node, .accepted) ∈ p.session.offers) (hk : node.kind.isShelved = true) :
    (p.assembly.snapshot.find? node.name node.kind).isSome = true := by
  obtain ⟨-, r, hr⟩ := (h.ledger.settled hempty).once node hoffer
  obtain ⟨hkind, hname, -⟩ := h.ledger.faithful _ hr
  have hmapped : Assembly.isMapped r = true := Assembly.isMapped_of_isShelved (hkind ▸ hk)
  exact h.find?_isSome_iff.2 ⟨_, hr, Assembly.fits_iff.2 ⟨hmapped, by rw [hkind], hname⟩⟩

/-- Under a name that `isOpaque`, `find?` gives no type but opaque types, and enumerations that the
`scan` left to wait. -/
theorem find?_overridden (h : Steady x (Assembly.start file requested actual) t [] p)
    (hscan : Returns x.scan {} () t) (hempty : ∀ c, (p.session.frontier c).queue = [])
    (hname : x.switches.isOpaque name = true) (hkind : kind.isType = true)
    (hne : kind ≠ .opaqueType) :
    (p.assembly.snapshot.find? name kind).isSome = true ↔
      kind = .enum ∧ ∃ node ∈ (t.frontier .types).queue,
        x.TopLevel node ∧ node.kind = .enum ∧ node.name = name := by
  obtain ⟨later, hoffers, hlater⟩ :=
    OffersOnly.of_run (fun _ _ => Context.Advances.offersOnly) h.reached
  rw [h.find?_isSome_iff]
  constructor
  · rintro ⟨⟨node, r⟩, he, hfits⟩
    obtain ⟨-, hshelf, rfl⟩ := Assembly.fits_iff.1 hfits
    obtain ⟨hk, hn, -⟩ := h.ledger.faithful _ he
    dsimp only at hk hn
    rw [hk] at hshelf
    have hnode : node.kind ≠ .opaqueType := by
      intro hmasked
      rw [hmasked] at hshelf
      exact hne (Kind.eq_of_shelf rfl hshelf.symm)
    have hcategory : node.category = .types := by
      refine Kind.category_types ?_
      rw [← Kind.isType_shelf, hshelf, Kind.isType_shelf, hkind]
    have hoffered := h.mem_offers_of_result he
    rw [hoffers] at hoffered
    rcases List.mem_append.1 hoffered with hold | hlast
    · have hwaits : node ∈ (t.frontier .types).queue := by
        rw [← Context.accepted_scan hscan]
        exact List.mem_map.2 ⟨_, List.mem_filter.2 ⟨hold, by simp [hcategory]⟩, rfl⟩
      have htop := (Context.topLevel_of_scan hscan hwaits).1
      have henum := htop.kind_enum hcategory
      refine ⟨?_, node, hwaits, htop, henum, hn.symm⟩
      rw [henum] at hshelf
      exact Kind.eq_of_shelf rfl hshelf.symm
    · have hfree := (hlater _ hlast).not_overridden hnode
      simp [Context.isOverridden, ← hn, hname] at hfree
  · rintro ⟨rfl, node, hwaits, -, henum, rfl⟩
    have hoffered : (node, .accepted) ∈ p.session.offers := by
      rw [hoffers]
      rw [← Context.accepted_scan hscan] at hwaits
      exact List.mem_append_left _ (Ledger.mem_accepted hwaits).1
    have hfound := h.find?_of_accepted hempty hoffered (by rw [henum]; rfl)
    rw [henum] at hfound
    exact h.find?_isSome_iff.1 hfound

end Steady

/-- A name in `opaqueTypes` is never that of a record, an alias or a function pointer in the
snapshot. It is that of an enumeration exactly if the `scan` of the top level left one of that name
to wait. -/
theorem surveyFor_overridden {rounds turns : Nat} {s : Settings} {u : TranslationUnit} {o : Outcome}
    {n : String} (h : surveyFor rounds turns s u = .ok o) (hn : n ∈ s.switches.opaqueTypes) :
    o.snapshot.records.contains n = false ∧ o.snapshot.typeAliases.contains n = false ∧
      o.snapshot.functionPointers.contains n = false ∧
      ∃ x start t, beginSurvey s u = .ok (x, start) ∧ Returns x.scan start.session () t ∧
        (o.snapshot.enums.contains n = true ↔
          ∃ node ∈ (t.frontier .types).queue, x.TopLevel node ∧ node.kind = .enum ∧
            node.name = n) := by
  obtain ⟨x, start, p, hbegin, hrun, rfl⟩ := surveyFor_eq_ok h
  obtain ⟨requested, actual, -, -, hx, rfl⟩ := beginSurvey_eq_ok hbegin
  obtain ⟨t, hscan, hsteady, hempty⟩ := Context.runFor_steady hrun
  have hmasked : x.switches.isOpaque n = true := by
    rw [hx]
    exact List.contains_iff_mem.2 hn
  have hnone : ∀ kind : Kind, kind.isType = true → kind ≠ .opaqueType → kind ≠ .enum →
      (p.assembly.snapshot.find? n kind).isSome = false := by
    intro kind hkind hne henum
    rw [← Bool.not_eq_true, hsteady.find?_overridden hscan hempty hmasked hkind hne]
    exact fun hfound => henum hfound.1
  have henums := hsteady.find?_overridden hscan hempty hmasked
    (show Kind.enum.isType = true from rfl)
    (by decide)
  simp only [Snapshot.find?, Option.isSome_map, true_and] at henums
  refine ⟨?_, ?_, ?_, x, _, t, hbegin, hscan, henums⟩
  · exact Option.isSome_map.symm.trans (hnone .struct rfl (by decide) (by decide))
  · exact Option.isSome_map.symm.trans (hnone .typeAlias rfl (by decide) (by decide))
  · exact Option.isSome_map.symm.trans (hnone .functionPointer rfl (by decide) (by decide))

/-- An enumeration of the top level, to which nothing refers. -/
def modeUnit : TranslationUnit :=
  { filePath := "mode.h"
    target := { triple := "x86_64-unknown-linux-gnu", pointerBits := 64 }
    cursors := #[
      { kind := .translationUnit, spelling := "mode.h", children := [2] },
      { kind := .noDeclFound },
      { kind := .enumDecl, spelling := "Mode", type := 1, linkage := .external, children := [3],
        integerType := some 2 },
      { kind := .enumConstantDecl, spelling := "FAST", enumValue := 1 }]
    types := #[
      { kind := .invalid },
      { kind := .enum, spelling := "enum Mode", declaration := some 2, size := 4, align := 4 },
      { kind := .uInt, spelling := "unsigned int", size := 4, align := 4 }] }

def modeSettings : Settings := { switches := { opaqueTypes := ["Mode"] } }

theorem surveyFor_modeUnit_overridden : ∃ o, surveyFor 8 2 modeSettings modeUnit = .ok o ∧
    "Mode" ∈ modeSettings.switches.opaqueTypes ∧ o.snapshot.records.contains "Mode" = false ∧
    o.snapshot.enums.contains "Mode" = true ∧
    ∃ x start t, beginSurvey modeSettings modeUnit = .ok (x, start) ∧
      Returns x.scan start.session () t ∧
      ∃ node ∈ (t.frontier .types).queue, x.TopLevel node ∧ node.kind = .enum ∧
        node.name = "Mode" := by
  have hok : (surveyFor 8 2 modeSettings modeUnit).toOption.any (·.snapshot.enums.contains "Mode") =
      true := by
    decide +kernel
  obtain ⟨o, ho, hok⟩ := toOption_any_iff.1 hok
  obtain ⟨hrecords, -, -, x, start, t, hbegin, hscan, henums⟩ :=
    surveyFor_overridden ho List.mem_cons_self
  exact ⟨o, ho, List.mem_cons_self, hrecords, hok, x, start, t, hbegin, hscan, henums.1 hok⟩

end HeaderSurvey
