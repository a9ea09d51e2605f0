import HeaderSurvey.Proofs.Room
import HeaderSurvey.Proofs.Shortening

/-! Snapshots of surveys in documents. A document leaves out the location of a use that names no
file, on the understanding that there is none. But a path may be shown as the empty text, if an
include directory or a linked path takes all of it away, and then the line and the column are lost.
Nothing else is. -/
namespace HeaderSurvey

/-! ## What is lost -/

/-- Whether a document leaves the location out, although it is not `Location.none`. -/
def Location.isDropped (l : Location) : Bool := l.isNull && l != Location.none

private theorem map_eq_self_iff {α : Type} {f : α → α} {items : List α} :
    items.map f = items ↔ ∀ a ∈ items, f a = a := by
  constructor
  · intro h a ha
    exact List.map_inj_left.1 (h.trans items.map_id.symm) a ha
  · exact map_eq_self

theorem TypeLayer.written_eq_self_iff {l : TypeLayer} :
    l.written = l ↔ l.location.isDropped = false := by
  have hwritten : l.written = l ↔ l.location?.getD Location.none = l.location :=
    ⟨congrArg TypeLayer.location, fun hlocation => by rw [written, hlocation]⟩
  rw [hwritten, location?, Location.isDropped]
  by_cases hnull : l.location.isNull = true
  · rw [if_pos hnull, hnull, Bool.true_and, Option.getD_none, bne_eq_false_iff_eq]
    exact eq_comm
  · simp [hnull]

theorem TypeUse.written_eq_self_iff {t : TypeUse} :
    t.written = t ↔ ∀ level ∈ t.levels, level.layer.location.isDropped = false := by
  induction t with
  | leaf layer => simp [written, levels, TypeUse.layer, TypeLayer.written_eq_self_iff]
  | layered layer inner ih =>
    simp [written, levels, TypeUse.layer, TypeLayer.written_eq_self_iff, ih]

theorem Node.uses_written {n : Node} (h : Assembly.isMapped n = true) :
    n.written.uses = n.uses.map TypeUse.written := by
  cases n with
  | macroObject | opaqueType => rfl
  | globalVariable | enum | typeAlias => rfl
  | function f => simp [written, uses, FunctionDecl.written, FunctionParameter.written]
  | record r => simp [written, uses, RecordDecl.written, RecordField.written]
  | functionPointer p => simp [written, uses, FunctionPointer.written, PointerParameter.written]
  | pointer | array | primitive => cases h

theorem Node.written_eq_self_iff {n : Node} (h : Assembly.isMapped n = true) :
    n.written = n ↔ ∀ t ∈ n.uses, t.written = t := by
  refine ⟨fun heq => ?_, written_eq_self⟩
  rw [← map_eq_self_iff, ← uses_written h, heq]

namespace Snapshot

variable {s : Snapshot}

private theorem isMapped_of_mem_nodes : ∀ n ∈ s.nodes, Assembly.isMapped n = true := by
  rw [forall_nodes]
  exact ⟨fun _ _ => rfl, fun _ _ => rfl, fun _ _ => rfl, fun _ _ => rfl, fun _ _ => rfl,
    fun _ _ => rfl, fun _ _ => rfl, fun _ _ => rfl⟩

private theorem nodes_written (s : Snapshot) : s.written.nodes = s.nodes.map Node.written := by
  simp [nodes, written, NameMap.map, Node.written, Function.comp_def]

/-- A snapshot is `written` as it is exactly if no level of a use has a location that
`isDropped`. -/
theorem written_eq_self_iff : s.written = s ↔
    ∀ n ∈ s.nodes, ∀ use ∈ n.uses, ∀ level ∈ use.levels,
      level.layer.location.isDropped = false := by
  have hnodes : s.written = s ↔ ∀ n ∈ s.nodes, n.written = n := by
    refine ⟨fun heq => ?_, written_eq_self⟩
    rw [← map_eq_self_iff, ← nodes_written, heq]
  rw [hnodes]
  refine forall₂_congr fun n hn => ?_
  rw [Node.written_eq_self_iff (isMapped_of_mem_nodes n hn)]
  exact forall₂_congr fun use _ => TypeUse.written_eq_self_iff

end Snapshot

/-! ## Paths of which nothing is shown -/

namespace Places

variable {p : Places} {path part inserted : String}

/-- The path as `locate` shows it. -/
def shown (p : Places) (path : String) : String := p.shorten (p.remap path)

def linkIn? (p : Places) (path : String) : Option LinkedPath :=
  p.linkedPaths.find? fun link => Text.contains path link.part

/-- Nothing but separators is left of `path` when `part` is replaced by `inserted`. -/
def LeavesNothing (part inserted path : String) : Prop :=
  ∀ c ∈ Text.replaceAll part.toList inserted.toList path.toList, isSeparator c = true

private theorem strip_eq_nil_iff {s : List Char} :
    Text.strip isSeparator s = [] ↔ ∀ c ∈ s, isSeparator c = true := by
  change (s.dropWhile isSeparator).rdropWhile isSeparator = [] ↔ _
  rw [List.rdropWhile_eq_nil_iff]
  constructor
  · intro h c hc
    rw [← s.takeWhile_append_dropWhile (p := isSeparator), List.mem_append] at hc
    exact hc.elim List.mem_takeWhile_imp (h c)
  · intro h c hc
    exact h c ((List.dropWhile_suffix _).subset hc)

private theorem substitute_eq_empty_iff :
    substitute part inserted path = "" ↔ LeavesNothing part inserted path := by
  rw [substitute, String.ofList_eq_empty_iff, strip_eq_nil_iff, LeavesNothing]

private theorem remap_eq_empty_iff : p.remap path = "" ↔ (p.linkIn? path = none ∧ path = "") ∨
    ∃ link, p.linkIn? path = some link ∧ LeavesNothing link.part link.shown path := by
  unfold remap linkIn?
  split
  · next link hlink => simp [hlink, substitute_eq_empty_iff]
  · next hlink => simp [hlink]

private theorem shorten_eq_empty_iff : p.shorten path = "" ↔ path = "" ∨
    p.fullPaths = false ∧ ∃ directory, p.directoryIn? path = some directory ∧
    LeavesNothing directory "" path := by
  cases hfull : p.fullPaths with
  | true => simp [shorten, hfull]
  | false =>
    rw [shorten_eq hfull]
    cases hdirectory : p.directoryIn? path with
    | none => simp
    | some directory =>
      have hempty : path = "" → LeavesNothing directory "" path := by
        rintro rfl c hc
        cases h : directory.toList <;> simp [h, Text.replaceAll, Text.replaceFrom] at hc
      simpa [substitute_eq_empty_iff] using hempty

/-- Nothing is left of `path`: it is empty, or becomes so when one of `linkedPaths` is replaced in
it or one of `includeDirectories` is taken out. -/
inductive Erases (p : Places) (path : String) : Prop where
  | empty (unlinked : p.linkIn? path = none) (nothing : path = "")
  | link (link : LinkedPath) (found : p.linkIn? path = some link)
      (nothing : LeavesNothing link.part link.shown path)
  | directory (directory : String) (short : p.fullPaths = false)
      (found : p.directoryIn? (p.remap path) = some directory)
      (nothing : LeavesNothing directory "" (p.remap path))

private theorem shown_eq_empty_iff : p.shown path = "" ↔ p.Erases path := by
  rw [shown, shorten_eq_empty_iff, remap_eq_empty_iff]
  constructor
  · rintro ((⟨hunlinked, hpath⟩ | ⟨link, hfound, hnothing⟩) | ⟨hshort, directory, hfound, hnothing⟩)
    · exact .empty hunlinked hpath
    · exact .link link hfound hnothing
    · exact .directory directory hshort hfound hnothing
  · rintro (⟨hunlinked, hpath⟩ | ⟨link, hfound, hnothing⟩ | ⟨directory, hshort, hfound, hnothing⟩)
    · exact Or.inl (Or.inl ⟨hunlinked, hpath⟩)
    · exact Or.inl (Or.inr ⟨link, hfound, hnothing⟩)
    · exact Or.inr ⟨hshort, directory, hfound, hnothing⟩

/-- `locate` gives a location that `isDropped` exactly if it is somewhere and `Erases` leaves
nothing of its path. -/
theorem locate_isDropped_iff {c : Cursor} {t : TypeEntry} {l : Location}
    (h : p.locate c t = .ok l) :
    l.isDropped = true ↔ l ≠ Location.none ∧ p.Erases (c.position.file.getD p.unitPath) := by
  have hdropped : l.isDropped = true ↔ l ≠ Location.none ∧ l.isNull = true := by
    simp [Location.isDropped, and_comm]
  rw [hdropped, ← shown_eq_empty_iff]
  refine and_congr_right fun hplaced => ?_
  obtain ⟨hpath, hname⟩ := (locate_cases h).resolve_left hplaced
  rw [Location.isNull, Bool.and_eq_true, beq_iff_eq, beq_iff_eq, hpath]
  refine and_iff_left_of_imp fun hempty => ?_
  rw [hpath, hempty] at hname
  exact String.toList_eq_nil_iff.1 hname

end Places

/-! ## Snapshots of surveys -/

theorem Settings.platform_isValid {s : Settings} {p : Platform} (h : s.platform = .ok p) :
    p.isValid = true := by
  obtain ⟨bits, -, hmade⟩ := Platform.ofTriple_eq_ok_iff.1 (mapError_eq_ok_iff.1 h)
  exact Platform.isValid_of_ok hmade

private theorem TranslationUnit.platform_of_ok {u : TranslationUnit} {p : Platform}
    (h : u.platform = .ok p) :
    Platform.ofTripleAndBits u.target.triple u.target.pointerBits = .ok p := by
  simp only [platform, bind_eq_ok_iff, mapError_eq_ok_iff] at h
  obtain ⟨info, hinfo, h⟩ := h
  unfold targetInfo at hinfo
  split at hinfo
  · cases hinfo
  · cases hinfo
    exact h

theorem Assembly.platforms_foldl_add (nodes : List Node) (a : Assembly) :
    (nodes.foldl add a).snapshot.requested = a.snapshot.requested ∧
      (nodes.foldl add a).snapshot.actual = a.snapshot.actual := by
  induction nodes generalizing a with
  | nil => exact ⟨rfl, rfl⟩
  | cons node nodes ih =>
    have hadd : (a.add node).snapshot.requested = a.snapshot.requested ∧
        (a.add node).snapshot.actual = a.snapshot.actual := by
      rw [snapshot_add]
      cases node with
      | macroObject | globalVariable | function | record | enum | typeAlias | opaqueType
      | functionPointer =>
        rw [insert?]
        split <;> exact ⟨rfl, rfl⟩
      | pointer | array | primitive => exact ⟨rfl, rfl⟩
    rw [List.foldl_cons, (ih _).1, (ih _).2]
    exact hadd

theorem Context.Describes.located {x : Context} {kind : Kind} {name : String} {t container : TypeId}
    {use : TypeUse} (h : x.Describes kind name t container use) :
    ∃ declaration ∈ x.unit.cursors, ∃ entry ∈ x.unit.types,
      x.places.locate declaration entry = .ok use.layer.location := by
  have hlayer : ∃ t entry holder, x.unit.typeAt t = .ok entry ∧
      x.layerOf kind name entry holder = .ok use.layer := by
    cases h with
    | leaf _ entry_eq _ layer_eq => exact ⟨_, _, _, entry_eq, layer_eq⟩
    | layered _ entry_eq _ layer_eq => exact ⟨_, _, _, entry_eq, layer_eq⟩
  obtain ⟨t, entry, holder, hentry, hlayer⟩ := hlayer
  have hentry := Array.mem_of_getElem? (TranslationUnit.typeAt_eq_ok.1 hentry)
  unfold layerOf at hlayer
  split at hlayer
  all_goals
    simp only [bind_eq_ok_iff, pure_eq_ok_iff] at hlayer
    obtain ⟨_, -, declaration, hdeclaration, location, hlocation, hlayer⟩ := hlayer
    have hdeclaration := Array.mem_of_getElem? (TranslationUnit.cursorAt_eq_ok.1 hdeclaration)
    rw [← hlayer]
    exact ⟨declaration, hdeclaration, entry, hentry, hlocation⟩

/-- The snapshot of a survey is read back by `decode` from its document, and by `ofText` from its
text unless that is nested too deep; all its numbers fit if those of the unit do. It is read back as
it was exactly if no level of a use has a location that `isDropped`. The location of a use is one
that `locate` gives for a declaration in the unit, and it is dropped exactly if it is somewhere but
`Erases` leaves nothing of the path. -/
theorem surveyFor_restored {rounds turns : Nat} {s : Settings} {u : TranslationUnit} {o : Outcome}
    (hfits : u.fits = true) (h : surveyFor rounds turns s u = .ok o) :
    ∃ r, Snapshot.decode o.snapshot.encode = .ok r ∧
      (o.snapshot.encode.nesting ≤ Json.maxNesting → Snapshot.ofText o.snapshot.toText = .ok r) ∧
      (r = o.snapshot ↔ ∀ n ∈ o.snapshot.nodes, ∀ use ∈ n.uses, ∀ level ∈ use.levels,
        level.layer.location.isDropped = false) ∧
      ∀ n ∈ o.snapshot.nodes, ∀ use ∈ n.uses, ∀ level ∈ use.levels, ∃ c ∈ u.cursors,
        ∃ entry ∈ u.types,
        (Places.ofSettings u.filePath s).locate c entry = .ok level.layer.location ∧
        (level.layer.location.isDropped = true ↔ level.layer.location ≠ Location.none ∧
          (Places.ofSettings u.filePath s).Erases (c.position.file.getD u.filePath)) := by
  obtain ⟨x, start, p, hbegin, hrun, rfl⟩ := surveyFor_eq_ok h
  obtain ⟨requested, actual, hrequested, hactual, rfl, rfl⟩ := beginSurvey_eq_ok hbegin
  obtain ⟨t, -, hsteady, -⟩ := Context.runFor_steady hrun
  have hactual := TranslationUnit.platform_of_ok hactual
  have hroomy : (Context.ofSettings u s actual.pointerBits).Roomy := by
    refine ⟨hfits, ?_⟩
    obtain ⟨-, hbits, rfl⟩ := Platform.ofTripleAndBits_eq_ok_iff.1 hactual
    rcases hbits with hbits | hbits | hbits <;> simp [Context.ofSettings, hbits] <;> decide
  obtain ⟨hsame, hsame'⟩ := Assembly.platforms_foldl_add (p.session.results.map (·.2))
    (Assembly.start u.filePath requested actual)
  rw [← hsteady.assembled] at hsame hsame'
  have hdecode : Snapshot.decode p.assembly.snapshot.encode = .ok p.assembly.snapshot.written :=
    Snapshot.decode_encode (hsame ▸ Settings.platform_isValid hrequested)
      (hsame' ▸ Platform.isValid_of_ok hactual) (hsteady.nodes_fit hroomy)
  refine ⟨p.assembly.snapshot.written, hdecode, ?_, Snapshot.written_eq_self_iff, ?_⟩
  · intro hnesting
    have htext : Json.read? p.assembly.snapshot.toText = some p.assembly.snapshot.encode :=
      Json.read?_pretty (Snapshot.isPlain_encode _) hnesting
    rw [Snapshot.ofText, Decoder.ofText_eq htext, hdecode]
  · intro n hn use huse level hlevel
    obtain ⟨kind, name, t, container, hdescribed⟩ := hsteady.exists_describes hn huse
    obtain ⟨t, container, hlevel⟩ := hdescribed.level hlevel
    obtain ⟨c, hc, entry, hentry, hlocation⟩ := hlevel.located
    exact ⟨c, hc, entry, hentry, hlocation, Places.locate_isDropped_iff hlocation⟩

/-- A structure, and a function that returns one. -/
def returnUnit (file : String) : TranslationUnit :=
  Builder.build file "x86_64-unknown-linux-gnu" 64
    [.primitive .int, .record .struct "S" [("x", 1)], .function "f" 2 [] false]

def librarySettings : Settings := { includeDirectories := ["lib"] }

/-- A header `lib/s.h` in the include directory `lib` is shown without it; a header `lib` is not
shown at all. -/
theorem surveyFor_returnUnit_restored :
    (∃ o, (returnUnit "lib/s.h").fits = true ∧
      surveyFor 8 2 librarySettings (returnUnit "lib/s.h") = .ok o ∧
      Snapshot.decode o.snapshot.encode = .ok o.snapshot ∧
      Snapshot.ofText o.snapshot.toText = .ok o.snapshot) ∧
    ∃ o, (returnUnit "lib").fits = true ∧ surveyFor 8 2 librarySettings (returnUnit "lib") = .ok o ∧
      Snapshot.decode o.snapshot.encode ≠ .ok o.snapshot ∧
      Snapshot.ofText o.snapshot.toText ≠ .ok o.snapshot := by
  have hshown : (returnUnit "lib/s.h").fits = true := by decide +kernel
  have herased : (returnUnit "lib").fits = true := by decide +kernel
  have hok : (surveyFor 8 2 librarySettings (returnUnit "lib/s.h")).toOption.any (fun o =>
      o.snapshot.encode.nesting ≤ Json.maxNesting ∧
        o.snapshot.nodes.all fun n => n.uses.all fun use =>
        use.levels.all fun level => !level.layer.location.isDropped) = true := by
    decide +kernel
  have hok' : (surveyFor 8 2 librarySettings (returnUnit "lib")).toOption.any (fun o =>
      o.snapshot.encode.nesting ≤ Json.maxNesting ∧
        o.snapshot.nodes.any fun n => n.uses.any fun use =>
        use.levels.any fun level => level.layer.location.isDropped) = true := by
    decide +kernel
  constructor
  · obtain ⟨o, ho, hok⟩ := toOption_any_iff.1 hok
    simp only [decide_eq_true_eq, List.all_eq_true, Bool.not_eq_true'] at hok
    obtain ⟨r, hdecode, htext, hsame, -⟩ := surveyFor_restored hshown ho
    obtain rfl := hsame.2 hok.2
    exact ⟨o, hshown, ho, hdecode, htext hok.1⟩
  · obtain ⟨o, ho, hok'⟩ := toOption_any_iff.1 hok'
    simp only [decide_eq_true_eq, List.any_eq_true] at hok'
    obtain ⟨hnesting, n, hn, use, huse, level, hlevel, hdropped⟩ := hok'
    obtain ⟨r, hdecode, htext, hsame, -⟩ := surveyFor_restored herased ho
    have hother : r ≠ o.snapshot := fun heq => by
      rw [hsame.1 heq n hn use huse level hlevel] at hdropped
      cases hdropped
    refine ⟨o, herased, ho, ?_, ?_⟩
    · rw [hdecode]
      exact fun heq => hother (Except.ok.inj heq)
    · rw [htext hnesting]
      exact fun heq => hother (Except.ok.inj heq)

end HeaderSurvey
