import BundleAudit.Files.Tree
import BundleAudit.Layer
import BundleAudit.Proofs.Text.Blank
import BundleAudit.Proofs.Text.Splitting
import BundleAudit.Proofs.Xml.Positions

/-!
# BundleAudit.Proofs.Layer

**The references of a layer mirror its document.** They stand in the order of the elements
that hold them, one for each bundle value with a number sign, and a warning stands for
each of the others (`mirrors_references`). What a reference says of its place depends on the
elements around it only (`bundleValues`), so no name of an element that was left before
gets into it.

A document is gone through by one call for each level, and there is room for so many. If its
elements are nested deeper, what is found is cut off before the first that is
(`valuesIn_cases`), and the layer has no references at all (`isMirror_iff_isWithin`).
-/

namespace BundleAudit.Layer

open Xml (Element)

variable {root : Element} {source : Text} {p : List Nat} {v : BundleValue}

/-! ### What a document says at a position -/

/-- The name of an element, unless it is empty. -/
def ownName? (e : Element) : Option Text := (e.attribute? "name").filter (!·.isEmpty)

/-- The bundle value of the element at a position. -/
def valueAt? (root : Element) (p : List Nat) : Option Text :=
  ((root.lineage? p).bind List.getLast?).bind (·.attribute? bundleAttribute)

/-- A directory is what stands before the last slash of a path, and empty if there is none. -/
def IsBeforeLastSlash (directory path : Text) : Prop :=
  (Code.slash ∉ path ∧ directory = []) ∨
    ∃ last, Code.slash ∉ last ∧ path = directory ++ Code.slash :: last

/-- A reference that says what stands in a document at a position. -/
structure IsReferenceAt (root : Element) (p : List Nat) (r : LayerReference) : Prop where
  /-- The key stands behind the first number sign, the catalog before it. -/
  value : ∃ catalog : Text, Code.hash ∉ catalog ∧
    valueAt? root p = some (catalog ++ Code.hash :: r.key) ∧
    IsBeforeLastSlash r.package (Text.replaceCode Code.dot Code.slash catalog)
  /-- The place is made of the names of the elements from the root down to the one at the position.
  -/
  place : ∃ es, root.lineage? p = some es ∧
    r.place = Code.slash ::
      List.intercalate [Code.slash] (es.filterMap ownName? ++ [bundleAttribute])

/-- A warning about the bundle value in a document at a position. -/
def IsWarningAt (source : Text) (root : Element) (p : List Nat) (m : Message) : Prop :=
  ∃ value, valueAt? root p = some value ∧
    m = .warn ("Skipping malformed bundlevalue in " ++ source ++ ": " ++ value)

/-- Some references and messages are those of a document. -/
structure Mirrors (source : Text) (root : Element) (rs : List LayerReference) (log : Log) :
    Prop where
  /-- One reference for each bundle value with a number sign, in the order of the document. -/
  references : ∃ ps : List (List Nat), ps.Pairwise (· < ·) ∧
    (∀ p, p ∈ ps ↔ ∃ value, valueAt? root p = some value ∧ Code.hash ∈ value) ∧
    List.Forall₂ (IsReferenceAt root) ps rs
  /-- One warning for each bundle value without a number sign, and no other message. -/
  warnings : ∃ ps : List (List Nat), ps.Pairwise (· < ·) ∧
    (∀ p, p ∈ ps ↔ ∃ value, valueAt? root p = some value ∧ Code.hash ∉ value) ∧
    List.Forall₂ (IsWarningAt source root) ps log

/-! ### The bundle values of a document -/

theorem namesTo_eq (names : List Text) (e : Element) :
    namesTo names e = names ++ (ownName? e).toList := by
  unfold namesTo ownName?
  cases e.attribute? "name" with
  | none => simp
  | some name =>
      cases name with
      | nil => simp [Option.filter]
      | cons c rest => simp [Option.filter]

/-- The bundle value of the last of some elements, each of them inside the one before it. -/
def lastValue? (names : List Text) (es : List Element) : Option BundleValue :=
  (es.getLast?.bind (·.attribute? bundleAttribute)).map fun value =>
    ⟨names ++ es.filterMap ownName?, value⟩

theorem lastValue?_cons (names : List Text) (e : Element) {es : List Element} (h : es ≠ []) :
    lastValue? names (e :: es) = lastValue? (namesTo names e) es := by
  obtain ⟨first, rest, rfl⟩ := List.exists_cons_of_ne_nil h
  cases hname : ownName? e <;>
    simp [lastValue?, namesTo_eq, hname, List.getLast?_cons_cons, List.filterMap_cons]

/-- The bundle value at a position, with the names down to it. -/
def bundleValueAt? (names : List Text) (root : Element) (p : List Nat) : Option BundleValue :=
  (root.lineage? p).bind (lastValue? names)

theorem bundleValueAt?_cons {i : Nat} {child : Element} (names : List Text)
    (hchild : root.children[i]? = some child) (p : List Nat) :
    bundleValueAt? names root (i :: p) = bundleValueAt? (namesTo names root) child p := by
  rw [bundleValueAt?, bundleValueAt?, Element.lineage?_cons, hchild, Option.bind_some]
  cases hp : child.lineage? p with
  | none => rfl
  | some es => exact lastValue?_cons names root (Element.ne_nil_of_lineage? hp)

/-- The bundle values of a document, each at its position. -/
def bundleValues (names : List Text) (root : Element) : List BundleValue :=
  root.positions.filterMap (bundleValueAt? names root)

theorem bundleValueAt?_nil (names : List Text) (root : Element) :
    bundleValueAt? names root [] = ownValue? names root := by
  cases hname : ownName? root <;>
    simp [bundleValueAt?, Element.lineage?, lastValue?, ownValue?, namesTo_eq, hname]

/-- After its own bundle value an element has those of the elements inside it, which are given its
name and no name of those before them. -/
theorem bundleValues_eq (names : List Text) (root : Element) :
    bundleValues names root = (ownValue? names root).toList ++
      root.children.flatMap (bundleValues (namesTo names root)) := by
  have hinside : ∀ before es, root.children = before ++ es →
      (Element.positionsFrom before.length es).filterMap (bundleValueAt? names root) =
        es.flatMap (bundleValues (namesTo names root)) := by
    intro before es hes
    induction es generalizing before with
    | nil => rfl
    | cons e rest ih =>
        have he : root.children[before.length]? = some e := by simp [hes]
        have hrest := ih (before ++ [e]) (by simp [hes])
        rw [List.length_append, List.length_singleton] at hrest
        rw [Element.positionsFrom, List.filterMap_append, List.filterMap_map, hrest,
          List.flatMap_cons]
        congr 1
        exact List.filterMap_congr fun p _ => bundleValueAt?_cons names he p
  cases root with
  | mk name attributes children =>
      have hchildren := hinside [] children rfl
      rw [bundleValues, Element.positions, List.filterMap_cons, bundleValueAt?_nil,
        Element.children, ← hchildren]
      cases ownValue? names (.mk name attributes children) <;> rfl

/-! ### Going through a document -/

/-- Elements side by side are gone through up to the first in which something fails. -/
theorem valuesInAll_cases {inside : Element → List BundleValue × Option Failure}
    {all : Element → List BundleValue} {P : Element → Prop} {failure : Failure} (es : List Element)
    (h : ∀ e, (P e ∧ inside e = (all e, none)) ∨
      (¬P e ∧ ∃ values, values <+: all e ∧ inside e = (values, some failure))) :
    ((∀ e ∈ es, P e) ∧ valuesInAll inside es = (es.flatMap all, none)) ∨
      (¬(∀ e ∈ es, P e) ∧ ∃ values, values <+: es.flatMap all ∧
        valuesInAll inside es = (values, some failure)) := by
  induction es with
  | nil => exact .inl ⟨List.forall_mem_nil _, rfl⟩
  | cons e rest ih =>
      rw [List.forall_mem_cons, List.flatMap_cons, valuesInAll]
      rcases h e with ⟨he, heq⟩ | ⟨he, values, hprefix, heq⟩
      · rw [heq]
        rcases ih with ⟨hrest, hall⟩ | ⟨hrest, values, hprefix, hall⟩
        · rw [hall]
          exact .inl ⟨⟨he, hrest⟩, rfl⟩
        · rw [hall]
          exact .inr ⟨fun hboth => hrest hboth.2, _,
            (List.prefix_append_right_inj _).2 hprefix, rfl⟩
      · rw [heq]
        exact .inr ⟨fun hboth => he hboth.1, values,
          hprefix.trans (List.prefix_append _ _), rfl⟩

/-- **All bundle values of a document are found, unless it is nested too deep.** Then some first
ones are, and going through it fails. -/
theorem valuesIn_cases (depth : Nat) (names : List Text) (root : Element) :
    (root.IsWithin depth ∧ valuesIn depth names root = (bundleValues names root, none)) ∨
      (¬root.IsWithin depth ∧ ∃ values, values <+: bundleValues names root ∧
        valuesIn depth names root = (values, some .nestedTooDeep)) := by
  induction depth generalizing names root with
  | zero => exact .inr ⟨root.not_isWithin_zero, [], List.nil_prefix, rfl⟩
  | succ depth ih =>
      rw [Element.isWithin_succ_iff, bundleValues_eq, valuesIn]
      rcases valuesInAll_cases root.children (ih (namesTo names root)) with
        ⟨hinside, heq⟩ | ⟨hinside, values, hprefix, heq⟩
      · rw [heq]
        exact .inl ⟨hinside, rfl⟩
      · rw [heq]
        exact .inr ⟨hinside, _, (List.prefix_append_right_inj _).2 hprefix, rfl⟩

/-! ### References and warnings -/

theorem reference?_eq_none_iff : reference? v = none ↔ Code.hash ∉ v.value := by
  rw [reference?, Option.map_eq_none_iff]
  constructor
  · intro hnone hmem
    obtain ⟨before, after, hvalue, hbefore⟩ := List.eq_append_cons_of_mem hmem
    rw [hvalue, Text.cut?_append_cons hbefore] at hnone
    cases hnone
  · intro hnot
    cases hcut : v.value.cut? Code.hash with
    | none => rfl
    | some parts =>
        refine absurd ?_ hnot
        rw [(Text.of_cut?_eq_some hcut).1]
        simp

theorem isSome_reference?_iff : (reference? v).isSome = true ↔ Code.hash ∈ v.value := by
  rw [Option.isSome_iff_ne_none, Ne, reference?_eq_none_iff, not_not]

/-- The warning about a bundle value that is no reference. -/
def warning? (source : Text) (v : BundleValue) : Option Message :=
  if Code.hash ∈ v.value then none
  else some (.warn ("Skipping malformed bundlevalue in " ++ source ++ ": " ++ v.value))

theorem references_eq (source : Text) (vs : List BundleValue) :
    references source vs = (vs.filterMap reference?, vs.filterMap (warning? source)) := by
  induction vs with
  | nil => rfl
  | cons v rest ih =>
      rw [references, ih]
      cases hv : reference? v with
      | none =>
          have hwarning : warning? source v = some _ := if_neg (reference?_eq_none_iff.1 hv)
          rw [List.filterMap_cons_none hv, List.filterMap_cons_some hwarning]
          rfl
      | some r =>
          have hhash : Code.hash ∈ v.value := isSome_reference?_iff.1 (by rw [hv]; rfl)
          have hwarning : warning? source v = none := if_pos hhash
          rw [List.filterMap_cons_some hv, List.filterMap_cons_none hwarning]

theorem isBeforeLastSlash_directoryPart (path : Text) :
    IsBeforeLastSlash (Manifest.directoryPart path) path := by
  unfold Manifest.directoryPart
  split
  · next before last hcut =>
      exact .inr ⟨last, Text.not_mem_of_cutLast?_eq_some hcut, Text.of_cutLast?_eq_some hcut⟩
  · next hcut => exact .inl ⟨Text.not_mem_of_cutLast?_eq_none hcut, rfl⟩

/-! ### The document and its references -/

theorem value_of_bundleValueAt? (h : bundleValueAt? [] root p = some v) :
    valueAt? root p = some v.value := by
  obtain ⟨es, hes, hlast⟩ := Option.bind_eq_some_iff.1 h
  obtain ⟨value, hvalue, rfl⟩ := Option.map_eq_some_iff.1 hlast
  rw [valueAt?, hes]
  exact hvalue

theorem exists_bundleValueAt? {value : Text} (h : valueAt? root p = some value) :
    ∃ v, bundleValueAt? [] root p = some v ∧ v.value = value := by
  obtain ⟨e, he, hvalue⟩ := Option.bind_eq_some_iff.1 h
  obtain ⟨es, hes, hlast⟩ := Option.bind_eq_some_iff.1 he
  refine ⟨⟨[] ++ es.filterMap ownName?, value⟩, ?_, rfl⟩
  rw [bundleValueAt?, hes, Option.bind_some, lastValue?, hlast, Option.bind_some, hvalue]
  rfl

theorem isReferenceAt {r : LayerReference}
    (h : (bundleValueAt? [] root p).bind reference? = some r) : IsReferenceAt root p r := by
  obtain ⟨v, hv, hr⟩ := Option.bind_eq_some_iff.1 h
  obtain ⟨⟨catalog, key⟩, hcut, rfl⟩ := Option.map_eq_some_iff.1 hr
  obtain ⟨hvalue, hcatalog⟩ := Text.of_cut?_eq_some hcut
  constructor
  case value =>
      refine ⟨catalog, hcatalog, ?_, isBeforeLastSlash_directoryPart _⟩
      rw [value_of_bundleValueAt? hv, hvalue]
  case place =>
      obtain ⟨es, hes, hlast⟩ := Option.bind_eq_some_iff.1 hv
      obtain ⟨value, -, rfl⟩ := Option.map_eq_some_iff.1 hlast
      exact ⟨es, hes, rfl⟩

theorem isWarningAt {m : Message}
    (h : (bundleValueAt? [] root p).bind (warning? source) = some m) :
    IsWarningAt source root p m := by
  obtain ⟨v, hv, hm⟩ := Option.bind_eq_some_iff.1 h
  rw [warning?] at hm
  split at hm
  · cases hm
  · exact ⟨v.value, value_of_bundleValueAt? hv, (Option.some.inj hm).symm⟩

/-- What is said at the positions of a document is said at some of them, in their order: those at
which there is a bundle value of some kind. -/
theorem exists_positions {α : Type} {f : BundleValue → Option α} {P : Text → Prop}
    (hf : ∀ v, (f v).isSome = true ↔ P v.value) {R : List Nat → α → Prop}
    (hR : ∀ p a, (bundleValueAt? [] root p).bind f = some a → R p a) :
    ∃ ps : List (List Nat), ps.Pairwise (· < ·) ∧
      (∀ p, p ∈ ps ↔ ∃ value, valueAt? root p = some value ∧ P value) ∧
      List.Forall₂ R ps ((bundleValues [] root).filterMap f) := by
  let said (p : List Nat) : Option α := (bundleValueAt? [] root p).bind f
  refine ⟨root.positions.filter fun p => (said p).isSome,
    root.pairwise_lt_positions.filter _, fun p => ?_, ?_⟩
  · rw [List.mem_filter, Option.isSome_bind, Option.any_eq_true]
    constructor
    · intro h
      obtain ⟨-, v, hv, hsome⟩ := h
      exact ⟨v.value, value_of_bundleValueAt? hv, (hf v).1 hsome⟩
    · intro h
      obtain ⟨value, hvalue, hP⟩ := h
      obtain ⟨v, hv, rfl⟩ := exists_bundleValueAt? hvalue
      obtain ⟨es, hes, -⟩ := Option.bind_eq_some_iff.1 hv
      exact ⟨Element.mem_positions_iff.2 ⟨es, hes⟩, v, hv, (hf v).2 hP⟩
  · rw [bundleValues, List.filterMap_filterMap]
    induction root.positions with
    | nil => exact .nil
    | cons p rest ih =>
        cases hp : said p with
        | none =>
            rw [List.filter_cons_of_neg (by simp [hp]), List.filterMap_cons_none hp]
            exact ih
        | some a =>
            rw [List.filter_cons_of_pos (by simp [hp]), List.filterMap_cons_some hp]
            exact .cons (hR p a hp) ih

theorem mirrors_references (source : Text) (root : Element) :
    Mirrors source root (references source (bundleValues [] root)).1
      (references source (bundleValues [] root)).2 := by
  rw [references_eq]
  constructor
  case references =>
      exact exists_positions (fun _ => isSome_reference?_iff) fun _ _ => isReferenceAt
  case warnings =>
      refine exists_positions (fun v => ?_) fun _ _ => isWarningAt
      unfold warning?
      split <;> simp [*]

/-- What is read of a layer mirrors its document. -/
def IsMirror (source : Text) (root : Element) (r : Log × Except Failure (List LayerReference)) :
    Prop := ∃ rs, r.2 = .ok rs ∧ Mirrors source root rs r.1

/-- A layer was left before its end was reached: there are no references, and perhaps not all
warnings. -/
structure IsCutOff (source : Text) (root : Element)
    (r : Log × Except Failure (List LayerReference)) : Prop where
  failure : r.2 = .error .nestedTooDeep
  warnings : ∃ rs log, Mirrors source root rs log ∧ r.1 <+: log

/-- What is read of a layer whose document is known, in bytes or as a text. -/
inductive IsReading (depth : Nat) (source : Text) (root : Element) :
    Log × Except Failure (List LayerReference) → Prop
  | ofBytes {bytes : Bytes} : Element.ofBytes bytes = .ok root →
      IsReading depth source root (ofBytes depth source bytes)
  | ofText {text : Text} {bytes : Bytes} : text.toUtf8? = some bytes →
      Element.ofUtf8 bytes = .ok root → IsReading depth source root (ofText depth source text)

theorem IsReading.eq_ofDocument {depth : Nat} {r : Log × Except Failure (List LayerReference)}
    (h : IsReading depth source root r) : r = ofDocument depth source (.ok root) := by
  cases h with
  | ofBytes hroot => rw [Layer.ofBytes, hroot]
  | ofText htext hroot =>
      rw [Layer.ofText, htext]
      exact congrArg (ofDocument depth source) hroot

/-- A document is read to its end, or up to an element that is nested too deep. -/
theorem ofDocument_cases (depth : Nat) (source : Text) (root : Element) :
    (root.IsWithin depth ∧ ofDocument depth source (.ok root) =
      ((references source (bundleValues [] root)).2,
        .ok (references source (bundleValues [] root)).1)) ∨
    (¬root.IsWithin depth ∧ IsCutOff source root (ofDocument depth source (.ok root))) := by
  rw [ofDocument]
  rcases valuesIn_cases depth [] root with ⟨hwithin, heq⟩ | ⟨hwithin, values, hprefix, heq⟩
  · rw [heq]
    exact .inl ⟨hwithin, rfl⟩
  · rw [heq]
    have hwarnings :
        (references source values).2 <+: (references source (bundleValues [] root)).2 := by
      rw [references_eq, references_eq]
      exact hprefix.filterMap _
    exact .inr ⟨hwithin, rfl, _, _, mirrors_references source root, hwarnings⟩

/-- **The references of a layer mirror its document just if that is not nested too deep,** whether
it is read from a text or from bytes: then there is one reference for each element whose bundle
value has a number sign, in the order of the document, and it says what stands there; and there is
one warning for each element whose bundle value has none. Else the layer has no references, and
reading it fails. -/
theorem isMirror_iff_isWithin {depth : Nat} {r : Log × Except Failure (List LayerReference)}
    (h : IsReading depth source root r) :
    (IsMirror source root r ↔ root.IsWithin depth) ∧
      (¬root.IsWithin depth → IsCutOff source root r) := by
  rw [h.eq_ofDocument]
  rcases ofDocument_cases depth source root with ⟨hwithin, heq⟩ | ⟨hwithin, hcut⟩
  · refine ⟨iff_of_true ?_ hwithin, fun hnot => absurd hwithin hnot⟩
    rw [heq]
    exact ⟨_, rfl, mirrors_references source root⟩
  · refine ⟨iff_of_false (fun hmirror => ?_) hwithin, fun _ => hcut⟩
    obtain ⟨rs, hrs, -⟩ := hmirror
    cases hcut.failure.symm.trans hrs

/-- A document with a number sign in a key, an empty name, a value without a number sign, and a last
reference that stands outside of the elements before it. -/
def nestedLayer : Text :=
  "<a name='x'><b name='y' bundlevalue='p.q.B#k#l'><c name='' bundlevalue='z'/></b>"
    ++ "<d bundlevalue='#m'/></a>"

/-- The bytes of this document. -/
def nestedBytes : Bytes := nestedLayer.map UInt8.ofNat

theorem isMirror_iff_isWithin_sample :
    ∃ root, Element.ofBytes nestedBytes = .ok root ∧
      Text.toUtf8? nestedLayer = some nestedBytes ∧ Element.ofUtf8 nestedBytes = .ok root ∧
      IsMirror "l" root (ofBytes 3 "l" nestedBytes) ∧
      IsMirror "l" root (ofText 3 "l" nestedLayer) ∧
      (ofBytes 3 "l" nestedBytes).2.toOption =
        some [⟨"p/q", "k#l", "/x/y/bundlevalue"⟩, ⟨[], "m", "/x/bundlevalue"⟩] ∧
      (ofBytes 3 "l" nestedBytes).1 = [.warn "Skipping malformed bundlevalue in l: z"] ∧
      IsCutOff "l" root (ofBytes 2 "l" nestedBytes) := by
  have hutf8 : Text.toUtf8? nestedLayer = some nestedBytes := by decide +kernel
  have hunits : Xml.Units.ofBytes nestedBytes = (.bytes, nestedBytes) := by decide +kernel
  have hcharset : (Xml.declarationOf? (Xml.ofUtf8 nestedBytes)).map (·.1.charset) = some none := by
    decide +kernel
  have hsame : Element.ofUtf8 nestedBytes = Element.ofBytes nestedBytes := by
    obtain ⟨⟨d, rest⟩, hdeclaration, hnone⟩ := Option.map_eq_some_iff.1 hcharset
    have hnone : d.charset = none := hnone
    simp only [Element.ofUtf8, Element.ofBytes, hunits, hdeclaration, hnone]
  have hread : (ofBytes 3 "l" nestedBytes).2.toOption =
      some [⟨"p/q", "k#l", "/x/y/bundlevalue"⟩, ⟨[], "m", "/x/bundlevalue"⟩] := by decide +kernel
  have hwarned : (ofBytes 3 "l" nestedBytes).1 =
    [.warn "Skipping malformed bundlevalue in l: z"] := by
    decide +kernel
  have hfailed : (ofBytes 2 "l" nestedBytes).2.toOption = none := by decide +kernel
  cases hroot : Element.ofBytes nestedBytes with
  | error fault =>
      rw [ofBytes, hroot] at hread
      cases fault <;> cases hread
  | ok root =>
      have hutf8Root : Element.ofUtf8 nestedBytes = .ok root := hsame.trans hroot
      have hreadingBytes : IsReading 3 "l" root (ofBytes 3 "l" nestedBytes) := .ofBytes hroot
      have hreadingText : IsReading 3 "l" root (ofText 3 "l" nestedLayer) := .ofText hutf8 hutf8Root
      have hreadingShort : IsReading 2 "l" root (ofBytes 2 "l" nestedBytes) := .ofBytes hroot
      have hbytes := isMirror_iff_isWithin hreadingBytes
      have htext := isMirror_iff_isWithin hreadingText
      have hshort := isMirror_iff_isWithin hreadingShort
      -- how deep the document is shows in what is read of it
      have hwithin : root.IsWithin 3 := by
        by_contra hnot
        rw [(hbytes.2 hnot).failure] at hread
        cases hread
      have hdeep : ¬root.IsWithin 2 := by
        intro h
        obtain ⟨rs, hrs, -⟩ := hshort.1.2 h
        rw [hrs] at hfailed
        cases hfailed
      exact ⟨root, rfl, hutf8, hutf8Root, hbytes.1.2 hwithin, htext.1.2 hwithin, hread, hwarned,
        hshort.2 hdeep⟩

/-! ### A layer that is nested too deep -/

/-- An element inside of `n` others, each of which has nothing but the next inside. -/
def nested (inner : Element) : Nat → Element
  | 0 => inner
  | n + 1 => .mk "a" [] [nested inner n]

theorem lineage?_nested (inner : Element) (n : Nat) : ∃ around, around.length = n ∧
    (nested inner n).lineage? (List.replicate n 0) = some (around ++ [inner]) := by
  induction n with
  | zero => exact ⟨[], rfl, rfl⟩
  | succ n ih =>
      obtain ⟨around, hlength, hlineage⟩ := ih
      refine ⟨nested inner (n + 1) :: around, congrArg (· + 1) hlength, ?_⟩
      rw [List.replicate_succ, Element.lineage?_cons]
      simp [nested, Element.children, hlineage]

theorem not_isWithin_nested {depth n : Nat} (inner : Element) (h : depth ≤ n) :
    ¬(nested inner n).IsWithin depth := by
  intro hwithin
  obtain ⟨around, rfl, hlineage⟩ := lineage?_nested inner n
  have hlength := hwithin _ _ hlineage
  rw [List.length_append, List.length_singleton] at hlength
  omega

theorem valueAt?_nested (inner : Element) (n : Nat) :
    valueAt? (nested inner n) (List.replicate n 0) = inner.attribute? bundleAttribute := by
  obtain ⟨around, -, hlineage⟩ := lineage?_nested inner n
  rw [valueAt?, hlineage]
  simp

/-- One reference, inside of a thousand elements. -/
def deepLayer : Element := nested (.mk "b" [(bundleAttribute, "p.B#k")] []) 1000

/-- The reference of a document may be lost, and with it all that is read of the layer. -/
theorem deepLayer_is_cut_off :
    valueAt? deepLayer (List.replicate 1000 0) = some "p.B#k" ∧
      ¬IsMirror "l" deepLayer (ofDocument Depths.standard.elements "l" (.ok deepLayer)) := by
  constructor
  case left => exact valueAt?_nested _ 1000
  case right =>
      intro hmirror
      obtain ⟨rs, hrs, -⟩ := hmirror
      rcases ofDocument_cases Depths.standard.elements "l" deepLayer with ⟨hwithin, -⟩ | ⟨-, hcut⟩
      · exact not_isWithin_nested _ (by decide) hwithin
      · cases hcut.failure.symm.trans hrs

end BundleAudit.Layer
