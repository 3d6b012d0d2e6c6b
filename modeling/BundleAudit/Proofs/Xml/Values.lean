import BundleAudit.Proofs.KeyedList
import BundleAudit.Proofs.Text.Scalar
import BundleAudit.Xml.Subset
import Mathlib.Data.Option.Basic

/-!
# BundleAudit.Proofs.Xml.Values

**The values of attributes hold only characters of documents,** however they come about.
A reference by number must give such a character, the text of an entity is read like
the text of a value, and all else is looked at one by one (`all_isCharacter_attributeValue?`).
So do the values that a document type defines where an element gives none
(`Definitions.HasProperDefaults.documentType?`).
-/

namespace BundleAudit.Xml

/-- No character of a document is a surrogate. -/
theorem isScalar_of_isCharacter {c : Nat} (h : isCharacter c = true) : Code.isScalar c = true := by
  unfold isCharacter at h
  split at h
  · next hlow => exact Code.isScalar_of_ascii (Nat.lt_trans hlow (by decide))
  · exact (Bool.and_eq_true_iff.1 (Bool.and_eq_true_iff.1 h).1).1

theorem of_guard {p : Prop} [Decidable p] {u : Unit}
    (h : (guard p : Option Unit) = some u) : p := by
  by_cases hp : p
  · exact hp
  · have hnone : (guard p : Option Unit) = none := if_neg hp
    cases h.symm.trans hnone

/-! ### Parts of a value -/

/-- A part of a value that stands for a character stands for one of a document. -/
def ValuePart.IsProper : ValuePart → Prop
  | .character c => isCharacter c = true
  | _ => True

variable {d d' : Definitions} {t rest value : Text} {parts : List ValuePart}

theorem isProper_of_ofBody? {body : Text} {r : Reference} (h : Reference.ofBody? body = some r) :
    (ValuePart.ofReference r).IsProper := by
  unfold Reference.ofBody? at h
  split at h
  · obtain ⟨n, -, h⟩ := Option.bind_eq_some_iff.1 h
    obtain ⟨_, hguard, h⟩ := Option.bind_eq_some_iff.1 h
    have hn : isCharacter n = true := of_guard hguard
    exact Option.some.inj h ▸ hn
  · obtain ⟨n, -, h⟩ := Option.bind_eq_some_iff.1 h
    obtain ⟨_, hguard, h⟩ := Option.bind_eq_some_iff.1 h
    have hn : isCharacter n = true := of_guard hguard
    exact Option.some.inj h ▸ hn
  · obtain ⟨⟨name, rest⟩, -, h⟩ := Option.bind_eq_some_iff.1 h
    obtain ⟨_, -, h⟩ := Option.bind_eq_some_iff.1 h
    exact Option.some.inj h ▸ trivial

theorem isProper_of_reference? {r : Reference} (h : reference? t = some (r, rest)) :
    (ValuePart.ofReference r).IsProper := by
  obtain ⟨⟨body, after⟩, -, h⟩ := Option.bind_eq_some_iff.1 h
  obtain ⟨r', hbody, h⟩ := Option.bind_eq_some_iff.1 h
  obtain ⟨rfl, -⟩ := Prod.mk.inj (Option.some.inj h)
  exact isProper_of_ofBody? hbody

theorem isProper_of_mem_valueParts? (h : valueParts? t = some parts) :
    ∀ part ∈ parts, part.IsProper := by
  fun_induction valueParts? t generalizing parts with
  | case1 => exact Option.some.inj h ▸ nofun
  | case2 rest hnone => cases h
  | case3 rest r after hreference _ ih =>
      obtain ⟨more, hmore, rfl⟩ := Option.map_eq_some_iff.1 h
      exact List.forall_mem_cons.2 ⟨isProper_of_reference? hreference, ih hmore⟩
  | case4 c rest _ _ ih => exact ih h
  | case5 c rest _ _ _ ih =>
      obtain ⟨more, hmore, rfl⟩ := Option.map_eq_some_iff.1 h
      exact List.forall_mem_cons.2 ⟨trivial, ih hmore⟩
  | case6 c rest => cases h
  | case7 c rest _ _ _ hproper ih =>
      obtain ⟨more, hmore, rfl⟩ := Option.map_eq_some_iff.1 h
      have hc : isCharacter c = true := by simp_all
      exact List.forall_mem_cons.2 ⟨hc, ih hmore⟩

/-! ### Values -/

/-- A value as far as it is read holds only characters of documents. -/
def ValueSoFar.IsProper (v : ValueSoFar) : Prop := ∀ c ∈ v.reversed, isCharacter c = true

theorem ValueSoFar.IsProper.cons {v : ValueSoFar} (hv : v.IsProper) {c : Code}
    (hc : isCharacter c = true) : IsProper { v with reversed := c :: v.reversed } :=
  List.forall_mem_cons.2 ⟨hc, hv⟩

theorem ValueSoFar.IsProper.addSpace {v : ValueSoFar} (hv : v.IsProper) (tokenized : Bool) :
    (v.addSpace tokenized).IsProper := by
  unfold ValueSoFar.addSpace
  split
  · exact hv
  · exact hv.cons (by decide)

theorem isCharacter_of_predefined {name : Text} {c : Code} (h : predefined.lookup name = some c) :
    isCharacter c = true := by
  have hall : ∀ p ∈ predefined, isCharacter p.2 = true := by decide
  obtain ⟨before, after, hsplit, -⟩ := List.lookup_eq_some_iff.1 h
  exact hall (name, c) (hsplit ▸ List.mem_append_right _ List.mem_cons_self)

theorem isProper_addParts {tokenized : Bool} {depth : Nat} {open_ : List Text} {v w : ValueSoFar}
    (h : addParts d tokenized depth open_ parts v = some w) (hparts : ∀ part ∈ parts, part.IsProper)
    (hv : v.IsProper) : w.IsProper := by
  induction depth generalizing open_ parts v w with
  | zero => cases h
  | succ depth ih =>
      rw [addParts] at h
      induction parts generalizing v with
      | nil => exact Option.some.inj h ▸ hv
      | cons part rest ihrest =>
          obtain ⟨hpart, hrest⟩ := List.forall_mem_cons.1 hparts
          obtain ⟨u, hu, h⟩ := Option.bind_eq_some_iff.1 h
          refine ihrest h hrest ?_
          cases part with
          | blank => exact Option.some.inj hu ▸ hv.addSpace tokenized
          | character c =>
              dsimp only at hu
              split at hu
              · exact Option.some.inj hu ▸ hv.addSpace tokenized
              · exact Option.some.inj hu ▸ hv.cons hpart
          | entity name =>
              dsimp only at hu
              split at hu
              · next c _ hname =>
                  exact Option.some.inj hu ▸ hv.cons (isCharacter_of_predefined hname)
              · split at hu
                · cases hu
                · exact Option.some.inj hu ▸ hv
              · next text _ _ =>
                  -- the text of an entity has parts of its own
                  obtain ⟨_, -, hu⟩ := Option.bind_eq_some_iff.1 hu
                  obtain ⟨inner, hinner, hu⟩ := Option.bind_eq_some_iff.1 hu
                  exact ih hu (isProper_of_mem_valueParts? hinner) hv
              · cases hu

/-- **The value of an attribute holds only characters of documents,** whatever was defined. -/
theorem all_isCharacter_attributeValue? {tokenized : Bool} {spent spent' : Nat} {raw : Text}
    (h : attributeValue? d tokenized spent raw = some (value, spent')) :
    ∀ c ∈ value, isCharacter c = true := by
  obtain ⟨parts, hparts, h⟩ := Option.bind_eq_some_iff.1 h
  obtain ⟨v, hv, h⟩ := Option.bind_eq_some_iff.1 h
  obtain ⟨rfl, -⟩ := Prod.mk.inj (Option.some.inj h)
  have hproper := isProper_addParts hv (isProper_of_mem_valueParts? hparts) nofun
  intro c hc
  rw [List.mem_reverse] at hc
  split at hc
  · exact hproper c (List.mem_of_mem_drop hc)
  · exact hproper c hc

/-! ### Definitions -/

/-- The values that a document defines for attributes hold only characters of documents. -/
def Definitions.HasProperDefaults (d : Definitions) : Prop :=
  ∀ element, ∀ rule ∈ d.rules element, ∀ value ∈ rule.2.default, ∀ c ∈ value, isCharacter c = true

namespace Definitions.HasProperDefaults

theorem addEntity (h : d.HasProperDefaults) (name : Text) (e : Entity) :
    (d.addEntity name e).HasProperDefaults := by
  unfold Definitions.addEntity
  split
  · exact h
  · exact h

theorem addRule (h : d.HasProperDefaults) (element name : Text) {rule : AttributeRule}
    (hrule : ∀ value ∈ rule.default, ∀ c ∈ value, isCharacter c = true) :
    (d.addRule element name rule).HasProperDefaults := by
  unfold Definitions.addRule
  split
  · exact h
  · intro other p hp
    have hrules : rules { d with
        attributes := d.attributes.alter element [] (·.set name rule) } other =
          if other = element then (d.rules element).set name rule else d.rules other := by
      unfold rules KeyedList.alter
      rw [KeyedList.get?_set]
      split
      · rfl
      · rfl
    rw [hrules] at hp
    split at hp
    · rcases KeyedList.mem_of_mem_set hp with rfl | hp
      · exact hrule
      · exact h element p hp
    · exact h other p hp

theorem declareEntity? {ms : List Mark} (h : d.HasProperDefaults)
    (hd : Xml.declareEntity? d ms = some d') : d'.HasProperDefaults := by
  unfold Xml.declareEntity? at hd
  split at hd
  · split at hd
    · obtain ⟨text, -, rfl⟩ := Option.map_eq_some_iff.1 hd
      exact h.addEntity _ _
    · exact Option.some.inj hd ▸ h
  · split at hd
    · obtain ⟨text, -, rfl⟩ := Option.map_eq_some_iff.1 hd
      exact h
    · exact Option.some.inj hd ▸ h
  · split at hd
    · exact Option.some.inj hd ▸ h
    · cases hd
  · split at hd
    · exact Option.some.inj hd ▸ h.addEntity _ _
    · split at hd
      · split at hd
        · exact Option.some.inj hd ▸ h.addEntity _ _
        · cases hd
      · cases hd
  · cases hd

theorem declareAttributes? {element : Text} {n : Nat} {ms : List Mark} (h : d.HasProperDefaults)
    (hd : Xml.declareAttributes? element n d ms = some d') : d'.HasProperDefaults := by
  induction n generalizing d ms with
  | zero =>
      unfold Xml.declareAttributes? at hd
      split at hd
      · exact Option.some.inj hd ▸ h
      · cases hd
      · next heq => cases heq
      · next heq => cases heq
      · cases hd
  | succ n ih =>
      have hwithDefault : ∀ {name value : Text} {tokenized : Bool} {rest : List Mark},
          (if d.reading then
            (attributeValue? d tokenized 0 value).bind fun read =>
              Xml.declareAttributes? element n
                (d.addRule element name ⟨tokenized, some read.1⟩) rest
          else Xml.declareAttributes? element n d rest) = some d' → d'.HasProperDefaults := by
        intro name value tokenized rest hd
        split at hd
        · obtain ⟨⟨value', spent⟩, hvalue, hd⟩ := Option.bind_eq_some_iff.1 hd
          refine ih (h.addRule element name fun v hv => ?_) hd
          exact Option.some.inj hv ▸ all_isCharacter_attributeValue? hvalue
        · exact ih h hd
      have hone : ∀ {name : Text} {rest : List Mark},
          Xml.declareAttributes?.declareAttribute element n d name rest = some d' →
            d'.HasProperDefaults := by
        intro name rest hd
        unfold Xml.declareAttributes?.declareAttribute at hd
        obtain ⟨⟨tokenized, rest⟩, -, hd⟩ := Option.bind_eq_some_iff.1 hd
        dsimp only at hd
        split at hd
        · exact hwithDefault hd
        · split at hd
          · split at hd
            · exact hwithDefault hd
            · cases hd
          · split at hd
            · refine ih ?_ hd
              split
              · exact h.addRule element name fun v hv => by cases hv
              · exact h
            · cases hd
        · cases hd
      unfold Xml.declareAttributes? at hd
      split at hd
      · exact Option.some.inj hd ▸ h
      · cases hd
      · next heq =>
          cases heq
          exact hone hd
      · next heq =>
          cases heq
          exact hone hd
      · cases hd

theorem declare? {kind : Text} {ms : List Mark} (h : d.HasProperDefaults)
    (hd : Xml.declare? d kind ms = some d') : d'.HasProperDefaults := by
  unfold Xml.declare? at hd
  split at hd
  · exact h.declareEntity? hd
  split at hd
  · split at hd
    · exact h.declareAttributes? hd
    · exact h.declareAttributes? hd
    · cases hd
  split at hd
  · split at hd
    · split at hd
      · exact Option.some.inj hd ▸ h
      · cases hd
    · split at hd
      · exact Option.some.inj hd ▸ h
      · cases hd
    · cases hd
  split at hd
  · split at hd
    · split at hd
      · exact Option.some.inj hd ▸ h
      · cases hd
    · cases hd
  · cases hd

theorem subset? {n : Nat} (h : d.HasProperDefaults) (hd : Xml.subset? n d t = some (d', rest)) :
    d'.HasProperDefaults := by
  induction n generalizing d t with
  | zero => cases hd
  | succ n ih =>
      rw [Xml.subset?] at hd
      split at hd
      · exact (Prod.mk.inj (Option.some.inj hd)).1 ▸ h
      · obtain ⟨⟨name, rest'⟩, -, hd⟩ := Option.bind_eq_some_iff.1 hd
        dsimp only at hd
        split at hd
        · exact ih (d := { d with refersElsewhere := true, reading := d.reading && d.standalone })
            h hd
        · cases hd
      · obtain ⟨⟨_, rest'⟩, -, hd⟩ := Option.bind_eq_some_iff.1 hd
        exact ih h hd
      · obtain ⟨⟨_, rest'⟩, -, hd⟩ := Option.bind_eq_some_iff.1 hd
        exact ih h hd
      · obtain ⟨⟨⟨kind, ms, stop⟩, rest'⟩, -, hd⟩ := Option.bind_eq_some_iff.1 hd
        obtain ⟨_, -, hd⟩ := Option.bind_eq_some_iff.1 hd
        obtain ⟨d₁, hdeclare, hd⟩ := Option.bind_eq_some_iff.1 hd
        exact ih (h.declare? hdeclare) hd
      · cases hd

/-- **A document type defines only values that hold characters of documents.** -/
theorem documentType? (h : d.HasProperDefaults) (hd : Xml.documentType? d t = some (d', rest)) :
    d'.HasProperDefaults := by
  obtain ⟨⟨⟨kind, ms, stop⟩, rest'⟩, -, hd⟩ := Option.bind_eq_some_iff.1 hd
  obtain ⟨_, -, hd⟩ := Option.bind_eq_some_iff.1 hd
  dsimp only at hd
  split at hd
  case h_3 => cases hd
  -- whatever stands outside the type
  all_goals
    obtain ⟨external, -, hd⟩ := Option.bind_eq_some_iff.1 hd
    obtain ⟨_, -, hd⟩ := Option.bind_eq_some_iff.1 hd
    split at hd
    · obtain ⟨⟨d₁, rest₁⟩, hsubset, hd⟩ := Option.bind_eq_some_iff.1 hd
      have hproper : d₁.HasProperDefaults := subset? (by exact h) hsubset
      dsimp only at hd
      split at hd
      · exact (Prod.mk.inj (Option.some.inj hd)).1 ▸ hproper
      · cases hd
    · exact (Prod.mk.inj (Option.some.inj hd)).1 ▸ h

end Definitions.HasProperDefaults

end BundleAudit.Xml
