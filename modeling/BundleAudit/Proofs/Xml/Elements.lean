import BundleAudit.Proofs.Xml.Values
import BundleAudit.Xml.Document

/-!
# BundleAudit.Proofs.Xml.Elements

**The elements of a document hold only characters of documents in their attributes**
(`isProper_ofBytes`). Each step of reading keeps that for the elements that are still
open and for those inside them (`isProper_contentStep?`): a tag adds values that were
read or defined, and an element that ends is put into the one around it.
-/

namespace BundleAudit.Xml

/-- The values of all attributes in an element hold only characters of documents. -/
inductive Element.IsProper : Element → Prop
  | mk {name : Text} {attributes : KeyedList Text Text} {children : List Element}
      (values : ∀ a ∈ attributes, ∀ c ∈ a.2, isCharacter c = true)
      (inside : ∀ child ∈ children, child.IsProper) : IsProper (.mk name attributes children)

variable {d : Definitions} {s : ContentState} {scope scope' : Scope} {t rest : Text}

/-! ### Tags -/

/-- The values of attributes stay what they are when the names get their namespaces. -/
theorem exists_of_mem_attributes? {attributes named : KeyedList Text Text}
    (h : scope.attributes? attributes = some named) {a : Text × Text} (ha : a ∈ named) :
    ∃ b ∈ attributes, b.2 = a.2 := by
  obtain ⟨named', hnamed, h⟩ := Option.bind_eq_some_iff.1 h
  obtain ⟨_, -, h⟩ := Option.bind_eq_some_iff.1 h
  obtain rfl := Option.some.inj h
  obtain ⟨b, hb, hname⟩ := Text.exists_of_mapM_eq_some hnamed ha
  obtain ⟨name, -, rfl⟩ := Option.map_eq_some_iff.1 hname
  exact ⟨b, (List.mem_filter.1 hb).1, rfl⟩

/-- The values that a tag gives, as they are read one after the other. -/
theorem isCharacter_of_given {rules : KeyedList Text AttributeRule}
    {raws : List (Text × Text)} {given given' : KeyedList Text Text} {spent spent' : Nat}
    (h : raws.foldlM (fun (given, spent) (name, raw) => do
      let tokenized := (rules.get? name).any (·.tokenized)
      let (value, spent) ← attributeValue? d tokenized spent raw
      return (given ++ [(name, value)], spent)) (given, spent) = some (given', spent'))
    (hgiven : ∀ a ∈ given, ∀ c ∈ a.2, isCharacter c = true) :
    ∀ a ∈ given', ∀ c ∈ a.2, isCharacter c = true := by
  induction raws generalizing given spent with
  | nil => exact (Prod.mk.inj (Option.some.inj h)).1 ▸ hgiven
  | cons x more ih =>
      obtain ⟨⟨given₁, spent₁⟩, hone, h⟩ := Option.bind_eq_some_iff.1 h
      obtain ⟨⟨value, spent₂⟩, hvalue, hone⟩ := Option.bind_eq_some_iff.1 hone
      obtain ⟨rfl, rfl⟩ := Prod.mk.inj (Option.some.inj hone)
      refine ih h (List.forall_mem_append.2 ⟨hgiven, List.forall_mem_singleton.2 ?_⟩)
      exact all_isCharacter_attributeValue? hvalue

theorem isCharacter_of_open? (hd : d.HasProperDefaults) {spent spent' : Nat} {tag : StartTag}
    {name : Text} {attributes : KeyedList Text Text}
    (h : open? d scope spent tag = some (name, attributes, scope', spent')) :
    ∀ a ∈ attributes, ∀ c ∈ a.2, isCharacter c = true := by
  obtain ⟨_, -, h⟩ := Option.bind_eq_some_iff.1 h
  obtain ⟨⟨given, spent₁⟩, hgiven, h⟩ := Option.bind_eq_some_iff.1 h
  obtain ⟨scope₁, -, h⟩ := Option.bind_eq_some_iff.1 h
  obtain ⟨name₁, -, h⟩ := Option.bind_eq_some_iff.1 h
  obtain ⟨attributes₁, hattributes, h⟩ := Option.bind_eq_some_iff.1 h
  obtain ⟨-, rfl, -⟩ : name₁ = name ∧ attributes₁ = attributes ∧ _ := by
    simpa using Option.some.inj h
  intro a ha
  obtain ⟨b, hb, heq⟩ := exists_of_mem_attributes? hattributes ha
  rw [← heq]
  rcases List.mem_append.1 hb with hb | hb
  · exact isCharacter_of_given hgiven nofun b hb
  · obtain ⟨rule, hrule, hb⟩ := List.mem_filterMap.1 hb
    dsimp only at hb
    split at hb
    · cases hb
    · obtain ⟨value, hvalue, rfl⟩ := Option.map_eq_some_iff.1 hb
      exact hd tag.name rule hrule value hvalue

/-! ### Content -/

/-- What is known of an open element: its own values, and the elements inside it. -/
def OpenElement.IsProper (e : OpenElement) : Prop :=
  (∀ a ∈ e.attributes, ∀ c ∈ a.2, isCharacter c = true) ∧ ∀ child ∈ e.inside, child.IsProper

/-- All elements that are open are proper. -/
def ContentState.IsProper (s : ContentState) : Prop := ∀ e ∈ s.open_, e.IsProper

/-- What a step adds to a document is proper. -/
def ContentStep.IsProper : ContentStep → Prop
  | .next s => s.IsProper
  | .complete root _ => root.IsProper

theorem OpenElement.IsProper.close {e : OpenElement} (h : e.IsProper) : e.close.IsProper :=
  .mk h.1 fun child hchild => h.2 child (List.mem_reverse.1 hchild)

theorem ContentState.IsProper.place (h : s.IsProper) {element : Element}
    (helement : element.IsProper)
    (rest : Text) : (s.place element rest).IsProper := by
  unfold ContentState.place
  split
  · next parent outer hopen =>
      obtain ⟨hparent, houter⟩ :=
        List.forall_mem_cons.1 (hopen ▸ h : ∀ e ∈ parent :: outer, e.IsProper)
      exact List.forall_mem_cons.2
        ⟨⟨hparent.1, List.forall_mem_cons.2 ⟨helement, hparent.2⟩⟩, houter⟩
  · exact helement

theorem isProper_openElement? (hd : d.HasProperDefaults) (h : s.IsProper) {tag : StartTag}
    {step : ContentStep} (hstep : openElement? d s tag rest = some step) : step.IsProper := by
  obtain ⟨⟨name, attributes, scope, spent⟩, hopen, hstep⟩ := Option.bind_eq_some_iff.1 hstep
  have hvalues := isCharacter_of_open? hd hopen
  dsimp only at hstep
  split at hstep
  · have helement : Element.IsProper (.mk name attributes []) := .mk hvalues fun _ => nofun
    exact Option.some.inj hstep ▸ ContentState.IsProper.place
      (s := { s with spent }) h helement rest
  · have hopened : OpenElement.IsProper ⟨tag.name, name, attributes, scope, []⟩ :=
      ⟨hvalues, fun _ => nofun⟩
    exact Option.some.inj hstep ▸ List.forall_mem_cons.2 ⟨hopened, h⟩

theorem isProper_closeElement? (h : s.IsProper) {level : Nat} {name : Text} {step : ContentStep}
    (hstep : closeElement? s level name rest = some step) : step.IsProper := by
  unfold closeElement? at hstep
  split at hstep
  · next e outer hopen =>
      obtain ⟨he, houter⟩ := List.forall_mem_cons.1 (hopen ▸ h : ∀ e' ∈ e :: outer, e'.IsProper)
      split at hstep
      · exact Option.some.inj hstep ▸
          ContentState.IsProper.place (s := { s with open_ := outer }) houter he.close rest
      · cases hstep
  · cases hstep

theorem isProper_openEntity? (h : s.IsProper) {name : Text} {step : ContentStep}
    (hstep : openEntity? d s name = some step) : step.IsProper := by
  unfold openEntity? at hstep
  split at hstep
  · exact Option.some.inj hstep ▸ h
  · split at hstep
    · obtain ⟨_, -, hstep⟩ := Option.bind_eq_some_iff.1 hstep
      obtain ⟨_, -, hstep⟩ := Option.bind_eq_some_iff.1 hstep
      exact Option.some.inj hstep ▸ h
    · cases hstep

/-- One step keeps what is known of the open elements. -/
theorem isProper_contentStep? (hd : d.HasProperDefaults) (h : s.IsProper) {step : ContentStep}
    (hstep : contentStep? d s = some step) : step.IsProper := by
  unfold contentStep? at hstep
  split at hstep
  · cases hstep
  · next current outer htexts =>
      -- a text that goes on elsewhere leaves the elements as they are
      have hgo : ∀ rest, ContentState.IsProper
          { s with texts := { current with text := rest } :: outer } := fun _ => h
      dsimp only at hstep
      split at hstep
      · split at hstep
        · exact Option.some.inj hstep ▸ h
        · cases hstep
      · obtain ⟨⟨name, rest⟩, -, hstep⟩ := Option.bind_eq_some_iff.1 hstep
        exact isProper_closeElement? (hgo rest) hstep
      · obtain ⟨⟨_, rest⟩, -, hstep⟩ := Option.bind_eq_some_iff.1 hstep
        exact Option.some.inj hstep ▸ hgo rest
      · obtain ⟨⟨_, rest⟩, -, hstep⟩ := Option.bind_eq_some_iff.1 hstep
        exact Option.some.inj hstep ▸ hgo rest
      · obtain ⟨after, -, hstep⟩ := Option.bind_eq_some_iff.1 hstep
        obtain ⟨⟨_, rest⟩, -, hstep⟩ := Option.bind_eq_some_iff.1 hstep
        exact Option.some.inj hstep ▸ hgo rest
      · obtain ⟨⟨tag, rest⟩, -, hstep⟩ := Option.bind_eq_some_iff.1 hstep
        exact isProper_openElement? hd (hgo rest) hstep
      · obtain ⟨⟨reference, rest⟩, -, hstep⟩ := Option.bind_eq_some_iff.1 hstep
        cases reference with
        | character c => exact Option.some.inj hstep ▸ hgo rest
        | entity name => exact isProper_openEntity? (hgo rest) hstep
      · obtain ⟨⟨_, rest⟩, -, hstep⟩ := Option.bind_eq_some_iff.1 hstep
        exact Option.some.inj hstep ▸ hgo rest

theorem isProper_runContent? (hd : d.HasProperDefaults) {steps : Nat} (h : s.IsProper)
    {root : Element} (hrun : runContent? d steps s = some (root, rest)) : root.IsProper := by
  induction steps generalizing s with
  | zero => cases hrun
  | succ steps ih =>
      obtain ⟨step, hstep, hrun⟩ := Option.bind_eq_some_iff.1 hrun
      have hproper := isProper_contentStep? hd h hstep
      cases step with
      | next s' => exact ih hproper hrun
      | complete root' rest' =>
          obtain ⟨rfl, -⟩ := Prod.mk.inj (Option.some.inj hrun)
          exact hproper

theorem isProper_element? (hd : d.HasProperDefaults) {root : Element}
    (h : element? d t = some (root, rest)) : root.IsProper := by
  unfold element? at h
  split at h
  · obtain ⟨⟨tag, after⟩, -, h⟩ := Option.bind_eq_some_iff.1 h
    obtain ⟨step, hstep, h⟩ := Option.bind_eq_some_iff.1 h
    have hproper := isProper_openElement? hd (s := ⟨[], [⟨after, none, 0⟩], 0⟩) nofun hstep
    cases step with
    | next s' => exact isProper_runContent? hd hproper h
    | complete root' rest' =>
        obtain ⟨rfl, -⟩ := Prod.mk.inj (Option.some.inj h)
        exact hproper
  · cases h

/-! ### Documents -/

/-- The element between what may stand before it and behind it. -/
theorem isProper_root? (hd : d.HasProperDefaults) {root : Element}
    (h : ((skipMisc? (t.length + 1) t).bind fun before => (element? d before).bind fun read =>
      (skipMisc? (read.2.length + 1) read.2).bind fun after =>
        (guard after.isEmpty : Option Unit).bind fun _ => some read.1) = some root) :
    root.IsProper := by
  obtain ⟨before, -, h⟩ := Option.bind_eq_some_iff.1 h
  obtain ⟨⟨root', rest⟩, helement, h⟩ := Option.bind_eq_some_iff.1 h
  obtain ⟨after, -, h⟩ := Option.bind_eq_some_iff.1 h
  obtain ⟨_, -, h⟩ := Option.bind_eq_some_iff.1 h
  exact Option.some.inj h ▸ isProper_element? hd helement

theorem isProper_body? {standalone : Bool} {limit : Nat} {root : Element}
    (h : body? standalone limit t = some root) : root.IsProper := by
  obtain ⟨t₁, -, h⟩ := Option.bind_eq_some_iff.1 h
  have hstart : Definitions.HasProperDefaults { standalone, limit } := fun element => nofun
  dsimp only at h
  split at h
  · obtain ⟨⟨d, t₂⟩, htype, h⟩ := Option.bind_eq_some_iff.1 h
    exact isProper_root? (hstart.documentType? htype) h
  · exact isProper_root? hstart h

theorem isProper_afterDeclaration {size : Nat} {declaration : Declaration} {root : Element}
    (h : Element.afterDeclaration size declaration t = .ok root) : root.IsProper := by
  unfold Element.afterDeclaration at h
  split at h
  · next hbody => exact Except.ok.inj h ▸ isProper_body? hbody
  · cases h

/-- **The attributes of a document hold only characters of documents,** whatever its bytes are. -/
theorem isProper_ofBytes {bytes : Bytes} {root : Element} (h : Element.ofBytes bytes = .ok root) :
    root.IsProper := by
  unfold Element.ofBytes at h
  dsimp only at h
  split at h
  · cases h
  · split at h
    · exact isProper_afterDeclaration h
    · next name _ =>
        generalize restInCharset _ _ _ _ name = r at h
        cases r with
        | error fault => cases h
        | ok rest => exact isProper_afterDeclaration h

/-! ### Declared character sets -/

theorem isCharacter_of_literal? {value : Text} (h : literal? t = some (value, rest)) :
    ∀ c ∈ value, isCharacter c = true := by
  have hquoted : ∀ {quote : Code} {t : Text}, quotedValue? quote t = some (value, rest) →
      ∀ c ∈ value, isCharacter c = true := by
    intro quote t h
    obtain ⟨⟨value', rest'⟩, -, h⟩ := Option.bind_eq_some_iff.1 h
    obtain ⟨_, hguard, h⟩ := Option.bind_eq_some_iff.1 h
    obtain ⟨rfl, -⟩ := Prod.mk.inj (Option.some.inj h)
    exact List.all_eq_true.1 (of_guard hguard)
  unfold literal? at h
  split at h
  · exact hquoted h
  · exact hquoted h
  · cases h

/-- The value of a setting in a declaration. -/
theorem all_isScalar_setting? {setting : Text × Text} (h : setting? t = some (setting, rest)) :
    setting.2.all Code.isScalar = true := by
  obtain ⟨_, -, h⟩ := Option.bind_eq_some_iff.1 h
  obtain ⟨_, -, h⟩ := Option.bind_eq_some_iff.1 h
  dsimp only at h
  split at h
  · obtain ⟨⟨value, rest⟩, hvalue, h⟩ := Option.bind_eq_some_iff.1 h
    obtain ⟨_, -, h⟩ := Option.bind_eq_some_iff.1 h
    obtain ⟨rfl, -⟩ := Prod.mk.inj (Option.some.inj h)
    exact List.all_eq_true.2 fun c hc => isScalar_of_isCharacter
      (isCharacter_of_literal? hvalue c hc)
  · cases h

theorem all_isScalar_lastSetting? {setting : Text × Text}
    (h : lastSetting? t = some (some setting, rest)) :
    setting.2.all Code.isScalar = true := by
  unfold lastSetting? at h
  split at h
  · cases h
  · obtain ⟨⟨setting', rest'⟩, hsetting, heq⟩ := Option.map_eq_some_iff.1 h
    obtain ⟨hsame, -⟩ := Prod.mk.inj heq
    exact Option.some.inj hsame ▸ all_isScalar_setting? hsetting

theorem charset_standalone? {d d' : Declaration} {setting : Text × Text}
    (h : standalone? d setting t = some d') : d'.charset = d.charset := by
  obtain ⟨_, -, h⟩ := Option.bind_eq_some_iff.1 h
  split at h
  · exact Option.some.inj h ▸ rfl
  · split at h
    · exact Option.some.inj h ▸ rfl
    · cases h

theorem all_isScalar_charset {d : Declaration} (h : Declaration.ofSettings? t = some d) :
    ∀ name ∈ d.charset, name.all Code.isScalar = true := by
  obtain ⟨⟨⟨first, value⟩, rest⟩, -, h⟩ := Option.bind_eq_some_iff.1 h
  obtain ⟨_, -, h⟩ := Option.bind_eq_some_iff.1 h
  obtain ⟨⟨setting, rest⟩, hlast, h⟩ := Option.bind_eq_some_iff.1 h
  cases setting with
  | none => exact Option.some.inj h ▸ nofun
  | some setting =>
      obtain ⟨name, value⟩ := setting
      have hvalue := all_isScalar_lastSetting? hlast
      dsimp only at h
      split at h
      · obtain ⟨_, -, h⟩ := Option.bind_eq_some_iff.1 h
        obtain ⟨⟨last, rest⟩, -, h⟩ := Option.bind_eq_some_iff.1 h
        have hcharset : d.charset = some value := by
          cases last with
          | none => exact Option.some.inj h ▸ rfl
          | some last => exact charset_standalone? h
        rw [hcharset]
        exact fun _ hname => Option.some.inj hname ▸ hvalue
      · rw [charset_standalone? h]
        exact nofun

theorem all_isScalar_declarationOf? {d : Declaration} (h : declarationOf? t = some (d, rest)) :
    ∀ name ∈ d.charset, name.all Code.isScalar = true := by
  unfold declarationOf? at h
  split at h
  · split at h
    · obtain ⟨⟨settings, rest⟩, -, h⟩ := Option.bind_eq_some_iff.1 h
      obtain ⟨d', hsettings, h⟩ := Option.bind_eq_some_iff.1 h
      exact (Prod.mk.inj (Option.some.inj h)).1 ▸ all_isScalar_charset hsettings
    · exact (Prod.mk.inj (Option.some.inj h)).1 ▸ nofun
  · exact (Prod.mk.inj (Option.some.inj h)).1 ▸ nofun

/-- The names that a fault mentions. -/
def Fault.names : Fault → List Text
  | .unknownCharset name => [name]
  | .notACharset name => [name]
  | _ => []

theorem names_of_restInCharset {units : Units} {bytes : Bytes} {length : Nat} {name : Text}
    {fault : Fault} (h : restInCharset units bytes length t name = .error fault) :
    ∀ n ∈ fault.names, n = name := by
  have hunknown : ∀ n ∈ (restInCharset.unknown name).names, n = name := by
    unfold restInCharset.unknown
    split
    · exact fun n hn => List.mem_singleton.1 hn
    · exact fun n hn => List.mem_singleton.1 hn
  have hnone : ∀ {other : Fault}, other.names = [] → (Except.error other : Except Fault Text) =
      .error fault → ∀ n ∈ fault.names, n = name := by
    intro other hother h
    rw [← Except.error.inj h, hother]
    exact nofun
  have hif : ∀ {p : Prop} [Decidable p] {x y : Except Fault Text},
      (if p then x else y) = .error fault → x = .error fault ∨ y = .error fault := by
    intro p _ x y h
    split at h
    · exact .inl h
    · exact .inr h
  unfold restInCharset at h
  cases units with
  | pairs order =>
      dsimp only at h
      rcases hif h with h | h
      · cases h
      rcases hif h with h | h
      · exact hnone rfl h
      cases hset : Charset.ofName? name with
      | none =>
          rw [hset] at h
          exact Except.error.inj h ▸ hunknown
      | some set =>
          rw [hset] at h
          cases set <;> exact hnone rfl h
  | bytes =>
      dsimp only at h
      rcases hif h with h | h
      · cases h
      rcases hif h with h | h
      · exact hnone rfl h
      cases hset : Charset.ofName? name with
      | none =>
          rw [hset] at h
          exact Except.error.inj h ▸ hunknown
      | some set =>
          rw [hset] at h
          cases set with
          | multiByte => exact hnone rfl h
          | foreign => exact hnone rfl h
          | singleByte upper => cases h

/-- A fault mentions no name with surrogates. -/
theorem all_isScalar_names {bytes : Bytes} {fault : Fault}
    (h : Element.ofBytes bytes = .error fault) :
    ∀ name ∈ fault.names, name.all Code.isScalar = true := by
  have hmalformed : ∀ {size : Nat} {d : Declaration} {t : Text},
      Element.afterDeclaration size d t = .error fault → fault.names = [] := by
    intro size d t h
    unfold Element.afterDeclaration at h
    split at h
    · cases h
    · exact Except.error.inj h ▸ rfl
  unfold Element.ofBytes at h
  dsimp only at h
  split at h
  · exact Except.error.inj h ▸ nofun
  · next d rest hdeclaration =>
      split at h
      · rw [hmalformed h]
        exact nofun
      · next name hname =>
          generalize hrest : restInCharset _ _ _ _ name = r at h
          cases r with
          | error fault' =>
              obtain rfl := Except.error.inj h
              intro n hn
              rw [names_of_restInCharset hrest n hn]
              exact all_isScalar_declarationOf? hdeclaration name hname
          | ok rest' =>
              rw [hmalformed h]
              exact nofun

end BundleAudit.Xml
