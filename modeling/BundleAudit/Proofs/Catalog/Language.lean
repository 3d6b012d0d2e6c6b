import BundleAudit.Catalog.File
import BundleAudit.Proofs.Files.Path
import BundleAudit.Proofs.Text.Blank

/-!
# BundleAudit.Proofs.Catalog.Language

**The language of a catalog is told from the end of its name.** A language has letters
and underscores only, so nothing before the last separator of a path can be part of
it: the language of a catalog is that of the last name of its path
(`Catalog.language?_eq`). A stem with a language behind it has that language
(`catalogLanguage?_stem`); what stands between the two in other names does not count.
-/

namespace BundleAudit

/-! ### Languages -/

/-- The characters of languages. -/
def Code.isLanguageCode (c : Code) : Bool := c.isAsciiLetter || c == Code.underscore

theorem isLanguageCode_of_mem {language : Text} (h : isLanguage language = true) {c : Code}
    (hc : c ∈ language) : c.isLanguageCode = true := by
  rw [← List.takeWhile_append_dropWhile (p := Code.isAsciiLower) (l := language)] at hc
  rw [isLanguage, Bool.and_eq_true] at h
  rcases List.mem_append.1 hc with hc | hc
  · have hlower : c.isAsciiLower = true := List.all_eq_true.1 List.all_takeWhile c hc
    rw [Code.isLanguageCode, Code.isAsciiLetter, hlower, Bool.or_true]
    rfl
  · -- what follows the small letters is a country with its underscore
    have hcountry := h.2
    split at hcountry
    · next hdrop =>
        rw [hdrop] at hc
        cases hc
    · next a b hdrop =>
        rw [Bool.and_eq_true] at hcountry
        rw [hdrop] at hc
        simp only [List.mem_cons, List.not_mem_nil, or_false] at hc
        rcases hc with rfl | rfl | rfl
        · rfl
        · rw [Code.isLanguageCode, Code.isAsciiLetter, hcountry.1]
          rfl
        · rw [Code.isLanguageCode, Code.isAsciiLetter, hcountry.2]
          rfl
    · cases hcountry

theorem isLanguage_eq_false_of_mem {t : Text} {c : Code} (hc : c.isLanguageCode = false)
    (h : c ∈ t) : isLanguage t = false := by
  rw [Bool.eq_false_iff]
  intro ht
  rw [isLanguageCode_of_mem ht h] at hc
  cases hc

theorem ne_nil_of_isLanguage {language : Text} (h : isLanguage language = true) :
    language ≠ [] := by
  rintro rfl
  cases h

theorem Code.isAsciiUpper_eq_false {c : Nat} (h : Code.isAsciiLower c = true) :
    Code.isAsciiUpper c = false := by
  have h : 0x61 ≤ c ∧ c ≤ 0x7A := of_decide_eq_true h
  exact decide_eq_false (show ¬(0x41 ≤ c ∧ c ≤ 0x5A) by omega)

/-- A language begins with a small letter. -/
theorem isAsciiLower_of_isLanguage {a : Code} {rest : Text}
    (h : isLanguage (a :: rest) = true) : a.isAsciiLower = true := by
  by_contra ha
  rw [isLanguage, List.takeWhile_cons_of_neg ha] at h
  cases h

theorem two_le_length_of_isLanguage {language : Text} (h : isLanguage language = true) :
    2 ≤ language.length := by
  rw [isLanguage, Bool.and_eq_true, Bool.or_eq_true, beq_iff_eq, beq_iff_eq] at h
  have hlength := (List.takeWhile_sublist Code.isAsciiLower (l := language)).length_le
  omega

/-- A language does not end in an underscore and another language: its country has capital
letters. -/
theorem isLanguage_append_underscore {language : Text} (h : isLanguage language = true)
    (before : Text) : isLanguage (before ++ Code.underscore :: language) = false := by
  rw [Bool.eq_false_iff]
  intro hwhole
  have hlength := two_le_length_of_isLanguage h
  rw [isLanguage, Text.dropWhile_append_cons rfl, Bool.and_eq_true] at hwhole
  have hcountry := hwhole.2
  split at hcountry
  · next hdrop => exact List.append_ne_nil_of_right_ne_nil _ (List.cons_ne_nil _ _) hdrop
  · next a b hdrop =>
      -- the country is too short for more than the other language
      have hcount : (before.dropWhile Code.isAsciiLower).length + (language.length + 1) = 3 := by
        simpa using congrArg List.length hdrop
      have hnil : before.dropWhile Code.isAsciiLower = [] :=
        List.eq_nil_of_length_eq_zero (by omega)
      rw [hnil, List.nil_append] at hdrop
      obtain rfl := (List.cons.inj hdrop).2
      rw [Code.isAsciiUpper_eq_false (isAsciiLower_of_isLanguage h)] at hcountry
      cases hcountry
  · cases hcountry

/-! ### The language at the end of a text -/

variable {c : Code}

/-- The language behind an underscore is found there, since none begins further to the left. -/
theorem languageAtEnd?_stem {language : Text} (h : isLanguage language = true) (stem : Text) :
    languageAtEnd? (stem ++ Code.underscore :: language) = some language := by
  induction stem with
  | nil => exact if_pos h
  | cons x rest ih =>
      by_cases hx : x = Code.underscore
      · rw [hx, List.cons_append, languageAtEnd?, isLanguage_append_underscore h, ih]
        rfl
      · rw [List.cons_append, languageAtEnd?, ih]
        exact hx

/-- A language begins behind the last character that none can have. -/
theorem languageAtEnd?_append_cons (hc : c.isLanguageCode = false) (a b : Text) :
    languageAtEnd? (a ++ c :: b) = languageAtEnd? b := by
  induction a with
  | nil =>
      have hne : c ≠ Code.underscore := by
        rintro rfl
        cases hc
      rw [List.nil_append, languageAtEnd?]
      exact hne
  | cons x rest ih =>
      by_cases hx : x = Code.underscore
      · have hnot : isLanguage (rest ++ c :: b) = false :=
          isLanguage_eq_false_of_mem hc (List.mem_append_right _ List.mem_cons_self)
        rw [hx, List.cons_append, languageAtEnd?, hnot, ih]
        rfl
      · rw [List.cons_append, languageAtEnd?, ih]
        exact hx

theorem dropFinalLineFeed_append_cons (hc : c ≠ Code.lineFeed) (a b : Text) :
    Text.dropFinalLineFeed (a ++ c :: b) = a ++ c :: Text.dropFinalLineFeed b := by
  have hlast : (a ++ c :: b).getLast? = (c :: b).getLast? :=
    List.getLast?_append_of_ne_nil _ (List.cons_ne_nil c b)
  rw [Text.dropFinalLineFeed, hlast]
  cases b with
  | nil => exact if_neg fun h => hc (Option.some.inj h)
  | cons x rest =>
      rw [List.getLast?_cons_cons, Text.dropFinalLineFeed,
        List.dropLast_append_of_ne_nil (List.cons_ne_nil c _), List.dropLast_cons_cons]
      split <;> rfl

theorem isLanguage_of_languageAtEnd? {t language : Text} (h : languageAtEnd? t = some language) :
    isLanguage language = true := by
  induction t with
  | nil => cases h
  | cons x rest ih =>
      by_cases hx : x = Code.underscore
      · rw [hx, languageAtEnd?] at h
        split at h
        · next hrest => exact Option.some.inj h ▸ hrest
        · exact ih h
      · rw [languageAtEnd?] at h
        · exact ih h
        · exact hx

/-! ### The language of a file -/

variable {suffix : Text}

theorem catalogLanguage?_append (hne : suffix ≠ []) (t : Text) :
    catalogLanguage? (t ++ suffix) suffix = languageAtEnd? (Text.dropFinalLineFeed t) := by
  have hsuffix : suffix.isSuffixOf (t ++ suffix) = true :=
    List.isSuffixOf_iff_suffix.2 (List.suffix_append t suffix)
  rw [catalogLanguage?, List.isEmpty_eq_false_iff.2 hne, hsuffix, List.length_append,
    Nat.add_sub_cancel, List.take_left]
  rfl

theorem catalogLanguage?_eq_none {t : Text} (h : ¬ suffix <:+ t) :
    catalogLanguage? t suffix = none := by
  have hsuffix : suffix.isSuffixOf t = false :=
    Bool.eq_false_iff.2 fun h' => h (List.isSuffixOf_iff_suffix.1 h')
  rw [catalogLanguage?, hsuffix, Bool.not_false, Bool.or_true]
  rfl

theorem suffix_append_cons_iff (hc : c ∉ suffix) (a b : Text) :
    suffix <:+ a ++ c :: b ↔ suffix <:+ b := by
  have hb : c :: b <:+ a ++ c :: b := List.suffix_append a (c :: b)
  refine ⟨fun h => ?_, fun h => h.trans ((List.suffix_cons c b).trans hb)⟩
  rcases Nat.lt_or_ge b.length suffix.length with hlength | hlength
  · -- a longer suffix would reach over the character that it does not hold
    have hlong : c :: b <:+ suffix := List.suffix_of_suffix_length_le hb h hlength
    exact absurd (hlong.subset List.mem_cons_self) hc
  · exact List.suffix_of_suffix_length_le h ((List.suffix_cons c b).trans hb) hlength

/-- Nothing before a character that no language and no suffix can have says anything about the
language. -/
theorem catalogLanguage?_append_cons (hne : suffix ≠ []) (hsuffix : c ∉ suffix)
    (hc : c.isLanguageCode = false) (hline : c ≠ Code.lineFeed) (a b : Text) :
    catalogLanguage? (a ++ c :: b) suffix = catalogLanguage? b suffix := by
  by_cases h : suffix <:+ b
  · obtain ⟨name, rfl⟩ := h
    have happend : a ++ c :: (name ++ suffix) = (a ++ c :: name) ++ suffix := by simp
    rw [happend, catalogLanguage?_append hne, catalogLanguage?_append hne,
      dropFinalLineFeed_append_cons hline, languageAtEnd?_append_cons hc]
  · rw [catalogLanguage?_eq_none h, catalogLanguage?_eq_none]
    rwa [suffix_append_cons_iff hsuffix]

/-- A stem, an underscore and a language make up a name of that language, whatever the stem ends
in. -/
theorem catalogLanguage?_stem {language : Text} (hne : suffix ≠ [])
    (h : isLanguage language = true) (stem : Text) :
    catalogLanguage? (stem ++ Code.underscore :: language ++ suffix) suffix = some language := by
  have hline : Text.dropFinalLineFeed (stem ++ Code.underscore :: language) =
      stem ++ Code.underscore :: language := by
    have hlast : (stem ++ Code.underscore :: language).getLast? ≠ some Code.lineFeed := by
      rw [List.getLast?_append_of_ne_nil _ (List.cons_ne_nil _ _),
        List.getLast?_cons_of_ne_nil (ne_nil_of_isLanguage h)]
      intro hlast
      cases isLanguageCode_of_mem h (List.mem_of_getLast? hlast)
    exact if_neg hlast
  rw [catalogLanguage?_append hne, hline, languageAtEnd?_stem h]

/-! ### Paths -/

/-- A suffix of file names: something, without separators of paths. -/
structure IsFileSuffix (suffix : Text) : Prop where
  ne_nil : suffix ≠ []
  noSlash : Code.slash ∉ suffix
  noBackslash : Code.backslash ∉ suffix

/-- The language of a path is that of what follows its last slash or backslash. -/
theorem catalogLanguage?_afterLast (h : IsFileSuffix suffix) (t : Text) :
    catalogLanguage? (Text.afterLast Code.slash (t.replaceCode Code.backslash Code.slash)) suffix =
      catalogLanguage? t suffix := by
  rcases Text.afterLast_replaceCode_cases Code.backslash Code.slash t with
    hwhole | ⟨before, x, rfl | rfl, hcut⟩
  · rw [← hwhole]
  · conv_rhs => rw [hcut, catalogLanguage?_append_cons h.ne_nil h.noBackslash rfl (by decide)]
  · conv_rhs => rw [hcut, catalogLanguage?_append_cons h.ne_nil h.noSlash rfl (by decide)]

/-- The language of a translated catalog is that of the name of its file. -/
theorem Catalog.language?_eq {s : Settings} {c : Catalog} {p : Path}
    (hsuffix : IsFileSuffix s.catalogSuffix) (hkind : c.kind = .translatedCatalog)
    (hp : p.IsNormal) (hname : p.name ≠ []) (hpath : c.path = p.toText) :
    c.language? s = catalogLanguage? p.name s.catalogSuffix := by
  rw [language?, if_pos hkind, catalogLanguage?_afterLast hsuffix, hpath]
  rcases Path.toText_cases hp hname with hwhole | ⟨before, hcut⟩
  · rw [hwhole]
  · rw [hcut, catalogLanguage?_append_cons hsuffix.ne_nil hsuffix.noSlash rfl (by decide)]

/-- A catalog has a language only if neither the language nor the suffix of catalogs holds a slash.
-/
theorem Catalog.slash_not_mem_of_language? {s : Settings} {c : Catalog} {language : Text}
    (h : c.language? s = some language) :
    Code.slash ∉ language ∧ Code.slash ∉ s.catalogSuffix := by
  rw [language?] at h
  split at h
  · have hsuffix : s.catalogSuffix <:+
        Text.afterLast Code.slash (c.path.replaceCode Code.backslash Code.slash) := by
      by_contra hnot
      rw [catalogLanguage?_eq_none hnot] at h
      cases h
    refine ⟨fun hslash => ?_, fun hslash => ?_⟩
    · rw [catalogLanguage?] at h
      split at h
      · cases h
      · cases isLanguageCode_of_mem (isLanguage_of_languageAtEnd? h) hslash
    · exact (Text.afterLast_cases _ _).1 (hsuffix.subset hslash)
  · cases h

end BundleAudit
