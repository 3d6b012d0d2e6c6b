import BundleAudit.Package.Translation
import BundleAudit.Proofs.Catalog.Language
import BundleAudit.Proofs.Package.Reading

/-!
# BundleAudit.Proofs.Package.TranslationName

**A translation is found by the name that it is given.** The name is the stem of the
primary catalog with the language behind it. Whatever the stem looks like, the language
is read from the name again, and the file passes for no primary catalog; so a package
that has no translation into the language takes the first file of that name for it
(`getsTranslation_translationName`).
-/

namespace BundleAudit

theorem slash_not_mem_of_isLanguage {language : Text} (h : isLanguage language = true) :
    Code.slash ∉ language := fun hslash => by cases isLanguageCode_of_mem h hslash

namespace Package

variable {s : Settings} {language path : Text} {p : Package}

/-! ### The name of a translation -/

theorem slash_not_mem_catalogStem (s : Settings) : Code.slash ∉ catalogStem s :=
  Path.slash_not_mem_stem (Path.isNormal_ofText s.primaryCatalogName)

theorem underscore_mem_translationName (s : Settings) (language : Text) :
    Code.underscore ∈ translationName s language := by
  rw [translationName, List.append_assoc]
  exact List.mem_append_right _ List.mem_cons_self

/-- The name of a translation is a relative path of at least one name. -/
theorem ofText_translationName (s : Settings) (language : Text) :
    ∃ names, names ≠ [] ∧ (∀ n ∈ names, Path.IsName n) ∧
      Path.ofText (translationName s language) = ⟨[], names⟩ := by
  have hmem := underscore_mem_translationName s language
  have hhead : (translationName s language).head? ≠ some Code.slash := by
    rw [translationName, List.append_assoc]
    have hstem := slash_not_mem_catalogStem s
    generalize catalogStem s = stem at hstem ⊢
    cases stem with
    | nil => exact fun h => by cases h
    | cons c rest => exact fun h => hstem (Option.some.inj h ▸ List.mem_cons_self)
  obtain ⟨name, hname, -⟩ := Path.exists_mem_namesOf hmem (by decide) (by decide)
  exact ⟨_, List.ne_nil_of_mem hname, fun n hn => Path.isName_of_mem_namesOf hn,
    Path.ofText_relative hhead⟩

/-- It is a single name if neither the language nor the suffix of catalogs holds a slash. -/
theorem isName_translationName_of_not_mem (hlanguage : Code.slash ∉ language)
    (hsuffix : Code.slash ∉ s.catalogSuffix) : Path.IsName (translationName s language) := by
  have hmem := underscore_mem_translationName s language
  refine ⟨List.ne_nil_of_mem hmem, fun heq => ?_, fun hslash => ?_⟩
  · rw [heq, List.mem_singleton] at hmem
    cases hmem
  · rw [translationName] at hslash
    rcases List.mem_append.1 hslash with hslash | hslash
    · rcases List.mem_append.1 hslash with hslash | hslash
      · exact slash_not_mem_catalogStem s hslash
      · exact hlanguage ((List.mem_cons.1 hslash).resolve_left (by decide))
    · exact hsuffix hslash

/-- A name splits into a stem and a suffix that does not begin with an underscore. -/
theorem head?_splitName_ne (name : Text) :
    (Path.splitName name).2.head? ≠ some Code.underscore := by
  unfold Path.splitName
  split
  · split
    · exact nofun
    · exact fun h => by cases h
  · exact nofun

/-- The primary catalog has another name: behind the stem of its name comes a suffix, or nothing. -/
theorem translationName_ne_primaryCatalogName (h : Path.IsName (translationName s language)) :
    translationName s language ≠ s.primaryCatalogName := by
  intro heq
  have hstem : (Path.splitName s.primaryCatalogName).1 = catalogStem s := by
    rw [heq] at h
    rw [catalogStem, Path.ofText_name h]
    rfl
  have hsplit := Path.splitName_append s.primaryCatalogName
  rw [hstem] at hsplit
  conv_rhs at hsplit => rw [← heq, translationName, List.append_assoc]
  exact head?_splitName_ne s.primaryCatalogName (List.append_cancel_left hsplit ▸ rfl)

/-- A file of the name of a translation is a translated catalog. -/
theorem ofName?_translationName (hsuffix : IsFileSuffix s.catalogSuffix)
    (h : isLanguage language = true) :
    FileKind.ofName? s (translationName s language) = some .translatedCatalog := by
  have hname : Path.IsName (translationName s language) :=
    isName_translationName_of_not_mem (slash_not_mem_of_isLanguage h) hsuffix.noSlash
  have hends : s.catalogSuffix.isSuffixOf (translationName s language) = true :=
    List.isSuffixOf_iff_suffix.2 (List.suffix_append _ _)
  have hlanguage : catalogLanguage? (translationName s language) s.catalogSuffix = some language :=
    catalogLanguage?_stem hsuffix.ne_nil h _
  rw [FileKind.ofName?, if_neg (translationName_ne_primaryCatalogName hname),
    if_pos hends, hlanguage]
  rfl

/-- A package that has no translation has the place for it in its directory. -/
theorem exists_translationPath_eq (hnone : p.translation? s language = none)
    (hname : Path.IsName (translationName s language)) :
    ∃ q : Path, q.IsNormal ∧ q.name = translationName s language ∧
      p.translationPath s language = q.toText := by
  refine ⟨(Path.ofText p.directory).join ⟨[], [translationName s language]⟩,
    Path.isNormal_join (Path.isNormal_ofText _) (List.forall_mem_singleton.2 hname), ?_, ?_⟩
  · rw [Path.join_relative, Path.name, List.getLastD_concat]
  · rw [translationPath, hnone, Path.ofText_name hname]

/-! ### A new translation -/

/-- Whether a catalog is taken for a translation of the primary catalog. -/
def isTranslation (s : Settings) (language : Text) (c : Catalog) : Bool :=
  c.language? s == some language &&
    (catalogStem s ++ [Code.underscore]).isPrefixOf (Path.ofText c.path).name

theorem translation?_eq (s : Settings) (language : Text) (p : Package) :
    p.translation? s language = p.translated.find? (isTranslation s language) := rfl

/-- A file of the name of a translation is taken for it. -/
theorem isTranslation_of_name (hsuffix : IsFileSuffix s.catalogSuffix)
    (h : isLanguage language = true) {q : Path} (hq : q.IsNormal)
    (hname : q.name = translationName s language) :
    isTranslation s language { path := q.toText, kind := .translatedCatalog } = true := by
  have hne : q.name ≠ [] := hname ▸ List.ne_nil_of_mem (underscore_mem_translationName s language)
  have hlanguage : Catalog.language? s { path := q.toText, kind := .translatedCatalog } =
      some language := by
    rw [Catalog.language?_eq hsuffix rfl hq hne rfl, hname]
    exact catalogLanguage?_stem hsuffix.ne_nil h _
  have hbegins : catalogStem s ++ [Code.underscore] <+: translationName s language :=
    ⟨language ++ s.catalogSuffix, by simp [translationName]⟩
  rw [isTranslation, hlanguage, Path.ofText_toText hq, hname, beq_self_eq_true, Bool.true_and]
  exact List.isPrefixOf_iff_prefix.2 hbegins

/-- Reading a catalog does not change what it is taken for. -/
theorem isTranslation_of_read? {t : Tree} {c d : Catalog} (h : c.read? s t = some d) :
    isTranslation s language d = isTranslation s language c := by
  obtain ⟨hpath, hkind, -⟩ := Catalog.of_read?_eq_some h
  rw [isTranslation, isTranslation, Catalog.language?, Catalog.language?, hpath, hkind]

/-- A package gets a translation with a file: it is found before the files are read and, if it can
be read, afterwards. -/
structure GetsTranslation (s : Settings) (language : Text) (p : Package) (path : Text)
    (p' : Package) : Prop where
  add : p.add .translatedCatalog path = .ok p'
  found : p'.translation? s language = some { path, kind := .translatedCatalog }
  read : ∀ t, (p'.read s t).1.translation? s language =
    Catalog.read? s t { path, kind := .translatedCatalog }

theorem getsTranslation (hnone : p.translation? s language = none)
    (htaken : isTranslation s language { path, kind := .translatedCatalog } = true) :
    GetsTranslation s language p path
      { p with translated := p.translated ++ [{ path, kind := .translatedCatalog }] } where
  add := rfl
  found := by
    rw [translation?_eq] at hnone ⊢
    rw [List.find?_append, hnone, List.find?_cons_of_pos htaken]
    rfl
  read t := by
    have hothers : (p.translated.filterMap (Catalog.read? s t)).find? (isTranslation s language) =
        none := by
      rw [List.find?_eq_none]
      intro d hd
      obtain ⟨c, hc, hread⟩ := List.mem_filterMap.1 hd
      rw [isTranslation_of_read? hread]
      exact List.find?_eq_none.1 hnone c hc
    rw [translation?_eq, read_fst]
    dsimp only
    rw [List.filterMap_append, List.find?_append, hothers, Option.none_or]
    cases hread : Catalog.read? s t { path, kind := .translatedCatalog } with
    | none => rw [List.filterMap_cons_none hread, List.filterMap_nil, List.find?_nil]
    | some d =>
        rw [List.filterMap_cons_some hread, List.find?_cons_of_pos]
        rw [isTranslation_of_read? hread]
        exact htaken

/-- **A name tells the language that it was made for,** whatever stands before the language. So,
unless the suffix of catalogs is none for files, the file of a translation is a translated catalog,
and a package without the translation finds it in the first file of its name. -/
theorem getsTranslation_translationName (h : isLanguage language = true) :
    (∀ stem suffix, suffix ≠ [] →
      catalogLanguage? (stem ++ Code.underscore :: language ++ suffix) suffix = some language) ∧
    ∀ s : Settings, IsFileSuffix s.catalogSuffix →
      FileKind.ofName? s (translationName s language) = some .translatedCatalog ∧
      ∀ p : Package, p.translation? s language = none →
        (∃ q : Path, q.IsNormal ∧ q.name = translationName s language ∧
          p.translationPath s language = q.toText) ∧
        ∀ q : Path, q.IsNormal → q.name = translationName s language →
          ∃ p', GetsTranslation s language p q.toText p' := by
  refine ⟨fun stem suffix hne => catalogLanguage?_stem hne h stem, fun s hsuffix =>
    ⟨ofName?_translationName hsuffix h, fun p hnone => ⟨?_, fun q hq hname => ?_⟩⟩⟩
  · refine exists_translationPath_eq hnone ?_
    exact isName_translationName_of_not_mem (slash_not_mem_of_isLanguage h) hsuffix.noSlash
  · exact ⟨_, getsTranslation hnone (isTranslation_of_name hsuffix h hq hname)⟩

/-- Settings under which the stem and the suffix of catalogs end as languages do. -/
def lookalikeSettings : Settings :=
  { Settings.standard with primaryCatalogName := "Menu_de.txt", catalogSuffix := "_en" }

/-- A package with one translation. -/
def lookalikePackage : Package where
  name := "p"
  directory := "/src/p"
  translated := [{ path := "/src/p/Menu_de_de_en", kind := .translatedCatalog }]

theorem getsTranslation_translationName_sample :
    isLanguage "pt_BR" = true ∧ IsFileSuffix lookalikeSettings.catalogSuffix ∧
      catalogLanguage? "Menu_de_pt_BR_en" "_en" = some "pt_BR" ∧
      FileKind.ofName? lookalikeSettings "Menu_de_pt_BR_en" = some .translatedCatalog ∧
      lookalikePackage.translation? lookalikeSettings "pt_BR" = none ∧
      ∃ p', GetsTranslation lookalikeSettings "pt_BR" lookalikePackage
        "/src/p/Menu_de_pt_BR_en" p' := by
  have hlanguage : isLanguage "pt_BR" = true := by decide
  have hsuffix : IsFileSuffix lookalikeSettings.catalogSuffix := by constructor <;> decide
  have hnone : lookalikePackage.translation? lookalikeSettings "pt_BR" = none :=
    Option.isNone_iff_eq_none.1 (by decide)
  have hpath : Path.IsNormal (Path.ofText "/src/p/Menu_de_pt_BR_en") := Path.isNormal_ofText _
  obtain ⟨hnames, hsettings⟩ := getsTranslation_translationName hlanguage
  obtain ⟨hkind, hpackages⟩ := hsettings lookalikeSettings hsuffix
  refine ⟨hlanguage, hsuffix, hnames "Menu_de" "_en" (by decide), hkind, hnone, ?_⟩
  exact (hpackages lookalikePackage hnone).2 _ hpath (by decide)

end Package

end BundleAudit
