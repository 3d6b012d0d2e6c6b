import BundleAudit.Proofs.Module.Packages
import BundleAudit.Proofs.Module.Usage
import BundleAudit.Proofs.Package.TranslationName

/-!
# BundleAudit.Proofs.Module.Addressing

**Which file a translation is read from and written to.** The translation of a primary
catalog belongs in a file of its own name beside it (`Package.ownPath`). What is taken
for it is the first catalog of the directory that begins like it and has the language,
so the translation of another catalog may be taken instead. That happens just where
such a catalog comes before the own file, or where there is no own file
(`addressesOwn_iff`).
-/

namespace BundleAudit

/-! ### The name of a translation -/

theorem isFileSuffix_standard : IsFileSuffix Settings.standard.catalogSuffix := by
  constructor <;> decide

/-- The names of catalogs tell their languages, and that of a primary catalog tells none. -/
class Settings.NamesCatalogs (s : Settings) : Prop where
  suffix : IsFileSuffix s.catalogSuffix
  primary : catalogLanguage? s.primaryCatalogName s.catalogSuffix = none

instance : Settings.NamesCatalogs .standard := ⟨isFileSuffix_standard, by decide⟩

namespace Package

theorem translationName_standard (language : Text) :
    translationName .standard language =
      Text.ofString "Bundle" ++ Code.underscore :: language ++ Settings.standard.catalogSuffix :=
  rfl

variable {language : Text}

theorem isName_translationName (h : isLanguage language = true) :
    Path.IsName (translationName .standard language) :=
  isName_translationName_of_not_mem (slash_not_mem_of_isLanguage h) isFileSuffix_standard.noSlash

theorem catalogLanguage?_translationName (h : isLanguage language = true) :
    catalogLanguage? (translationName .standard language) Settings.standard.catalogSuffix =
      some language :=
  catalogLanguage?_stem isFileSuffix_standard.ne_nil h _

/-- Where the translation into a language belongs. -/
def ownPath (s : Settings) (language : Text) (p : Package) : Text :=
  ((Path.ofText p.directory).join (Path.ofText (translationName s language))).toText

end Package

/-! ### Catalogs that pass for a translation -/

/-- Whether a file of this name passes for the translation of the primary catalog into a language.
-/
def Passes (s : Settings) (language name : Text) : Prop :=
  catalogLanguage? name s.catalogSuffix = some language ∧
    Package.catalogStem s ++ [Code.underscore] <+: name

theorem passes_translationName {language : Text} (h : isLanguage language = true) :
    Passes .standard language (Package.translationName .standard language) := by
  refine ⟨Package.catalogLanguage?_translationName h, ?_⟩
  exact ⟨language ++ Settings.standard.catalogSuffix, rfl⟩

/-- A file that has a language is a translated catalog. -/
theorem ofName?_of_passes {s : Settings} [s.NamesCatalogs] {language name : Text}
    (h : Passes s language name) : FileKind.ofName? s name = some .translatedCatalog := by
  have hprimary : name ≠ s.primaryCatalogName := by
    rintro rfl
    rw [Passes, Settings.NamesCatalogs.primary] at h
    cases h.1
  have hsuffix : s.catalogSuffix.isSuffixOf name = true := by
    by_contra hnot
    have hnone := catalogLanguage?_eq_none fun h' => hnot (List.isSuffixOf_iff_suffix.2 h')
    rw [h.1] at hnone
    cases hnone
  rw [FileKind.ofName?, if_neg hprimary, if_pos hsuffix, h.1, Option.isSome_some, if_pos rfl]

/-! ### The directory of a package -/

namespace ModuleScan

open RepositoryModule

variable {s : Settings} {t : Tree} {m : RepositoryModule} {p : Package} {f : ModuleFile}
  {language : Text} {around : List Text}

/-- A package is that of the directory to which names lead from the source root. -/
structure IsPackageAt (m : RepositoryModule) (p : Package) (around : List Text) : Prop where
  isName : ∀ n ∈ around, Path.IsName n
  name : p.name = List.intercalate [Code.slash] around
  directory : p.directory = directoryOf m p.name

theorem IsPackageAt.ofText_directory (h : IsPackageAt m p around) :
    Path.ofText p.directory =
      ⟨(Path.ofText m.sourceRoot).root, (Path.ofText m.sourceRoot).names ++ around⟩ := by
  rw [h.directory, directoryOf, h.name, Path.ofText_intercalate h.isName,
    Path.ofText_toText (Path.isNormal_join (Path.isNormal_ofText _) h.isName), Path.join_relative]

theorem IsPackageAt.ownPath_eq (h : IsPackageAt m p around)
    (hlanguage : isLanguage language = true) :
    p.ownPath .standard language =
      Path.toText ⟨(Path.ofText m.sourceRoot).root, (Path.ofText m.sourceRoot).names ++ around ++
        [Package.translationName .standard language]⟩ := by
  rw [Package.ownPath, Path.ofText_name (Package.isName_translationName hlanguage),
    Path.join_relative, h.ofText_directory]

theorem IsPackageAt.ofText_ownPath (h : IsPackageAt m p around)
    (hlanguage : isLanguage language = true) :
    Path.ofText (p.ownPath .standard language) =
      ⟨(Path.ofText m.sourceRoot).root, (Path.ofText m.sourceRoot).names ++ around ++
        [Package.translationName .standard language]⟩ := by
  have hname := Package.isName_translationName hlanguage
  rw [h.ownPath_eq hlanguage, Path.ofText_toText]
  rw [List.append_assoc]
  refine Path.isNormal_join (Path.isNormal_ofText _) fun n hn => ?_
  rcases List.mem_append.1 hn with hn | hn
  · exact h.isName n hn
  · exact List.mem_singleton.1 hn ▸ hname

/-- The file of a translation is the one of its name in the directory. -/
theorem IsPackageAt.path_eq_ownPath_iff (h : IsPackageAt m p around)
    (hlanguage : isLanguage language = true) {around' : List Text} {name : Text}
    (hf : StandsAt s (Path.ofText m.sourceRoot) f around' name) :
    f.path = p.ownPath .standard language ↔
      f.package = p.name ∧ f.name = Package.translationName .standard language := by
  have hroot := Path.isNormal_ofText m.sourceRoot
  rw [hf.name_eq hroot]
  constructor
  · intro hpath
    -- the names of a path come back from its text
    have hnames := congrArg Path.names (congrArg Path.ofText hpath)
    rw [hf.ofText_path hroot, h.ofText_ownPath hlanguage] at hnames
    obtain ⟨haround, hname⟩ := List.append_inj' hnames rfl
    rw [hf.package, h.name, List.append_cancel_left haround]
    exact ⟨rfl, List.singleton_inj.1 hname⟩
  · rintro ⟨hpackage, hname⟩
    rw [hf.package, h.name] at hpackage
    rw [hf.path, h.ownPath_eq hlanguage, hname,
      Path.intercalate_inj hf.isName_around h.isName hpackage]

/-! ### The catalogs of a package -/

/-- The catalog of a file, if the file can be read. -/
def catalogOf? (s : Settings) (t : Tree) (f : ModuleFile) : Option Catalog :=
  Catalog.read? s t { path := f.path, kind := f.kind }

theorem of_catalogOf?_eq_some {s : Settings} {c : Catalog} (h : catalogOf? s t f = some c) :
    c.path = f.path ∧ c.kind = f.kind :=
  let ⟨hpath, hkind, _⟩ := Catalog.of_read?_eq_some h
  ⟨hpath, hkind⟩

theorem isSome_catalogOf?_iff {s : Settings} :
    (catalogOf? s t f).isSome ↔ ∃ bytes, t.read f.path = .ok bytes := by
  rw [catalogOf?, Catalog.read?, Catalog.read, Tree.readLines]
  cases t.read f.path <;> simp [Except.map, Except.toOption]

/-- A package of a scan has the catalogs of the files of its directory that have a language and can
be read. -/
structure HasCatalogs (s : Settings) (t : Tree) (m : RepositoryModule) (p : Package) : Prop where
  mem_iff : ∀ c, c ∈ p.translated ↔
    ∃ f ∈ m.files, f.package = p.name ∧ f.kind = .translatedCatalog ∧ catalogOf? s t f = some c
  ascending : p.translated.Pairwise fun c d =>
    (Path.ofText c.path).name.le (Path.ofText d.path).name = true

theorem hasCatalogs_of_translated {s : Settings} (htranslated : p.translated =
      (packageOf m p.name (filesOf p.name m.files)).translated.filterMap (Catalog.read? s t))
    (hascending : m.files.Pairwise fun f g => f.package = g.package → f.name.le g.name = true) :
    HasCatalogs s t m p := by
  have heq : p.translated = ((filesOf p.name m.files).filter
      (·.kind = .translatedCatalog)).filterMap (catalogOf? s t) := by
    rw [htranslated, packageOf, List.filterMap_map]
    rfl
  constructor
  · intro c
    rw [heq]
    simp [List.mem_filterMap, filesOf, and_assoc, and_left_comm]
  · rw [heq, List.pairwise_filterMap]
    refine ((hascending.filter _).filter _).imp_of_mem fun {f g} hf hg hle c hc d hd => ?_
    have hname : ∀ f ∈ (filesOf p.name m.files).filter (·.kind = .translatedCatalog),
        f.package = p.name := fun f hf =>
      of_decide_eq_true (List.mem_filter.1 (List.mem_of_mem_filter hf)).2
    rw [(of_catalogOf?_eq_some hc).1, (of_catalogOf?_eq_some hd).1]
    exact hle ((hname f hf).trans (hname g hg).symm)

/-- A package of a complete scan. -/
structure IsScanned (s : Settings) (t : Tree) (m : RepositoryModule) (p : Package) : Prop where
  standsAt : ∀ f ∈ m.files, ∃ around name, StandsAt s (Path.ofText m.sourceRoot) f around name
  isPackageAt : ∃ around, IsPackageAt m p around
  hasCatalogs : HasCatalogs s t m p

theorem isScanned_of_ofFiles_eq_ok (ht : t.IsNamed) {m₀ : RepositoryModule} {log : Log}
    (hm : m₀.collectFiles s t = .ok (m, log)) {y : ModuleScan} (hy : (ofFiles s t m).2 = .ok y)
    (hp : p ∈ y.packages) : IsScanned s t m p := by
  obtain ⟨x, -, hstart, -, hpackages, -, -⟩ := of_ofFiles_eq_ok hy
  rw [hpackages] at hp
  obtain ⟨q, hq, rfl⟩ := List.mem_map.1 hp
  obtain ⟨f, hf, rfl⟩ := (mem_packages_iff hstart).1 hq
  obtain ⟨around, name, hstands, -⟩ := standsAt_of_collectFiles ht hm hf
  have hall :
      ∀ f ∈ m.files, ∃ around name, StandsAt s (Path.ofText m.sourceRoot) f around name := by
    intro f hf
    obtain ⟨around, name, hstands, -⟩ := standsAt_of_collectFiles ht hm hf
    exact ⟨around, name, hstands⟩
  refine ⟨hall, ⟨around, hstands.isName_around, ?_, ?_⟩, hasCatalogs_of_translated ?_ ?_⟩
  · rw [name_counted, packageOf, hstands.package]
  · rw [name_counted, directory_counted, packageOf]
  · rw [name_counted, translated_counted]
    rfl
  · exact pairwise_collectFiles ht hm

theorem IsScanned.kind_eq [s.NamesCatalogs] (h : IsScanned s t m p) (hf : f ∈ m.files)
    (hpasses : Passes s language f.name) : f.kind = .translatedCatalog := by
  obtain ⟨around, name, hstands⟩ := h.standsAt f hf
  rw [hstands.name_eq (Path.isNormal_ofText _)] at hpasses
  exact Option.some.inj (hstands.kind.symm.trans (ofName?_of_passes hpasses))

theorem IsScanned.path_eq_ownPath_iff (h : IsScanned s t m p)
    (hlanguage : isLanguage language = true) (hf : f ∈ m.files) :
    f.path = p.ownPath .standard language ↔
      f.package = p.name ∧ f.name = Package.translationName .standard language := by
  obtain ⟨around, hpackage⟩ := h.isPackageAt
  obtain ⟨around', name, hstands⟩ := h.standsAt f hf
  exact hpackage.path_eq_ownPath_iff hlanguage hstands

/-! ### The catalog that is taken -/

/-- A catalog is taken for a translation by the name of its file alone. -/
theorem isTaken_iff [s.NamesCatalogs] {name : Text}
    (hf : StandsAt s (Path.ofText m.sourceRoot) f around name)
    (hkind : f.kind = .translatedCatalog) {c : Catalog} (hc : catalogOf? s t f = some c) :
    (c.language? s == some language &&
      (Package.catalogStem s ++ [Code.underscore]).isPrefixOf (Path.ofText c.path).name) =
        true ↔ Passes s language f.name := by
  have hroot := Path.isNormal_ofText m.sourceRoot
  obtain ⟨hpath, hckind⟩ := of_catalogOf?_eq_some hc
  have htext : c.path = (Path.ofText f.path).toText := by rw [hpath, hf.ofText_path hroot, hf.path]
  have hname : f.name ≠ [] := by
    rw [hf.name_eq hroot]
    exact (hf.isName name (List.mem_append_right _ List.mem_cons_self)).ne_nil
  have hlanguage := Catalog.language?_eq (Settings.NamesCatalogs.suffix (s := s))
    (hckind.trans hkind)
    (Path.isNormal_ofText f.path) hname htext
  rw [hlanguage, hpath, Bool.and_eq_true, beq_iff_eq, List.isPrefixOf_iff_prefix]
  rfl

/-- What is found first comes before all else that is sought. -/
theorem eq_or_rel_of_find?_eq_some {α : Type} {R : α → α → Prop} {xs : List α} {q : α → Bool}
    {a b : α} (hxs : xs.Pairwise R) (h : xs.find? q = some a) (hb : b ∈ xs) (hq : q b = true) :
    b = a ∨ R a b := by
  obtain ⟨-, before, after, rfl, hbefore⟩ := List.find?_eq_some_iff_append.1 h
  rcases List.mem_append.1 hb with hb | hb
  · have hnot := hbefore b hb
    rw [hq] at hnot
    cases hnot
  · rcases List.mem_cons.1 hb with rfl | hb
    · exact .inl rfl
    · exact .inr ((List.pairwise_cons.1 (List.pairwise_append.1 hxs).2.1).1 b hb)

/-- What is taken for a translation is the catalog of a file of the directory that passes for it. -/
theorem IsScanned.of_translation?_eq_some [s.NamesCatalogs] (h : IsScanned s t m p) {c : Catalog}
    (hc : p.translation? s language = some c) :
    ∃ f ∈ m.files, f.package = p.name ∧ Passes s language f.name ∧
      catalogOf? s t f = some c := by
  obtain ⟨f, hf, hpackage, hkind, hcatalog⟩ :=
    (h.hasCatalogs.mem_iff c).1 (List.mem_of_find?_eq_some hc)
  obtain ⟨around, name, hstands⟩ := h.standsAt f hf
  have htaken := List.find?_some hc
  exact ⟨f, hf, hpackage, (isTaken_iff hstands hkind hcatalog).1 htaken, hcatalog⟩

/-- Where a file passes for a translation and can be read, one is taken whose name does not come
after. -/
theorem IsScanned.exists_translation? [s.NamesCatalogs] (h : IsScanned s t m p)
    (hf : f ∈ m.files) (hpackage : f.package = p.name) (hpasses : Passes s language f.name)
    {c : Catalog} (hc : catalogOf? s t f = some c) :
    ∃ d, p.translation? s language = some d ∧
      (Path.ofText d.path).name.le f.name = true := by
  have hkind := h.kind_eq hf hpasses
  have hmem : c ∈ p.translated := (h.hasCatalogs.mem_iff c).2 ⟨f, hf, hpackage, hkind, hc⟩
  obtain ⟨around, name, hstands⟩ := h.standsAt f hf
  have htaken := (isTaken_iff hstands hkind hc).2 hpasses
  have hsome : (p.translation? s language).isSome := by
    rw [Package.translation?, List.find?_isSome]
    exact ⟨c, hmem, htaken⟩
  obtain ⟨d, hd⟩ := Option.isSome_iff_exists.1 hsome
  have hname : f.name = (Path.ofText c.path).name := by
    rw [(of_catalogOf?_eq_some hc).1]
    rfl
  refine ⟨d, hd, ?_⟩
  rw [hname]
  rcases eq_or_rel_of_find?_eq_some h.hasCatalogs.ascending hd hmem htaken with rfl | hle
  · exact Text.le_refl _
  · exact hle

/-! ### The own translation -/

/-- The catalog of the file in which a translation belongs; none if the module has no such file, or
it cannot be read. -/
def ownTranslation? (s : Settings) (t : Tree) (m : RepositoryModule) (language : Text)
    (p : Package) : Option Catalog :=
  if p.ownPath s language ∈ m.files.map (·.path) then
    Catalog.read? s t { path := p.ownPath s language, kind := .translatedCatalog }
  else none

/-- Only the own file of a translation is read and written. -/
structure AddressesOwn (s : Settings) (t : Tree) (m : RepositoryModule) (language : Text)
    (p : Package) : Prop where
  path : p.translationPath s language = p.ownPath s language
  catalog : p.translation? s language = ownTranslation? s t m language p

/-- Another file of the directory that passes for the translation, and can be read. -/
structure IsRival (s : Settings) (t : Tree) (language : Text) (p : Package) (f : ModuleFile) :
    Prop where
  package : f.package = p.name
  passes : Passes s language f.name
  readable : ∃ bytes, t.read f.path = .ok bytes
  other : f.name ≠ Package.translationName s language

theorem translationPath_of_eq_some {c : Catalog} (h : p.translation? s language = some c) :
    p.translationPath s language = c.path := by
  rw [Package.translationPath, h]

theorem translationPath_of_eq_none (h : p.translation? s language = none) :
    p.translationPath s language = p.ownPath s language := by
  rw [Package.translationPath, h]
  rfl

/-- The own translation is the catalog of the file of its name in the directory. -/
theorem IsScanned.ownTranslation?_eq (h : IsScanned .standard t m p)
    (hlanguage : isLanguage language = true)
    (hf : f ∈ m.files) (hpackage : f.package = p.name)
    (hname : f.name = Package.translationName .standard language) :
    ownTranslation? .standard t m language p = catalogOf? .standard t f := by
  have hpath := (h.path_eq_ownPath_iff hlanguage hf).2 ⟨hpackage, hname⟩
  have hkind := h.kind_eq hf (hname ▸ passes_translationName hlanguage)
  rw [ownTranslation?, if_pos (List.mem_map.2 ⟨f, hf, hpath⟩), catalogOf?, hpath, hkind]

theorem IsScanned.of_ownTranslation?_eq_some (h : IsScanned .standard t m p)
    (hlanguage : isLanguage language = true) {c : Catalog}
    (hc : ownTranslation? .standard t m language p = some c) :
    ∃ f ∈ m.files, f.package = p.name ∧ f.name = Package.translationName .standard language ∧
      catalogOf? .standard t f = some c := by
  have hmem : p.ownPath .standard language ∈ m.files.map (·.path) := by
    by_contra hnot
    rw [ownTranslation?, if_neg hnot] at hc
    cases hc
  obtain ⟨f, hf, hpath⟩ := List.mem_map.1 hmem
  obtain ⟨hpackage, hname⟩ := (h.path_eq_ownPath_iff hlanguage hf).1 hpath
  exact ⟨f, hf, hpackage, hname, h.ownTranslation?_eq hlanguage hf hpackage hname ▸ hc⟩

/-- **A translation is read from and written to its own file just if that is found first:** each
other file of the directory that begins like the primary catalog, has the language and can be read
comes after it in the order of names, and there is none where the own file is not there. -/
theorem addressesOwn_iff (ht : t.IsNamed) {m₀ : RepositoryModule} {log : Log}
    (hm : m₀.collectFiles .standard t = .ok (m, log)) {y : ModuleScan}
    (hy : (ofFiles .standard t m).2 = .ok y) (hp : p ∈ y.packages)
    (hlanguage : isLanguage language = true) :
    AddressesOwn .standard t m language p ↔
      ∀ f ∈ m.files, IsRival .standard t language p f →
        (ownTranslation? .standard t m language p).isSome ∧
          (Package.translationName .standard language).lt f.name = true := by
  have h := isScanned_of_ofFiles_eq_ok ht hm hy hp
  constructor
  · intro hown f hf hrival
    obtain ⟨c, hc⟩ := Option.isSome_iff_exists.1 (isSome_catalogOf?_iff.2 hrival.readable)
    obtain ⟨d, hd, hle⟩ := h.exists_translation? hf hrival.package hrival.passes hc
    obtain ⟨g, hg, -, -, hcatalog⟩ := h.of_translation?_eq_some hd
    have hpath : g.path = p.ownPath .standard language := by
      rw [← hown.path, translationPath_of_eq_some hd, (of_catalogOf?_eq_some hcatalog).1]
    have hname : (Path.ofText d.path).name = Package.translationName .standard language := by
      rw [(of_catalogOf?_eq_some hcatalog).1]
      exact ((h.path_eq_ownPath_iff hlanguage hg).1 hpath).2
    rw [hname] at hle
    refine ⟨?_, Text.lt_of_le_of_ne hle (Ne.symm hrival.other)⟩
    rw [← hown.catalog, hd]
    rfl
  · intro hfirst
    cases htaken : p.translation? .standard language with
    | none =>
        refine ⟨translationPath_of_eq_none htaken, ?_⟩
        cases hown : ownTranslation? .standard t m language p with
        | none => exact htaken
        | some c =>
            obtain ⟨f, hf, hpackage, hname, hc⟩ := h.of_ownTranslation?_eq_some hlanguage hown
            obtain ⟨d, hd, -⟩ :=
              h.exists_translation? hf hpackage (hname ▸ passes_translationName hlanguage) hc
            rw [htaken] at hd
            cases hd
    | some d =>
        obtain ⟨g, hg, hpackage, hpasses, hd⟩ := h.of_translation?_eq_some htaken
        have hpath : d.path = g.path := (of_catalogOf?_eq_some hd).1
        by_cases hname : g.name = Package.translationName .standard language
        · refine ⟨?_, ?_⟩
          · rw [translationPath_of_eq_some htaken, hpath]
            exact (h.path_eq_ownPath_iff hlanguage hg).2 ⟨hpackage, hname⟩
          · rw [htaken, h.ownTranslation?_eq hlanguage hg hpackage hname, hd]
        · -- a rival is taken, but the own file comes before it
          have hreadable := isSome_catalogOf?_iff.1 (Option.isSome_iff_exists.2 ⟨d, hd⟩)
          obtain ⟨hown, hlt⟩ := hfirst g hg ⟨hpackage, hpasses, hreadable, hname⟩
          obtain ⟨c, hc⟩ := Option.isSome_iff_exists.1 hown
          obtain ⟨f, hf, hfpackage, hfname, hc⟩ := h.of_ownTranslation?_eq_some hlanguage hc
          obtain ⟨d', hd', hle⟩ :=
            h.exists_translation? hf hfpackage (hfname ▸ passes_translationName hlanguage) hc
          obtain rfl : d = d' := Option.some.inj (htaken.symm.trans hd')
          have hgname : (Path.ofText d.path).name = g.name := by
            rw [hpath]
            rfl
          rw [hgname, hfname] at hle
          rw [Text.lt, hle] at hlt
          cases hlt

/-! ### Two directories of catalogs -/

/-- A tree in which one directory holds catalogs of the given names. -/
def catalogTree (names : List Text) : Tree :=
  { entries :=
      ([Text.ofString "src"], .directory) ::
        ([Text.ofString "src", Text.ofString "p"], .directory) ::
          names.map fun name => ([Text.ofString "src", Text.ofString "p", name], .ofText "k=x\n") }

/-- The module of this tree, with the files that are collected. -/
def catalogModule (names : List Text) : RepositoryModule where
  identity := "m"
  root := "/"
  sourceRoot := "/src"
  files := names.filterMap fun name =>
    file? .standard (Path.ofText "/src") [Text.ofString "p", name]

theorem filesWithin_catalogTree {names : List Text} (h : names.Pairwise fun a b => a.le b = true) :
    (catalogTree names).filesWithin [Text.ofString "src"] = names.map ([Text.ofString "p", ·]) := by
  unfold Tree.filesWithin catalogTree
  rw [List.filterMap_cons_none rfl, List.filterMap_cons_none rfl, List.filterMap_map]
  show (names.filterMap fun name => some [Text.ofString "p", name]).mergeSort _ = _
  rw [List.filterMap_eq_map']
  refine List.mergeSort_of_pairwise (List.pairwise_map.2 (h.imp fun {a b} hle => ?_))
  rw [Text.lexLe, if_pos rfl, Text.lexLe]
  split
  · rfl
  · exact hle

theorem collectFiles_catalogModule (names : List Text)
    (h : names.Pairwise fun a b => a.le b = true) :
    ∃ log, (catalogModule []).collectFiles .standard (catalogTree names) =
      .ok (catalogModule names, log) := by
  have hopen : closedBelow? (catalogTree names).depths.directories (Path.ofText "/src")
      ((catalogTree names).entriesWithin [Text.ofString "src"]) = none := by
    -- the one directory below the source root
    refine closedBelow?_eq_none_iff.2 fun below hne hmem => ?_
    have hbelow : below = [Text.ofString "p"] := by
      simpa [catalogTree, Entry.ofText, hne] using hmem
    have hdepth : (1 : Nat) ≤ Depths.standard.directories := by decide
    rw [hbelow]
    exact ⟨hdepth, by decide⟩
  have hbelow : filesBelow .standard (catalogTree names) (Path.ofText "/src") = _ :=
    filesBelow_eq (l := [Text.ofString "src"]) rfl rfl hopen
  rw [filesWithin_catalogTree h, List.filterMap_map] at hbelow
  show ∃ log, (filesBelow .standard (catalogTree names) (Path.ofText "/src")).bind _ = _
  rw [hbelow]
  exact ⟨_, rfl⟩

theorem exists_package {scan : Except Failure ModuleScan} {α : Type} {look : Package → α} {a : α}
    (h : scan.toOption.map (fun y => y.packages.map look) = some [a]) :
    ∃ y, scan = .ok y ∧ ∃ p ∈ y.packages, look p = a := by
  obtain ⟨y, hy, hpackages⟩ := Option.map_eq_some_iff.1 h
  obtain ⟨p, hp, hlook⟩ := List.map_eq_singleton_iff.1 hpackages
  exact ⟨y, Failure.eq_ok_of_toOption hy, p, hp ▸ List.mem_singleton_self p, hlook⟩

/-- A primary catalog without translations, and the translation of another catalog. -/
def menuNames : List Text := ["Bundle.properties", "Bundle_menu_de.properties"]

/-- **The translation of another catalog may be taken:** in this directory it is exported from, and
overwritten by an import. -/
theorem other_translation_taken :
    ∃ log y, (catalogModule []).collectFiles .standard (catalogTree menuNames) =
        .ok (catalogModule menuNames, log) ∧
      (ofFiles .standard (catalogTree menuNames) (catalogModule menuNames)).2 = .ok y ∧
      ∃ p ∈ y.packages, isLanguage "de" = true ∧
        p.ownPath .standard "de" = "/src/p/Bundle_de.properties" ∧
        p.translationPath .standard "de" = "/src/p/Bundle_menu_de.properties" ∧
        (p.translation? .standard "de").isSome ∧
        ownTranslation? .standard (catalogTree menuNames) (catalogModule menuNames) "de" p = none ∧
        ¬ AddressesOwn .standard (catalogTree menuNames) (catalogModule menuNames) "de" p := by
  obtain ⟨log, hcollected⟩ := collectFiles_catalogModule menuNames (by decide)
  have hscan : (ofFiles .standard (catalogTree menuNames)
      (catalogModule menuNames)).2.toOption.map (fun y => y.packages.map fun p =>
        (p.ownPath .standard "de", p.translationPath .standard "de",
          (p.translation? .standard "de").isSome,
          ownTranslation? .standard (catalogTree menuNames) (catalogModule menuNames) "de" p)) =
      some [(Text.ofString "/src/p/Bundle_de.properties",
        Text.ofString "/src/p/Bundle_menu_de.properties", true, none)] := by decide +kernel
  obtain ⟨y, hy, p, hp, hlook⟩ := exists_package hscan
  obtain ⟨hown, hpath, htaken, hnone⟩ := by simpa only [Prod.mk.injEq] using hlook
  refine ⟨log, y, hcollected, hy, p, hp, by decide, hown, hpath, htaken, hnone, fun h => ?_⟩
  have heq := h.path
  rw [hown, hpath] at heq
  exact absurd heq (by decide)

/-- The same catalogs and the own translation, which comes first. -/
def bothNames : List Text :=
  ["Bundle.properties", "Bundle_de.properties", "Bundle_menu_de.properties"]

theorem addressesOwn_iff_sample :
    ∃ log y, (catalogTree bothNames).IsNamed ∧
      (catalogModule []).collectFiles .standard (catalogTree bothNames) =
        .ok (catalogModule bothNames, log) ∧
      (ofFiles .standard (catalogTree bothNames) (catalogModule bothNames)).2 = .ok y ∧
      ∃ p ∈ y.packages, isLanguage "de" = true ∧
        (∃ f ∈ (catalogModule bothNames).files,
          IsRival .standard (catalogTree bothNames) "de" p f) ∧
        AddressesOwn .standard (catalogTree bothNames) (catalogModule bothNames) "de" p := by
  have hnamed : (catalogTree bothNames).IsNamed := by
    unfold Tree.IsNamed
    decide
  obtain ⟨log, hcollected⟩ := collectFiles_catalogModule bothNames (by decide)
  have hscan : (ofFiles .standard (catalogTree bothNames)
      (catalogModule bothNames)).2.toOption.map (fun y => y.packages.map fun p =>
        (p.name, (ownTranslation? .standard (catalogTree bothNames) (catalogModule bothNames) "de"
          p).isSome)) = some [(Text.ofString "p", true)] := by decide +kernel
  obtain ⟨y, hy, p, hp, hlook⟩ := exists_package hscan
  obtain ⟨hname, hown⟩ := by simpa only [Prod.mk.injEq] using hlook
  have hlanguage : isLanguage "de" = true := by decide
  have hfirst : ∀ f ∈ (catalogModule bothNames).files,
      f.name ≠ Package.translationName .standard "de" →
        Package.catalogStem .standard ++ [Code.underscore] <+: f.name →
          (Package.translationName .standard "de").lt f.name = true := by decide +kernel
  refine ⟨log, y, hnamed, hcollected, hy, p, hp, hlanguage,
    ⟨⟨"p", "/src/p/Bundle_menu_de.properties", .translatedCatalog⟩, by decide +kernel, ?_⟩,
    (addressesOwn_iff hnamed hcollected hy hp hlanguage).2 fun f hf hrival =>
      ⟨hown, hfirst f hf hrival.other hrival.passes.2⟩⟩
  exact ⟨hname.symm, ⟨by decide +kernel, by decide +kernel⟩, ⟨_, rfl⟩, by decide +kernel⟩

end ModuleScan

end BundleAudit
