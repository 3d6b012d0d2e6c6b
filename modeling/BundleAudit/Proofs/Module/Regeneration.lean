import BundleAudit.Proofs.Module.Recollection

/-!
# BundleAudit.Proofs.Module.Regeneration

**A table gives a module the same catalogs again once they were written.** A catalog
depends on the table and on where it goes, and where it goes is decided by the names in
the directory of its package. A catalog that was written under the name which is decided
for it does not change the decision (`isNameAt`). So the second time the same catalogs go
to the same places (`generatedFor_eq`).
-/

namespace BundleAudit

open RepositoryModule

variable {t t' : Tree} {W : Location → Prop} {m : RepositoryModule} {l d : Location}
  {language : Text}

/-! ### Names -/

/-- A name that passes for a translation ends like a catalog. -/
theorem suffix_of_passes {language name : Text} (h : Passes .standard language name) :
    Settings.standard.catalogSuffix <:+ name := by
  by_contra hnot
  have hnone := catalogLanguage?_eq_none hnot
  rw [h.1] at hnone
  cases hnone

/-- A temporary file does not end like a catalog. -/
theorem not_passes_temporary {language name : Text} :
    ¬Passes .standard language (name ++ Tree.temporarySuffix) := fun h => by
  obtain ⟨before, hbefore⟩ := suffix_of_passes h
  have hlast := congrArg List.getLast? hbefore
  rw [List.getLast?_append, List.getLast?_append] at hlast
  cases hlast

theorem IsNameAt.isName {all : Bool} {name : Text} (h : IsNameAt (.ofBundles all) t language d name)
    (ht : t.IsSound) (hlanguage : isLanguage language = true) : Path.IsName name := by
  by_cases hfile : t.HasFileAt (d ++ [name])
  · obtain ⟨bytes, hentry⟩ := hfile
    exact (ht.isEntryName hentry name (by simp)).isName
  · exact h.own hfile ▸ Package.isName_translationName hlanguage

theorem RepositoryModule.IsWithinLimit.areDiscerned {all : Bool}
    (h : IsWithinLimit (.ofBundles all) t m) (hl : IsRootedAt t m l) (around : List Text) :
    ModuleScan.AreDiscerned t m language l around := fun name hfile hpasses =>
  .inl (h l hl around name hfile (Option.isSome_of_eq_some (ofName?_of_passes hpasses)))

namespace IsWritten

variable {s : Settings}

/-- A name stays the one for a translation if translations are written under such names only. -/
theorem isNameAt [s.NamesCatalogs] (h : IsWritten s t W t')
    (hnamed : ∀ d name, W (d ++ [name]) → IsNameAt s t language d name) {name : Text}
    (hname : IsNameAt s t language d name) : IsNameAt s t' language d name := by
  refine ⟨hname.passes, fun other hother hpasses => ?_, fun hnone => ?_⟩
  · by_cases hw : W (d ++ [other])
    · obtain rfl := (hnamed d other hw).unique hname
      exact ⟨hother, Text.le_refl _⟩
    · obtain ⟨hfile, hle⟩ := hname.first other ((h.hasFileAt_iff hw).1 hother) hpasses
      exact ⟨h.hasFileAt (ofName?_of_passes hname.passes) hfile, hle⟩
  · exact hname.own fun hfile => hnone (h.hasFileAt (ofName?_of_passes hname.passes) hfile)

/-- New translations do not depend on the length of a path. -/
theorem areDiscerned {all : Bool} (h : IsWritten (.ofBundles all) t W t')
    (hnamed : ∀ d name, W (d ++ [name]) → IsNameAt (.ofBundles all) t language d name)
    (hl : IsRootedAt t m l) (hlimit : IsWithinLimit (.ofBundles all) t m) (around : List Text) :
    ModuleScan.AreDiscerned t' m language l around := by
  intro name hfile hpasses
  by_cases hold : t.HasFileAt (l ++ around ++ [name])
  · exact .inl (hlimit l hl around name hold (Option.isSome_of_eq_some (ofName?_of_passes hpasses)))
  · -- a new file stands in a directory in which no file passed
    have hw : W (l ++ around ++ [name]) := by
      by_contra hw
      exact hold ((h.hasFileAt_iff hw).1 hfile)
    have hname := hnamed _ _ hw
    refine .inr fun other hother hpasses' => ?_
    by_cases hw' : W (l ++ around ++ [other])
    · rw [(hnamed _ _ hw').unique hname, hname.own hold]
      rfl
    · have hthere := (h.hasFileAt_iff hw').1 hother
      exact absurd (hname.first other hthere hpasses').1 hold

end IsWritten

namespace ModuleScan

/-! ### Packages of a scan -/

variable {s : Settings} {x y : ModuleScan}

theorem nodup_names (h : (ofFiles s t m).2 = .ok x) : (x.packages.map (·.name)).Nodup := by
  obtain ⟨z, r, hstart, -, hpackages, -, -⟩ := of_ofFiles_eq_ok h
  obtain ⟨-, -, hascending, -⟩ := of_start_eq_ok hstart
  have hnames : x.packages.map (·.name) = z.packages.map (·.name) := by
    rw [hpackages, List.map_map]
    exact List.map_congr_left fun p _ => name_counted s t _ p
  rw [hnames]
  exact hascending.imp fun hlt => Text.ne_of_lt hlt

theorem package?_eq_some_iff (h : (ofFiles s t m).2 = .ok x) {name : Text} {p : Package} :
    x.package? name = some p ↔ p ∈ x.packages ∧ p.name = name := by
  refine ⟨package?_eq_some, fun ⟨hp, hname⟩ => ?_⟩
  cases hpackage : x.package? name with
  | none => exact absurd hname (package?_eq_none_iff.1 hpackage p hp)
  | some q => rw [eq_of_package?_eq_some (nodup_names h) hpackage hp hname]

/-- A completed scan has a package for each directory with a file. -/
theorem exists_mem_packages_iff (h : (ofFiles s t m).2 = .ok x) {name : Text} :
    (∃ p ∈ x.packages, p.name = name) ↔ ∃ f ∈ m.files, f.package = name := by
  obtain ⟨z, r, hstart, -, hpackages, -, -⟩ := of_ofFiles_eq_ok h
  rw [hpackages]
  constructor
  · rintro ⟨_, hp, rfl⟩
    obtain ⟨q, hq, rfl⟩ := List.mem_map.1 hp
    obtain ⟨f, hf, rfl⟩ := (mem_packages_iff hstart).1 hq
    exact ⟨f, hf, by rw [name_counted]; rfl⟩
  · rintro ⟨f, hf, rfl⟩
    exact ⟨_, List.mem_map_of_mem ((mem_packages_iff hstart).2 ⟨f, hf, rfl⟩), name_counted s t _ _⟩

/-! ### Catalogs -/

/-- What a table gives a module depends on where its packages have their translations. -/
theorem generateFrom_congr (hidentity : y.module.identity = x.module.identity)
    (h : ∀ name, (y.package? name).map (fun p => (p.name, p.translationPath s language)) =
      (x.package? name).map fun p => (p.name, p.translationPath s language))
    (header : List Text) (entries : List (Text × KeyedList Text Text)) :
    generateFrom s language header y entries = generateFrom s language header x entries := by
  induction entries with
  | nil => rfl
  | cons entry rest ih =>
      obtain ⟨name, translations⟩ := entry
      have hname := h name
      rw [generateFrom, generateFrom, ih, hidentity]
      cases hx : x.package? name with
      | none =>
          rw [hx, Option.map_none, Option.map_eq_none_iff] at hname
          rw [hname]
      | some p =>
          rw [hx, Option.map_some, Option.map_eq_some_iff] at hname
          obtain ⟨q, hy, hq⟩ := hname
          obtain ⟨hq, hpath⟩ := Prod.mk.inj hq
          rw [hy]
          simp only [Package.generate, hq, hpath]

variable {all : Bool} {root directory : Path}

/-- **A translation goes to the same path again.** -/
theorem translationPath_eq (h : IsWritten (.ofBundles all) t W t')
    (hnamed : ∀ d name, W (d ++ [name]) → IsNameAt (.ofBundles all) t language d name)
    (hlanguage : isLanguage language = true) (hl : IsRootedAt t m l)
    (hlimit : IsWithinLimit (.ofBundles all) t m) {p q : Package}
    (hp : IsScanned (.ofBundles all) t { m with files := filesAt (.ofBundles all) t m l } p)
    (hq : IsScanned (.ofBundles all) t' { m with files := filesAt (.ofBundles all) t' m l } q)
    (hname : q.name = p.name) :
    q.translationPath (.ofBundles all) language = p.translationPath (.ofBundles all) language := by
  obtain ⟨around, hat⟩ := hp.isPackageAt
  obtain ⟨around', hat'⟩ := hq.isPackageAt
  obtain rfl : around' = around := by
    refine Path.intercalate_inj hat'.isName hat.isName ?_
    rw [← hat'.name, hname, hat.name]
  obtain ⟨n, hn, hpath⟩ := exists_isNameAt h.sound hlanguage hl hp
    (hlimit.areDiscerned hl around') ⟨hat.isName, hat.name, hat.directory⟩
  obtain ⟨n', hn', hpath'⟩ := exists_isNameAt h.sound' hlanguage (h.isRootedAt hl) hq
    (h.areDiscerned hnamed hl hlimit around') ⟨hat'.isName, hat'.name, hat'.directory⟩
  rw [hpath', hpath, hn'.unique (h.isNameAt hnamed hn)]

/-- Both scans have the same packages, whose translations go to the same paths. -/
theorem map_package?_eq (h : IsWritten (.ofBundles all) t W t')
    (hbeside : IsBeside (.ofBundles all) t W m)
    (hnamed : ∀ d name, W (d ++ [name]) → IsNameAt (.ofBundles all) t language d name)
    (hlanguage : isLanguage language = true) {m₁ m₂ : RepositoryModule} {log₁ log₂ : Log}
    (hm₁ : m.collectFiles (.ofBundles all) t = .ok (m₁, log₁))
    (hm₂ : m.collectFiles (.ofBundles all) t' = .ok (m₂, log₂))
    (hlimit : IsWithinLimit (.ofBundles all) t m)
    (hx : (ofFiles (.ofBundles all) t m₁).2 = .ok x)
    (hy : (ofFiles (.ofBundles all) t' m₂).2 = .ok y) (name : Text) :
    (y.package? name).map (fun p => (p.name, p.translationPath (.ofBundles all) language)) =
      (x.package? name).map fun p => (p.name, p.translationPath (.ofBundles all) language) := by
  have hfiles : IsRecollected t W m₁.files m₂.files := by
    rcases h.collectFiles_cases hbeside with ⟨hnone, -⟩ | ⟨_, _, _, _, h₁, h₂, hfiles⟩
    · exact absurd hm₁ (hnone _)
    · cases hm₁.symm.trans h₁
      cases hm₂.symm.trans h₂
      exact hfiles
  cases hp : x.package? name with
  | none =>
      have hnone : y.package? name = none := by
        refine package?_eq_none_iff.2 fun q hq hname => ?_
        obtain ⟨f, hf, hpackage⟩ := (exists_mem_packages_iff hy).1 ⟨q, hq, hname⟩
        obtain ⟨g, hg, hgpackage⟩ := hfiles.beside f hf
        obtain ⟨p, hmem, hpname⟩ :=
          (exists_mem_packages_iff hx).2 ⟨g, hg, hgpackage.trans hpackage⟩
        exact package?_eq_none_iff.1 hp p hmem hpname
      rw [hnone]
  | some p =>
      obtain ⟨hmem, hname⟩ := package?_eq_some hp
      obtain ⟨f, hf, hpackage⟩ := (exists_mem_packages_iff hx).1 ⟨p, hmem, hname⟩
      obtain ⟨q, hq, hqname⟩ := (exists_mem_packages_iff hy).2 ⟨f, hfiles.mem f hf, hpackage⟩
      have hscanned := isScanned_of_ofFiles_eq_ok h.sound.isNamed hm₁ hx hmem
      have hscanned' := isScanned_of_ofFiles_eq_ok h.sound'.isNamed hm₂ hy hq
      obtain ⟨l, hl, -, rfl⟩ := exists_isRootedAt_of_mem h.sound hm₁ hf
      obtain ⟨-, rfl⟩ := (h.isRootedAt hl).of_collectFiles h.sound' hm₂
      rw [(package?_eq_some_iff hy).2 ⟨hq, hqname⟩, Option.map_some, Option.map_some,
        translationPath_eq h hnamed hlanguage hl hlimit hscanned hscanned'
          (hqname.trans hname.symm),
        hqname, hname]

/-- The catalogs that a table gives a module, if its scan is completed. -/
def generatedFor (s : Settings) (t : Tree) (language : Text) (header : List Text) (table : Table)
    (m : RepositoryModule) : List GeneratedCatalog :=
  match (ofModule s t m).2 with
  | .ok x => (x.generate s language header table).1
  | .error _ => []

theorem mem_generatedFor_iff {s : Settings} {header : List Text} {table : Table}
    {g : GeneratedCatalog} : g ∈ generatedFor s t language header table m ↔
      ∃ x, (ofModule s t m).2 = .ok x ∧ g ∈ (x.generate s language header table).1 := by
  unfold generatedFor
  cases (ofModule s t m).2 with
  | error failure => simp
  | ok x => simp

/-- **The second time a table gives a module the same catalogs.** -/
theorem generatedFor_eq (h : IsWritten (.ofBundles all) t W t')
    (hbeside : IsBeside (.ofBundles all) t W m) (hapart : IsApart t W)
    (hnamed : ∀ d name, W (d ++ [name]) → IsNameAt (.ofBundles all) t language d name)
    (hlanguage : isLanguage language = true) (hm : IsOf t root directory m)
    (hlimit : IsWithinLimit (.ofBundles all) t m)
    (hlayer : (∀ y, (ofModule (.ofBundles all) t m).2 ≠ .ok y) →
      ∀ path, (platformManifest? t m).bind (layerPath? m) = some path → ¬t.LeadsInto W path)
    (header : List Text) (table : Table) :
    generatedFor (.ofBundles all) t' language header table m =
      generatedFor (.ofBundles all) t language header table m := by
  unfold generatedFor
  cases hx : (ofModule (.ofBundles all) t m).2 with
  | error failure =>
      have hnone : ∀ y, (ofModule (.ofBundles all) t m).2 ≠ .ok y := fun y hy => by
        rw [hx] at hy
        cases hy
      cases hy : (ofModule (.ofBundles all) t' m).2 with
      | error failure' => rfl
      | ok y =>
          obtain ⟨x, hx'⟩ := h.exists_ofModule_of hbeside hapart hm (hlayer hnone) ⟨y, hy⟩
          exact absurd hx' (hnone x)
  | ok x =>
      obtain ⟨y, hy⟩ := h.exists_ofModule hbeside hapart hm ⟨x, hx⟩
      rw [hy]
      have hidentity : y.module.identity = x.module.identity :=
        (name_ofModule hy).1.trans (name_ofModule hx).1.symm
      obtain ⟨m₁, log₁, hm₁, hx⟩ := of_ofModule_eq_ok hm.files hx
      obtain ⟨m₂, log₂, hm₂, hy⟩ := of_ofModule_eq_ok hm.files hy
      have hsame : generateFrom (.ofBundles all) language header y =
          generateFrom (.ofBundles all) language header x := by
        refine funext (generateFrom_congr hidentity (fun name => ?_) header)
        exact map_package?_eq h hbeside hnamed hlanguage hm₁ hm₂ hlimit hx hy name
      dsimp only
      rw [generate, generate, hsame, hidentity]

/-- A generated catalog begins with its header. -/
theorem lines_of_mem_generatedFor {s : Settings} {header : List Text} {table : Table}
    {g : GeneratedCatalog} (hg : g ∈ generatedFor s t language header table m) :
    ∃ more, g.lines = header ++ more := by
  obtain ⟨x, -, hg⟩ := mem_generatedFor_iff.1 hg
  obtain ⟨e, -, p, -, rfl⟩ := mem_generateFrom hg
  exact ⟨_, rfl⟩

/-! ### Where catalogs go -/

/-- The directory of a package is the one in which its files stand. -/
structure IsDirectoryOf (s : Settings) (t : Tree) (m : RepositoryModule)
    (p : Package) (l : Location)
    (around : List Text) : Prop where
  isRootedAt : IsRootedAt t m l
  isOpen : IsOpen t m l
  isPackageAt : IsPackageAt m p around
  isScanned : IsScanned s t { m with files := filesAt s t m l } p
  directory : t.entry? (l ++ around) = some .directory
  file : ∃ f ∈ filesAt s t m l, f.package = p.name ∧ ∃ name,
    t.HasFileAt (l ++ around ++ [name]) ∧ FileKind.ofName? s name = some f.kind

theorem exists_isDirectoryOf {s : Settings} {p : Package} (ht : t.IsSound) (hfiles : m.files = [])
    (hx : (ofModule s t m).2 = .ok x) (hp : p ∈ x.packages) :
    ∃ l around, IsDirectoryOf s t m p l around := by
  obtain ⟨m₁, log, hm₁, hx⟩ := of_ofModule_eq_ok hfiles hx
  have hscanned := isScanned_of_ofFiles_eq_ok ht.isNamed hm₁ hx hp
  obtain ⟨f, hf, hpackage⟩ := (exists_mem_packages_iff hx).1 ⟨p, hp, rfl⟩
  obtain ⟨l, hl, hopen, rfl⟩ := exists_isRootedAt_of_mem ht hm₁ hf
  obtain ⟨around, hat⟩ := hscanned.isPackageAt
  obtain ⟨around', name, hstands, hfile⟩ := (mem_filesAt_iff ht).1 hf
  obtain rfl : around' = around := by
    refine Path.intercalate_inj hstands.isName_around hat.isName ?_
    rw [← hstands.package, hpackage, hat.name]
  obtain ⟨bytes, hentry⟩ := hfile
  exact ⟨l, around', hl, hopen, ⟨hat.isName, hat.name, hat.directory⟩, hscanned,
    ht.directory_of_append hentry (by simp), f, hf, hpackage, name, ⟨bytes, hentry⟩, hstands.kind⟩

/-- A name in that directory. -/
theorem IsDirectoryOf.isPathIn {s : Settings} {p : Package} {around : List Text}
    (h : IsDirectoryOf s t m p l around) (ht : t.IsSound) {name : Text} (hname : Path.IsName name) :
    IsPathIn t (Path.toText ⟨(Path.ofText m.sourceRoot).root,
      (Path.ofText m.sourceRoot).names ++ around ++ [name]⟩) (l ++ around) name :=
  h.isRootedAt.isPathIn ht h.directory h.isPackageAt.isName hname

/-- A generated catalog goes to a name in the directory of its package. -/
structure IsPlacedAt (s : Settings) (t : Tree) (language : Text)
    (g : GeneratedCatalog) (d : Location)
    (name : Text) : Prop extends IsPathIn t g.path d name where
  isNameAt : IsNameAt s t language d name
  beside : ∃ other kind, t.HasFileAt (d ++ [other]) ∧ FileKind.ofName? s other = some kind

theorem exists_isPlacedAt (ht : t.IsSound) (hlanguage : isLanguage language = true)
    (hfiles : m.files = []) (hlimit : IsWithinLimit (.ofBundles all) t m)
    {header : List Text} {table : Table} {g : GeneratedCatalog}
    (hg : g ∈ generatedFor (.ofBundles all) t language header table m) :
    ∃ d name, IsPlacedAt (.ofBundles all) t language g d name := by
  obtain ⟨x, hx, hg⟩ := mem_generatedFor_iff.1 hg
  obtain ⟨e, -, p, hp, rfl⟩ := mem_generateFrom hg
  obtain ⟨l, around, hd⟩ := exists_isDirectoryOf ht hfiles hx hp
  obtain ⟨name, hname, hpath⟩ := exists_isNameAt ht hlanguage hd.isRootedAt hd.isScanned
    (hlimit.areDiscerned hd.isRootedAt around) hd.isPackageAt
  obtain ⟨f, -, -, other, hfile, hkind⟩ := hd.file
  have hin := hd.isPathIn ht (hname.isName ht hlanguage)
  rw [← hpath] at hin
  exact ⟨l ++ around, name, hin, hname, other, f.kind, hfile, hkind⟩

end ModuleScan

end BundleAudit
