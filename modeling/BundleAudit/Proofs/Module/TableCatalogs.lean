import BundleAudit.Proofs.Module.Regeneration
import BundleAudit.Proofs.Table.Ordering

/-!
# BundleAudit.Proofs.Module.TableCatalogs

**Which catalogs a module gets from a table.** Each package that has texts in the table
and files in the module gets one catalog, in the directory of the package; the other
packages of the table are warned about (`isGenerated_generate`). Only the texts of the
table count, not the order in which they came (`generate_eq`).
-/

namespace BundleAudit

open RepositoryModule

namespace ModuleScan

variable {s : Settings} {t : Tree} {m m₀ : RepositoryModule} {p q : Package} {language : Text}
  {around around' : List Text} {x : ModuleScan}

/-! ### Where a translation goes -/

/-- The translation of a package goes to a path below the directory of the package; the number of
names is that of the name of a translation. -/
theorem IsScanned.exists_names_translationPath (h : IsScanned s t m p)
    (hat : IsPackageAt m p around)
    (language : Text) :
    ∃ names, names ≠ [] ∧
      names.length = (Path.ofText (Package.translationName s language)).names.length ∧
      Path.ofText (p.translationPath s language) =
        ⟨(Path.ofText m.sourceRoot).root, (Path.ofText m.sourceRoot).names ++ around ++ names⟩ := by
  cases htaken : p.translation? s language with
  | none =>
      obtain ⟨names, hne, hnames, htext⟩ := Package.ofText_translationName s language
      refine ⟨names, hne, by rw [htext], ?_⟩
      rw [translationPath_of_eq_none htaken, Package.ownPath, htext, Path.join_relative,
        hat.ofText_directory]
      refine Path.ofText_toText ?_
      rw [List.append_assoc]
      refine Path.isNormal_join (Path.isNormal_ofText _) fun n hn => ?_
      rcases List.mem_append.1 hn with hn | hn
      · exact hat.isName n hn
      · exact hnames n hn
  | some c =>
      -- a catalog that is taken is that of a file in the directory
      obtain ⟨f, hf, hpackage, -, hcatalog⟩ :=
        (h.hasCatalogs.mem_iff c).1 (List.mem_of_find?_eq_some htaken)
      obtain ⟨around', name, hstands⟩ := h.standsAt f hf
      obtain rfl : around' = around := by
        refine Path.intercalate_inj hstands.isName_around hat.isName ?_
        rw [← hstands.package, hpackage, hat.name]
      have hfound := List.find?_some htaken
      obtain ⟨hlanguage, -⟩ := Bool.and_eq_true_iff.1 hfound
      obtain ⟨hslash, hsuffix⟩ := Catalog.slash_not_mem_of_language? (beq_iff_eq.1 hlanguage)
      have hname := Package.isName_translationName_of_not_mem hslash hsuffix
      refine ⟨[name], List.cons_ne_nil _ _, by rw [Path.ofText_name hname]; rfl, ?_⟩
      rw [translationPath_of_eq_some htaken, (of_catalogOf?_eq_some hcatalog).1,
        hstands.ofText_path (Path.isNormal_ofText _)]

/-- Translations of different packages go to different paths. -/
theorem IsScanned.name_eq_of_translationPath_eq (hp : IsScanned s t m p) (hq : IsScanned s t m q)
    (h : p.translationPath s language = q.translationPath s language) : p.name = q.name := by
  obtain ⟨around, hat⟩ := hp.isPackageAt
  obtain ⟨around', hat'⟩ := hq.isPackageAt
  obtain ⟨names, -, hlength, htext⟩ := hp.exists_names_translationPath hat language
  obtain ⟨names', -, hlength', htext'⟩ := hq.exists_names_translationPath hat' language
  rw [h] at htext
  have hpath := congrArg Path.names (htext.symm.trans htext')
  obtain ⟨haround, -⟩ := List.append_inj' hpath (hlength.trans hlength'.symm)
  rw [hat.name, hat'.name, List.append_cancel_left haround]

/-! ### The catalogs and the warnings -/

/-- The catalog that a package gets from a table. -/
def catalogFrom (s : Settings) (language : Text) (header : List Text) (table : Table)
    (x : ModuleScan) (p : Package) : GeneratedCatalog where
  module := x.module.identity
  package := p.name
  path := p.translationPath s language
  lines := header ++ (table.keysOf x.module.identity p.name).map fun key =>
    Catalog.entryLine s.escapeNonAscii key
      ((table.find? x.module.identity p.name key).getD [])

/-- Each package that the module has gets a catalog, each other one a warning. -/
theorem generateFrom_eq (language : Text) (header : List Text)
    {entries : List (Text × KeyedList Text Text)} (h : ∀ e ∈ entries, e.2 ≠ []) :
    generateFrom s language header x entries =
      (entries.filterMap fun e => (x.package? e.1).map
          (Package.generate s language header e.2 x.module.identity),
        (entries.filter fun e => (x.package? e.1).isNone).map
          fun e => noPackage x.module.identity e.1) := by
  induction entries with
  | nil => rfl
  | cons e rest ih =>
      obtain ⟨name, translations⟩ := e
      obtain ⟨hne, hrest⟩ := List.forall_mem_cons.1 h
      rw [generateFrom, ih hrest]
      cases hpackage : x.package? name with
      | none =>
          rw [List.filterMap_cons_none (by simp [hpackage]),
            List.filter_cons_of_pos (by simp [hpackage]), List.map_cons]
      | some p =>
          rw [List.filterMap_cons_some (by simp [hpackage]; rfl),
            List.filter_cons_of_neg (by simp [hpackage])]
          dsimp only
          rw [List.isEmpty_eq_false_iff.2 hne]
          rfl

/-- **What a module gets from a table depends on the texts of the table alone.** -/
theorem generate_eq {table : Table} (h : table.IsTidy) (s : Settings) (language : Text)
    (header : List Text) (x : ModuleScan) :
    x.generate s language header table =
      ((table.packageNames x.module.identity).filterMap fun name =>
          (x.package? name).map (x.catalogFrom s language header table),
        ((table.packageNames x.module.identity).filter fun name => (x.package? name).isNone).map
          (noPackage x.module.identity)) := by
  have hsorted := KeyedList.sortBy_fst (h.forModule x.module.identity).keys []
  rw [Text.sortBy] at hsorted
  have hnames : ∀ name ∈ table.packageNames x.module.identity,
      ∃ keys, table.package? x.module.identity name = some keys := fun name hname =>
    Option.isSome_iff_exists.1 (KeyedList.isSome_get?_iff.2 (Text.mem_sort_iff.1 hname))
  rw [generate, hsorted, generateFrom_eq]
  · rw [List.filterMap_map, List.filter_map, List.map_map]
    refine congrArg₂ Prod.mk (List.filterMap_congr fun name hname => ?_) rfl
    obtain ⟨keys, hkeys⟩ := hnames name hname
    have hget : (table.forModule x.module.identity).get? name = some keys := hkeys
    simp only [Function.comp_apply, hget, Option.getD_some]
    cases hpackage : x.package? name with
    | none => rfl
    | some p =>
        obtain rfl := (package?_eq_some hpackage).2
        rw [Option.map_some, Option.map_some, Package.generate, catalogFrom, h.render_eq hkeys]
  · intro e he
    obtain ⟨name, hname, rfl⟩ := List.mem_map.1 he
    obtain ⟨keys, hkeys⟩ := hnames name hname
    rw [← Table.package?, hkeys]
    exact (h.of_package? hkeys).1

/-- Tables with the same texts for a module give it the same catalogs. -/
theorem generate_congr {table table' : Table} (h : table.IsTidy) (h' : table'.IsTidy)
    (hsame : ∀ package key, table'.find? x.module.identity package key =
      table.find? x.module.identity package key) (language : Text) (header : List Text) :
    x.generate s language header table' = x.generate s language header table := by
  have hcatalog : x.catalogFrom s language header table' =
      x.catalogFrom s language header table := by
    funext p
    simp only [catalogFrom, Table.keysOf_eq h h' hsame, hsame]
  rw [generate_eq h, generate_eq h', Table.packageNames_eq h h' hsame, hcatalog]

/-! ### The packages -/

theorem isSome_package?_iff (h : (ofFiles s t m).2 = .ok x) {name : Text} :
    (x.package? name).isSome = true ↔ ∃ f ∈ m.files, f.package = name := by
  rw [← exists_mem_packages_iff h, Option.isSome_iff_exists]
  simp only [package?_eq_some_iff h]

/-- The catalogs are those of the packages that the module has, in the order of the names. -/
theorem map_package_catalogFrom (s : Settings) (language : Text)
    (header : List Text) (table : Table)
    (x : ModuleScan) (names : List Text) :
    (names.filterMap fun name => (x.package? name).map
      (x.catalogFrom s language header table)).map (·.package) =
      names.filter fun name => (x.package? name).isSome := by
  rw [List.map_filterMap, ← List.filterMap_eq_filter]
  refine List.filterMap_congr fun name _ => ?_
  cases hpackage : x.package? name with
  | none => simp [Option.guard, hpackage]
  | some p =>
      obtain rfl := (package?_eq_some hpackage).2
      simp [Option.guard, hpackage, catalogFrom]

/-- What a module gets from a table: catalogs and warnings. -/
structure IsGenerated (s : Settings) (m : RepositoryModule) (language : Text) (header : List Text)
    (table : Table) (result : List GeneratedCatalog × Log) : Prop where
  ascending : (result.1.map (·.package)).Pairwise fun a b => a.lt b = true
  /-- There is a catalog for each package that has texts in the table and files in the module. -/
  mem_iff : ∀ name, name ∈ result.1.map (·.package) ↔
    table.HasPackage m.identity name ∧ ∃ f ∈ m.files, f.package = name
  module : ∀ g ∈ result.1, g.module = m.identity
  paths : (result.1.map (·.path)).Nodup
  /-- Each goes to a path below the directory of its package, to a name in it if neither the
  language nor the suffix of catalogs holds a slash. -/
  inside : ∀ g ∈ result.1, ∃ names, names ≠ [] ∧
    Path.ofText g.path = ⟨(Path.ofText (directoryOf m g.package)).root,
      (Path.ofText (directoryOf m g.package)).names ++ names⟩ ∧
    (Code.slash ∉ language → Code.slash ∉ s.catalogSuffix → ∃ name, names = [name])
  /-- Each has a line for each key of its package, in ascending order. -/
  lines : ∀ g ∈ result.1, ∃ keys : List Text, keys.Pairwise (fun a b => a.lt b = true) ∧
    (∀ key, key ∈ keys ↔ (table.find? m.identity g.package key).isSome = true) ∧
    g.lines = header ++ keys.map fun key => Catalog.entryLine s.escapeNonAscii key
      ((table.find? m.identity g.package key).getD [])
  /-- There is a warning for each package that has texts in the table and no files in the module. -/
  warnings : ∃ names : List Text, names.Pairwise (fun a b => a.lt b = true) ∧
    (∀ name, name ∈ names ↔
      table.HasPackage m.identity name ∧ ¬∃ f ∈ m.files, f.package = name) ∧
    result.2 = names.map (noPackage m.identity)

/-- **A module gets from a table one catalog for each of its packages that has texts there.** -/
theorem isGenerated_generate (ht : t.IsNamed) {log : Log}
    (hm : m₀.collectFiles s t = .ok (m, log)) (hx : (ofFiles s t m).2 = .ok x) {table : Table}
    (htable : table.IsTidy) (language : Text) (header : List Text) :
    IsGenerated s m language header table (x.generate s language header table) := by
  have hmodule : x.module.identity = m.identity := by rw [module_of_ofFiles_eq_ok hx]
  have hnames := htable.pairwise_packageNames m.identity
  rw [generate_eq htable, hmodule]
  have hmem : ∀ g ∈ (table.packageNames m.identity).filterMap fun name =>
      (x.package? name).map (x.catalogFrom s language header table),
      ∃ p ∈ x.packages, g = x.catalogFrom s language header table p := by
    intro g hg
    obtain ⟨name, -, hg⟩ := List.mem_filterMap.1 hg
    obtain ⟨p, hpackage, rfl⟩ := Option.map_eq_some_iff.1 hg
    exact ⟨p, (package?_eq_some hpackage).1, rfl⟩
  have hpackages := map_package_catalogFrom s language header table x
    (table.packageNames m.identity)
  have hascending : (((table.packageNames m.identity).filterMap fun name =>
      (x.package? name).map (x.catalogFrom s language header table)).map (·.package)).Pairwise
        fun a b => a.lt b = true := by
    rw [hpackages]
    exact hnames.filter _
  refine ⟨hascending, fun name => ?_, fun g hg => ?_, ?_, fun g hg => ?_, fun g hg => ?_, ?_⟩
  · rw [hpackages, List.mem_filter, htable.mem_packageNames_iff, isSome_package?_iff hx]
  · obtain ⟨p, -, rfl⟩ := hmem g hg
    exact hmodule
  · -- catalogs of one path would be those of one package
    refine List.pairwise_map.2 ((List.pairwise_map.1 hascending).imp_of_mem ?_)
    intro g g' hg hg' hlt hpath
    obtain ⟨p, hp, rfl⟩ := hmem g hg
    obtain ⟨q, hq, rfl⟩ := hmem g' hg'
    exact Text.ne_of_lt hlt ((isScanned_of_ofFiles_eq_ok ht hm hx hp).name_eq_of_translationPath_eq
      (isScanned_of_ofFiles_eq_ok ht hm hx hq) hpath)
  · obtain ⟨p, hp, rfl⟩ := hmem g hg
    have hscanned := isScanned_of_ofFiles_eq_ok ht hm hx hp
    obtain ⟨around, hat⟩ := hscanned.isPackageAt
    obtain ⟨names, hne, hlength, htext⟩ := hscanned.exists_names_translationPath hat language
    refine ⟨names, hne, ?_, fun hlanguage hsuffix => ?_⟩
    · show Path.ofText (p.translationPath s language) = _
      rw [catalogFrom, ← hat.directory, hat.ofText_directory, htext]
    · have hname := Package.isName_translationName_of_not_mem hlanguage hsuffix
      rw [Path.ofText_name hname] at hlength
      exact List.length_eq_one_iff.1 hlength
  · obtain ⟨p, hp, rfl⟩ := hmem g hg
    refine ⟨table.keysOf m.identity p.name, htable.pairwise_keysOf _ _,
      fun key => Table.mem_keysOf_iff, ?_⟩
    rw [catalogFrom, hmodule]
  · refine ⟨_, hnames.filter fun name => (x.package? name).isNone, fun name => ?_, rfl⟩
    rw [List.mem_filter, htable.mem_packageNames_iff, ← isSome_package?_iff hx,
      ← Option.not_isSome, Bool.not_eq_true', Bool.not_eq_true]

/-! ### Rows -/

/-- **What a module gets from the rows of a table:** a catalog for each of its packages that has
texts there, a warning for each other package, nothing from the rows of other modules, and the same
from the rows in another order if no two of them hold texts for one address. -/
theorem isGenerated_generate_of_rows (ht : t.IsNamed) {log : Log}
    (hm : m₀.collectFiles s t = .ok (m, log)) (hx : (ofFiles s t m).2 = .ok x) {source : Text}
    {lists : List (List Text)} {table : Table} (htable : Table.ofRows source lists = .ok table)
    (language : Text) (header : List Text) :
    IsGenerated s m language header table (x.generate s language header table) ∧
      ∃ rows : List TableRow, lists = rows.map (·.cells) ∧
        (∃ table', Table.ofRows source
            ((rows.filter fun r => r.module = m.identity).map (·.cells)) = .ok table' ∧
          x.generate s language header table' = x.generate s language header table) ∧
        ∀ rows', rows.Perm rows' →
          ((rows.filter fun r => r.HoldsText).map (·.address)).Nodup →
          ∃ table', Table.ofRows source (rows'.map (·.cells)) = .ok table' ∧
            x.generate s language header table' = x.generate s language header table := by
  obtain ⟨rows, rfl⟩ := TableRow.exists_map_cells (Table.length_of_readRows htable)
  obtain rfl := Table.eq_of_ofRows htable
  have htidy := Table.isTidy_foldl_addRow Table.isTidy_nil rows
  have hmodule : x.module.identity = m.identity := by rw [module_of_ofFiles_eq_ok hx]
  have hsame : ∀ rows' : List TableRow,
      (∀ package key, Table.lastText? rows' (m.identity, package, key) =
        Table.lastText? rows (m.identity, package, key)) →
      ∃ table', Table.ofRows source (rows'.map (·.cells)) = .ok table' ∧
        x.generate s language header table' =
          x.generate s language header (rows.foldl Table.addRow []) := by
    intro rows' h
    refine ⟨_, Table.readRows_cells source 1 [] rows',
      generate_congr htidy (Table.isTidy_foldl_addRow Table.isTidy_nil rows') ?_ language header⟩
    intro package key
    rw [Table.find?_foldl_addRow, Table.find?_foldl_addRow, hmodule, h]
  refine ⟨isGenerated_generate ht hm hx htidy language header, rows, rfl, ?_, ?_⟩
  · exact hsame _ fun package key => Table.lastText?_filter_module rows m.identity package key
  · intro rows' hperm hnodup
    refine hsame rows' fun package key => Table.lastText?_eq_of_perm hperm ?_ _
    simpa only [TableRow.isKept_eq] using hnodup

/-- Rows of a package that the module has, the last one without a translation, and a row of another
module. -/
def mixedRows : List TableRow :=
  [⟨"k", "x", "w", "n", "p"⟩, ⟨"a", "x", "y", "m", "p"⟩, ⟨"c", "x", "", "m", "p"⟩]

theorem isGenerated_generate_of_rows_sample :
    let table := mixedRows.foldl Table.addRow []
    ∃ log x table', (catalogTree bothNames).IsNamed ∧
      (catalogModule []).collectFiles .standard (catalogTree bothNames) =
        .ok (catalogModule bothNames, log) ∧
      (ofFiles .standard (catalogTree bothNames) (catalogModule bothNames)).2 = .ok x ∧
      Table.ofRows "t.csv" (mixedRows.map (·.cells)) = .ok table ∧
      IsGenerated .standard (catalogModule bothNames) "de" ["# h"] table
        (x.generate .standard "de" ["# h"] table) ∧
      x.generate .standard "de" ["# h"] table =
        ([⟨"m", "p", "/src/p/Bundle_de.properties", ["# h", "a=y"]⟩], []) ∧
      Table.ofRows "t.csv" (mixedRows.reverse.map (·.cells)) = .ok table' ∧
      x.generate .standard "de" ["# h"] table' = x.generate .standard "de" ["# h"] table := by
  intro table
  have hnamed : (catalogTree bothNames).IsNamed := by
    unfold Tree.IsNamed
    decide
  obtain ⟨log, hcollected⟩ := collectFiles_catalogModule bothNames (by decide)
  have hscan : (ofFiles .standard (catalogTree bothNames)
      (catalogModule bothNames)).2.toOption.map (·.generate .standard "de" ["# h"] table) =
      some ([⟨"m", "p", "/src/p/Bundle_de.properties", ["# h", "a=y"]⟩], []) := by decide +kernel
  obtain ⟨x, hx, hresult⟩ := Option.map_eq_some_iff.1 hscan
  have hx := Failure.eq_ok_of_toOption hx
  have htable : Table.ofRows "t.csv" (mixedRows.map (·.cells)) = .ok table := rfl
  obtain ⟨hgenerated, rows, hrows, -, hperm⟩ :=
    isGenerated_generate_of_rows hnamed hcollected hx htable "de" ["# h"]
  obtain rfl := List.map_injective_iff.2 TableRow.cells_injective hrows
  obtain ⟨table', htable', hsame⟩ := hperm mixedRows.reverse (List.reverse_perm _).symm (by decide)
  exact ⟨log, x, table', hnamed, hcollected, hx, htable, hgenerated, hresult, htable', hsame⟩

end ModuleScan

end BundleAudit
