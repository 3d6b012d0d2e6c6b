import BundleAudit.Proofs.Command.Session
import BundleAudit.Proofs.Files.Overwriting
import BundleAudit.Proofs.Module.Generation

/-!
# BundleAudit.Proofs.Command.Import

**How an import ends.** What goes wrong while catalogs are written is a refusal of the
file system, which the command reports (`yields_importInto`). So it ends with an exit
code if the table file is UTF-8 without overlong cells and, where all catalogs were
written, the rows that name them can be drawn (`importEnds_run`).
-/

namespace BundleAudit.Command

variable {e : Environment} {a : TransferArguments} {t : Tree} {path : Path} {bytes : Bytes}

/-! ### Writing catalogs -/

/-- Where a generated catalog goes, and its text. -/
def fileOf (g : GeneratedCatalog) : Path × Text := (Path.ofText g.path, Text.ofLines g.lines)

/-- Catalogs are written one after the other. -/
theorem yields_writeCatalogs (catalogs : List GeneratedCatalog) (t : Tree) :
    Yields (writeCatalogs catalogs) t (.ok (t.writeAll (catalogs.map fileOf)).2)
      (t.writeAll (catalogs.map fileOf)).1 := by
  induction catalogs generalizing t with
  | nil => exact .pure none t
  | cons g rest ih =>
      have hwrite : t.writeText (fileOf g).1 (fileOf g).2 =
          t.writeLines (Path.ofText g.path) g.lines := rfl
      refine .bind (yields_tree t) ?_
      rw [List.map_cons, Tree.writeAll, hwrite]
      rcases t.writeLines (Path.ofText g.path) g.lines with ⟨t', _ | failure⟩
      · exact .bind (yields_change t t') (.bind (yields_say _ t') (ih t'))
      · exact .bind (yields_change t t') (.pure _ t')

/-- The catalogs of scanned modules are written one after the other; all of them are given back, if
all are written. -/
theorem exists_yields_writeTranslations (s : Settings) (language : Text) (header : List Text)
    (table : Table) (scans : List ModuleScan) (t : Tree) :
    ∃ catalogs, Yields (writeTranslations s language header table scans) t
      (.ok (catalogs,
        (t.writeAll
          ((scans.flatMap fun x => (x.generate s language header table).1).map fileOf)).2))
      (t.writeAll ((scans.flatMap fun x => (x.generate s language header table).1).map fileOf)).1 ∧
      ((t.writeAll ((scans.flatMap fun x => (x.generate s language header table).1).map fileOf)).2 =
        none → catalogs = scans.flatMap fun x => (x.generate s language header table).1) := by
  induction scans generalizing t with
  | nil => exact ⟨[], .pure _ t, fun _ => rfl⟩
  | cons x rest ih =>
      have hfirst := yields_writeCatalogs (x.generate s language header table).1 t
      rw [List.flatMap_cons, List.map_append, Tree.writeAll_append]
      revert hfirst
      rcases t.writeAll ((x.generate s language header table).1.map fileOf) with ⟨t', _ | failure⟩
      · intro hfirst
        obtain ⟨more, hrest, hmore⟩ := ih t'
        exact ⟨_, .bind (yields_sayAll _ t) (.bind hfirst (.bind hrest (.pure _ _))),
          fun hnone => congrArg _ (hmore hnone)⟩
      · exact fun hfirst =>
          ⟨_, .bind (yields_sayAll _ t) (.bind hfirst (.pure _ t')), nofun⟩

/-! ### The catalogs of an import -/

/-- The catalogs that an import gives to modules. -/
def importedCatalogs (a : TransferArguments) (t : Tree) (path : Path) (table : Table)
    (modules : List RepositoryModule) : List GeneratedCatalog :=
  (Scan.ofModules a.scan.settings t modules).ordered.flatMap fun x =>
    (x.generate a.scan.settings a.language (Catalog.header Catalog.toolName path.name) table).1

/-- The rows that name catalogs from a table, one for each. -/
def rowsOf (path : Path) (catalogs : List GeneratedCatalog) : List (List Text) :=
  catalogs.map (catalogRow (Catalog.header Catalog.toolName path.name))

/-- How an import ends after the writing of its catalogs, with what went wrong then and with the
rows that name them. -/
def importExit (e : Environment) (rows : List (List Text)) : Option Failure → Except Failure Nat
  | some (.system _ _ _) => .ok 1
  | some failure => .error failure
  | none =>
    match e.undrawn? rows with
    | some failure => .error failure
    | none => .ok 0

theorem importExit_of_not_isSystem {rows : List (List Text)} {failure : Failure}
    (h : ¬failure.IsSystem) : importExit e rows (some failure) = .error failure := by
  cases failure <;> first
    | rfl
    | exact absurd (Failure.isSystem_system ..) h

theorem importExit_of_undrawn {rows : List (List Text)} {failure : Failure}
    (h : e.undrawn? rows = some failure) : importExit e rows none = .error failure := by
  rw [importExit, h]

theorem importExit_eq_zero_iff {rows : List (List Text)} {failure : Option Failure} :
    importExit e rows failure = .ok 0 ↔ failure = none ∧ e.undrawn? rows = none := by
  cases failure with
  | none =>
      cases hrows : e.undrawn? rows with
      | none => simp [importExit, hrows]
      | some failure => simp [importExit, hrows]
  | some failure => cases failure <;> simp [importExit]

/-- If the file system alone refuses catalogs, there is an exit code unless all are written and
cannot be named. -/
theorem exists_importExit_iff {rows : List (List Text)} {failure : Option Failure}
    (h : ∀ f ∈ failure, f.IsSystem) :
    (∃ n ≤ 2, importExit e rows failure = .ok n) ↔ (failure = none → e.undrawn? rows = none) := by
  cases failure with
  | some failure =>
      obtain ⟨cause, at_, target, rfl⟩ := h failure rfl
      exact iff_of_true ⟨1, by decide, rfl⟩ nofun
  | none =>
      cases hrows : e.undrawn? rows with
      | none => exact iff_of_true ⟨0, by decide, importExit_eq_zero_iff.2 ⟨rfl, hrows⟩⟩ fun _ => rfl
      | some failure =>
          rw [importExit_of_undrawn hrows]
          exact iff_of_false (by simp) (by simp)

/-- What goes wrong while catalogs are written is reported, if the file system refused it. -/
theorem yields_importInto (e : Environment) (a : TransferArguments) (path : Path) (table : Table)
    (modules : List RepositoryModule) (t : Tree) :
    Yields (importInto e a path table (Scan.ofModules a.scan.settings t modules)) t
      (importExit e (rowsOf path (importedCatalogs a t path table modules))
        (t.writeAll ((importedCatalogs a t path table modules).map fileOf)).2)
      (t.writeAll ((importedCatalogs a t path table modules).map fileOf)).1 := by
  obtain ⟨catalogs, hyields, hall⟩ := exists_yields_writeTranslations a.scan.settings a.language
    (Catalog.header Catalog.toolName path.name) table
    (Scan.ofModules a.scan.settings t modules).ordered t
  rw [← importedCatalogs] at hyields hall
  revert hyields hall
  rcases t.writeAll ((importedCatalogs a t path table modules).map fileOf) with ⟨t', _ | failure⟩
  · intro hyields hall
    obtain rfl := hall rfl
    refine .bind hyields ?_
    cases hrows : e.undrawn? (rowsOf path (importedCatalogs a t path table modules)) with
    | some failure =>
        rw [importExit_of_undrawn hrows]
        exact .bind_error (yields_showTable_error hrows _ _ t')
    | none =>
        rw [importExit_eq_zero_iff.2 ⟨rfl, hrows⟩]
        exact .bind (yields_showTable hrows _ _ t') (.bind (yields_say _ t') (.pure 0 t'))
  · intro hyields _
    by_cases hsystem : failure.IsSystem
    · obtain ⟨cause, at_, target, rfl⟩ := hsystem
      exact .bind hyields (.bind (yields_say _ t') (.pure 1 t'))
    · rw [importExit_of_not_isSystem hsystem]
      refine .bind hyields ?_
      cases failure <;> first
        | exact .throw _ t'
        | exact absurd (Failure.isSystem_system ..) hsystem

/-- Catalogs that can be written as far as their paths and texts go fail by refusals only. -/
theorem isSystem_of_writeAll {catalogs : List GeneratedCatalog} (h : ∀ g ∈ catalogs, g.IsUsable)
    (t : Tree) : ∀ f ∈ (t.writeAll (catalogs.map fileOf)).2, f.IsSystem := by
  induction catalogs generalizing t with
  | nil => exact nofun
  | cons g rest ih =>
      obtain ⟨hg, hrest⟩ := List.forall_mem_cons.1 h
      rw [List.map_cons, Tree.writeAll]
      cases hwrite : t.writeText (fileOf g).1 (fileOf g).2 with
      | mk t' failure =>
          cases failure with
          | none => exact ih hrest t'
          | some failure =>
              intro f hf
              refine Tree.isSystem_of_writeText (Path.isNormal_ofText g.path) hg.hasName
                hg.isPath hg.isScalar (t := t) ?_
              show (t.writeText (fileOf g).1 (fileOf g).2).2 = some f
              rw [hwrite]
              exact hf

/-! ### The header -/

/-- A header holds no surrogates if the table file was found. -/
theorem all_isScalar_header (hpath : path.IsNormal) (h : Tree.notAPath? path.toText = none) :
    ∀ l ∈ Catalog.header Catalog.toolName path.name, l.all Code.isScalar = true := by
  have hname : path.name.all Code.isScalar = true := by
    by_cases hnil : path.name = []
    · rw [hnil]
      rfl
    · have hmem : path.name ∈ path.names := by
        have hnames := congrArg Path.names (Path.eq_of_name_ne_nil hnil)
        exact hnames ▸ List.mem_append_right _ List.mem_cons_self
      exact (Tree.notAPath?_eq_none_iff.1 ((Tree.notAPath?_toText hpath).1 h _ hmem)).1
  refine List.forall_mem_cons.2 ⟨?_, List.forall_mem_singleton.2 (by decide +kernel)⟩
  rw [List.all_append, hname, Bool.and_true]
  decide +kernel

/-- All catalogs that come from a table file can be written. -/
theorem isUsable_of_mem_ordered (ht : t.IsSound) (hlanguage : isLanguage a.language = true)
    (hheader : ∀ l ∈ Catalog.header Catalog.toolName path.name, l.all Code.isScalar = true)
    {table : Table} (htable : table.KeysHold (·.all Code.isScalar = true))
    {modules : List RepositoryModule} {log : Log}
    (hmodules : found e a.scan t = .ok (some modules, log)) :
    ∀ g ∈ importedCatalogs a t path table modules, g.IsUsable := by
  rw [importedCatalogs, flatMap_ordered hmodules]
  intro g hg
  obtain ⟨m, hm, hg⟩ := List.mem_flatMap.1 hg
  obtain ⟨root, directory, hof⟩ := exists_isOf_of_found hmodules hm
  split at hg
  · next x hscan =>
      exact ModuleScan.isUsable_of_mem_generate ht hof.isPath_sourceRoot
        hof.files hscan hlanguage hheader htable hg
  · cases hg

/-! ### Reading the table -/

theorem readRows_eq_error {source : Text} {number : Nat} {table : Table}
    {rows : List (List Text)} {f : Failure}
    (h : Table.readRows source number table rows = .error f) :
    ∃ row expected cells, f = .wrongColumns source row expected cells := by
  induction rows generalizing number table with
  | nil => cases h
  | cons cells rest ih =>
      rw [Table.readRows] at h
      split at h
      · exact ⟨_, _, _, (Except.error.inj h).symm⟩
      · exact ih h

theorem ofBytes_eq_error {f : Failure} (h : Csv.ofBytes bytes = .error f) :
    f = .undecodable ∨ f = .overlongCell := by
  unfold Csv.ofBytes at h
  split at h
  · exact .inl (Except.error.inj h).symm
  · dsimp only at h
    split at h
    · cases h
    · exact .inr (Except.error.inj h).symm

variable {rows : List (List Text)} {table : Table} {f : Failure}

theorem readTable_eq (h : t.read path.toText = .ok bytes) :
    t.readTable path.toText = Csv.ofBytes bytes := by
  rw [Tree.readTable, h]
  rfl

/-- Bytes that are no records end the command with their failure. -/
theorem yields_readTableFile_error (h : t.read path.toText = .ok bytes)
    (hbytes : Csv.ofBytes bytes = .error f) : Yields (readTableFile path) t (.error f) t := by
  refine .bind (yields_tree t) ?_
  rw [readTable_eq h, hbytes]
  rcases ofBytes_eq_error hbytes with rfl | rfl <;> exact .throw _ t

/-- Records that are no rows are reported. -/
theorem yields_readTableFile_ended (h : t.read path.toText = .ok bytes)
    (hbytes : Csv.ofBytes bytes = .ok rows) (hrows : Table.ofRows path.toText rows = .error f) :
    Yields (readTableFile path) t (.ok (.ended 1)) t := by
  refine .bind (yields_tree t) ?_
  obtain ⟨row, expected, cells, rfl⟩ := readRows_eq_error hrows
  rw [readTable_eq h, hbytes]
  simp only [Except.bind, hrows]
  exact .bind (yields_say _ t) (.pure _ t)

theorem yields_readTableFile
    (h : (t.readTable path.toText).bind (Table.ofRows path.toText) = .ok table) :
    Yields (readTableFile path) t (.ok (.read table)) t := by
  refine .bind (yields_tree t) ?_
  rw [h]
  exact .pure _ t

theorem bind_readTable_eq (h : t.read path.toText = .ok bytes)
    (hbytes : Csv.ofBytes bytes = .ok rows) :
    (t.readTable path.toText).bind (Table.ofRows path.toText) = Table.ofRows path.toText rows := by
  rw [readTable_eq h, hbytes]
  rfl

/-! ### The command -/

/-- An import ends as the reading of its table does, if that ends it. -/
theorem yields_importTable_ended (hlanguage : isLanguage a.language = true)
    (hpath : e.expand (Path.ofText a.table) = .ok path) {n : Nat}
    (hread : Yields (readTableFile path) t (.ok (.ended n)) t) :
    Yields (importTable e a) t (.ok n) t :=
  .bind (yields_checkLanguage hlanguage t) (.bind (yields_pathOf hpath t) (.bind hread (.pure n t)))

/-- A failure to find modules ends an import after its table was read. -/
theorem yields_importTable_unfound (hlanguage : isLanguage a.language = true)
    (hpath : e.expand (Path.ofText a.table) = .ok path)
    (htable : (t.readTable path.toText).bind (Table.ofRows path.toText) = .ok table)
    (hmodules : found e a.scan t = .error f) : Yields (importTable e a) t (.error f) t :=
  .bind (yields_checkLanguage hlanguage t) <| .bind (yields_pathOf hpath t) <|
    .bind (yields_readTableFile htable) <| .bind (yields_say _ t) <|
      .bind_error (yields_findModules_error hmodules)

/-- There is nothing to import into without modules. -/
theorem yields_importTable_nothing (hlanguage : isLanguage a.language = true)
    (hpath : e.expand (Path.ofText a.table) = .ok path)
    (htable : (t.readTable path.toText).bind (Table.ofRows path.toText) = .ok table) {log : Log}
    (hmodules : found e a.scan t = .ok (none, log)) : Yields (importTable e a) t (.ok 2) t :=
  .bind (yields_checkLanguage hlanguage t) <| .bind (yields_pathOf hpath t) <|
    .bind (yields_readTableFile htable) <| .bind (yields_say _ t) <|
      .bind (yields_findModules hmodules) (.pure 2 t)

/-- **A table that was read is imported** into the modules that are found. -/
theorem yields_importTable (hlanguage : isLanguage a.language = true)
    (hpath : e.expand (Path.ofText a.table) = .ok path)
    (htable : (t.readTable path.toText).bind (Table.ofRows path.toText) = .ok table)
    {modules : List RepositoryModule} {log : Log}
    (hmodules : found e a.scan t = .ok (some modules, log)) :
    Yields (importTable e a) t
      (importExit e (rowsOf path (importedCatalogs a t path table modules))
        (t.writeAll ((importedCatalogs a t path table modules).map fileOf)).2)
      (t.writeAll ((importedCatalogs a t path table modules).map fileOf)).1 :=
  .bind (yields_checkLanguage hlanguage t) <| .bind (yields_pathOf hpath t) <|
    .bind (yields_readTableFile htable) <| .bind (yields_say _ t) <|
      .bind (yields_findModules hmodules) <| .bind (yields_sayAll _ t) <|
        .bind (yields_scanModules e a.scan modules t) (yields_importInto e a path table modules t)

/-- The file system alone refuses catalogs that come from a table file. -/
theorem isSystem_of_importedCatalogs (ht : t.IsSound) (hlanguage : isLanguage a.language = true)
    (hpath : e.expand (Path.ofText a.table) = .ok path) (hread : t.read path.toText = .ok bytes)
    (hbytes : Csv.ofBytes bytes = .ok rows) (hrows : Table.ofRows path.toText rows = .ok table)
    {modules : List RepositoryModule} {log : Log}
    (hmodules : found e a.scan t = .ok (some modules, log)) :
    ∀ f ∈ (t.writeAll ((importedCatalogs a t path table modules).map fileOf)).2, f.IsSystem := by
  have hnone : Tree.notAPath? path.toText = none := by
    by_contra hnot
    obtain ⟨failure, hfailure⟩ := Option.ne_none_iff_exists'.1 hnot
    rw [Tree.read, hfailure] at hread
    cases hread
  exact isSystem_of_writeAll (isUsable_of_mem_ordered ht hlanguage
    (all_isScalar_header (isNormal_expand hpath) hnone) (Table.all_isScalar_keys hbytes hrows)
    hmodules) t

theorem yields_importTable_of_readTableFile (hlanguage : isLanguage a.language = true)
    (hpath : e.expand (Path.ofText a.table) = .ok path)
    (hread : Yields (readTableFile path) t (.error f) t) :
    Yields (importTable e a) t (.error f) t :=
  .bind (yields_checkLanguage hlanguage t) (.bind (yields_pathOf hpath t) (.bind_error hread))

/-- How an import from a file of these bytes ends. -/
structure ImportEnds (e : Environment) (a : TransferArguments) (path : Path) (bytes : Bytes)
    (t : Tree) (o : Outcome) : Prop where
  /-- There is an exit code just if the bytes are records, and if it comes to the search for
  modules, that does not fail, and if all catalogs of the modules are written, the rows that name
  them can be drawn. -/
  hasExitCode : (∃ n ≤ 2, o.exit = .ok n) ↔ ∃ rows, Csv.ofBytes bytes = .ok rows ∧
    ∀ table, Table.ofRows path.toText rows = .ok table →
      ∃ modules log, found e a.scan t = .ok (modules, log) ∧ ∀ ms ∈ modules,
        (t.writeAll ((importedCatalogs a t path table ms).map fileOf)).2 = none →
          e.undrawn? (rowsOf path (importedCatalogs a t path table ms)) = none
  /-- Bytes that are no records end the program with a failure. -/
  noRecords : ∀ f, Csv.ofBytes bytes = .error f → o.exit = .error f ∧ o.session.tree = t
  /-- Records that are no rows of a table are reported. -/
  noRows : ∀ rows f, Csv.ofBytes bytes = .ok rows → Table.ofRows path.toText rows = .error f →
    o.exit = .ok 1 ∧ o.session.tree = t
  /-- Rows that cannot be drawn end the program with a failure, after all catalogs were written. -/
  undrawn : ∀ rows table ms log f, Csv.ofBytes bytes = .ok rows →
    Table.ofRows path.toText rows = .ok table → found e a.scan t = .ok (some ms, log) →
      (t.writeAll ((importedCatalogs a t path table ms).map fileOf)).2 = none →
        e.undrawn? (rowsOf path (importedCatalogs a t path table ms)) = some f →
          o.exit = .error f ∧ o.session.tree =
            (t.writeAll ((importedCatalogs a t path table ms).map fileOf)).1

/-- **How an import ends is decided by the bytes of the table file:** it ends with an exit code just
if they are UTF-8 without overlong cells, unless the search for modules fails, or names of modules
or packages cannot be drawn after all catalogs were written. Nothing is written before the whole
table is read. -/
theorem importEnds_run {words : List Text} (ht : t.IsSound)
    (hwords : Arguments.ofWords e.threads words = .ok (.importTable a))
    (hlanguage : isLanguage a.language = true)
    (hpath : e.expand (Path.ofText a.table) = .ok path) (hread : t.read path.toText = .ok bytes) :
    ImportEnds e a path bytes t (run e words t) := by
  have hnoRecords : ∀ f, Csv.ofBytes bytes = .error f →
      (run e words t).exit = .error f ∧ (run e words t).session.tree = t := fun f hbytes =>
    run_of_yields hwords <| yields_importTable_of_readTableFile hlanguage hpath
      (yields_readTableFile_error hread hbytes)
  have hnoRows : ∀ rows f, Csv.ofBytes bytes = .ok rows →
      Table.ofRows path.toText rows = .error f →
        (run e words t).exit = .ok 1 ∧ (run e words t).session.tree = t :=
    fun _ _ hbytes hrows => run_of_yields hwords <| yields_importTable_ended hlanguage hpath
      (yields_readTableFile_ended hread hbytes hrows)
  have himport := fun {rows table modules log} (hbytes : Csv.ofBytes bytes = .ok rows)
      (hrows : Table.ofRows path.toText rows = .ok table)
      (hmodules : found e a.scan t = .ok (some modules, log)) =>
    run_of_yields hwords
      (yields_importTable hlanguage hpath ((bind_readTable_eq hread hbytes).trans hrows) hmodules)
  constructor
  case noRecords => exact hnoRecords
  case noRows => exact hnoRows
  case undrawn =>
      intro rows table modules log f hbytes hrows hmodules hwritten hundrawn
      obtain ⟨hexit, htree⟩ := himport hbytes hrows hmodules
      rw [hwritten, importExit_of_undrawn hundrawn] at hexit
      exact ⟨hexit, htree⟩
  case hasExitCode =>
      cases hbytes : Csv.ofBytes bytes with
      | error f =>
          rw [(hnoRecords f hbytes).1]
          exact iff_of_false (by simp) (by simp)
      | ok rows =>
          cases hrows : Table.ofRows path.toText rows with
          | error f =>
              rw [(hnoRows rows f hbytes hrows).1]
              refine iff_of_true ⟨1, by decide, rfl⟩ ⟨rows, rfl, fun table h => ?_⟩
              cases hrows.symm.trans h
          | ok table =>
              -- it is this table that the condition is about
              simp only [Except.ok.injEq, exists_eq_left', hrows, forall_eq']
              have htable := (bind_readTable_eq hread hbytes).trans hrows
              cases hmodules : found e a.scan t with
              | error f =>
                  -- the failure to find modules takes the place of an exit code
                  have hyields := yields_importTable_unfound hlanguage hpath htable hmodules
                  rw [(run_of_yields hwords hyields).1]
                  exact iff_of_false (by simp) (by simp)
              | ok r =>
                  obtain ⟨_ | modules, log⟩ := r
                  · have hyields := yields_importTable_nothing hlanguage hpath htable hmodules
                    rw [(run_of_yields hwords hyields).1]
                    exact iff_of_true ⟨2, Nat.le_refl 2, rfl⟩ ⟨none, log, rfl, nofun⟩
                  · rw [(himport hbytes hrows hmodules).1, exists_importExit_iff
                      (isSystem_of_importedCatalogs ht hlanguage hpath hread hbytes hrows hmodules)]
                    simp

/-! ### An import -/

/-- A repository and a table file that holds these bytes. -/
def repositoryAndTable (bytes : Bytes) : Tree :=
  repositoryWith [([Text.ofString "t.csv"], .file bytes)]

/-- The words of an import of that table. -/
def importWords : List Text :=
  ["import", "--root", "r", "--language", "ja", "--input", "t.csv"]

/-- What they tell the command. -/
def importArguments : TransferArguments :=
  { scan := { root := "r", threads := 1 }, language := "ja", table := "t.csv" }

/-- A table of one translation. -/
def tableBytes : Bytes := (Text.ofString "k,x,y,m,\n").flatMap Text.utf8Code

theorem importEnds_run_sample :
    (repositoryAndTable tableBytes).IsSound ∧
      Arguments.ofWords plainEnvironment.threads importWords = .ok (.importTable importArguments) ∧
      isLanguage importArguments.language = true ∧
      plainEnvironment.expand (Path.ofText importArguments.table) = .ok (Path.ofText "t.csv") ∧
      (repositoryAndTable tableBytes).read (Path.ofText "t.csv").toText = .ok tableBytes ∧
      ImportEnds plainEnvironment importArguments (Path.ofText "t.csv") tableBytes
        (repositoryAndTable tableBytes)
        (run plainEnvironment importWords (repositoryAndTable tableBytes)) ∧
      (run plainEnvironment importWords (repositoryAndTable tableBytes)).exit.toOption =
        some 0 := by
  have hsound : (repositoryAndTable tableBytes).IsSound := by decide +kernel
  have hwords : Arguments.ofWords plainEnvironment.threads importWords =
      .ok (.importTable importArguments) := by decide +kernel
  have hread : (repositoryAndTable tableBytes).read (Path.ofText "t.csv").toText =
    .ok tableBytes := rfl
  exact ⟨hsound, hwords, by decide, rfl, hread,
    importEnds_run hsound hwords (by decide) rfl hread, by decide +kernel⟩

/-- A table file that is not UTF-8 ends the program with a failure and without an exit code. -/
theorem undecodable_table_has_no_exitCode :
    (repositoryAndTable [0xFF]).IsSound ∧
      isLanguage importArguments.language = true ∧
      (repositoryAndTable [0xFF]).read (Path.ofText importArguments.table).toText = .ok [0xFF] ∧
      Arguments.ofWords plainEnvironment.threads importWords = .ok (.importTable importArguments) ∧
      ∀ n, (run plainEnvironment importWords (repositoryAndTable [0xFF])).exit ≠ .ok n := by
  refine ⟨by decide +kernel, by decide, rfl, by decide +kernel, fun n hn => ?_⟩
  have hnone :
      (run plainEnvironment importWords (repositoryAndTable [0xFF])).exit.toOption = none := by
    decide +kernel
  rw [hn] at hnone
  cases hnone

end BundleAudit.Command
