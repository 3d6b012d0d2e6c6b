import BundleAudit.Proofs.Command.Session
import BundleAudit.Proofs.Files.Refusal
import BundleAudit.Proofs.Module.Discovery
import BundleAudit.Proofs.Module.Rows
import BundleAudit.Proofs.Table.File
import Mathlib.Algebra.Order.BigOperators.Group.List
import Mathlib.Algebra.Order.Group.Nat
import Mathlib.Data.List.Permutation

/-!
# BundleAudit.Proofs.Command.Export

**When an export holds all entries.** Two things can stand in the way: a module whose scan
is not completed has no rows, and a translation that stands for a surrogate cannot be
written, which ends the program (`exportsAll_run_iff`).
-/

namespace BundleAudit.Command

open RepositoryModule

variable {e : Environment} {a : TransferArguments} {t : Tree} {path : Path} {s : Settings}
  {language : Text} {modules : List RepositoryModule} {log : Log}

/-! ### The rows of modules -/

/-- The rows that are exported of a module, if its scan is completed. -/
def exportedOf (s : Settings) (language : Text) (t : Tree) (m : RepositoryModule) : List TableRow :=
  match (ModuleScan.ofModule s t m).2 with
  | .ok x => x.exportRows s language
  | .error _ => []

theorem mem_exportedOf_iff {m : RepositoryModule} {r : TableRow} :
    r ∈ exportedOf s language t m ↔
      ∃ x, (ModuleScan.ofModule s t m).2 = .ok x ∧ r ∈ x.exportRows s language := by
  unfold exportedOf
  cases (ModuleScan.ofModule s t m).2 with
  | error failure => simp
  | ok x => simp

theorem fst_exportedRows (s : Settings) (language : Text) (scans : List ModuleScan) :
    (exportedRows s language scans).1 = scans.flatMap (·.exportRows s language) := by
  induction scans with
  | nil => rfl
  | cons x rest ih =>
      rw [exportedRows]
      dsimp only
      rw [ih, List.flatMap_cons]

theorem exportedRows_ofModules (h : found e a.scan t = .ok (some modules, log)) :
    (exportedRows s language (Scan.ofModules s t modules).ordered).1 =
      modules.flatMap (exportedOf s language t) := by
  rw [fst_exportedRows, flatMap_ordered h]
  rfl

/-- Lists in parts that are permuted or missing are permuted just if no part is missing. -/
theorem perm_flatMap_iff {α β : Type} {f g : α → List β} {xs : List α}
    (h : ∀ x ∈ xs, (f x).Perm (g x) ∨ f x = []) :
    (xs.flatMap f).Perm (xs.flatMap g) ↔ ∀ x ∈ xs, (f x).Perm (g x) := by
  induction xs with
  | nil => exact ⟨fun _ => nofun, fun _ => .refl _⟩
  | cons x rest ih =>
      obtain ⟨hx, hrest⟩ := List.forall_mem_cons.1 h
      rw [List.flatMap_cons, List.flatMap_cons, List.forall_mem_cons, ← ih hrest]
      refine ⟨fun hperm => ?_, fun hperm => hperm.1.append hperm.2⟩
      rcases hx with hx | hnil
      · exact ⟨hx, (List.perm_append_left_iff _).1 (hperm.trans (hx.symm.append_right _))⟩
      · -- what is missing here cannot be made up for by the other parts
        have hshort : (rest.flatMap f).length ≤ (rest.flatMap g).length := by
          rw [List.length_flatMap, List.length_flatMap]
          refine List.sum_le_sum (fun y hy => ?_)
          rcases hrest y hy with hy | hy
          · exact Nat.le_of_eq hy.length_eq
          · exact hy ▸ Nat.zero_le _
        have hlength := hperm.length_eq
        rw [hnil, List.nil_append, List.length_append] at hlength
        have hgnil : g x = [] := List.length_eq_zero_iff.1 (by omega)
        rw [hnil, hgnil, List.nil_append, List.nil_append] at hperm
        exact ⟨by rw [hnil, hgnil], hperm⟩

/-- The rows of a module are there if its scan is completed. -/
theorem perm_exportedOf (s : Settings) (language : Text) (ht : t.IsSound) {m : RepositoryModule}
    (hfiles : m.files = []) :
    ((exportedOf s language t m).map (·.untranslated)).Perm (entryRows s t m) ∧
        (∃ x, (ModuleScan.ofModule s t m).2 = .ok x) ∨
      exportedOf s language t m = [] ∧ ¬∃ x, (ModuleScan.ofModule s t m).2 = .ok x := by
  unfold exportedOf
  cases hscan : (ModuleScan.ofModule s t m).2 with
  | error failure => exact .inr ⟨rfl, nofun⟩
  | ok x =>
      obtain ⟨m', log, hcollect, hx⟩ := ModuleScan.of_ofModule_eq_ok hfiles hscan
      exact .inl ⟨ModuleScan.perm_exportRows ht hcollect hx, x, rfl⟩

/-! ### Writing the table -/

/-- The text of the table file. -/
def tableText (rows : List TableRow) : Text :=
  Csv.write (Table.recordsOf true (rows.map (·.cells)))

theorem all_isScalar_tableText {rows : List TableRow} :
    (tableText rows).all Code.isScalar = true ↔
      ∀ r ∈ rows, ∀ cell ∈ r.cells, cell.all Code.isScalar = true := by
  have hheader : TableRow.header.cells.all (·.all Code.isScalar) = true := by decide +kernel
  rw [tableText, Csv.all_isScalar_write, Table.recordsOf, if_pos rfl, List.all_cons, hheader,
    Bool.true_and, List.all_map, List.all_eq_true]
  simp only [Function.comp_apply, List.all_eq_true]

/-- The rows of a table file are those that were written to it. -/
theorem readTable_of_writeText (hpath : path.IsNormal) (htakes : t.TakesFile path)
    {rows : List TableRow} (hlimit : ∀ r ∈ rows, ∀ cell ∈ r.cells, cell.length ≤ Csv.cellLimit)
    (hscalar : (tableText rows).all Code.isScalar = true) :
    ∃ t', t.writeText path (tableText rows) = (t', none) ∧
      t'.readTable path.toText = .ok (TableRow.header.cells :: rows.map (·.cells)) := by
  obtain ⟨t', hwrite, hread⟩ := htakes.read_writeText hpath hscalar
  refine ⟨t', hwrite, ?_⟩
  rw [Tree.readTable, hread]
  refine (Csv.ofBytes_write (Table.ne_nil_of_mem_recordsOf fun cells hcells => ?_)
    (Table.isStorable_recordsOf fun cells hcells cell hcell => ?_)).2
  · obtain ⟨r, -, rfl⟩ := List.mem_map.1 hcells
    exact r.cells_ne_nil
  · obtain ⟨r, hr, rfl⟩ := List.mem_map.1 hcells
    rw [Csv.isStorable, all_isScalar_tableText.1 hscalar r hr cell hcell, Bool.true_and]
    exact decide_eq_true (hlimit r hr cell hcell)

theorem writeRecords_eq {rows : List TableRow} {t' : Tree} {failure : Option Failure}
    (hwrite : t.writeText path (tableText rows) = (t', failure)) :
    Table.writeRecords t path true (rows.map (·.cells)) =
      (t', match failure with
        | none => .ok (Table.recordsOf true (rows.map (·.cells))).length
        | some failure => .error failure) := by
  rw [tableText] at hwrite
  rw [Table.writeRecords, Table.writeFile, hwrite]
  cases failure <;> rfl

/-- What goes wrong while rows are written ends the command, unless the file system refused it. -/
theorem yields_writeRows_error {rows : List TableRow} {t' : Tree} {failure : Failure}
    (hwrite : t.writeText path (tableText rows) = (t', some failure))
    (hsystem : ¬failure.IsSystem) :
    Yields (writeRows path rows) t (.error failure) t' := by
  refine .bind (yields_tree t) ?_
  rw [writeRecords_eq hwrite]
  dsimp only
  split
  · next heq => cases congrArg Prod.snd heq
  · next heq =>
      cases congrArg Prod.snd heq
      exact absurd (Failure.isSystem_system ..) hsystem
  · next heq =>
      cases heq
      exact .bind (yields_change t _) (.throw _ _)

/-- The writing of rows ends with 0 just if it does not fail. -/
theorem exists_yields_writeRows {rows : List TableRow} {t' : Tree} {failure : Option Failure}
    (hwrite : t.writeText path (tableText rows) = (t', failure)) :
    ∃ exit, Yields (writeRows path rows) t exit t' ∧ (exit = .ok 0 ↔ failure = none) := by
  have hrecords := writeRecords_eq hwrite
  cases failure with
  | none =>
      refine ⟨.ok 0, .bind (yields_tree t) ?_, by simp⟩
      rw [hrecords]
      exact .bind (yields_change t t') (.bind (yields_say _ t') (.pure 0 t'))
  | some failure =>
      by_cases hsystem : failure.IsSystem
      · obtain ⟨cause, at_, target, rfl⟩ := hsystem
        refine ⟨.ok 1, .bind (yields_tree t) ?_, by simp⟩
        rw [hrecords]
        exact .bind (yields_change t t') (.bind (yields_say _ t') (.pure 1 t'))
      · exact ⟨.error failure, yields_writeRows_error hwrite hsystem, by simp⟩

theorem yields_exportTable (hlanguage : isLanguage a.language = true)
    (hmodules : found e a.scan t = .ok (some modules, log))
    (hpath : e.expand (Path.ofText a.table) = .ok path) {exit : Except Failure Nat} {t' : Tree}
    (h : Yields (writeRows path (modules.flatMap (exportedOf a.scan.settings a.language t))) t
      exit t') : Yields (exportTable e a) t exit t' := by
  rw [← exportedRows_ofModules hmodules] at h
  exact .bind (yields_checkLanguage hlanguage t) <| .bind (yields_findModules hmodules) <|
    .bind (yields_scanModules e a.scan modules t) <| .bind (yields_sayAll _ t) <|
      .bind (yields_pathOf hpath t) h

/-! ### The command -/

/-- What an export is for: it ends with 0, and the table file holds the header and one row for each
entry of a primary catalog. -/
structure ExportsAll (a : TransferArguments) (path : Path) (modules : List RepositoryModule)
    (t : Tree) (o : Outcome) : Prop where
  exit : o.exit = .ok 0
  holdsRows : ∃ rows : List TableRow,
    o.session.tree.readTable path.toText = .ok (TableRow.header.cells :: rows.map (·.cells)) ∧
      (rows.map (·.untranslated)).Perm (modules.flatMap (entryRows a.scan.settings t))

/-- No module that has rows fails to be scanned, and no translation stands for a surrogate. -/
structure IsExportable (s : Settings) (language : Text) (t : Tree)
    (modules : List RepositoryModule) : Prop where
  completes : ∀ m ∈ modules, entryRows s t m ≠ [] → ∃ x, (ModuleScan.ofModule s t m).2 = .ok x
  isScalar : ∀ m ∈ modules, ∀ x, (ModuleScan.ofModule s t m).2 = .ok x →
    ∀ r ∈ x.exportRows s language, r.translated.all Code.isScalar = true

theorem perm_exported_iff (s : Settings) (language : Text) (ht : t.IsSound)
    (hfiles : ∀ m ∈ modules, m.files = []) :
    ((modules.flatMap (exportedOf s language t)).map (·.untranslated)).Perm
        (modules.flatMap (entryRows s t)) ↔
      ∀ m ∈ modules, entryRows s t m ≠ [] → ∃ x, (ModuleScan.ofModule s t m).2 = .ok x := by
  rw [List.map_flatMap, perm_flatMap_iff]
  · refine forall₂_congr fun m hm => ?_
    rcases perm_exportedOf s language ht (hfiles m hm) with
      ⟨hperm, hscan⟩ | ⟨hnil, hscan⟩
    · exact ⟨fun _ _ => hscan, fun _ => hperm⟩
    · rw [hnil]
      refine ⟨fun hperm hne => absurd hperm.nil_eq.symm hne, fun h => ?_⟩
      have hnone : entryRows s t m = [] := by
        by_contra hne
        exact hscan (h hne)
      rw [hnone]
      exact .refl _
  · intro m hm
    rcases perm_exportedOf s language ht (hfiles m hm) with h | h
    · exact .inl h.1
    · exact .inr (List.map_eq_nil_iff.2 h.1)

theorem all_isScalar_tableText_iff (s : Settings) (language : Text) (ht : t.IsSound)
    (hmodules : found e a.scan t = .ok (some modules, log)) :
    (tableText (modules.flatMap (exportedOf s language t))).all Code.isScalar = true ↔
      ∀ m ∈ modules, ∀ x, (ModuleScan.ofModule s t m).2 = .ok x →
        ∀ r ∈ x.exportRows s language, r.translated.all Code.isScalar = true := by
  have hcells : ∀ m ∈ modules, ∀ x, (ModuleScan.ofModule s t m).2 = .ok x →
      ∀ r ∈ x.exportRows s language, (∀ cell ∈ r.cells, cell.all Code.isScalar = true) ↔
        r.translated.all Code.isScalar = true := by
    intro m hm x hscan r hr
    obtain ⟨root, directory, hof⟩ := exists_isOf_of_found hmodules hm
    obtain ⟨m', log, hcollect, hx⟩ := ModuleScan.of_ofModule_eq_ok hof.files hscan
    exact ModuleScan.all_isScalar_cells_iff ht (notAPath?_identityOf hof.identity) hcollect hx hr
  rw [all_isScalar_tableText]
  constructor
  · intro h m hm x hscan r hr
    exact (hcells m hm x hscan r hr).1 <|
      h r (List.mem_flatMap.2 ⟨m, hm, mem_exportedOf_iff.2 ⟨x, hscan, hr⟩⟩)
  · intro h r hr
    obtain ⟨m, hm, hr⟩ := List.mem_flatMap.1 hr
    obtain ⟨x, hscan, hr⟩ := mem_exportedOf_iff.1 hr
    exact (hcells m hm x hscan r hr).2 (h m hm x hscan r hr)

/-- **An export holds all entries just if every module that has some is scanned and no translation
stands for a surrogate.** -/
theorem exportsAll_run_iff {words : List Text} (ht : t.IsSound)
    (hwords : Arguments.ofWords e.threads words = .ok (.exportTable a))
    (hlanguage : isLanguage a.language = true)
    (hmodules : found e a.scan t = .ok (some modules, log))
    (hpath : e.expand (Path.ofText a.table) = .ok path) (htakes : t.TakesFile path)
    (hlimit : ∀ m ∈ modules, ∀ x, (ModuleScan.ofModule a.scan.settings t m).2 = .ok x →
      ∀ r ∈ x.exportRows a.scan.settings a.language, ∀ cell ∈ r.cells,
        cell.length ≤ Csv.cellLimit) :
    ExportsAll a path modules t (run e words t) ↔
      IsExportable a.scan.settings a.language t modules := by
  have hfiles : ∀ m ∈ modules, m.files = [] := fun m hm =>
    let ⟨_, _, hof⟩ := exists_isOf_of_found hmodules hm
    hof.files
  have hscalar := all_isScalar_tableText_iff a.scan.settings a.language ht hmodules
  generalize hrows : modules.flatMap (exportedOf a.scan.settings a.language t) = rows at hscalar
  have hcells : ∀ r ∈ rows, ∀ cell ∈ r.cells, cell.length ≤ Csv.cellLimit := by
    intro r hr
    obtain ⟨m, hm, hr⟩ := List.mem_flatMap.1 (hrows ▸ hr)
    obtain ⟨x, hscan, hr⟩ := mem_exportedOf_iff.1 hr
    exact hlimit m hm x hscan r hr
  obtain ⟨t', failure, hwrite⟩ : ∃ t' failure, t.writeText path (tableText rows) = (t', failure) :=
    ⟨_, _, rfl⟩
  obtain ⟨exit, hyields, hexit⟩ := exists_yields_writeRows hwrite
  obtain ⟨hrunExit, hrunTree⟩ := run_of_yields hwords
    (yields_exportTable hlanguage hmodules hpath (hrows ▸ hyields))
  -- what is in the table file once it is written
  have hread : (tableText rows).all Code.isScalar = true →
      exit = .ok 0 ∧ t'.readTable path.toText =
        .ok (TableRow.header.cells :: rows.map (·.cells)) := by
    intro h
    obtain ⟨t'', hwrite', hread⟩ := readTable_of_writeText (isNormal_expand hpath) htakes hcells h
    obtain ⟨rfl, rfl⟩ := Prod.mk.inj (hwrite.symm.trans hwrite')
    exact ⟨hexit.2 rfl, hread⟩
  have hperm := perm_exported_iff a.scan.settings a.language ht hfiles
  rw [hrows] at hperm
  constructor
  · rintro ⟨hzero, rows', hread', hperm'⟩
    have hwritten : (tableText rows).all Code.isScalar = true := by
      have hnone : (t.writeText path (tableText rows)).2 = none := by
        rw [hwrite]
        exact hexit.1 (hrunExit.symm.trans hzero)
      exact Tree.all_isScalar_of_writeText hnone
    have hsame := (hread hwritten).2
    rw [hrunTree, hsame] at hread'
    have hrows' := List.map_injective_iff.2 TableRow.cells_injective
      (List.cons.inj (Except.ok.inj hread')).2
    exact ⟨hperm.1 (hrows' ▸ hperm'), hscalar.1 hwritten⟩
  · rintro ⟨hcompletes, hisScalar⟩
    obtain ⟨hzero, hsame⟩ := hread (hscalar.2 hisScalar)
    exact ⟨hrunExit.trans hzero, rows, hrunTree ▸ hsame, hperm.2 hcompletes⟩

/-! ### An export -/

/-- A repository with a translation of its catalog. -/
def repositoryAndTranslation (catalog : Text) : Tree :=
  repositoryWith [(inSources "Bundle_ja.properties", .ofText catalog)]

/-- The words of an export. -/
def exportWords : List Text :=
  ["export", "--root", "r", "--language", "ja", "--output", "t.csv"]

/-- What they tell the command. -/
def exportArguments : TransferArguments :=
  { scan := { root := "r", threads := 1 }, language := "ja", table := "t.csv" }

theorem ofWords_exportWords : Arguments.ofWords plainEnvironment.threads exportWords =
    .ok (.exportTable exportArguments) := by
  decide +kernel

theorem found_repositoryAndTranslation (catalog : Text) :
    found plainEnvironment exportArguments.scan (repositoryAndTranslation catalog) =
      .ok (some [onlyModule], [.info "Modules: 1"]) := by
  cbv

theorem takesFile_repositoryAndTranslation (catalog : Text) :
    (repositoryAndTranslation catalog).TakesFile (Path.ofText "t.csv") := by
  have hlink : ∀ name, (repositoryAndTranslation catalog).NoLinkHas name := fun name =>
    .of_entries fun l target hmem => by
      simp [repositoryAndTranslation, repositoryWith, Entry.ofText] at hmem
  exact Tree.IsWritable.takesFile (Path.isNormal_ofText _) ⟨by cbv, hlink _, hlink _⟩

theorem exportsAll_run_iff_sample :
    (repositoryAndTranslation "k=\\u00e9\n").IsSound ∧
      Arguments.ofWords plainEnvironment.threads exportWords = .ok (.exportTable exportArguments) ∧
      ExportsAll exportArguments (Path.ofText "t.csv") [onlyModule]
        (repositoryAndTranslation "k=\\u00e9\n")
        (run plainEnvironment exportWords (repositoryAndTranslation "k=\\u00e9\n")) := by
  have hsound : (repositoryAndTranslation "k=\\u00e9\n").IsSound := by decide +kernel
  have hrows : exportedOf exportArguments.scan.settings exportArguments.language
      (repositoryAndTranslation "k=\\u00e9\n") onlyModule =
        [⟨"k", "x", [0xE9], "m", []⟩] := by cbv
  have hcells : ∀ m ∈ [onlyModule], ∀ x,
      (ModuleScan.ofModule exportArguments.scan.settings
        (repositoryAndTranslation "k=\\u00e9\n") m).2 = .ok x →
      ∀ r ∈ x.exportRows exportArguments.scan.settings exportArguments.language,
        r = ⟨"k", "x", [0xE9], "m", []⟩ := by
    intro m hm x hx r hr
    obtain rfl := List.mem_singleton.1 hm
    exact List.mem_singleton.1 (hrows ▸ mem_exportedOf_iff.2 ⟨x, hx, hr⟩)
  refine ⟨hsound, ofWords_exportWords, (exportsAll_run_iff hsound ofWords_exportWords (by decide)
    (found_repositoryAndTranslation _) rfl (takesFile_repositoryAndTranslation _)
    fun m hm x hx r hr => hcells m hm x hx r hr ▸ by decide).2 ⟨fun m hm _ => ?_, ?_⟩⟩
  · obtain rfl := List.mem_singleton.1 hm
    obtain ⟨x, hx, -⟩ := mem_exportedOf_iff.1 (hrows ▸ List.mem_cons_self)
    exact ⟨x, hx⟩
  · exact fun m hm x hx r hr => hcells m hm x hx r hr ▸ by decide

/-- A translation that stands for a surrogate ends the program with a failure and without an exit
code. -/
theorem surrogate_translation_has_no_exitCode :
    (repositoryAndTranslation "k=\\ud800\n").IsSound ∧
      Arguments.ofWords plainEnvironment.threads exportWords = .ok (.exportTable exportArguments) ∧
      isLanguage exportArguments.language = true ∧
      found plainEnvironment exportArguments.scan (repositoryAndTranslation "k=\\ud800\n") =
        .ok (some [onlyModule], [.info "Modules: 1"]) ∧
      (repositoryAndTranslation "k=\\ud800\n").TakesFile (Path.ofText exportArguments.table) ∧
      exportedOf exportArguments.scan.settings exportArguments.language
        (repositoryAndTranslation "k=\\ud800\n") onlyModule =
          [⟨"k", "x", [0xD800], "m", []⟩] ∧
      ∀ n, (run plainEnvironment exportWords (repositoryAndTranslation "k=\\ud800\n")).exit ≠
        .ok n := by
  have hrows : exportedOf exportArguments.scan.settings exportArguments.language
      (repositoryAndTranslation "k=\\ud800\n") onlyModule =
        [⟨"k", "x", [0xD800], "m", []⟩] := by cbv
  refine ⟨by decide +kernel, ofWords_exportWords, by decide, found_repositoryAndTranslation _,
    takesFile_repositoryAndTranslation _, hrows, fun n hn => ?_⟩
  -- the row cannot be written
  have hwrite : ((repositoryAndTranslation "k=\\ud800\n").writeText (Path.ofText "t.csv")
      (tableText [⟨"k", "x", [0xD800], "m", []⟩])).2 = some .unencodable := by cbv
  have hsystem : ¬Failure.unencodable.IsSystem := by
    intro h
    obtain ⟨cause, path, target, heq⟩ := h
    cases heq
  have hyields := yields_writeRows_error (Prod.ext rfl hwrite) hsystem
  rw [← hrows, ← List.flatMap_singleton (exportedOf _ _ _) onlyModule] at hyields
  have hexit := (run_of_yields ofWords_exportWords (yields_exportTable (by decide)
    (found_repositoryAndTranslation _) rfl hyields)).1
  cases hn.symm.trans hexit

end BundleAudit.Command
