import BundleAudit.Proofs.Command.Import
import BundleAudit.Proofs.Module.Regeneration
import Mathlib.Data.List.Permutation
import Mathlib.Tactic.Choose

/-!
# BundleAudit.Proofs.Command.Repetition

**An import can be repeated.** What an import does is settled by the table, the modules
and the catalogs that it gives them (`IsPlan`). The catalogs that were written do not
change any of these, as long as nothing else in the tree leads to them (`IsKept`); so
the second import writes the same catalogs to the same places, and leaves the tree as
it is (`repeats_run`).
-/

namespace BundleAudit.Command

open RepositoryModule

variable {e : Environment} {a : TransferArguments} {t t' : Tree} {path : Path}

/-! ### What an import works on -/

/-- The table, the modules and the catalogs of an import. -/
structure Plan where
  table : Path
  modules : List RepositoryModule
  catalogs : List GeneratedCatalog

/-- What an import finds in a tree, and what it makes of it. -/
structure IsPlan (e : Environment) (a : TransferArguments) (t : Tree) (plan : Plan) : Prop where
  language : isLanguage a.language = true
  table : e.expand (Path.ofText a.table) = .ok plan.table
  modules : ∃ log, found e a.scan t = .ok (some plan.modules, log)
  catalogs : ∃ table, (t.readTable plan.table.toText).bind (Table.ofRows plan.table.toText) =
      .ok table ∧
    plan.catalogs = plan.modules.flatMap (ModuleScan.generatedFor a.scan.settings t a.language
      (Catalog.header Catalog.toolName plan.table.name) table)

/-- The files of a plan: where each of its catalogs goes, and its text. -/
def Plan.files (plan : Plan) : List (Path × Text) := plan.catalogs.map fileOf

/-- A table that cannot be read ends the command. -/
theorem exists_yields_readTableFile {failure : Failure}
    (h : (t.readTable path.toText).bind (Table.ofRows path.toText) = .error failure) :
    Yields (readTableFile path) t (.error failure) t ∨
      ∃ n ≠ 0, Yields (readTableFile path) t (.ok (.ended n)) t := by
  cases failure with
  | system cause at_ target =>
      refine .inr ⟨2, by decide, .bind (yields_tree t) ?_⟩
      rw [h]
      exact .bind (yields_say _ t) (.pure _ t)
  | wrongColumns source row expected cells =>
      refine .inr ⟨1, by decide, .bind (yields_tree t) ?_⟩
      rw [h]
      exact .bind (yields_say _ t) (.pure _ t)
  | _ =>
      refine .inl (.bind (yields_tree t) ?_)
      rw [h]
      exact .throw _ t

/-- The catalogs of a plan are those that its modules get. -/
theorem IsPlan.importedCatalogs_eq {plan : Plan} {table : Table} {modules : List RepositoryModule}
    {log : Log} (hmodules : found e a.scan t = .ok (some modules, log))
    (h : plan.catalogs = modules.flatMap (ModuleScan.generatedFor a.scan.settings t a.language
      (Catalog.header Catalog.toolName plan.table.name) table)) :
    importedCatalogs a t plan.table table modules = plan.catalogs := by
  rw [importedCatalogs, flatMap_ordered hmodules, h]
  rfl

/-- An import that has a plan writes its files, and then names its catalogs. -/
theorem IsPlan.yields {plan : Plan} (h : IsPlan e a t plan) :
    Yields (importTable e a) t
      (importExit e (rowsOf plan.table plan.catalogs) (t.writeAll plan.files).2)
      (t.writeAll plan.files).1 := by
  obtain ⟨log, hmodules⟩ := h.modules
  obtain ⟨table, htable, hcatalogs⟩ := h.catalogs
  have himport := yields_importTable h.language h.table htable hmodules
  rw [IsPlan.importedCatalogs_eq hmodules hcatalogs] at himport
  exact himport

/-- An import without a plan does not end with the exit code 0. -/
theorem exists_yields_importTable_or :
    (∃ plan, IsPlan e a t plan) ∨ ∃ exit, Yields (importTable e a) t exit t ∧ exit ≠ .ok 0 := by
  cases hlanguage : isLanguage a.language with
  | false =>
      have hstart : Yields (checkLanguage a.language) t (.ok false) t := by
        rw [checkLanguage, hlanguage]
        exact .bind (yields_say _ t) (.pure false t)
      exact .inr ⟨.ok 2, .bind hstart (.pure 2 t), by simp⟩
  | true =>
      have hstart := yields_checkLanguage hlanguage t
      cases hpath : e.expand (Path.ofText a.table) with
      | error failure =>
          refine .inr ⟨.error failure, .bind hstart (.bind_error ?_), by simp⟩
          rw [pathOf, hpath]
          exact .throw failure t
      | ok path =>
          cases htable : (t.readTable path.toText).bind (Table.ofRows path.toText) with
          | error failure =>
              rcases exists_yields_readTableFile htable with hread | ⟨n, hn, hread⟩
              · exact .inr ⟨_, yields_importTable_of_readTableFile hlanguage hpath hread, by simp⟩
              · exact .inr ⟨.ok n, yields_importTable_ended hlanguage hpath hread,
                  fun heq => hn (Except.ok.inj heq)⟩
          | ok table =>
              cases hmodules : found e a.scan t with
              | error failure =>
                  exact .inr ⟨_, yields_importTable_unfound hlanguage hpath htable hmodules,
                    by simp⟩
              | ok r =>
                  obtain ⟨_ | modules, log⟩ := r
                  · exact .inr ⟨.ok 2, yields_importTable_nothing hlanguage hpath htable hmodules,
                      by simp⟩
                  · exact .inl ⟨⟨path, modules, modules.flatMap (ModuleScan.generatedFor
                      a.scan.settings t a.language (Catalog.header Catalog.toolName path.name)
                      table)⟩, hlanguage, hpath, ⟨log, hmodules⟩, table, htable, rfl⟩

/-- An import that ends with the exit code 0 has a plan, leaves the tree in which the files of the
plan are written, and has named its catalogs. -/
theorem exists_isPlan_of_run {words : List Text}
    (hwords : Arguments.ofWords e.threads words = .ok (.importTable a))
    (hzero : (run e words t).exit = .ok 0) :
    ∃ plan, IsPlan e a t plan ∧ t.writeAll plan.files = ((run e words t).session.tree, none) ∧
      e.undrawn? (rowsOf plan.table plan.catalogs) = none := by
  rcases exists_yields_importTable_or (e := e) (a := a) (t := t) with
    ⟨plan, hplan⟩ | ⟨exit, hyields, hne⟩
  · obtain ⟨hexit, htree⟩ := run_of_yields hwords hplan.yields
    obtain ⟨hnone, hdrawn⟩ := importExit_eq_zero_iff.1 (hexit.symm.trans hzero)
    exact ⟨plan, hplan, Prod.ext htree.symm hnone, hdrawn⟩
  · exact absurd ((run_of_yields hwords hyields).1.symm.trans hzero) hne

/-! ### What an import leaves alone -/

/-- The locations of the catalogs of a plan. -/
def Plan.Writes (plan : Plan) (t : Tree) (l : Location) : Prop :=
  ∃ g ∈ plan.catalogs, ∃ p, t.place .entry g.path = .ok p ∧ p.location = l

/-- Nothing that decides on a plan is among the catalogs that it writes, or leads to them. -/
structure IsKept (a : TransferArguments) (t : Tree) (plan : Plan) : Prop where
  /-- The table file is not written. -/
  table : ¬t.LeadsInto (plan.Writes t) plan.table.toText
  /-- No link stands where a catalog is written. -/
  noLink : ∀ g ∈ plan.catalogs, t.HasNoLinkAt (Path.ofText g.path)
  /-- No manifest and no project file leads to a catalog that is written. -/
  isApart : IsApart t (plan.Writes t)
  /-- The paths of the modules' files are not too long. -/
  limit : ∀ m ∈ plan.modules, IsWithinLimit a.scan.settings t m
  /-- The layer of a module whose scan fails is not written. -/
  layer : ∀ m ∈ plan.modules, (∀ y, (ModuleScan.ofModule a.scan.settings t m).2 ≠ .ok y) →
    ∀ path, (ModuleScan.platformManifest? t m).bind (ModuleScan.layerPath? m) = some path →
      ¬t.LeadsInto (plan.Writes t) path

/-! ### Where catalogs go -/

/-- Locations for the files of a plan, each a name for a translation in the directory of a package.
-/
structure IsPlacement (a : TransferArguments) (t : Tree) (plan : Plan)
    (place : Path × Text → Location) : Prop where
  toText : ∀ g ∈ plan.catalogs, (Path.ofText g.path).toText = g.path
  placed : ∀ f ∈ plan.files, ∃ g ∈ plan.catalogs, fileOf g = f ∧ ∃ d name,
    ModuleScan.IsPlacedAt a.scan.settings t a.language g d name ∧ place f = d ++ [name]

/-- The locations of some files. -/
def Among (plan : Plan) (place : Path × Text → Location) (l : Location) : Prop :=
  ∃ f ∈ plan.files, place f = l

variable {plan : Plan} {place : Path × Text → Location}

theorem exists_isPlacement (ht : t.IsSound) (h : IsPlan e a t plan)
    (hlimit : ∀ m ∈ plan.modules, IsWithinLimit a.scan.settings t m) :
    ∃ place, IsPlacement a t plan place := by
  obtain ⟨log, hmodules⟩ := h.modules
  obtain ⟨table, -, hcatalogs⟩ := h.catalogs
  have hplaced : ∀ g ∈ plan.catalogs, ∃ d name,
      ModuleScan.IsPlacedAt a.scan.settings t a.language g d name := by
    intro g hg
    rw [hcatalogs] at hg
    obtain ⟨m, hm, hg⟩ := List.mem_flatMap.1 hg
    obtain ⟨root, directory, hof⟩ := exists_isOf_of_found hmodules hm
    exact ModuleScan.exists_isPlacedAt ht h.language hof.files
      (hlimit m hm) hg
  have hplace : ∀ f ∈ plan.files, ∃ l, ∃ g ∈ plan.catalogs, fileOf g = f ∧ ∃ d name,
      ModuleScan.IsPlacedAt a.scan.settings t a.language g d name ∧ l = d ++ [name] := by
    intro f hf
    obtain ⟨g, hg, rfl⟩ := List.mem_map.1 hf
    obtain ⟨d, name, hplaced⟩ := hplaced g hg
    exact ⟨_, g, hg, rfl, d, name, hplaced, rfl⟩
  choose! place hplace using hplace
  refine ⟨place, fun g hg => ?_, hplace⟩
  obtain ⟨d, name, hplaced⟩ := hplaced g hg
  exact hplaced.toText

/-- No file is being written: nothing has the name of a temporary file of a catalog. -/
def IsQuiet (t : Tree) : Prop :=
  ∀ l name, (t.entry? (l ++ [name])).isSome →
    ¬Settings.standard.catalogSuffix ++ Tree.temporarySuffix <:+ name

theorem IsQuiet.of_entries (h : ∀ x ∈ t.entries, ∀ name ∈ x.1,
    ¬Settings.standard.catalogSuffix ++ Tree.temporarySuffix <:+ name) : IsQuiet t := by
  intro l name hsome
  obtain ⟨entry, hentry⟩ := Option.isSome_iff_exists.1 hsome
  rw [Tree.entry?_of_ne_nil (List.concat_ne_nil _ _)] at hentry
  exact h _ (KeyedList.mem_of_get?_eq_some hentry) name
    (List.mem_append_right _ (List.mem_singleton.2 rfl))

theorem IsPlacement.goesTo (h : IsPlacement a t plan place) (hquiet : IsQuiet t) :
    ∀ f ∈ plan.files, t.GoesTo (Among plan place) f.1 (place f) := by
  intro f hf
  obtain ⟨g, -, rfl, d, name, hplaced, hplace⟩ := h.placed f hf
  have hname : (fileOf g).1.name = name := hplaced.name_eq
  have htemporary : (Tree.temporaryOf (fileOf g).1).name = name ++ Tree.temporarySuffix := by
    rw [Tree.name_temporaryOf, hname]
  refine ⟨Path.isNormal_ofText g.path, ⟨d, hplaced.way, hplaced.directory, hname ▸ hplace⟩, ?_, ?_,
    ⟨_, hf, rfl⟩⟩
  · rw [htemporary, hplace, List.dropLast_concat]
    by_contra hsome
    refine hquiet d _ (Option.isSome_iff_ne_none.2 hsome) ?_
    obtain ⟨before, rfl⟩ := suffix_of_passes hplaced.isNameAt.passes
    exact ⟨before, by rw [List.append_assoc]⟩
  · rw [htemporary, hplace, List.dropLast_concat]
    rintro ⟨f', hf', heq⟩
    obtain ⟨g', -, -, d', name', hplaced', hplace'⟩ := h.placed f' hf'
    obtain ⟨-, hsame⟩ := List.append_inj' (hplace'.symm.trans heq) rfl
    have hpasses := hplaced'.isNameAt.passes
    rw [List.singleton_inj.1 hsame] at hpasses
    exact not_passes_temporary hpasses

/-- What a plan writes are the locations of its files. -/
theorem IsPlacement.writes_eq (h : IsPlacement a t plan place)
    (htakes : ∀ f ∈ plan.files, t.Takes f.1 (place f)) : plan.Writes t = Among plan place := by
  have hone : ∀ g ∈ plan.catalogs,
      ∃ p, t.place .entry g.path = .ok p ∧ p.location = place (fileOf g) := by
    intro g hg
    obtain ⟨p, hp, hlocation⟩ := (htakes (fileOf g) (List.mem_map_of_mem hg)).place_entry
    exact ⟨p, h.toText g hg ▸ hp, hlocation⟩
  funext l
  refine propext ⟨?_, ?_⟩
  · rintro ⟨g, hg, p, hp, rfl⟩
    obtain ⟨p', hp', hlocation⟩ := hone g hg
    obtain rfl := Except.ok.inj (hp.symm.trans hp')
    exact ⟨_, List.mem_map_of_mem hg, hlocation.symm⟩
  · rintro ⟨f, hf, rfl⟩
    obtain ⟨g, hg, rfl⟩ := List.mem_map.1 hf
    obtain ⟨p, hp, hlocation⟩ := hone g hg
    exact ⟨g, hg, p, hp, hlocation⟩

/-! ### The tree after an import -/

/-- The text of a catalog that an import writes begins with a number sign. -/
theorem IsPlan.exists_hash (h : IsPlan e a t plan) {g : GeneratedCatalog} (hg : g ∈ plan.catalogs) :
    ∃ rest, (fileOf g).2.flatMap Text.utf8Code = 0x23 :: rest := by
  obtain ⟨table, -, hcatalogs⟩ := h.catalogs
  rw [hcatalogs] at hg
  obtain ⟨m, -, hg⟩ := List.mem_flatMap.1 hg
  obtain ⟨more, hlines⟩ := ModuleScan.lines_of_mem_generatedFor hg
  have htext : ∃ rest, (fileOf g).2 = Code.hash :: rest := by
    show ∃ rest, Text.ofLines g.lines = _
    rw [hlines]
    exact ⟨_, rfl⟩
  obtain ⟨rest, hrest⟩ := htext
  rw [hrest, Text.flatMap_utf8Code_cons (by decide)]
  exact ⟨_, rfl⟩

/-- The tree in which the files of a plan stand. -/
def Plan.treeAfter (plan : Plan) (t : Tree) (place : Path × Text → Location) : Tree :=
  t.putAll (Tree.putsOf place plan.files)

theorem IsPlacement.isWritten (h : IsPlacement a t plan place) (hplan : IsPlan e a t plan)
    (ht : t.IsSound) (halike : t.AlikeBut (Among plan place) (plan.treeAfter t place))
    (hsound : (plan.treeAfter t place).IsSound) :
    IsWritten a.scan.settings t (Among plan place) (plan.treeAfter t place) := by
  have hplaced : ∀ d name, Among plan place (d ++ [name]) →
      ∃ g, ModuleScan.IsPlacedAt a.scan.settings t a.language g d name := by
    rintro d name ⟨f, hf, heq⟩
    obtain ⟨g, -, -, d', name', hplaced, hplace⟩ := h.placed f hf
    obtain ⟨rfl, hname⟩ := List.append_inj' (hplace.symm.trans heq) rfl
    exact ⟨g, List.singleton_inj.1 hname ▸ hplaced⟩
  refine ⟨ht, hsound, halike, fun d name hw => .inl ?_⟩
  obtain ⟨g, hplaced⟩ := hplaced d name hw
  refine ⟨ofName?_of_passes (s := .ofBundles a.scan.allBundles) hplaced.isNameAt.passes, ?_⟩
  obtain ⟨f, hf, heq⟩ := hw
  rw [← heq]
  have hne : ∀ x ∈ Tree.putsOf place plan.files, x.1 ≠ [] := by
    intro x hx
    obtain ⟨f', hf', rfl⟩ := List.mem_map.1 hx
    obtain ⟨g, -, -, d, name, -, hplace⟩ := h.placed f' hf'
    rw [hplace]
    exact List.concat_ne_nil _ _
  rcases Tree.entry?_putAll hne t (place f) with ⟨-, hnone⟩ | ⟨x, hx, -, hentry⟩
  · exact absurd rfl (hnone _ (List.mem_map_of_mem hf))
  · obtain ⟨f', hf', rfl⟩ := List.mem_map.1 hx
    obtain ⟨g, hg, rfl⟩ := List.mem_map.1 hf'
    obtain ⟨rest, hrest⟩ := hplan.exists_hash hg
    rw [hrest] at hentry
    exact ⟨rest, hentry⟩

/-- What a plan writes below the source root of a module stands beside a file of it. -/
theorem IsPlacement.isBeside (h : IsPlacement a t plan place) (ht : t.IsSound)
    {m : RepositoryModule} (hlimit : IsWithinLimit a.scan.settings t m) :
    IsBeside a.scan.settings t (Among plan place) m := by
  rintro l hl around name ⟨f, hf, heq⟩ -
  obtain ⟨g, -, -, d, name', hplaced, hplace⟩ := h.placed f hf
  obtain ⟨rfl, -⟩ := List.append_inj' (hplace.symm.trans heq) rfl
  obtain ⟨other, kind, ⟨bytes, hentry⟩, hkind⟩ := hplaced.beside
  have hother := hlimit l hl around other ⟨bytes, hentry⟩ (Option.isSome_of_eq_some hkind)
  obtain ⟨file, hfile, hstands, -⟩ := RepositoryModule.exists_mem_filesAt ht hentry hkind hother
  exact ⟨file, hfile, hstands.package⟩

/-! ### The second import -/

theorem modulesIn_eq {W : Location → Prop} (ht : t.IsSound) (ht' : t'.IsSound)
    (h : t.AlikeBut W t') (hapart : IsApart t W) (arguments : ScanArguments) (root : Location) :
    modulesIn t' root arguments = modulesIn t root arguments := by
  have hdirectory := Tree.isDirectory_eq h root.toPath.toText
  have hdiscover := discover_eq ht ht' h hapart root.toPath
    (splitDirectories arguments.topDirectories) arguments.moduleFilter
  unfold modulesIn
  dsimp only
  rw [hdirectory, hdiscover]

/-- The same modules are found where no file that makes a module was written. -/
theorem found_eq {W : Location → Prop} (ht : t.IsSound) (ht' : t'.IsSound) (h : t.AlikeBut W t')
    (hapart : IsApart t W) (arguments : ScanArguments) :
    found e arguments t' = found e arguments t := by
  have hroot : arguments.rootIn e t' = arguments.rootIn e t := by
    rw [ScanArguments.rootIn, ScanArguments.rootIn, funext (Tree.resolve_eq h)]
  have hmodules : (fun root => modulesIn t' root arguments) = fun root =>
    modulesIn t root arguments :=
    funext (modulesIn_eq ht ht' h hapart arguments)
  rw [found, found, hroot, hmodules]

/-- An import finds the same in a tree in which its catalogs were written, and makes the same of
it. -/
theorem IsPlan.of_isWritten {W : Location → Prop} (h : IsPlan e a t plan)
    (hwritten : IsWritten a.scan.settings t W t')
    (hbeside : ∀ m ∈ plan.modules, IsBeside a.scan.settings t W m)
    (hnamed : ∀ d name, W (d ++ [name]) → IsNameAt a.scan.settings t a.language d name)
    (hkept : IsKept a t plan) (hwrites : plan.Writes t = W) : IsPlan e a t' plan := by
  subst hwrites
  have hapart := hkept.isApart
  obtain ⟨log, hmodules⟩ := h.modules
  obtain ⟨table, htable, hcatalogs⟩ := h.catalogs
  refine ⟨h.language, h.table, ⟨log, ?_⟩, table, ?_, ?_⟩
  · rw [found_eq hwritten.sound hwritten.sound' hwritten.alike hapart, hmodules]
  · obtain ⟨rows, hrows, -⟩ := Failure.bind_eq_ok_iff.1 htable
    obtain ⟨bytes, hread, -⟩ := Failure.bind_eq_ok_iff.1 hrows
    rw [← htable, Tree.readTable, Tree.readTable, hread,
      (Tree.read_iff hwritten.alike hkept.table).2 hread]
  · rw [hcatalogs]
    refine List.flatMap_congr fun m hm => ?_
    obtain ⟨root, directory, hof⟩ := exists_isOf_of_found hmodules hm
    exact (ModuleScan.generatedFor_eq hwritten (hbeside m hm) hapart hnamed h.language hof
      (hkept.limit m hm) (hkept.layer m hm) _ table).symm

/-- What a second import of a table does. -/
structure Repeats (e : Environment) (a : TransferArguments) (words : List Text) (t t' : Tree)
    (plan : Plan) : Prop where
  /-- The first import writes the catalogs of the plan. -/
  first : IsPlan e a t plan ∧ t.writeAll plan.files = (t', none)
  /-- The second one writes the same catalogs to the same paths. -/
  second : IsPlan e a t' plan ∧ t'.writeAll plan.files = (t', none)
  exit : (run e words t').exit = .ok 0
  tree : (run e words t').session.tree = t'

/-- **An import can be repeated:** if it ends with the exit code 0, a second one does, too, and
leaves the tree as it is. -/
theorem repeats_run {words : List Text} (ht : t.IsSound) (hquiet : IsQuiet t)
    (hwords : Arguments.ofWords e.threads words = .ok (.importTable a))
    (hzero : (run e words t).exit = .ok 0) (hkept : ∀ plan, IsPlan e a t plan → IsKept a t plan) :
    ∃ plan, Repeats e a words t (run e words t).session.tree plan := by
  obtain ⟨plan, hplan, hwrite, hdrawn⟩ := exists_isPlan_of_run hwords hzero
  have hkept := hkept plan hplan
  obtain ⟨place, hplace⟩ := exists_isPlacement ht hplan hkept.limit
  have hgoes := hplace.goesTo hquiet
  -- the texts can be put at their locations from the beginning
  have htakes := Tree.takes_of_writeAll (.refl fun _ h => h.2)
    (fun f hf => ⟨hgoes f hf, by
      obtain ⟨g, hg, rfl⟩ := List.mem_map.1 hf
      exact hkept.noLink g hg⟩) (congrArg Prod.snd hwrite)
  have hwrites := hplace.writes_eq fun f hf => (htakes f hf).1
  have hfree : ∀ l, Among plan place l → t.IsFree l := by
    rintro l ⟨f, hf, rfl⟩
    exact (htakes f hf).1.isFree
  obtain ⟨hput, halike, hsound⟩ := Tree.writeAll_eq (.refl hfree) ht hgoes htakes
  obtain ⟨htree, -⟩ := Prod.mk.inj (hwrite.symm.trans hput)
  rw [htree] at hwrite ⊢
  -- so the second import finds the same
  have hwritten := hplace.isWritten hplan ht halike hsound
  have hnamed : ∀ d name, Among plan place (d ++ [name]) →
      IsNameAt a.scan.settings t a.language d name := by
    rintro d name ⟨f, hf, heq⟩
    obtain ⟨g, -, -, d', name', hplaced, hlocation⟩ := hplace.placed f hf
    obtain ⟨rfl, hname⟩ := List.append_inj' (hlocation.symm.trans heq) rfl
    exact List.singleton_inj.1 hname ▸ hplaced.isNameAt
  have hplan' := hplan.of_isWritten hwritten
    (fun m hm => hplace.isBeside ht (hkept.limit m hm)) hnamed hkept hwrites
  obtain ⟨hput', -, -⟩ := Tree.writeAll_eq halike hsound hgoes htakes
  rw [Tree.putAll_putAll ht] at hput'
  obtain ⟨hexit, hsame⟩ := run_of_yields hwords hplan'.yields
  exact ⟨plan, ⟨hplan, hwrite⟩, ⟨hplan', hput'⟩,
    hexit.trans (importExit_eq_zero_iff.2 ⟨congrArg Prod.snd hput', hdrawn⟩),
    hsame.trans (congrArg Prod.fst hput')⟩

/-! ### An import that is repeated -/

/-- The location of the catalog that the table is for. -/
def importedLocation : Location := inSources "Bundle_ja.properties"

theorem hasNoLinks_repositoryAndTable (bytes : Bytes) : (repositoryAndTable bytes).HasNoLinks :=
  .of_entries fun l target hmem => by
    simp [repositoryAndTable, repositoryWith, Entry.ofText] at hmem

/-- A plan for the repository and its table is for one module, and writes one catalog. -/
structure IsSamplePlan (plan : Plan) : Prop where
  table : plan.table = Path.ofText "t.csv"
  modules : plan.modules = [onlyModule]
  paths : plan.catalogs.map (·.path) = [importedLocation.toPath.toText]

theorem isSamplePlan
    (h : IsPlan plainEnvironment importArguments (repositoryAndTable tableBytes) plan) :
    IsSamplePlan plan := by
  have htable : plan.table = Path.ofText "t.csv" := (Except.ok.inj h.table).symm
  have hfound : found plainEnvironment importArguments.scan (repositoryAndTable tableBytes) =
      .ok (some [onlyModule], [.info "Modules: 1"]) :=
    Failure.eq_ok_of_toOption (by decide +kernel)
  obtain ⟨log, hmodules⟩ := h.modules
  have hmodules : plan.modules = [onlyModule] := by
    rw [hfound] at hmodules
    exact (Option.some.inj (Prod.mk.inj (Except.ok.inj hmodules)).1).symm
  obtain ⟨table, hread, hcatalogs⟩ := h.catalogs
  have hrows : ((repositoryAndTable tableBytes).readTable (Path.ofText "t.csv").toText).bind
      (Table.ofRows (Path.ofText "t.csv").toText) =
        .ok [(Text.ofString "m", [([], [(Text.ofString "k", Text.ofString "y")])])] := by cbv
  rw [htable, hrows] at hread
  cases hread
  refine ⟨htable, hmodules, ?_⟩
  rw [hcatalogs, htable, hmodules]
  decide +kernel

/-- What is written is the translated catalog. -/
theorem IsSamplePlan.eq_of_writes (h : IsSamplePlan plan) {l : Location}
    (hw : plan.Writes (repositoryAndTable tableBytes) l) : l = importedLocation := by
  obtain ⟨g, hg, p, hp, rfl⟩ := hw
  have hpath : g.path = importedLocation.toPath.toText :=
    List.mem_singleton.1 (h.paths ▸ List.mem_map_of_mem hg)
  have hplace : (repositoryAndTable tableBytes).place .entry importedLocation.toPath.toText =
      .ok (.missing importedLocation.dropLast "Bundle_ja.properties") := by cbv
  rw [hpath, hplace] at hp
  cases hp
  rfl

theorem isWithinLimit_onlyModule :
    IsWithinLimit importArguments.scan.settings (repositoryAndTable tableBytes) onlyModule := by
  rintro l hl around name ⟨bytes, hentry⟩ -
  have hsound : (repositoryAndTable tableBytes).IsSound := by decide +kernel
  have hplace : (repositoryAndTable tableBytes).place .target
      (Path.ofText onlyModule.sourceRoot).toText =
        .ok (.found (inSources "Bundle.properties").dropLast) := by cbv
  have hfiles :
      (repositoryAndTable tableBytes).filesWithin (inSources "Bundle.properties").dropLast =
        [[Text.ofString "Bundle.properties"]] := by cbv
  obtain ⟨rfl⟩ := Except.ok.inj (hl.place.symm.trans hplace)
  rw [List.append_assoc] at hentry
  have hnames := hsound.mem_filesWithin_iff.2 ⟨List.concat_ne_nil name around, bytes, hentry⟩
  rw [hfiles] at hnames
  rw [List.mem_singleton.1 hnames]
  decide

theorem IsSamplePlan.isKept (h : IsSamplePlan plan)
    (hplan : IsPlan plainEnvironment importArguments (repositoryAndTable tableBytes) plan) :
    IsKept importArguments (repositoryAndTable tableBytes) plan where
  table := by
    rintro ⟨p, hp, hw⟩
    have hplace : (repositoryAndTable tableBytes).place .target (Path.ofText "t.csv").toText =
        .ok (.found [Text.ofString "t.csv"]) := by cbv
    rw [h.table, hplace] at hp
    cases hp
    have hl := h.eq_of_writes hw
    cases hl
  noLink g _ d _ target := hasNoLinks_repositoryAndTable _ _ target
  isApart := .of_hasNoLinks (hasNoLinks_repositoryAndTable _)
    (fun l hw => ⟨importedLocation.dropLast, "Bundle_ja.properties", h.eq_of_writes hw, by decide,
      by decide⟩)
    fun l hw => by
      rw [h.eq_of_writes hw]
      decide
  limit m hm := by
    rw [h.modules] at hm
    obtain rfl := List.mem_singleton.1 hm
    exact isWithinLimit_onlyModule
  layer m hm hfails := by
    rw [h.modules] at hm
    obtain rfl := List.mem_singleton.1 hm
    -- the scan is completed, since the module gets a catalog
    obtain ⟨g, hg, -⟩ := List.mem_map.1 (h.paths ▸ List.mem_cons_self)
    obtain ⟨table, -, hcatalogs⟩ := hplan.catalogs
    rw [hcatalogs, h.modules, List.flatMap_singleton] at hg
    obtain ⟨y, hy, -⟩ := ModuleScan.mem_generatedFor_iff.1 hg
    exact absurd hy (hfails y)

theorem repeats_run_sample :
    (repositoryAndTable tableBytes).IsSound ∧ IsQuiet (repositoryAndTable tableBytes) ∧
      Arguments.ofWords plainEnvironment.threads importWords = .ok (.importTable importArguments) ∧
      (run plainEnvironment importWords (repositoryAndTable tableBytes)).exit = .ok 0 ∧
      ∃ plan, Repeats plainEnvironment importArguments importWords (repositoryAndTable tableBytes)
        (run plainEnvironment importWords (repositoryAndTable tableBytes)).session.tree plan ∧
        plan.catalogs.map (·.path) = [importedLocation.toPath.toText] := by
  have hsound : (repositoryAndTable tableBytes).IsSound := by decide +kernel
  have hquiet : IsQuiet (repositoryAndTable tableBytes) := .of_entries (by decide +kernel)
  have hwords : Arguments.ofWords plainEnvironment.threads importWords =
      .ok (.importTable importArguments) := by decide +kernel
  have hzero : (run plainEnvironment importWords (repositoryAndTable tableBytes)).exit = .ok 0 :=
    Failure.eq_ok_of_toOption (by decide +kernel)
  obtain ⟨plan, hplan⟩ := repeats_run hsound hquiet hwords hzero fun plan h =>
    (isSamplePlan h).isKept h
  exact ⟨hsound, hquiet, hwords, hzero, plan, hplan, (isSamplePlan hplan.first.1).paths⟩

/-! ### An import that is not repeated -/

/-- A table of translations for two modules. -/
def twoModulesBytes : Bytes := (Text.ofString "k,x,y,m,\nk,x,z,n,\n").flatMap Text.utf8Code

/-- A repository in which a project file is a link to a catalog that an import of the table writes.
-/
def repositoryAndLink : Tree :=
  repositoryWith
    [([Text.ofString "t.csv"], .file twoModulesBytes),
      ([Text.ofString "r", Text.ofString "n"], .directory),
      ([Text.ofString "r", Text.ofString "n", Text.ofString "pom.xml"],
        .link "../m/src/main/java/Bundle_ja.properties"),
      ([Text.ofString "r", Text.ofString "n", Text.ofString "src"], .directory),
      ([Text.ofString "r", Text.ofString "n", Text.ofString "src", Text.ofString "main"],
        .directory),
      ([Text.ofString "r", Text.ofString "n", Text.ofString "src", Text.ofString "main",
        Text.ofString "java"], .directory),
      ([Text.ofString "r", Text.ofString "n", Text.ofString "src", Text.ofString "main",
        Text.ofString "java", Text.ofString "Bundle.properties"], .ofText "k=x\n")]

/-- The module of the directory with this link. -/
def linkedModule : RepositoryModule where
  identity := "n"
  root := "/r/n"
  sourceRoot := "/r/n/src/main/java"

/-- The translations of the table. -/
def twoModulesTable : Table :=
  [("m", [([], [(Text.ofString "k", Text.ofString "y")])]),
    ("n", [([], [(Text.ofString "k", Text.ofString "z")])])]

/-- The catalog that a module gets with a text. -/
def catalogOf (m : RepositoryModule) (text : Text) : GeneratedCatalog where
  module := m.identity
  package := []
  path := m.sourceRoot ++ "/Bundle_ja.properties"
  lines := Catalog.header Catalog.toolName "t.csv" ++ [Text.ofString "k=" ++ text]

/-- What the first import finds and writes. -/
def firstPlan : Plan where
  table := Path.ofText "t.csv"
  modules := [onlyModule]
  catalogs := [catalogOf onlyModule "y"]

/-- What the second import finds and writes. -/
def secondPlan : Plan where
  table := Path.ofText "t.csv"
  modules := [onlyModule, linkedModule]
  catalogs := [catalogOf onlyModule "y", catalogOf linkedModule "z"]

/-- The repository with the catalog that the first import writes. -/
def repositoryOnceImported : Tree :=
  repositoryAndLink.put importedLocation <| .ofText <| Text.ofLines <|
    Catalog.header Catalog.toolName "t.csv" ++ [Text.ofString "k=y"]

theorem readTable_twoModules (h : t.read (Path.ofText "t.csv").toText = .ok twoModulesBytes) :
    (t.readTable (Path.ofText "t.csv").toText).bind (Table.ofRows (Path.ofText "t.csv").toText) =
      .ok twoModulesTable := by
  have hrecords : Csv.ofBytes twoModulesBytes =
      .ok [["k", "x", "y", "m", ""].map Text.ofString,
        ["k", "x", "z", "n", ""].map Text.ofString] := by
    cbv
  rw [bind_readTable_eq h hrecords]
  cbv

theorem isPlan_firstPlan :
    IsPlan plainEnvironment importArguments repositoryAndLink firstPlan where
  language := by decide
  table := rfl
  modules := ⟨[.info "Modules: 1"], by cbv⟩
  catalogs := ⟨twoModulesTable, readTable_twoModules rfl, by cbv⟩

theorem isPlan_secondPlan :
    IsPlan plainEnvironment importArguments repositoryOnceImported secondPlan where
  language := by decide
  table := rfl
  modules := ⟨[.info "Modules: 2"], by cbv⟩
  catalogs := ⟨twoModulesTable, readTable_twoModules rfl, by cbv⟩

theorem writeAll_firstPlan :
    repositoryAndLink.writeAll firstPlan.files = (repositoryOnceImported, none) := by cbv

/-- The catalog of the other module is new. -/
theorem isSome_entry?_writeAll_secondPlan :
    Option.isSome
      (Tree.entry? (repositoryOnceImported.writeAll secondPlan.files).1
        (["r", "n", "src", "main", "java", "Bundle_ja.properties"].map Text.ofString)) = true := by
  cbv

/-- The tree after an import of the table. -/
def treeAfterImport (t : Tree) : Tree := (run plainEnvironment importWords t).session.tree

/-- The second import finds a module that was none before, and writes a catalog for it. -/
theorem second_import_changes_tree :
    repositoryAndLink.IsSound ∧ IsQuiet repositoryAndLink ∧
      Arguments.ofWords plainEnvironment.threads importWords = .ok (.importTable importArguments) ∧
      (run plainEnvironment importWords repositoryAndLink).exit = .ok 0 ∧
      Tree.entry? (treeAfterImport repositoryAndLink) [Text.ofString "t.csv"] =
        repositoryAndLink.entry? [Text.ofString "t.csv"] ∧
      treeAfterImport (treeAfterImport repositoryAndLink) ≠ treeAfterImport repositoryAndLink := by
  have hwords : Arguments.ofWords plainEnvironment.threads importWords =
      .ok (.importTable importArguments) := by decide +kernel
  obtain ⟨hexit, hfirst⟩ := run_of_yields hwords isPlan_firstPlan.yields
  obtain ⟨-, hsecond⟩ := run_of_yields hwords isPlan_secondPlan.yields
  rw [writeAll_firstPlan] at hexit hfirst
  have htree : treeAfterImport repositoryAndLink = repositoryOnceImported := hfirst
  rw [htree]
  refine ⟨by decide +kernel, .of_entries (by decide +kernel), hwords, hexit, rfl, fun heq => ?_⟩
  have hsome := isSome_entry?_writeAll_secondPlan
  rw [← hsecond] at hsome
  rw [treeAfterImport] at heq
  rw [heq] at hsome
  cases hsome

end BundleAudit.Command
