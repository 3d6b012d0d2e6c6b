import BundleAudit.Proofs.Module.Usage
import BundleAudit.Proofs.Report.Collection
import BundleAudit.Scan

/-!
# BundleAudit.Proofs.Scan.Completion

**Modules are scanned on their own,** whatever becomes of the scans of others and in
whatever order they are completed. Each completion adds one report under a name that
is new (`reports_foldl_add`), and one scan if it did not fail (`scans_foldl_add`); so in
the end there is one report for each module, and what is seen of the reports and of the
scans does not depend on the order (`collected_interrupted`).

Any set of scans may be broken off, for reasons of their own, besides those that fail
because of what is in their files.
-/

namespace BundleAudit

namespace ModuleScan

/-- A complete scan bears the identity of its module. -/
theorem name_ofModule {s : Settings} {t : Tree} {m : RepositoryModule} {y : ModuleScan}
    (h : (ofModule s t m).2 = .ok y) :
    y.module.identity = m.identity ∧ y.report.name = m.identity := by
  have hfiles : ∀ {n : RepositoryModule}, (ofFiles s t n).2 = .ok y →
      y.module.identity = n.identity ∧ y.report.name = n.identity := by
    intro n hn
    obtain ⟨x, r, -, hmodule, -, hreport, -, hname⟩ := of_ofFiles_eq_ok hn
    exact ⟨congrArg _ hmodule, reportPackages_eq_ok hreport ▸ hname⟩
  unfold ofModule at h
  split at h
  · -- collecting its files does not change what a module is called
    unfold RepositoryModule.collectFiles at h
    cases hbelow : RepositoryModule.filesBelow s t (Path.ofText m.sourceRoot) with
    | error failure =>
        rw [hbelow] at h
        cases h
    | ok below =>
        rw [hbelow] at h
        exact hfiles (n := { m with files := below.1 }) h
  · exact hfiles h

end ModuleScan

namespace Scan

/-- How the scan of a module ends. -/
abbrev Outcome := Log × Except Failure ModuleScan

/-- The report on a module, however its scan ended. -/
def reportOn (m : RepositoryModule) (o : Outcome) : Report :=
  match o.2 with
  | .ok y => y.report
  | .error failure => failedReport m failure

/-- The scan of a module under its identity, if it was completed. -/
def completed? (m : RepositoryModule) (o : Outcome) : Option (Text × ModuleScan) :=
  o.2.toOption.map (m.identity, ·)

/-- The scans of modules, some of which are broken off, with what they have said until then. -/
def interrupted (s : Settings) (t : Tree) (broken : RepositoryModule → Option (Log × Failure))
    (m : RepositoryModule) : Outcome :=
  match broken m with
  | some (log, failure) => (log, .error failure)
  | none => ModuleScan.ofModule s t m

/-- The scans of a command are those of which none is broken off. -/
theorem collect_interrupted_none (s : Settings) (t : Tree) (modules : List RepositoryModule) :
    collect (interrupted s t fun _ => none) modules = ofModules s t modules := rfl

variable {s : Settings} {t : Tree} {broken : RepositoryModule → Option (Log × Failure)}
  {scan : RepositoryModule → Outcome} {m : RepositoryModule} {y : ModuleScan}

theorem of_interrupted_eq_ok (h : (interrupted s t broken m).2 = .ok y) :
    (ModuleScan.ofModule s t m).2 = .ok y := by
  unfold interrupted at h
  split at h
  · cases h
  · exact h

/-- Complete scans report under the identities of their modules. -/
def ReportsByIdentity (scan : RepositoryModule → Outcome) : Prop :=
  ∀ m y, (scan m).2 = .ok y → y.report.name = m.identity

theorem reportsByIdentity_interrupted : ReportsByIdentity (interrupted s t broken) :=
  fun _ _ h => (ModuleScan.name_ofModule (of_interrupted_eq_ok h)).2

theorem ReportsByIdentity.name_reportOn (h : ReportsByIdentity scan) (m : RepositoryModule) :
    (reportOn m (scan m)).name = m.identity := by
  unfold reportOn
  split
  · next y hy => exact h m y hy
  · rfl

theorem ReportsByIdentity.names_map (h : ReportsByIdentity scan) (modules : List RepositoryModule) :
    Reports.names (modules.map fun m => reportOn m (scan m)) = modules.map (·.identity) := by
  rw [Reports.names, List.map_map]
  exact List.map_congr_left fun m _ => h.name_reportOn m

/-! ### Completions -/

theorem reports_add (x : Scan) (m : RepositoryModule) (o : Outcome) :
    (x.add m o).reports = x.reports.add (reportOn m o) := by
  obtain ⟨log, failure | y⟩ := o <;> rfl

theorem scans_add_of_new {x : Scan} (h : m.identity ∉ x.scans.keys) (o : Outcome) :
    (x.add m o).scans = x.scans ++ (completed? m o).toList := by
  obtain ⟨log, failure | y⟩ := o
  · exact (List.append_nil _).symm
  · exact KeyedList.set_of_not_mem h y

theorem reports_foldl_add (hscan : ReportsByIdentity scan)
    {order : List RepositoryModule} {x : Scan}
    (h : (x.reports.names ++ order.map (·.identity)).Nodup) :
    (order.foldl (fun x m => x.add m (scan m)) x).reports =
      x.reports ++ order.map fun m => reportOn m (scan m) := by
  induction order generalizing x with
  | nil => exact (List.append_nil _).symm
  | cons m rest ih =>
      have hname := hscan.name_reportOn m
      have hnew : (reportOn m (scan m)).name ∉ x.reports.names := fun hmem =>
        (List.nodup_append.1 h).2.2 _ hmem m.identity List.mem_cons_self hname
      have hreports : (x.add m (scan m)).reports = x.reports ++ [reportOn m (scan m)] :=
        (reports_add x m (scan m)).trans (Reports.add_of_new hnew)
      have hnames : (x.add m (scan m)).reports.names = x.reports.names ++ [m.identity] := by
        rw [hreports, Reports.names, List.map_append, List.map_singleton, hname, Reports.names]
      rw [List.foldl_cons, ih, hreports, List.append_assoc]
      · rfl
      · rw [hnames, List.append_assoc]
        exact h

theorem scans_foldl_add {order : List RepositoryModule} {x : Scan}
    (h : (x.scans.keys ++ order.map (·.identity)).Nodup) :
    (order.foldl (fun x m => x.add m (scan m)) x).scans =
      x.scans ++ order.filterMap fun m => completed? m (scan m) := by
  induction order generalizing x with
  | nil => exact (List.append_nil _).symm
  | cons m rest ih =>
      have hnew : m.identity ∉ x.scans.keys := fun hmem =>
        (List.nodup_append.1 h).2.2 _ hmem m.identity List.mem_cons_self rfl
      have hscans := scans_add_of_new hnew (scan m)
      have hkeys : ((x.add m (scan m)).scans.keys ++ rest.map (·.identity)).Nodup := by
        rw [hscans, completed?]
        cases (scan m).2 with
        | error failure =>
            refine List.Nodup.sublist ?_ h
            simp only [Except.toOption, Option.map_none, Option.toList_none, List.append_nil]
            exact (List.sublist_cons_self _ _).append_left _
        | ok y =>
            simpa [KeyedList.keys, Except.toOption] using h
      rw [List.foldl_cons, ih hkeys, hscans, List.filterMap_cons, List.append_assoc]
      cases completed? m (scan m) <;> rfl

/-- Each module has its report, in the order of the completions. -/
theorem reports_collect (hscan : ReportsByIdentity scan) {order : List RepositoryModule}
    (h : (order.map (·.identity)).Nodup) :
    (collect scan order).reports = order.map fun m => reportOn m (scan m) :=
  reports_foldl_add hscan (x := {}) h

/-- It is found under the identity of the module. -/
theorem get?_collect (hscan : ReportsByIdentity scan) {order : List RepositoryModule}
    (h : (order.map (·.identity)).Nodup) (hm : m ∈ order) :
    (collect scan order).reports.get? m.identity = some (reportOn m (scan m)) := by
  have hreports := reports_collect hscan h
  rw [← hscan.name_reportOn m]
  refine Reports.get?_eq_some ?_ ?_
  · rw [hreports, hscan.names_map]
    exact h
  · rw [hreports]
    exact List.mem_map_of_mem hm

theorem scans_collect {order : List RepositoryModule} (h : (order.map (·.identity)).Nodup) :
    (collect scan order).scans = order.filterMap fun m => completed? m (scan m) :=
  scans_foldl_add (x := {}) h

/-- The complete scans stand under the identities of some of the modules. -/
theorem sublist_keys_completed? (scan : RepositoryModule → Outcome)
    (modules : List RepositoryModule) :
    ((modules.filterMap fun m => completed? m (scan m)).map Prod.fst).Sublist
      (modules.map (·.identity)) := by
  induction modules with
  | nil => exact .slnil
  | cons m rest ih =>
      rw [List.filterMap_cons, completed?, List.map_cons]
      cases (scan m).2.toOption with
      | none => exact ih.cons m.identity
      | some y => exact ih.cons_cons m.identity

/-! ### What is collected -/

/-- The reports are listed in the order of the identities of the modules. -/
theorem ordered_reports_collect (hscan : ReportsByIdentity scan)
    {modules order : List RepositoryModule}
    (hdistinct : (modules.map (·.identity)).Nodup) (horder : order.Perm modules) :
    (collect scan order).reports.ordered =
      (Text.sortBy (·.identity) modules).map fun m => reportOn m (scan m) := by
  have hperm := Text.perm_sortBy (fun m : RepositoryModule => m.identity) modules
  have horderDistinct := (horder.map (·.identity)).nodup_iff.2 hdistinct
  have hreports := (horder.trans hperm.symm).map fun m => reportOn m (scan m)
  have hnodup : (Reports.names (order.map fun m => reportOn m (scan m))).Nodup := by
    rw [hscan.names_map]
    exact horderDistinct
  have hascending : (Reports.names ((Text.sortBy (·.identity) modules).map fun m =>
      reportOn m (scan m))).Pairwise fun a b => a.lt b = true := by
    rw [hscan.names_map]
    exact Text.pairwise_lt_sortBy hdistinct
  rw [reports_collect hscan horderDistinct]
  exact (Text.sortBy_eq_of_perm hreports hnodup).trans (Text.sortBy_eq_self hascending)

/-- So are the complete scans. -/
theorem ordered_collect (scan : RepositoryModule → Outcome) {modules order : List RepositoryModule}
    (hdistinct : (modules.map (·.identity)).Nodup) (horder : order.Perm modules) :
    (collect scan order).ordered =
      (Text.sortBy (·.identity) modules).filterMap fun m => (scan m).2.toOption := by
  have hperm := Text.perm_sortBy (fun m : RepositoryModule => m.identity) modules
  have hkeys := sublist_keys_completed? scan
  have hscans := (horder.trans hperm.symm).filterMap fun m => completed? m (scan m)
  have horderDistinct := (horder.map (·.identity)).nodup_iff.2 hdistinct
  rw [ordered, scans_collect horderDistinct]
  show (Text.sortBy Prod.fst _).map Prod.snd = _
  rw [Text.sortBy_eq_of_perm hscans (horderDistinct.sublist (hkeys order)),
    Text.sortBy_eq_self ((Text.pairwise_lt_sortBy hdistinct).sublist (hkeys _)), List.map_filterMap]
  refine List.filterMap_congr fun m _ => ?_
  rw [completed?]
  cases (scan m).2.toOption <;> rfl

/-- What is collected from the scans of modules, whatever came of each. -/
structure Collected (s : Settings) (t : Tree) (scan : RepositoryModule → Outcome)
    (modules : List RepositoryModule) (x : Scan) : Prop where
  /-- There is one report for each module. -/
  names : x.reports.ordered.names = (Text.sortBy (·.identity) modules).map (·.identity)
  ascending : x.reports.ordered.names.Pairwise fun a b => a.lt b = true
  /-- The report on a module whose scan was completed is the one that comes of scanning it alone. -/
  completed : ∀ m ∈ modules, ∀ y, (scan m).2 = .ok y →
    (ofModules s t [m]).reports = [y.report] ∧ x.reports.get? m.identity = some y.report
  /-- The report on any other module holds one finding, against the root of the module. -/
  failed : ∀ m ∈ modules, ∀ failure, (scan m).2 = .error failure →
    ∃ r, x.reports.get? m.identity = some r ∧ r.files = [] ∧
      r.findings = [⟨.unreadableFile, m.root, 1, "Module scan failed: " ++ failure.message⟩]
  /-- The scans that were completed come in the order of the identities of their modules. -/
  scans : x.ordered = (Text.sortBy (·.identity) modules).filterMap fun m => (scan m).2.toOption
  ascendingScans : (x.ordered.map (·.module.identity)).Pairwise fun a b => a.lt b = true

/-- **The order in which scans are completed is not seen, and no scan sees what becomes of
others.** -/
theorem collected_interrupted (s : Settings) (t : Tree)
    (broken : RepositoryModule → Option (Log × Failure)) {modules order : List RepositoryModule}
    (hdistinct : (modules.map (·.identity)).Nodup) (horder : order.Perm modules) :
    Collected s t (interrupted s t broken) modules (collect (interrupted s t broken) order) ∧
    ∀ other : List RepositoryModule, other.Perm modules →
      (collect (interrupted s t broken) order).reports.Alike
        (collect (interrupted s t broken) other).reports ∧
      (collect (interrupted s t broken) order).ordered =
        (collect (interrupted s t broken) other).ordered := by
  have hscan : ReportsByIdentity (interrupted s t broken) := reportsByIdentity_interrupted
  have horderDistinct := (horder.map (·.identity)).nodup_iff.2 hdistinct
  have hreports := reports_collect hscan horderDistinct
  have hnames : (collect (interrupted s t broken) order).reports.names =
    order.map (·.identity) := by
    rw [hreports, hscan.names_map]
  have hget : ∀ m ∈ modules, (collect (interrupted s t broken) order).reports.get? m.identity =
      some (reportOn m (interrupted s t broken m)) := fun m hm =>
    get?_collect hscan horderDistinct (horder.mem_iff.2 hm)
  have hlisted : (collect (interrupted s t broken) order).reports.ordered.names =
      (Text.sortBy (·.identity) modules).map (·.identity) := by
    rw [ordered_reports_collect hscan hdistinct horder, hscan.names_map]
  have hordered := ordered_collect (interrupted s t broken) hdistinct horder
  refine ⟨⟨hlisted, ?_, fun m hm y hy => ⟨?_, ?_⟩, fun m hm failure hfailure => ?_, hordered, ?_⟩,
    fun other hother => ⟨?_, ?_⟩⟩
  · rw [hlisted]
    exact Text.pairwise_lt_sortBy hdistinct
  · -- alone it is scanned without interruption
    have halone : (ModuleScan.ofModule s t m).2 = .ok y := of_interrupted_eq_ok hy
    show (collect (ModuleScan.ofModule s t) [m]).reports = _
    rw [collect, List.foldl_cons, List.foldl_nil, reports_add, reportOn, halone]
    rfl
  · rw [hget m hm, reportOn, hy]
  · refine ⟨failedReport m failure, ?_, rfl, rfl⟩
    rw [hget m hm, reportOn, hfailure]
  · have hidentities : (collect (interrupted s t broken) order).ordered.map (·.module.identity) =
        ((Text.sortBy (·.identity) modules).filterMap fun m =>
          completed? m (interrupted s t broken m)).map Prod.fst := by
      rw [hordered, List.map_filterMap, List.map_filterMap]
      refine List.filterMap_congr fun m _ => ?_
      rw [completed?]
      cases hm : (interrupted s t broken m).2 with
      | error failure => rfl
      | ok y => exact congrArg some (ModuleScan.name_ofModule (of_interrupted_eq_ok hm)).1
    rw [hidentities]
    exact (Text.pairwise_lt_sortBy hdistinct).sublist (sublist_keys_completed? _ _)
  · refine Reports.Alike.of_perm ?_ (hnames ▸ horderDistinct)
    rw [hreports, reports_collect hscan ((hother.map (·.identity)).nodup_iff.2 hdistinct)]
    exact (horder.trans hother.symm).map _
  · rw [hordered, ordered_collect _ hdistinct hother]

/-- A tree with a catalog. -/
def catalogTree : Tree :=
  { entries :=
      [([Text.ofString "a"], .directory),
        ([Text.ofString "a", Text.ofString "Bundle.properties"], .ofText "k=x\n")] }

/-- Modules of which the second one has two primary catalogs. -/
def sampleModules : List RepositoryModule :=
  [{ identity := "a", root := "/a", sourceRoot := "/a"
     files := [⟨[], "/a/Bundle.properties", .primaryCatalog⟩] },
    { identity := "b", root := "/b", sourceRoot := "/b"
      files := [⟨[], "/b/x", .primaryCatalog⟩, ⟨[], "/b/y", .primaryCatalog⟩] },
    { identity := "c", root := "/c", sourceRoot := "/c" }]

/-- The last scan is broken off, and completed first; the second one fails. -/
theorem collected_interrupted_sample :
    let broken : RepositoryModule → Option (Log × Failure) := fun m =>
      if m.identity = Text.ofString "c" then some ([], .linkCircle) else none
    let scan := interrupted .standard catalogTree broken
    Collected .standard catalogTree scan sampleModules (collect scan sampleModules.reverse) ∧
      (collect scan sampleModules.reverse).ordered =
        (collect scan (sampleModules.rotateLeft 1)).ordered ∧
      (collect scan sampleModules.reverse).reports.ordered.map (·.findings) =
        [[⟨.possiblyUnusedEntry, "/a/Bundle.properties", 1, "k"⟩],
          [⟨.unreadableFile, "/b", 1,
            "Module scan failed: More than one primary catalog in package: /b"⟩],
          [⟨.unreadableFile, "/c", 1, "Module scan failed: Symlink loop"⟩]] := by
  intro broken scan
  have hdistinct : (sampleModules.map (·.identity)).Nodup := by decide
  have hreverse := List.reverse_perm sampleModules
  have h := collected_interrupted .standard catalogTree broken hdistinct hreverse
  refine ⟨h.1, (h.2 (sampleModules.rotateLeft 1) (by decide)).2, ?_⟩
  have hsorted : Text.sortBy (·.identity) sampleModules = sampleModules :=
    Text.sortBy_eq_self (by decide)
  rw [ordered_reports_collect reportsByIdentity_interrupted hdistinct hreverse, hsorted]
  decide +kernel

end Scan

end BundleAudit
