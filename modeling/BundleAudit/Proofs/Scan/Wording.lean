import BundleAudit.Proofs.Module.Wording
import BundleAudit.Proofs.Report.Agreement
import BundleAudit.Proofs.Scan.Completion

/-!
# BundleAudit.Proofs.Scan.Wording

**The reports on modules that are found in a directory tree hold no surrogates**
(`isScalar_reportOn`), so they can be written. A module is found where the file system
was asked for a file, and the names of entries hold none; so the paths of a module and of
its files hold none.
-/

namespace BundleAudit

variable {s : Settings} {t : Tree} {m m' : RepositoryModule} {failure : Failure} {log : Log}

theorem Tree.all_isScalar_of_notAPath? {path : Text} (h : Tree.notAPath? path = none) :
    path.all Code.isScalar = true := (Tree.notAPath?_eq_none_iff.1 h).1

/-! ### Modules -/

namespace RepositoryModule

variable {root directory : Path}

/-- The directory of a module that was found is a path without surrogates. -/
theorem IsOf.isScalar_directory (h : IsOf t root directory m) : directory.IsScalar := by
  obtain ⟨name, hname⟩ := h.isPath
  rw [Path.child, Path.toText_concat, Tree.notAPath?_append, Tree.notAPath?_append,
    Tree.notAPath?_flatMap] at hname
  obtain ⟨⟨hroot, hnames⟩, -⟩ := hname
  exact ⟨Tree.all_isScalar_of_notAPath? hroot,
    fun n hn => Tree.all_isScalar_of_notAPath? (hnames n hn)⟩

theorem root_of_ofDirectory (h : ofDirectory t root directory = .ok (some m)) :
    m.root = directory.toText := by
  obtain ⟨isPlatform, -, h⟩ := Failure.bind_eq_ok_iff.1 h
  cases isPlatform with
  | true =>
      obtain ⟨identity, -, h⟩ := Failure.bind_eq_ok_iff.1 h
      obtain rfl := Option.some.inj (Except.ok.inj h)
      rfl
  | false =>
      obtain ⟨isProject, -, h⟩ := Failure.bind_eq_ok_iff.1 h
      cases isProject with
      | true =>
          obtain ⟨identity, -, h⟩ := Failure.bind_eq_ok_iff.1 h
          obtain rfl := Option.some.inj (Except.ok.inj h)
          rfl
      | false => cases h

/-- The paths of a module that was found hold no surrogates. -/
theorem IsFound.isScalar (h : IsFound t root m) : m.IsScalar := by
  obtain ⟨directory, hm⟩ := h
  have hof := isOf_of_ofDirectory hm
  have hdirectory := hof.isScalar_directory
  refine ⟨Tree.all_isScalar_of_notAPath? (notAPath?_identityOf hof.identity),
    root_of_ofDirectory hm ▸ hdirectory.all_toText,
    Tree.all_isScalar_of_notAPath? hof.isPath_sourceRoot, fun path hpath => ?_, hof.files ▸ nofun⟩
  have hchild : (directory.child manifestName).IsScalar :=
    ⟨hdirectory.root, List.forall_mem_append.2
      ⟨hdirectory.names, List.forall_mem_singleton.2 (by decide)⟩⟩
  rw [hof.manifest path hpath]
  exact hchild.all_toText

theorem IsFound.files_eq_nil (h : IsFound t root m) : m.files = [] :=
  let ⟨_, hm⟩ := h
  (isOf_of_ofDirectory hm).files

/-! ### Files -/

theorem all_isScalar_pathBelow {sourceRoot : Path} (hroot : sourceRoot.IsScalar) {names : List Text}
    (hnames : ∀ n ∈ names, Tree.IsEntryName n) :
    (pathBelow sourceRoot names).all Code.isScalar = true := by
  have hbelow : Path.IsScalar ⟨[], names⟩ :=
    ⟨rfl, fun n hn => Tree.all_isScalar_of_notAPath? (hnames n hn).isPath⟩
  exact (hroot.join hbelow).all_toText

theorem isScalar_of_closed? {sourceRoot : Path} (hroot : sourceRoot.IsScalar) {names : List Text}
    (hnames : ∀ n ∈ names, Tree.IsEntryName n) {depth : Nat} {e : Entry}
    (h : closed? depth sourceRoot names e = some failure) : failure.IsScalar := by
  cases e with
  | file bytes => cases h
  | link target => cases h
  | directory =>
      rw [closed?] at h
      split at h
      · obtain rfl := Option.some.inj h
        exact List.forall_mem_nil _
      · split at h
        · obtain rfl := Option.some.inj h
          exact List.forall_mem_singleton.2 (all_isScalar_pathBelow hroot hnames)
        · cases h

theorem isScalar_of_filesBelow {sourceRoot : Path} (ht : t.IsSound) (hroot : sourceRoot.IsScalar)
    (h : filesBelow s t sourceRoot = .error failure) : failure.IsScalar := by
  rcases Failure.bind_eq_error_iff.1 h with h | ⟨isDirectory, -, h⟩
  · exact Tree.isScalar_of_isDirectory h
  · split at h
    · split at h
      · next l _ =>
          dsimp only at h
          split at h
          · next failure hclosed =>
              obtain rfl := Except.error.inj h
              obtain ⟨⟨names, e⟩, hmem, hclosed⟩ := List.exists_of_findSome?_eq_some hclosed
              obtain ⟨hne, hmem⟩ := Tree.mem_entriesWithin_iff.1 hmem
              have hentry := (ht.mem_entries_iff.1 hmem).2
              refine isScalar_of_closed? hroot (fun n hn => ?_) hclosed
              exact ht.isEntryName hentry n (List.mem_append_right l hn)
          · cases h
      · cases h
    · cases h

theorem isScalar_of_collectFiles (ht : t.IsSound) (hm : m.IsScalar)
    (h : m.collectFiles s t = .error failure) : failure.IsScalar := by
  rcases Failure.bind_eq_error_iff.1 h with h | ⟨below, -, h⟩
  · exact isScalar_of_filesBelow ht (Path.isScalar_ofText hm.sourceRoot) h
  · cases h

/-- The files that are collected for a module stand at paths without surrogates. -/
theorem IsScalar.collectFiles (hm : m.IsScalar) (ht : t.IsSound)
    (h : m.collectFiles s t = .ok (m', log)) : m'.IsScalar := by
  obtain ⟨files, rfl⟩ := ModuleScan.collectFiles_eq_ok h
  refine { hm with files := fun f hf => ?_ }
  obtain ⟨around, name, hstands, hentry⟩ := ModuleScan.exists_standsAt ht h hf
  have hpath : f.path = pathBelow (Path.ofText m.sourceRoot) (around ++ [name]) := by
    rw [hstands.path, pathBelow, Path.join_relative, List.append_assoc]
  rw [hpath]
  exact all_isScalar_pathBelow (Path.isScalar_ofText hm.sourceRoot) hentry

end RepositoryModule

/-! ### Reports -/

theorem Report.isScalar_iff {r : Report} :
    r.isScalar = true ↔ r.name.all Code.isScalar = true ∧ ∀ f ∈ r.findings, f.IsScalar := by
  rw [isScalar, Bool.and_eq_true]
  refine and_congr_right' (List.all_eq_true.trans (forall₂_congr fun f _ => ?_))
  rw [Bool.and_eq_true]
  exact ⟨fun ⟨hfile, hmessage⟩ => ⟨hfile, hmessage⟩, fun ⟨hfile, hmessage⟩ => ⟨hfile, hmessage⟩⟩

namespace ModuleScan

/-- **A scan finds nothing with surrogates,** also if it collects the files of the module first. -/
theorem gives_ofModule (hs : s.IsScalar) (ht : t.IsSound) (hm : m.IsScalar)
    (hfiles : m.files = []) :
    Failure.Gives (fun y => ∀ f ∈ y.report.findings, f.IsScalar) (ofModule s t m).2 := by
  cases hcollect : m.collectFiles s t with
  | error failure =>
      rw [ofModule_snd, withFiles, hfiles, hcollect]
      exact Failure.gives_error (RepositoryModule.isScalar_of_collectFiles ht hm hcollect)
  | ok collected =>
      obtain ⟨m', log⟩ := collected
      obtain ⟨x, hstart⟩ := exists_start (hasOnePrimary_collectFiles ht hcollect)
      rw [ofModule_of_collectFiles hfiles hcollect]
      exact gives_ofFiles hs (hm.collectFiles ht hcollect) hstart

end ModuleScan

namespace Scan

/-- **The report on a module whose paths hold no surrogates holds none.** -/
theorem isScalar_reportOn (hs : s.IsScalar) (ht : t.IsSound) (hm : m.IsScalar)
    (hfiles : m.files = []) : (reportOn m (ModuleScan.ofModule s t m)).isScalar = true := by
  have hgives := ModuleScan.gives_ofModule hs ht hm hfiles
  rw [Report.isScalar_iff, reportOn]
  cases hscan : (ModuleScan.ofModule s t m).2 with
  | ok y => exact ⟨(ModuleScan.name_ofModule hscan).2 ▸ hm.identity, hgives.value y hscan⟩
  | error failure =>
      refine ⟨hm.identity, List.forall_mem_singleton.2 ⟨hm.root, ?_⟩⟩
      rw [List.all_append, Text.all_isScalar_ofString,
        Failure.all_isScalar_message (hgives.failure failure hscan)]
      rfl

end Scan

end BundleAudit
