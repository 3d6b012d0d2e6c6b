import BundleAudit.Proofs.Files.Sound
import BundleAudit.Proofs.Module.Outcome

/-!
# BundleAudit.Proofs.Module.Collection

**The files of a module in a directory tree.** They stand at names of entries, and no
two of them at the same names (`pairwise_name_ne_collectFiles`); so each directory has at
most one primary catalog, and the sorting of the files into packages does not fail
(`hasOnePrimary_collectFiles`).
-/

namespace BundleAudit.ModuleScan

open RepositoryModule

variable {s : Settings} {t : Tree} {m m' : RepositoryModule} {y : ModuleScan} {log : Log}

/-- Collecting gives a module its files, and changes nothing else. -/
theorem collectFiles_eq_ok (h : m.collectFiles s t = .ok (m', log)) :
    ∃ files, m' = { m with files } := by
  obtain ⟨⟨files, _⟩, -, h⟩ := Failure.bind_eq_ok_iff.1 h
  exact ⟨files, (congrArg Prod.fst (Except.ok.inj h)).symm⟩

/-- The files of a module that has none yet are collected for its scan. -/
theorem of_ofModule_eq_ok (hfiles : m.files = []) (h : (ofModule s t m).2 = .ok y) :
    ∃ m' log, m.collectFiles s t = .ok (m', log) ∧ (ofFiles s t m').2 = .ok y := by
  rw [ofModule, hfiles, List.isEmpty_nil, if_pos rfl] at h
  split at h
  · cases h
  · next hcollect => exact ⟨_, _, hcollect, h⟩

theorem ofModule_of_collectFiles (hfiles : m.files = []) (h : m.collectFiles s t = .ok (m', log)) :
    (ofModule s t m).2 = (ofFiles s t m').2 := by
  rw [ofModule, hfiles, List.isEmpty_nil, if_pos rfl, h]

/-- The files that are collected in a directory tree stand at names of entries. -/
theorem exists_standsAt (ht : t.IsSound) (h : m.collectFiles s t = .ok (m', log)) {f : ModuleFile}
    (hf : f ∈ m'.files) :
    ∃ around name, StandsAt s (Path.ofText m'.sourceRoot) f around name ∧
      ∀ n ∈ around ++ [name], Tree.IsEntryName n := by
  obtain ⟨around, name, hstands, l, hmem⟩ := standsAt_of_collectFiles ht.isNamed h hf
  exact ⟨around, name, hstands, ht.names_of_mem_filesWithin hmem⟩

theorem ofName?_eq_primaryCatalog_iff {name : Text} :
    FileKind.ofName? s name = some .primaryCatalog ↔ name = s.primaryCatalogName := by
  unfold FileKind.ofName?
  split
  · next h => simp [h]
  · next h =>
      refine ⟨fun heq => ?_, fun heq => absurd heq h⟩
      split at heq
      · split at heq
        · cases heq
        · split at heq <;> cases heq
      · split at heq <;> cases heq

/-- No two files of a package have one name, since they would stand at one place. -/
theorem pairwise_name_ne_collectFiles (ht : t.IsSound) (h : m.collectFiles s t = .ok (m', log)) :
    m'.files.Pairwise fun f g => f.package = g.package → f.name ≠ g.name := by
  rcases of_collectFiles_eq_ok h with hnone | ⟨l, hfiles⟩
  · rw [hnone]
    exact .nil
  · rw [hfiles]
    have hroot := Path.isNormal_ofText m'.sourceRoot
    refine List.pairwise_filterMap.2 ((ht.nodup_filesWithin l).imp_of_mem ?_)
    intro a b ha hb hne f hf g hg hpackage hname
    refine hne ?_
    obtain ⟨hane, haproper⟩ := Tree.names_of_mem_filesWithin ht.isNamed ha
    obtain ⟨hbne, hbproper⟩ := Tree.names_of_mem_filesWithin ht.isNamed hb
    obtain ⟨around, name, rfl⟩ := (List.eq_nil_or_concat' a).resolve_left hane
    obtain ⟨around', name', rfl⟩ := (List.eq_nil_or_concat' b).resolve_left hbne
    have hstands := standsAt_of_file?_eq_some haproper hf
    have hstands' := standsAt_of_file?_eq_some hbproper hg
    rw [hstands.around_eq hstands' hpackage, ← hstands.name_eq hroot, hname, hstands'.name_eq hroot]

/-- So no package has two primary catalogs. -/
theorem hasOnePrimary_collectFiles (ht : t.IsSound) (h : m.collectFiles s t = .ok (m', log)) :
    HasOnePrimary m'.files := by
  have hname : ∀ f ∈ m'.files, f.kind = .primaryCatalog → f.name = s.primaryCatalogName := by
    intro f hf hkind
    obtain ⟨around, name, hstands, -⟩ := exists_standsAt ht h hf
    rw [hstands.name_eq (Path.isNormal_ofText m'.sourceRoot)]
    exact ofName?_eq_primaryCatalog_iff.1 (hstands.kind.trans (congrArg some hkind))
  refine (pairwise_name_ne_collectFiles ht h).imp_of_mem fun hf hg hne hkind hkind' hpackage => ?_
  exact hne hpackage ((hname _ hf hkind).trans (hname _ hg hkind').symm)

/-- **When the scan of a module is completed:** if its files can be collected, and neither its
layer nor a source ends the scan. -/
theorem exists_ofModule_iff (ht : t.IsSound) (hfiles : m.files = []) :
    (∃ y, (ofModule s t m).2 = .ok y) ↔
      ∃ m' log, m.collectFiles s t = .ok (m', log) ∧ LayerSettled t m ∧
        ∀ f ∈ m'.files, FormsSettled s t (packageOf m' f.package (filesOf f.package m'.files)) := by
  have hscan : ∀ {m' : RepositoryModule} {log : Log}, m.collectFiles s t = .ok (m', log) →
      ((∃ y, (ofFiles s t m').2 = .ok y) ↔ LayerSettled t m ∧
        ∀ f ∈ m'.files,
          FormsSettled s t (packageOf m' f.package (filesOf f.package m'.files))) := by
    intro m' log hcollect
    obtain ⟨x, hstart⟩ := exists_start (hasOnePrimary_collectFiles ht hcollect)
    obtain ⟨files, rfl⟩ := collectFiles_eq_ok hcollect
    rw [exists_ofFiles_iff hstart]
    refine and_congr Iff.rfl ⟨fun h f hf => ?_, fun h p hp => ?_⟩
    · exact h _ ((mem_packages_iff hstart).2 ⟨f, hf, rfl⟩)
    · obtain ⟨f, hf, rfl⟩ := (mem_packages_iff hstart).1 hp
      exact h f hf
  constructor
  · rintro ⟨y, hy⟩
    obtain ⟨m', log, hcollect, hy⟩ := of_ofModule_eq_ok hfiles hy
    exact ⟨m', log, hcollect, (hscan hcollect).1 ⟨y, hy⟩⟩
  · rintro ⟨m', log, hcollect, h⟩
    obtain ⟨y, hy⟩ := (hscan hcollect).2 h
    exact ⟨y, (ofModule_of_collectFiles hfiles hcollect).trans hy⟩

end BundleAudit.ModuleScan
