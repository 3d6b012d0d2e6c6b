import BundleAudit.Module.Scan
import BundleAudit.Proofs.Package.Reading

/-!
# BundleAudit.Proofs.Module.Start

**The packages of a module.** The files of a module are sorted into packages by their
directories (`Grouped`); so each package of a scan is made of files, and their names
ascend.
-/

namespace BundleAudit

namespace Package

/-- A package keeps its name when a file is added. -/
theorem name_add {p q : Package} {kind : FileKind} {path : Text} (h : p.add kind path = .ok q) :
    q.name = p.name := by
  rcases add_cases h with ⟨-, -, rfl⟩ | ⟨-, rfl⟩ | ⟨-, rfl⟩ | ⟨-, rfl⟩ <;> rfl

end Package

namespace ModuleScan

/-- Packages under their names, each made of files. -/
structure Grouped (ps : KeyedList Text Package) : Prop where
  nodup_keys : ps.keys.Nodup
  name_eq : ∀ x ∈ ps, x.2.name = x.1
  ofFiles : ∀ x ∈ ps, x.2.OfFiles

theorem Grouped.nil : Grouped [] := ⟨List.nodup_nil, by simp, by simp⟩

/-- One more file keeps packages grouped. -/
theorem Grouped.set {ps : KeyedList Text Package} (hps : Grouped ps) {name directory path : Text}
    {kind : FileKind} {p : Package}
    (h : ((ps.get? name).getD { name, directory }).add kind path = .ok p) :
    Grouped (KeyedList.set name p ps) := by
  -- the file goes to the package of that name, or to a new one
  have hold : ((ps.get? name).getD { name, directory }).name = name ∧
      ((ps.get? name).getD { name, directory }).OfFiles := by
    cases hget : ps.get? name with
    | none => exact ⟨rfl, .start name directory⟩
    | some q =>
        have hmem := KeyedList.mem_of_get?_eq_some hget
        exact ⟨hps.name_eq _ hmem, hps.ofFiles _ hmem⟩
  refine ⟨KeyedList.nodup_keys_set hps.nodup_keys, fun x hx => ?_, fun x hx => ?_⟩
  · rcases KeyedList.mem_of_mem_set hx with rfl | hx
    · exact (Package.name_add h).trans hold.1
    · exact hps.name_eq x hx
  · rcases KeyedList.mem_of_mem_set hx with rfl | hx
    · exact .add kind path hold.2 h
    · exact hps.ofFiles x hx

theorem Grouped.packagesOf {m : RepositoryModule} {files : List ModuleFile}
    {ps qs : KeyedList Text Package} (hps : Grouped ps) (h : packagesOf m files ps = .ok qs) :
    Grouped qs := by
  induction files generalizing ps with
  | nil => exact Except.ok.inj h ▸ hps
  | cons f rest ih =>
      simp only [ModuleScan.packagesOf] at h
      split at h
      · next hadd => exact ih (hps.set hadd) h
      · cases h

/-! ### The start of a scan -/

theorem exists_of_start_eq_ok {m : RepositoryModule} {x : ModuleScan} (h : start m = .ok x) :
    ∃ ps, packagesOf m m.files [] = .ok ps ∧
      x = { module := m
            packages := (Text.sortBy Prod.fst ps).map Prod.snd
            report := { name := m.identity } } := by
  rw [start] at h
  cases hpackages : packagesOf m m.files [] with
  | error failure => simp [hpackages, Except.map] at h
  | ok ps =>
      simp only [hpackages, Except.map, Except.ok.injEq] at h
      exact ⟨ps, rfl, h.symm⟩

/-- A scan starts with packages that are made of files, in ascending order of their names. -/
theorem of_start_eq_ok {m : RepositoryModule} {x : ModuleScan} (h : start m = .ok x) :
    x.module = m ∧ x.report = { name := m.identity } ∧
      ((x.packages.map (·.name)).Pairwise fun a b => a.lt b = true) ∧
      ∀ p ∈ x.packages, p.OfFiles := by
  obtain ⟨ps, hpackages, rfl⟩ := exists_of_start_eq_ok h
  have hgrouped := Grouped.nil.packagesOf hpackages
  have hperm := Text.perm_sortBy Prod.fst ps
  have hnames : ((Text.sortBy Prod.fst ps).map Prod.snd).map (·.name) =
      (Text.sortBy Prod.fst ps).map Prod.fst := by
    rw [List.map_map]
    exact List.map_congr_left fun x hx => hgrouped.name_eq x (hperm.mem_iff.1 hx)
  refine ⟨rfl, rfl, ?_, fun p hp => ?_⟩
  · exact hnames ▸ Text.pairwise_lt_sortBy hgrouped.nodup_keys
  · obtain ⟨x, hx, rfl⟩ := List.mem_map.1 hp
    exact hgrouped.ofFiles x (hperm.mem_iff.1 hx)

end ModuleScan

end BundleAudit
