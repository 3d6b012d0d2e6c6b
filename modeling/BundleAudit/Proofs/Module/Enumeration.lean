import BundleAudit.Proofs.Module.Placement

/-!
# BundleAudit.Proofs.Module.Enumeration

**No file is lost between the directory tree and a scan, unless its path is too long.**
The files of a module are just those below its source root that have a kind, each once
(`Enumerates`). A path that is too long cannot be looked at; it is left out with a
warning. A directory at such a path ends the collecting, and so does one that is nested
too deep, since each level is gone through by a call (`IsEnumerable`). What is collected
is sorted into packages without a failure, and each package holds all files of
one directory and no others (`SortsInto`).
-/

namespace BundleAudit

namespace RepositoryModule

variable {s : Settings} {t : Tree} {m m' : RepositoryModule} {l : Location} {f g : ModuleFile}
  {log : Log} {names : List Text}

/-! ### What is collected -/

/-- Names lead from the source root of a module to a file, and no link is followed below it. -/
def IsBelow (t : Tree) (m : RepositoryModule) (names : List Text) : Prop :=
  ∃ l, IsRootedAt t m l ∧ t.HasFileAt (l ++ names)

/-- It can be told whether the source root of a module is a directory, and it is possible to look
into all directories below it. -/
structure IsEnumerable (t : Tree) (m : RepositoryModule) : Prop where
  isDirectory : ∃ isDirectory, t.isDirectory (Path.ofText m.sourceRoot).toText = .ok isDirectory
  isOpen : ∀ l, IsRootedAt t m l → IsOpen t m l

/-- Files are those below the source root of a module. -/
structure Enumerates (s : Settings) (t : Tree) (m : RepositoryModule) (files : List ModuleFile)
    (log : Log) : Prop where
  /-- They have a kind and a path that is not too long, and belong to the package of their
  directory. -/
  mem_iff : ∀ f, f ∈ files ↔ ∃ around name, IsBelow t m (around ++ [name]) ∧
    FileKind.ofName? s name = some f.kind ∧
    f.path = pathBelow (Path.ofText m.sourceRoot) (around ++ [name]) ∧
    Tree.byteLength f.path ≤ Tree.pathLimit ∧
    f.package = List.intercalate [Code.slash] around
  /-- None is listed twice. -/
  nodup : (files.map (·.path)).Nodup
  /-- There is a warning about each path that is too long. -/
  skipped : ∀ names, IsBelow t m names →
    Tree.pathLimit < Tree.byteLength (pathBelow (Path.ofText m.sourceRoot) names) →
      skipped (pathBelow (Path.ofText m.sourceRoot) names)
        (.system .nameTooLong (pathBelow (Path.ofText m.sourceRoot) names) none) ∈ log

theorem IsBelow.ne_nil (h : IsBelow t m names) : names ≠ [] := by
  rintro rfl
  obtain ⟨l, hl, bytes, hentry⟩ := h
  rw [List.append_nil, hl.directory] at hentry
  cases hentry

theorem IsBelow.isEntryName (h : IsBelow t m names) (ht : t.IsSound) :
    ∀ name ∈ names, Tree.IsEntryName name := by
  obtain ⟨l, -, bytes, hentry⟩ := h
  exact fun name hname => ht.isEntryName hentry name (List.mem_append_right l hname)

/-- A path of names below a source root that is too long is one that cannot be looked at. -/
theorem IsBelow.lookAt_eq (h : IsBelow t m names) (ht : t.IsSound)
    (hlong : Tree.pathLimit < Tree.byteLength (pathBelow (Path.ofText m.sourceRoot) names)) :
    t.lookAt (pathBelow (Path.ofText m.sourceRoot) names) =
      .error (.system .nameTooLong (pathBelow (Path.ofText m.sourceRoot) names) none) := by
  have hroot := Path.isNormal_ofText m.sourceRoot
  have hnames := h.isEntryName ht
  obtain ⟨l, hl, -⟩ := h
  have hpath : Tree.notAPath? (pathBelow (Path.ofText m.sourceRoot) names) = none := by
    rw [pathBelow, Tree.notAPath?_toText (Path.isNormal_join hroot fun n hn =>
      (hnames n hn).isName)]
    intro n hn
    rcases List.mem_append.1 hn with hn | hn
    · exact (Tree.notAPath?_toText hroot).1 hl.isPath n hn
    · exact (hnames n hn).isPath
  exact Tree.lookAt_of_overlong hpath hlong

/-- The path of a file tells where it stands. -/
theorem names_eq_of_pathBelow_eq {names names' : List Text} {sourceRoot : Path}
    (hroot : sourceRoot.IsNormal) (hnames : ∀ n ∈ names, Path.IsName n)
    (hnames' : ∀ n ∈ names', Path.IsName n)
    (h : pathBelow sourceRoot names = pathBelow sourceRoot names') :
    names = names' := by
  have hpaths := congrArg Path.ofText h
  rw [pathBelow, pathBelow, Path.ofText_toText (Path.isNormal_join hroot hnames),
    Path.ofText_toText (Path.isNormal_join hroot hnames')] at hpaths
  exact List.append_cancel_left (congrArg Path.names hpaths)

theorem standsAt_iff (ht : t.IsSound) {around : List Text} {name : Text} :
    StandsAt s (Path.ofText m.sourceRoot) f around name ∧ IsBelow t m (around ++ [name]) ↔
      IsBelow t m (around ++ [name]) ∧ FileKind.ofName? s name = some f.kind ∧
        f.path = pathBelow (Path.ofText m.sourceRoot) (around ++ [name]) ∧
        Tree.byteLength f.path ≤ Tree.pathLimit ∧
        f.package = List.intercalate [Code.slash] around := by
  rw [pathBelow_concat]
  constructor
  · rintro ⟨hstands, hbelow⟩
    exact ⟨hbelow, hstands.kind, hstands.path, hstands.limit, hstands.package⟩
  · rintro ⟨hbelow, hkind, hpath, hlimit, hpackage⟩
    exact ⟨⟨fun n hn => (hbelow.isEntryName ht n hn).isName, hpackage, hpath,
      hkind, hlimit⟩, hbelow⟩

/-- A module whose source root is no directory has no files. -/
theorem not_isRootedAt (h : t.isDirectory (Path.ofText m.sourceRoot).toText = .ok false) :
    ¬IsRootedAt t m l := fun hl => by
  cases h.symm.trans hl.isDirectory

/-- Collecting does not fail if it is possible to look into all directories, and only then. -/
theorem exists_collectFiles_iff (ht : t.IsSound) :
    (∃ r, m.collectFiles s t = .ok r) ↔ IsEnumerable t m := by
  cases hdirectory : t.isDirectory (Path.ofText m.sourceRoot).toText with
  | error failure =>
      refine iff_of_false ?_ fun h => ?_
      · rintro ⟨r, hr⟩
        rw [collectFiles, filesBelow, hdirectory] at hr
        cases hr
      · obtain ⟨isDirectory, heq⟩ := h.isDirectory
        cases hdirectory.symm.trans heq
  | ok isDirectory =>
      cases isDirectory with
      | false =>
          obtain ⟨log, hnone⟩ := exists_collectFiles_of_isDirectory_eq_false (s := s) hdirectory
          exact iff_of_true ⟨_, hnone⟩
            ⟨⟨false, hdirectory⟩, fun l hl => absurd hl (not_isRootedAt hdirectory)⟩
      | true =>
          obtain ⟨l, hl⟩ := exists_isRootedAt hdirectory
          constructor
          · rintro ⟨⟨m', log⟩, hr⟩
            refine ⟨⟨true, hdirectory⟩, fun l' hl' => ?_⟩
            exact (hl'.of_collectFiles ht hr).1
          · intro h
            obtain ⟨log, hfiles⟩ := hl.exists_collectFiles (s := s) ht (h.isOpen l hl)
            exact ⟨_, hfiles⟩

/-- The files that are collected are those that stand below the source root. -/
theorem mem_collectFiles_iff (ht : t.IsSound) (h : m.collectFiles s t = .ok (m', log)) :
    f ∈ m'.files ↔ ∃ around name, StandsAt s (Path.ofText m.sourceRoot) f around name ∧
      IsBelow t m (around ++ [name]) := by
  constructor
  · intro hf
    obtain ⟨l, hl, -, rfl⟩ := exists_isRootedAt_of_mem ht h hf
    obtain ⟨around, name, hstands, hfile⟩ := (mem_filesAt_iff ht).1 hf
    exact ⟨around, name, hstands, l, hl, by rwa [← List.append_assoc]⟩
  · rintro ⟨around, name, hstands, l, hl, hfile⟩
    obtain ⟨-, rfl⟩ := hl.of_collectFiles ht h
    exact (mem_filesAt_iff ht).2 ⟨around, name, hstands, by rwa [List.append_assoc]⟩

/-- Paths that cannot be looked at are named in warnings. -/
theorem skipped_mem_of_collectFiles (ht : t.IsSound) (h : m.collectFiles s t = .ok (m', log))
    (hbelow : IsBelow t m names)
    (hlong : Tree.pathLimit < Tree.byteLength (pathBelow (Path.ofText m.sourceRoot) names)) :
    skipped (pathBelow (Path.ofText m.sourceRoot) names)
      (.system .nameTooLong (pathBelow (Path.ofText m.sourceRoot) names) none) ∈ log := by
  have hlook := hbelow.lookAt_eq ht hlong
  have hne := hbelow.ne_nil
  obtain ⟨l, hl, bytes, hentry⟩ := hbelow
  obtain ⟨hopen, -⟩ := hl.of_collectFiles ht h
  rw [collectFiles, filesBelow_eq hl.isDirectory hl.place
    ((closedBelow?_eq_none_iff_isOpen ht).2 hopen)] at h
  obtain ⟨-, rfl⟩ := Prod.mk.inj (Except.ok.inj h)
  have hmem : (names, Entry.file bytes) ∈ t.entriesWithin l :=
    Tree.mem_entriesWithin_iff.2
      ⟨hne, ht.mem_entries_iff.2 ⟨List.append_ne_nil_of_right_ne_nil l hne, hentry⟩⟩
  refine List.mem_append_left _ (List.mem_filterMap.2 ⟨names, List.mem_map_of_mem hmem, ?_⟩)
  rw [hlook]

theorem enumerates_of_collectFiles (ht : t.IsSound) (h : m.collectFiles s t = .ok (m', log)) :
    Enumerates s t m m'.files log := by
  refine ⟨fun f => ?_, ?_, fun names hbelow hlong => skipped_mem_of_collectFiles ht h hbelow hlong⟩
  · rw [mem_collectFiles_iff ht h]
    exact exists₂_congr fun around name => standsAt_iff ht
  · rw [List.Nodup, List.pairwise_map]
    refine (ModuleScan.pairwise_name_ne_collectFiles ht h).imp_of_mem fun hf hg hne hpath => ?_
    obtain ⟨around, name, hf, -⟩ := (mem_collectFiles_iff ht h).1 hf
    obtain ⟨around', name', hg, -⟩ := (mem_collectFiles_iff ht h).1 hg
    have hroot := Path.isNormal_ofText m.sourceRoot
    rw [hf.path, hg.path, ← pathBelow_concat, ← pathBelow_concat] at hpath
    have hnames := names_eq_of_pathBelow_eq hroot hf.isName hg.isName hpath
    obtain ⟨rfl, hname⟩ := List.append_inj' hnames rfl
    refine hne (hf.package.trans hg.package.symm) ?_
    rw [hf.name_eq hroot, hg.name_eq hroot, List.singleton_inj.1 hname]

end RepositoryModule

/-! ### What the packages hold -/

/-- Packages hold files, those of one directory each. -/
structure SortsInto (files : List ModuleFile) (packages : List Package) : Prop where
  /-- The packages of two files are the same just if their directories are. -/
  package_eq_iff : ∀ f ∈ files, ∀ g ∈ files,
    f.package = g.package ↔ (Path.ofText f.path).parent = (Path.ofText g.path).parent
  /-- There is one package for each directory with a file. -/
  nodup : (packages.map (·.name)).Nodup
  exists_iff : ∀ name, (∃ p ∈ packages, p.name = name) ↔ ∃ f ∈ files, f.package = name
  /-- It holds all files of that directory, and no others. -/
  pathsOf_eq : ∀ p ∈ packages, ∀ kind,
    p.pathsOf kind = ((filesOf p.name files).filter (·.kind = kind)).map (·.path)
  /-- Its directory is that of its files, and of no other package. -/
  directory_eq : ∀ p ∈ packages, ∀ f ∈ filesOf p.name files,
    p.directory = (Path.ofText f.path).parent.toText
  directory_inj : ∀ p ∈ packages, ∀ q ∈ packages, p.directory = q.directory → p = q

namespace ModuleScan

open RepositoryModule

variable {s : Settings} {t : Tree} {m m' : RepositoryModule} {x : ModuleScan} {p q : Package}
  {log : Log} {f g : ModuleFile} {files : List ModuleFile} {name : Text} {around : List Text}

/-- A package that some files make up holds all of them, if none takes the place of another. -/
theorem pathsOf_packageOf (hone : HasOnePrimary files) (hpackage : ∀ f ∈ files, f.package = name)
    (hnames : (files.map (·.name)).Nodup) (kind : FileKind) :
    (packageOf m name files).pathsOf kind = (files.filter (·.kind = kind)).map (·.path) := by
  cases kind with
  | primaryCatalog =>
      rw [← toList_find?_primary hone hpackage]
      simp only [Package.pathsOf, packageOf]
      cases files.find? (·.kind = .primaryCatalog) <;> rfl
  | secondaryCatalog => simp [Package.pathsOf, packageOf, ModuleFile.catalog]
  | translatedCatalog => simp [Package.pathsOf, packageOf, ModuleFile.catalog]
  | source =>
      rw [Package.pathsOf,
        sources_packageOf (hnames.sublist (List.filter_sublist.map _)), List.map_map]
      rfl

/-- The directory of a package is the one in which its files stand. -/
theorem parent_of_standsAt (hstands : StandsAt s (Path.ofText m.sourceRoot) f around name) :
    (Path.ofText f.path).parent =
      ⟨(Path.ofText m.sourceRoot).root, (Path.ofText m.sourceRoot).names ++ around⟩ := by
  rw [hstands.ofText_path (Path.isNormal_ofText m.sourceRoot), Path.parent, List.dropLast_concat]

theorem directoryOf_of_standsAt (hstands : StandsAt s (Path.ofText m.sourceRoot) f around name) :
    directoryOf m f.package = (Path.ofText f.path).parent.toText := by
  rw [parent_of_standsAt hstands, directoryOf, hstands.package,
    Path.ofText_intercalate hstands.isName_around, Path.join_relative]

/-- Two files have one package just if they stand in one directory. -/
theorem package_eq_iff_of_standsAt {around' : List Text} {name' : Text}
    (hf : StandsAt s (Path.ofText m.sourceRoot) f around name)
    (hg : StandsAt s (Path.ofText m.sourceRoot) g around' name') :
    f.package = g.package ↔ (Path.ofText f.path).parent = (Path.ofText g.path).parent := by
  rw [parent_of_standsAt hf, parent_of_standsAt hg]
  constructor
  · intro hpackage
    rw [hf.around_eq hg hpackage]
  · intro hparent
    rw [hf.package, hg.package, List.append_cancel_left (congrArg Path.names hparent)]

theorem sortsInto_of_collectFiles (ht : t.IsSound) (h : m.collectFiles s t = .ok (m', log))
    (hx : start m' = .ok x) : SortsInto m'.files x.packages := by
  obtain ⟨files, rfl⟩ := collectFiles_eq_ok h
  obtain ⟨-, -, hascending, -⟩ := of_start_eq_ok hx
  have hnodup : (x.packages.map (·.name)).Nodup := hascending.imp fun hlt => Text.ne_of_lt hlt
  have hstands : ∀ f ∈ files, ∃ around name,
      StandsAt s (Path.ofText m.sourceRoot) f around name := by
    intro f hf
    obtain ⟨around, name, hat, -⟩ := (mem_collectFiles_iff ht h).1 hf
    exact ⟨around, name, hat⟩
  have hexists : ∀ name, (∃ p ∈ x.packages, p.name = name) ↔ ∃ f ∈ files, f.package = name := by
    intro name
    rw [← List.mem_map, mem_names_iff hx, List.mem_map]
  have hdirectory : ∀ p ∈ x.packages, ∀ f ∈ filesOf p.name files,
      p.directory = (Path.ofText f.path).parent.toText := by
    intro p hp f hf
    obtain ⟨g, -, rfl⟩ := (mem_packages_iff hx).1 hp
    obtain ⟨hmem, hpackage⟩ := List.mem_filter.1 hf
    obtain ⟨around, name, hat⟩ := hstands f hmem
    rw [← directoryOf_of_standsAt hat, of_decide_eq_true hpackage]
    rfl
  have hsame : ∀ f ∈ files, ∀ g ∈ files,
      f.package = g.package ↔ (Path.ofText f.path).parent = (Path.ofText g.path).parent := by
    intro f hf g hg
    obtain ⟨_, _, hf⟩ := hstands f hf
    obtain ⟨_, _, hg⟩ := hstands g hg
    exact package_eq_iff_of_standsAt hf hg
  refine ⟨hsame, hnodup, hexists, fun p hp kind => ?_, hdirectory, fun p hp q hq heq => ?_⟩
  · obtain ⟨g, -, rfl⟩ := (mem_packages_iff hx).1 hp
    have hpackage : ∀ f ∈ filesOf g.package files, f.package = g.package := fun f hf =>
      of_decide_eq_true (List.mem_filter.1 hf).2
    refine pathsOf_packageOf ((hasOnePrimary_collectFiles ht h).filter _) hpackage ?_ kind
    rw [List.Nodup, List.pairwise_map]
    refine ((pairwise_name_ne_collectFiles ht h).filter _).imp_of_mem fun hf hg hne => ?_
    exact hne ((hpackage _ hf).trans (hpackage _ hg).symm)
  · obtain ⟨f, hf, hfname⟩ := (hexists p.name).1 ⟨p, hp, rfl⟩
    obtain ⟨g, hg, hgname⟩ := (hexists q.name).1 ⟨q, hq, rfl⟩
    rw [hdirectory p hp f (List.mem_filter.2 ⟨hf, decide_eq_true hfname⟩),
      hdirectory q hq g (List.mem_filter.2 ⟨hg, decide_eq_true hgname⟩)] at heq
    -- the paths of their directories can be read back
    have hparent : ∀ f ∈ files, Path.ofText (Path.ofText f.path).parent.toText =
        (Path.ofText f.path).parent := by
      intro f hf
      obtain ⟨around, name, hat⟩ := hstands f hf
      rw [parent_of_standsAt hat]
      exact Path.ofText_toText (Path.isNormal_join (Path.isNormal_ofText _) hat.isName_around)
    have hpackages := (hsame f hf g hg).2 (by rw [← hparent f hf, heq, hparent g hg])
    exact List.inj_on_of_nodup_map hnodup hp hq (hfname.symm.trans (hpackages.trans hgname))

/-- **No file is lost or misplaced.** Collecting the files of a module fails only where a directory
cannot be looked into; else it gives just the files below the source root whose paths are not too
long, and all of them are sorted into the packages of their directories. -/
theorem collectFiles_complete (ht : t.IsSound) (s : Settings) (m : RepositoryModule) :
    ((∃ r, m.collectFiles s t = .ok r) ↔ IsEnumerable t m) ∧
      ∀ m' log, m.collectFiles s t = .ok (m', log) → Enumerates s t m m'.files log ∧
        ∃ x, start m' = .ok x ∧ SortsInto m'.files x.packages := by
  refine ⟨exists_collectFiles_iff ht, fun m' log h => ⟨enumerates_of_collectFiles ht h, ?_⟩⟩
  obtain ⟨x, hx⟩ := exists_start (hasOnePrimary_collectFiles ht h)
  exact ⟨x, hx, sortsInto_of_collectFiles ht h hx⟩

/-- The repository of one module is collected, and its catalog is sorted into a package. -/
theorem collectFiles_complete_sample :
    (repositoryWith []).IsSound ∧
      IsEnumerable (repositoryWith []) onlyModule ∧
      ∃ m' log, onlyModule.collectFiles .standard (repositoryWith []) = .ok (m', log) ∧
        m'.files = [⟨[], (inSources "Bundle.properties").toPath.toText, .primaryCatalog⟩] ∧
        Enumerates .standard (repositoryWith []) onlyModule m'.files log ∧
        ∃ x, start m' = .ok x ∧ SortsInto m'.files x.packages := by
  have hsound : (repositoryWith []).IsSound := by decide +kernel
  obtain ⟨henumerable, hcomplete⟩ := collectFiles_complete hsound .standard onlyModule
  have hfiles : (onlyModule.collectFiles .standard (repositoryWith [])).toOption.map
      (fun r => r.1.files) =
        some [⟨[], (inSources "Bundle.properties").toPath.toText, .primaryCatalog⟩] := by cbv
  obtain ⟨⟨m', log⟩, hr, hfiles⟩ := Option.map_eq_some_iff.1 hfiles
  have hcollect := Failure.eq_ok_of_toOption hr
  exact ⟨hsound, henumerable.1 ⟨_, hcollect⟩, m', log, hcollect, hfiles, hcomplete m' log hcollect⟩

/-! ### A file that is left out -/

/-- Directories of long names, each within the one before. -/
def deepDirectory (depth : Nat) : Location := List.replicate depth (List.replicate 255 0x64)

/-- A file name as long as a name can be. -/
def longName : Text := List.replicate 250 0x41 ++ Text.ofString ".java"

/-- A tree with such a file in such directories. -/
def deepTree : Tree :=
  { entries := (deepDirectory 15 ++ [longName], .file []) ::
      (List.range 15).map fun depth => (deepDirectory (depth + 1), .directory) }

/-- The module of that tree. -/
def deepModule : RepositoryModule := { identity := "m", root := "/", sourceRoot := "/" }

/-- A source whose path is too long is not listed. -/
theorem overlong_file_left_out :
    deepTree.IsSound ∧ IsBelow deepTree deepModule (deepDirectory 15 ++ [longName]) ∧
      FileKind.ofName? .standard longName = some .source ∧
      ∃ m' log, deepModule.collectFiles .standard deepTree = .ok (m', log) ∧
        ∀ f ∈ m'.files,
          f.path ≠ pathBelow (Path.ofText deepModule.sourceRoot)
            (deepDirectory 15 ++ [longName]) := by
  have hsound : deepTree.IsSound := by decide +kernel
  have hroot : IsRootedAt deepTree deepModule [] := ⟨rfl, rfl, rfl⟩
  have hopen : IsOpen deepTree deepModule [] := by
    have hall : ∀ e ∈ deepTree.entries, e.2 = .directory →
        e.1.length ≤ deepTree.depths.directories ∧
          Tree.byteLength (pathBelow (Path.ofText deepModule.sourceRoot) e.1) ≤ Tree.pathLimit := by
      decide +kernel
    exact fun names hne hentry => hall _ (hsound.mem_entries_iff.2 ⟨hne, hentry⟩) rfl
  obtain ⟨log, hcollect⟩ := hroot.exists_collectFiles (s := .standard) hsound hopen
  refine ⟨hsound, ⟨[], hroot, [], by decide +kernel⟩, by decide +kernel, _, log, hcollect,
    fun f hf hpath => ?_⟩
  have henumerates := enumerates_of_collectFiles hsound hcollect
  obtain ⟨around, name, -, -, -, hlimit, -⟩ := (henumerates.mem_iff f).1 hf
  rw [hpath] at hlimit
  revert hlimit
  decide +kernel

end ModuleScan

end BundleAudit
