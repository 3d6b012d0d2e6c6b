import BundleAudit.Proofs.Files.Resolution
import BundleAudit.Proofs.Files.Way
import BundleAudit.Proofs.Module.Discovery
import BundleAudit.Proofs.Files.Sound

/-!
# BundleAudit.Proofs.Module.Rediscovery

**Modules are found again in trees that differ in other files** (`discover_eq`): their
directories are the same, and so are the files that make a directory a module, if none
of them is among those files.
-/

namespace BundleAudit.RepositoryModule

variable {W : Location → Prop} {t t' : Tree}

/-- No file that could make a directory a module is at one of some locations, or could be, and all
these are within the limit of paths. -/
structure IsApart (t : Tree) (W : Location → Prop) : Prop where
  manifest : ∀ directory : Path, ¬t.LeadsInto W (directory.child manifestName).toText
  projectFile : ∀ directory : Path, ¬t.LeadsInto W (directory.child projectFileName).toText
  limit : ∀ l, W l → Tree.byteLength (Location.toPath l).toText ≤ Tree.pathLimit

/-- In a tree without links, files of other names do not make directories modules. -/
theorem IsApart.of_hasNoLinks (h : t.HasNoLinks)
    (hnames : ∀ l, W l → ∃ d name, l = d ++ [name] ∧ ¬manifestName <:+ name ∧
      ¬projectFileName <:+ name)
    (hlimit : ∀ l, W l → Tree.byteLength (Location.toPath l).toText ≤ Tree.pathLimit) :
    IsApart t W := by
  have hother : ∀ {name : Text}, Path.IsName name → (∀ before, Tree.IsProper (before ++ name)) →
      ∀ {directory : Path}, t.LeadsInto W (directory.child name).toText →
        ∃ d before, W (d ++ [before ++ name]) := by
    rintro name hname hproper directory ⟨place, hplace, hw⟩
    obtain ⟨d, before, hlocation⟩ := h.location_child hname hproper hplace
    exact ⟨d, before, hlocation ▸ hw⟩
  have hproper : ∀ {name : Text}, 3 ≤ name.length → ∀ before, Tree.IsProper (before ++ name) :=
    fun hlength before => .of_length (by rw [List.length_append]; omega)
  refine ⟨fun directory hinto => ?_, fun directory hinto => ?_, hlimit⟩
  · obtain ⟨d, before, hw⟩ := hother (by decide) (hproper (by decide)) hinto
    obtain ⟨d', name, heq, hmanifest, -⟩ := hnames _ hw
    obtain ⟨-, hsame⟩ := List.append_inj' heq rfl
    exact hmanifest ⟨before, List.singleton_inj.1 hsame⟩
  · obtain ⟨d, before, hw⟩ := hother (by decide) (hproper (by decide)) hinto
    obtain ⟨d', name, heq, -, hproject⟩ := hnames _ hw
    obtain ⟨-, hsame⟩ := List.append_inj' heq rfl
    exact hproject ⟨before, List.singleton_inj.1 hsame⟩

/-! ### One directory -/

theorem identityOf_eq (h : t.AlikeBut W t') (root directory : Path) :
    identityOf t' root directory = identityOf t root directory := by
  rw [identityOf, identityOf, Tree.resolve_eq h, Tree.resolve_eq h]

/-- A file that is there can be read. -/
theorem exists_read_of_isFile {path : Text} (h : t.isFile path = .ok true) :
    ∃ bytes, t.read path = .ok bytes := by
  obtain ⟨e, hlook, he⟩ := Failure.map_eq_ok_iff.1 h
  unfold Tree.lookAt at hlook
  split at hlook
  · obtain rfl := Except.ok.inj hlook
    cases he
  · next hpath =>
      split at hlook
      · next l hplace =>
          obtain rfl := Except.ok.inj hlook
          split at he
          · next bytes hentry =>
              exact ⟨bytes, Tree.read_eq_ok_iff.2
                ⟨Option.not_isSome_iff_eq_none.1 hpath, l, hplace, hentry⟩⟩
          · cases he
      · cases hlook
      · obtain rfl := Except.ok.inj hlook
        cases he

theorem isPlatformManifest_eq (h : t.AlikeBut W t') {path : Text} (hpath : ¬t.LeadsInto W path) :
    t'.isPlatformManifest path = t.isPlatformManifest path := by
  unfold Tree.isPlatformManifest
  rw [Tree.isFile_eq h hpath]
  cases hfile : t.isFile path with
  | error failure => rfl
  | ok isFile =>
      cases isFile with
      | false => rfl
      | true =>
          obtain ⟨bytes, hread⟩ := exists_read_of_isFile hfile
          have hread' := (Tree.read_iff h hpath).2 hread
          unfold Tree.readManifest Tree.readLines
          rw [hread, hread']

theorem ofDirectory_eq (h : t.AlikeBut W t') (hapart : IsApart t W) (root directory : Path) :
    ofDirectory t' root directory = ofDirectory t root directory := by
  unfold ofDirectory
  simp only [isPlatformManifest_eq h (hapart.manifest directory),
    Tree.isFile_eq h (hapart.projectFile directory), identityOf_eq h]

/-! ### Candidates -/

theorem directoriesIn_congr (h : t.AlikeBut W t') (directory : Path) (names : List Text) :
    directoriesIn t' directory names = directoriesIn t directory names := by
  induction names with
  | nil => rfl
  | cons name rest ih => rw [directoriesIn, directoriesIn, ih, Tree.isDirectory_eq h]

/-- Names that are no directories can be left out. -/
theorem directoriesIn_filter {directory : Path} {names : List Text} {keep : Text → Bool}
    (h : ∀ name ∈ names, keep name = false →
      t.isDirectory (directory.child name).toText = .ok false) :
    directoriesIn t directory (names.filter keep) = directoriesIn t directory names := by
  induction names with
  | nil => rfl
  | cons name rest ih =>
      obtain ⟨hname, hrest⟩ := List.forall_mem_cons.1 h
      rw [List.filter_cons]
      split
      · rw [directoriesIn, directoriesIn, ih hrest]
      · next hkeep =>
          rw [ih hrest, directoriesIn, hname (Bool.eq_false_iff.2 hkeep)]
          cases directoriesIn t directory rest <;> rfl

theorem candidatesIn_eq (ht : t.IsSound) (ht' : t'.IsSound) (h : t.AlikeBut W t')
    (hapart : IsApart t W) (top : Location) : candidatesIn t' top = candidatesIn t top := by
  classical
  -- what is new or missing among the names is no directory
  have hleft : ∀ {u u' : Tree}, u.IsSound → u.AlikeBut W u' → ∀ name ∈ u.names top,
      decide (¬W (top ++ [name])) = false → u.isDirectory (top.toPath.child name).toText =
        .ok false := by
    intro u u' hu h name hname hkeep
    have hw : W (top ++ [name]) := not_not.1 (of_decide_eq_false hkeep)
    obtain ⟨e, hentry⟩ := Option.isSome_iff_exists.1 (hu.mem_names_iff.1 hname)
    exact hu.isDirectory_eq_false (hu.directory_of_append hentry (List.cons_ne_nil _ _))
      (hu.isEntryName hentry name (List.mem_append_right _ List.mem_cons_self)) (h.free _ hw)
      (hapart.limit _ hw)
  have hnames : (t'.names top).filter (fun name => decide (¬W (top ++ [name]))) =
      (t.names top).filter fun name => decide (¬W (top ++ [name])) := by
    refine Text.filter_eq_of_mem_iff (R := fun a b => a.le b = true)
      (fun _ _ => Text.le_antisymm) (Tree.pairwise_names ..) (Tree.pairwise_names ..)
      (ht'.nodup_names _) (ht.nodup_names _) fun name hkeep => ?_
    rw [ht'.mem_names_iff, ht.mem_names_iff, h.entry _ (of_decide_eq_true hkeep)]
  unfold candidatesIn
  rw [← directoriesIn_filter (hleft ht' h.symm), ← directoriesIn_filter (hleft ht h), hnames,
    directoriesIn_congr h]

theorem candidates_eq (ht : t.IsSound) (ht' : t'.IsSound) (h : t.AlikeBut W t')
    (hapart : IsApart t W) (root : Path) (name : Text) :
    candidates t' root name = candidates t root name := by
  unfold candidates
  simp only [Tree.resolve_eq h, Tree.isDirectory_eq h, candidatesIn_eq ht ht' h hapart]

/-! ### All directories -/

theorem addModules_eq (h : t.AlikeBut W t') (hapart : IsApart t W) (root : Path) (found : Found)
    (directories : List Path) :
    addModules t' root found directories = addModules t root found directories := by
  induction directories generalizing found with
  | nil => rfl
  | cons directory rest ih =>
      rw [addModules, addModules, ofDirectory_eq h hapart]
      simp only [ih]

/-- **The same modules are found in trees that differ in other files,** and the same is said about
it. -/
theorem discover_eq (ht : t.IsSound) (ht' : t'.IsSound) (h : t.AlikeBut W t')
    (hapart : IsApart t W) (root : Path) (tops : List Text) (filter : Option Text) :
    discover t' root tops filter = discover t root tops filter := by
  have htops : ∀ found, addTops t' root filter found tops = addTops t root filter found tops := by
    induction tops with
    | nil => exact fun _ => rfl
    | cons top rest ih =>
        intro found
        rw [addTops, addTops, candidates_eq ht ht' h hapart]
        simp only [addModules_eq h hapart, ih]
  rw [discover, discover, htops]

end BundleAudit.RepositoryModule
