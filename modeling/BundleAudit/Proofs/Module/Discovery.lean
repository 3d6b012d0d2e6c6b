import BundleAudit.Module.Discovery
import BundleAudit.Proofs.Files.Refusal
import BundleAudit.Proofs.Text.Order

/-!
# BundleAudit.Proofs.Module.Discovery

**What is found as a module.** Every module that is discovered is that of a directory
(`IsFound`), and no two have one identity. Since a file was looked at there, the paths
of a module are paths in the file system.
-/

namespace BundleAudit.RepositoryModule

/-- A module is that of some directory. -/
def IsFound (t : Tree) (root : Path) (m : RepositoryModule) : Prop :=
  ∃ directory, ofDirectory t root directory = .ok (some m)

variable {t : Tree} {root directory : Path} {m : RepositoryModule}

/-! ### One directory -/

/-- What a module has of its directory. -/
structure IsOf (t : Tree) (root directory : Path) (m : RepositoryModule) : Prop where
  identity : identityOf t root directory = .ok m.identity
  files : m.files = []
  sourceRoot : ∃ source ∈ [platformSourceRoot, projectSourceRoot],
    m.sourceRoot = (directory.join source).toText
  manifest : ∀ path ∈ m.manifest, path = (directory.child manifestName).toText
  /-- A file was looked at in the directory. -/
  isPath : ∃ name, Tree.notAPath? (directory.child name).toText = none

theorem isPath_of_isFile {path : Text} (h : t.isFile path = .ok true) :
    Tree.notAPath? path = none := by
  by_contra hnone
  rw [Tree.isFile, Tree.lookAt, if_pos (Option.isSome_iff_ne_none.2 hnone)] at h
  cases h

theorem isPath_of_isPlatformManifest {path : Text} (h : t.isPlatformManifest path = .ok true) :
    Tree.notAPath? path = none := by
  obtain ⟨isFile, hfile, h⟩ := Failure.bind_eq_ok_iff.1 h
  cases isFile with
  | true => exact isPath_of_isFile hfile
  | false => cases h

theorem isOf_of_ofDirectory (h : ofDirectory t root directory = .ok (some m)) :
    IsOf t root directory m := by
  obtain ⟨isPlatform, hmanifest, h⟩ := Failure.bind_eq_ok_iff.1 h
  cases isPlatform with
  | true =>
      obtain ⟨identity, hidentity, h⟩ := Failure.bind_eq_ok_iff.1 h
      obtain rfl := Option.some.inj (Except.ok.inj h)
      exact ⟨hidentity, rfl, ⟨_, List.mem_cons_self, rfl⟩, fun _ h =>
        (Option.mem_some_iff.1 h).symm,
        _, isPath_of_isPlatformManifest hmanifest⟩
  | false =>
      obtain ⟨isProject, hproject, h⟩ := Failure.bind_eq_ok_iff.1 h
      cases isProject with
      | true =>
          obtain ⟨identity, hidentity, h⟩ := Failure.bind_eq_ok_iff.1 h
          obtain rfl := Option.some.inj (Except.ok.inj h)
          exact ⟨hidentity, rfl, ⟨_, List.mem_cons_of_mem _ List.mem_cons_self, rfl⟩, nofun, _,
            isPath_of_isFile hproject⟩
      | false => cases h

/-- The source root of a module that was found is a path in the file system. -/
theorem IsOf.isPath_sourceRoot (h : IsOf t root directory m) :
    Tree.notAPath? m.sourceRoot = none := by
  obtain ⟨name, hname⟩ := h.isPath
  obtain ⟨source, hsource, hroot⟩ := h.sourceRoot
  rw [Path.child, Path.toText_concat, Tree.notAPath?_append, Tree.notAPath?_append,
    Tree.notAPath?_flatMap] at hname
  obtain ⟨⟨hdirectory, hnames⟩, -⟩ := hname
  -- below the directory, there are just names that are fixed
  have hfixed : ∃ init last, source = ⟨[], init ++ [last]⟩ ∧
      ∀ n ∈ init ++ [last], Tree.notAPath? n = none := by
    rcases List.mem_cons.1 hsource with rfl | hsource
    · exact ⟨[], Text.ofString "src", by decide, by decide⟩
    · rw [List.mem_singleton.1 hsource]
      exact ⟨[Text.ofString "src", Text.ofString "main"], Text.ofString "java", by decide,
        by decide⟩
  obtain ⟨init, last, rfl, hfixed⟩ := hfixed
  rw [hroot, Path.join_relative, ← List.append_assoc, Path.toText_concat, Tree.notAPath?_append,
    Tree.notAPath?_append, Tree.notAPath?_flatMap]
  refine ⟨⟨hdirectory, List.forall_mem_append.2 ⟨hnames, fun n hn => ?_⟩⟩, ?_⟩
  · exact hfixed n (List.mem_append_left _ hn)
  · exact hfixed last (List.mem_append_right _ List.mem_cons_self)

/-- The identity of a directory is a path in the file system. -/
theorem notAPath?_identityOf {identity : Text} (h : identityOf t root directory = .ok identity) :
    Tree.notAPath? identity = none := by
  have hwhole : ∀ {l : Location}, t.resolve directory = .ok l →
      Tree.notAPath? l.toPath.toText = none := by
    intro l hl
    obtain ⟨r, -, hl⟩ := Failure.bind_eq_ok_iff.1 hl
    dsimp only at hl
    split at hl
    · cases hl
    · next hnone =>
        split at hl
        · cases hl
        · rwa [← Except.ok.inj hl]
  unfold identityOf at h
  split at h
  · cases h
  · next l hl =>
      split at h
      · next r _ =>
          rw [← Except.ok.inj h, relativeTo]
          split
          · next names hprefix =>
              obtain rfl := List.append_eq_of_isPrefixOf?_eq_some hprefix
              refine (Tree.notAPath?_toText_of_root rfl).2 fun n hn => ?_
              exact (Tree.notAPath?_toText_of_root rfl).1 (hwhole hl) n (List.mem_append_right _ hn)
          · exact hwhole hl
      · cases h
      · cases h
      · rw [← Except.ok.inj h]
        exact hwhole hl

/-! ### All directories -/

/-- Modules under their identities, each that of some directory. -/
structure AreFound (t : Tree) (root : Path) (found : Found) : Prop where
  nodup : (KeyedList.keys found).Nodup
  identity : ∀ x ∈ found, x.2.identity = x.1
  isFound : ∀ x ∈ found, IsFound t root x.2

theorem AreFound.nil : AreFound t root [] := ⟨List.nodup_nil, nofun, nofun⟩

theorem AreFound.add {found : Found} (h : AreFound t root found) (hm : IsFound t root m) :
    AreFound t root (found.add m) := by
  unfold Found.add
  split
  · exact h
  · next hnew =>
      have hkey : m.identity ∉ KeyedList.keys found := fun hmem => by
        obtain ⟨x, hx, heq⟩ := List.mem_map.1 hmem
        have hget : KeyedList.get? x.1 found = some x.2 := KeyedList.get?_eq_some h.nodup hx
        exact hnew (by rw [← heq, hget]; rfl)
      rw [← KeyedList.set_of_not_mem hkey]
      refine ⟨KeyedList.nodup_keys_set h.nodup, fun x hx => ?_, fun x hx => ?_⟩
      · rcases KeyedList.mem_of_mem_set hx with rfl | hx
        · rfl
        · exact h.identity x hx
      · rcases KeyedList.mem_of_mem_set hx with rfl | hx
        · exact hm
        · exact h.isFound x hx

theorem AreFound.addModules {found found' : Found} (h : AreFound t root found)
    {directories : List Path} {log : Log}
    (hadd : addModules t root found directories = .ok (found', log)) : AreFound t root found' := by
  induction directories generalizing found log with
  | nil =>
      cases hadd
      exact h
  | cons directory rest ih =>
      rw [RepositoryModule.addModules] at hadd
      split at hadd
      · exact ih h hadd
      · next hm => exact ih (h.add ⟨directory, hm⟩) hadd
      · obtain ⟨⟨more, log'⟩, hrest, heq⟩ := Failure.map_eq_ok_iff.1 hadd
        obtain rfl : more = found' := congrArg Prod.fst heq
        exact ih h hrest
      · cases hadd

theorem AreFound.addTops {found found' : Found} (h : AreFound t root found)
    {filter : Option Text} {tops : List Text} {log : Log}
    (hadd : addTops t root filter found tops = .ok (found', log)) : AreFound t root found' := by
  induction tops generalizing found log with
  | nil =>
      cases hadd
      exact h
  | cons top rest ih =>
      obtain ⟨⟨directories, log₁⟩, -, hadd⟩ := Failure.bind_eq_ok_iff.1 hadd
      obtain ⟨⟨found₂, log₂⟩, hmodules, hadd⟩ := Failure.bind_eq_ok_iff.1 hadd
      obtain ⟨⟨found₃, log₃⟩, hrest, hadd⟩ := Failure.bind_eq_ok_iff.1 hadd
      obtain ⟨rfl, -⟩ := Prod.mk.inj (Except.ok.inj hadd)
      exact ih (h.addModules hmodules) hrest

/-- Modules in the order of their keys are in the order of their identities. -/
theorem AreFound.map_identity {found : Found} (h : AreFound t root found) :
    ((Text.sortBy Prod.fst found).map Prod.snd).map (·.identity) =
      (Text.sortBy Prod.fst found).map Prod.fst := by
  rw [List.map_map]
  exact List.map_congr_left fun x hx => h.identity x
    ((Text.perm_sortBy Prod.fst found).mem_iff.1 hx)

/-- **What is discovered are modules of directories,** in ascending order of their identities, which
are distinct. -/
theorem of_discover_eq_ok {tops : List Text} {filter : Option Text}
    {modules : List RepositoryModule} {log : Log}
    (h : discover t root tops filter = .ok (modules, log)) :
    (modules.map (·.identity)).Pairwise (fun a b => a.lt b = true) ∧
      ∀ m ∈ modules, IsFound t root m := by
  obtain ⟨⟨found, log'⟩, hadd, heq⟩ := Failure.map_eq_ok_iff.1 h
  obtain ⟨rfl, -⟩ := Prod.mk.inj heq
  have hfound := AreFound.nil.addTops hadd
  refine ⟨?_, fun m hm => ?_⟩
  · exact hfound.map_identity ▸ Text.pairwise_lt_sortBy hfound.nodup
  · obtain ⟨x, hx, rfl⟩ := List.mem_map.1 hm
    exact hfound.isFound x ((Text.perm_sortBy Prod.fst found).mem_iff.1 hx)

end BundleAudit.RepositoryModule

namespace BundleAudit

/-! ### A repository -/

/-- The location of a name in the source root of a module. -/
def inSources (name : Text) : Location :=
  ["r", "m", "src", "main", "java"].map Text.ofString ++ [name]

/-- A repository of one module with one catalog, and some more entries. -/
def repositoryWith (more : KeyedList Location Entry) : Tree :=
  { entries := more ++
      [([Text.ofString "r"], .directory),
        ([Text.ofString "r", Text.ofString "m"], .directory),
        ([Text.ofString "r", Text.ofString "m", Text.ofString "pom.xml"], .file []),
        ([Text.ofString "r", Text.ofString "m", Text.ofString "src"], .directory),
        ([Text.ofString "r", Text.ofString "m", Text.ofString "src", Text.ofString "main"],
          .directory),
        ([Text.ofString "r", Text.ofString "m", Text.ofString "src", Text.ofString "main",
          Text.ofString "java"], .directory),
        (inSources "Bundle.properties", .ofText "k=x\n")] }

/-- The module of such a repository. -/
def onlyModule : RepositoryModule :=
  { identity := "m", root := "/r/m", sourceRoot := "/r/m/src/main/java" }

end BundleAudit
