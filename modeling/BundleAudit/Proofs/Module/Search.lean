import BundleAudit.Proofs.Files.Content
import BundleAudit.Proofs.Files.Links
import BundleAudit.Proofs.Module.Rediscovery

/-!
# BundleAudit.Proofs.Module.Search

**A search finds each module once.** A directory is told by where it stands, and so is its
identity (`identityOf_of_place`), so it does not matter in how many ways a search comes to a
directory, or in which order. What is found are the directories at the top and just within
those, with a manifest of a platform module or a project file, and nothing else
(`findsExactly_discover_iff`).

A search ends without a result where it cannot be told whether an entry is a directory: this
is not caught as it is for the files in a directory.
-/

namespace BundleAudit.RepositoryModule

variable {t : Tree} {root directory : Path} {filter : Option Text} {tops : List Text} {entry : Text}
  {k k' : Location} {found found' : Found} {log : Log}

/-! ### What a search is for -/

/-- The directory that an entry of the top directories names. -/
structure IsTop (t : Tree) (root : Path) (entry : Text) (top : Location) : Prop where
  ne_nil : entry.trim ≠ []
  resolve : t.resolve (root.join (Path.ofText entry.trim)) = .ok top
  isDirectory : t.isDirectory top.toPath.toText = .ok true

/-- The directories that may be modules because of an entry: its own and those within that one. -/
inductive IsCandidate (t : Tree) (root : Path) (entry : Text) : Path → Prop
  | top {top : Location} : IsTop t root entry top → IsCandidate t root entry top.toPath
  | within {top : Location} {name : Text} : IsTop t root entry top → name ∈ t.names top →
    t.isDirectory (top.toPath.child name).toText = .ok true →
    IsCandidate t root entry (top.toPath.child name)

/-- A directory has the files of a module: the manifest of a platform module, or a project file. -/
def HasModule (t : Tree) (directory : Path) : Prop :=
  (∃ bytes, t.read (directory.child manifestName).toText = .ok bytes ∧
    (Manifest.ofLines (Text.linesOfBytes bytes)).isPlatformModule = true) ∨
  ∃ bytes, t.read (directory.child projectFileName).toText = .ok bytes

/-- The entries lead to a module at a location. -/
def IsReached (t : Tree) (root : Path) (filter : Option Text) (tops : List Text) (k : Location) :
    Prop :=
  ∃ entry ∈ tops, ∃ directory, IsCandidate t root entry directory ∧ passes filter directory = true ∧
    HasModule t directory ∧ t.place .target directory.toText = .ok (.found k)

/-- The identity of what stands at a location. -/
def identityAt (t : Tree) (root : Path) (k : Location) : Text :=
  match t.resolve root with
  | .ok r => relativeTo r k
  | .error _ => k.toPath.toText

/-- The warning about an entry that names no directory. -/
def missing? (t : Tree) (root : Path) (entry : Text) : Option Message :=
  if entry.trim = [] then none
  else
    match t.resolve (root.join (Path.ofText entry.trim)) with
    | .error _ => none
    | .ok top =>
      match t.isDirectory top.toPath.toText with
      | .ok false => some (.warn ("Skipping missing top directory: " ++ top.toPath.toText))
      | _ => none

/-! ### Identities -/

/-- What stands at different locations has different identities. -/
theorem relativeTo_inj {r : Location} (hk : k.toPath.IsNormal) (hk' : k'.toPath.IsNormal)
    (h : relativeTo r k = relativeTo r k') : k = k' := by
  have hrelative : ∀ {names : List Text}, (r ++ names : Location).toPath.IsNormal →
      Path.IsNormal ⟨[], names⟩ := fun h =>
    ⟨.inl rfl, fun name hname => h.names name (List.mem_append_right _ hname)⟩
  unfold relativeTo at h
  split at h
  · next names hprefix =>
      obtain rfl := List.append_eq_of_isPrefixOf?_eq_some hprefix
      have hnames := hrelative hk
      split at h
      · next names' hprefix' =>
          obtain rfl := List.append_eq_of_isPrefixOf?_eq_some hprefix'
          have hpath := congrArg Path.ofText h
          rw [Path.ofText_toText hnames, Path.ofText_toText (hrelative hk')] at hpath
          rw [(Path.mk.inj hpath).2]
      · have hpath := congrArg Path.ofText h
        rw [Path.ofText_toText hnames, Path.ofText_toText hk'] at hpath
        cases (Path.mk.inj hpath).1
  · split at h
    · next names' hprefix' =>
        obtain rfl := List.append_eq_of_isPrefixOf?_eq_some hprefix'
        have hpath := congrArg Path.ofText h
        rw [Path.ofText_toText hk, Path.ofText_toText (hrelative hk')] at hpath
        cases (Path.mk.inj hpath).1
    · have hpath := congrArg Path.ofText h
      rw [Path.ofText_toText hk, Path.ofText_toText hk'] at hpath
      exact (Path.mk.inj hpath).2

theorem identityAt_inj (hk : k.toPath.IsNormal) (hk' : k'.toPath.IsNormal)
    (h : identityAt t root k = identityAt t root k') : k = k' := by
  unfold identityAt at h
  split at h
  · exact relativeTo_inj hk hk' h
  · have hpath := congrArg Path.ofText h
    rw [Path.ofText_toText hk, Path.ofText_toText hk'] at hpath
    exact (Path.mk.inj hpath).2

/-- The identity of a directory is that of the location where it stands. -/
theorem identityOf_of_place (ht : t.IsSound) (hloops : t.HasNoLoops) (hroot : root.IsNormal)
    (hfollowed : t.resolve root ≠ .error .nestedTooDeep)
    (hdirectory : directory.IsNormal) (hplace : t.place .target directory.toText = .ok (.found k))
    (hk : t.entry? k = some .directory) :
    identityOf t root directory = .ok (identityAt t root k) := by
  have hne := hloops.resolve_ne_linkCircle ht hroot
  rw [identityOf, Tree.resolve_of_place ht hdirectory hplace hk, identityAt]
  cases hresolve : t.resolve root with
  | ok r => rfl
  | error failure =>
      cases failure with
      | linkCircle => exact absurd hresolve hne
      | nestedTooDeep => exact absurd hresolve hfollowed
      | _ => rfl

/-! ### One directory -/

/-- It can be told which of the files of a module a directory has. -/
structure FilesTold (t : Tree) (directory : Path) : Prop where
  manifest : ∃ answer, t.isFile (directory.child manifestName).toText = .ok answer
  projectFile : t.isPlatformManifest (directory.child manifestName).toText = .ok false →
    ∃ answer, t.isFile (directory.child projectFileName).toText = .ok answer

/-- Whether a file is the manifest of a platform module can be told if it can be told whether it is
a file. -/
theorem isPlatformManifest_cases (path : Text) :
    (∃ failure, t.isFile path = .error failure ∧ t.isPlatformManifest path = .error failure) ∨
    (∃ answer, t.isFile path = .ok answer) ∧ ∃ platform, t.isPlatformManifest path = .ok platform ∧
      (platform = true ↔ ∃ bytes, t.read path = .ok bytes ∧
        (Manifest.ofLines (Text.linesOfBytes bytes)).isPlatformModule = true) := by
  cases hfile : t.isFile path with
  | error failure => exact .inl ⟨failure, rfl, by rw [Tree.isPlatformManifest, hfile]; rfl⟩
  | ok answer =>
      refine .inr ⟨⟨answer, rfl⟩, ?_⟩
      cases answer with
      | false =>
          refine ⟨false, by rw [Tree.isPlatformManifest, hfile]; rfl, nofun, ?_⟩
          rintro ⟨bytes, hread, -⟩
          rw [Tree.isFile_of_read hread] at hfile
          cases hfile
      | true =>
          obtain ⟨bytes, hread⟩ := exists_read_of_isFile hfile
          refine ⟨(Manifest.ofLines (Text.linesOfBytes bytes)).isPlatformModule, ?_, ?_⟩
          · rw [Tree.isPlatformManifest, hfile, Tree.readManifest, Tree.readLines, hread]
            rfl
          · refine ⟨fun hplatform => ⟨bytes, hread, hplatform⟩, ?_⟩
            rintro ⟨bytes', hread', hplatform⟩
            obtain rfl := Except.ok.inj (hread.symm.trans hread')
            exact hplatform

/-- A directory is a module, or not, or it cannot be told. -/
theorem ofDirectory_cases
    {identity : Text} (hidentity : identityOf t root directory = .ok identity) :
    (¬FilesTold t directory ∧ ∃ cause path target,
      ofDirectory t root directory = .error (.system cause path target)) ∨
    (FilesTold t directory ∧ HasModule t directory ∧
      ∃ m, ofDirectory t root directory = .ok (some m) ∧ m.identity = identity) ∨
    FilesTold t directory ∧ ¬HasModule t directory ∧ ofDirectory t root directory = .ok none := by
  unfold ofDirectory
  dsimp only
  rcases isPlatformManifest_cases (t := t) (directory.child manifestName).toText with
    ⟨failure, hfile, hplatform⟩ | ⟨hfile, platform, hplatform, hiff⟩
  · obtain ⟨cause, path, target, rfl⟩ := Tree.isSystem_of_isFile hfile
    refine .inl ⟨fun htold => ?_, cause, path, target, by rw [hplatform]; rfl⟩
    obtain ⟨answer, hanswer⟩ := htold.manifest
    rw [hfile] at hanswer
    cases hanswer
  rw [hplatform]
  cases platform with
  | true =>
      refine .inr (.inl ⟨⟨hfile, fun hnot => ?_⟩, .inl (hiff.1 rfl), ?_⟩)
      · rw [hplatform] at hnot
        cases hnot
      · rw [hidentity]
        exact ⟨_, rfl, rfl⟩
  | false =>
      have hmanifest : ¬∃ bytes, t.read (directory.child manifestName).toText = .ok bytes ∧
          (Manifest.ofLines (Text.linesOfBytes bytes)).isPlatformModule = true :=
        fun h => Bool.false_ne_true (hiff.2 h)
      cases hproject : t.isFile (directory.child projectFileName).toText with
      | error failure =>
          obtain ⟨cause, path, target, rfl⟩ := Tree.isSystem_of_isFile hproject
          refine .inl ⟨fun htold => ?_, cause, path, target, rfl⟩
          obtain ⟨answer, hanswer⟩ := htold.projectFile hplatform
          rw [hproject] at hanswer
          cases hanswer
      | ok answer =>
          have htold : FilesTold t directory := ⟨hfile, fun _ => ⟨answer, hproject⟩⟩
          cases answer with
          | true =>
              refine .inr (.inl ⟨htold, .inr (exists_read_of_isFile hproject), ?_⟩)
              rw [hidentity]
              exact ⟨_, rfl, rfl⟩
          | false =>
              refine .inr (.inr ⟨htold, ?_, rfl⟩)
              rintro (h | ⟨bytes, hread⟩)
              · exact hmanifest h
              · rw [Tree.isFile_of_read hread] at hproject
                cases hproject

/-! ### The directories of an entry -/

/-- It can be told which directories an entry stands for. -/
structure EntryTold (t : Tree) (root : Path) (entry : Text) : Prop where
  resolve : ∃ top, t.resolve (root.join (Path.ofText entry.trim)) = .ok top
  isDirectory : ∀ top, t.resolve (root.join (Path.ofText entry.trim)) = .ok top →
    ∃ answer, t.isDirectory top.toPath.toText = .ok answer
  within : ∀ top, IsTop t root entry top → ∀ name ∈ t.names top,
    ∃ answer, t.isDirectory (top.toPath.child name).toText = .ok answer

theorem isNormal_join_ofText (hroot : root.IsNormal) (path : Text) :
    (root.join (Path.ofText path)).IsNormal := by
  have hpath := Path.isNormal_ofText path
  unfold Path.join
  split
  · exact hpath
  · exact ⟨hroot.root, List.forall_mem_append.2 ⟨hroot.names, hpath.names⟩⟩

/-- The directories of an entry are directories. -/
theorem IsCandidate.exists_place (ht : t.IsSound) (hroot : root.IsNormal)
    (h : IsCandidate t root entry directory) : directory.IsNormal ∧
      ∃ k, t.place .target directory.toText = .ok (.found k) ∧ t.entry? k = some .directory := by
  cases h with
  | @top top htop =>
      obtain ⟨-, k, hplace, hk⟩ := Tree.isDirectory_iff.1 htop.isDirectory
      exact ⟨Tree.isNormal_of_resolve ht (isNormal_join_ofText hroot _) htop.resolve, k, hplace, hk⟩
  | @within top name htop hname hdirectory =>
      have hnormal := Tree.isNormal_of_resolve ht (isNormal_join_ofText hroot _) htop.resolve
      obtain ⟨-, k, hplace, hk⟩ := Tree.isDirectory_iff.1 hdirectory
      obtain ⟨e, he⟩ := Option.isSome_iff_exists.1 (ht.mem_names_iff.1 hname)
      have hentry := ht.isEntryName he name (List.mem_append_right _ List.mem_cons_self)
      exact ⟨⟨hnormal.root, List.forall_mem_append.2
        ⟨hnormal.names, List.forall_mem_singleton.2 hentry.isName⟩⟩, k, hplace, hk⟩

/-- The entries lead to locations of directories. -/
theorem IsReached.isNormal (ht : t.IsSound) (hroot : root.IsNormal)
    (h : IsReached t root filter tops k) : k.toPath.IsNormal := by
  obtain ⟨entry, -, c, hc, -, -, hplace⟩ := h
  obtain ⟨-, k', hplace', hk'⟩ := hc.exists_place ht hroot
  rw [Tree.Place.found.inj (Except.ok.inj (hplace.symm.trans hplace'))]
  exact (ht.isReal hk').isNormal

theorem IsCandidate.ne_nil (h : IsCandidate t root entry directory) : entry.trim ≠ [] := by
  cases h with
  | top htop => exact htop.ne_nil
  | within htop => exact htop.ne_nil

theorem of_directoriesIn_eq_ok {names : List Text} {directories : List Path}
    (h : directoriesIn t directory names = .ok directories) :
    (∀ name ∈ names, ∃ answer, t.isDirectory (directory.child name).toText = .ok answer) ∧
      ∀ c, c ∈ directories ↔ ∃ name ∈ names, c = directory.child name ∧
        t.isDirectory (directory.child name).toText = .ok true := by
  induction names generalizing directories with
  | nil =>
      obtain rfl := Except.ok.inj h
      exact ⟨nofun, fun c => ⟨nofun, fun ⟨_, hname, _⟩ => nomatch hname⟩⟩
  | cons name rest ih =>
      obtain ⟨more, hmore, h⟩ := Failure.bind_eq_ok_iff.1 h
      obtain ⟨answer, hanswer, h⟩ := Failure.bind_eq_ok_iff.1 h
      obtain ⟨htold, hmem⟩ := ih hmore
      refine ⟨List.forall_mem_cons.2 ⟨⟨answer, hanswer⟩, htold⟩, fun c => ?_⟩
      rw [List.exists_mem_cons_iff, hanswer, ← hmem c]
      cases answer with
      | true =>
          obtain rfl := Except.ok.inj h
          rw [List.mem_cons, and_iff_left rfl]
      | false =>
          obtain rfl := Except.ok.inj h
          exact (or_iff_right fun ⟨_, hfalse⟩ => nomatch hfalse).symm

theorem exists_directoriesIn {names : List Text}
    (h : ∀ name ∈ names, ∃ answer, t.isDirectory (directory.child name).toText = .ok answer) :
    ∃ directories, directoriesIn t directory names = .ok directories := by
  induction names with
  | nil => exact ⟨[], rfl⟩
  | cons name rest ih =>
      obtain ⟨⟨answer, hanswer⟩, hrest⟩ := List.forall_mem_cons.1 h
      obtain ⟨more, hmore⟩ := ih hrest
      rw [directoriesIn, hmore, hanswer]
      cases answer with
      | true => exact ⟨directory.child name :: more, rfl⟩
      | false => exact ⟨more, rfl⟩

theorem candidates_of_ne_nil (h : entry.trim ≠ []) : candidates t root entry =
    (do
      let top ← t.resolve (root.join (Path.ofText entry.trim))
      if ← t.isDirectory top.toPath.toText then return (← candidatesIn t top, [])
      else return ([], [.warn ("Skipping missing top directory: " ++ top.toPath.toText)])) := by
  unfold candidates
  split
  · next hnil => exact absurd hnil h
  · rfl

section

variable {top : Location} (hne : entry.trim ≠ [])
  (hresolve : t.resolve (root.join (Path.ofText entry.trim)) = .ok top)

include hne hresolve

theorem isTop_iff {top' : Location} : IsTop t root entry top' ↔
    top' = top ∧ t.isDirectory top.toPath.toText = .ok true := by
  constructor
  · intro h
    obtain rfl := Except.ok.inj (h.resolve.symm.trans hresolve)
    exact ⟨rfl, h.isDirectory⟩
  · rintro ⟨rfl, hdirectory⟩
    exact ⟨hne, hresolve, hdirectory⟩

theorem isCandidate_iff {c : Path} : IsCandidate t root entry c ↔
    t.isDirectory top.toPath.toText = .ok true ∧ (c = top.toPath ∨ ∃ name ∈ t.names top,
      c = top.toPath.child name ∧ t.isDirectory (top.toPath.child name).toText = .ok true) := by
  constructor
  · intro hc
    cases hc with
    | top htop =>
        obtain ⟨rfl, hdirectory⟩ := (isTop_iff hne hresolve).1 htop
        exact ⟨hdirectory, .inl rfl⟩
    | @within _ name htop hname hwithin =>
        obtain ⟨rfl, hdirectory⟩ := (isTop_iff hne hresolve).1 htop
        exact ⟨hdirectory, .inr ⟨name, hname, rfl, hwithin⟩⟩
  · rintro ⟨hdirectory, rfl | ⟨name, hname, rfl, hwithin⟩⟩
    · exact .top ⟨hne, hresolve, hdirectory⟩
    · exact .within ⟨hne, hresolve, hdirectory⟩ hname hwithin

theorem entryTold_iff : EntryTold t root entry ↔
    ∃ answer, t.isDirectory top.toPath.toText = .ok answer ∧ (answer = true →
      ∀ name ∈ t.names top, ∃ told, t.isDirectory (top.toPath.child name).toText = .ok told) := by
  constructor
  · intro htold
    obtain ⟨answer, hanswer⟩ := htold.isDirectory top hresolve
    refine ⟨answer, hanswer, ?_⟩
    rintro rfl
    exact htold.within top ⟨hne, hresolve, hanswer⟩
  · rintro ⟨answer, hanswer, hwithin⟩
    refine ⟨⟨top, hresolve⟩, fun top' h => ?_, fun top' h => ?_⟩
    · rw [Except.ok.inj (h.symm.trans hresolve)]
      exact ⟨answer, hanswer⟩
    · obtain ⟨rfl, hdirectory⟩ := (isTop_iff hne hresolve).1 h
      exact hwithin (Except.ok.inj (hanswer.symm.trans hdirectory))

theorem missing?_eq {answer : Bool} (hanswer : t.isDirectory top.toPath.toText = .ok answer) :
    missing? t root entry =
      if answer then none
      else some (.warn ("Skipping missing top directory: " ++ top.toPath.toText)) := by
  rw [missing?, if_neg hne, hresolve]
  dsimp only
  rw [hanswer]
  cases answer <;> rfl

end

/-- An entry makes the search look into its candidates. -/
theorem of_candidates_eq_ok {directories : List Path}
    (h : candidates t root entry = .ok (directories, log)) :
    (entry.trim ≠ [] → EntryTold t root entry) ∧ log = (missing? t root entry).toList ∧
      ∀ c, c ∈ directories ↔ IsCandidate t root entry c := by
  by_cases hnil : entry.trim = []
  · unfold candidates at h
    rw [hnil] at h
    obtain ⟨rfl, rfl⟩ := Prod.mk.inj (Except.ok.inj h)
    refine ⟨fun hne => absurd hnil hne, by rw [missing?, if_pos hnil]; rfl, fun c => ?_⟩
    exact iff_of_false List.not_mem_nil fun hc => hc.ne_nil hnil
  · rw [candidates_of_ne_nil hnil] at h
    obtain ⟨top, hresolve, h⟩ := Failure.bind_eq_ok_iff.1 h
    obtain ⟨answer, hanswer, h⟩ := Failure.bind_eq_ok_iff.1 h
    rw [entryTold_iff hnil hresolve, missing?_eq hnil hresolve hanswer]
    cases answer with
    | false =>
        obtain ⟨rfl, rfl⟩ := Prod.mk.inj (Except.ok.inj h)
        refine ⟨fun _ => ⟨false, hanswer, nofun⟩, rfl, fun c => ?_⟩
        rw [isCandidate_iff hnil hresolve, hanswer]
        exact iff_of_false List.not_mem_nil fun hc => nomatch hc.1
    | true =>
        obtain ⟨within, hwithin, h⟩ := Failure.bind_eq_ok_iff.1 h
        obtain ⟨rfl, rfl⟩ := Prod.mk.inj (Except.ok.inj h)
        obtain ⟨more, hmore, rfl⟩ := Failure.map_eq_ok_iff.1 hwithin
        obtain ⟨htold, hmem⟩ := of_directoriesIn_eq_ok hmore
        refine ⟨fun _ => ⟨true, hanswer, fun _ => htold⟩, rfl, fun c => ?_⟩
        rw [isCandidate_iff hnil hresolve, List.mem_cons, hmem, and_iff_right hanswer]

theorem exists_candidates (h : entry.trim ≠ [] → EntryTold t root entry) :
    ∃ found, candidates t root entry = .ok found := by
  by_cases hnil : entry.trim = []
  · exact ⟨([], []), by rw [candidates, hnil]⟩
  · obtain ⟨top, hresolve⟩ := (h hnil).resolve
    obtain ⟨answer, hanswer, htold⟩ := (entryTold_iff hnil hresolve).1 (h hnil)
    rw [candidates_of_ne_nil hnil, hresolve]
    cases answer with
    | false => exact ⟨_, by simp only [bind, Except.bind, hanswer]; rfl⟩
    | true =>
        obtain ⟨more, hmore⟩ := exists_directoriesIn (htold rfl)
        have hwithin : candidatesIn t top = .ok (top.toPath :: more) := by
          rw [candidatesIn, hmore]
          rfl
        exact ⟨_, by simp only [bind, Except.bind, hanswer, hwithin]; rfl⟩

/-! ### All directories -/

theorem mem_keys_add {found : Found} {m : RepositoryModule} {identity : Text} :
    identity ∈ KeyedList.keys (found.add m) ↔
      identity ∈ KeyedList.keys found ∨ identity = m.identity := by
  unfold Found.add
  split
  · next hknown =>
      obtain ⟨other, hother⟩ := Option.isSome_iff_exists.1 hknown
      have hmem : m.identity ∈ KeyedList.keys found :=
        List.mem_map.2 ⟨_, KeyedList.mem_of_get?_eq_some hother, rfl⟩
      exact ⟨.inl, fun h => h.elim id fun heq => heq ▸ hmem⟩
  · rw [KeyedList.keys, List.map_append, List.mem_append, List.map_singleton, List.mem_singleton]
    rfl

/-- The modules among directories are added by their identities; there is a warning about each
directory that cannot be told. -/
theorem exists_addModules (directories : List Path)
    (hidentity : ∀ c ∈ directories, ∃ identity, identityOf t root c = .ok identity)
    (found : Found) :
    ∃ found' log, addModules t root found directories = .ok (found', log) ∧
      (log = [] ↔ ∀ c ∈ directories, FilesTold t c) ∧
      ∀ identity, identity ∈ KeyedList.keys found' ↔ identity ∈ KeyedList.keys found ∨
        ∃ c ∈ directories, FilesTold t c ∧ HasModule t c ∧ identityOf t root c = .ok identity := by
  induction directories generalizing found with
  | nil => exact ⟨found, [], rfl, iff_of_true rfl nofun, fun _ => by simp⟩
  | cons c rest ih =>
      obtain ⟨⟨identity, hc⟩, hrest⟩ := List.forall_mem_cons.1 hidentity
      rw [addModules, List.forall_mem_cons]
      simp only [List.exists_mem_cons_iff]
      rcases ofDirectory_cases hc with ⟨htold, cause, path, target, hof⟩ |
        ⟨htold, hmodule, m, hof, rfl⟩ | ⟨htold, hmodule, hof⟩
      · obtain ⟨found', log, hadd, -, hkeys⟩ := ih hrest found
        rw [hof]
        dsimp only
        rw [hadd]
        refine ⟨_, _, rfl, iff_of_false (List.cons_ne_nil _ _) fun h => htold h.1, fun other => ?_⟩
        rw [hkeys, or_iff_right (a := FilesTold t c ∧ _) fun h => htold h.1]
      · obtain ⟨found', log, hadd, hlog, hkeys⟩ := ih hrest (found.add m)
        rw [hof]
        refine ⟨_, _, hadd, by rw [hlog, and_iff_right htold], fun other => ?_⟩
        rw [hkeys, mem_keys_add, or_assoc, hc]
        simp [htold, hmodule, eq_comm]
      · obtain ⟨found', log, hadd, hlog, hkeys⟩ := ih hrest found
        rw [hof]
        refine ⟨_, _, hadd, by rw [hlog, and_iff_right htold], fun other => ?_⟩
        rw [hkeys, or_iff_right (a := FilesTold t c ∧ _) fun h => hmodule h.2.1]

/-- What the entries of the top directories add to what was found: their modules, and warnings. -/
structure Adds (t : Tree) (root : Path) (filter : Option Text) (tops : List Text)
    (found found' : Found) (log : Log) : Prop where
  mem_keys (identity : Text) : identity ∈ KeyedList.keys found' ↔ identity ∈ KeyedList.keys found ∨
    ∃ entry ∈ tops, ∃ c, IsCandidate t root entry c ∧ passes filter c = true ∧ FilesTold t c ∧
      HasModule t c ∧ identityOf t root c = .ok identity
  /-- There is a warning about each entry that names no directory. -/
  length_le : (tops.filterMap (missing? t root)).length ≤ log.length
  /-- There are others just if some directory cannot be told. -/
  log_eq_iff : log = tops.filterMap (missing? t root) ↔
    ∀ entry ∈ tops, ∀ c, IsCandidate t root entry c → passes filter c = true → FilesTold t c

/-- Where it can be told which directories the entries stand for, these are looked into. -/
theorem exists_addTops (filter : Option Text)
    (hidentity : ∀ entry c, IsCandidate t root entry c →
      ∃ identity, identityOf t root c = .ok identity)
    (htold : ∀ entry ∈ tops, entry.trim ≠ [] → EntryTold t root entry) (found : Found) :
    ∃ found' log, addTops t root filter found tops = .ok (found', log) ∧
      Adds t root filter tops found found' log := by
  induction tops generalizing found with
  | nil =>
      exact ⟨found, [], rfl, fun _ => by simp, Nat.le_refl _, iff_of_true rfl nofun⟩
  | cons entry rest ih =>
      obtain ⟨hentry, hrest⟩ := List.forall_mem_cons.1 htold
      obtain ⟨⟨directories, log₁⟩, hcandidates⟩ := exists_candidates hentry
      obtain ⟨-, hlog₁, hmem⟩ := of_candidates_eq_ok hcandidates
      obtain ⟨found₁, log₂, hmodules, hlog₂, hkeys⟩ := exists_addModules
        (directories.filter (passes filter))
        (fun c hc => hidentity entry c ((hmem c).1 (List.mem_of_mem_filter hc))) found
      obtain ⟨found₂, log₃, htops, hadds⟩ := ih hrest found₁
      have hwarnings : (entry :: rest).filterMap (missing? t root) =
          (missing? t root entry).toList ++ rest.filterMap (missing? t root) := by
        rw [List.filterMap_cons]
        cases missing? t root entry <;> rfl
      refine ⟨found₂, log₁ ++ log₂ ++ log₃, ?_, fun identity => ?_, ?_, ?_⟩
      · rw [addTops, hcandidates]
        simp only [bind, Except.bind, hmodules, htops]
        rfl
      · rw [hadds.mem_keys, hkeys, or_assoc, List.exists_mem_cons_iff]
        refine or_congr_right (or_congr_left ?_)
        simp only [List.mem_filter, hmem, and_assoc]
      · have hle := hadds.length_le
        rw [hwarnings, hlog₁, List.length_append, List.length_append, List.length_append]
        omega
      · rw [hwarnings, hlog₁, List.append_assoc, List.append_cancel_left_eq, List.forall_mem_cons,
          ← hadds.log_eq_iff]
        have hfirst : (∀ c, IsCandidate t root entry c → passes filter c = true → FilesTold t c) ↔
            log₂ = [] := by
          rw [hlog₂]
          simp only [List.mem_filter, hmem, and_imp]
        rw [hfirst]
        constructor
        · intro heq
          -- there are no fewer warnings about the other entries
          have hlength := congrArg List.length heq
          have hle := hadds.length_le
          rw [List.length_append] at hlength
          have hnil : log₂ = [] := List.eq_nil_of_length_eq_zero (by omega)
          rw [hnil] at heq
          exact ⟨hnil, heq⟩
        · rintro ⟨hnil, heq⟩
          rw [hnil, heq]
          rfl

/-- A search that ends can tell which directories the entries stand for. -/
theorem entryTold_of_addTops (h : addTops t root filter found tops = .ok (found', log)) :
    ∀ entry ∈ tops, entry.trim ≠ [] → EntryTold t root entry := by
  induction tops generalizing found log with
  | nil => exact nofun
  | cons entry rest ih =>
      obtain ⟨⟨directories, log₁⟩, hcandidates, h⟩ := Failure.bind_eq_ok_iff.1 h
      obtain ⟨⟨found₂, log₂⟩, -, h⟩ := Failure.bind_eq_ok_iff.1 h
      obtain ⟨⟨found₃, log₃⟩, hrest, h⟩ := Failure.bind_eq_ok_iff.1 h
      obtain ⟨rfl, -⟩ := Prod.mk.inj (Except.ok.inj h)
      exact List.forall_mem_cons.2 ⟨(of_candidates_eq_ok hcandidates).1, ih hrest⟩

/-! ### A whole search -/

/-- It can be told which directories an entry stands for and, if a filter lets them pass, which of
the files of a module they have. -/
structure IsTold (t : Tree) (root : Path) (filter : Option Text) (entry : Text) : Prop
    extends EntryTold t root entry where
  files : ∀ c, IsCandidate t root entry c → passes filter c = true → FilesTold t c

/-- A search finds the modules that the entries lead to, each of them once, and the log names the
entries that stand for no directory. -/
structure FindsExactly (t : Tree) (root : Path) (filter : Option Text) (tops : List Text)
    (modules : List RepositoryModule) (log : Log) : Prop where
  discover : discover t root tops filter = .ok (modules, log)
  ascending : (modules.map (·.identity)).Pairwise fun a b => a.lt b = true
  mem_identities (identity : Text) : identity ∈ modules.map (·.identity) ↔
    ∃ k, IsReached t root filter tops k ∧ identity = identityAt t root k
  /-- Different directories are different modules. -/
  once {k k' : Location} : IsReached t root filter tops k → IsReached t root filter tops k' →
    identityAt t root k = identityAt t root k' → k = k'
  log : log = tops.filterMap (missing? t root)
  /-- The order of the entries does not matter, nor how often one of them is given. -/
  rearranged (tops' : List Text) : (∀ entry, entry ∈ tops' ↔ entry ∈ tops) →
    ∃ modules' log', RepositoryModule.discover t root tops' filter = .ok (modules', log') ∧
      modules'.map (·.identity) = modules.map (·.identity)

section

variable (ht : t.IsSound) (hloops : t.HasNoLoops) (hroot : root.IsNormal)
  (hfollowed : t.resolve root ≠ .error .nestedTooDeep)

include ht hloops hroot hfollowed

theorem IsCandidate.identityOf_eq_iff {c : Path} (hc : IsCandidate t root entry c)
    (identity : Text) :
    identityOf t root c = .ok identity ↔
      ∃ k, t.place .target c.toText = .ok (.found k) ∧ identity = identityAt t root k := by
  obtain ⟨hnormal, k, hplace, hk⟩ := hc.exists_place ht hroot
  rw [identityOf_of_place ht hloops hroot hfollowed hnormal hplace hk]
  constructor
  · exact fun h => ⟨k, hplace, (Except.ok.inj h).symm⟩
  · rintro ⟨k', hplace', rfl⟩
    rw [Tree.Place.found.inj (Except.ok.inj (hplace.symm.trans hplace'))]

/-- Where the files of all candidates can be told, the identities of the modules among them are
those of the locations that the entries lead to. -/
theorem exists_identityOf_iff
    (hfiles : ∀ entry ∈ tops, ∀ c, IsCandidate t root entry c → passes filter c = true →
      FilesTold t c) (identity : Text) :
    (∃ entry ∈ tops, ∃ c, IsCandidate t root entry c ∧ passes filter c = true ∧ FilesTold t c ∧
        HasModule t c ∧ identityOf t root c = .ok identity) ↔
      ∃ k, IsReached t root filter tops k ∧ identity = identityAt t root k := by
  constructor
  · rintro ⟨entry, hentry, c, hc, hpasses, -, hmodule, hidentity⟩
    obtain ⟨k, hplace, rfl⟩ := (hc.identityOf_eq_iff ht hloops hroot hfollowed _).1 hidentity
    exact ⟨k, ⟨entry, hentry, c, hc, hpasses, hmodule, hplace⟩, rfl⟩
  · rintro ⟨k, ⟨entry, hentry, c, hc, hpasses, hmodule, hplace⟩, rfl⟩
    exact ⟨entry, hentry, c, hc, hpasses, hfiles entry hentry c hc hpasses, hmodule,
      (hc.identityOf_eq_iff ht hloops hroot hfollowed _).2 ⟨k, hplace, rfl⟩⟩

/-- A search that can tell what the entries stand for finds the modules of these directories. -/
theorem exists_discover (filter : Option Text)
    (htold : ∀ entry ∈ tops, entry.trim ≠ [] → EntryTold t root entry) :
    ∃ modules log, discover t root tops filter = .ok (modules, log) ∧
      (log = tops.filterMap (missing? t root) ↔
        ∀ entry ∈ tops, ∀ c, IsCandidate t root entry c → passes filter c = true → FilesTold t c) ∧
      ∀ identity, identity ∈ modules.map (·.identity) ↔ ∃ entry ∈ tops, ∃ c,
        IsCandidate t root entry c ∧ passes filter c = true ∧ FilesTold t c ∧ HasModule t c ∧
          identityOf t root c = .ok identity := by
  have hidentity : ∀ entry c, IsCandidate t root entry c →
      ∃ identity, identityOf t root c = .ok identity := by
    intro entry c hc
    obtain ⟨-, k, hplace, -⟩ := hc.exists_place ht hroot
    exact ⟨_, (hc.identityOf_eq_iff ht hloops hroot hfollowed _).2 ⟨k, hplace, rfl⟩⟩
  obtain ⟨found, log, hadd, hadds⟩ := exists_addTops filter hidentity htold []
  refine ⟨(Text.sortBy Prod.fst found).map Prod.snd, log, by rw [discover, hadd]; rfl,
    hadds.log_eq_iff, fun identity => ?_⟩
  have hperm := (Text.perm_sortBy Prod.fst found).map Prod.fst
  rw [(AreFound.nil.addTops hadd).map_identity, hperm.mem_iff]
  exact (hadds.mem_keys identity).trans (or_iff_right List.not_mem_nil)

/-- A search that warns of nothing else can tell everything. -/
theorem isTold_of_discover_eq_ok {modules : List RepositoryModule}
    (h : discover t root tops filter = .ok (modules, log))
    (hlog : log = tops.filterMap (missing? t root)) :
    ∀ entry ∈ tops, entry.trim ≠ [] → IsTold t root filter entry := by
  intro entry hentry hne
  obtain ⟨⟨found, log'⟩, hadd, -⟩ := Failure.map_eq_ok_iff.1 h
  have htold := entryTold_of_addTops hadd
  obtain ⟨modules', log', hdiscover, hlog', -⟩ :=
    exists_discover ht hloops hroot hfollowed filter htold
  obtain ⟨rfl, rfl⟩ := Prod.mk.inj (Except.ok.inj (hdiscover.symm.trans h))
  exact ⟨htold entry hentry hne, hlog'.1 hlog entry hentry⟩

/-- **A search finds each module once, in whatever order the top directories are given,** just if
it can be told what the entries stand for and what files their directories have. No link leads back
to itself, and the root can be followed. -/
theorem findsExactly_discover_iff :
    (∃ modules log, FindsExactly t root filter tops modules log) ↔
      ∀ entry ∈ tops, entry.trim ≠ [] → IsTold t root filter entry := by
  constructor
  · rintro ⟨modules, log, hfinds⟩
    exact isTold_of_discover_eq_ok ht hloops hroot hfollowed hfinds.discover hfinds.log
  · intro htold
    have hfiles : ∀ entry ∈ tops, ∀ c, IsCandidate t root entry c → passes filter c = true →
        FilesTold t c := fun entry hentry c hc => (htold entry hentry hc.ne_nil).files c hc
    have hentries : ∀ entry ∈ tops, entry.trim ≠ [] → EntryTold t root entry :=
      fun entry hentry hne => (htold entry hentry hne).toEntryTold
    obtain ⟨modules, log, hdiscover, hlog, hmem⟩ :=
      exists_discover ht hloops hroot hfollowed filter hentries
    refine ⟨modules, log, hdiscover, (of_discover_eq_ok hdiscover).1, fun identity => ?_,
      fun {_ _} hk hk' => identityAt_inj (hk.isNormal ht hroot) (hk'.isNormal ht hroot),
      hlog.2 hfiles, fun tops' hsame => ?_⟩
    · rw [hmem, exists_identityOf_iff ht hloops hroot hfollowed hfiles]
    · obtain ⟨modules', log', hdiscover', -, hmem'⟩ := exists_discover ht hloops hroot hfollowed
        filter fun entry hentry => hentries entry ((hsame entry).1 hentry)
      refine ⟨modules', log', hdiscover', ?_⟩
      refine Text.eq_of_pairwise_lt (of_discover_eq_ok hdiscover').1 (of_discover_eq_ok hdiscover).1
        fun identity => ?_
      rw [hmem, hmem']
      simp only [hsame]

end

/-- A repository with one module and a link to it. -/
def linkedTree : Tree :=
  { here := [Text.ofString "r"]
    entries :=
      [([Text.ofString "r"], .directory),
        ([Text.ofString "r", Text.ofString "m"], .directory),
        ([Text.ofString "r", Text.ofString "m", Text.ofString "pom.xml"], .file []),
        ([Text.ofString "n"], .link "r/./m")] }

/-- Entries that lead to it in several ways, and one that leads nowhere. -/
def linkedTops : List Text := [".", " ../n ", "", "m/../../r", "m", "o", "m"]

theorem findsExactly_discover_iff_sample :
    linkedTree.IsSound ∧ linkedTree.HasNoLoops ∧ (Path.ofText ".").IsNormal ∧
      linkedTree.resolve (Path.ofText ".") ≠ .error .nestedTooDeep ∧
      (∀ entry ∈ linkedTops, entry.trim ≠ [] → IsTold linkedTree (Path.ofText ".") none entry) ∧
      ∃ modules log, FindsExactly linkedTree (Path.ofText ".") none linkedTops modules log ∧
        modules.map (·.identity) = [Text.ofString "m"] ∧
        log = [.warn "Skipping missing top directory: /r/o"] := by
  have ht : linkedTree.IsSound := by decide +kernel
  have hloops : linkedTree.HasNoLoops := .of_entries (by decide +kernel)
  have hroot : (Path.ofText ".").IsNormal := Path.isNormal_ofText _
  have hresolve : linkedTree.resolve (Path.ofText ".") = .ok [Text.ofString "r"] :=
    Failure.eq_ok_of_toOption (by decide +kernel)
  have hfollowed : linkedTree.resolve (Path.ofText ".") ≠ .error .nestedTooDeep := by
    rw [hresolve]
    nofun
  have hdiscover : discover linkedTree (Path.ofText ".") linkedTops none =
      .ok ([{ identity := "m", root := "/r/m", sourceRoot := "/r/m/src/main/java" }],
        [.warn "Skipping missing top directory: /r/o"]) :=
    Failure.eq_ok_of_toOption (by decide +kernel)
  have htold : ∀ entry ∈ linkedTops, entry.trim ≠ [] →
      IsTold linkedTree (Path.ofText ".") none entry :=
    isTold_of_discover_eq_ok ht hloops hroot hfollowed hdiscover (by decide +kernel)
  obtain ⟨modules, log, hfinds⟩ := (findsExactly_discover_iff ht hloops hroot hfollowed).2 htold
  obtain ⟨rfl, rfl⟩ := Prod.mk.inj (Except.ok.inj (hfinds.discover.symm.trans hdiscover))
  exact ⟨ht, hloops, hroot, hfollowed, htold, _, _, hfinds, rfl, rfl⟩

/-- An entry that stands for no directory, since its name is too long for one, ends the search with
a failure and without a warning. -/
theorem overlong_entry_ends_search :
    linkedTree.IsSound ∧ linkedTree.HasNoLoops ∧
      (∃ top, linkedTree.resolve
        ((Path.ofText ".").join (Path.ofText Tree.overlongName)) = .ok top ∧
        linkedTree.entry? top = none) ∧
      ∀ modules log,
        discover linkedTree (Path.ofText ".") ["m", Tree.overlongName] none ≠
          .ok (modules, log) := by
  refine ⟨by decide +kernel, .of_entries (by decide +kernel),
    ⟨[Text.ofString "r", Tree.overlongName], Failure.eq_ok_of_toOption (by decide +kernel),
      by decide +kernel⟩, fun modules log h => ?_⟩
  have hnone :
      (discover linkedTree (Path.ofText ".") ["m", Tree.overlongName] none).toOption = none := by
    decide +kernel
  rw [h] at hnone
  cases hnone

end BundleAudit.RepositoryModule
