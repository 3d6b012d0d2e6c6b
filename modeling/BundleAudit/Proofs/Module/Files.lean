import BundleAudit.Module.Scan
import BundleAudit.Proofs.Files.Path
import BundleAudit.Proofs.Text.Order

/-!
# BundleAudit.Proofs.Module.Files

**The files of a module, where they stand, and in which order.** Collecting gives each
file the names that lead to it from the source root (`StandsAt`). All but the last
name are its package, so the files of one package are those of one directory, and they
come in the order of their names (`pairwise_collectFiles`).
-/

namespace BundleAudit

/-- The name of a file. -/
def ModuleFile.name (f : ModuleFile) : Text := (Path.ofText f.path).name

/-- Every entry stands at names that a path can have. -/
def Tree.IsNamed (t : Tree) : Prop := ∀ e ∈ t.entries, ∀ name ∈ e.1, Path.IsName name

namespace Tree

theorem isOverlong_eq_false_iff {path : Text} :
    isOverlong path = false ↔ byteLength path ≤ pathLimit := by
  rw [isOverlong, decide_eq_false_iff_not, Nat.not_lt]

theorem of_within?_eq_some {directory l : Location} {names : List Text}
    (h : within? directory l = some names) : names ≠ [] ∧ directory ++ names = l := by
  unfold within? at h
  split at h
  · next hprefix =>
      rw [← Option.some.inj h]
      exact ⟨List.cons_ne_nil _ _, List.isPrefixOf?_eq_some_iff_append_eq.1 hprefix⟩
  · cases h

theorem within?_eq_some_iff {directory l : Location} {names : List Text} :
    within? directory l = some names ↔ names ≠ [] ∧ directory ++ names = l := by
  refine ⟨of_within?_eq_some, fun ⟨hne, heq⟩ => ?_⟩
  obtain ⟨name, rest, rfl⟩ := List.exists_cons_of_ne_nil hne
  rw [within?, List.isPrefixOf?_eq_some_iff_append_eq.2 heq]

/-- What stands within a directory are the entries to which more names lead. -/
theorem mem_entriesWithin_iff {t : Tree} {directory : Location} {names : List Text} {e : Entry} :
    (names, e) ∈ t.entriesWithin directory ↔ names ≠ [] ∧ (directory ++ names, e) ∈ t.entries := by
  rw [entriesWithin, List.mem_mergeSort, List.mem_filterMap]
  constructor
  · rintro ⟨⟨l, e'⟩, hmem, hwithin⟩
    obtain ⟨names', hnames, heq⟩ := Option.map_eq_some_iff.1 hwithin
    obtain ⟨rfl, rfl⟩ := Prod.mk.inj heq
    obtain ⟨hne, rfl⟩ := within?_eq_some_iff.1 hnames
    exact ⟨hne, hmem⟩
  · rintro ⟨hne, hmem⟩
    refine ⟨_, hmem, ?_⟩
    dsimp only
    rw [within?_eq_some_iff.2 ⟨hne, rfl⟩]
    rfl

/-- Files are found at names that a path can have. -/
theorem names_of_mem_filesWithin {t : Tree} (ht : t.IsNamed) {directory : Location}
    {names : List Text} (h : names ∈ t.filesWithin directory) :
    names ≠ [] ∧ ∀ name ∈ names, Path.IsName name := by
  obtain ⟨⟨l, e⟩, hmem, hfile⟩ := List.mem_filterMap.1 ((List.mergeSort_perm _ _).mem_iff.1 h)
  cases e with
  | directory => cases hfile
  | link target => cases hfile
  | file bytes =>
      obtain ⟨hne, hwithin⟩ := of_within?_eq_some hfile
      exact ⟨hne, fun name hname => ht _ hmem name (hwithin ▸ List.mem_append_right _ hname)⟩

theorem pairwise_filesWithin (t : Tree) (directory : Location) :
    (t.filesWithin directory).Pairwise fun a b => Text.lexLe Text.le a b = true :=
  @List.pairwise_mergeSort _ (Text.lexLe Text.le)
    (fun _ _ _ => Text.lexLe_trans (fun _ _ => Text.le_antisymm) fun _ _ _ => Text.le_trans)
    (Text.lexLe_total Text.le_total) _

end Tree

namespace RepositoryModule

/-! ### Where a file stands -/

/-- A file stands at a name in the directory to which other names lead from the source root, and its
path is not too long. -/
structure StandsAt (s : Settings) (sourceRoot : Path) (f : ModuleFile) (around : List Text)
    (name : Text) : Prop where
  isName : ∀ n ∈ around ++ [name], Path.IsName n
  package : f.package = List.intercalate [Code.slash] around
  path : f.path = Path.toText ⟨sourceRoot.root, sourceRoot.names ++ around ++ [name]⟩
  kind : FileKind.ofName? s name = some f.kind
  limit : Tree.byteLength f.path ≤ Tree.pathLimit

variable {s : Settings} {sourceRoot : Path} {f g : ModuleFile} {around around' : List Text}
  {name name' : Text}

theorem standsAt_of_file?_eq_some (hnames : ∀ n ∈ around ++ [name], Path.IsName n)
    (h : file? s sourceRoot (around ++ [name]) = some f) : StandsAt s sourceRoot f around name := by
  unfold file? at h
  split at h
  · cases h
  · next hlimit =>
      obtain ⟨kind, hkind, rfl⟩ := Option.map_eq_some_iff.1 h
      rw [List.getLastD_concat] at hkind
      refine ⟨hnames, ?_, ?_, hkind, ?_⟩
      · rw [List.dropLast_concat]
      · rw [pathBelow, Path.join_relative, List.append_assoc]
      · exact Tree.isOverlong_eq_false_iff.1 (Bool.eq_false_iff.2 hlimit)

theorem StandsAt.isName_around (h : StandsAt s sourceRoot f around name) :
    ∀ n ∈ around, Path.IsName n := fun n hn => h.isName n (List.mem_append_left _ hn)

theorem StandsAt.isNormal (h : StandsAt s sourceRoot f around name) (hroot : sourceRoot.IsNormal) :
    Path.IsNormal ⟨sourceRoot.root, sourceRoot.names ++ around ++ [name]⟩ := by
  rw [List.append_assoc]
  exact Path.isNormal_join hroot h.isName

theorem StandsAt.ofText_path (h : StandsAt s sourceRoot f around name)
    (hroot : sourceRoot.IsNormal) :
    Path.ofText f.path = ⟨sourceRoot.root, sourceRoot.names ++ around ++ [name]⟩ := by
  rw [h.path, Path.ofText_toText (h.isNormal hroot)]

theorem StandsAt.toText_path (h : StandsAt s sourceRoot f around name)
    (hroot : sourceRoot.IsNormal) : (Path.ofText f.path).toText = f.path := by
  rw [h.ofText_path hroot, h.path]

theorem StandsAt.name_eq (h : StandsAt s sourceRoot f around name) (hroot : sourceRoot.IsNormal) :
    f.name = name := by
  rw [ModuleFile.name, h.ofText_path hroot, Path.name, List.getLastD_concat]

/-- The package of a file tells in which directory it stands. -/
theorem StandsAt.around_eq (h : StandsAt s sourceRoot f around name)
    (h' : StandsAt s sourceRoot g around' name') (hpackage : f.package = g.package) :
    around = around' := by
  rw [h.package, h'.package] at hpackage
  exact Path.intercalate_inj h.isName_around h'.isName_around hpackage

/-! ### Collecting -/

theorem closed?_directory_eq_none_iff {depth : Nat} {names : List Text} :
    closed? depth sourceRoot names .directory = none ↔
      names.length ≤ depth ∧ Tree.byteLength (pathBelow sourceRoot names) ≤ Tree.pathLimit := by
  rw [closed?, ← Tree.isOverlong_eq_false_iff]
  split
  · next hdeep =>
      exact iff_of_false (Option.some_ne_none _) fun h => absurd h.1 (Nat.not_le.2 hdeep)
  · next hdeep =>
      rw [Nat.not_lt] at hdeep
      cases Tree.isOverlong (pathBelow sourceRoot names) <;> simp [hdeep]

/-- It is possible to look into all directories below a source root just if none of them is too far
down or has a path that is too long. -/
theorem closedBelow?_eq_none_iff {t : Tree} {l : Location} {depth : Nat} :
    closedBelow? depth sourceRoot (t.entriesWithin l) = none ↔
      ∀ names, names ≠ [] → (l ++ names, Entry.directory) ∈ t.entries → names.length ≤ depth ∧
        Tree.byteLength (pathBelow sourceRoot names) ≤ Tree.pathLimit := by
  rw [closedBelow?, List.findSome?_eq_none_iff]
  constructor
  · intro h names hne hmem
    exact closed?_directory_eq_none_iff.1
      (h (names, .directory) (Tree.mem_entriesWithin_iff.2 ⟨hne, hmem⟩))
  · intro h below hmem
    obtain ⟨names, e⟩ := below
    obtain ⟨hne, hmem⟩ := Tree.mem_entriesWithin_iff.1 hmem
    cases e with
    | directory => exact closed?_directory_eq_none_iff.2 (h names hne hmem)
    | file bytes => rfl
    | link target => rfl

/-- The files below a source root that is a directory, if it is possible to look into all within
it. -/
theorem filesBelow_eq {t : Tree} {l : Location} (h : t.isDirectory sourceRoot.toText = .ok true)
    (hplace : t.place .target sourceRoot.toText = .ok (.found l))
    (hopen : closedBelow? t.depths.directories sourceRoot (t.entriesWithin l) = none) :
    filesBelow s t sourceRoot = .ok ((t.filesWithin l).filterMap (file? s sourceRoot),
      skippedBelow t sourceRoot ((t.entriesWithin l).map Prod.fst)) := by
  rw [filesBelow, h]
  simp only [bind, Except.bind, if_true, hplace, hopen]
  rfl

theorem of_collectFiles_eq_ok {t : Tree} {m m' : RepositoryModule} {log : Log}
    (h : m.collectFiles s t = .ok (m', log)) :
    m'.files = [] ∨ ∃ l, m'.files =
      (t.filesWithin l).filterMap (file? s (Path.ofText m'.sourceRoot)) := by
  unfold collectFiles at h
  cases hbelow : filesBelow s t (Path.ofText m.sourceRoot) with
  | error failure => rw [hbelow] at h; cases h
  | ok below =>
      rw [hbelow] at h
      obtain ⟨rfl, -⟩ := Prod.mk.inj (Except.ok.inj h)
      unfold filesBelow at hbelow
      cases hdirectory : t.isDirectory (Path.ofText m.sourceRoot).toText with
      | error failure => rw [hdirectory] at hbelow; cases hbelow
      | ok isDirectory =>
          rw [hdirectory] at hbelow
          cases isDirectory with
          | false => rw [← Except.ok.inj hbelow]; exact .inl rfl
          | true =>
              simp only [bind, Except.bind, if_true] at hbelow
              split at hbelow
              · next l _ =>
                  split at hbelow
                  · cases hbelow
                  · rw [← Except.ok.inj hbelow]; exact .inr ⟨l, rfl⟩
              · rw [← Except.ok.inj hbelow]; exact .inl rfl

/-- Each file that is collected stands somewhere below the source root, at names of a file in the
tree. -/
theorem standsAt_of_collectFiles {t : Tree} (ht : t.IsNamed) {m m' : RepositoryModule} {log : Log}
    (h : m.collectFiles s t = .ok (m', log)) (hf : f ∈ m'.files) :
    ∃ around name, StandsAt s (Path.ofText m'.sourceRoot) f around name ∧
      ∃ l, around ++ [name] ∈ t.filesWithin l := by
  rcases of_collectFiles_eq_ok h with hnone | ⟨l, hfiles⟩
  · rw [hnone] at hf
    cases hf
  · rw [hfiles] at hf
    obtain ⟨names, hnames, hfile⟩ := List.mem_filterMap.1 hf
    obtain ⟨hne, hproper⟩ := Tree.names_of_mem_filesWithin ht hnames
    obtain ⟨around, name, rfl⟩ := (List.eq_nil_or_concat' names).resolve_left hne
    exact ⟨around, name, standsAt_of_file?_eq_some hproper hfile, l, hnames⟩

/-- **The files of a package come in the order of their names.** -/
theorem pairwise_collectFiles {t : Tree} (ht : t.IsNamed) {m m' : RepositoryModule} {log : Log}
    (h : m.collectFiles s t = .ok (m', log)) :
    m'.files.Pairwise fun f g => f.package = g.package → f.name.le g.name = true := by
  rcases of_collectFiles_eq_ok h with hnone | ⟨l, hfiles⟩
  · rw [hnone]
    exact .nil
  · rw [hfiles]
    have hroot := Path.isNormal_ofText m'.sourceRoot
    refine List.pairwise_filterMap.2 ((Tree.pairwise_filesWithin t l).imp_of_mem ?_)
    intro a b ha hb hle f hf g hg hpackage
    obtain ⟨hne, hproper⟩ := Tree.names_of_mem_filesWithin ht ha
    obtain ⟨hne', hproper'⟩ := Tree.names_of_mem_filesWithin ht hb
    obtain ⟨around, name, rfl⟩ := (List.eq_nil_or_concat' a).resolve_left hne
    obtain ⟨around', name', rfl⟩ := (List.eq_nil_or_concat' b).resolve_left hne'
    have hstands := standsAt_of_file?_eq_some hproper hf
    have hstands' := standsAt_of_file?_eq_some hproper' hg
    -- files of one package differ in their last names only
    obtain rfl := hstands.around_eq hstands' hpackage
    rw [Text.lexLe_append_left] at hle
    rw [hstands.name_eq hroot, hstands'.name_eq hroot]
    exact Text.le_of_lexLe_singleton hle

end RepositoryModule

end BundleAudit
