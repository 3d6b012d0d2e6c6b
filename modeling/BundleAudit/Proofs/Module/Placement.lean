import BundleAudit.Proofs.Files.Way
import BundleAudit.Proofs.Module.Collection
import BundleAudit.Proofs.Module.Generation

/-!
# BundleAudit.Proofs.Module.Placement

**Where a translation goes is decided by the directory.** The files of a module are those
that stand below its source root, if their paths are not too long (`mem_filesAt_iff`),
and all of them can be read (`exists_read`). So the name under which the translation of
a package is written depends on nothing but the names in its directory
(`exists_isNameAt`).
-/

namespace BundleAudit

instance (all : Bool) : Settings.NamesCatalogs (.ofBundles all) :=
  ⟨isFileSuffix_standard, by cases all <;> decide⟩

namespace RepositoryModule

variable {s : Settings} {t : Tree} {m m' : RepositoryModule} {l : Location} {f : ModuleFile}
  {log : Log}

/-! ### The source root -/

/-- The source root of a module is a directory. -/
structure IsRootedAt (t : Tree) (m : RepositoryModule) (l : Location) : Prop where
  isPath : Tree.notAPath? (Path.ofText m.sourceRoot).toText = none
  place : t.place .target (Path.ofText m.sourceRoot).toText = .ok (.found l)
  directory : t.entry? l = some .directory

theorem exists_isRootedAt (h : t.isDirectory (Path.ofText m.sourceRoot).toText = .ok true) :
    ∃ l, IsRootedAt t m l := by
  obtain ⟨hpath, l, hplace, hdirectory⟩ := Tree.isDirectory_iff.1 h
  exact ⟨l, hpath, hplace, hdirectory⟩

theorem IsRootedAt.isDirectory (h : IsRootedAt t m l) :
    t.isDirectory (Path.ofText m.sourceRoot).toText = .ok true :=
  Tree.isDirectory_iff.2 ⟨h.isPath, l, h.place, h.directory⟩

/-- The files below the source root of a module. -/
def filesAt (s : Settings) (t : Tree) (m : RepositoryModule) (l : Location) : List ModuleFile :=
  (t.filesWithin l).filterMap (file? s (Path.ofText m.sourceRoot))

/-- It is possible to look into all directories below the source root of a module: none of them is
nested too deep or has a path that is too long. -/
def IsOpen (t : Tree) (m : RepositoryModule) (l : Location) : Prop :=
  ∀ names, names ≠ [] → t.entry? (l ++ names) = some .directory →
    names.length ≤ t.depths.directories ∧
      Tree.byteLength (pathBelow (Path.ofText m.sourceRoot) names) ≤ Tree.pathLimit

/-- The paths of the files of a kind below the source root of a module are not too long. -/
def IsWithinLimit (s : Settings) (t : Tree) (m : RepositoryModule) : Prop :=
  ∀ l, IsRootedAt t m l → ∀ around name, t.HasFileAt (l ++ around ++ [name]) →
    (FileKind.ofName? s name).isSome →
      Tree.byteLength (pathBelow (Path.ofText m.sourceRoot) (around ++ [name])) ≤ Tree.pathLimit

theorem closedBelow?_eq_none_iff_isOpen (ht : t.IsSound) :
    closedBelow? t.depths.directories (Path.ofText m.sourceRoot) (t.entriesWithin l) = none ↔
      IsOpen t m l := by
  rw [closedBelow?_eq_none_iff]
  refine forall₂_congr fun names hne => ?_
  rw [ht.mem_entries_iff, and_iff_right (List.append_ne_nil_of_right_ne_nil l hne)]

/-- The files of a module are those below its source root, if that is a directory and it is
possible to look into all within it. -/
theorem IsRootedAt.exists_collectFiles (h : IsRootedAt t m l) (ht : t.IsSound)
    (hopen : IsOpen t m l) :
    ∃ log, m.collectFiles s t = .ok ({ m with files := filesAt s t m l }, log) := by
  rw [collectFiles, filesBelow_eq h.isDirectory h.place
    ((closedBelow?_eq_none_iff_isOpen ht).2 hopen)]
  exact ⟨_, rfl⟩

/-- Otherwise they cannot be collected. -/
theorem IsRootedAt.of_collectFiles (h : IsRootedAt t m l) (ht : t.IsSound)
    (hm : m.collectFiles s t = .ok (m', log)) :
    IsOpen t m l ∧ m' = { m with files := filesAt s t m l } := by
  have hopen : IsOpen t m l := by
    rw [← closedBelow?_eq_none_iff_isOpen ht]
    cases hclosed : closedBelow? t.depths.directories (Path.ofText m.sourceRoot)
        (t.entriesWithin l) with
    | none => rfl
    | some failure =>
        rw [collectFiles, filesBelow, h.isDirectory] at hm
        simp only [bind, Except.bind, if_true, h.place, hclosed] at hm
        cases hm
  obtain ⟨log', hfiles⟩ := h.exists_collectFiles (s := s) ht hopen
  exact ⟨hopen, (congrArg Prod.fst (Except.ok.inj (hfiles.symm.trans hm))).symm⟩

theorem exists_collectFiles_of_isDirectory_eq_false
    (h : t.isDirectory (Path.ofText m.sourceRoot).toText = .ok false) :
    ∃ log, m.collectFiles s t = .ok ({ m with files := [] }, log) := by
  rw [collectFiles, filesBelow, h]
  exact ⟨_, rfl⟩

/-- A module that has files has a directory for its source root. -/
theorem exists_isRootedAt_of_mem (ht : t.IsSound) (h : m.collectFiles s t = .ok (m', log))
    (hf : f ∈ m'.files) :
    ∃ l, IsRootedAt t m l ∧ IsOpen t m l ∧ m' = { m with files := filesAt s t m l } := by
  cases hdirectory : t.isDirectory (Path.ofText m.sourceRoot).toText with
  | error failure =>
      rw [collectFiles, filesBelow, hdirectory] at h
      cases h
  | ok isDirectory =>
      cases isDirectory with
      | false =>
          obtain ⟨log', hnone⟩ := exists_collectFiles_of_isDirectory_eq_false (s := s) hdirectory
          obtain ⟨rfl, -⟩ := Prod.mk.inj (Except.ok.inj (hnone.symm.trans h))
          cases hf
      | true =>
          obtain ⟨l, hl⟩ := exists_isRootedAt hdirectory
          exact ⟨l, hl, hl.of_collectFiles ht h⟩

/-! ### Where files stand -/

theorem pathBelow_concat (sourceRoot : Path) (around : List Text) (name : Text) :
    pathBelow sourceRoot (around ++ [name]) =
      Path.toText ⟨sourceRoot.root, sourceRoot.names ++ around ++ [name]⟩ := by
  rw [pathBelow, Path.join_relative, List.append_assoc]

theorem file?_of_standsAt {sourceRoot : Path} {around : List Text} {name : Text}
    (h : StandsAt s sourceRoot f around name) : file? s sourceRoot (around ++ [name]) = some f := by
  have hpath : pathBelow sourceRoot (around ++ [name]) = f.path :=
    (pathBelow_concat sourceRoot around name).trans h.path.symm
  rw [file?, hpath, if_neg (Bool.eq_false_iff.1 (Tree.isOverlong_eq_false_iff.2 h.limit)),
    List.getLastD_concat, h.kind, List.dropLast_concat, Option.map_some, ← h.package]

/-- The files of a module stand at names that have a kind, below its source root. -/
theorem mem_filesAt_iff (ht : t.IsSound) : f ∈ filesAt s t m l ↔
    ∃ around name, StandsAt s (Path.ofText m.sourceRoot) f around name ∧
      t.HasFileAt (l ++ around ++ [name]) := by
  rw [filesAt, List.mem_filterMap]
  constructor
  · rintro ⟨names, hnames, hfile⟩
    obtain ⟨hne, hproper⟩ := Tree.names_of_mem_filesWithin ht.isNamed hnames
    obtain ⟨-, bytes, hentry⟩ := ht.mem_filesWithin_iff.1 hnames
    obtain ⟨around, name, rfl⟩ := (List.eq_nil_or_concat' names).resolve_left hne
    rw [← List.append_assoc] at hentry
    exact ⟨around, name, standsAt_of_file?_eq_some hproper hfile, bytes, hentry⟩
  · rintro ⟨around, name, hstands, bytes, hentry⟩
    refine ⟨around ++ [name], ht.mem_filesWithin_iff.2 ⟨List.concat_ne_nil _ _, bytes, ?_⟩,
      file?_of_standsAt hstands⟩
    rwa [← List.append_assoc]

/-- A file of a kind below the source root of a module is one of the module, if its path is not too
long. -/
theorem exists_mem_filesAt (ht : t.IsSound) {around : List Text} {name : Text} {kind : FileKind}
    {bytes : Bytes} (hentry : t.entry? (l ++ around ++ [name]) = some (.file bytes))
    (hkind : FileKind.ofName? s name = some kind)
    (hlimit : Tree.byteLength (pathBelow (Path.ofText m.sourceRoot) (around ++ [name])) ≤
      Tree.pathLimit) :
    ∃ f ∈ filesAt s t m l, StandsAt s (Path.ofText m.sourceRoot) f around name ∧ f.kind = kind := by
  have hnames : ∀ n ∈ around ++ [name], Path.IsName n := fun n hn =>
    (ht.isEntryName hentry n (by rw [List.append_assoc]; exact List.mem_append_right _ hn)).isName
  obtain ⟨f, hf⟩ : ∃ f, file? s (Path.ofText m.sourceRoot) (around ++ [name]) = some f := by
    rw [file?, if_neg (Bool.eq_false_iff.1 (Tree.isOverlong_eq_false_iff.2 hlimit)),
      List.getLastD_concat, hkind]
    exact ⟨_, rfl⟩
  have hstands := standsAt_of_file?_eq_some hnames hf
  refine ⟨f, (mem_filesAt_iff ht).2 ⟨around, name, hstands, bytes, hentry⟩, hstands, ?_⟩
  exact Option.some.inj (hstands.kind.symm.trans hkind)

/-- The path of a file of a module leads to its directory. -/
theorem IsRootedAt.leadsTo (h : IsRootedAt t m l) (ht : t.IsSound)
    {around : List Text} {name : Text}
    (hstands : StandsAt s (Path.ofText m.sourceRoot) f around name)
    (hfile : t.HasFileAt (l ++ around ++ [name])) :
    t.LeadsTo (Path.ofText f.path) (l ++ around) := by
  have hlimit := hstands.limit
  obtain ⟨bytes, hentry⟩ := hfile
  have hroot := Path.isNormal_ofText m.sourceRoot
  rw [hstands.path] at hlimit
  rw [hstands.ofText_path hroot]
  refine Tree.leadsTo_below ht hroot h.place (ht.directory_of_append hentry (by simp)) ?_ hlimit
    (hstands.isNormal hroot)
  exact (ht.isEntryName hentry name (by simp)).limit

/-- The path of a file of a module leads to the location of the file, if it leads anywhere. -/
theorem IsRootedAt.location_eq (h : IsRootedAt t m l) (ht : t.IsSound) {around : List Text}
    {name : Text} (hstands : StandsAt s (Path.ofText m.sourceRoot) f around name)
    (hfile : t.HasFileAt (l ++ around ++ [name])) {place : Tree.Place}
    (hplace : t.place .target f.path = .ok place) : place.location = l ++ around ++ [name] := by
  have hleads := h.leadsTo ht hstands hfile
  obtain ⟨bytes, hentry⟩ := hfile
  have hroot := Path.isNormal_ofText m.sourceRoot
  have hname : (Path.ofText f.path).name = name := hstands.name_eq hroot
  have hproper : Tree.IsProper name := (ht.isEntryName hentry name (by simp)).isProper
  rw [← hstands.toText_path hroot, hleads.place_eq (Path.isNormal_ofText f.path) (hname ▸ hproper)
    (.inr fun target => by rw [hname, hentry]; nofun)] at hplace
  rw [← Except.ok.inj hplace, Tree.placeAt, hname, hentry]
  rfl

/-- A file of a module can be read. -/
theorem IsRootedAt.exists_read (h : IsRootedAt t m l) (ht : t.IsSound) {around : List Text}
    {name : Text} (hstands : StandsAt s (Path.ofText m.sourceRoot) f around name)
    (hfile : t.HasFileAt (l ++ around ++ [name])) : ∃ bytes, t.read f.path = .ok bytes := by
  have hleads := h.leadsTo ht hstands hfile
  have hroot := Path.isNormal_ofText m.sourceRoot
  obtain ⟨bytes, hentry⟩ := hfile
  -- all names of its path are paths in the file system
  have hpath : Tree.notAPath? f.path = none := by
    rw [hstands.path, Tree.notAPath?_toText (hstands.isNormal hroot)]
    intro n hn
    rw [List.append_assoc] at hn
    rcases List.mem_append.1 hn with hn | hn
    · exact (Tree.notAPath?_toText hroot).1 h.isPath n hn
    · exact (ht.isEntryName hentry n (by
        rw [List.append_assoc]
        exact List.mem_append_right _ hn)).isPath
  have hname : (Path.ofText f.path).name = name := hstands.name_eq hroot
  have hproper : Tree.IsProper name := (ht.isEntryName hentry name (by simp)).isProper
  refine ⟨bytes, ?_⟩
  rw [← hstands.toText_path hroot] at hpath ⊢
  exact Tree.read_eq_ok (Path.isNormal_ofText _) (hname ▸ hproper) hpath hleads (hname ▸ hentry)

/-- A path leads to a name in a directory. -/
structure IsPathIn (t : Tree) (path : Text) (d : Location) (name : Text) : Prop where
  directory : t.entry? d = some .directory
  toText : (Path.ofText path).toText = path
  name_eq : (Path.ofText path).name = name
  way : t.Leads Tree.linkLimit (Tree.startOf t.here (Path.ofText path).toText)
    (Path.ofText path).names.dropLast d

/-- The path of a name in the directory of a package leads there. -/
theorem IsRootedAt.isPathIn (h : IsRootedAt t m l) (ht : t.IsSound)
    {around : List Text} {name : Text}
    (hdirectory : t.entry? (l ++ around) = some .directory) (haround : ∀ n ∈ around, Path.IsName n)
    (hname : Path.IsName name) :
    IsPathIn t (Path.toText ⟨(Path.ofText m.sourceRoot).root,
      (Path.ofText m.sourceRoot).names ++ around ++ [name]⟩) (l ++ around) name := by
  have hroot := Path.isNormal_ofText m.sourceRoot
  have hnormal : Path.IsNormal ⟨(Path.ofText m.sourceRoot).root,
      (Path.ofText m.sourceRoot).names ++ around ++ [name]⟩ := by
    rw [List.append_assoc]
    exact Path.isNormal_join hroot
      (List.forall_mem_append.2 ⟨haround, List.forall_mem_singleton.2 hname⟩)
  have hrest : ∀ links, t.Leads links l around (l ++ around) := fun links => ht.leads hdirectory
  have hway := (Tree.leads_of_place hroot h.place h.directory).append hrest
  refine ⟨hdirectory, ?_, ?_, ?_⟩
  · rw [Path.ofText_toText hnormal]
  · rw [Path.ofText_toText hnormal, Path.name, List.getLastD_concat]
  · rw [Path.ofText_toText hnormal, Tree.startOf_toText hnormal, List.dropLast_concat,
      ← Tree.startOf_toText hroot]
    exact hway

end RepositoryModule

/-! ### The name of a translation in a directory -/

/-- A name under which a translation stands or goes in a directory: the first one there that passes
for it, and its own name if there is none. -/
structure IsNameAt (s : Settings) (t : Tree) (language : Text) (d : Location) (name : Text) :
    Prop where
  passes : Passes s language name
  first : ∀ other, t.HasFileAt (d ++ [other]) → Passes s language other →
    t.HasFileAt (d ++ [name]) ∧ name.le other = true
  own : ¬t.HasFileAt (d ++ [name]) → name = Package.translationName s language

theorem IsNameAt.unique {s : Settings} {t : Tree} {language : Text} {d : Location}
    {name name' : Text}
    (h : IsNameAt s t language d name) (h' : IsNameAt s t language d name') : name = name' := by
  by_cases hthere : t.HasFileAt (d ++ [name])
  · obtain ⟨hthere', hle⟩ := h'.first name hthere h.passes
    exact Text.le_antisymm (h.first name' hthere' h'.passes).2 hle
  · have hthere' : ¬t.HasFileAt (d ++ [name']) := fun hfile =>
      hthere (h.first name' hfile h'.passes).1
    rw [h.own hthere, h'.own hthere']

namespace ModuleScan

open RepositoryModule

variable {t : Tree} {m : RepositoryModule} {l : Location} {p : Package} {language : Text}
  {all : Bool} {around : List Text}

/-- The length of a path does not decide which file of a directory is taken for a translation: the
paths of all that pass for it are not too long, or they have one name. -/
def AreDiscerned (t : Tree) (m : RepositoryModule) (language : Text) (l : Location)
    (around : List Text) : Prop :=
  ∀ name, t.HasFileAt (l ++ around ++ [name]) → Passes .standard language name →
    Tree.byteLength (pathBelow (Path.ofText m.sourceRoot) (around ++ [name])) ≤ Tree.pathLimit ∨
      ∀ other, t.HasFileAt (l ++ around ++ [other]) → Passes .standard language other →
        other = Package.translationName .standard language

/-- **The names in the directory of a package decide where its translation goes.** -/
theorem exists_isNameAt (ht : t.IsSound) (hlanguage : isLanguage language = true)
    (hl : IsRootedAt t m l)
    (hscanned : IsScanned (.ofBundles all) t { m with files := filesAt (.ofBundles all) t m l } p)
    (hdiscerned : AreDiscerned t m language l around) (hat : IsPackageAt m p around) :
    ∃ name, IsNameAt (.ofBundles all) t language (l ++ around) name ∧
      p.translationPath (.ofBundles all) language =
        Path.toText ⟨(Path.ofText m.sourceRoot).root,
          (Path.ofText m.sourceRoot).names ++ around ++ [name]⟩ := by
  have hroot := Path.isNormal_ofText m.sourceRoot
  -- a file of the directory that passes may be taken, unless its path is too long
  have htaken : ∀ other, t.HasFileAt (l ++ around ++ [other]) → Passes .standard language other →
      Tree.byteLength (pathBelow (Path.ofText m.sourceRoot) (around ++ [other])) ≤ Tree.pathLimit →
      ∃ c, p.translation? (.ofBundles all) language = some c ∧
        (Path.ofText c.path).name.le other = true := by
    rintro other ⟨bytes, hentry⟩ hpasses hlimit
    obtain ⟨g, hg, hstands, -⟩ := exists_mem_filesAt ht hentry
      (ofName?_of_passes (s := .ofBundles all) hpasses) hlimit
    have hgname : g.name = other := hstands.name_eq hroot
    obtain ⟨c', hc'⟩ := Option.isSome_iff_exists.1 (isSome_catalogOf?_iff (s := .ofBundles all)
      (f := g).2 (hl.exists_read ht hstands ⟨bytes, hentry⟩))
    rw [← hgname]
    exact hscanned.exists_translation? hg (by rw [hstands.package, hat.name])
      (hgname.symm ▸ hpasses) hc'
  cases htranslation : p.translation? (.ofBundles all) language with
  | some c =>
      obtain ⟨f, hf, hpackage, hpasses, hc⟩ := hscanned.of_translation?_eq_some htranslation
      obtain ⟨around', name, hstands, hfile⟩ := (mem_filesAt_iff ht).1 hf
      obtain rfl : around' = around := by
        refine Path.intercalate_inj hstands.isName_around hat.isName ?_
        rw [← hstands.package, hpackage, hat.name]
      have hname : f.name = name := hstands.name_eq hroot
      rw [hname] at hpasses
      refine ⟨name, ⟨hpasses, fun other hthere hother => ⟨hfile, ?_⟩, fun hnot =>
        absurd hfile hnot⟩,
        ?_⟩
      · rcases hdiscerned other hthere hother with hlimit | hown
        · obtain ⟨d, hd, hle⟩ := htaken other hthere hother hlimit
          obtain rfl : c = d := Option.some.inj (htranslation.symm.trans hd)
          rw [(of_catalogOf?_eq_some hc).1] at hle
          exact hname ▸ hle
        · rw [hown other hthere hother, hown name hfile hpasses]
          exact Text.le_refl _
      · rw [translationPath_of_eq_some htranslation, (of_catalogOf?_eq_some hc).1, hstands.path]
  | none =>
      refine ⟨Package.translationName .standard language, ⟨passes_translationName hlanguage,
        fun other hthere hother => ?_, fun _ => rfl⟩, ?_⟩
      · rcases hdiscerned other hthere hother with hlimit | hown
        · obtain ⟨d, hd, -⟩ := htaken other hthere hother hlimit
          rw [htranslation] at hd
          cases hd
        · obtain rfl := hown other hthere hother
          exact ⟨hthere, Text.le_refl _⟩
      · rw [translationPath_of_eq_none htranslation]
        exact hat.ownPath_eq hlanguage

end ModuleScan

end BundleAudit
