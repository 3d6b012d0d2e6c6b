import BundleAudit.Package.Basic
import BundleAudit.Proofs.Catalog.Usage
import BundleAudit.Proofs.Source.Verdict
import BundleAudit.Proofs.Text.Order

/-!
# BundleAudit.Proofs.Package.Reading

**Packages made of files, and what is read of them.** A package starts empty and gets
its files one by one (`Package.OfFiles`); what holds of it then is `WellFormed`: each
list holds catalogs of its own kind, and the sources stand under the names of their
files. Reading keeps what can be read, in the same order; looking up changes no path,
no key and no text. Uses of entries of the primary catalog are added by key (`addUses`).
-/

namespace BundleAudit

/-- The source with the occurrences of its file, if the file can be read. -/
def SourceFile.read? (s : Settings) (t : Tree) (f : SourceFile) : Option SourceFile :=
  (f.read s t).toOption

theorem SourceFile.read?_eq_some_iff {s : Settings} {t : Tree} {f g : SourceFile} :
    f.read? s t = some g ↔ f.read s t = .ok g := by
  unfold read?
  cases f.read s t <;> simp [Except.toOption]

theorem SourceFile.path_of_read?_eq_some {s : Settings} {t : Tree} {f g : SourceFile}
    (h : f.read? s t = some g) : g.path = f.path := by
  obtain ⟨tokens, rfl⟩ := of_read_eq_ok (read?_eq_some_iff.1 h)
  rfl

namespace Package

/-! ### Packages made of files -/

/-- The paths of the files of a kind that a package holds. -/
def pathsOf (p : Package) : FileKind → List Text
  | .primaryCatalog => p.primary.toList.map (·.path)
  | .secondaryCatalog => p.secondary.map (·.path)
  | .translatedCatalog => p.translated.map (·.path)
  | .source => p.sources.map (·.2.path)

/-- A package that was made of files, one by one. -/
inductive OfFiles : Package → Prop
  /-- At the start a package is a name and a directory. -/
  | start (name directory : Text) : OfFiles { name, directory }
  /-- A file is added. -/
  | add {p q : Package} (kind : FileKind) (path : Text) :
      OfFiles p → p.add kind path = .ok q → OfFiles q

/-- Each list of a package holds what belongs there. -/
structure WellFormed (p : Package) : Prop where
  primary : ∀ c ∈ p.primary, c.kind = .primaryCatalog
  secondary : ∀ c ∈ p.secondary, c.kind = .secondaryCatalog
  translated : ∀ c ∈ p.translated, c.kind = .translatedCatalog
  /-- A source stands under the name of its file. -/
  name_source : ∀ x ∈ p.sources, x.1 = (Path.ofText x.2.path).name
  nodup_names : p.sources.keys.Nodup

/-- A file is added to the list of its kind; a primary catalog only if there is none. -/
theorem add_cases {p q : Package} {kind : FileKind} {path : Text} (h : p.add kind path = .ok q) :
    (kind = .primaryCatalog ∧ p.primary = none ∧ q = { p with primary := some { path, kind } }) ∨
    (kind = .secondaryCatalog ∧ q = { p with secondary := p.secondary ++ [{ path, kind }] }) ∨
    (kind = .translatedCatalog ∧ q = { p with translated := p.translated ++ [{ path, kind }] }) ∨
    (kind = .source ∧
      q = { p with sources := p.sources.set (Path.ofText path).name { path } }) := by
  cases kind with
  | primaryCatalog =>
      simp only [add] at h
      split at h
      · cases h
      · next hprimary =>
          have hnone : p.primary = none := by simpa using hprimary
          exact .inl ⟨rfl, hnone, (Except.ok.inj h).symm⟩
  | secondaryCatalog => exact .inr (.inl ⟨rfl, (Except.ok.inj h).symm⟩)
  | translatedCatalog => exact .inr (.inr (.inl ⟨rfl, (Except.ok.inj h).symm⟩))
  | source => exact .inr (.inr (.inr ⟨rfl, (Except.ok.inj h).symm⟩))

theorem WellFormed.add {p q : Package} {kind : FileKind} {path : Text} (hp : p.WellFormed)
    (h : p.add kind path = .ok q) : q.WellFormed := by
  rcases add_cases h with ⟨rfl, -, rfl⟩ | ⟨rfl, rfl⟩ | ⟨rfl, rfl⟩ | ⟨rfl, rfl⟩
  · exact { hp with primary := by simp }
  · refine { hp with secondary := fun c hc => ?_ }
    rcases List.mem_append.1 hc with hc | hc
    · exact hp.secondary c hc
    · rw [List.mem_singleton.1 hc]
  · refine { hp with translated := fun c hc => ?_ }
    rcases List.mem_append.1 hc with hc | hc
    · exact hp.translated c hc
    · rw [List.mem_singleton.1 hc]
  · -- a source of the same name as another one takes its place
    refine { hp with name_source := fun x hx => ?_, nodup_names := ?_ }
    · rcases KeyedList.mem_of_mem_set hx with rfl | hx
      · rfl
      · exact hp.name_source x hx
    · exact KeyedList.nodup_keys_set hp.nodup_names

theorem OfFiles.wellFormed {p : Package} (h : p.OfFiles) : p.WellFormed := by
  induction h with
  | start name directory => constructor <;> simp [KeyedList.keys]
  | add kind path _ hadd ih => exact ih.add hadd

/-! ### Reading -/

theorem readCatalogs_eq (s : Settings) (t : Tree) (cs : List Catalog) :
    (readCatalogs s t cs).1 = cs.filterMap (Catalog.read? s t) := by
  induction cs with
  | nil => rfl
  | cons c rest ih =>
      rw [readCatalogs, List.filterMap_cons, Catalog.read?]
      cases c.read s t with
      | error failure => exact ih
      | ok r => exact congrArg (r.1 :: ·) ih

theorem readSources_eq (s : Settings) (t : Tree) (xs : List (Text × SourceFile)) :
    (readSources s t xs).1 = xs.filterMap fun x => (x.2.read? s t).map (x.1, ·) := by
  induction xs with
  | nil => rfl
  | cons x rest ih =>
      obtain ⟨name, f⟩ := x
      rw [readSources, List.filterMap_cons, SourceFile.read?]
      cases f.read s t with
      | error failure => exact ih
      | ok g => exact congrArg ((name, g) :: ·) ih

/-- What is found while catalogs are read is that some cannot be read. -/
theorem kind_of_mem_readCatalogs {s : Settings} {t : Tree} {cs : List Catalog} {x : Finding}
    (h : x ∈ (readCatalogs s t cs).2.1) : x.kind = .unreadableFile := by
  induction cs with
  | nil => cases h
  | cons c rest ih =>
      rw [readCatalogs] at h
      cases hread : c.read s t with
      | error failure =>
          rw [hread] at h
          rcases List.mem_cons.1 h with rfl | h
          · rfl
          · exact ih h
      | ok r =>
          rw [hread] at h
          exact ih h

/-- What is found while sources are read is that some cannot be read. -/
theorem kind_of_mem_readSources {s : Settings} {t : Tree} {xs : List (Text × SourceFile)}
    {x : Finding} (h : x ∈ (readSources s t xs).2) : x.kind = .unreadableFile := by
  induction xs with
  | nil => cases h
  | cons y rest ih =>
      obtain ⟨name, f⟩ := y
      rw [readSources] at h
      cases hread : f.read s t with
      | error failure =>
          rw [hread] at h
          rcases List.mem_cons.1 h with rfl | h
          · rfl
          · exact ih h
      | ok g =>
          rw [hread] at h
          exact ih h

/-- The package without the files that cannot be read. -/
theorem read_fst (s : Settings) (t : Tree) (p : Package) :
    (p.read s t).1 =
      { p with
        primary := p.primary.bind (Catalog.read? s t)
        secondary := p.secondary.filterMap (Catalog.read? s t)
        translated := p.translated.filterMap (Catalog.read? s t)
        sources := p.orderedSources.filterMap fun x => (x.2.read? s t).map (x.1, ·) } := by
  have hprimary : (p.primary.toList.filterMap (Catalog.read? s t)).head? =
      p.primary.bind (Catalog.read? s t) := by
    cases p.primary with
    | none => rfl
    | some c =>
        rw [Option.toList_some, List.filterMap_cons, Option.bind_some]
        cases c.read? s t <;> rfl
  show Package.mk _ _ _ _ _ _ = _
  rw [readCatalogs_eq, readCatalogs_eq, readCatalogs_eq, readSources_eq, hprimary]

/-- The catalogs in which texts are looked up are those that can be read. -/
theorem lookupCatalogs_read (s : Settings) (t : Tree) (p : Package) :
    (p.read s t).1.lookupCatalogs = p.lookupCatalogs.filterMap (Catalog.read? s t) := by
  rw [read_fst]
  unfold lookupCatalogs
  rw [List.filterMap_append]
  cases p.primary with
  | none => rfl
  | some c =>
      rw [Option.bind_some, Option.toList_some, List.filterMap_cons]
      cases c.read? s t <;> rfl

/-- All findings of a reading are about files that cannot be read. -/
theorem kind_of_mem_read {s : Settings} {t : Tree} {p : Package} {x : Finding}
    (h : x ∈ (p.read s t).2.1) : x.kind = .unreadableFile := by
  have h : x ∈ (readCatalogs s t p.primary.toList).2.1 ++ (readCatalogs s t p.secondary).2.1 ++
      (readCatalogs s t p.translated).2.1 ++ (readSources s t p.orderedSources).2 := h
  simp only [List.mem_append] at h
  rcases h with ((h | h) | h) | h
  · exact kind_of_mem_readCatalogs h
  · exact kind_of_mem_readCatalogs h
  · exact kind_of_mem_readCatalogs h
  · exact kind_of_mem_readSources h

/-- What is read of the catalogs of a kind are catalogs of that kind. -/
theorem kind_of_mem_filterMap_read? {s : Settings} {t : Tree} {kind : FileKind} {cs : List Catalog}
    (h : ∀ c ∈ cs, c.kind = kind) {d : Catalog} (hd : d ∈ cs.filterMap (Catalog.read? s t)) :
    d.kind = kind := by
  obtain ⟨c, hc, hread⟩ := List.mem_filterMap.1 hd
  rw [(Catalog.of_read?_eq_some hread).2.1]
  exact h c hc

/-- What is read of sources stands in the order of the sources, under the same names. -/
theorem sublist_keys_filterMap_read? (s : Settings) (t : Tree) (xs : List (Text × SourceFile)) :
    ((xs.filterMap fun x => (x.2.read? s t).map (x.1, ·)).map Prod.fst).Sublist
      (xs.map Prod.fst) := by
  induction xs with
  | nil => exact .slnil
  | cons x rest ih =>
      rw [List.filterMap_cons, List.map_cons]
      cases x.2.read? s t with
      | none => exact ih.cons x.1
      | some g => exact ih.cons_cons x.1

/-- The names of the sources ascend. -/
theorem WellFormed.pairwise_names {p : Package} (hp : p.WellFormed) :
    (p.orderedSources.map Prod.fst).Pairwise fun a b => a.lt b = true :=
  Text.pairwise_lt_sortBy hp.nodup_names

/-- The names of the sources that were read ascend. -/
theorem WellFormed.pairwise_names_read {p : Package} (hp : p.WellFormed) (s : Settings) (t : Tree) :
    ((p.read s t).1.sources.map Prod.fst).Pairwise fun a b => a.lt b = true := by
  rw [read_fst]
  exact hp.pairwise_names.sublist (sublist_keys_filterMap_read? s t p.orderedSources)

/-- Reading keeps a package well formed. -/
theorem WellFormed.read {p : Package} (hp : p.WellFormed) (s : Settings) (t : Tree) :
    (p.read s t).1.WellFormed := by
  have hnames := hp.pairwise_names_read s t
  rw [read_fst] at hnames ⊢
  refine ⟨fun d hd => ?_, fun d hd => kind_of_mem_filterMap_read? hp.secondary hd,
    fun d hd => kind_of_mem_filterMap_read? hp.translated hd, fun x hx => ?_, ?_⟩
  · obtain ⟨c, hc, hread⟩ := Option.bind_eq_some_iff.1 hd
    rw [(Catalog.of_read?_eq_some hread).2.1]
    exact hp.primary c hc
  · obtain ⟨y, hy, hx⟩ := List.mem_filterMap.1 hx
    obtain ⟨g, hread, rfl⟩ := Option.map_eq_some_iff.1 hx
    have hpath : g.path = y.2.path := SourceFile.path_of_read?_eq_some hread
    show y.1 = (Path.ofText g.path).name
    rw [hpath]
    exact hp.name_source y ((Text.perm_sortBy Prod.fst p.sources).mem_iff.1 hy)
  · exact hnames.imp fun {a b} hlt => Text.ne_of_lt hlt

/-- Looking up keeps a package well formed. -/
theorem WellFormed.lookUp {p : Package} (hp : p.WellFormed) : p.lookUp.WellFormed := by
  refine ⟨fun c hc => ?_, fun c hc => ?_, hp.translated, fun x hx => ?_, ?_⟩
  · obtain ⟨d, hd, rfl⟩ := Option.map_eq_some_iff.1 hc
    rw [Catalog.countUses_eq, Catalog.kind_addUses]
    exact hp.primary d hd
  · obtain ⟨d, hd, rfl⟩ := List.mem_map.1 hc
    rw [Catalog.countUses_eq, Catalog.kind_addUses]
    exact hp.secondary d hd
  · obtain ⟨y, hy, rfl⟩ := List.mem_map.1 hx
    exact hp.name_source y hy
  · have hkeys : p.lookUp.sources.keys = p.sources.keys := by
      unfold KeyedList.keys Package.lookUp
      rw [List.map_map]
      rfl
    rw [hkeys]
    exact hp.nodup_names

/-! ### Counting uses -/

/-- Adds to the uses of each entry of the primary catalog a number for its key. -/
def addUses (n : Text → Nat) (p : Package) : Package :=
  { p with primary := p.primary.map (·.addUses n) }

@[simp] theorem name_addUses (n : Text → Nat) (p : Package) : (p.addUses n).name = p.name := rfl

@[simp] theorem addUses_zero (p : Package) : p.addUses (fun _ => 0) = p := by
  have hid : (fun c : Catalog => c.addUses fun _ => 0) = id := funext Catalog.addUses_zero
  rw [addUses, hid, Option.map_id_apply]

theorem addUses_addUses (n m : Text → Nat) (p : Package) :
    (p.addUses n).addUses m = p.addUses fun key => n key + m key := by
  unfold addUses
  rw [Option.map_map]
  congr 1
  exact congrArg (Option.map · p.primary) (funext fun c => Catalog.addUses_addUses n m c)

/-- Only the numbers for the keys of the primary catalog matter. -/
theorem addUses_congr {n m : Text → Nat} {p : Package}
    (h : ∀ key, p.hasPrimaryKey key = true → n key = m key) : p.addUses n = p.addUses m := by
  unfold addUses
  cases hprimary : p.primary with
  | none => rfl
  | some c =>
      have hkeys : ∀ key, c.hasKey key = true → n key = m key := by
        intro key hkey
        refine h key ?_
        rw [hasPrimaryKey, hprimary, Option.any_some, hkey]
      rw [Option.map_some, Option.map_some, Catalog.addUses_congr hkeys]

theorem countUse_eq (key : Text) (p : Package) :
    p.countUse key = p.addUses fun k => if k = key then 1 else 0 := by
  unfold countUse addUses
  congr 1
  exact congrArg (Option.map · p.primary) (funext fun c => Catalog.countUse_eq key c)

/-! ### Names and paths -/

/-- Different names are names of different paths. -/
theorem WellFormed.nodup_paths {p : Package} (hp : p.WellFormed) :
    (p.sources.map (·.2.path)).Nodup := by
  -- the names are a function of the paths, so equal paths would have equal names
  have hnames : p.sources.keys = (p.sources.map (·.2.path)).map fun path =>
    (Path.ofText path).name := by
    rw [List.map_map]
    exact List.map_congr_left hp.name_source
  have hnodup := hp.nodup_names
  rw [hnames] at hnodup
  exact List.Pairwise.of_map _ (fun a b hne hab => hne (hab ▸ rfl)) hnodup

end Package

end BundleAudit
