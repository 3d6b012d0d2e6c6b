import BundleAudit.Proofs.Package.Reporting

/-!
# BundleAudit.Proofs.Package.Alike

**Packages that hold the same in another order.** Reading, looking up and marking keep
them alike (`Alike.read`, `Alike.lookUp`, `Alike.addUses`), since each of these treats
every file by itself or counts over all of them. What is reported is the same in the same
order, since sources and catalogs are put in order before (`Alike.report_eq`).
-/

namespace BundleAudit

/-- In which order catalogs are asked for a text does not matter. -/
theorem SourceFile.lookUp_of_perm {cs ds : List Catalog} (h : cs.Perm ds) (f : SourceFile) :
    f.lookUp cs = f.lookUp ds := by
  unfold lookUp
  congr 1
  exact List.map_congr_left fun o _ => by rw [h.any_eq]

namespace Package

variable {s : Settings} {t : Tree} {p q : Package} {cs : List Catalog}

/-- Packages that hold the same, in whatever order. -/
structure Alike (p q : Package) : Prop where
  name : p.name = q.name
  directory : p.directory = q.directory
  primary : p.primary = q.primary
  secondary : p.secondary.Perm q.secondary
  translated : p.translated.Perm q.translated
  sources : List.Perm p.sources q.sources

/-! ### What keeps packages alike -/

theorem perm_orderedSources (p : Package) : List.Perm p.orderedSources p.sources :=
  Text.perm_sortBy Prod.fst p.sources

theorem Alike.read (h : Alike p q) (s : Settings) (t : Tree) :
    Alike (p.read s t).1 (q.read s t).1 := by
  have hsources : p.orderedSources.Perm q.orderedSources :=
    p.perm_orderedSources.trans (h.sources.trans q.perm_orderedSources.symm)
  rw [read_fst, read_fst]
  exact
    { name := h.name
      directory := h.directory
      primary := by rw [h.primary]
      secondary := h.secondary.filterMap _
      translated := h.translated.filterMap _
      sources := hsources.filterMap _ }

theorem Alike.texts (h : Alike p q) : p.texts.Perm q.texts := h.sources.flatMap_right _

theorem Alike.lookupCatalogs (h : Alike p q) : p.lookupCatalogs.Perm q.lookupCatalogs := by
  unfold Package.lookupCatalogs
  rw [h.primary]
  exact h.secondary.append_left _

theorem Alike.lookUp (h : Alike p q) : Alike p.lookUp q.lookUp := by
  have hcount : (fun c : Catalog => c.countUses p.texts) = fun c => c.countUses q.texts := by
    funext c
    rw [Catalog.countUses_eq, Catalog.countUses_eq]
    exact congrArg c.addUses (funext fun text => h.texts.count_eq text)
  have hlook : (fun x : Text × SourceFile => (x.1, x.2.lookUp p.lookupCatalogs)) =
      fun x => (x.1, x.2.lookUp q.lookupCatalogs) :=
    funext fun x => by rw [SourceFile.lookUp_of_perm h.lookupCatalogs]
  unfold Package.lookUp
  rw [hcount, hlook, h.primary]
  exact
    { name := h.name
      directory := h.directory
      primary := rfl
      secondary := h.secondary.map _
      translated := h.translated
      sources := h.sources.map _ }

theorem Alike.addUses (h : Alike p q) (n : Text → Nat) : Alike (p.addUses n) (q.addUses n) :=
  { h with primary := congrArg (Option.map fun c : Catalog => c.addUses n) h.primary }

/-! ### What is found -/

theorem Alike.orderedSources_eq (h : Alike p q) (hp : p.WellFormed) :
    p.orderedSources = q.orderedSources := Text.sortBy_eq_of_perm h.sources hp.nodup_names

/-- Nothing is found while catalogs are read if all of them can be read. -/
theorem findings_readCatalogs_eq_nil (h : ∀ c ∈ cs, ∃ r, c.read s t = .ok r) :
    (readCatalogs s t cs).2.1 = [] := by
  induction cs with
  | nil => rfl
  | cons c rest ih =>
      obtain ⟨⟨d, malformed⟩, hread⟩ := h c List.mem_cons_self
      rw [readCatalogs, hread]
      exact ih fun d hd => h d (List.mem_cons_of_mem c hd)

theorem Alike.findings_read_eq (h : Alike p q) (hp : p.WellFormed)
    (hread : ∀ c ∈ p.secondary ++ p.translated, ∃ r, c.read s t = .ok r) :
    (p.read s t).2.1 = (q.read s t).2.1 := by
  have hsecondary : ∀ c ∈ p.secondary, ∃ r, c.read s t = .ok r := fun c hc =>
    hread c (List.mem_append_left _ hc)
  have htranslated : ∀ c ∈ p.translated, ∃ r, c.read s t = .ok r := fun c hc =>
    hread c (List.mem_append_right _ hc)
  show (readCatalogs s t p.primary.toList).2.1 ++ (readCatalogs s t p.secondary).2.1 ++
      (readCatalogs s t p.translated).2.1 ++ (readSources s t p.orderedSources).2 =
    (readCatalogs s t q.primary.toList).2.1 ++ (readCatalogs s t q.secondary).2.1 ++
      (readCatalogs s t q.translated).2.1 ++ (readSources s t q.orderedSources).2
  rw [h.primary, h.orderedSources_eq hp, findings_readCatalogs_eq_nil hsecondary,
    findings_readCatalogs_eq_nil htranslated,
    findings_readCatalogs_eq_nil fun c hc => hsecondary c (h.secondary.mem_iff.2 hc),
    findings_readCatalogs_eq_nil fun c hc => htranslated c (h.translated.mem_iff.2 hc)]

/-! ### What is reported -/

/-- No two secondary and no two translated catalogs of a package have one path. -/
structure HasDistinctCatalogs (p : Package) : Prop where
  secondary : (p.secondary.map (·.path)).Nodup
  translated : (p.translated.map (·.path)).Nodup

theorem sublist_paths_filterMap_read? (s : Settings) (t : Tree) (cs : List Catalog) :
    ((cs.filterMap (Catalog.read? s t)).map (·.path)).Sublist (cs.map (·.path)) := by
  induction cs with
  | nil => exact .slnil
  | cons c rest ih =>
      rw [List.filterMap_cons, List.map_cons]
      cases hread : c.read? s t with
      | none => exact ih.cons c.path
      | some d =>
          rw [List.map_cons, (Catalog.of_read?_eq_some hread).1]
          exact ih.cons_cons c.path

theorem HasDistinctCatalogs.read (h : p.HasDistinctCatalogs) (s : Settings) (t : Tree) :
    (p.read s t).1.HasDistinctCatalogs := by
  rw [read_fst]
  exact ⟨h.secondary.sublist (sublist_paths_filterMap_read? s t p.secondary),
    h.translated.sublist (sublist_paths_filterMap_read? s t p.translated)⟩

theorem HasDistinctCatalogs.lookUp (h : p.HasDistinctCatalogs) : p.lookUp.HasDistinctCatalogs := by
  refine ⟨?_, h.translated⟩
  have hpaths : p.lookUp.secondary.map (·.path) = p.secondary.map (·.path) := by
    unfold Package.lookUp
    rw [List.map_map]
    refine List.map_congr_left fun c _ => ?_
    rw [Function.comp_apply, Catalog.countUses_eq, Catalog.path_addUses]
  exact hpaths ▸ h.secondary

/-- **The report on a package does not depend on the order in which its files came.** -/
theorem Alike.report_eq (h : Alike p q) (hp : p.WellFormed) (hcatalogs : p.HasDistinctCatalogs)
    (s : Settings) (t : Tree) : p.report s t = q.report s t := by
  have hreported : p.reportedCatalogs = q.reportedCatalogs := by
    unfold reportedCatalogs
    rw [h.primary]
    exact congrArg₂ (_ ++ · ++ ·) (Text.sortBy_eq_of_perm h.secondary hcatalogs.secondary)
      (Text.sortBy_eq_of_perm h.translated hcatalogs.translated)
  funext r
  unfold report
  rw [h.orderedSources_eq hp, hreported]

end Package

end BundleAudit
