import BundleAudit.Proofs.Catalog.Deletion
import BundleAudit.Proofs.Files.Content
import BundleAudit.Proofs.Package.Reporting

/-!
# BundleAudit.Proofs.Package.Deletion

**A package without an entry that has no use.** When the lines of an entry are deleted
from its file, a package is read as before, only that its catalog lacks the entry
(`fst_read_deleted`). If no text of its sources is the key, looking the texts up gives
the same, and the report lacks just the finding about the entry (`findings_package`).
-/

namespace BundleAudit

/-- An entry that is deleted from its catalog, with all its lines. -/
structure Deletion where
  /-- The path of the catalog. -/
  path : Text
  key : Text
  /-- The line on which the entry begins. -/
  line : Nat
  /-- The number of its lines. -/
  count : Nat

namespace Catalog

/-- A catalog with the entries that bytes hold. -/
def withBytes (s : Settings) (bytes : Bytes) (c : Catalog) : Catalog :=
  { c with
    entries := (CatalogEntry.ofLines s.intentionalMarker (Text.linesOfBytes bytes)).1 }

theorem read?_eq (s : Settings) (t : Tree) (c : Catalog) :
    c.read? s t = (t.read c.path).toOption.map (c.withBytes s) := by
  unfold read? read Tree.readLines
  cases t.read c.path <;> rfl

/-- A catalog as it is read once more; as it is, if it cannot be read. -/
def again (s : Settings) (t : Tree) (c : Catalog) : Catalog := (c.read? s t).getD c

@[simp] theorem path_again (s : Settings) (t : Tree) (c : Catalog) :
    (c.again s t).path = c.path := by
  unfold again
  rw [read?_eq]
  cases t.read c.path <;> rfl

@[simp] theorem kind_again (s : Settings) (t : Tree) (c : Catalog) :
    (c.again s t).kind = c.kind := by
  unfold again
  rw [read?_eq]
  cases t.read c.path <;> rfl

theorem again_withBytes {s : Settings} {t : Tree} {c : Catalog} {new : Bytes}
    (h : t.read c.path = .ok new) (old : Bytes) :
    (c.withBytes s old).again s t = c.withBytes s new := by
  rw [again, read?_eq]
  show ((t.read c.path).toOption.map _).getD _ = _
  rw [h]
  rfl

end Catalog

namespace Deletion

variable {d : Deletion} {s : Settings} {t : Tree} {l : Location} {bytes : Bytes} {c : Catalog}
  {p : Package}

/-! ### Findings -/

/-- The finding that the entry has no use. -/
def finding (d : Deletion) : Finding := ⟨.possiblyUnusedEntry, d.path, d.line, d.key⟩

/-- A finding with the line that it has afterwards. -/
def moveUp (d : Deletion) (x : Finding) : Finding :=
  if x.kind = .possiblyUnusedEntry ∧ x.file = d.path ∧ (d.line : Int) < x.line then
    { x with line := x.line - d.count }
  else x

/-- What is left of findings: that about the entry is gone, and those about later entries of its
catalog have smaller lines. -/
def findings (d : Deletion) (xs : List Finding) : List Finding :=
  (xs.filter (· ≠ d.finding)).map d.moveUp

theorem findings_append (d : Deletion) (xs ys : List Finding) :
    d.findings (xs ++ ys) = d.findings xs ++ d.findings ys := by
  rw [findings, List.filter_append, List.map_append, findings, findings]

theorem findings_flatMap {α : Type} (d : Deletion) (f : α → List Finding) (as : List α) :
    d.findings (as.flatMap f) = as.flatMap fun a => d.findings (f a) := by
  rw [findings, List.filter_flatMap, List.map_flatMap]
  rfl

/-- Findings about other things stay as they are. -/
theorem findings_eq_self {xs : List Finding}
    (h : ∀ x ∈ xs, x.kind = .possiblyUnusedEntry → x.file ≠ d.path) : d.findings xs = xs := by
  have hkeep : xs.filter (· ≠ d.finding) = xs :=
    List.filter_eq_self.2 fun x hx => decide_eq_true fun heq => h x hx (heq ▸ rfl) (heq ▸ rfl)
  rw [findings, hkeep]
  exact (List.map_congr_left fun x hx => if_neg fun hmoved => h x hx hmoved.1 hmoved.2.1).trans
    (List.map_id xs)

/-! ### The catalog -/

/-- A catalog without the entry, if it is the one of the entry. -/
def catalog (d : Deletion) (c : Catalog) : Catalog :=
  if c.path = d.path then
    { c with entries := CatalogEntry.deleteAt d.line d.count c.entries }
  else c

/-- The entry is that of its catalog: what begins on its line has its key, and what begins later
does so after all its lines. -/
structure Matches (d : Deletion) (c : Catalog) : Prop where
  key : c.path = d.path → ∀ e ∈ c.entries, e.line = d.line → e.key = d.key
  later : c.path = d.path → ∀ e ∈ c.entries, d.line < e.line → d.line + d.count ≤ e.line

@[simp] theorem path_catalog (d : Deletion) (c : Catalog) : (d.catalog c).path = c.path := by
  unfold catalog
  split <;> rfl

@[simp] theorem kind_catalog (d : Deletion) (c : Catalog) : (d.catalog c).kind = c.kind := by
  unfold catalog
  split <;> rfl

theorem Matches.addUses (h : d.Matches c) (n : Text → Nat) : d.Matches (c.addUses n) := by
  refine ⟨fun hpath e he hline => ?_, fun hpath e he hline => ?_⟩
  · obtain ⟨b, hb, rfl⟩ := List.mem_map.1 he
    exact h.key hpath b hb hline
  · obtain ⟨b, hb, rfl⟩ := List.mem_map.1 he
    exact h.later hpath b hb hline

theorem catalog_addUses (d : Deletion) (n : Text → Nat) (c : Catalog) :
    d.catalog (c.addUses n) = (d.catalog c).addUses n := by
  unfold catalog
  rw [Catalog.path_addUses]
  split
  · simp only [Catalog.addUses, CatalogEntry.deleteAt, List.filter_map, List.map_map]
    congr 1
    refine List.map_congr_left fun e _ => ?_
    simp only [Function.comp_apply, CatalogEntry.moveUp]
    split <;> rfl
  · rfl

/-- Just the key of the entry is lost. -/
theorem hasKey_catalog (h : d.Matches c) {key : Text} (hkey : c.path = d.path → key ≠ d.key) :
    (d.catalog c).hasKey key = c.hasKey key := by
  unfold catalog
  split
  · next hpath =>
      rw [Bool.eq_iff_iff, Catalog.hasKey_iff, Catalog.hasKey_iff]
      constructor
      · rintro ⟨e, he, rfl⟩
        obtain ⟨b, hb, rfl⟩ := List.mem_map.1 he
        exact ⟨b, List.mem_of_mem_filter hb, (CatalogEntry.key_moveUp _ _ b).symm⟩
      · rintro ⟨e, he, rfl⟩
        have hline : e.line ≠ d.line := fun hline => hkey hpath (h.key hpath e he hline)
        exact ⟨_, List.mem_map_of_mem (List.mem_filter.2 ⟨he, decide_eq_true hline⟩),
          CatalogEntry.key_moveUp _ _ e⟩
  · rfl

/-- The finding about an entry that is not used moves with the entry. -/
theorem moveUp_finding (h : d.Matches c) (hpath : c.path = d.path) {e : CatalogEntry}
    (he : e ∈ c.entries) :
    d.moveUp ⟨.possiblyUnusedEntry, c.path, e.line, e.key⟩ =
      ⟨.possiblyUnusedEntry, c.path, (CatalogEntry.moveUp d.line d.count e).line,
        (CatalogEntry.moveUp d.line d.count e).key⟩ := by
  rw [CatalogEntry.key_moveUp, moveUp, CatalogEntry.moveUp]
  by_cases hline : d.line < e.line
  · have hlater := h.later hpath e he hline
    rw [if_pos ⟨rfl, hpath, Int.ofNat_lt.2 hline⟩, if_pos hline]
    exact congrArg (Finding.mk _ _ · _) (Int.ofNat_sub (by omega)).symm
  · rw [if_neg fun hmoved => hline (Int.ofNat_lt.1 hmoved.2.2), if_neg hline]

/-- The report on a catalog lacks just the finding about the entry. -/
theorem findings_catalog (h : d.Matches c) : (d.catalog c).findings = d.findings c.findings := by
  by_cases hpath : c.path = d.path
  · have hgone : ∀ e ∈ c.entries,
        decide ((⟨.possiblyUnusedEntry, c.path, e.line, e.key⟩ : Finding) ≠ d.finding) =
          decide (e.line ≠ d.line) := by
      intro e he
      refine decide_eq_decide.2 (not_congr ?_)
      rw [finding, Finding.mk.injEq]
      exact ⟨fun heq => Int.ofNat.inj heq.2.2.1,
        fun hline => ⟨rfl, hpath, congrArg _ hline, h.key hpath e he hline⟩⟩
    have hused : ∀ e, (CatalogEntry.moveUp d.line d.count e).possiblyUnused =
        e.possiblyUnused := by
      intro e
      unfold CatalogEntry.moveUp
      split <;> rfl
    unfold Catalog.findings
    rw [kind_catalog]
    split
    · rfl
    · rw [catalog, if_pos hpath, findings, CatalogEntry.deleteAt, List.filter_map, List.filter_map,
        List.map_map, List.map_map, List.filter_filter, List.filter_filter]
      have hkept : ∀ e ∈ c.entries,
          (((·.possiblyUnused) ∘ CatalogEntry.moveUp d.line d.count) e &&
            decide (e.line ≠ d.line)) =
          (((fun x => decide (x ≠ d.finding)) ∘ fun e : CatalogEntry =>
            (⟨.possiblyUnusedEntry, c.path, e.line, e.key⟩ : Finding)) e && e.possiblyUnused) := by
        intro e he
        rw [Function.comp_apply, Function.comp_apply, hused, hgone e he, Bool.and_comm]
      rw [List.filter_congr hkept]
      exact List.map_congr_left fun e he =>
        (moveUp_finding h hpath (List.mem_of_mem_filter he)).symm
  · rw [catalog, if_neg hpath, findings_eq_self]
    intro x hx _
    unfold Catalog.findings at hx
    split at hx
    · cases hx
    · obtain ⟨e, -, rfl⟩ := List.mem_map.1 hx
      exact hpath

/-! ### Reading -/

/-- In a tree, the entry is deleted from its catalog by writing bytes to the file at a location. -/
structure IsDeletedIn (d : Deletion) (s : Settings) (t : Tree) (l : Location) (bytes : Bytes) :
    Prop where
  file : t.HasFileAt l
  leads : t.LeadsAt l d.path
  content : ∃ old, t.read d.path = .ok old ∧ ∀ c : Catalog, c.path = d.path →
    d.Matches (c.withBytes s old) ∧ c.withBytes s bytes = d.catalog (c.withBytes s old)

/-- A path is that of the catalog, or it does not lead to its file. -/
def IsOwn (d : Deletion) (t : Tree) (l : Location) (path : Text) : Prop :=
  path = d.path ∨ ¬t.LeadsAt l path

/-- What is read of a catalog is read of it without the entry. -/
theorem IsDeletedIn.read?_catalog (h : d.IsDeletedIn s t l bytes) (hc : d.IsOwn t l c.path) :
    c.read? s (t.replaced l bytes) = (c.read? s t).map d.catalog := by
  rw [Catalog.read?_eq, Catalog.read?_eq]
  by_cases hpath : c.path = d.path
  · obtain ⟨old, hread, hcontent⟩ := h.content
    have hnew := h.file.read_replaced_of_leadsAt bytes h.leads hread
    rw [hpath, hread, hnew]
    exact congrArg some (hcontent c hpath).2
  · rw [h.file.read_replaced bytes (hc.resolve_left hpath)]
    cases t.read c.path with
    | error failure => rfl
    | ok bytes => exact congrArg some (if_neg hpath).symm

theorem IsDeletedIn.matches_of_read? (h : d.IsDeletedIn s t l bytes) {b : Catalog}
    (hread : c.read? s t = some b) : d.Matches b := by
  rw [Catalog.read?_eq] at hread
  by_cases hpath : c.path = d.path
  · obtain ⟨old, hold, hcontent⟩ := h.content
    rw [hpath, hold] at hread
    exact Option.some.inj hread ▸ (hcontent c hpath).1
  · obtain ⟨bytes, -, rfl⟩ := Option.map_eq_some_iff.1 hread
    exact ⟨fun heq => absurd heq hpath, fun heq => absurd heq hpath⟩

theorem IsDeletedIn.read?_source (h : d.IsDeletedIn s t l bytes) {f : SourceFile}
    (hf : ¬t.LeadsAt l f.path) : f.read? s (t.replaced l bytes) = f.read? s t := by
  unfold SourceFile.read? SourceFile.read Tree.readText
  rw [h.file.read_replaced bytes hf]

/-- A catalog that was read is read again after a change of one file. -/
theorem read?_replaced (h : t.HasFileAt l) (c : Catalog) :
    c.read? s (t.replaced l bytes) = (c.read? s t).map (Catalog.again s (t.replaced l bytes)) := by
  rw [Catalog.read?_eq, Catalog.read?_eq]
  rcases h.read_replaced_cases bytes c.path with heq | ⟨hnew, old, hold⟩
  · rw [heq]
    cases hread : t.read c.path with
    | error failure => rfl
    | ok old => exact congrArg some (Catalog.again_withBytes (heq.trans hread) old).symm
  · rw [hnew, hold]
    exact congrArg some (Catalog.again_withBytes hnew old).symm

/-! ### The package -/

/-- A package without the entry; in the tree that is left, translations may be read again. -/
def package (d : Deletion) (s : Settings) (t : Tree) (p : Package) : Package :=
  { p with
    primary := p.primary.map d.catalog
    secondary := p.secondary.map d.catalog
    translated := p.translated.map (Catalog.again s t) }

@[simp] theorem name_package (d : Deletion) (s : Settings) (t : Tree) (p : Package) :
    (d.package s t p).name = p.name := rfl

@[simp] theorem texts_package (d : Deletion) (s : Settings) (t : Tree) (p : Package) :
    (d.package s t p).texts = p.texts := rfl

theorem package_addUses (d : Deletion) (s : Settings) (t : Tree) (n : Text → Nat) (p : Package) :
    d.package s t (p.addUses n) = (d.package s t p).addUses n := by
  have hcatalog : d.catalog ∘ (·.addUses n) = (·.addUses n) ∘ d.catalog :=
    funext (catalog_addUses d n)
  simp only [package, Package.addUses, Option.map_map, hcatalog]

theorem lookupCatalogs_package (d : Deletion) (s : Settings) (t : Tree) (p : Package) :
    (d.package s t p).lookupCatalogs = p.lookupCatalogs.map d.catalog := by
  unfold Package.lookupCatalogs package
  rw [List.map_append, Option.toList_map]

/-- The catalogs in which texts are looked up after the reading are those that were read. -/
theorem exists_of_mem_lookupCatalogs_read (hc : c ∈ (p.read s t).1.lookupCatalogs) :
    ∃ b ∈ p.lookupCatalogs, b.read? s t = some c := by
  rw [Package.lookupCatalogs_read] at hc
  exact List.mem_filterMap.1 hc

/-- Of a package, no other file leads to that of the catalog, but for translations. -/
structure IsOnlyIn (d : Deletion) (t : Tree) (l : Location) (p : Package) : Prop where
  catalogs : ∀ c ∈ p.lookupCatalogs, d.IsOwn t l c.path
  sources : ∀ x ∈ p.sources, ¬t.LeadsAt l x.2.path

theorem IsDeletedIn.fst_read (h : d.IsDeletedIn s t l bytes) (hp : d.IsOnlyIn t l p) :
    (p.read s (t.replaced l bytes)).1 = d.package s (t.replaced l bytes) (p.read s t).1 := by
  rw [Package.read_fst, Package.read_fst, package]
  congr 1
  · cases hprimary : p.primary with
    | none => rfl
    | some c =>
        refine h.read?_catalog (hp.catalogs c ?_)
        rw [Package.lookupCatalogs, hprimary]
        exact List.mem_append_left _ (List.mem_singleton.2 rfl)
  · rw [List.map_filterMap]
    exact List.filterMap_congr fun c hc => h.read?_catalog
      (hp.catalogs c (List.mem_append_right _ hc))
  · rw [List.map_filterMap]
    exact List.filterMap_congr fun c _ => read?_replaced h.file c
  · refine List.filterMap_congr fun x hx => ?_
    rw [h.read?_source (hp.sources x (List.mem_mergeSort.1 hx))]

/-- A catalog that cannot be read cannot be read without the entry either, for the same reason. -/
theorem findings_readCatalogs_replaced (h : t.HasFileAt l) (cs : List Catalog) :
    (Package.readCatalogs s (t.replaced l bytes) cs).2.1 = (Package.readCatalogs s t cs).2.1 := by
  induction cs with
  | nil => rfl
  | cons c rest ih =>
      unfold Package.readCatalogs Catalog.read Tree.readLines
      rcases h.read_replaced_cases bytes c.path with heq | ⟨hnew, old, hold⟩
      · rw [heq]
        cases t.read c.path with
        | error failure => exact congrArg (_ :: ·) ih
        | ok old => exact ih
      · rw [hnew, hold]
        exact ih

theorem IsDeletedIn.readSources_eq (h : d.IsDeletedIn s t l bytes)
    {xs : List (Text × SourceFile)} (hxs : ∀ x ∈ xs, ¬t.LeadsAt l x.2.path) :
    Package.readSources s (t.replaced l bytes) xs = Package.readSources s t xs := by
  induction xs with
  | nil => rfl
  | cons x rest ih =>
      obtain ⟨hx, hrest⟩ := List.forall_mem_cons.1 hxs
      have hread : x.2.read s (t.replaced l bytes) = x.2.read s t := by
        unfold SourceFile.read Tree.readText
        rw [h.file.read_replaced bytes hx]
      rw [Package.readSources, Package.readSources, hread, ih hrest]

theorem IsDeletedIn.findings_read (h : d.IsDeletedIn s t l bytes) (hp : d.IsOnlyIn t l p) :
    (p.read s (t.replaced l bytes)).2.1 = (p.read s t).2.1 := by
  have hsources : Package.readSources s (t.replaced l bytes) p.orderedSources =
      Package.readSources s t p.orderedSources :=
    h.readSources_eq fun x hx => hp.sources x (List.mem_mergeSort.1 hx)
  unfold Package.read
  dsimp only
  rw [findings_readCatalogs_replaced h.file, findings_readCatalogs_replaced h.file,
    findings_readCatalogs_replaced h.file]
  exact congrArg (_ ++ Prod.snd ·) hsources

/-- The deletion is of an entry of a package, if it is one of an entry of its catalogs. -/
structure Fits (d : Deletion) (p : Package) : Prop where
  catalogs : ∀ c ∈ p.lookupCatalogs, d.Matches c
  /-- No text of a source is its key. -/
  texts : ∀ c ∈ p.lookupCatalogs, c.path = d.path → d.key ∉ p.texts

/-- A text is in the same catalogs without the entry. -/
theorem Fits.any_hasKey (h : d.Fits p) {text : Text} (htext : text ∈ p.texts) :
    (p.lookupCatalogs.map d.catalog).any (·.hasKey text) =
      p.lookupCatalogs.any (·.hasKey text) := by
  rw [List.any_map, Bool.eq_iff_iff, List.any_eq_true, List.any_eq_true]
  refine exists_congr fun c => and_congr_right fun hc => ?_
  rw [Function.comp_apply, hasKey_catalog (h.catalogs c hc)]
  rintro hpath rfl
  exact h.texts c hc hpath htext

/-- Looking the texts up gives the same, but for the entry. -/
theorem Fits.lookUp (h : d.Fits p) :
    (d.package s t p).lookUp = d.package s t p.lookUp := by
  have hcount : (fun c : Catalog => (d.catalog c).countUses p.texts) =
      fun c => d.catalog (c.countUses p.texts) := funext fun c => by
    rw [Catalog.countUses_eq, Catalog.countUses_eq, catalog_addUses]
  unfold Package.lookUp
  rw [texts_package, lookupCatalogs_package]
  simp only [package, Option.map_map, List.map_map, Function.comp_def, hcount]
  congr 1
  refine List.map_congr_left fun x hx => ?_
  unfold SourceFile.lookUp
  congr 2
  refine List.map_congr_left fun o ho => ?_
  have htext : o.text ∈ p.texts := List.mem_flatMap.2 ⟨x, hx, List.mem_map_of_mem ho⟩
  rw [h.any_hasKey htext]

/-! ### The report -/

/-- Whether a source has a form does not depend on the content of a file. -/
theorem hasForm_replaced (h : t.HasFileAt l) (f : SourceFile) :
    f.hasForm s (t.replaced l bytes) = f.hasForm s t := by
  unfold SourceFile.hasForm
  simp only [h.hasEntry_replaced]

theorem findings_replaced (h : t.HasFileAt l) (p : Package) :
    p.findings s (t.replaced l bytes) = p.findings s t := by
  unfold Package.findings Package.sourceFindings SourceFile.hasKnownForm
  simp only [hasForm_replaced h]

theorem byPath_map {f : Catalog → Catalog} (h : ∀ c, (f c).path = c.path) (cs : List Catalog) :
    Package.byPath (cs.map f) = (Package.byPath cs).map f := by
  have hpath : (fun c => (f c).path) = Catalog.path := funext h
  exact (Text.sortBy_map Catalog.path f cs).trans (by rw [hpath]; rfl)

theorem reportedCatalogs_package (d : Deletion) (s : Settings) (t : Tree) (p : Package) :
    (d.package s t p).reportedCatalogs =
      (p.primary.toList ++ Package.byPath p.secondary).map d.catalog ++
        (Package.byPath p.translated).map (Catalog.again s t) := by
  rw [Package.reportedCatalogs, List.map_append, ← byPath_map (path_catalog d),
    ← byPath_map (Catalog.path_again s t), package, Option.toList_map]

/-- **Without the entry, the report on a package lacks the finding about it.** -/
theorem findings_package (hmatches : ∀ c ∈ p.lookupCatalogs, d.Matches c) (hp : p.WellFormed)
    (s : Settings) (t : Tree) : (d.package s t p).findings s t = d.findings (p.findings s t) := by
  have hsources : d.findings (Package.sourceFindings s t p.orderedSources) =
      Package.sourceFindings s t p.orderedSources := by
    refine findings_eq_self fun x hx hkind => ?_
    have hsource := Package.isOfSource_of_mem_sourceFindings hx
    rw [hkind] at hsource
    cases hsource
  have hlookup : ∀ c ∈ p.primary.toList ++ Package.byPath p.secondary,
      (d.catalog c).findings = d.findings c.findings := by
    intro c hc
    refine findings_catalog (hmatches c (List.mem_append.2 ((List.mem_append.1 hc).imp_right ?_)))
    exact (Text.perm_sortBy Catalog.path p.secondary).mem_iff.1
  have htranslated : ∀ c ∈ Package.byPath p.translated,
      (c.again s t).findings = d.findings c.findings := by
    intro c hc
    have hkind := hp.translated c ((Text.perm_sortBy Catalog.path p.translated).mem_iff.1 hc)
    rw [Catalog.findings_eq_nil hkind,
      Catalog.findings_eq_nil ((Catalog.kind_again s t c).trans hkind)]
    rfl
  rw [Package.findings, Package.findings, findings_append, hsources, reportedCatalogs_package,
    Package.reportedCatalogs, List.flatMap_append, List.flatMap_append, findings_append,
    List.flatMap_map, List.flatMap_map, findings_flatMap, findings_flatMap,
    List.flatMap_congr hlookup, List.flatMap_congr htranslated]
  rfl

theorem files_package (d : Deletion) (s : Settings) (t : Tree) (p : Package) :
    (d.package s t p).files = p.files := by
  rw [Package.files, Package.files, reportedCatalogs_package, Package.reportedCatalogs]
  simp only [List.map_append, List.map_map, Function.comp_def, kind_catalog, Catalog.kind_again]
  rfl

end Deletion

end BundleAudit
