import BundleAudit.Package.Translation
import BundleAudit.Proofs.Catalog.Rendering
import BundleAudit.Proofs.Table.Rows

/-!
# BundleAudit.Proofs.Package.Copying

**A catalog that is its own translation.** Entries are exported without a translation,
the primary text of each row is copied into its translation, and a catalog is made from
the table. A copied row always holds a translation: if its text is blank, so is the
primary one, and no such row is the one that heads a table. So the catalog has one line
for each key, and each line is cut at the equals sign behind its key
(`render_copied`), from whatever lines the entries were read.
-/

namespace BundleAudit

namespace TableRow

/-- The row with its primary text as its translation. -/
def copyPrimary (r : TableRow) : TableRow := { r with translated := r.primary }

/-- A copied row says something. -/
theorem isKept_copyPrimary (r : TableRow) : r.copyPrimary.isKept = true := by
  have hheader : r.copyPrimary ≠ header := by
    intro h
    have hprimary : r.copyPrimary.primary = header.primary := by rw [h]
    have htranslated : r.copyPrimary.translated = header.translated := by rw [h]
    -- the two cells of the header differ, those of a copied row do not
    exact absurd (hprimary.symm.trans htranslated) (by decide)
  rw [isKept, Bool.and_eq_true, bne_iff_ne]
  exact ⟨hheader, Bool.not_or_self _⟩

end TableRow

namespace Package

open CatalogEntry

/-- The rows of entries without a translation, with their primary texts copied. -/
def copiedRows (module package : Text) (es : List CatalogEntry) : List TableRow :=
  (es.map (exportRow module package none)).map (·.copyPrimary)

/-- The translations that come from copied rows. -/
def copiedTranslations (es : List CatalogEntry) : KeyedList Text Text :=
  es.map fun e => (e.key, e.value.decodeEscapes)

/-- The line of an entry in the catalog that is made from copied rows. -/
def copiedLine (e : CatalogEntry) : Text :=
  e.key ++ Code.equals :: e.value.decodeEscapes.encodeNonAscii

variable {es : List CatalogEntry}

/-- No copied row is dropped. -/
theorem ofRows_copiedRows (hne : es ≠ []) (hkeys : (es.map (·.key)).Nodup)
    (source module package : Text) :
    Table.ofRows source ((copiedRows module package es).map (·.cells)) =
      .ok [(module, [(package, copiedTranslations es)])] := by
  have hrows : copiedRows module package es =
      es.map fun e => (exportRow module package none e).copyPrimary := List.map_map
  have hmem : ∀ r ∈ copiedRows module package es, ∃ e ∈ es,
      (exportRow module package none e).copyPrimary = r := by
    intro r hr
    rw [hrows] at hr
    exact List.mem_map.1 hr
  have hrowKeys : ((copiedRows module package es).map (·.key)).Nodup := by
    rw [hrows, List.map_map]
    exact hkeys
  have hof : ∀ r ∈ copiedRows module package es, r.module = module ∧ r.package = package := by
    intro r hr
    obtain ⟨e, -, rfl⟩ := hmem r hr
    exact ⟨rfl, rfl⟩
  rw [Table.ofRows_ofPackage ?_ hof ?_ hrowKeys, hrows, List.map_map]
  · rfl
  · rw [hrows]
    exact mt List.map_eq_nil_iff.1 hne
  · intro r hr
    obtain ⟨e, -, rfl⟩ := hmem r hr
    exact TableRow.isKept_copyPrimary _

theorem render_copiedTranslations (header : List Text) (es : List CatalogEntry) :
    Catalog.render header true (copiedTranslations es) =
      header ++ (Text.sortBy (·.key) es).map copiedLine := by
  rw [Catalog.render_eq, Catalog.writtenPairs, copiedTranslations, Text.sortBy_map, List.map_map,
    List.map_map]
  rfl

/-- **A catalog that is its own translation has the same keys.** -/
theorem render_copied {marker : Text} {lines : List Text}
    (hne : (CatalogEntry.ofLines marker lines).1 ≠ []) (source module package : Text)
    (header : List Text) :
    let es := (CatalogEntry.ofLines marker lines).1
    let body := (Text.sortBy (·.key) es).map copiedLine
    (Table.ofRows source ((copiedRows module package es).map (·.cells)) =
        .ok [(module, [(package, copiedTranslations es)])]) ∧
      Catalog.render header true (copiedTranslations es) = header ++ body ∧
      (Text.sort (es.map (·.key))).Pairwise (fun a b => a.lt b = true) ∧
      body.map (fun line => (line.cut? Code.equals).map Prod.fst) =
        (Text.sort (es.map (·.key))).map some := by
  intro es body
  have hkeys : (es.map (·.key)).Nodup := nodup_keys_ofLines marker lines
  have hsorted : Text.sort (es.map (·.key)) = (Text.sortBy (·.key) es).map (·.key) :=
    Text.sortBy_map id CatalogEntry.key es
  refine ⟨ofRows_copiedRows hne hkeys source module package, render_copiedTranslations header es,
    ?_, ?_⟩
  · rw [hsorted]
    exact Text.pairwise_lt_sortBy hkeys
  · rw [hsorted, List.map_map, List.map_map]
    refine List.map_congr_left fun e he => ?_
    obtain ⟨line, -, hkey⟩ := exists_definesKey ((Text.perm_sortBy _ es).mem_iff.1 he)
    show ((e.key ++ Code.equals :: _ : Text).cut? Code.equals).map Prod.fst = some e.key
    rw [Text.cut?_append_cons hkey.equals_not_mem]
    rfl

/-- An entry with a continuation and an escape, and one without a text. -/
theorem render_copied_sample :
    let es : List CatalogEntry := [⟨"b", "\\u00e9z", 1, false, 0⟩, ⟨"a", "", 3, false, 0⟩]
    (CatalogEntry.ofLines "YESI18N" ["b=\\u00e9\\", "  z", "a="]).1 = es ∧
      (Table.ofRows "t.csv" ((copiedRows "m" "p" es).map (·.cells)) =
        .ok [("m", [("p", copiedTranslations es)])]) ∧
      Catalog.render ["# h"] true (copiedTranslations es) = ["# h", "a=", "b=\\u00e9z"] := by
  intro es
  have hread : (CatalogEntry.ofLines "YESI18N" ["b=\\u00e9\\", "  z", "a="]).1 = es := by decide
  have hne : (CatalogEntry.ofLines "YESI18N" ["b=\\u00e9\\", "  z", "a="]).1 ≠ [] := by
    rw [hread]
    exact List.cons_ne_nil _ _
  have h := render_copied hne "t.csv" "m" "p" ["# h"]
  rw [hread] at h
  obtain ⟨htable, hrender, -, -⟩ := h
  have hsorted : Text.sortBy (·.key) es = es.reverse :=
    (Text.sortBy_eq_of_perm (List.reverse_perm es).symm (by decide)).trans
      (Text.sortBy_eq_self (by decide))
  refine ⟨hread, htable, ?_⟩
  rw [hrender, hsorted]
  decide

end Package

end BundleAudit
