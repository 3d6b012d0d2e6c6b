import BundleAudit.Catalog.File
import BundleAudit.Package.Translation
import BundleAudit.Proofs.Catalog.Rendering
import BundleAudit.Proofs.Table.Rows
import Mathlib.Data.List.Nodup

/-!
# BundleAudit.Proofs.Package.Translation

**What an export and an import keep.** The rows of a package go to a table file, from
the table comes a catalog, and its file is read again. From the entries that are read
the same rows are exported just if every row is stable (`reproduces_cycle?_iff`): a file
can hold its cells, and its translation holds no escape and stands on one whole line
of the catalog; a row that says nothing has no translation.

That stable rows are kept is seen stage by stage. The converse is a matter of weight:
no stage makes a text heavier, so where the rows come back every stage has kept the
weight, and a line that is not whole would have lost some.
-/

namespace BundleAudit

open CatalogEntry

/-! ### Rows -/

/-- Whether an export and an import keep a row. -/
def TableRow.isStable (escape : Bool) (r : TableRow) : Bool :=
  r.isStorable &&
    if r.isKept then
      !r.translated.hasEscape && (Catalog.written escape r.translated).isWhole
    else r.translated.isEmpty

theorem TableRow.isStable_iff {escape : Bool} {r : TableRow} : r.isStable escape = true ↔
    r.isStorable = true ∧
      (r.isKept = true → r.translated.hasEscape = false ∧
        (Catalog.written escape r.translated).isWhole = true) ∧
      (r.isKept = false → r.translated = []) := by
  rw [isStable, Bool.and_eq_true]
  cases r.isKept with
  | true => simp
  | false => simp

theorem TableRow.of_isStorable {r : TableRow} (h : r.isStorable = true) :
    r.key.all Code.isScalar = true ∧ r.translated.all Code.isScalar = true := by
  rw [isStorable, cells, List.all_cons, List.all_cons, List.all_cons] at h
  simp only [Csv.isStorable, Bool.and_eq_true] at h
  exact ⟨h.1.1, h.2.2.1.1⟩

namespace Catalog

/-- The translation of a key that is exported. -/
def textOf (translated : Option Catalog) (key : Text) : Text :=
  match translated.bind (·.get? key) with
  | some e => e.value.decodeEscapes
  | none => []

/-- The rows of the entries of a primary catalog. -/
def rows (module package : Text) (translated : Option Catalog) (primary : Catalog) :
    List TableRow :=
  primary.entries.map (Package.exportRow module package translated)

/-- The catalog of entries that were read from the file of a translation. -/
def ofEntries (path : Text) (entries : List CatalogEntry) : Catalog :=
  { path, kind := .translatedCatalog, entries }

variable {module package path key : Text} {translated : Option Catalog} {primary : Catalog}
  {es : List CatalogEntry}

theorem keys_rows :
    (primary.rows module package translated).map (·.key) = primary.entries.map (·.key) := by
  rw [rows, List.map_map]
  rfl

theorem mem_rows {r : TableRow} (h : r ∈ primary.rows module package translated) :
    (∃ e ∈ primary.entries, e.key = r.key) ∧ r.translated = textOf translated r.key ∧
      r.module = module ∧ r.package = package := by
  obtain ⟨e, he, rfl⟩ := List.mem_map.1 h
  exact ⟨⟨e, he, rfl⟩, rfl, rfl, rfl⟩

/-- Two translations have the same rows if they have the same texts for all keys. -/
theorem rows_eq_rows_iff {other : Option Catalog} :
    primary.rows module package other = primary.rows module package translated ↔
      ∀ r ∈ primary.rows module package translated, textOf other r.key = r.translated := by
  rw [rows, rows, List.map_inj_left, List.forall_mem_map]
  constructor
  · intro h e he
    exact congrArg TableRow.translated (h e he)
  · intro h e he
    have htext : textOf other e.key = textOf translated e.key := h e he
    show TableRow.mk e.key e.value (textOf other e.key) module package = _
    rw [htext]
    rfl

theorem find?_eq_get? (key : Text) (es : List CatalogEntry) :
    (es.find? (·.key = key)).map (·.value) = KeyedList.get? key (es.map pair) := by
  induction es with
  | nil => rfl
  | cons e rest ih =>
      rw [List.map_cons, List.find?_cons, pair, KeyedList.get?]
      by_cases h : e.key = key
      · rw [if_pos h]
        simp [h]
      · rw [if_neg h, ← ih]
        simp [h]

theorem textOf_ofEntries :
    textOf (some (ofEntries path es)) key =
      ((KeyedList.get? key (es.map pair)).map Text.decodeEscapes).getD [] := by
  rw [← find?_eq_get?]
  show (match es.find? (·.key = key) with
    | some e => e.value.decodeEscapes
    | none => []) = _
  cases es.find? (·.key = key) <;> rfl

/-- The text of a key that has an entry is that of one of its entries. -/
theorem exists_textOf_ofEntries (path : Text) (h : ∃ e ∈ es, e.key = key) :
    ∃ e ∈ es, e.key = key ∧ textOf (some (ofEntries path es)) key = e.value.decodeEscapes := by
  have hsome : (es.find? (·.key = key)).isSome = true := by
    rw [List.find?_isSome]
    obtain ⟨e, he, hkey⟩ := h
    exact ⟨e, he, decide_eq_true hkey⟩
  obtain ⟨e, hfind⟩ := Option.isSome_iff_exists.1 hsome
  have hkey := List.find?_some hfind
  simp only [decide_eq_true_eq] at hkey
  refine ⟨e, List.mem_of_find?_eq_some hfind, hkey, ?_⟩
  rw [textOf_ofEntries, ← find?_eq_get?, hfind]
  rfl

/-- The keys of a catalog that was read. -/
theorem haveKeys_of_read {s : Settings} {t : Tree} {c : Catalog} {malformed : List MalformedLine}
    (h : c.read s t = .ok (primary, malformed)) : HaveKeys primary.entries := by
  rw [read, Tree.readLines] at h
  cases hbytes : t.read c.path with
  | error failure =>
      rw [hbytes] at h
      cases h
  | ok bytes =>
      rw [hbytes] at h
      cases h
      exact haveKeys_ofLines _ bytes

/-! ### Texts -/

theorem all_isScalar_written {value : Text} (escape : Bool)
    (h : value.all Code.isScalar = true) : (written escape value).all Code.isScalar = true := by
  unfold written
  split
  · exact List.all_eq_true.2 fun c hc => Code.isScalar_of_ascii (Text.lt_of_mem_encodeNonAscii hc)
  · exact h

theorem decodeEscapes_written {value : Text} (escape : Bool)
    (hscalar : value.all Code.isScalar = true)
    (hescape : value.hasEscape = false) : (written escape value).decodeEscapes = value := by
  have hrange : ∀ c ∈ value, c < 0x110000 := fun c hc =>
    (Code.isScalar_iff.1 (List.all_eq_true.1 hscalar c hc)).1
  have hhigh : ∀ c ∈ value, Code.isHighSurrogate c = false := fun c hc =>
    Text.isHighSurrogate_of_isScalar (List.all_eq_true.1 hscalar c hc)
  unfold written
  split
  · rw [Text.decodeEscapes_encodeNonAscii hrange, Text.unescape_eq_self hescape,
      Text.joinPairs_eq_self hhigh]
  · exact Text.decodeEscapes_eq_self hscalar hescape

theorem length_decodeEscapes_written_le {value : Text} (escape : Bool)
    (h : ∀ c ∈ value, c < 0x110000) :
    (written escape value).decodeEscapes.length ≤ value.length := by
  unfold written
  split
  · rw [Text.decodeEscapes_encodeNonAscii h]
    exact Nat.le_trans (Text.length_joinPairs_le _) (Text.length_unescape value).1
  · exact (Text.length_decodeEscapes value).1

end Catalog

namespace Package

/-! ### Cycles -/

/-- The entries that are read again after rows are written to a table file and a catalog is made
from what is read of that; none if a stage fails. -/
def cycle? (s : Settings) (source : Path) (header : Bool) (module package : Text)
    (rows : List TableRow) : Option (List CatalogEntry) := do
  let table ← Table.reread? source.toText header rows
  let translations ← table.package? module package
  Catalog.reread? s.intentionalMarker (Catalog.header Catalog.toolName source.name)
    s.escapeNonAscii translations

/-- The rows of a package are exported again from the entries that were read, and no key of a row
that holds a translation is lost. -/
structure Reproduces (module package : Text) (primary : Catalog) (rows : List TableRow)
    (entries : List CatalogEntry) : Prop where
  rows_eq : ∀ path, primary.rows module package (some (.ofEntries path entries)) = rows
  keys : ∀ r ∈ rows, r.isKept = true → ∃ e ∈ entries, e.key = r.key

/-- Rows of one package with distinct keys, each of which can be the key of an entry. -/
structure OfPackage (module package : Text) (rows : List TableRow) : Prop where
  mem : ∀ r ∈ rows, r.module = module ∧ r.package = package
  nodup : (rows.map (·.key)).Nodup
  isKey : ∀ r ∈ rows, IsKey r.key

/-- What rows add to the translations of their package. -/
def translationsOf (rows : List TableRow) : KeyedList Text Text :=
  (rows.filter (·.isKept)).map (·.translation)

section Cycle

variable {s : Settings} {source : Path} {header : Bool} {module package path : Text}
  {primary : Catalog} {translated : Option Catalog} {rows : List TableRow}

theorem ofPackage_rows (h : HaveKeys primary.entries) :
    OfPackage module package (primary.rows module package translated) where
  mem r hr := (Catalog.mem_rows hr).2.2
  nodup := Catalog.keys_rows ▸ h.nodup
  isKey r hr := by
    obtain ⟨⟨e, he, hkey⟩, -⟩ := Catalog.mem_rows hr
    exact hkey ▸ h.isKey e he

theorem mem_translationsOf {p : Text × Text} :
    p ∈ translationsOf rows ↔ ∃ r ∈ rows, r.isKept = true ∧ r.translation = p := by
  simp only [translationsOf, List.mem_map, List.mem_filter, and_assoc]

theorem OfPackage.nodup_translationsOf (h : OfPackage module package rows) :
    (translationsOf rows).keys.Nodup := by
  rw [KeyedList.keys, translationsOf, List.map_map]
  exact h.nodup.sublist (List.filter_sublist.map _)

theorem OfPackage.isKey_translationsOf (h : OfPackage module package rows) :
    ∀ p ∈ translationsOf rows, IsKey p.1 := by
  intro p hp
  obtain ⟨r, hr, -, rfl⟩ := mem_translationsOf.1 hp
  exact h.isKey r hr

theorem header_ne_nil : Catalog.header Catalog.toolName source.name ≠ [] := List.cons_ne_nil _ _

theorem isComment_header (hline : source.name.isLine = true)
    (hscalar : source.name.all Code.isScalar = true) :
    (Catalog.header Catalog.toolName source.name).all Catalog.isComment = true := by
  have hfirst : Catalog.isComment ("# Generated by " ++ Catalog.toolName ++ " from ") = true := by
    decide
  have hsecond :
      Catalog.isComment "# Do not edit: changes are overwritten by the next import." = true := by
    decide
  obtain ⟨hhash, hfirstLine, hfirstScalar⟩ := Catalog.isComment_iff.1 hfirst
  rw [Catalog.header, List.all_cons, List.all_cons, hsecond, List.all_nil, Bool.and_true,
    Bool.and_true]
  refine Catalog.isComment_iff.2 ⟨rfl, ?_, ?_⟩
  · rw [Text.isLine, List.all_append, ← Text.isLine, hfirstLine, ← Text.isLine, hline]
    rfl
  · rw [List.all_append, hfirstScalar, hscalar]
    rfl

/-- The stages of a cycle: the table file gives the rows back if it can hold them, and the catalog
gets their translations. -/
theorem cycle?_eq (h : OfPackage module package rows) (hkept : rows.any (·.isKept) = true) :
    cycle? s source header module package rows =
      if rows.all (·.isStorable) then
        Catalog.reread? s.intentionalMarker (Catalog.header Catalog.toolName source.name)
          s.escapeNonAscii (translationsOf rows)
      else none := by
  -- the rows are those of one package, so the table holds just that one
  rw [cycle?, Table.reread?_eq]
  split
  · rw [Option.bind_eq_bind, Option.bind_some, Table.package?_foldl_nil h.mem h.nodup hkept]
    rfl
  · rfl

/-- Where all lines are whole, the text of each row is the one that was written for it. -/
theorem textOf_of_map_pair {escape : Bool} {es : List CatalogEntry}
    (h : OfPackage module package rows)
    (hes : es.map pair = Catalog.writtenPairs escape (translationsOf rows)) :
    ∀ r ∈ rows, Catalog.textOf (some (.ofEntries path es)) r.key =
      if r.isKept then (Catalog.written escape r.translation.2).decodeEscapes else [] := by
  intro r hr
  have hnodup := Catalog.keys_writtenPairs escape h.nodup_translationsOf
  rw [Catalog.textOf_ofEntries, hes]
  split
  · next hkept =>
      have hmem : (r.key, Catalog.written escape r.translation.2) ∈
          Catalog.writtenPairs escape (translationsOf rows) :=
        Catalog.mem_writtenPairs.2 ⟨r.translation, mem_translationsOf.2 ⟨r, hr, hkept, rfl⟩, rfl⟩
      rw [KeyedList.get?_eq_some hnodup hmem]
      rfl
  · next hkept =>
      have hnew : r.key ∉ KeyedList.keys (Catalog.writtenPairs escape (translationsOf rows)) := by
        intro hmem
        obtain ⟨p, hp, hpkey⟩ := List.mem_map.1 hmem
        obtain ⟨q, hq, rfl⟩ := Catalog.mem_writtenPairs.1 hp
        obtain ⟨r', hr', hkept', rfl⟩ := mem_translationsOf.1 hq
        -- no other row has the key
        rw [List.inj_on_of_nodup_map h.nodup hr' hr hpkey] at hkept'
        exact hkept hkept'
      rw [KeyedList.get?_eq_none hnew]
      rfl

/-- What a stable row that holds a translation adds to a table is its text. -/
theorem translation_eq_of_isStable {escape : Bool} {r : TableRow} (h : r.isStable escape = true)
    (hkept : r.isKept = true) : r.translation = (r.key, r.translated) := by
  obtain ⟨hstorable, hholds, -⟩ := TableRow.isStable_iff.1 h
  have hscalar := (TableRow.of_isStorable hstorable).2
  rw [TableRow.translation, Text.decodeEscapes_eq_self hscalar (hholds hkept).1]

/-- Stable rows are kept by a cycle. -/
theorem reproduces_of_isStable (hkeys : HaveKeys primary.entries)
    (hheader : (Catalog.header Catalog.toolName source.name).all Catalog.isComment = true)
    (hrows : rows = primary.rows module package translated) (hkept : rows.any (·.isKept) = true)
    (hstable : ∀ r ∈ rows, r.isStable s.escapeNonAscii = true) :
    ∃ entries, cycle? s source header module package rows = some entries ∧
      Reproduces module package primary rows entries := by
  have hpackage : OfPackage module package rows := hrows ▸ ofPackage_rows hkeys
  have hstorable : rows.all (·.isStorable) = true :=
    List.all_eq_true.2 fun r hr => (TableRow.isStable_iff.1 (hstable r hr)).1
  have hscalar : ∀ p ∈ translationsOf rows,
      (Catalog.entryLine s.escapeNonAscii p.1 p.2).all Code.isScalar = true := by
    intro p hp
    obtain ⟨r, hr, hkept, rfl⟩ := mem_translationsOf.1 hp
    obtain ⟨hkey, htranslated⟩ := TableRow.of_isStorable (List.all_eq_true.1 hstorable r hr)
    have hequals : Code.isScalar Code.equals = true := rfl
    have hwritten := Catalog.all_isScalar_written s.escapeNonAscii htranslated
    rw [translation_eq_of_isStable (hstable r hr) hkept]
    show (r.key ++ Code.equals :: Catalog.written s.escapeNonAscii r.translated).all _ = true
    rw [List.all_append, List.all_cons, hkey, hequals, hwritten]
    rfl
  have hwhole : ∀ p ∈ translationsOf rows,
      (Catalog.written s.escapeNonAscii p.2).isWhole = true := by
    intro p hp
    obtain ⟨r, hr, hkept, rfl⟩ := mem_translationsOf.1 hp
    rw [translation_eq_of_isStable (hstable r hr) hkept]
    exact ((TableRow.isStable_iff.1 (hstable r hr)).2.1 hkept).2
  obtain ⟨es, hread⟩ := Catalog.exists_reread? s.intentionalMarker header_ne_nil hheader hscalar
  have hes := Catalog.map_reread? header_ne_nil hheader hpackage.isKey_translationsOf
    hpackage.nodup_translationsOf hwhole hread
  refine ⟨es, by rw [cycle?_eq hpackage hkept, if_pos hstorable, hread], ?_, ?_⟩
  · intro path
    rw [hrows, Catalog.rows_eq_rows_iff, ← hrows]
    intro r hr
    obtain ⟨hstorable, hholds, hempty⟩ := TableRow.isStable_iff.1 (hstable r hr)
    rw [textOf_of_map_pair hpackage hes r hr]
    split
    · next hkept =>
        rw [translation_eq_of_isStable (hstable r hr) hkept]
        exact Catalog.decodeEscapes_written _ (TableRow.of_isStorable hstorable).2 (hholds hkept).1
    · next hkept => exact (hempty (Bool.eq_false_iff.2 hkept)).symm
  · intro r hr hkept
    have hmem : (r.key, Catalog.written s.escapeNonAscii r.translation.2) ∈ es.map pair := by
      rw [hes]
      exact Catalog.mem_writtenPairs.2
        ⟨r.translation, mem_translationsOf.2 ⟨r, hr, hkept, rfl⟩, rfl⟩
    obtain ⟨e, he, hpair⟩ := List.mem_map.1 hmem
    exact ⟨e, he, (Prod.mk.inj hpair).1⟩

/-- What comes back from a cycle weighs as much as what was written, so all lines were whole. -/
theorem isWhole_of_reproduces {entries : List CatalogEntry}
    (hpackage : OfPackage module package rows)
    (hheader : (Catalog.header Catalog.toolName source.name).all Catalog.isComment = true)
    (hread : Catalog.reread? s.intentionalMarker (Catalog.header Catalog.toolName source.name)
      s.escapeNonAscii (translationsOf rows) = some entries)
    (htexts : ∀ r ∈ rows, Catalog.textOf (some (.ofEntries path entries)) r.key = r.translated)
    (hkeys : ∀ r ∈ rows, r.isKept = true → ∃ e ∈ entries, e.key = r.key) :
    ∀ p ∈ translationsOf rows, (Catalog.written s.escapeNonAscii p.2).isWhole = true := by
  have hperm := Text.perm_sortBy Prod.fst (translationsOf rows)
  have hle : Text.weight ((Text.sortBy Prod.fst (translationsOf rows)).flatMap lineOf) ≤
      load entries := by
    refine weight_le_load ((hperm.map Prod.fst).nodup_iff.2 hpackage.nodup_translationsOf) ?_
    intro p hp
    obtain ⟨r, hr, hkept, rfl⟩ := mem_translationsOf.1 (hperm.mem_iff.1 hp)
    obtain ⟨e, he, hekey, htext⟩ := Catalog.exists_textOf_ofEntries path (hkeys r hr hkept)
    refine ⟨e, he, hekey, ?_⟩
    rw [htexts r hr] at htext
    have hweight := Text.weight_decodeEscapes_le r.translated
    have hweight' := Text.weight_decodeEscapes_le e.value
    rw [← htext] at hweight'
    exact Nat.le_trans hweight hweight'
  intro p hp
  cases hwhole : (Catalog.written s.escapeNonAscii p.2).isWhole with
  | true => rfl
  | false =>
      have hlt := Catalog.load_lt_of_reread? header_ne_nil hheader hpackage.isKey_translationsOf
        ⟨p, hp, hwhole⟩ hread
      rw [Catalog.weight_writtenPairs] at hlt
      omega

/-- Rows that are kept by a cycle are stable. -/
theorem isStable_of_reproduces {entries : List CatalogEntry} (hkeys : HaveKeys primary.entries)
    (hheader : (Catalog.header Catalog.toolName source.name).all Catalog.isComment = true)
    (hrows : rows = primary.rows module package translated) (hkept : rows.any (·.isKept) = true)
    (hcycle : cycle? s source header module package rows = some entries)
    (h : Reproduces module package primary rows entries) :
    ∀ r ∈ rows, r.isStable s.escapeNonAscii = true := by
  have hpackage : OfPackage module package rows := hrows ▸ ofPackage_rows hkeys
  have htexts : ∀ r ∈ rows, Catalog.textOf (some (.ofEntries [] entries)) r.key = r.translated := by
    have hrows' := h.rows_eq []
    rw [hrows, Catalog.rows_eq_rows_iff, ← hrows] at hrows'
    exact hrows'
  rw [cycle?_eq hpackage hkept] at hcycle
  split at hcycle
  · next hstorable =>
      have hwhole := isWhole_of_reproduces hpackage hheader hcycle htexts h.keys
      have hes := Catalog.map_reread? header_ne_nil hheader
        hpackage.isKey_translationsOf hpackage.nodup_translationsOf hwhole hcycle
      intro r hr
      have hstorable := List.all_eq_true.1 hstorable r hr
      have hscalar := (TableRow.of_isStorable hstorable).2
      have htext := htexts r hr
      rw [textOf_of_map_pair hpackage hes r hr] at htext
      refine TableRow.isStable_iff.2 ⟨hstorable, fun hkept => ?_, fun hkept => ?_⟩
      · rw [if_pos hkept] at htext
        have hrange : ∀ c ∈ r.translation.2, c < 0x110000 :=
          Text.lt_of_mem_decodeEscapes fun c hc =>
            (Code.isScalar_iff.1 (List.all_eq_true.1 hscalar c hc)).1
        -- an escape would have made the text shorter for good
        have hlength := Catalog.length_decodeEscapes_written_le s.escapeNonAscii hrange
        rw [htext] at hlength
        have hescape : r.translated.hasEscape = false := by
          rw [Bool.eq_false_iff]
          intro hescape
          exact absurd ((Text.length_decodeEscapes r.translated).2 hescape) (Nat.not_lt.2 hlength)
        have hwhole := hwhole r.translation (mem_translationsOf.2 ⟨r, hr, hkept, rfl⟩)
        rw [TableRow.translation, Text.decodeEscapes_eq_self hscalar hescape] at hwhole
        exact ⟨hescape, hwhole⟩
      · rw [if_neg (by simp [hkept])] at htext
        exact htext.symm
  · cases hcycle

/-- **An export and an import keep the rows of a package just if each of them is stable.** -/
theorem reproduces_cycle?_iff {t : Tree} {c : Catalog} {malformed : List MalformedLine}
    (hread : c.read s t = .ok (primary, malformed)) (translated : Option Catalog) (header : Bool)
    (hline : source.name.isLine = true) (hscalar : source.name.all Code.isScalar = true)
    (hkept : (primary.rows module package translated).any (·.isKept) = true) :
    (∃ entries,
      cycle? s source header module package (primary.rows module package translated) =
        some entries ∧
      Reproduces module package primary (primary.rows module package translated) entries) ↔
    ∀ r ∈ primary.rows module package translated, r.isStable s.escapeNonAscii = true := by
  have hkeys := Catalog.haveKeys_of_read hread
  have hheader := isComment_header hline hscalar
  constructor
  · rintro ⟨entries, hcycle, h⟩
    exact isStable_of_reproduces hkeys hheader rfl hkept hcycle h
  · exact reproduces_of_isStable hkeys hheader rfl hkept

end Cycle

/-- A tree with a primary catalog and its translation. -/
def translatedTree (primary translated : Text) : Tree :=
  { entries :=
      [([Text.ofString "Bundle.properties"], .ofText primary),
        ([Text.ofString "Bundle_de.properties"], .ofText translated)] }

/-- Where the table file of a cycle is. -/
def tablePath : Path := ⟨[Code.slash], [Text.ofString "translations.csv"]⟩

/-- The primary catalog of the tree, before it is read. -/
def primaryFile : Catalog := { path := "/Bundle.properties", kind := .primaryCatalog }

/-- The translated catalog of the tree, before it is read. -/
def translatedFile : Catalog := { path := "/Bundle_de.properties", kind := .translatedCatalog }

/-- A translated entry, one without a text, and one without a translation. -/
theorem reproduces_cycle?_iff_sample :
    let tree := translatedTree "k=green\nl=\nm=red\n" "k=gr\\u00fcn\n"
    let primary := { primaryFile with
      entries := [⟨"k", "green", 1, false, 0⟩, ⟨"l", "", 2, false, 0⟩, ⟨"m", "red", 3, false, 0⟩] }
    let translated := { translatedFile with entries := [⟨"k", "gr\\u00fcn", 1, false, 0⟩] }
    let rows := primary.rows "org.example" "org/example" (some translated)
    primaryFile.read .standard tree = .ok (primary, []) ∧
      translatedFile.read .standard tree = .ok (translated, []) ∧
      ∃ entries,
        cycle? .standard tablePath true "org.example" "org/example" rows = some entries ∧
        Reproduces "org.example" "org/example" primary rows entries := by
  have hread := Failure.eq_ok_of_toOption (x := primaryFile.read .standard
    (translatedTree "k=green\nl=\nm=red\n" "k=gr\\u00fcn\n"))
    (a := ({ primaryFile with
      entries := [⟨"k", "green", 1, false, 0⟩, ⟨"l", "", 2, false, 0⟩, ⟨"m", "red", 3, false, 0⟩] },
      [])) (by decide +kernel)
  refine ⟨hread, Failure.eq_ok_of_toOption (by decide +kernel), ?_⟩
  refine (reproduces_cycle?_iff hread _ true (by decide) (by decide) (by decide +kernel)).2 ?_
  decide +kernel

/-- A line feed that was escaped is written as it is, and cuts the value off. -/
theorem lineFeed_not_reproduced :
    let tree := translatedTree "k=x\n" "k=a\\u000ab\n"
    let primary := { primaryFile with entries := [⟨"k", "x", 1, false, 0⟩] }
    let translated := { translatedFile with entries := [⟨"k", "a\\u000ab", 1, false, 0⟩] }
    let rows := primary.rows "m" "p" (some translated)
    primaryFile.read .standard tree = .ok (primary, []) ∧
      translatedFile.read .standard tree = .ok (translated, []) ∧
      rows.any (·.isKept) = true ∧
      ∃ entries,
        cycle? .standard tablePath true "m" "p" rows = some entries ∧
        entries.map pair = [(Text.ofString "k", Text.ofString "a")] ∧
        ¬Reproduces "m" "p" primary rows entries := by
  refine ⟨Failure.eq_ok_of_toOption (by decide +kernel),
    Failure.eq_ok_of_toOption (by decide +kernel), by decide +kernel, ?_⟩
  refine ⟨[⟨"k", "a", 3, false, 0⟩], by decide +kernel, by decide, fun h => ?_⟩
  exact absurd (h.rows_eq []) (by decide +kernel)

end Package

end BundleAudit
