import BundleAudit.Files.Read
import BundleAudit.Proofs.Catalog.Rendering
import BundleAudit.Proofs.Files.Write
import BundleAudit.Proofs.Text.Whole
import Mathlib.Data.List.Infix

/-!
# BundleAudit.Proofs.Catalog.Rereading

**A catalog file holds the translations that were rendered to it** (`reads_writeLines_render`).
Every line comes back as it was written, so reading passes over the header and makes an entry
of each line behind it: the keys in ascending order, with the escaped values.
-/

namespace BundleAudit

/-- A text includes what is a part of it. -/
theorem Text.includes_iff {t sub : Text} : t.includes sub = true ↔ sub <:+: t := by
  induction t with
  | nil => rw [includes, List.isEmpty_iff, List.infix_nil]
  | cons c rest ih =>
      rw [includes, Bool.or_eq_true, List.isPrefixOf_iff_prefix, ih, List.infix_cons_iff]

namespace Catalog

open CatalogEntry

variable {marker : Text} {header : List Text} {translations : KeyedList Text Text}

/-- A header of comments that say nothing about the entries. -/
structure IsHeader (marker : Text) (header : List Text) : Prop where
  ne_nil : header ≠ []
  isComment : ∀ line ∈ header, isComment line = true
  noMarker : ∀ line ∈ header, line.includes marker = false

/-- Translations that can be written on one line each. -/
structure FitLines (translations : KeyedList Text Text) : Prop where
  nodup : translations.keys.Nodup
  isKey : ∀ p ∈ translations, IsKey p.1
  isScalar : ∀ p ∈ translations, p.1.all Code.isScalar = true
  /-- A value has no line boundary in it once it is escaped. -/
  isLine : ∀ p ∈ translations, p.2.encodeNonAscii.isLine = true
  noBlank : ∀ p ∈ translations, ∀ c ∈ p.2.encodeNonAscii.getLast?, c.isBlank = false
  /-- It does not go on in the next line. -/
  backslashes : ∀ p ∈ translations, p.2.encodeNonAscii.trailingBackslashes % 2 = 0

/-- Entries that mirror translations: one for each key, in ascending order, with the escaped value,
on the lines behind a header. None is declared to be in use. -/
structure Mirrors (header : List Text) (translations : KeyedList Text Text)
    (es : List CatalogEntry) : Prop where
  keys : (es.map (·.key)).Perm translations.keys
  sorted : (es.map (·.key)).Pairwise fun a b => a.lt b = true
  entry : ∀ (i : Nat) (e : CatalogEntry), es[i]? = some e →
    ∃ value, (e.key, value) ∈ translations ∧
      e = { key := e.key, value := value.encodeNonAscii, line := header.length + (i + 1)
            intentional := false, uses := 0 }

/-- What a comment says stands in its line. -/
theorem IsHeader.noMarker_tail (h : IsHeader marker header) :
    (header.any fun line => Text.includes line.trim.tail marker) = false := by
  refine List.any_eq_false.2 fun line hline hincludes => ?_
  have hinfix : line.trim.tail <:+: line :=
    (List.tail_suffix _).isInfix.trans (Text.isInfix_trim line)
  have hmarker := Text.includes_iff.2 ((Text.includes_iff.1 hincludes).trans hinfix)
  rw [h.noMarker line hline] at hmarker
  cases hmarker

theorem FitLines.isWhole (h : FitLines translations) :
    ∀ p ∈ writtenPairs true translations, p.2.isWhole = true := by
  intro p hp
  obtain ⟨q, hq, rfl⟩ := mem_writtenPairs.1 hp
  have htrim := Text.trimRight_eq_self (h.noBlank q hq)
  refine Text.isWhole_iff.2 ⟨h.isLine q hq, htrim, ?_⟩
  rw [written, if_pos rfl, Text.continues, htrim, h.backslashes q hq]
  rfl

theorem FitLines.all_isScalar (h : FitLines translations) (hheader : IsHeader marker header) :
    (Text.ofLines (render header true translations)).all Code.isScalar = true := by
  rw [all_isScalar_ofLines, render_eq, List.all_append, Bool.and_eq_true, List.all_map]
  refine ⟨List.all_eq_true.2 fun line hline => ?_, List.all_eq_true.2 fun p hp => ?_⟩
  · exact (isComment_iff.1 (hheader.isComment line hline)).2.2
  · obtain ⟨q, hq, rfl⟩ := mem_writtenPairs.1 hp
    have hequals : Code.isScalar Code.equals = true := rfl
    have hvalue : q.2.encodeNonAscii.all Code.isScalar = true := List.all_eq_true.2 fun c hc =>
      Code.isScalar_of_ascii (Text.lt_of_mem_encodeNonAscii hc)
    simp [lineOf, written, h.isScalar q hq, hequals, hvalue]

/-- The lines that are rendered are read as the entries. -/
theorem ofLines_render (hheader : IsHeader marker header) (h : FitLines translations) :
    CatalogEntry.ofLines marker (render header true translations) =
      (entriesFrom (header.length + 1) false (writtenPairs true translations), []) := by
  have hcomments : ∀ line ∈ header, line.isLine = true ∧ line.head? = some Code.hash := by
    intro line hline
    obtain ⟨hhash, hline, -⟩ := isComment_iff.1 (hheader.isComment line hline)
    exact ⟨hline, hhash⟩
  have hread := readLines_comments marker (r := {}) 1 rfl hcomments
  rw [hheader.noMarker_tail, Bool.or_false] at hread
  have hwhole := readLines_whole marker (r := {}) (header.length + 1) rfl
    (isKey_writtenPairs true h.isKey) h.isWhole (keys_writtenPairs true h.nodup)
  rw [CatalogEntry.ofLines, render_eq, readLines_append, hread, Nat.add_comm 1, hwhole]
  simp

theorem mirrors_entriesFrom (h : translations.keys.Nodup) :
    Mirrors header translations
      (entriesFrom (header.length + 1) false (writtenPairs true translations)) := by
  have hkeys :
      (entriesFrom (header.length + 1) false (writtenPairs true translations)).map (·.key) =
        (Text.sortBy Prod.fst translations).map Prod.fst := by
    have hpairs := congrArg (List.map Prod.fst)
      (map_pair_entriesFrom (header.length + 1) false (writtenPairs true translations))
    rw [List.map_map] at hpairs
    refine hpairs.trans ?_
    rw [writtenPairs, List.map_map]
    rfl
  constructor
  case keys =>
      rw [hkeys]
      exact (Text.perm_sortBy Prod.fst translations).map Prod.fst
  case sorted =>
      rw [hkeys]
      exact Text.pairwise_lt_sortBy h
  case entry =>
      intro i e he
      rw [entriesFrom, List.getElem?_mapIdx] at he
      obtain ⟨p, hp, rfl⟩ := Option.map_eq_some_iff.1 he
      obtain ⟨q, hq, rfl⟩ := mem_writtenPairs.1 (List.mem_of_getElem? hp)
      refine ⟨q.2, hq, ?_⟩
      simp [written, Nat.add_assoc, Nat.add_comm 1]

/-- **What is rendered to a file is read from it:** once the lines are written, reading them gives
an entry for each key with nothing malformed, in ascending order of the keys and with the escaped
values. -/
theorem reads_writeLines_render {t : Tree} {path : Text} (htakes : t.TakesFile (Path.ofText path))
    (hheader : IsHeader marker header) (h : FitLines translations) :
    ∃ t' lines es,
      t.writeLines (Path.ofText path) (render header true translations) = (t', none) ∧
      t'.readLines (Path.ofText path).toText = .ok lines ∧
      CatalogEntry.ofLines marker lines = (es, []) ∧ Mirrors header translations es := by
  have hscalar := h.all_isScalar hheader
  obtain ⟨t', hwrite, hread⟩ := htakes.read_writeText (Path.isNormal_ofText path) hscalar
  have hlines : Text.linesOfBytes
      ((Text.ofLines (render header true translations)).flatMap Text.utf8Code) =
        render header true translations := by
    rw [render_eq] at hscalar ⊢
    rw [linesOfBytes_ofLines hheader.ne_nil (List.all_eq_true.2 hheader.isComment)
      (Text.toUtf8?_eq_some_iff.2 ⟨hscalar, rfl⟩), Text.lines_ofLines]
    exact isLine_of_mem_map_lineOf (isKey_writtenPairs true h.isKey) fun p hp =>
      (Text.isWhole_iff.1 (h.isWhole p hp)).1
  refine ⟨t', _, _, hwrite, ?_, ofLines_render hheader h, mirrors_entriesFrom h.nodup⟩
  rw [Tree.readLines, hread, Except.map, hlines]

/-- A tree with an older catalog. -/
def staleTree : Tree :=
  { here := [Text.ofString "work"]
    entries :=
      [([Text.ofString "work"], .directory),
        ([Text.ofString "work", Text.ofString "m_de.properties"], .ofText "k=old")] }

/-- Translations with an empty value, leading blanks, what looks like an entry or a comment, and a
single surrogate; keys with a blank and letters beyond ASCII. -/
def hardTranslations : KeyedList Text Text :=
  [("z", " x = y"), ("ключ", "#ключ\\\\"), ("a b", []), ("é", [0x1F600, 0xD800])]

theorem takesFile_staleTree : staleTree.TakesFile (Path.ofText "m_de.properties") := by
  have hlink : ∀ name, staleTree.NoLinkHas name := fun name =>
    Tree.NoLinkHas.of_entries fun l target => by simp [staleTree, Entry.ofText]
  exact Tree.IsWritable.takesFile (Path.isNormal_ofText _)
    ⟨Option.isNone_iff_eq_none.1 (by decide +kernel), hlink _, hlink _⟩

theorem isHeader_default : IsHeader "@keep" (Catalog.header toolName "t.csv") :=
  ⟨by decide, by decide, by decide⟩

theorem fitLines_hardTranslations : FitLines hardTranslations where
  nodup := by decide +kernel
  isKey := by
    have hkey : ∀ p ∈ hardTranslations, p.1 ≠ [] ∧ p.1.trim = p.1 ∧ Code.equals ∉ p.1 ∧
        p.1.head? ≠ some Code.hash ∧ p.1.isLine = true := by decide +kernel
    intro p hp
    obtain ⟨hne, htrim, hequals, hhash, hline⟩ := hkey p hp
    exact ⟨hne, htrim, hequals, hhash, hline⟩
  isScalar := by decide +kernel
  isLine := by decide +kernel
  noBlank := by decide +kernel
  backslashes := by decide +kernel

theorem reads_writeLines_render_sample :
    staleTree.TakesFile (Path.ofText "m_de.properties") ∧
      IsHeader "@keep" (Catalog.header toolName "t.csv") ∧ FitLines hardTranslations ∧
      ∃ t' lines es,
        staleTree.writeLines (Path.ofText "m_de.properties")
          (render (Catalog.header toolName "t.csv") true hardTranslations) = (t', none) ∧
        t'.readLines (Path.ofText "m_de.properties").toText = .ok lines ∧
        CatalogEntry.ofLines "@keep" lines = (es, []) ∧
        Mirrors (Catalog.header toolName "t.csv") hardTranslations es :=
  ⟨takesFile_staleTree, isHeader_default, fitLines_hardTranslations,
    reads_writeLines_render takesFile_staleTree isHeader_default fitLines_hardTranslations⟩

end Catalog

end BundleAudit
