import BundleAudit.Proofs.Catalog.Usage
import BundleAudit.Proofs.KeyedList
import BundleAudit.Proofs.Package.Translation
import BundleAudit.Proofs.Text.Whole

/-!
# BundleAudit.Proofs.Catalog.Return

**A translated catalog gives its texts back.** A text without escapes that is read as one
whole line when it is escaped (`IsTransferable`) is the text that its key has in the
catalog, once the catalog was written and read; and keys that were not written have no
text (`textOf_of_read?`).
-/

namespace BundleAudit

open CatalogEntry

/-- A text that a translated catalog gives back: it has no surrogates and no escapes, no ASCII line
boundary, and at its end no ASCII blank and no odd number of backslashes. -/
structure Text.IsTransferable (text : Text) : Prop where
  isScalar : text.all Code.isScalar = true
  noEscape : text.hasEscape = false
  noBoundary : ∀ c ∈ text, c < 0x80 → c.isLineBoundary = false
  noBlank : ∀ c ∈ text.getLast?, c < 0x80 → c.isBlank = false
  evenBackslashes : trailingBackslashes text % 2 = 0

namespace Catalog

variable {s : Settings} {t : Tree} {header : List Text} {translations : KeyedList Text Text}
  {text key path : Text} {kind : FileKind} {c : Catalog}

theorem isWhole_of_isTransferable (h : text.IsTransferable) :
    (written true text).isWhole = true :=
  (Text.isWhole_encodeNonAscii_iff fun c hc =>
    (Code.isScalar_iff.1 (List.all_eq_true.1 h.isScalar c hc)).1).2
      ⟨h.noBoundary, h.noBlank, h.evenBackslashes⟩

theorem get?_writtenPairs (escape : Bool) (h : translations.keys.Nodup) (key : Text) :
    KeyedList.get? key (writtenPairs escape translations) =
      (KeyedList.get? key translations).map (written escape) := by
  cases hget : KeyedList.get? key translations with
  | some text =>
      exact KeyedList.get?_eq_some (keys_writtenPairs escape h)
        (mem_writtenPairs.2 ⟨_, KeyedList.mem_of_get?_eq_some hget, rfl⟩)
  | none =>
      refine KeyedList.get?_eq_none fun hmem => ?_
      obtain ⟨p, hp, rfl⟩ := List.mem_map.1 hmem
      obtain ⟨q, hq, rfl⟩ := mem_writtenPairs.1 hp
      exact KeyedList.not_mem_keys_of_get?_eq_none hget (List.mem_map.2 ⟨q, hq, rfl⟩)

/-- The entries that are read of a catalog are those of the bytes of its file. -/
theorem entries_of_read? {bytes : Bytes} (hbytes : t.read path = .ok bytes)
    (h : Catalog.read? s t { path, kind } = some c) :
    c.entries = (CatalogEntry.ofLines s.intentionalMarker (Text.linesOfBytes bytes)).1 := by
  obtain ⟨malformed, hread⟩ := read?_eq_some_iff.1 h
  rw [read, Tree.readLines, hbytes] at hread
  cases hread
  rfl

/-- **The texts of a catalog that was written and read are those that it was made from.** -/
theorem textOf_of_read? (hnonempty : header ≠ [])
    (hheader : ∀ line ∈ header, line.head? = some Code.hash ∧ line.isLine = true)
    (hkeys : ∀ p ∈ translations, IsKey p.1) (hnodup : translations.keys.Nodup)
    (htexts : ∀ p ∈ translations, p.2.IsTransferable)
    (hscalar : (Text.ofLines (render header true translations)).all Code.isScalar = true)
    (hbytes : t.read path =
      .ok ((Text.ofLines (render header true translations)).flatMap Text.utf8Code))
    (hread : Catalog.read? s t { path, kind } = some c) (key : Text) :
    textOf (some c) key = (KeyedList.get? key translations).getD [] := by
  have hcomments : header.all isComment = true := by
    rw [all_isScalar_ofLines, render, List.all_append, Bool.and_eq_true] at hscalar
    refine List.all_eq_true.2 fun line hline => isComment_iff.2 ?_
    exact ⟨(hheader line hline).1, (hheader line hline).2, List.all_eq_true.1 hscalar.1 line hline⟩
  have hreread : reread? s.intentionalMarker header true translations = some c.entries := by
    rw [reread?, Text.toUtf8?_eq_some_iff.2 ⟨hscalar, rfl⟩, entries_of_read? hbytes hread]
    rfl
  have hpairs := map_reread? hnonempty hcomments hkeys hnodup
    (fun p hp => isWhole_of_isTransferable (htexts p hp)) hreread
  have hfind : textOf (some c) key = textOf (some (ofEntries path c.entries)) key := rfl
  rw [hfind, textOf_ofEntries, hpairs, get?_writtenPairs true hnodup, Option.map_map]
  cases hget : KeyedList.get? key translations with
  | none => rfl
  | some text =>
      have htext := htexts _ (KeyedList.mem_of_get?_eq_some hget)
      exact decodeEscapes_written true htext.isScalar htext.noEscape

end Catalog

end BundleAudit
