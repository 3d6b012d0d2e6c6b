import BundleAudit.Package.Source
import BundleAudit.Proofs.Failure
import BundleAudit.Proofs.Files.Content
import BundleAudit.Proofs.Text.Lines
import BundleAudit.Proofs.Text.Scalar
import BundleAudit.Proofs.Text.Utf16

/-!
# BundleAudit.Proofs.Files.Encoding

**The encoding of a file does not change what is read of it** (`readsStorages`). A text
may be stored in UTF-8 or, after a byte order mark, in UTF-8 or in UTF-16 of either order.
Catalogs, sources and manifests are read by way of the text, so all of them are those of
the text. Plain UTF-8 alone does not keep a text that begins with a byte order mark.
-/

namespace BundleAudit

/-! ### Lines and surrogates -/

namespace Text

variable {t : Text}

theorem isScalar_of_isLineBoundary {c : Nat} (h : Code.isLineBoundary c = true) :
    Code.isScalar c = true := by
  unfold Code.isLineBoundary at h
  rw [Code.isScalar_iff]
  simp only [Bool.or_eq_true, decide_eq_true_eq, beq_iff_eq] at h
  unfold Code at h
  omega

/-- Lines without surrogates are those of a text without surrogates. -/
theorem all_isScalar_of_lines (h : ∀ l ∈ t.lines, l.all Code.isScalar = true) :
    t.all Code.isScalar = true := by
  refine List.all_eq_true.2 fun c hc => ?_
  by_cases hboundary : c.isLineBoundary = true
  · exact isScalar_of_isLineBoundary hboundary
  · have hflatten : c ∈ t.lines.flatten := by
      rw [flatten_lines]
      exact List.mem_filter.2 ⟨hc, by simp [hboundary]⟩
    obtain ⟨l, hl, hcl⟩ := List.mem_flatten.1 hflatten
    exact List.all_eq_true.1 (h l hl) c hcl

/-- What begins a text begins its first line, unless it is a line boundary. -/
theorem exists_head?_of_lines {c : Code} (hc : c.isLineBoundary = false) (h : t.head? = some c) :
    ∃ l ∈ t.lines, l.head? = some c := by
  obtain ⟨rest, rfl⟩ := List.head?_eq_some_iff.1 h
  have hreturn : ∀ more, c = Code.carriageReturn → rest = Code.lineFeed :: more → False := by
    rintro more rfl
    cases hc
  rw [lines.eq_3 c rest hreturn, if_neg (by simp [hc])]
  cases lines rest with
  | nil => exact ⟨[c], by simp [consHead], rfl⟩
  | cons first more => exact ⟨c :: first, by simp [consHead], rfl⟩

end Text

namespace Tree

variable {t : Tree} {path text : Text} {bytes : Bytes}

/-- What is read at a path is what a text says. -/
structure Tells (t : Tree) (path text : Text) : Prop where
  readText : t.readText path = .ok text
  readLines : t.readLines path = .ok text.lines
  /-- The entries of a catalog, and its malformed lines. -/
  catalog (s : Settings) (c : Catalog) : c.path = path →
    c.read s t = .ok ({ c with entries := (CatalogEntry.ofLines s.intentionalMarker text.lines).1 },
      (CatalogEntry.ofLines s.intentionalMarker text.lines).2)
  /-- The occurrences of a source, if it is one whose tokens are known. -/
  source (s : Settings) (f : SourceFile) : f.path = path →
    f.read s t = (Token.ofSource path text).map fun tokens =>
      { f with occurrences := Occurrence.ofTokens s tokens }
  attributes : (t.readLines path).map Manifest.attributes = .ok (Manifest.attributes text.lines)
  manifest : t.readManifest path = .ok (Manifest.ofLines text.lines)
  isPlatformManifest : t.isPlatformManifest path =
    .ok (Manifest.ofLines text.lines).isPlatformModule

theorem tells_ofBytes (h : t.read path = .ok bytes) : t.Tells path (.ofBytes bytes) := by
  have hlines : t.readLines path = .ok (Text.ofBytes bytes).lines := by
    rw [readLines, h]
    rfl
  have hmanifest : t.readManifest path = .ok (Manifest.ofLines (Text.ofBytes bytes).lines) := by
    rw [readManifest, hlines]
    rfl
  refine ⟨by rw [readText, h]; rfl, hlines, fun s c hpath => ?_, fun s f hpath => ?_,
    by rw [hlines]; rfl, hmanifest, ?_⟩
  · rw [Catalog.read, hpath, hlines]
    rfl
  · rw [SourceFile.read, hpath, readText, h]
    rfl
  · rw [isPlatformManifest, isFile_of_read h, hmanifest]
    rfl

/-- A file is read as the text that is stored in it. -/
structure ReadsStorages (t : Tree) (path : Text) : Prop where
  readText_eq_iff {storage : Text.Storage} {text : Text} : text.all Code.isScalar = true →
    t.read path = .ok (storage.bytes text) → (t.readText path = .ok text ↔ storage.Keeps text)
  tells {storage : Text.Storage} {text : Text} : text.all Code.isScalar = true →
    t.read path = .ok (storage.bytes text) → storage.Keeps text → t.Tells path text
  /-- Bytes that no text is stored as are a text, too. -/
  never_fails {bytes : Bytes} : t.read path = .ok bytes →
    ∃ text : Text, text.all Code.isScalar = true ∧ t.Tells path text

/-- **Whatever encoding a text is stored in, it is what is read,** with all that follows from it. -/
theorem readsStorages (t : Tree) (path : Text) : t.ReadsStorages path where
  readText_eq_iff {storage text} htext hread := by
    rw [readText, hread, ← Text.ofBytes_bytes_eq_iff htext]
    exact ⟨Except.ok.inj, congrArg Except.ok⟩
  tells {storage text} htext hread hkeeps := by
    have htells := tells_ofBytes hread
    rwa [(Text.ofBytes_bytes_eq_iff htext storage).2 hkeeps] at htells
  never_fails {bytes} hread := ⟨_, Text.all_isScalar_ofBytes bytes, tells_ofBytes hread⟩

/-- A manifest with a code point that takes a surrogate pair. -/
def clefManifest : Text := Text.ofString "OpenIDE-Module: m\nClef: " ++ [0x1D11E, Code.lineFeed]

/-- A tree that holds a manifest in one of the encodings. -/
def clefTree (storage : Text.Storage) : Tree :=
  { here := [Text.ofString "work"]
    entries :=
      [([Text.ofString "work"], .directory),
        ([Text.ofString "work", Text.ofString "manifest.mf"], .file (storage.bytes clefManifest))] }

theorem read_clefTree (storage : Text.Storage) :
    (clefTree storage).read "manifest.mf" = .ok (storage.bytes clefManifest) := by
  apply Failure.eq_ok_of_toOption
  cases storage with
  | utf8 => decide +kernel
  | markedUtf8 => decide +kernel
  | utf16 order => cases order <;> decide +kernel

theorem readsStorages_sample :
    (clefTree .utf8).Tells "manifest.mf" clefManifest ∧
      (clefTree (.utf16 .highFirst)).Tells "manifest.mf" clefManifest ∧
      Manifest.attributes clefManifest.lines =
        [(Text.ofString "OpenIDE-Module", Text.ofString "m"), (Text.ofString "Clef", [0x1D11E])] :=
  ⟨(readsStorages (clefTree .utf8) "manifest.mf").tells (by decide) (read_clefTree _) (by decide),
    (readsStorages (clefTree (.utf16 .highFirst)) "manifest.mf").tells (by decide)
      (read_clefTree _) (by decide), by decide⟩

/-! ### Lines -/

/-- A file holds some lines, in any of the encodings and with any line ends. -/
def HoldsLines (t : Tree) (path : Text) (ls : List Text) : Prop :=
  ∃ (storage : Text.Storage) (text : Text), t.read path = .ok (storage.bytes text) ∧ text.lines = ls

/-- Lines that a text can hold are read as they are, if none of them looks like a mark. -/
theorem HoldsLines.readLines {t : Tree} {path : Text} {ls : List Text} (h : t.HoldsLines path ls)
    (hscalar : ∀ l ∈ ls, l.all Code.isScalar = true)
    (hmark : ∀ l ∈ ls, l.head? ≠ some Code.byteOrderMark) : t.readLines path = .ok ls := by
  obtain ⟨storage, text, hread, rfl⟩ := h
  have hkeeps : storage.Keeps text := by
    intro _ hhead
    obtain ⟨l, hl, hlhead⟩ := Text.exists_head?_of_lines (by decide) hhead
    exact hmark l hl hlhead
  have htext := (Text.ofBytes_bytes_eq_iff (Text.all_isScalar_of_lines hscalar) storage).2 hkeeps
  rw [Tree.readLines, hread, Except.map, Text.linesOfBytes, htext]

end Tree

end BundleAudit
