import BundleAudit.Files.Read
import BundleAudit.Proofs.Catalog.Rendering
import BundleAudit.Proofs.Files.Difference
import BundleAudit.Proofs.Files.Opening
import BundleAudit.Proofs.Files.Refusal

/-!
# BundleAudit.Proofs.Files.Lines

**Lines that are written are the lines that are read,** unless one of them holds a line
boundary or the first of them begins with a byte order mark (`readLines_writeLines`).

What is written passes through the same locations whatever the text is
(`exists_passes`), so the trees that two texts lead to differ in the contents of files
only. The file that is read could be another one that happens to hold the text; but not
for two texts.
-/

namespace BundleAudit

namespace Text

/-! ### Lines of a text -/

/-- Lines begin as the first of them does. -/
theorem head?_ofLines_eq_mark_iff {ls : List Text} :
    (ofLines ls).head? = some Code.byteOrderMark ↔
      ∃ first ∈ ls.head?, first.head? = some Code.byteOrderMark := by
  cases ls with
  | nil => simp [ofLines]
  | cons first rest =>
      cases first with
      | nil => simp [ofLines, show Code.lineFeed ≠ Code.byteOrderMark by decide]
      | cons c more => simp [ofLines]

/-- Lines are read as they are written just if none holds a boundary and there is no mark. -/
theorem lines_dropMark_ofLines_iff {ls : List Text} :
    (dropMark (ofLines ls)).lines = ls ↔ (∀ l ∈ ls, l.isLine = true) ∧
      ∀ first ∈ ls.head?, first.head? ≠ some Code.byteOrderMark := by
  constructor
  · intro h
    have hlines : ∀ l ∈ ls, l.isLine = true := fun l hl => isLine_of_mem_lines (h.symm ▸ hl)
    refine ⟨hlines, fun first hfirst hmark => ?_⟩
    -- without the mark there are fewer characters in the lines
    have hhead := head?_ofLines_eq_mark_iff.2 ⟨first, hfirst, hmark⟩
    obtain ⟨rest, hrest⟩ := List.head?_eq_some_iff.1 hhead
    have hread : ls.flatten = rest.filter (!·.isLineBoundary) := by
      rw [← flatten_lines, ← h, dropMark, if_pos hhead, hrest, List.tail_cons]
    have hwritten : ls.flatten = Code.byteOrderMark :: rest.filter (!·.isLineBoundary) := by
      rw [← lines_ofLines hlines, flatten_lines, hrest]
      rfl
    exact List.cons_ne_self _ _ (hwritten.symm.trans hread)
  · rintro ⟨hlines, hmark⟩
    have hhead : (ofLines ls).head? ≠ some Code.byteOrderMark := fun hhead => by
      obtain ⟨first, hfirst, hbegins⟩ := head?_ofLines_eq_mark_iff.1 hhead
      exact hmark first hfirst hbegins
    rw [dropMark, if_neg hhead, lines_ofLines hlines]

/-- Different texts have different bytes. -/
theorem eq_of_flatMap_utf8Code {a b : Text} (ha : a.all Code.isScalar = true)
    (hb : b.all Code.isScalar = true) (h : a.flatMap utf8Code = b.flatMap utf8Code) : a = b := by
  have hread := ofUtf8?_flatMap ha
  rw [h, ofUtf8?_flatMap hb] at hread
  exact (Option.some.inj hread).symm

end Text

namespace Tree

variable {t u : Tree} {p target : Path} {l : Location} {path text : Text}

/-! ### The way of a text -/

theorem AlikeButContents.exists_entry (h : t.AlikeButContents u) {e : Entry}
    (he : t.entry? l = some e) : ∃ e', u.entry? l = some e' ∧ e'.emptied = e.emptied := by
  have hentry := h.entry l
  rw [he] at hentry
  exact Option.map_eq_some_iff.1 hentry

theorem AlikeButContents.directory (h : t.AlikeButContents u)
    (hu : u.entry? l = some .directory) : t.entry? l = some .directory := by
  have hentry := h.entry l
  rw [hu] at hentry
  obtain ⟨e, he, hemptied⟩ := Option.map_eq_some_iff.1 hentry.symm
  cases e with
  | directory => exact he
  | file bytes => cases hemptied
  | link aim => cases hemptied

theorem alike_filled (hl : l ≠ []) (bytes bytes' : Bytes) :
    (t.filled l bytes).AlikeButContents (t.filled l bytes') where
  here := rfl
  entry other := by
    rw [entry?_filled hl, entry?_filled hl]
    split <;> rfl

/-- Texts that are written to a target fill the file at `l`; then each location has what stood at
the `source` of it. -/
structure Passes (t : Tree) (p target : Path) (l : Location)
    (source : Location → Option Location) : Prop where
  ne_nil : l ≠ []
  writes : ∀ text : Text, text.all Code.isScalar = true →
    ∃ t', t.writeThrough p.toText target text = (t', none) ∧ t'.here = t.here ∧
      ∀ other, t'.entry? other =
        (source other).bind fun l' => entry? (t.filled l (text.flatMap Text.utf8Code)) l'

/-- Where one text can be written, any text can, and it passes through the same locations. -/
theorem exists_passes (hp : p.IsNormal) (hname : IsProper p.name) (htarget : target.IsNormal)
    (htname : target.name ≠ []) {first : Text} (hfirst : first.all Code.isScalar = true)
    (h : (t.writeThrough p.toText target first).2 = none) :
    ∃ l source, t.Passes p target l source := by
  obtain ⟨t₁, l, hopen, t₂, hmove⟩ := of_writeThrough_eq_none h
  have hproper := isProper_of_rename_eq_ok htarget htname hmove
  obtain ⟨hl, rfl, -, -⟩ := openEmpty_cases hopen
  rw [writeInPlace_eq hfirst hopen] at hmove
  obtain ⟨d, d', e, hd, hd', hentry, hdirectory, -⟩ :=
    (rename_eq_ok_iff hp hname htarget hproper).1 hmove
  refine ⟨l, fun other => if other = d ++ [p.name] then none
    else if other = d' ++ [target.name] then some (d ++ [p.name]) else some other, hl,
    fun text htext => ?_⟩
  generalize hbytes : text.flatMap Text.utf8Code = bytes
  have halike : (t.filled l (first.flatMap Text.utf8Code)).AlikeButContents (t.filled l bytes) :=
    alike_filled hl _ bytes
  have hkeeps := filled_keeps_filled (t := t) hl (first.flatMap Text.utf8Code) bytes
  obtain ⟨e', hentry', -⟩ := halike.exists_entry hentry
  have hdone : (t.filled l bytes).rename p.toText target =
      .ok (((t.filled l bytes).put (d' ++ [target.name]) e').remove (d ++ [p.name])) :=
    (rename_eq_ok_iff hp hname htarget hproper).2 ⟨d, d', e', hd.of_keeps hkeeps,
      hd'.of_keeps hkeeps, hentry', fun hthere => hdirectory (halike.directory hthere), rfl⟩
  have hwrite : t.writeThrough p.toText target text =
      (((t.filled l bytes).put (d' ++ [target.name]) e').remove (d ++ [p.name]), none) := by
    rw [writeThrough, writeInPlace_eq htext hopen, hbytes]
    simp only [hdone]
  refine ⟨_, hwrite, rfl, fun other => ?_⟩
  rw [entry?_remove (List.concat_ne_nil _ _), entry?_put (List.concat_ne_nil _ _)]
  by_cases hfrom : other = d ++ [p.name]
  · rw [if_pos hfrom, if_pos hfrom]
    rfl
  · rw [if_neg hfrom, if_neg hfrom]
    by_cases hto : other = d' ++ [target.name]
    · rw [if_pos hto, if_pos hto, ← hentry']
      rfl
    · rw [if_neg hto, if_neg hto]
      rfl

/-- A path at which two different texts are read once they are written is one at which any text
is. -/
theorem Passes.read_eq {source : Location → Option Location} (h : t.Passes p target l source)
    {a b : Text} (ha : a.all Code.isScalar = true) (hb : b.all Code.isScalar = true) (hne : a ≠ b)
    (hreadA : (t.writeThrough p.toText target a).1.read path = .ok (a.flatMap Text.utf8Code))
    (hreadB : (t.writeThrough p.toText target b).1.read path = .ok (b.flatMap Text.utf8Code))
    (htext : text.all Code.isScalar = true) :
    (t.writeThrough p.toText target text).1.read path = .ok (text.flatMap Text.utf8Code) := by
  obtain ⟨tA, hwriteA, hhereA, hentryA⟩ := h.writes a ha
  obtain ⟨tB, hwriteB, hhereB, hentryB⟩ := h.writes b hb
  obtain ⟨t', hwrite, hhere, hentry⟩ := h.writes text htext
  have halike : ∀ {u u' : Tree} {c c' : Text}, u.here = t.here → u'.here = t.here →
      (∀ other, u.entry? other =
        (source other).bind fun l' => entry? (t.filled l (c.flatMap Text.utf8Code)) l') →
      (∀ other, u'.entry? other =
        (source other).bind fun l' => entry? (t.filled l (c'.flatMap Text.utf8Code)) l') →
      u.AlikeButContents u' := by
    intro u u' c c' hu hu' he he'
    refine ⟨hu'.trans hu.symm, fun other => ?_⟩
    rw [he, he']
    cases source other with
    | none => rfl
    | some k => exact (alike_filled h.ne_nil _ _).entry k
  rw [hwriteA] at hreadA
  rw [hwriteB] at hreadB
  rw [hwrite]
  obtain ⟨hpath, k, hplace, hk⟩ := read_eq_ok_iff.1 hreadA
  obtain ⟨-, k', hplace', hk'⟩ := read_eq_ok_iff.1 hreadB
  rw [(halike hhereA hhereB hentryA hentryB).place_eq, hplace] at hplace'
  obtain rfl := Place.found.inj (Except.ok.inj hplace')
  -- what is read was filled, since it is not the same for both texts
  have hsource : source k = some l := by
    rw [hentryA] at hk
    rw [hentryB] at hk'
    cases hsource : source k with
    | none => rw [hsource] at hk; cases hk
    | some from' =>
        rw [hsource, Option.bind_some, entry?_filled h.ne_nil] at hk hk'
        by_cases hfilled : from' = l
        · rw [hfilled]
        · rw [if_neg hfilled] at hk hk'
          have hbytes := Entry.file.inj (Option.some.inj (hk.symm.trans hk'))
          exact absurd (Text.eq_of_flatMap_utf8Code ha hb hbytes) hne
  refine read_eq_ok_iff.2 ⟨hpath, k, ?_, ?_⟩
  · rw [(halike hhereA hhere hentryA hentry).place_eq, hplace]
  · rw [hentry, hsource, Option.bind_some, entry?_filled h.ne_nil, if_pos rfl]

/-! ### Writable paths -/

/-- A text can be written at a path and is then read there. -/
structure Holds (t : Tree) (path text : Text) : Prop where
  writes : (t.writeText (Path.ofText path) text).2 = none
  reads : (t.writeText (Path.ofText path) text).1.read path = .ok (text.flatMap Text.utf8Code)

/-- Two different texts can be written at a path and are then read there. -/
def HoldsTexts (t : Tree) (path : Text) : Prop := ∃ a b, a ≠ b ∧ t.Holds path a ∧ t.Holds path b

/-- Any text can be written where two can, and is then read there. -/
theorem HoldsTexts.holds (h : t.HoldsTexts path) (htext : text.all Code.isScalar = true) :
    t.Holds path text := by
  obtain ⟨a, b, hne, ha, hb⟩ := h
  obtain ⟨hname, t', hmade, hsuffix⟩ := of_writeText_eq_none ha.writes
  have htarget := Path.isNormal_ofText path
  have hthrough := writeText_eq hmade hsuffix
  have hwriteA := ha.writes
  have hreadA := ha.reads
  have hreadB := hb.reads
  rw [hthrough] at hwriteA hreadA hreadB
  obtain ⟨l, source, hpasses⟩ := exists_passes (isNormal_temporaryOf htarget hname)
    (isProper_temporaryOf _) htarget hname (all_isScalar_of_writeText ha.writes) hwriteA
  obtain ⟨t'', hwrite, -⟩ := hpasses.writes text htext
  refine ⟨by rw [hthrough, hwrite], ?_⟩
  rw [hthrough]
  exact hpasses.read_eq (all_isScalar_of_writeText ha.writes) (all_isScalar_of_writeText hb.writes)
    hne hreadA hreadB htext

/-- An empty file that can be written and read is enough where no link stands at the temporary
file. -/
theorem TakesFile.holdsTexts (htarget : target.IsNormal) (h : t.TakesFile target) :
    t.HoldsTexts target.toText := by
  have hholds : ∀ text : Text, text.all Code.isScalar = true → t.Holds target.toText text := by
    intro text htext
    obtain ⟨t', hwrite, hread⟩ := h.read_writeText htarget htext
    constructor <;> rw [Path.ofText_toText htarget, hwrite]
    exact hread
  exact ⟨[], [Code.zero], nofun, hholds _ rfl, hholds _ rfl⟩

/-- **Lines that are written are read again just if none of them holds a line boundary and the first
does not begin with a byte order mark.** -/
theorem readLines_writeLines {lines : List Text} (h : t.HoldsTexts path)
    (hlines : ∀ l ∈ lines, l.all Code.isScalar = true) :
    ∃ t', t.writeLines (Path.ofText path) lines = (t', none) ∧
      (t'.readLines path = .ok lines ↔ (∀ l ∈ lines, l.isLine = true) ∧
        ∀ first ∈ lines.head?, first.head? ≠ some Code.byteOrderMark) := by
  have hscalar : (Text.ofLines lines).all Code.isScalar = true := by
    rw [Catalog.all_isScalar_ofLines]
    exact List.all_eq_true.2 hlines
  obtain ⟨hwrite, hread⟩ := h.holds hscalar
  refine ⟨_, Prod.ext rfl hwrite, ?_⟩
  rw [← Text.lines_dropMark_ofLines_iff, ← Text.ofBytes_flatMap_eq_dropMark hscalar, readLines,
    writeLines, hread]
  exact ⟨Except.ok.inj, congrArg Except.ok⟩

/-- A tree whose notes are a link to older ones. -/
def noteTree : Tree :=
  { here := [Text.ofString "work"]
    entries :=
      [([Text.ofString "work"], .directory),
        ([Text.ofString "work", Text.ofString "notes"], .link "/old"),
        ([Text.ofString "old"], .ofText "old")] }

theorem readLines_writeLines_sample :
    noteTree.HoldsTexts "./notes" ∧
      (∀ l ∈ [[], Text.ofString "two words", [0x1D11E, Code.byteOrderMark]],
        l.all Code.isScalar = true) ∧
      ∃ t', noteTree.writeLines (Path.ofText "./notes")
          [[], Text.ofString "two words", [0x1D11E, Code.byteOrderMark]] = (t', none) ∧
        t'.readLines "./notes" =
          .ok [[], Text.ofString "two words", [0x1D11E, Code.byteOrderMark]] := by
  have hholds : noteTree.HoldsTexts "./notes" := by
    refine ⟨[], [Code.zero], nofun, ⟨Option.isNone_iff_eq_none.1 ?_, ?_⟩,
      ⟨Option.isNone_iff_eq_none.1 ?_, ?_⟩⟩
    · decide +kernel
    · exact Failure.eq_ok_of_toOption (by decide +kernel)
    · decide +kernel
    · exact Failure.eq_ok_of_toOption (by decide +kernel)
  have hscalar : ∀ l ∈ [[], Text.ofString "two words", [0x1D11E, Code.byteOrderMark]],
      l.all Code.isScalar = true := by decide
  obtain ⟨t', hwrite, hread⟩ := readLines_writeLines hholds hscalar
  exact ⟨hholds, hscalar, t', hwrite, hread.2 (by decide)⟩

end Tree

end BundleAudit
