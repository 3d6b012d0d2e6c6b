import BundleAudit.Catalog.Rendering
import BundleAudit.Proofs.Catalog.Reading
import BundleAudit.Proofs.Text.Order

/-!
# BundleAudit.Proofs.Catalog.Rendering

**Reading a catalog that was made from translations.** The line of an entry is read as
the entry, up to what is trimmed or taken for a continuation at its end
(`readLine_lineOf`). So if each line is one whole line, the entries are the
translations again (`map_reread?`); and if one is not, something is lost for good: what
is read is lighter than what was written (`load_lt_of_reread?`).
-/

namespace BundleAudit

namespace CatalogEntry

variable (marker : Text) {r : Reading}

/-! ### One line -/

theorem raw_eq_self {line : Text} (h : line.isLine = true) :
    line.dropTrailing (fun c => c == Code.carriageReturn || c == Code.lineFeed) = line := by
  refine Text.dropTrailing_eq_self fun c hc => ?_
  have hboundary : c.isLineBoundary = false := by
    simpa using List.all_eq_true.1 h c hc
  rw [Bool.or_eq_false_iff, beq_eq_false_iff_ne, beq_eq_false_iff_ne]
  constructor
  · rintro rfl
    cases hboundary
  · rintro rfl
    cases hboundary

/-- A comment adds nothing, but it can hold the intentional marker. -/
theorem readLine_comment {line : Text} (number : Nat) (hr : r.position = .fresh)
    (hline : line.isLine = true) (hhash : line.head? = some Code.hash) :
    readLine marker r number line =
      { r with intentional := r.intentional || Text.includes line.trim.tail marker } := by
  obtain ⟨comment, rfl⟩ : ∃ comment, line = Code.hash :: comment := by
    cases line with
    | nil => cases hhash
    | cons c comment => exact ⟨comment, by rw [Option.some.inj hhash]⟩
  have htrim : Text.trim (Code.hash :: comment) = Code.hash :: Text.trimRight comment :=
    Text.trim_cons rfl comment
  simp only [readLine, hr, raw_eq_self hline, readFresh, htrim, List.tail_cons]
  split
  · next hmarker => rw [hmarker, Bool.or_true]
  · next hmarker => rw [Bool.eq_false_iff.2 hmarker, Bool.or_false, ← hr]

theorem readLines_comments {header : List Text} (number : Nat) (hr : r.position = .fresh)
    (h : ∀ line ∈ header, line.isLine = true ∧ line.head? = some Code.hash) :
    readLines marker r number header =
      { r with
        intentional := r.intentional ||
          header.any fun line => Text.includes line.trim.tail marker } := by
  induction header generalizing r number with
  | nil => simp [readLines]
  | cons line rest ih =>
      obtain ⟨⟨hline, hhash⟩, hrest⟩ := List.forall_mem_cons.1 h
      rw [readLines, readLine_comment marker number hr hline hhash]
      refine (ih (number + 1) ?_ hrest).trans ?_
      · exact hr
      · rw [List.any_cons, Bool.or_assoc]

theorem isLine_lineOf {p : Text × Text} (h : IsKey p.1) : (lineOf p).isLine = p.2.isLine := by
  have hequals : Code.isLineBoundary Code.equals = false := rfl
  rw [lineOf, Text.isLine, List.all_append, List.all_cons, ← Text.isLine, h.isLine, hequals]
  rfl

/-- A text that is read as the key of a line that it begins. -/
structure BeginsEntry (key : Text) : Prop where
  ne_nil : key ≠ []
  trim : key.trim = key
  noEquals : Code.equals ∉ key
  noHash : key.head? ≠ some Code.hash

theorem IsKey.beginsEntry {key : Text} (h : IsKey key) : BeginsEntry key :=
  ⟨h.ne_nil, h.trim, h.noEquals, h.noHash⟩

theorem BeginsEntry.exists_cons {key : Text} (h : BeginsEntry key) :
    ∃ c rest, key = c :: rest ∧ c.isBlank = false ∧ c ≠ Code.hash := by
  rcases Text.trim_cases key with htrim | ⟨c, rest, hc, htrim⟩
  · exact absurd (h.trim ▸ htrim) h.ne_nil
  · rw [h.trim] at htrim
    exact ⟨c, _, htrim, hc, fun hhash => h.noHash (by rw [htrim, hhash]; rfl)⟩

/-- What an entry on a line adds to what was read. -/
def Reading.addEntry (r : Reading) (e : CatalogEntry) (goesOn : Bool) : Reading :=
  { r with
    entries := e :: r.entries.filter fun d => d.key ≠ e.key
    intentional := false
    position := if goesOn then .inEntry else .fresh }

/-- The line of a key and a value is read as an entry, and the value goes on in the next line if it
ends in an odd number of backslashes. -/
theorem readFresh_lineOf {p : Text × Text} (r : Reading) (number : Nat) (hkey : BeginsEntry p.1) :
    readFresh marker r number (lineOf p) =
      r.addEntry
        { key := p.1, value := p.2.trimRight.dropContinuation, line := number
          intentional := r.intentional } p.2.continues := by
  -- the line begins with the first character of the key
  obtain ⟨c, rest, hcons, hblank, hhash⟩ := hkey.exists_cons
  have htrim : (lineOf p).trim = p.1 ++ Code.equals :: p.2.trimRight := by
    rw [lineOf, hcons, List.cons_append, Text.trim_cons hblank, Text.trimRight,
      Text.dropTrailing_append_cons rfl]
    rfl
  have hsplit : split? (p.1 ++ Code.equals :: p.2.trimRight) = some (p.1, p.2.trimRight) := by
    have hne : p.1.isEmpty = false := by rw [hcons]; rfl
    rw [split?, Text.cut?_append_cons hkey.noEquals]
    simp only [hne, hkey.trim]
    rfl
  have hcontinues : Text.continues (p.1 ++ Code.equals :: p.2.trimRight) = p.2.continues := by
    rw [Text.continues_append_cons rfl (by decide), Text.continues_trimRight]
  have hdrop : (if p.2.continues then p.2.trimRight.dropContinuation else p.2.trimRight) =
      p.2.trimRight.dropContinuation := by
    split
    · rfl
    · next h => rw [Text.dropContinuation, Text.continues_trimRight, if_neg h]
  simp only [readFresh, htrim, hsplit, hcontinues, hdrop]
  split
  · next h =>
      rw [hcons] at h
      cases h
  · next h =>
      rw [hcons] at h
      exact absurd (List.cons.inj h).1 hhash
  · rfl

theorem readLine_lineOf {p : Text × Text} (number : Nat) (hr : r.position = .fresh)
    (hkey : IsKey p.1) (hvalue : p.2.isLine = true) :
    readLine marker r number (lineOf p) =
      { r with
        entries :=
          { key := p.1, value := p.2.trimRight.dropContinuation, line := number
            intentional := r.intentional }
            :: r.entries.filter fun d => d.key ≠ p.1
        intentional := false
        position := if p.2.continues then .inEntry else .fresh } := by
  have hline : (lineOf p).isLine = true := (isLine_lineOf hkey).trans hvalue
  simp only [readLine, hr, raw_eq_self hline]
  exact readFresh_lineOf marker r number hkey.beginsEntry

/-! ### All lines -/

theorem isLine_of_mem_map_lineOf {ps : List (Text × Text)} (hkeys : ∀ p ∈ ps, IsKey p.1)
    (hlines : ∀ p ∈ ps, p.2.isLine = true) : ∀ line ∈ ps.map lineOf, line.isLine = true := by
  intro line hline
  obtain ⟨p, hp, rfl⟩ := List.mem_map.1 hline
  rw [isLine_lineOf (hkeys p hp)]
  exact hlines p hp

/-- The entries of some keys and values that stand on one line each, from line `number` on. A
comment before them speaks of the first one. -/
def entriesFrom (number : Nat) (intentional : Bool) (ps : List (Text × Text)) : List CatalogEntry :=
  ps.mapIdx fun i p =>
    { key := p.1, value := p.2, line := number + i, intentional := intentional && i == 0 }

theorem entriesFrom_cons (number : Nat) (intentional : Bool) (p : Text × Text)
    (ps : List (Text × Text)) :
    entriesFrom number intentional (p :: ps) =
      { key := p.1, value := p.2, line := number, intentional } ::
        entriesFrom (number + 1) false ps := by
  simp [entriesFrom, List.mapIdx_cons, Nat.add_assoc, Nat.add_comm 1]

theorem map_pair_entriesFrom (number : Nat) (intentional : Bool) (ps : List (Text × Text)) :
    (entriesFrom number intentional ps).map pair = ps := by
  induction ps generalizing number intentional with
  | nil => rfl
  | cons p rest ih => rw [entriesFrom_cons, List.map_cons, ih, pair]

/-- Whole lines with distinct keys are read as they are. -/
theorem readLines_whole {ps : List (Text × Text)} (number : Nat) (hr : r.position = .fresh)
    (hkeys : ∀ p ∈ ps, IsKey p.1) (hwhole : ∀ p ∈ ps, p.2.isWhole = true)
    (hnodup : (r.entries.reverse.map (·.key) ++ ps.map Prod.fst).Nodup) :
    readLines marker r number (ps.map lineOf) =
      { r with
        entries := (entriesFrom number r.intentional ps).reverse ++ r.entries
        intentional := r.intentional && ps.isEmpty } := by
  induction ps generalizing r number with
  | nil => simp [readLines, entriesFrom]
  | cons p rest ih =>
      obtain ⟨hkey, hkeys⟩ := List.forall_mem_cons.1 hkeys
      obtain ⟨hp, hwhole⟩ := List.forall_mem_cons.1 hwhole
      obtain ⟨hline, hend⟩ := Text.isWhole_iff.1 hp
      -- no entry before it has the key, so none is replaced
      have hfilter : r.entries.filter (fun d => d.key ≠ p.1) = r.entries := by
        refine List.filter_eq_self.2 fun d hd => decide_eq_true fun hdkey => ?_
        refine (List.nodup_append.1 hnodup).2.2 d.key ?_ p.1 List.mem_cons_self hdkey
        exact List.mem_map_of_mem (List.mem_reverse.2 hd)
      have hread := readLine_lineOf marker number hr hkey hline
      rw [Text.dropContinuation_trimRight_eq_self_iff.2 hend, hend.2, if_neg Bool.false_ne_true,
        hfilter] at hread
      rw [List.map_cons, readLines, hread, ih (number + 1) rfl hkeys hwhole (by simpa using hnodup)]
      simp [entriesFrom_cons, hr]

/-- A line that is no whole line adds an entry that is lighter than the line. -/
theorem load_readLine_lt {p : Text × Text} (number : Nat) (hr : r.position = .fresh)
    (hkey : IsKey p.1) (hline : p.2.isLine = true) (hwhole : p.2.isWhole = false) :
    load (readLine marker r number (lineOf p)).entries < load r.entries + (lineOf p).weight := by
  have hsublist : p.2.trimRight.dropContinuation.Sublist p.2 :=
    (Text.dropContinuation_sublist _).trans (Text.dropTrailing_sublist _)
  have hne : p.2.trimRight.dropContinuation ≠ p.2 := by
    intro heq
    rw [Text.isWhole_iff.2 ⟨hline, Text.dropContinuation_trimRight_eq_self_iff.1 heq⟩] at hwhole
    cases hwhole
  have hvalue := Text.weight_lt_of_sublist hsublist hne
  have hfilter := load_filter_le (fun d => decide (d.key ≠ p.1)) r.entries
  rw [readLine_lineOf marker number hr hkey hline, load_cons, weight_lineOf_pair, weight_lineOf]
  dsimp only
  omega

/-- Lines of which not all are whole are read as entries that are lighter than the lines. -/
theorem load_readLines_lt {ps : List (Text × Text)} (number : Nat) (hr : r.position = .fresh)
    (hkeys : ∀ p ∈ ps, IsKey p.1) (hlines : ∀ p ∈ ps, p.2.isLine = true)
    (hwhole : ∃ p ∈ ps, p.2.isWhole = false) :
    load (readLines marker r number (ps.map lineOf)).entries <
      load r.entries + Text.weight (ps.flatMap lineOf) := by
  induction ps generalizing r number with
  | nil =>
      obtain ⟨p, hp, -⟩ := hwhole
      cases hp
  | cons p rest ih =>
      obtain ⟨hkey, hkeys⟩ := List.forall_mem_cons.1 hkeys
      obtain ⟨hline, hlines⟩ := List.forall_mem_cons.1 hlines
      rw [List.map_cons, readLines, List.flatMap_cons, Text.weight_append]
      cases hp : p.2.isWhole with
      | false =>
          -- what follows may go on with the entry, but adds no more than its own weight
          have hstep := load_readLine_lt marker number hr hkey hline hp
          have hrest := load_readLines_le marker (readLine marker r number (lineOf p)) (number + 1)
            (rest.map lineOf)
          rw [← List.flatMap_def] at hrest
          omega
      | true =>
          obtain ⟨q, hq, hqwhole⟩ := hwhole
          have hq : q ∈ rest := by
            rcases List.mem_cons.1 hq with rfl | hq
            · rw [hp] at hqwhole
              cases hqwhole
            · exact hq
          have hposition : (readLine marker r number (lineOf p)).position = .fresh := by
            rw [readLine_lineOf marker number hr hkey hline, (Text.isWhole_iff.1 hp).2.2]
            rfl
          have hstep := load_readLine_le marker r number (lineOf p)
          have hrest := ih (number + 1) hposition hkeys hlines ⟨q, hq, hqwhole⟩
          omega

end CatalogEntry

namespace Catalog

open CatalogEntry

variable {marker : Text} {header : List Text} {escape : Bool} {translations : KeyedList Text Text}

/-! ### Files -/

/-- Whether a line is a comment that a file can hold as one line. -/
def isComment (line : Text) : Bool :=
  line.head? == some Code.hash && line.isLine && line.all Code.isScalar

theorem isComment_iff {line : Text} : isComment line = true ↔
    line.head? = some Code.hash ∧ line.isLine = true ∧ line.all Code.isScalar = true := by
  rw [isComment, Bool.and_eq_true, Bool.and_eq_true, beq_iff_eq, and_assoc]

/-- A value as it is written. -/
def written (escape : Bool) (value : Text) : Text :=
  if escape then value.encodeNonAscii else value

/-- The keys and the values as they are written, in the order of the keys. -/
def writtenPairs (escape : Bool) (translations : KeyedList Text Text) : List (Text × Text) :=
  (Text.sortBy Prod.fst translations).map fun p => (p.1, written escape p.2)

theorem mem_writtenPairs {p : Text × Text} :
    p ∈ writtenPairs escape translations ↔ ∃ q ∈ translations, (q.1, written escape q.2) = p := by
  simp only [writtenPairs, List.mem_map, (Text.perm_sortBy Prod.fst translations).mem_iff]

theorem isKey_writtenPairs (escape : Bool) (h : ∀ p ∈ translations, IsKey p.1) :
    ∀ p ∈ writtenPairs escape translations, IsKey p.1 := by
  intro p hp
  obtain ⟨q, hq, rfl⟩ := mem_writtenPairs.1 hp
  exact h q hq

theorem keys_writtenPairs (escape : Bool) (h : translations.keys.Nodup) :
    ((writtenPairs escape translations).map Prod.fst).Nodup := by
  rw [writtenPairs, List.map_map]
  exact ((Text.perm_sortBy Prod.fst translations).map Prod.fst).nodup_iff.2 h

/-- Writing keeps the weight. -/
theorem weight_writtenPairs : Text.weight ((writtenPairs escape translations).flatMap lineOf) =
    Text.weight ((Text.sortBy Prod.fst translations).flatMap lineOf) := by
  rw [writtenPairs]
  induction Text.sortBy Prod.fst translations with
  | nil => rfl
  | cons p rest ih =>
      have hvalue : (written escape p.2).weight = p.2.weight := by
        unfold written
        split
        · exact Text.weight_encodeNonAscii p.2
        · rfl
      rw [List.map_cons, List.flatMap_cons, List.flatMap_cons, Text.weight_append,
        Text.weight_append, ih, weight_lineOf, weight_lineOf, hvalue]

theorem render_eq : render header escape translations =
    header ++ (writtenPairs escape translations).map lineOf := by
  rw [render, writtenPairs, List.map_map]
  rfl

/-- The entries that are read from a file to which a catalog made from translations was written;
none if it cannot be written. -/
def reread? (marker : Text) (header : List Text) (escape : Bool)
    (translations : KeyedList Text Text) : Option (List CatalogEntry) :=
  (Text.ofLines (render header escape translations)).toUtf8?.map fun bytes =>
    (CatalogEntry.ofLines marker (Text.linesOfBytes bytes)).1

theorem all_isScalar_ofLines (ls : List Text) :
    (Text.ofLines ls).all Code.isScalar = ls.all (·.all Code.isScalar) := by
  have hend : Code.isScalar Code.lineFeed = true := rfl
  rw [Text.ofLines, List.all_flatMap]
  congr 1
  funext l
  simp [hend]

/-- The lines that are read from a file that begins with comments. -/
theorem linesOfBytes_ofLines (hne : header ≠ []) (hheader : header.all isComment = true)
    {body : List Text} {bytes : Bytes} (h : (Text.ofLines (header ++ body)).toUtf8? = some bytes) :
    Text.linesOfBytes bytes = header ++ (Text.ofLines body).lines := by
  have hlines : ∀ line ∈ header, line.isLine = true := fun line hline =>
    (isComment_iff.1 (List.all_eq_true.1 hheader line hline)).2.1
  have hfirst : ∃ more, Text.ofLines (header ++ body) = Code.hash :: more := by
    obtain ⟨line, rest, rfl⟩ := List.exists_cons_of_ne_nil hne
    obtain ⟨hhash, -⟩ := isComment_iff.1 (List.all_eq_true.1 hheader line List.mem_cons_self)
    cases line with
    | nil => cases hhash
    | cons c comment => exact ⟨_, by rw [Option.some.inj hhash]; rfl⟩
  obtain ⟨hscalar, rfl⟩ := Text.toUtf8?_eq_some_iff.1 h
  obtain ⟨more, hmore⟩ := hfirst
  rw [Text.linesOfBytes, ← Text.lines_ofLines_append hlines, hmore]
  rw [hmore] at hscalar
  rw [Text.ofBytes_flatMap (by decide) hscalar]

/-- The entries are read from the lines behind the header. -/
theorem reread?_eq (marker : Text) (hne : header ≠ []) (hheader : header.all isComment = true) :
    ∃ r : Reading, ∃ number, r.entries = [] ∧ r.position = .fresh ∧
      ∀ escape translations, reread? marker header escape translations =
        if ((writtenPairs escape translations).map lineOf).all (·.all Code.isScalar) then
          some (readLines marker r number
            (Text.ofLines ((writtenPairs escape translations).map lineOf)).lines).entries.reverse
        else none := by
  have hcomments : ∀ line ∈ header, line.isLine = true ∧ line.head? = some Code.hash := by
    intro line hline
    obtain ⟨hhash, hline, -⟩ := isComment_iff.1 (List.all_eq_true.1 hheader line hline)
    exact ⟨hline, hhash⟩
  have hread := readLines_comments marker (r := {}) 1 rfl hcomments
  refine ⟨_, 1 + header.length, congrArg Reading.entries hread, congrArg Reading.position hread,
    fun escape translations => ?_⟩
  have hscalar : (Text.ofLines (render header escape translations)).all Code.isScalar =
      ((writtenPairs escape translations).map lineOf).all (·.all Code.isScalar) := by
    rw [all_isScalar_ofLines, render_eq, List.all_append]
    have hall : header.all (·.all Code.isScalar) = true := List.all_eq_true.2 fun line hline =>
      (isComment_iff.1 (List.all_eq_true.1 hheader line hline)).2.2
    rw [hall, Bool.true_and]
  simp only [reread?]
  cases htext : (Text.ofLines (render header escape translations)).toUtf8? with
  | none =>
      rw [← hscalar, if_neg, Option.map_none]
      intro h
      rw [Text.toUtf8?, if_pos h] at htext
      cases htext
  | some bytes =>
      rw [← hscalar, if_pos (Text.toUtf8?_eq_some_iff.1 htext).1, Option.map_some]
      rw [render_eq] at htext
      rw [CatalogEntry.ofLines, linesOfBytes_ofLines hne hheader htext, readLines_append]

/-- Where no line holds a surrogate, the file can be written. -/
theorem exists_reread? (marker : Text) (hne : header ≠ []) (hheader : header.all isComment = true)
    (hscalar : ∀ p ∈ translations, (entryLine escape p.1 p.2).all Code.isScalar = true) :
    ∃ es, reread? marker header escape translations = some es := by
  obtain ⟨r, number, -, -, hread⟩ := reread?_eq marker hne hheader
  refine ⟨_, (hread escape translations).trans (if_pos ?_)⟩
  rw [List.all_map]
  refine List.all_eq_true.2 fun p hp => ?_
  obtain ⟨q, hq, rfl⟩ := mem_writtenPairs.1 hp
  exact hscalar q hq

/-- Where each line is whole, the entries that are read are those that were written. -/
theorem map_reread? (hne : header ≠ []) (hheader : header.all isComment = true)
    (hkeys : ∀ p ∈ translations, IsKey p.1) (hnodup : translations.keys.Nodup)
    (hwhole : ∀ p ∈ translations, (written escape p.2).isWhole = true) {es : List CatalogEntry}
    (h : reread? marker header escape translations = some es) :
    es.map pair = writtenPairs escape translations := by
  obtain ⟨r, number, hentries, hposition, hread⟩ := reread?_eq marker hne hheader
  have hkeys := isKey_writtenPairs escape hkeys
  have hwhole : ∀ p ∈ writtenPairs escape translations, p.2.isWhole = true := by
    intro p hp
    obtain ⟨q, hq, rfl⟩ := mem_writtenPairs.1 hp
    exact hwhole q hq
  have hlines := isLine_of_mem_map_lineOf hkeys fun p hp => (Text.isWhole_iff.1 (hwhole p hp)).1
  rw [hread] at h
  split at h
  · rw [← Option.some.inj h, Text.lines_ofLines hlines,
      readLines_whole marker number hposition hkeys hwhole, hentries, List.append_nil,
      List.reverse_reverse, map_pair_entriesFrom]
    rw [hentries]
    exact keys_writtenPairs escape hnodup
  · cases h

/-- Where a line is not whole, the entries that are read are lighter than what was written. -/
theorem load_lt_of_reread? (hne : header ≠ []) (hheader : header.all isComment = true)
    (hkeys : ∀ p ∈ translations, IsKey p.1)
    (hwhole : ∃ p ∈ translations, (written escape p.2).isWhole = false) {es : List CatalogEntry}
    (h : reread? marker header escape translations = some es) :
    load es < Text.weight ((writtenPairs escape translations).flatMap lineOf) := by
  obtain ⟨r, number, hentries, hposition, hread⟩ := reread?_eq marker hne hheader
  have hkeys := isKey_writtenPairs escape hkeys
  obtain ⟨q, hq, hwhole⟩ := hwhole
  have hwritten : (q.1, written escape q.2) ∈ writtenPairs escape translations :=
    mem_writtenPairs.2 ⟨q, hq, rfl⟩
  have hload : load r.entries = 0 := by rw [hentries]; rfl
  rw [hread] at h
  split at h
  · rw [← Option.some.inj h, load_reverse]
    generalize hps : writtenPairs escape translations = ps at hkeys hwritten ⊢
    by_cases hlines : ∀ p ∈ ps, p.2.isLine = true
    · have hlt := load_readLines_lt marker number hposition hkeys hlines
        ⟨_, hwritten, hwhole⟩
      rw [Text.lines_ofLines (isLine_of_mem_map_lineOf hkeys hlines)]
      omega
    · -- a boundary within a value is no part of any line
      have hle := load_readLines_le marker r number (Text.ofLines (ps.map lineOf)).lines
      rw [Text.flatten_lines_ofLines, ← List.flatMap_def] at hle
      have hlt := Text.weight_lt_of_sublist (List.filter_sublist (l := ps.flatMap lineOf)
        (p := fun c => !Code.isLineBoundary c)) fun heq => hlines fun p hp => by
          rw [← isLine_lineOf (hkeys p hp)]
          refine List.all_eq_true.2 fun c hc => ?_
          exact List.filter_eq_self.1 heq c (List.mem_flatMap.2 ⟨p, hp, hc⟩)
      omega
  · cases h

end Catalog

end BundleAudit
