import BundleAudit.Proofs.Catalog.Reading
import BundleAudit.Proofs.Place

/-!
# BundleAudit.Proofs.Catalog.Records

**A catalog as a list of records.** Lines are read one by one, and what a line means
depends on where the last one stopped. The same catalog comes from two simple readings:
the lines are grouped into records (`CatalogRecord.ofLines`), and each record says by
itself whether it is a remark, an entry or malformed. Which entries stay, and which are
declared to be in use, is then said of the places of the records (`ofLines_eq_records`).

The first half of the proof reads a whole record at once (`settle_readLines`), the second
one goes through the records with the invariant `HasRead`.
-/

namespace BundleAudit

/-! ### Records -/

/-- A record of a catalog: the line that begins it, with its number, and the lines on which
it goes on. -/
structure CatalogRecord where
  number : Nat
  first : Text
  more : List Text := []

namespace CatalogRecord

/-- Whether a line is blank or a comment. -/
def isRemark (line : Text) : Bool :=
  line.trim.isEmpty || line.trim.head? == some Code.hash

/-- The lines that a line goes on in: each one as long as the line before it goes on. -/
def goOn (line : Text) : List Text → List Text
  | [] => []
  | next :: rest => if line.continues then next :: goOn next rest else []

/-- The records of lines, from number `number` on. A remark is a record of its own. -/
def ofLines (number : Nat) : List Text → List CatalogRecord
  | [] => []
  | line :: rest =>
    if isRemark line then { number, first := line } :: ofLines (number + 1) rest
    else
      let more := goOn line rest
      { number, first := line, more } :: ofLines (number + 1 + more.length) (rest.drop more.length)
termination_by lines => lines.length
decreasing_by
  · exact Nat.lt_succ_self _
  · rw [List.length_drop, List.length_cons]
    omega

/-- The key of an entry and the text after its first equals sign, which has something before
it. -/
def assignment? (r : CatalogRecord) : Option (Text × Text) :=
  let line := r.first.trim
  let index := line.idxOf Code.equals
  if isRemark r.first = false ∧ 0 < index ∧ index < line.length then
    some (Text.trim (line.take index), line.drop (index + 1))
  else none

/-- The key that a record assigns a value to. -/
def key? (r : CatalogRecord) : Option Text := r.assignment?.map Prod.fst

/-- What a continuation line adds to a value. -/
def addition (line : Text) : Text := if line.continues then line.trim.dropLast else line.trimLeft

/-- The value of an entry with this text on its first line. -/
def value (r : CatalogRecord) (text : Text) : Text :=
  (if r.first.continues then text.dropLast else text) ++ r.more.flatMap addition

/-- What is wrong with a record that is neither a remark nor an entry. -/
def malformed? (r : CatalogRecord) : Option MalformedLine :=
  if isRemark r.first = false ∧ r.assignment? = none then some ⟨r.number, r.first.trim⟩ else none

/-- Whether a record is a comment with the intentional marker. -/
def declares (marker : Text) (r : CatalogRecord) : Bool :=
  match r.first.trim with
  | Code.hash :: comment => Text.includes comment marker
  | _ => false

/-- The remarks at the end of some records. -/
def lastRemarks (records : List CatalogRecord) : List CatalogRecord :=
  records.reverse.takeWhile fun r => isRemark r.first

/-- The entry at a place of the records, unless its key comes again. -/
def entryAt? (marker : Text) (p : Place CatalogRecord) : Option CatalogEntry :=
  match p.item.assignment? with
  | none => none
  | some (key, text) =>
    if p.after.any fun r => r.key? == some key then none
    else some
      { key
        value := p.item.value text
        line := p.item.number
        intentional := (lastRemarks p.before).any (declares marker)
        uses := 0 }

end CatalogRecord

namespace CatalogEntry

open CatalogRecord

variable {marker : Text}

/-! ### The equals sign -/

theorem cut?_eq_idxOf (c : Code) (t : Text) :
    t.cut? c =
      if t.idxOf c < t.length then some (t.take (t.idxOf c), t.drop (t.idxOf c + 1)) else none := by
  induction t with
  | nil => rfl
  | cons d rest ih =>
      by_cases hd : d = c
      · simp [Text.cut?, hd]
      · rw [Text.cut?, if_neg hd, ih, List.idxOf_cons, beq_false_of_ne hd, cond_false]
        by_cases hlt : rest.idxOf c < rest.length
        · simp [hlt]
        · simp [hlt]

theorem assignment?_eq_split? {r : CatalogRecord} (h : isRemark r.first = false) :
    r.assignment? = split? r.first.trim := by
  unfold assignment? split?
  rw [cut?_eq_idxOf]
  by_cases hlt : r.first.trim.idxOf Code.equals < r.first.trim.length
  · by_cases hpos : 0 < r.first.trim.idxOf Code.equals
    · have hne : (r.first.trim.take (r.first.trim.idxOf Code.equals)).isEmpty = false := by
        rw [List.isEmpty_eq_false_iff, Ne, ← List.length_eq_zero_iff, List.length_take]
        omega
      simp [h, hlt, hpos, hne]
    · have hzero : r.first.trim.idxOf Code.equals = 0 := by omega
      rw [hzero] at hlt
      simp [h, hlt, hzero]
  · simp [hlt]

/-- A line that goes on has its backslash after its equals sign. -/
theorem dropContinuation_of_split? {line key text : Text} (h : split? line.trim = some (key, text))
    (hcontinues : line.continues = true) : text.dropContinuation = text.dropLast := by
  have hcut : ∃ before, line.trim = before ++ Code.equals :: text := by
    rw [split?] at h
    split at h
    · next before after hcut =>
        obtain ⟨hline, -⟩ := Text.of_cut?_eq_some hcut
        split at h
        · cases h
        · obtain ⟨-, rfl⟩ := Prod.mk.inj (Option.some.inj h)
          exact ⟨before, hline⟩
    · cases h
  obtain ⟨before, hline⟩ := hcut
  have hequals : Code.isBlank Code.equals = false := rfl
  have hgoes : text.continues = true := by
    rw [← Text.continues_append_cons hequals (by decide) before text, ← hline, Text.continues_trim,
      hcontinues]
  have htrim : text.trimRight = text := by
    have hright : line.trim.trimRight = line.trim := Text.trimRight_trimRight _
    rw [hline, Text.trimRight, Text.dropTrailing_append_cons hequals] at hright
    exact (List.cons.inj (List.append_cancel_left hright)).2
  rw [Text.dropContinuation, if_pos hgoes, htrim]

/-! ### Reading a record -/

/-- What has been read, wherever the last line stopped. -/
def Reading.settle (r : Reading) : Reading := { r with position := .fresh }

/-- What a continuation line does to the entries, by what it is a part of. -/
def Position.extend (p : Position) (text : Text) (es : List CatalogEntry) : List CatalogEntry :=
  match p with
  | .inEntry => extendLast text es
  | _ => es

theorem extend_nil (p : Position) (es : List CatalogEntry) : p.extend [] es = es := by
  cases p with
  | inEntry => cases es <;> simp [Position.extend, extendLast]
  | fresh | inMalformed => rfl

theorem extend_extend (p : Position) (a b : Text) (es : List CatalogEntry) :
    p.extend b (p.extend a es) = p.extend (a ++ b) es := by
  cases p with
  | inEntry => cases es <;> simp [Position.extend, extendLast]
  | fresh | inMalformed => rfl

theorem dropContinuation_trimLeft (line : Text) :
    line.trimLeft.dropContinuation = addition line := by
  rw [Text.dropContinuation, Text.continues_trimLeft]
  rfl

theorem readLine_of_ne_fresh {r : Reading} {p : Position} (hp : p ≠ .fresh)
    (hposition : r.position = p) (number : Nat) (line : Text) :
    readLine marker r number line =
      { r with
        entries := p.extend (addition (withoutEnd line)) r.entries
        position := if (withoutEnd line).continues then p else .fresh } := by
  rw [← dropContinuation_trimLeft]
  cases p with
  | fresh => exact absurd rfl hp
  | inEntry | inMalformed =>
      unfold readLine
      rw [hposition]
      rfl

/-- The lines on which a record goes on are read at once. -/
theorem settle_readLines_goOn {r : Reading} {p : Position} (hp : p ≠ .fresh) {line : Text}
    (hposition : r.position = if line.continues then p else .fresh) (number : Nat)
    (rest : List Text) :
    (readLines marker r number rest).settle =
      (readLines marker
        { r with
          entries := p.extend ((goOn line (rest.map withoutEnd)).flatMap addition) r.entries
          position := .fresh }
        (number + (goOn line (rest.map withoutEnd)).length)
        (rest.drop (goOn line (rest.map withoutEnd)).length)).settle := by
  induction rest generalizing r line number with
  | nil =>
      rw [List.map_nil, goOn, List.flatMap_nil, extend_nil]
      rfl
  | cons next rest ih =>
      rw [List.map_cons, goOn]
      by_cases hgoes : line.continues = true
      · rw [if_pos hgoes] at hposition ⊢
        rw [readLines, readLine_of_ne_fresh hp hposition, ih rfl, extend_extend, List.flatMap_cons,
          List.length_cons, List.drop_succ_cons, Nat.add_right_comm, Nat.add_assoc]
      · rw [if_neg hgoes] at hposition ⊢
        rw [List.flatMap_nil, extend_nil, ← hposition]
        rfl

/-- Reads a whole record. -/
def readRecord (marker : Text) (r : Reading) (record : CatalogRecord) : Reading :=
  if isRemark record.first then
    { r with intentional := r.intentional || declares marker record }
  else
    match record.assignment? with
    | none =>
      { r with
        malformed := ⟨record.number, record.first.trim⟩ :: r.malformed
        intentional := false }
    | some (key, text) =>
      { r with
        entries :=
          { key, value := record.value text, line := record.number, intentional := r.intentional }
            :: r.entries.filter fun e => e.key ≠ key
        intentional := false }

theorem readFresh_remark {line : Text} (h : isRemark line = true) (r : Reading) (number : Nat) :
    readFresh marker r number line = readRecord marker r { number, first := line } := by
  have hremark : line.trim = [] ∨ ∃ comment, line.trim = Code.hash :: comment := by
    unfold isRemark at h
    cases htrim : line.trim with
    | nil => exact .inl rfl
    | cons c comment =>
        rw [htrim] at h
        have hc : c = Code.hash := by simpa using h
        exact .inr ⟨comment, by rw [hc]⟩
  rw [readRecord, if_pos h, readFresh]
  rcases hremark with htrim | ⟨comment, htrim⟩
  · simp [htrim, declares]
  · by_cases hmarker : Text.includes comment marker = true
    · simp [htrim, declares, hmarker]
    · simp [htrim, declares, hmarker]

/-- A line that begins a record of several lines, and what the others add. -/
theorem readFresh_record (marker : Text) {line : Text} (h : isRemark line = false) {r : Reading}
    (hr : r.position = .fresh) (number : Nat) (more : List Text) :
    ∃ p : Position, p ≠ .fresh ∧
      (readFresh marker r number line).position = (if line.continues then p else .fresh) ∧
      { readFresh marker r number line with
        entries := p.extend (more.flatMap addition) (readFresh marker r number line).entries
        position := .fresh } = readRecord marker r { number, first := line, more } := by
  have hassign := assignment?_eq_split? (r := { number, first := line, more }) h
  rw [readRecord, if_neg (by simp [h]), hassign]
  have hread : readFresh marker r number line =
      match split? line.trim with
      | none =>
        { r with
          malformed := ⟨number, line.trim⟩ :: r.malformed
          intentional := false
          position := if line.trim.continues then .inMalformed else .fresh }
      | some (key, value) =>
        { r with
          entries :=
            { key, line := number, intentional := r.intentional
              value := if line.trim.continues then value.dropContinuation else value }
              :: r.entries.filter fun e => e.key ≠ key
          intentional := false
          position := if line.trim.continues then .inEntry else .fresh } := by
    unfold isRemark at h
    unfold readFresh
    cases htrim : line.trim with
    | nil => simp [htrim] at h
    | cons c rest =>
        have hc : c ≠ Code.hash := by simpa [htrim] using h
        dsimp only
        split
        · next heq => cases heq
        · next heq => exact absurd (List.cons.inj heq).1 hc
        · rfl
  rw [hread, Text.continues_trim]
  cases hsplit : split? line.trim with
  | none => exact ⟨.inMalformed, nofun, rfl, by rw [← hr]; rfl⟩
  | some assigned =>
      obtain ⟨key, text⟩ := assigned
      refine ⟨.inEntry, nofun, rfl, ?_⟩
      have hvalue : (if line.continues then text.dropContinuation else text) =
          if line.continues then text.dropLast else text := by
        by_cases hgoes : line.continues = true
        · rw [if_pos hgoes, if_pos hgoes, dropContinuation_of_split? hsplit hgoes]
        · rw [if_neg hgoes, if_neg hgoes]
      dsimp only
      rw [hvalue, ← hr]
      rfl

/-- **Reading lines is reading their records.** -/
theorem settle_readLines {r : Reading} (hr : r.position = .fresh) (number : Nat)
    (lines : List Text) :
    (readLines marker r number lines).settle =
      (CatalogRecord.ofLines number (lines.map withoutEnd)).foldl (readRecord marker) r := by
  match lines with
  | [] =>
      rw [List.map_nil, CatalogRecord.ofLines, Reading.settle, readLines, ← hr]
      rfl
  | line :: rest =>
      have hfirst : readLine marker r number line =
        readFresh marker r number (withoutEnd line) := by
        unfold readLine
        rw [hr]
        rfl
      rw [List.map_cons, CatalogRecord.ofLines, readLines, hfirst]
      by_cases hremark : isRemark (withoutEnd line) = true
      · rw [if_pos hremark, List.foldl_cons, readFresh_remark hremark]
        refine settle_readLines ?_ (number + 1) rest
        rw [readRecord, if_pos hremark, hr]
      · rw [if_neg hremark, List.foldl_cons]
        obtain ⟨p, hp, hposition, hrecord⟩ := readFresh_record marker
          (Bool.eq_false_iff.2 hremark) hr number (goOn (withoutEnd line) (rest.map withoutEnd))
        rw [settle_readLines_goOn hp hposition, hrecord, ← List.map_drop]
        refine settle_readLines ?_ _ _
        rw [← hrecord]
termination_by lines.length
decreasing_by
  · exact Nat.lt_succ_self _
  · rw [List.length_drop, List.length_cons]
    omega

/-! ### The run over the records -/

/-- A record after an entry takes its place if it has the same key. -/
theorem entryAt?_extend (record : CatalogRecord) (p : Place CatalogRecord) :
    entryAt? marker (p.extend record) =
      (entryAt? marker p).filter fun e => decide (record.key? ≠ some e.key) := by
  unfold entryAt? Place.extend
  cases p.item.assignment? with
  | none => rfl
  | some assigned =>
      obtain ⟨key, text⟩ := assigned
      by_cases hlater : (p.after.any fun r => r.key? == some key) = true
      · simp [hlater]
      · by_cases hkey : record.key? = some key
        · simp [hlater, hkey, Option.filter]
        · simp [hlater, hkey, Option.filter]

/-- What holds of the reading after some records. -/
structure HasRead (marker : Text) (records : List CatalogRecord) (r : Reading) : Prop where
  entries : r.entries = ((places records).filterMap (entryAt? marker)).reverse
  malformed : r.malformed = (records.filterMap malformed?).reverse
  intentional : r.intentional = (lastRemarks records).any (declares marker)

theorem HasRead.start : HasRead marker [] {} := ⟨rfl, rfl, rfl⟩

/-- What one more record does to the entries: those with its key go, and its own one comes. -/
theorem reverse_filterMap_places_concat (records : List CatalogRecord) (record : CatalogRecord) :
    ((places (records ++ [record])).filterMap (entryAt? marker)).reverse =
      (entryAt? marker ⟨records, record, []⟩).toList ++
        ((places records).filterMap (entryAt? marker)).reverse.filter fun e =>
          decide (record.key? ≠ some e.key) := by
  have hextend : entryAt? marker ∘ Place.extend record = fun p =>
      (entryAt? marker p).filter fun e => decide (record.key? ≠ some e.key) :=
    funext fun p => entryAt?_extend record p
  have hlast : ([⟨records, record, []⟩].filterMap (entryAt? marker)).reverse =
      (entryAt? marker ⟨records, record, []⟩).toList := by
    cases he : entryAt? marker ⟨records, record, []⟩ <;> simp [he]
  rw [places_concat, List.filterMap_append, List.filterMap_map, hextend, ← List.filter_filterMap,
    List.reverse_append, hlast, List.filter_reverse]

theorem HasRead.step {records : List CatalogRecord} {r : Reading} (h : HasRead marker records r)
    (record : CatalogRecord) :
    HasRead marker (records ++ [record]) (readRecord marker r record) := by
  obtain ⟨hentries, hmalformed, hintentional⟩ := h
  have hremarks : lastRemarks (records ++ [record]) =
      if isRemark record.first then record :: lastRemarks records else [] := by
    rw [lastRemarks, List.reverse_append, List.reverse_singleton, List.singleton_append,
      List.takeWhile_cons]
    rfl
  have hkept : record.assignment? = none → r.entries =
      ((places (records ++ [record])).filterMap (entryAt? marker)).reverse := by
    intro hnone
    have hkey : record.key? = none := by rw [key?, hnone]; rfl
    have hentry : entryAt? marker ⟨records, record, []⟩ = none := by simp [entryAt?, hnone]
    rw [reverse_filterMap_places_concat, hentry, hkey, hentries]
    exact (List.filter_eq_self.2 fun _ _ => rfl).symm
  unfold readRecord
  by_cases hremark : isRemark record.first = true
  · have hnone : record.assignment? = none := by simp [assignment?, hremark]
    rw [if_pos hremark]
    refine ⟨hkept hnone, ?_, ?_⟩
    · simp [hmalformed, malformed?, hremark]
    · rw [hremarks, if_pos hremark, List.any_cons, hintentional]
      exact Bool.or_comm _ _
  · have hcleared : (lastRemarks (records ++ [record])).any (declares marker) = false := by
      rw [hremarks, if_neg hremark]
      rfl
    rw [if_neg hremark]
    cases hassign : record.assignment? with
    | none =>
        refine ⟨hkept hassign, ?_, hcleared.symm⟩
        simp [hmalformed, malformed?, hremark, hassign]
    | some assigned =>
        obtain ⟨key, text⟩ := assigned
        have hkey : record.key? = some key := by rw [key?, hassign]; rfl
        refine ⟨?_, ?_, hcleared.symm⟩
        · rw [reverse_filterMap_places_concat, hkey, ← hentries]
          simp [entryAt?, hassign, hintentional, eq_comm]
        · simp [hmalformed, malformed?, hassign]

theorem hasRead_foldl (records : List CatalogRecord) :
    HasRead marker records (records.foldl (readRecord marker) {}) := by
  induction records using List.reverseRecOn with
  | nil => exact .start
  | append_singleton records record ih =>
      rw [List.foldl_append]
      exact ih.step record

/-- **What a catalog holds, record by record.** Its entries are the last ones of their keys,
in the order of their records; its malformed lines are those of the malformed records, each
of which has one warning. -/
theorem ofLines_eq_records (marker : Text) (lines : List Text) :
    let records := CatalogRecord.ofLines 1 (lines.map withoutEnd)
    (ofLines marker lines).1 = (places records).filterMap (entryAt? marker) ∧
    (ofLines marker lines).2 = records.filterMap malformed? ∧
    ∀ file, warnings file (ofLines marker lines).2 =
      (records.filterMap malformed?).map fun m =>
        .warn (file ++ ":" ++ Text.ofNat m.line ++ ": WARNING: incorrect key: " ++ m.text) := by
  intro records
  have hsettle : (readLines marker {} 1 lines).settle = records.foldl (readRecord marker) {} :=
    settle_readLines rfl 1 lines
  have hread : HasRead marker records (records.foldl (readRecord marker) {}) :=
    hasRead_foldl records
  rw [← hsettle] at hread
  have hentries : (ofLines marker lines).1 = (places records).filterMap (entryAt? marker) := by
    rw [← List.reverse_reverse ((places records).filterMap _), ← hread.entries]
    rfl
  have hmalformed : (ofLines marker lines).2 = records.filterMap malformed? := by
    rw [← List.reverse_reverse (records.filterMap _), ← hread.malformed]
    rfl
  refine ⟨hentries, hmalformed, fun file => ?_⟩
  rw [hmalformed]
  rfl

end CatalogEntry

end BundleAudit
