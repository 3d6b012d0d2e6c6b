import BundleAudit.Proofs.Catalog.Composition
import BundleAudit.Proofs.Catalog.Records
import BundleAudit.Proofs.Catalog.Rendering

/-!
# BundleAudit.Proofs.Catalog.Wrapping

**A value on several lines is read as on one.** A value may be cut into pieces, and each
piece but the last one gets a backslash behind it and a line of its own
(`WrappedValue.lines`). What is read of these lines is the whole value
(`readLines_wrapped`), and the entries of the lines before and behind do not notice
(`ofLines_wrapped`): for them it is the same as with any value on one line, but for the
numbers of the lines behind.
-/

namespace BundleAudit

/-- A text that ends in a character which is neither blank nor a backslash, such as a letter. -/
def Text.EndsPlainly (t : Text) : Prop :=
  ∃ c, t.getLast? = some c ∧ c.isBlank = false ∧ c ≠ Code.backslash

namespace CatalogEntry

variable {marker : Text} {r : Reading} {key x : Text} {before after record : List Text}
  {e : CatalogEntry}

/-- A value in pieces that can stand on a line each. -/
structure WrappedValue where
  /-- The piece on the line of the key. -/
  first : Text
  middle : List Text := []
  last : Text
  /-- The other pieces have a backslash behind them. -/
  noLineEnd : Code.carriageReturn ∉ last ∧ Code.lineFeed ∉ last
  unindented : ∀ p ∈ middle ++ [last], ∀ c, p.head? = some c → c.isBlank = false
  even : ∀ p ∈ first :: middle, p.trailingBackslashes % 2 = 0
  /-- Behind the last piece there may be blanks. -/
  even_last : last.trimRight.trailingBackslashes % 2 = 0

namespace WrappedValue

/-- The pieces, one after the other. -/
def text (w : WrappedValue) : Text := w.first ++ w.middle.flatten ++ w.last

/-- The number of lines on which the value goes on. -/
def more (w : WrappedValue) : Nat := w.middle.length + 1

/-- The lines of the value, the first of which begins with the key. -/
def lines (key : Text) (w : WrappedValue) : List Text :=
  lineOf (key, w.first ++ [Code.backslash]) :: w.middle.map (· ++ [Code.backslash]) ++ [w.last]

theorem length_lines (key : Text) (w : WrappedValue) : (w.lines key).length = w.more + 1 := by
  simp [lines, more]

end WrappedValue

/-! ### The lines of a value -/

theorem withoutEnd_concat {c : Code} (h : c.isBlank = false) (t : Text) :
    withoutEnd (t ++ [c]) = t ++ [c] := by
  refine Text.dropTrailing_append_cons ?_ t []
  rw [Bool.or_eq_false_iff, beq_eq_false_iff_ne, beq_eq_false_iff_ne]
  constructor
  · rintro rfl
    cases h
  · rintro rfl
    cases h

theorem lineOf_concat (key value : Text) (c : Code) :
    lineOf (key, value ++ [c]) = lineOf (key, value) ++ [c] := by
  simp [lineOf]

/-- A piece that is not indented keeps its beginning. -/
theorem trimLeft_of_head? {p : Text} (h : ∀ c, p.head? = some c → c.isBlank = false) :
    p.trimLeft = p := by
  cases p with
  | nil => rfl
  | cons c rest => exact Text.trimLeft_cons (h c rfl) rest

/-- A piece with a backslash behind it is added to the value, which goes on. -/
theorem readLine_concat {p : Text} (number : Nat) (hr : r.position = .inEntry)
    (hindent : ∀ c, p.head? = some c → c.isBlank = false)
    (heven : p.trailingBackslashes % 2 = 0) :
    readLine marker r number (p ++ [Code.backslash]) =
      { r with entries := Position.inEntry.extend p r.entries } := by
  have hleft : Text.trimLeft (p ++ [Code.backslash]) = p ++ [Code.backslash] := by
    refine trimLeft_of_head? fun c hc => ?_
    cases p with
    | nil => exact Option.some.inj hc ▸ rfl
    | cons d rest => exact hindent c hc
  rw [readLine_of_ne_fresh (p := .inEntry) (by decide) hr, withoutEnd_concat rfl,
    ← dropContinuation_trimLeft, hleft, Text.dropContinuation_concat heven,
    if_pos (Text.continues_concat heven), ← hr]

/-- Pieces between the first one and the last one are added one after the other. -/
theorem readLines_middle {middle : List Text} (number : Nat) (hr : r.position = .inEntry)
    (hindent : ∀ p ∈ middle, ∀ c, p.head? = some c → c.isBlank = false)
    (heven : ∀ p ∈ middle, p.trailingBackslashes % 2 = 0) :
    readLines marker r number (middle.map (· ++ [Code.backslash])) =
      { r with entries := Position.inEntry.extend middle.flatten r.entries } := by
  induction middle generalizing r number with
  | nil => rw [List.map_nil, readLines, List.flatten_nil, extend_nil]
  | cons p rest ih =>
      obtain ⟨hp, hindent⟩ := List.forall_mem_cons.1 hindent
      obtain ⟨hpeven, heven⟩ := List.forall_mem_cons.1 heven
      rw [List.map_cons, readLines, readLine_concat number hr hp hpeven]
      refine (ih (number + 1) ?_ hindent heven).trans ?_
      · exact hr
      · rw [extend_extend, List.flatten_cons]

/-- The last piece ends the value. -/
theorem readLine_last (w : WrappedValue) (number : Nat) (hr : r.position = .inEntry) :
    readLine marker r number w.last =
      { r with entries := Position.inEntry.extend w.last r.entries, position := .fresh } := by
  have hend : withoutEnd w.last = w.last := by
    refine Text.dropTrailing_eq_self fun c hc => ?_
    rw [Bool.or_eq_false_iff, beq_eq_false_iff_ne, beq_eq_false_iff_ne]
    exact ⟨fun h => w.noLineEnd.1 (h ▸ hc), fun h => w.noLineEnd.2 (h ▸ hc)⟩
  have hleft : w.last.trimLeft = w.last :=
    trimLeft_of_head? (w.unindented w.last (List.mem_append_right _ List.mem_cons_self))
  have hstops : w.last.continues = false := by
    rw [Text.continues, w.even_last]
    rfl
  have hkeep : w.last.dropContinuation = w.last := by
    rw [Text.dropContinuation, hstops, if_neg Bool.false_ne_true]
  rw [readLine_of_ne_fresh (p := .inEntry) (by decide) hr, hend, ← dropContinuation_trimLeft, hleft,
    hkeep, hstops, if_neg Bool.false_ne_true]

/-- **The lines of a value are read as an entry with the whole value.** -/
theorem readLines_wrapped (w : WrappedValue) (number : Nat) (hr : r.position = .fresh)
    (hkey : BeginsEntry key) :
    readLines marker r number (w.lines key) =
      r.addEntry { key, value := w.text, line := number, intentional := r.intentional } false := by
  have heven : w.first.trailingBackslashes % 2 = 0 := w.even w.first List.mem_cons_self
  have hfirst : readLine marker r number (lineOf (key, w.first ++ [Code.backslash])) =
      r.addEntry { key, value := w.first, line := number, intentional := r.intentional } true := by
    have htrim : Text.trimRight (w.first ++ [Code.backslash]) = w.first ++ [Code.backslash] :=
      Text.dropTrailing_append_cons rfl w.first []
    simp only [readLine, hr]
    show readFresh marker r number (withoutEnd (lineOf (key, w.first ++ [Code.backslash]))) = _
    rw [lineOf_concat, withoutEnd_concat rfl, ← lineOf_concat,
      readFresh_lineOf marker r number hkey]
    dsimp only
    rw [htrim, Text.dropContinuation_concat heven, Text.continues_concat heven]
  have hindent := fun p hp => w.unindented p (List.mem_append_left [w.last] hp)
  rw [WrappedValue.lines, List.cons_append, readLines, hfirst, readLines_append,
    readLines_middle (number + 1) rfl hindent fun p hp => w.even p (List.mem_cons_of_mem _ hp),
    readLines, readLine_last w _ rfl, readLines, extend_extend]
  simp only [Reading.addEntry, Position.extend, extendLast, WrappedValue.text, List.append_assoc]
  rfl

/-- A value that stands on one line is read as it is. -/
theorem readLine_plain (number : Nat) (hr : r.position = .fresh) (hkey : BeginsEntry key)
    (hx : x.EndsPlainly) :
    readLine marker r number (lineOf (key, x)) =
      r.addEntry { key, value := x, line := number, intentional := r.intentional } false := by
  obtain ⟨c, hlast, hblank, hbackslash⟩ := hx
  obtain ⟨y, rfl⟩ := List.getLast?_eq_some_iff.1 hlast
  have htrim : Text.trimRight (y ++ [c]) = y ++ [c] := Text.dropTrailing_append_cons hblank y []
  have hstops : Text.continues (y ++ [c]) = false :=
    Text.continues_append_cons hblank hbackslash y []
  simp only [readLine, hr]
  show readFresh marker r number (withoutEnd (lineOf (key, y ++ [c]))) = _
  rw [lineOf_concat, withoutEnd_concat hblank, ← lineOf_concat,
    readFresh_lineOf marker r number hkey]
  dsimp only
  rw [htrim, Text.dropContinuation, hstops, if_neg Bool.false_ne_true]

/-! ### The catalog -/

/-- The entries of a catalog in which some lines add one entry. -/
theorem ofLines_addEntry
    (hrecord : readLines marker (readLines marker {} 1 before) (before.length + 1) record =
      (readLines marker {} 1 before).addEntry e false)
    (hafter : ∀ d ∈ (ofLines marker after).1, d.key ≠ e.key) :
    (ofLines marker (before ++ record ++ after)).1 =
      keptBefore ((ofLines marker before).1.filter fun d => d.key ≠ e.key)
          (ofLines marker after).1 ++
        e :: (ofLines marker after).1.map (moveDown (before.length + record.length)) := by
  have hread : readLines marker {} 1 (before ++ record) =
      (readLines marker {} 1 before).addEntry e false := by
    rw [readLines_append, Nat.add_comm 1, hrecord]
  have hentries : (ofLines marker (before ++ record)).1 =
      ((ofLines marker before).1.filter fun d => d.key ≠ e.key) ++ [e] := by
    rw [ofLines, hread]
    dsimp only [Reading.addEntry]
    rw [List.reverse_cons, ← List.filter_reverse]
    rfl
  have hkept : keptBefore [e] (ofLines marker after).1 = [e] := by
    refine List.filter_eq_self.2 fun d hd => List.all_eq_true.2 fun f hf => decide_eq_true ?_
    rw [List.mem_singleton.1 hd]
    exact hafter f hf
  have hposition : (readLines marker {} 1 (before ++ record)).position = .fresh := by
    rw [hread]
    rfl
  have hintentional : (readLines marker {} 1 (before ++ record)).intentional = false := by
    rw [hread]
    rfl
  rw [ofLines_append hposition hintentional after, hentries, List.length_append, keptBefore,
    List.filter_append]
  show keptBefore _ _ ++ keptBefore [e] (ofLines marker after).1 ++ _ = _
  rw [hkept, List.append_assoc, List.singleton_append]

/-- **A value on several lines is read as a whole, and nothing else changes:** the other entries are
those of the catalog in which the key has any value on one line, and just the numbers of the lines
behind are larger. -/
theorem ofLines_wrapped (marker : Text) (w : WrappedValue) (hkey : BeginsEntry key)
    (hbefore : (readLines marker {} 1 before).position = .fresh)
    (hafter : ∀ e ∈ (ofLines marker after).1, e.key ≠ key) (hx : x.EndsPlainly) :
    ∃ earlier later intentional, (∀ e ∈ earlier ++ later, e.key ≠ key) ∧
      (ofLines marker (before ++ [lineOf (key, x)] ++ after)).1 =
        earlier ++ { key, value := x, line := before.length + 1, intentional } :: later ∧
      (ofLines marker (before ++ w.lines key ++ after)).1 =
        earlier ++ { key, value := w.text, line := before.length + 1, intentional } ::
          later.map (moveDown w.more) := by
  have hone : readLines marker (readLines marker {} 1 before) (before.length + 1)
      [lineOf (key, x)] = _ := readLine_plain (before.length + 1) hbefore hkey hx
  have hplain := ofLines_addEntry hone hafter
  have hwrapped := ofLines_addEntry (readLines_wrapped w (before.length + 1) hbefore hkey) hafter
  refine ⟨_, _, _, fun e he => ?_, hplain, hwrapped.trans ?_⟩
  · rcases List.mem_append.1 he with he | he
    · exact of_decide_eq_true (List.mem_filter.1 (List.mem_filter.1 he).1).2
    · obtain ⟨d, hd, rfl⟩ := List.mem_map.1 he
      exact hafter d hd
  · have hmove : moveDown w.more ∘ moveDown (before.length + 1) =
        moveDown (before.length + (w.lines key).length) := funext fun e => by
      simp only [Function.comp_apply, moveDown, w.length_lines]
      congr 1
      omega
    rw [List.length_singleton, List.map_map, hmove]

/-- A value of three pieces, of which the middle one is empty and the first one ends in two
backslashes. -/
def threePieces : WrappedValue where
  first := " one\\\\"
  middle := [[]]
  last := "two "
  noLineEnd := by decide
  unindented := by decide
  even := by decide
  even_last := by decide

theorem ofLines_wrapped_sample :
    let before : List Text := ["a=1", "k=0", "# used by name"]
    let after : List Text := ["b=2\\", "3"]
    BeginsEntry "k" ∧ (readLines "used" {} 1 before).position = .fresh ∧
      (∀ e ∈ (ofLines "used" after).1, e.key ≠ "k") ∧ Text.EndsPlainly "x" ∧
      threePieces.lines "k" = ["k= one\\\\\\", "\\", "two "] ∧
      ∃ earlier later intentional, (∀ e ∈ earlier ++ later, e.key ≠ Text.ofString "k") ∧
        (ofLines "used" (before ++ [Text.ofString "k=x"] ++ after)).1 =
          earlier ++ { key := "k", value := "x", line := 4, intentional } :: later ∧
        (ofLines "used" (before ++ threePieces.lines "k" ++ after)).1 =
          earlier ++ { key := "k", value := " one\\\\two ", line := 4, intentional } ::
            later.map (moveDown 2) := by
  have hkey : BeginsEntry "k" := by constructor <;> decide
  have hbefore : (readLines "used" {} 1 [Text.ofString "a=1", Text.ofString "k=0",
      Text.ofString "# used by name"]).position = .fresh := by decide
  have hafter : ∀ e ∈ (ofLines "used" [Text.ofString "b=2\\", Text.ofString "3"]).1,
      e.key ≠ "k" := by decide
  have hx : Text.EndsPlainly "x" := ⟨0x78, by decide, by decide, by decide⟩
  exact ⟨hkey, hbefore, hafter, hx, by decide,
    ofLines_wrapped "used" threePieces hkey hbefore hafter hx⟩

end CatalogEntry

end BundleAudit
