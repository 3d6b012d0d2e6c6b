import BundleAudit.Proofs.Text.Utf8
import BundleAudit.Table.Csv

/-!
# BundleAudit.Proofs.Table.Csv

**Records that are written are read back,** whatever their cells hold, as long as each
record has a cell. The reading automaton goes through a written cell between quotes,
so no comma, quote or line end of the cell ends it; between the cells and at the end
of the record it meets the comma and the line feed that were written there.
-/

namespace BundleAudit.Csv

/-! ### Reading what was written -/

theorem recordsFrom_cons {r s : Reading} {c : Code} (h : r.step c = some s) (rest : Text) :
    recordsFrom r (c :: rest) = recordsFrom s rest := by
  rw [recordsFrom, h]

theorem recordsFrom_quoteBody (t cell : Text) (cells : List Text) (rest : Text) :
    recordsFrom ⟨.quoted, cell, cells⟩ (quoteBody t ++ rest) =
      recordsFrom ⟨.quoted, t.reverse ++ cell, cells⟩ rest := by
  induction t generalizing cell with
  | nil => rfl
  | cons c more ih =>
      have hreverse : (c :: more).reverse ++ cell = more.reverse ++ c :: cell := by simp
      rw [hreverse, ← ih, quoteBody, List.flatMap_cons, List.append_assoc]
      by_cases hc : c = Code.doubleQuote
      · -- the first quote seems to end the cell, and the second one takes that back
        subst hc
        rfl
      · have hstep : Reading.step ⟨.quoted, cell, cells⟩ c = some ⟨.quoted, c :: cell, cells⟩ :=
          if_neg hc
        rw [if_neg hc]
        exact recordsFrom_cons hstep _

theorem recordsFrom_quoteCell {place : Place} (h : place = .recordStart ∨ place = .cellStart)
    (t : Text) (cells : List Text) (rest : Text) :
    recordsFrom ⟨place, [], cells⟩ (quoteCell t ++ rest) =
      recordsFrom ⟨.afterQuote, t.reverse, cells⟩ rest := by
  have hopen : Reading.step ⟨place, [], cells⟩ Code.doubleQuote = some ⟨.quoted, [], cells⟩ := by
    rcases h with rfl | rfl <;> rfl
  rw [quoteCell, List.cons_append, List.cons_append, recordsFrom_cons hopen, List.append_assoc,
    recordsFrom_quoteBody, List.append_nil]
  rfl

theorem recordsFrom_record {place : Place} (h : place = .recordStart ∨ place = .cellStart)
    (t : Text) (ts cells : List Text) (rest : Text) :
    recordsFrom ⟨place, [], cells⟩
        (List.intercalate [Code.comma] ((t :: ts).map quoteCell) ++ Code.lineFeed :: rest) =
      (cells.reverse ++ t :: ts) :: recordsFrom {} rest := by
  -- the cells that are complete are kept in front, so the induction is on those still to come
  induction ts generalizing place t cells with
  | nil =>
      have hrecord : Reading.record ⟨.afterQuote, t.reverse, cells⟩ = cells.reverse ++ [t] := by
        simp [Reading.record]
      rw [List.map_singleton, List.intercalate_singleton, recordsFrom_quoteCell h, ← hrecord]
      rfl
  | cons u us ih =>
      have hnext : Reading.step ⟨.afterQuote, t.reverse, cells⟩ Code.comma =
          some ⟨.cellStart, [], t :: cells⟩ := by
        show some (Reading.nextCell _) = _
        rw [Reading.nextCell, List.reverse_reverse]
      have hrest := ih (.inr rfl) u (t :: cells)
      rw [List.map_cons] at hrest
      rw [List.map_cons, List.map_cons, List.intercalate_cons_cons, List.append_assoc,
        List.append_assoc, recordsFrom_quoteCell h, List.singleton_append, recordsFrom_cons hnext,
        hrest, List.reverse_cons, List.append_assoc]
      rfl

/-- Records with cells are read as they are written. -/
theorem records_write {rows : List (List Text)} (h : ∀ row ∈ rows, row ≠ []) :
    records (write rows) = rows := by
  unfold records
  induction rows with
  | nil => rfl
  | cons row rest ih =>
      obtain ⟨hrow, hrest⟩ := List.forall_mem_cons.1 h
      obtain ⟨t, ts, rfl⟩ := List.exists_cons_of_ne_nil hrow
      have hrecord := recordsFrom_record (.inl rfl) t ts [] (write rest)
      rw [write, List.flatMap_cons, writeRecord, List.append_assoc]
      show recordsFrom ⟨.recordStart, [], []⟩
        (List.intercalate [Code.comma] ((t :: ts).map quoteCell) ++ Code.lineFeed :: write rest) = _
      rw [hrecord, ih hrest]
      rfl

/-! ### Table files -/

/-- The text of a table file that begins with an ASCII character. -/
theorem text?_flatMap {c : Nat} (hc : c < 0x80) {t : Text} (h : (c :: t).all Code.isScalar = true) :
    text? ((c :: t : Text).flatMap Text.utf8Code) = some (c :: t) := by
  have hmark : ((.ofNat c : UInt8) == 0xEF) = false ∧ ((0xEF : UInt8) == .ofNat c) = false := by
    have hne := Text.beq_ofNat_of_ascii hc (b := 0xEF) (by decide)
    exact ⟨beq_eq_false_iff_ne.2 (Ne.symm (beq_eq_false_iff_ne.1 hne)), hne⟩
  have hprefix : List.isPrefixOf ((c :: t : Text).flatMap Text.utf8Code) Text.utf8Mark = false := by
    rw [Text.flatMap_utf8Code_cons hc]
    simp [List.isPrefixOf, Text.utf8Mark, hmark.1]
  have hprefix' : Text.utf8Mark.isPrefixOf ((c :: t : Text).flatMap Text.utf8Code) = false := by
    rw [Text.flatMap_utf8Code_cons hc]
    simp [List.isPrefixOf, Text.utf8Mark, hmark.2]
  rw [text?, hprefix, hprefix', if_neg Bool.false_ne_true, if_neg Bool.false_ne_true,
    Text.ofUtf8?_flatMap h]

theorem exists_write_cons (t : Text) (ts : List Text) (rest : List (List Text)) :
    ∃ more, write ((t :: ts) :: rest) = Code.doubleQuote :: more := by
  cases ts <;> exact ⟨_, rfl⟩

theorem text?_write {rows : List (List Text)} (hrows : ∀ row ∈ rows, row ≠ [])
    (h : (write rows).all Code.isScalar = true) :
    text? ((write rows).flatMap Text.utf8Code) = some (write rows) := by
  cases rows with
  | nil => rfl
  | cons row rest =>
      obtain ⟨t, ts, rfl⟩ := List.exists_cons_of_ne_nil (hrows row List.mem_cons_self)
      obtain ⟨more, hmore⟩ := exists_write_cons t ts rest
      rw [hmore] at h ⊢
      exact text?_flatMap (by decide) h

theorem all_isScalar_quoteBody (t : Text) :
    (quoteBody t).all Code.isScalar = t.all Code.isScalar := by
  induction t with
  | nil => rfl
  | cons c rest ih =>
      rw [quoteBody, List.flatMap_cons, List.all_append, List.all_cons, ← ih]
      congr 1
      split <;> simp

theorem all_isScalar_record (ts : List Text) :
    (List.intercalate [Code.comma] (ts.map quoteCell)).all Code.isScalar =
      ts.all (·.all Code.isScalar) := by
  have hcell : ∀ t, (quoteCell t).all Code.isScalar = t.all Code.isScalar := by
    intro t
    have hquote : Code.isScalar Code.doubleQuote = true := rfl
    simp [quoteCell, all_isScalar_quoteBody, hquote]
  induction ts with
  | nil => rfl
  | cons t more ih =>
      cases more with
      | nil => simp [hcell]
      | cons u us =>
          have hcomma : Code.isScalar Code.comma = true := rfl
          rw [List.map_cons] at ih
          rw [List.map_cons, List.map_cons, List.intercalate_cons_cons, List.all_append,
            List.all_append, ih, hcell, List.all_cons]
          simp [hcomma]

/-- What is written holds no surrogates just if no cell does. -/
theorem all_isScalar_write (rows : List (List Text)) :
    (write rows).all Code.isScalar = rows.all (·.all (·.all Code.isScalar)) := by
  have hend : Code.isScalar Code.lineFeed = true := rfl
  rw [write, List.all_flatMap]
  congr 1
  funext row
  rw [writeRecord, List.all_append, all_isScalar_record]
  simp [hend]

/-- The records that are read from a file to which records were written; none if they cannot be
written or read. -/
def reread? (rows : List (List Text)) : Option (List (List Text)) :=
  (write rows).toUtf8?.bind fun bytes => (ofBytes bytes).toOption

/-- Whether a file can hold a cell. -/
def isStorable (cell : Text) : Bool := cell.all Code.isScalar && cell.length ≤ cellLimit

/-- Records come back from a file as they are, if the file can hold them. -/
theorem reread?_eq {rows : List (List Text)} (h : ∀ row ∈ rows, row ≠ []) :
    reread? rows = if rows.all (·.all isStorable) then some rows else none := by
  have hsplit : rows.all (·.all isStorable) =
      (rows.all (·.all (·.all Code.isScalar)) && rows.all (·.all (·.length ≤ cellLimit))) := by
    rw [Bool.eq_iff_iff]
    simp only [isStorable, Bool.and_eq_true, List.all_eq_true]
    exact ⟨fun hall => ⟨fun row hrow cell hcell => (hall row hrow cell hcell).1,
      fun row hrow cell hcell => (hall row hrow cell hcell).2⟩,
      fun hall row hrow cell hcell => ⟨hall.1 row hrow cell hcell, hall.2 row hrow cell hcell⟩⟩
  rw [reread?, Text.toUtf8?, hsplit, ← all_isScalar_write]
  cases hscalar : (write rows).all Code.isScalar with
  | false => rfl
  | true =>
      rw [if_pos rfl, Option.bind_some, ofBytes, text?_write h hscalar, Bool.true_and]
      simp only [records_write h]
      split <;> rfl

end BundleAudit.Csv
