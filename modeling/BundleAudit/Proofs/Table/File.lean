import BundleAudit.Files.Read
import BundleAudit.Proofs.Files.Write
import BundleAudit.Proofs.Table.Rows
import BundleAudit.Table.File

/-!
# BundleAudit.Proofs.Table.File

**A table file holds what was written to it** (`readTable_writeRecords`). Cells may
hold any characters that a file can hold: they come back as they were, and so do
rows of a single empty cell, which a reader could take for empty lines.
-/

namespace BundleAudit

/-- The records of a table file are those that were written to it. -/
theorem Csv.ofBytes_write {rows : List (List Text)} (hrows : ∀ row ∈ rows, row ≠ [])
    (h : rows.all (·.all isStorable) = true) :
    (write rows).all Code.isScalar = true ∧
      ofBytes ((write rows).flatMap Text.utf8Code) = .ok rows := by
  have hread := reread?_eq hrows
  rw [if_pos h] at hread
  obtain ⟨bytes, hwritten, hread⟩ := Option.bind_eq_some_iff.1 hread
  obtain ⟨hscalar, rfl⟩ := Text.toUtf8?_eq_some_iff.1 hwritten
  refine ⟨hscalar, ?_⟩
  cases hbytes : ofBytes ((write rows).flatMap Text.utf8Code) with
  | error failure => rw [hbytes] at hread; cases hread
  | ok records => rw [hbytes] at hread; exact congrArg Except.ok (Option.some.inj hread)

namespace Table

variable {header : Bool} {rows : List (List Text)}

theorem ne_nil_of_mem_recordsOf (h : ∀ row ∈ rows, row ≠ []) :
    ∀ row ∈ recordsOf header rows, row ≠ [] := by
  cases header with
  | false => exact h
  | true => exact List.forall_mem_cons.2 ⟨List.cons_ne_nil _ _, h⟩

theorem isStorable_recordsOf (h : ∀ row ∈ rows, ∀ cell ∈ row, Csv.isStorable cell = true) :
    (recordsOf header rows).all (·.all Csv.isStorable) = true := by
  have hrows : rows.all (·.all Csv.isStorable) = true :=
    List.all_eq_true.2 fun row hrow => List.all_eq_true.2 (h row hrow)
  cases header with
  | false => exact hrows
  | true => exact List.all_cons.trans (Bool.and_eq_true_iff.2 ⟨TableRow.isStorable_header, hrows⟩)

/-- **A table file holds what was written to it:** the row that heads it, if it was asked for, and
the rows with their cells as they are. Their number is what writing gives. -/
theorem readTable_writeRecords {t : Tree} {path : Text} (h : t.IsWritable (Path.ofText path))
    (header : Bool) (hrows : ∀ row ∈ rows, row ≠ [])
    (hcells : ∀ row ∈ rows, ∀ cell ∈ row, Csv.isStorable cell = true) :
    ∃ t', writeRecords t (Path.ofText path) header rows =
        (t', .ok (if header then rows.length + 1 else rows.length)) ∧
      t'.readTable (Path.ofText path).toText =
        .ok (if header then TableRow.header.cells :: rows else rows) := by
  have hne : ∀ row ∈ recordsOf header rows, row ≠ [] := ne_nil_of_mem_recordsOf hrows
  obtain ⟨hscalar, hread⟩ := Csv.ofBytes_write hne (isStorable_recordsOf hcells)
  obtain ⟨t', hwrite, hbytes⟩ := Tree.read_writeText (Path.isNormal_ofText path) h hscalar
  refine ⟨t', ?_, ?_⟩
  · rw [writeRecords, writeFile, hwrite]
    cases header <;> rfl
  · rw [Tree.readTable, hbytes]
    exact hread

/-- A tree with a link to a directory that holds an older table. -/
def linkedTree : Tree :=
  { here := [Text.ofString "work"]
    entries :=
      [([Text.ofString "work"], .directory),
        ([Text.ofString "work", Text.ofString "out"], .link "/data"),
        ([Text.ofString "data"], .directory),
        ([Text.ofString "data", Text.ofString "t.csv"], .ofText "old")] }

/-- Rows with quotes, commas, line ends, a zero, a byte order mark and an empty cell. -/
def hardRows : List (List Text) :=
  [[Text.ofString "say \"hi\"", Text.ofString " a, b\r\n", [Code.nul, Code.byteOrderMark]],
    [[]], [[Code.carriageReturn]]]

theorem noLinkHas_linkedTree {name : Text} (h : name ≠ "out") : linkedTree.NoLinkHas name := by
  refine Tree.NoLinkHas.of_entries fun l target hmem => ?_
  simp only [linkedTree, List.mem_cons, List.not_mem_nil, or_false, Prod.mk.injEq, reduceCtorEq,
    and_false, false_or, Entry.ofText] at hmem
  have hlast := congrArg List.getLast? hmem.1
  rw [List.getLast?_concat] at hlast
  exact h (Option.some.inj hlast)

theorem readTable_writeRecords_sample :
    linkedTree.IsWritable (Path.ofText "out/./t.csv") ∧
      (∀ row ∈ hardRows, row ≠ []) ∧
      (∀ row ∈ hardRows, ∀ cell ∈ row, Csv.isStorable cell = true) ∧
      ∃ t', writeRecords linkedTree (Path.ofText "out/./t.csv") true hardRows = (t', .ok 4) ∧
        t'.readTable "out/t.csv" = .ok (TableRow.header.cells :: hardRows) := by
  have hwritable : linkedTree.IsWritable (Path.ofText "out/./t.csv") :=
    ⟨Option.isNone_iff_eq_none.1 (by decide +kernel), noLinkHas_linkedTree (by decide),
      noLinkHas_linkedTree (by decide)⟩
  have hrows : ∀ row ∈ hardRows, row ≠ [] := by decide
  have hcells : ∀ row ∈ hardRows, ∀ cell ∈ row, Csv.isStorable cell = true := by decide +kernel
  exact ⟨hwritable, hrows, hcells, readTable_writeRecords hwritable true hrows hcells⟩

end Table

end BundleAudit
