import BundleAudit.Proofs.Table.Csv
import BundleAudit.Table.File

/-!
# BundleAudit.Proofs.Table.Rows

**The table that rows make up.** The rows that hold a translation are set one after the
other among the translations of their package (`package?_foldl_addRow`). So from the
rows of one package with distinct keys comes one translation for each kept row, in the
order of the rows; from a table file come the rows that were written to it.
-/

namespace BundleAudit

namespace TableRow

theorem cells_ne_nil (r : TableRow) : r.cells ≠ [] := List.cons_ne_nil _ _

theorem cells_injective : Function.Injective cells := fun r r' h => by
  cases r
  cases r'
  simpa [cells] using h

theorem isKept_header : header.isKept = false := by
  rw [isKept, bne_self_eq_false, Bool.false_and]

/-- The key of a row and the translation that it holds. -/
def translation (r : TableRow) : Text × Text := (r.key, r.translated.decodeEscapes)

/-- Whether a table file can hold a row. -/
def isStorable (r : TableRow) : Bool := r.cells.all Csv.isStorable

theorem isStorable_header : header.isStorable = true := by decide +kernel

end TableRow

namespace Table

/-! ### Rows -/

theorem readRows_cells (source : Text) (number : Nat) (t : Table) (rows : List TableRow) :
    readRows source number t (rows.map (·.cells)) = .ok (rows.foldl addRow t) := by
  induction rows generalizing number t with
  | nil => rfl
  | cons r rest ih => exact ih (number + 1) (t.addRow r)

theorem recordsOf_eq (header : Bool) (rows : List TableRow) :
    recordsOf header (rows.map (·.cells)) =
      ((if header then [TableRow.header] else []) ++ rows).map (·.cells) := by
  cases header <;> rfl

/-- The row that heads a table adds nothing. -/
theorem ofRows_recordsOf (source : Text) (header : Bool) (rows : List TableRow) :
    ofRows source (recordsOf header (rows.map (·.cells))) = .ok (rows.foldl addRow []) := by
  have hheader : addRow [] TableRow.header = [] := by
    rw [addRow, TableRow.isKept_header, if_neg Bool.false_ne_true]
  rw [ofRows, recordsOf_eq, readRows_cells, List.foldl_append]
  cases header with
  | false => rfl
  | true => rw [if_pos rfl, List.foldl_cons, hheader, List.foldl_nil]

/-- The table that is read from a file to which rows were written; none if they cannot be written or
read. -/
def reread? (source : Text) (header : Bool) (rows : List TableRow) : Option Table :=
  (Csv.reread? (recordsOf header (rows.map (·.cells)))).bind fun records =>
    (ofRows source records).toOption

theorem reread?_eq (source : Text) (header : Bool) (rows : List TableRow) :
    reread? source header rows =
      if rows.all (·.isStorable) then some (rows.foldl addRow []) else none := by
  have hstorable : (recordsOf header (rows.map (·.cells))).all (·.all Csv.isStorable) =
      rows.all (·.isStorable) := by
    have hcells : (fun record => List.all record Csv.isStorable) ∘ (fun r => TableRow.cells r) =
        fun r => r.isStorable := rfl
    rw [recordsOf_eq, List.all_map, hcells, List.all_append]
    cases header with
    | false => rfl
    | true =>
        rw [if_pos rfl, List.all_cons, List.all_nil, TableRow.isStorable_header, Bool.true_and,
          Bool.true_and]
  have hrecords : ∀ record ∈ recordsOf header (rows.map (·.cells)), record ≠ [] := by
    rw [recordsOf_eq]
    intro record hrecord
    obtain ⟨r, -, rfl⟩ := List.mem_map.1 hrecord
    exact r.cells_ne_nil
  rw [reread?, Csv.reread?_eq hrecords, hstorable]
  split
  · rw [Option.bind_some, ofRows_recordsOf]
    rfl
  · rfl

/-! ### The translations of a package -/

/-- The translations of a package, by key. -/
def package? (module package : Text) (t : Table) : Option (KeyedList Text Text) :=
  (t.forModule module).get? package

theorem package?_add_self (module package key text : Text) (t : Table) :
    (t.add module package key text).package? module package =
      some (KeyedList.set key text ((t.package? module package).getD [])) := by
  unfold package? forModule add KeyedList.alter
  rw [KeyedList.get?_set_self, Option.getD_some, KeyedList.get?_set_self]

/-- Adds what a row holds to the translations of its package. -/
def addTranslation (translations : Option (KeyedList Text Text)) (r : TableRow) :
    Option (KeyedList Text Text) :=
  some (KeyedList.set r.translation.1 r.translation.2 (translations.getD []))

theorem package?_foldl_addRow {module package : Text} {rows : List TableRow}
    (h : ∀ r ∈ rows, r.module = module ∧ r.package = package) (t : Table) :
    (rows.foldl addRow t).package? module package =
      (rows.filter (·.isKept)).foldl addTranslation (t.package? module package) := by
  induction rows generalizing t with
  | nil => rfl
  | cons r rest ih =>
      obtain ⟨⟨rfl, rfl⟩, hrest⟩ := List.forall_mem_cons.1 h
      rw [List.foldl_cons, ih hrest, addRow]
      split
      · next hkept => rw [package?_add_self, List.filter_cons_of_pos hkept]; rfl
      · next hkept => rw [List.filter_cons_of_neg hkept]

/-- Rows with distinct keys that are new add one translation each. -/
theorem foldl_addTranslation {translations : KeyedList Text Text} {rows : List TableRow}
    (h : (translations.keys ++ rows.map (·.key)).Nodup) :
    rows.foldl addTranslation (some translations) =
      some (translations ++ rows.map (·.translation)) := by
  induction rows generalizing translations with
  | nil => rw [List.map_nil, List.append_nil]; rfl
  | cons r rest ih =>
      have hnew : r.key ∉ translations.keys := fun hkey =>
        (List.nodup_append.1 h).2.2 _ hkey _ List.mem_cons_self rfl
      have hkeys : KeyedList.keys (translations ++ [r.translation]) =
          translations.keys ++ [r.key] := by
        simp [KeyedList.keys, TableRow.translation]
      have hstep : addTranslation (some translations) r = some (translations ++ [r.translation]) :=
        congrArg some (KeyedList.set_of_not_mem hnew _)
      rw [List.foldl_cons, hstep, ih ?_, List.map_cons, List.append_assoc]
      · rfl
      · rw [hkeys, List.append_assoc]
        exact h

/-- The translations that come from the rows of one package with distinct keys. -/
theorem package?_foldl_nil {module package : Text} {rows : List TableRow}
    (h : ∀ r ∈ rows, r.module = module ∧ r.package = package)
    (hkeys : (rows.map (·.key)).Nodup) (hkept : rows.any (·.isKept) = true) :
    (rows.foldl addRow []).package? module package =
      some ((rows.filter (·.isKept)).map (·.translation)) := by
  have hnodup : ((rows.filter (·.isKept)).map (·.key)).Nodup :=
    hkeys.sublist (List.filter_sublist.map _)
  have hne : rows.filter (·.isKept) ≠ [] := by
    obtain ⟨r, hr, hkept⟩ := List.any_eq_true.1 hkept
    exact List.ne_nil_of_mem (List.mem_filter.2 ⟨hr, hkept⟩)
  -- the first row that is kept makes the package, and the others are added to it
  obtain ⟨r, rest, hrows⟩ := List.exists_cons_of_ne_nil hne
  rw [package?_foldl_addRow h, hrows]
  rw [hrows] at hnodup
  show rest.foldl addTranslation (some [r.translation]) = _
  exact foldl_addTranslation hnodup

/-! ### The table of one package -/

theorem add_ofPackage (module package key text : Text) (translations : KeyedList Text Text) :
    Table.add module package key text [(module, [(package, translations)])] =
      [(module, [(package, translations.set key text)])] := by
  simp [add, KeyedList.alter, KeyedList.set, KeyedList.get?]

theorem foldl_addRow_ofPackage {module package : Text} {translations : KeyedList Text Text}
    {rows : List TableRow} (h : ∀ r ∈ rows, r.module = module ∧ r.package = package)
    (hkept : ∀ r ∈ rows, r.isKept = true)
    (hkeys : (translations.keys ++ rows.map (·.key)).Nodup) :
    rows.foldl addRow [(module, [(package, translations)])] =
      [(module, [(package, translations ++ rows.map (·.translation))])] := by
  induction rows generalizing translations with
  | nil => rw [List.map_nil, List.append_nil]; rfl
  | cons r rest ih =>
      obtain ⟨⟨rfl, rfl⟩, hrest⟩ := List.forall_mem_cons.1 h
      obtain ⟨hr, hkept⟩ := List.forall_mem_cons.1 hkept
      have hnew : r.key ∉ translations.keys := fun hkey =>
        (List.nodup_append.1 hkeys).2.2 _ hkey _ List.mem_cons_self rfl
      have hstep : addRow [(r.module, [(r.package, translations)])] r =
          [(r.module, [(r.package, translations ++ [r.translation])])] := by
        rw [addRow, if_pos hr, add_ofPackage, KeyedList.set_of_not_mem hnew]
        rfl
      rw [List.foldl_cons, hstep, ih hrest hkept ?_, List.map_cons, List.append_assoc]
      · rfl
      · rw [KeyedList.keys, List.map_append, List.append_assoc]
        exact hkeys

/-- Rows of one package with distinct keys, each of which holds a translation, make up a table of
just these translations. -/
theorem ofRows_ofPackage {source module package : Text} {rows : List TableRow} (hne : rows ≠ [])
    (h : ∀ r ∈ rows, r.module = module ∧ r.package = package)
    (hkept : ∀ r ∈ rows, r.isKept = true) (hkeys : (rows.map (·.key)).Nodup) :
    ofRows source (rows.map (·.cells)) =
      .ok [(module, [(package, rows.map (·.translation))])] := by
  obtain ⟨r, rest, rfl⟩ := List.exists_cons_of_ne_nil hne
  obtain ⟨⟨rfl, rfl⟩, hrest⟩ := List.forall_mem_cons.1 h
  obtain ⟨hr, hkept⟩ := List.forall_mem_cons.1 hkept
  have hstep : addRow [] r = [(r.module, [(r.package, [r.translation])])] := by
    rw [addRow, if_pos hr]
    rfl
  have hrun : rest.foldl addRow [(r.module, [(r.package, [r.translation])])] = _ :=
    foldl_addRow_ofPackage hrest hkept hkeys
  rw [ofRows, readRows_cells, List.foldl_cons, hstep, hrun]
  rfl

end Table

end BundleAudit
