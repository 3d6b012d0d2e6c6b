import BundleAudit.Catalog.Rendering
import BundleAudit.Proofs.Table.Contents
import BundleAudit.Proofs.Text.Order

/-!
# BundleAudit.Proofs.Table.Ordering

**What a table says, in order.** The packages of a module and the keys of a package are
sorted before they are written. So it makes no difference in which order they came
into the table: tables with the same texts for a module have the same packages and keys
for it (`packageNames_eq`, `keysOf_eq`), and a catalog is written from these
(`IsTidy.render_eq`).
-/

namespace BundleAudit

namespace Text

theorem pairwise_lt_sort {ts : List Text} (h : ts.Nodup) :
    (sort ts).Pairwise fun a b => a.lt b = true := by
  have hsorted : ((sortBy id ts).map id).Pairwise fun a b => a.lt b = true :=
    pairwise_lt_sortBy (by rwa [List.map_id])
  rwa [List.map_id] at hsorted

theorem mem_sort_iff {t : Text} {ts : List Text} : t ∈ sort ts ↔ t ∈ ts :=
  (List.mergeSort_perm ts _).mem_iff

end Text

/-- Sorting values by their keys sorts the keys. -/
theorem KeyedList.sortBy_fst {α : Type} {m : KeyedList Text α} (h : m.keys.Nodup) (default : α) :
    Text.sortBy Prod.fst m = (Text.sort m.keys).map fun key =>
      (key, (m.get? key).getD default) := by
  have hkeys : Text.sort m.keys = (Text.sortBy Prod.fst m).map Prod.fst :=
    Text.sortBy_map id Prod.fst m
  rw [hkeys, List.map_map]
  refine (List.map_id _).symm.trans (List.map_congr_left fun p hp => ?_)
  have hp : p ∈ m := (Text.perm_sortBy Prod.fst m).mem_iff.1 hp
  show p = (p.1, (m.get? p.1).getD default)
  rw [get?_eq_some h hp, Option.getD_some]

namespace Table

variable {t t' : Table} {module package key : Text}

/-- The packages of a module that have texts, in ascending order. -/
def packageNames (module : Text) (t : Table) : List Text :=
  Text.sort (t.forModule module).keys

/-- The keys of a package that have texts, in ascending order. -/
def keysOf (module package : Text) (t : Table) : List Text :=
  Text.sort (KeyedList.keys ((t.package? module package).getD []))

theorem mem_keysOf_iff : key ∈ t.keysOf module package ↔
    (t.find? module package key).isSome = true := by
  rw [keysOf, Text.mem_sort_iff, isSome_find?_iff]
  cases t.package? module package with
  | none => simp [KeyedList.keys]
  | some keys => simp

/-- A package of a module has texts. -/
def HasPackage (module package : Text) (t : Table) : Prop :=
  ∃ key, (t.find? module package key).isSome = true

theorem IsTidy.mem_packageNames_iff (h : t.IsTidy) :
    package ∈ t.packageNames module ↔ t.HasPackage module package := by
  rw [packageNames, Text.mem_sort_iff, ← KeyedList.isSome_get?_iff, HasPackage]
  simp only [isSome_find?_iff]
  constructor
  · intro hsome
    obtain ⟨keys, hkeys⟩ := Option.isSome_iff_exists.1 hsome
    obtain ⟨p, hp⟩ := List.exists_mem_of_ne_nil keys (h.of_package? hkeys).1
    exact ⟨p.1, keys, hkeys, List.mem_map_of_mem hp⟩
  · rintro ⟨key, keys, hkeys, -⟩
    exact Option.isSome_of_eq_some hkeys

theorem IsTidy.pairwise_packageNames (h : t.IsTidy) (module : Text) :
    (t.packageNames module).Pairwise fun a b => a.lt b = true :=
  Text.pairwise_lt_sort (h.forModule module).keys

theorem IsTidy.pairwise_keysOf (h : t.IsTidy) (module package : Text) :
    (t.keysOf module package).Pairwise fun a b => a.lt b = true := by
  refine Text.pairwise_lt_sort ?_
  cases hkeys : t.package? module package with
  | none => exact List.nodup_nil
  | some keys => exact (h.of_package? hkeys).2

/-- A catalog has a line for each key of its package. -/
theorem IsTidy.render_eq (h : t.IsTidy) {keys : KeyedList Text Text}
    (hkeys : t.package? module package = some keys) (header : List Text) (escape : Bool) :
    Catalog.render header escape keys = header ++ (t.keysOf module package).map fun key =>
      Catalog.entryLine escape key ((t.find? module package key).getD []) := by
  have hsorted := KeyedList.sortBy_fst (h.of_package? hkeys).2 []
  rw [Text.sortBy] at hsorted
  rw [Catalog.render, hsorted, List.map_map, keysOf, hkeys, Option.getD_some]
  refine congrArg (header ++ ·) (List.map_congr_left fun key _ => ?_)
  rw [find?, ← package?, hkeys]
  rfl

/-! ### Tables with the same texts for a module -/

theorem packageNames_eq (h : t.IsTidy) (h' : t'.IsTidy)
    (hsame : ∀ package key, t'.find? module package key = t.find? module package key) :
    t'.packageNames module = t.packageNames module := by
  refine Text.eq_of_pairwise_lt (h'.pairwise_packageNames module) (h.pairwise_packageNames module)
    fun name => ?_
  rw [h'.mem_packageNames_iff, h.mem_packageNames_iff]
  simp only [HasPackage, hsame]

theorem keysOf_eq (h : t.IsTidy) (h' : t'.IsTidy)
    (hsame : ∀ package key, t'.find? module package key = t.find? module package key)
    (package : Text) : t'.keysOf module package = t.keysOf module package := by
  refine Text.eq_of_pairwise_lt (h'.pairwise_keysOf module package)
    (h.pairwise_keysOf module package)
    fun key => ?_
  rw [mem_keysOf_iff, mem_keysOf_iff, hsame]

/-! ### Rows -/

/-- The table that comes from rows. -/
theorem eq_of_ofRows {source : Text} {rows : List TableRow}
    (h : ofRows source (rows.map (·.cells)) = .ok t) : t = rows.foldl addRow [] := by
  rw [ofRows, readRows_cells] at h
  exact (Except.ok.inj h).symm

/-- The rows of other modules do not count. -/
theorem lastText?_filter_module (rows : List TableRow) (module package key : Text) :
    lastText? (rows.filter fun r => r.module = module) (module, package, key) =
      lastText? rows (module, package, key) := by
  rw [lastText?, List.filter_filter, lastText?]
  congr 2
  refine List.filter_congr fun r _ => ?_
  rw [Bool.eq_iff_iff]
  simp only [Bool.and_eq_true, decide_eq_true_eq, TableRow.address, Prod.mk.injEq]
  tauto

/-- If no two rows hold texts for one address, each row that holds a text is the last one. -/
theorem lastText?_eq_some_iff_of_nodup {rows : List TableRow}
    (h : ((rows.filter (·.isKept)).map (·.address)).Nodup) {address : Text × Text × Text}
    {text : Text} : lastText? rows address = some text ↔
      ∃ r ∈ rows, r.isKept = true ∧ r.address = address ∧ r.translated.decodeEscapes = text := by
  constructor
  · intro hlast
    obtain ⟨before, r, after, rfl, hkept, haddress, -, htext⟩ := lastText?_eq_some_iff.1 hlast
    exact ⟨r, List.mem_append_right _ List.mem_cons_self, hkept, haddress, htext⟩
  · rintro ⟨r, hr, hkept, haddress, rfl⟩
    obtain ⟨text, hlast⟩ := Option.isSome_iff_exists.1
      (isSome_lastText?_iff.2 ⟨r, hr, hkept, haddress⟩)
    obtain ⟨before, r', after, hrows, hkept', haddress', -, rfl⟩ := lastText?_eq_some_iff.1 hlast
    have hr' : r' ∈ rows := hrows ▸ List.mem_append_right _ List.mem_cons_self
    rw [hlast, List.inj_on_of_nodup_map h (List.mem_filter.2 ⟨hr, hkept⟩)
      (List.mem_filter.2 ⟨hr', hkept'⟩) (haddress.trans haddress'.symm)]

/-- Then the order of the rows does not count. -/
theorem lastText?_eq_of_perm {rows rows' : List TableRow} (h : rows.Perm rows')
    (hnodup : ((rows.filter (·.isKept)).map (·.address)).Nodup) (address : Text × Text × Text) :
    lastText? rows' address = lastText? rows address := by
  have hnodup' : ((rows'.filter (·.isKept)).map (·.address)).Nodup :=
    ((h.filter _).map _).nodup_iff.1 hnodup
  ext text
  rw [lastText?_eq_some_iff_of_nodup hnodup, lastText?_eq_some_iff_of_nodup hnodup']
  simp only [h.mem_iff]

end Table

end BundleAudit
