import BundleAudit.Catalog.File

/-!
# BundleAudit.Proofs.Catalog.Usage

**What happens to a catalog between its file and the report.** Reading gives it
entries without uses. Counting adds to each entry a number that depends on its key
alone (`addUses`), so counts of several sorts are a sum, in whatever order they come.
-/

namespace BundleAudit

/-! ### Entries as they are read -/

namespace CatalogEntry

theorem uses_extendLast {text : Text} {es : List CatalogEntry} (h : ∀ e ∈ es, e.uses = 0) :
    ∀ e ∈ extendLast text es, e.uses = 0 := by
  cases es with
  | nil => exact h
  | cons e rest => simpa [extendLast] using h

theorem uses_readFresh {marker : Text} {r : Reading} {number : Nat} {raw : Text}
    (h : ∀ e ∈ r.entries, e.uses = 0) :
    ∀ e ∈ (readFresh marker r number raw).entries, e.uses = 0 := by
  simp only [readFresh]
  split
  · exact h
  · split <;> exact h
  · split
    · exact h
    · intro e he
      rcases List.mem_cons.1 he with rfl | he
      · rfl
      · exact h e (List.mem_filter.1 he).1

theorem uses_readLine {marker : Text} {r : Reading} {number : Nat} {line : Text}
    (h : ∀ e ∈ r.entries, e.uses = 0) :
    ∀ e ∈ (readLine marker r number line).entries, e.uses = 0 := by
  unfold readLine
  cases r.position with
  | fresh => exact uses_readFresh h
  | inEntry => exact uses_extendLast h
  | inMalformed => exact h

theorem uses_readLines {marker : Text} {r : Reading} {number : Nat} {lines : List Text}
    (h : ∀ e ∈ r.entries, e.uses = 0) :
    ∀ e ∈ (readLines marker r number lines).entries, e.uses = 0 := by
  induction lines generalizing r number with
  | nil => exact h
  | cons line rest ih => exact ih (uses_readLine h)

/-- An entry that was only read has no uses. -/
theorem uses_ofLines {marker : Text} {lines : List Text} {e : CatalogEntry}
    (h : e ∈ (ofLines marker lines).1) : e.uses = 0 :=
  uses_readLines (by simp) e (List.mem_reverse.1 h)

end CatalogEntry

namespace Catalog

/-- The catalog with the entries of its file, if the file can be read. -/
def read? (s : Settings) (t : Tree) (c : Catalog) : Option Catalog :=
  (c.read s t).toOption.map Prod.fst

theorem read?_eq_some_iff {s : Settings} {t : Tree} {c d : Catalog} :
    c.read? s t = some d ↔ ∃ malformed, c.read s t = .ok (d, malformed) := by
  unfold read?
  cases c.read s t with
  | error failure => simp [Except.toOption]
  | ok r =>
      obtain ⟨c, malformed⟩ := r
      simp [Except.toOption]

/-- Reading changes the entries of a catalog only. -/
theorem of_read?_eq_some {s : Settings} {t : Tree} {c d : Catalog} (h : c.read? s t = some d) :
    d.path = c.path ∧ d.kind = c.kind ∧ ∀ e ∈ d.entries, e.uses = 0 := by
  obtain ⟨malformed, hread⟩ := read?_eq_some_iff.1 h
  rw [read] at hread
  cases hlines : t.readLines c.path with
  | error failure => simp [hlines, Except.map] at hread
  | ok lines =>
      simp only [hlines, Except.map, Except.ok.injEq, Prod.mk.injEq] at hread
      obtain ⟨rfl, -⟩ := hread
      exact ⟨rfl, rfl, fun e he => CatalogEntry.uses_ofLines he⟩

/-! ### Counting uses -/

/-- Adds to the uses of each entry a number for its key. -/
def addUses (n : Text → Nat) (c : Catalog) : Catalog :=
  { c with entries := c.entries.map fun e => { e with uses := e.uses + n e.key } }

@[simp] theorem path_addUses (n : Text → Nat) (c : Catalog) : (c.addUses n).path = c.path := rfl

@[simp] theorem kind_addUses (n : Text → Nat) (c : Catalog) : (c.addUses n).kind = c.kind := rfl

theorem hasKey_iff {c : Catalog} {key : Text} :
    c.hasKey key = true ↔ ∃ e ∈ c.entries, e.key = key := by
  simp [hasKey, get?]

@[simp] theorem hasKey_addUses (n : Text → Nat) (c : Catalog) (key : Text) :
    (c.addUses n).hasKey key = c.hasKey key := by
  rw [hasKey, get?, addUses, List.find?_map, Option.isSome_map]
  rfl

theorem addUses_addUses (n m : Text → Nat) (c : Catalog) :
    (c.addUses n).addUses m = c.addUses fun key => n key + m key := by
  unfold addUses
  rw [List.map_map]
  congr 1
  refine List.map_congr_left fun e _ => ?_
  rw [Function.comp_apply, Nat.add_assoc]

/-- Only the numbers for the keys of a catalog matter. -/
theorem addUses_congr {n m : Text → Nat} {c : Catalog}
    (h : ∀ key, c.hasKey key = true → n key = m key) : c.addUses n = c.addUses m := by
  unfold addUses
  congr 1
  refine List.map_congr_left fun e he => ?_
  rw [h e.key (hasKey_iff.2 ⟨e, he, rfl⟩)]

@[simp] theorem addUses_zero (c : Catalog) : c.addUses (fun _ => 0) = c := by
  simp [addUses]

theorem countUse_eq (key : Text) (c : Catalog) :
    c.countUse key = c.addUses fun k => if k = key then 1 else 0 := by
  unfold countUse addUses
  congr 1
  refine List.map_congr_left fun e _ => ?_
  by_cases h : e.key = key
  · simp only [if_pos h]
  · simp only [if_neg h, Nat.add_zero]

/-- After uses of keys are counted, each entry has as many more uses as its key occurs among them.
-/
theorem countUses_eq (keys : List Text) (c : Catalog) :
    c.countUses keys = c.addUses keys.count := by
  unfold countUses
  induction keys generalizing c with
  | nil => exact (addUses_zero c).symm
  | cons key rest ih =>
      -- each use adds one for its key, and what is added in steps is added at once
      rw [List.foldl_cons, ih, countUse_eq, addUses_addUses]
      congr 1
      funext k
      rw [List.count_cons, Nat.add_comm]
      by_cases h : k = key
      · simp [h]
      · simp [h, Ne.symm h]

theorem uses_addUses {n m : Text → Nat} {c : Catalog} (h : ∀ e ∈ c.entries, e.uses = n e.key) :
    ∀ e ∈ (c.addUses m).entries, e.uses = n e.key + m e.key := by
  intro e he
  obtain ⟨x, hx, rfl⟩ := List.mem_map.1 he
  show x.uses + m x.key = n x.key + m x.key
  rw [h x hx]

theorem uses_countUses {keys : List Text} {c : Catalog} (h : ∀ e ∈ c.entries, e.uses = 0) :
    ∀ e ∈ (c.countUses keys).entries, e.uses = keys.count e.key := by
  intro e he
  rw [countUses_eq] at he
  rw [uses_addUses (n := fun _ => 0) h e he, Nat.zero_add]

/-! ### The report on a catalog -/

/-- The findings about entries for whose keys `n` is zero and that are not declared to be in use. -/
def unused (n : Text → Nat) (c : Catalog) : List Finding :=
  (c.entries.filter fun e => n e.key == 0 && !e.intentional).map fun e =>
    ⟨.possiblyUnusedEntry, c.path, e.line, e.key⟩

/-- A catalog that is no translation is reported by the uses of its entries. -/
theorem findings_eq_unused {n : Text → Nat} {c : Catalog} (hkind : c.kind ≠ .translatedCatalog)
    (huses : ∀ e ∈ c.entries, e.uses = n e.key) : c.findings = c.unused n := by
  rw [findings, if_neg hkind, unused]
  refine congrArg (List.map _) (List.filter_congr fun e he => ?_)
  rw [CatalogEntry.possiblyUnused, huses e he]

theorem findings_eq_nil {c : Catalog} (hkind : c.kind = .translatedCatalog) : c.findings = [] := by
  rw [findings, if_pos hkind]

end Catalog

end BundleAudit
