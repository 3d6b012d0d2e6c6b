import BundleAudit.Baseline
import BundleAudit.Proofs.Catalog.Reading
import BundleAudit.Proofs.Report.Aggregation

/-!
# BundleAudit.Proofs.Baseline

**How many problems a baseline allows a module** is said by the one entry of its file
whose key is the name of the module (`allowed_ofLines`). Without such an entry, or where
its value is no number, none is allowed.
-/

namespace BundleAudit.Baseline

/-- The number of problems that the lines of a baseline allow a module. -/
def numberIn (lines : List Text) (name : Text) : Int :=
  (((CatalogEntry.ofLines Settings.standard.intentionalMarker lines).1.find? (·.key = name)).bind
    (·.value.trim.toInt?)).getD 0

theorem sublist_keys_ofEntries (file : Text) (es : List CatalogEntry) :
    ((ofEntries file es).1.keys).Sublist (es.map (·.key)) := by
  induction es with
  | nil => exact .slnil
  | cons e rest ih =>
      rw [ofEntries]
      cases e.value.trim.toInt? with
      | none => exact ih.cons e.key
      | some n => exact ih.cons_cons e.key

/-- Entries with distinct keys are looked up by their keys. -/
theorem get?_ofEntries (file name : Text) {es : List CatalogEntry} (h : (es.map (·.key)).Nodup) :
    KeyedList.get? name (ofEntries file es).1 =
      (es.find? (·.key = name)).bind (·.value.trim.toInt?) := by
  induction es with
  | nil => rfl
  | cons e rest ih =>
      obtain ⟨hnew, hrest⟩ := List.nodup_cons.1 h
      have ih := ih hrest
      rw [ofEntries]
      by_cases hkey : e.key = name
      · rw [List.find?_cons_of_pos (by simpa using hkey), Option.bind_some]
        cases e.value.trim.toInt? with
        | none =>
            -- no later entry takes the place of one that is no number
            refine KeyedList.get?_eq_none fun hmem => ?_
            subst hkey
            exact hnew ((sublist_keys_ofEntries file rest).subset hmem)
        | some n => exact if_pos hkey
      · rw [List.find?_cons_of_neg (by simpa using hkey), ← ih]
        cases e.value.trim.toInt? with
        | none => rfl
        | some n => exact if_neg hkey

/-- **What a baseline allows a module is said by the entry of its name.** -/
theorem allowed_ofLines (file : Text) (lines : List Text) (name : Text) :
    allowed (ofLines file lines).1 name = numberIn lines name :=
  congrArg (·.getD 0) (get?_ofEntries file name (CatalogEntry.nodup_keys_ofLines _ lines))

/-- Nothing is said just if no module has more problems than it is allowed. -/
theorem excesses_eq_nil_iff {b : Baseline} {rs : Reports} :
    b.excesses rs = [] ↔ ∀ r ∈ rs, (r.problems : Int) ≤ b.allowed r.name := by
  rw [excesses, List.map_eq_nil_iff, List.filter_eq_nil_iff]
  refine forall_congr' fun r => ?_
  rw [Reports.mem_ordered, decide_eq_true_iff, Int.not_lt]

/-- A module is known by its whole name, and a value in which no number stands allows none. -/
example : numberIn ["a=2", "ab = 3", "b=many"] "ab" = 3 ∧ numberIn ["a=2", "b=many"] "b" = 0 := by
  decide +kernel

end BundleAudit.Baseline
