import BundleAudit.Proofs.Table.Rows
import BundleAudit.Proofs.Text.Scalar

/-!
# BundleAudit.Proofs.Table.Reading

**What a table file can hold.** The cells of its records consist of characters of the
file, so they hold no surrogates, and neither do the keys of the table that the
records make up. Its translations may, since their escapes are decoded.
-/

namespace BundleAudit

/-! ### Cells -/

namespace Csv

variable {P : Code → Prop}

/-- All characters that were read of a record have a property. -/
def Reading.Holds (P : Code → Prop) (r : Reading) : Prop :=
  (∀ c ∈ r.cell, P c) ∧ ∀ cell ∈ r.cells, ∀ c ∈ cell, P c

theorem Reading.Holds.add {r : Reading} (h : r.Holds P) {c : Code} (hc : P c) (place : Place) :
    (r.add c place).Holds P :=
  ⟨List.forall_mem_cons.2 ⟨hc, h.1⟩, h.2⟩

theorem Reading.Holds.nextCell {r : Reading} (h : r.Holds P) : r.nextCell.Holds P :=
  ⟨nofun, List.forall_mem_cons.2 ⟨fun c hc => h.1 c (List.mem_reverse.1 hc), h.2⟩⟩

theorem Reading.Holds.record {r : Reading} (h : r.Holds P) :
    ∀ cell ∈ r.record, ∀ c ∈ cell, P c := by
  intro cell hcell
  rcases List.mem_cons.1 (List.mem_reverse.1 hcell) with rfl | hcell
  · exact fun c hc => h.1 c (List.mem_reverse.1 hc)
  · exact h.2 cell hcell

theorem Reading.Holds.stepPlain {r s : Reading} (h : r.Holds P) {c : Code} (hc : P c)
    (hstep : r.stepPlain c = some s) : s.Holds P := by
  unfold Reading.stepPlain at hstep
  split at hstep
  · cases hstep
  · split at hstep
    · exact Option.some.inj hstep ▸ h.nextCell
    · exact Option.some.inj hstep ▸ h.add hc .plain

theorem Reading.Holds.step {r s : Reading} (h : r.Holds P) {c : Code} (hc : P c)
    (hstep : r.step c = some s) : s.Holds P := by
  unfold Reading.step at hstep
  split at hstep
  · split at hstep
    · exact Option.some.inj hstep ▸ h
    · exact Option.some.inj hstep ▸ h.add hc .quoted
  · split at hstep
    · exact Option.some.inj hstep ▸ h.add hc .quoted
    · exact h.stepPlain hc hstep
  · exact h.stepPlain hc hstep
  all_goals
    split at hstep
    · exact Option.some.inj hstep ▸ h
    · exact h.stepPlain hc hstep

/-- The cells of records consist of the characters that are read. -/
theorem holds_recordsFrom {r : Reading} (h : r.Holds P) {t : Text} (ht : ∀ c ∈ t, P c) :
    ∀ record ∈ recordsFrom r t, ∀ cell ∈ record, ∀ c ∈ cell, P c := by
  have hnew : ({} : Reading).Holds P := ⟨by simp, by simp⟩
  induction t generalizing r with
  | nil =>
      rw [recordsFrom]
      split
      · simp
      · exact List.forall_mem_singleton.2 h.record
  | cons c rest ih =>
      obtain ⟨hc, hrest⟩ := List.forall_mem_cons.1 ht
      rw [recordsFrom]
      split
      · next hstep => exact ih (h.step hc hstep) hrest
      · split
        · exact ih hnew hrest
        · exact List.forall_mem_cons.2 ⟨h.record, ih hnew hrest⟩

theorem all_isScalar_of_text? {bytes : Bytes} {t : Text} (h : text? bytes = some t) :
    t.all Code.isScalar = true := by
  unfold text? at h
  split at h
  · rw [← Option.some.inj h]
    rfl
  · split at h <;> exact Text.all_isScalar_of_ofUtf8? h

/-- No cell of a table file holds a surrogate. -/
theorem all_isScalar_of_ofBytes {bytes : Bytes} {records : List (List Text)}
    (h : ofBytes bytes = .ok records) :
    ∀ record ∈ records, ∀ cell ∈ record, cell.all Code.isScalar = true := by
  unfold ofBytes at h
  split at h
  · cases h
  · next t htext =>
      dsimp only at h
      split at h
      · rw [← Except.ok.inj h]
        have ht := List.all_eq_true.1 (all_isScalar_of_text? htext)
        exact fun record hrecord cell hcell => List.all_eq_true.2
          (holds_recordsFrom ⟨nofun, nofun⟩ ht record hrecord cell hcell)
      · cases h

end Csv

/-! ### Translations -/

namespace Table

variable {Q : KeyedList Text Text → Prop} {P : Text → Prop} {t t' : Table}

/-- The translations of each package have a property. -/
def Holds (Q : KeyedList Text Text → Prop) (t : Table) : Prop := ∀ m ∈ t, ∀ p ∈ m.2, Q p.2

theorem Holds.add (h : t.Holds Q) (hnil : Q []) {key text : Text}
    (hset : ∀ translations, Q translations → Q (KeyedList.set key text translations))
    (module package : Text) : (t.add module package key text).Holds Q := by
  intro m hm p hp
  -- a translation is set three levels down, and each level keeps all but what is set
  have hpackages : ∀ q ∈ (KeyedList.get? module t).getD [], Q q.2 := by
    cases hget : KeyedList.get? module t with
    | none => exact nofun
    | some packages => exact h _ (KeyedList.mem_of_get?_eq_some hget)
  rcases KeyedList.mem_of_mem_set hm with rfl | hm
  · rcases KeyedList.mem_of_mem_set hp with rfl | hp
    · refine hset _ ?_
      cases hget : KeyedList.get? package ((KeyedList.get? module t).getD []) with
      | none => exact hnil
      | some translations => exact hpackages _ (KeyedList.mem_of_get?_eq_some hget)
    · exact hpackages p hp
  · exact h m hm p hp

theorem holds_of_readRows {source : Text} {number : Nat} {rows : List (List Text)}
    (h : readRows source number t rows = .ok t') (hnil : Q [])
    (hset : ∀ row ∈ rows, ∀ r, TableRow.ofCells? row = some r → ∀ text translations,
      Q translations → Q (KeyedList.set r.key text translations)) (ht : t.Holds Q) :
    t'.Holds Q := by
  induction rows generalizing number t with
  | nil => exact Except.ok.inj h ▸ ht
  | cons row rest ih =>
      obtain ⟨hrow, hrest⟩ := List.forall_mem_cons.1 hset
      rw [readRows] at h
      split at h
      · cases h
      · next r hcells =>
          refine ih h hrest ?_
          unfold addRow
          split
          · exact ht.add hnil (hrow r hcells _) _ _
          · exact ht

/-- Each key of a package has one translation. -/
theorem nodup_keys_of_ofRows {source : Text} {rows : List (List Text)}
    (h : ofRows source rows = .ok t) : t.Holds (·.keys.Nodup) :=
  holds_of_readRows h List.nodup_nil (fun _ _ _ _ _ _ => KeyedList.nodup_keys_set) nofun

theorem Holds.of_package? (h : t.Holds Q) {module package : Text}
    {translations : KeyedList Text Text}
    (htranslations : t.package? module package = some translations) : Q translations := by
  have hpackage := KeyedList.mem_of_get?_eq_some htranslations
  unfold forModule at hpackage
  cases hget : KeyedList.get? module t with
  | none =>
      rw [hget] at hpackage
      cases hpackage
  | some packages =>
      rw [hget] at hpackage
      exact h _ (KeyedList.mem_of_get?_eq_some hget) _ hpackage

/-! ### Keys -/

/-- All keys of a table have a property. -/
def KeysHold (P : Text → Prop) (t : Table) : Prop :=
  t.Holds fun translations => ∀ key ∈ translations.keys, P key

theorem key_mem_of_ofCells?_eq_some {cells : List Text} {r : TableRow}
    (h : TableRow.ofCells? cells = some r) : r.key ∈ cells := by
  unfold TableRow.ofCells? at h
  split at h
  · cases h
    exact List.mem_cons_self
  · cases h

/-- The keys of a table are cells of its rows. -/
theorem keysHold_of_readRows {source : Text} {number : Nat} {rows : List (List Text)}
    (h : readRows source number t rows = .ok t') (ht : t.KeysHold P)
    (hrows : ∀ row ∈ rows, ∀ cell ∈ row, P cell) : t'.KeysHold P := by
  refine holds_of_readRows h nofun (fun row hrow r hr text translations hold key hkey => ?_) ht
  obtain ⟨e, he, rfl⟩ := List.mem_map.1 hkey
  rcases KeyedList.mem_of_mem_set he with rfl | he
  · exact hrows row hrow _ (key_mem_of_ofCells?_eq_some hr)
  · exact hold e.1 (List.mem_map_of_mem he)

/-- No key of a table that was read from a file holds a surrogate. -/
theorem all_isScalar_keys {bytes : Bytes} {rows : List (List Text)} {source : Text}
    (hrows : Csv.ofBytes bytes = .ok rows) (h : ofRows source rows = .ok t) :
    t.KeysHold (·.all Code.isScalar = true) :=
  keysHold_of_readRows h nofun (Csv.all_isScalar_of_ofBytes hrows)

end Table

end BundleAudit
