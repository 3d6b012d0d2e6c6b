import BundleAudit.Proofs.Catalog.Reading

/-!
# BundleAudit.Proofs.Catalog.Deletion

**A catalog without the lines of one entry.** An entry begins on a line and goes on to the
end of its record (`IsRecord`). Where these lines are deleted, the lines after them are
read as before, only under smaller numbers; so the catalog has the same entries but this
one (`ofLines_deleted`).
-/

namespace BundleAudit.CatalogEntry

variable {marker : Text} {r r' : Reading} {number line count : Nat} {e d : CatalogEntry}
  {lines xs record ys : List Text}

/-! ### Numbers of lines -/

/-- The entry with the number that it has after lines before it were deleted. -/
def moveUp (line count : Nat) (e : CatalogEntry) : CatalogEntry :=
  if line < e.line then { e with line := e.line - count } else e

/-- The entries that stay when the lines of the one on a line are deleted. -/
def deleteAt (line count : Nat) (es : List CatalogEntry) : List CatalogEntry :=
  (es.filter (·.line ≠ line)).map (moveUp line count)

theorem key_moveUp (line count : Nat) (e : CatalogEntry) : (moveUp line count e).key = e.key := by
  unfold moveUp
  split <;> rfl

theorem moveUp_of_le (h : e.line ≤ line) : moveUp line count e = e := if_neg (Nat.not_lt.2 h)

theorem deleteAt_cons (h : e.line ≠ line) (es : List CatalogEntry) :
    deleteAt line count (e :: es) = moveUp line count e :: deleteAt line count es := by
  rw [deleteAt, List.filter_cons_of_pos (by simpa using h)]
  rfl

/-- Entries of lines before stay as they are. -/
theorem deleteAt_of_lt {es : List CatalogEntry} (h : ∀ e ∈ es, e.line < line) :
    deleteAt line count es = es := by
  have hkeep : es.filter (·.line ≠ line) = es :=
    List.filter_eq_self.2 fun e he => decide_eq_true (Nat.ne_of_lt (h e he))
  rw [deleteAt, hkeep]
  exact (List.map_congr_left fun e he => moveUp_of_le (Nat.le_of_lt (h e he))).trans
    (List.map_id es)

/-- The entry itself goes from the end of what was read. -/
theorem deleteAt_cons_of_eq {es : List CatalogEntry} (h : e.line = line)
    (hes : ∀ d ∈ es, d.line < line) : deleteAt line count (e :: es) = es := by
  rw [deleteAt, List.filter_cons_of_neg (by simp [h])]
  exact deleteAt_of_lt hes

theorem deleteAt_reverse (line count : Nat) (es : List CatalogEntry) :
    deleteAt line count es.reverse = (deleteAt line count es).reverse := by
  rw [deleteAt, List.filter_reverse, List.map_reverse, deleteAt]

/-- Whether an entry is dropped for its key does not depend on the numbers. -/
theorem deleteAt_filter_key (line count : Nat) (key : Text) (es : List CatalogEntry) :
    deleteAt line count (es.filter fun d => d.key ≠ key) =
      (deleteAt line count es).filter fun d => d.key ≠ key := by
  have hkey : ((fun d : CatalogEntry => decide (d.key ≠ key)) ∘ moveUp line count) =
      fun d => decide (d.key ≠ key) := funext fun d => by
    rw [Function.comp_apply, key_moveUp]
  rw [deleteAt, deleteAt, List.filter_map, hkey, List.filter_filter, List.filter_filter]
  simp only [Bool.and_comm]

/-- Neither does what is added to the value of an entry that stays. -/
theorem deleteAt_extendLast (count : Nat) (text : Text) (h : line < e.line)
    (es : List CatalogEntry) :
    deleteAt line count (extendLast text (e :: es)) =
      extendLast text (deleteAt line count (e :: es)) := by
  have hkeep : deleteAt line count ({ e with value := e.value ++ text } :: es) =
      moveUp line count { e with value := e.value ++ text } :: deleteAt line count es :=
    deleteAt_cons (e := { e with value := e.value ++ text }) (Nat.ne_of_gt h) es
  rw [extendLast, hkeep, deleteAt_cons (Nat.ne_of_gt h), extendLast, moveUp, moveUp, if_pos h,
    if_pos h]

/-! ### Lines after the entry -/

/-- `r'` is what was read without the lines of the entry on a line, and `r` with them; both are at
the same line after it. -/
structure IsDeleted (line count : Nat) (r r' : Reading) : Prop where
  entries : r'.entries = deleteAt line count r.entries
  intentional : r'.intentional = r.intentional
  position : r'.position = r.position
  /-- What goes on is not the entry itself. -/
  last : r.position = .inEntry → ∃ e rest, r.entries = e :: rest ∧ line < e.line

theorem IsDeleted.readFresh (h : IsDeleted line count r r') (hnumber : line ≤ number)
    (hcount : 0 < count) (raw : Text) :
    IsDeleted line count (readFresh marker r (number + count) raw)
      (readFresh marker r' number raw) := by
  obtain ⟨hentries, hintentional, hposition, hlast⟩ := h
  have hlater : line < number + count := by omega
  simp only [CatalogEntry.readFresh]
  split
  · exact ⟨hentries, hintentional, hposition, hlast⟩
  · split
    · exact ⟨hentries, rfl, hposition, hlast⟩
    · exact ⟨hentries, hintentional, hposition, hlast⟩
  · split
    · refine ⟨hentries, rfl, rfl, fun hgoes => ?_⟩
      dsimp only at hgoes
      split at hgoes <;> cases hgoes
    · next key value hsplit =>
        refine ⟨?_, rfl, rfl, fun _ => ⟨_, _, rfl, hlater⟩⟩
        rw [deleteAt_cons (Nat.ne_of_gt hlater), deleteAt_filter_key, hentries,
          moveUp, if_pos hlater,
          hintentional, Nat.add_sub_cancel]

theorem IsDeleted.readLine (h : IsDeleted line count r r') (hnumber : line ≤ number)
    (hcount : 0 < count) (text : Text) :
    IsDeleted line count (readLine marker r (number + count) text)
      (readLine marker r' number text) := by
  unfold CatalogEntry.readLine
  rw [h.position]
  cases hposition : r.position with
  | fresh => exact h.readFresh hnumber hcount _
  | inMalformed =>
      refine ⟨h.entries, h.intentional, rfl, fun hgoes => ?_⟩
      dsimp only at hgoes
      split at hgoes <;> cases hgoes
  | inEntry =>
      obtain ⟨e, rest, hr, hlater⟩ := h.last hposition
      refine ⟨?_, h.intentional, rfl, fun _ => ?_⟩
      · dsimp only
        rw [h.entries, hr, deleteAt_extendLast count _ hlater]
      · dsimp only
        rw [hr]
        exact ⟨_, _, rfl, hlater⟩

/-- **All lines after the entry are read as before,** only under smaller numbers. -/
theorem IsDeleted.readLines (h : IsDeleted line count r r') (hnumber : line ≤ number)
    (hcount : 0 < count) (lines : List Text) :
    IsDeleted line count (readLines marker r (number + count) lines)
      (readLines marker r' number lines) := by
  induction lines generalizing r r' number with
  | nil => exact h
  | cons text rest ih =>
      rw [CatalogEntry.readLines, CatalogEntry.readLines, Nat.add_right_comm]
      exact ih (h.readLine hnumber hcount text) (Nat.le_succ_of_le hnumber)

/-! ### The lines of the entry -/

/-- A line goes on in the next one. -/
def goesOn (line : Text) : Bool := (withoutEnd line).continues

/-- Lines that are all lines of one record in front of others: each goes on in the next one, and
the last one in none, unless there is none. -/
def IsRecord : (record after : List Text) → Prop
  | [], _ => False
  | [last], after => goesOn last = true → after = []
  | line :: next :: rest, after => goesOn line = true ∧ IsRecord (next :: rest) after

/-- An entry whose value may have been extended since. -/
structure IsExtended (d e : CatalogEntry) : Prop where
  key : e.key = d.key
  line : e.line = d.line
  intentional : e.intentional = d.intentional

theorem IsExtended.refl (e : CatalogEntry) : IsExtended e e := ⟨rfl, rfl, rfl⟩

theorem IsExtended.trans {c : CatalogEntry} (h : IsExtended c d) (h' : IsExtended d e) :
    IsExtended c e :=
  ⟨h'.key.trans h.key, h'.line.trans h.line, h'.intentional.trans h.intentional⟩

theorem exists_of_mem_extendLast {text : Text} {es : List CatalogEntry}
    (h : e ∈ extendLast text es) : ∃ d ∈ es, IsExtended d e := by
  cases es with
  | nil => cases h
  | cons d rest =>
      rcases List.mem_cons.1 h with rfl | h
      · exact ⟨d, List.mem_cons_self, rfl, rfl, rfl⟩
      · exact ⟨e, List.mem_cons_of_mem _ h, .refl e⟩

/-- What a line that begins a record leaves if it adds an entry. -/
structure Adds (r : Reading) (number : Nat) (goesOn : Bool) (e : CatalogEntry) (r' : Reading) :
    Prop where
  line : e.line = number
  intentional : e.intentional = r.intentional
  entries : r'.entries = e :: r.entries.filter fun d => d.key ≠ e.key
  cleared : r'.intentional = false
  position : r'.position = if goesOn then .inEntry else .fresh

theorem readFresh_cases (marker : Text) (r : Reading) (number : Nat) (raw : Text) :
    (readFresh marker r number raw).entries = r.entries ∨
      ∃ e, Adds r number raw.continues e (readFresh marker r number raw) := by
  simp only [readFresh]
  split
  · exact .inl rfl
  · split <;> exact .inl rfl
  · split
    · exact .inl rfl
    · exact .inr ⟨_, rfl, rfl, rfl, rfl, by rw [Text.continues_trim]⟩

theorem mem_of_readLine {text : Text} (h : e ∈ (readLine marker r number text).entries) :
    (∃ d ∈ r.entries, IsExtended d e) ∨
      r.position = .fresh ∧ Adds r number (goesOn text) e (readLine marker r number text) := by
  unfold readLine at h ⊢
  cases hposition : r.position with
  | inMalformed =>
      rw [hposition] at h
      exact .inl ⟨e, h, .refl e⟩
  | inEntry =>
      rw [hposition] at h
      exact .inl (exists_of_mem_extendLast h)
  | fresh =>
      rw [hposition] at h
      rcases readFresh_cases marker r number (withoutEnd text) with heq | ⟨d, hadds⟩
      · exact .inl ⟨e, heq ▸ h, .refl e⟩
      · replace h : e ∈ (readFresh marker r number (withoutEnd text)).entries := h
        rw [hadds.entries] at h
        rcases List.mem_cons.1 h with rfl | h
        · exact .inr ⟨rfl, hadds⟩
        · exact .inl ⟨e, (List.mem_filter.1 h).1, .refl e⟩

/-- Where an entry comes from: it was there, or it begins on one of the lines. -/
theorem mem_of_readLines (h : e ∈ (readLines marker r number lines).entries) :
    (∃ d ∈ r.entries, IsExtended d e) ∨ number ≤ e.line ∧ e.line < number + lines.length := by
  induction lines generalizing r number with
  | nil => exact .inl ⟨e, h, .refl e⟩
  | cons text rest ih =>
      rcases ih h with ⟨d, hd, hde⟩ | ⟨hle, hlt⟩
      · rcases mem_of_readLine hd with ⟨c, hc, hcd⟩ | ⟨-, hadds⟩
        · exact .inl ⟨c, hc, hcd.trans hde⟩
        · refine .inr ?_
          rw [hde.line, hadds.line, List.length_cons]
          omega
      · refine .inr ⟨Nat.le_of_succ_le hle, ?_⟩
        rw [List.length_cons]
        omega

/-- The lines on which entries begin are among those that were read. -/
theorem line_le_of_mem_readLines (h : e ∈ (readLines marker {} 1 lines).entries) :
    e.line ≤ lines.length := by
  rcases mem_of_readLines h with ⟨d, hd, -⟩ | ⟨-, hlt⟩
  · cases hd
  · omega

/-- In the lines of its record an entry just gets more value. -/
theorem readLines_record {es : List CatalogEntry} (hposition : r.position = .inEntry)
    (hentries : r.entries = e :: es) (hrecord : IsRecord record ys) :
    ∃ d, IsExtended e d ∧ (readLines marker r number record).entries = d :: es ∧
      (readLines marker r number record).intentional = r.intentional ∧
      (ys ≠ [] → (readLines marker r number record).position = .fresh) := by
  induction record generalizing r number e with
  | nil => exact hrecord.elim
  | cons text rest ih =>
      have hstep : ∃ c, IsExtended e c ∧ (readLine marker r number text).entries = c :: es ∧
          (readLine marker r number text).intentional = r.intentional ∧
          (readLine marker r number text).position =
            if goesOn text then .inEntry else .fresh := by
        unfold readLine
        rw [hposition]
        dsimp only
        rw [hentries]
        exact ⟨{ e with value := e.value ++ (withoutEnd text).trimLeft.dropContinuation },
          ⟨rfl, rfl, rfl⟩, rfl, rfl, rfl⟩
      obtain ⟨c, hc, hnext, hintentional, hgoes⟩ := hstep
      cases rest with
      | nil =>
          refine ⟨c, hc, hnext, hintentional, fun hne => ?_⟩
          exact hgoes.trans (if_neg fun h => hne (hrecord h))
      | cons next more =>
          rw [hrecord.1, if_pos rfl] at hgoes
          obtain ⟨d, hd, hread, hkeep, hend⟩ := ih hgoes hnext hrecord.2
          exact ⟨d, hc.trans hd, hread, hkeep.trans hintentional, hend⟩

/-! ### The catalog -/

/-- Reading the lines of a record, where the first one adds an entry whose key is new. -/
theorem readLines_entry {first : Text} {rest : List Text} (hrecord : IsRecord (first :: rest) ys)
    (hadds : Adds r number (goesOn first) e (readLine marker r number first))
    (hkey : ∀ d ∈ r.entries, d.key ≠ e.key) :
    ∃ d, IsExtended e d ∧ (readLines marker r number (first :: rest)).entries = d :: r.entries ∧
      (readLines marker r number (first :: rest)).intentional = false ∧
      (ys ≠ [] → (readLines marker r number (first :: rest)).position = .fresh) := by
  have hentries : (readLine marker r number first).entries = e :: r.entries := by
    rw [hadds.entries, List.filter_eq_self.2 fun d hd => decide_eq_true (hkey d hd)]
  cases rest with
  | nil =>
      refine ⟨e, .refl e, hentries, hadds.cleared, fun hne => ?_⟩
      exact hadds.position.trans (if_neg fun h => hne (hrecord h))
  | cons next more =>
      have hgoes : (readLine marker r number first).position = .inEntry :=
        hadds.position.trans (if_pos hrecord.1)
      obtain ⟨d, hd, hread, hkeep, hend⟩ := readLines_record hgoes hentries hrecord.2
      exact ⟨d, hd, hread, hkeep.trans hadds.cleared, hend⟩

/-- The entry that begins on a line was added when this line was read. -/
theorem adds_of_mem_readLines {first : Text} {rest : List Text}
    (he : e ∈ (readLines marker {} 1 (xs ++ first :: rest)).entries)
    (hline : e.line = xs.length + 1) :
    (readLines marker {} 1 xs).position = .fresh ∧ ∃ d, IsExtended d e ∧
      Adds (readLines marker {} 1 xs) (xs.length + 1) (goesOn first) d
        (readLine marker (readLines marker {} 1 xs) (xs.length + 1) first) := by
  rw [readLines_append, readLines, Nat.add_comm 1] at he
  rcases mem_of_readLines he with ⟨d, hd, hde⟩ | ⟨hle, -⟩
  · rcases mem_of_readLine hd with ⟨c, hc, hcd⟩ | ⟨hfresh, hadds⟩
    · have hle := line_le_of_mem_readLines hc
      rw [← hcd.line, ← hde.line, hline] at hle
      omega
    · exact ⟨hfresh, d, hde, hadds⟩
  · omega

/-- What the lines of an entry whose key is new do: they add it to what was read before them. -/
theorem readLines_of_mem (hrecord : IsRecord record ys)
    (he : e ∈ (ofLines marker (xs ++ (record ++ ys))).1) (hline : e.line = xs.length + 1)
    (hkey : ∀ d ∈ (ofLines marker xs).1, d.key ≠ e.key) :
    (readLines marker {} 1 xs).position = .fresh ∧
      (readLines marker {} 1 xs).intentional = e.intentional ∧
      ∃ d, d.line = xs.length + 1 ∧
        (readLines marker {} 1 (xs ++ record)).entries = d :: (readLines marker {} 1 xs).entries ∧
        (readLines marker {} 1 (xs ++ record)).intentional = false ∧
        (ys ≠ [] → (readLines marker {} 1 (xs ++ record)).position = .fresh) := by
  cases record with
  | nil => exact hrecord.elim
  | cons first rest =>
      obtain ⟨hfresh, c, hce, hadds⟩ := adds_of_mem_readLines (List.mem_reverse.1 he) hline
      have hnew : ∀ d ∈ (readLines marker {} 1 xs).entries, d.key ≠ c.key := fun d hd =>
        hce.key ▸ hkey d (List.mem_reverse.2 hd)
      obtain ⟨d, hd, hentries, hcleared, hend⟩ := readLines_entry hrecord hadds hnew
      rw [readLines_append, Nat.add_comm 1]
      exact ⟨hfresh, hadds.intentional.symm.trans hce.intentional.symm, d,
        hd.line.trans hadds.line, hentries, hcleared, hend⟩

/-- **A catalog without the lines of an entry has the other entries.** The lines before must not
define its key, and it must not be declared to be in use: then the declaration would be left for
the entry after it. -/
theorem ofLines_deleted (hrecord : IsRecord record ys)
    (he : e ∈ (ofLines marker (xs ++ (record ++ ys))).1) (hline : e.line = xs.length + 1)
    (hintentional : e.intentional = false) (hkey : ∀ d ∈ (ofLines marker xs).1, d.key ≠ e.key) :
    (ofLines marker (xs ++ ys)).1 =
      deleteAt (xs.length + 1) record.length (ofLines marker (xs ++ (record ++ ys))).1 := by
  obtain ⟨hfresh, hmark, d, hd, hentries, hcleared, hend⟩ := readLines_of_mem hrecord he hline hkey
  have hbefore : deleteAt (xs.length + 1) record.length
      (d :: (readLines marker {} 1 xs).entries) = (readLines marker {} 1 xs).entries :=
    deleteAt_cons_of_eq hd fun b hb => Nat.lt_succ_of_le (line_le_of_mem_readLines hb)
  rw [ofLines, ofLines, deleteAt_reverse, ← List.append_assoc]
  dsimp only
  rw [readLines_append, readLines_append _ _ _ (xs ++ record), List.length_append,
    Nat.add_comm 1, Nat.add_comm 1, Nat.add_right_comm]
  congr 1
  cases ys with
  | nil => rw [readLines, readLines, hentries, hbefore]
  | cons next more =>
      have hposition := hend (List.cons_ne_nil next more)
      have hdeleted : IsDeleted (xs.length + 1) record.length
          (readLines marker {} 1 (xs ++ record)) (readLines marker {} 1 xs) := by
        refine ⟨by rw [hentries, hbefore], hmark.trans (hintentional.trans hcleared.symm),
          hfresh.trans hposition.symm, fun hgoes => ?_⟩
        rw [hposition] at hgoes
        cases hgoes
      have hcount : 0 < record.length := by
        cases record with
        | nil => exact hrecord.elim
        | cons first rest => exact Nat.succ_pos _
      exact (hdeleted.readLines (Nat.le_refl _) hcount _).entries

/-- Later entries begin after all lines of the entry. -/
theorem le_line_of_lt (hrecord : IsRecord record ys)
    (he : e ∈ (ofLines marker (xs ++ (record ++ ys))).1) (hline : e.line = xs.length + 1)
    (hkey : ∀ d ∈ (ofLines marker xs).1, d.key ≠ e.key)
    (hd : d ∈ (ofLines marker (xs ++ (record ++ ys))).1) (hlater : xs.length + 1 < d.line) :
    xs.length + 1 + record.length ≤ d.line := by
  obtain ⟨-, -, c, hc, hentries, -, -⟩ := readLines_of_mem hrecord he hline hkey
  have hd := List.mem_reverse.1 hd
  rw [← List.append_assoc, readLines_append] at hd
  rcases mem_of_readLines hd with ⟨b, hb, hbd⟩ | ⟨hle, -⟩
  · -- what was read up to there begins no later than the entry
    rw [hentries] at hb
    rw [hbd.line] at hlater
    rcases List.mem_cons.1 hb with rfl | hb
    · omega
    · have hle := line_le_of_mem_readLines hb
      omega
  · rw [List.length_append] at hle
    omega

/-- Only one entry begins on a line. -/
theorem key_eq_of_line_eq (hd : d ∈ (ofLines marker lines).1) (he : e ∈ (ofLines marker lines).1)
    (h : d.line = e.line) : d.key = e.key := by
  have hd := List.mem_reverse.1 hd
  have he := List.mem_reverse.1 he
  rcases mem_of_readLines he with ⟨c, hc, -⟩ | ⟨hpos, hlt⟩
  · cases hc
  · -- both were added by the one line that has this number
    have hlt : e.line - 1 < lines.length := by omega
    have hsplit := List.take_append_drop (e.line - 1) lines
    rw [List.drop_eq_getElem_cons hlt] at hsplit
    have hline : e.line = (lines.take (e.line - 1)).length + 1 := by
      rw [List.length_take]
      omega
    rw [← hsplit] at hd he
    obtain ⟨-, b, hb, hadded⟩ := adds_of_mem_readLines hd (h.trans hline)
    obtain ⟨-, c, hc, hadds⟩ := adds_of_mem_readLines he hline
    have heq := List.head_eq_of_cons_eq (hadded.entries.symm.trans hadds.entries)
    rw [hb.key, hc.key, heq]

end BundleAudit.CatalogEntry
