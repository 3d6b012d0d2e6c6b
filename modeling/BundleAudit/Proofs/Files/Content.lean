import BundleAudit.Proofs.Files.Difference

/-!
# BundleAudit.Proofs.Files.Content

**What a file holds decides only what is read of it.** A walk does not ask what is in the
files on its way, so after the content of one file was replaced every path leads to
where it led before (`place_replaced`); only paths that lead to this file give something
else when they are read (`read_replaced`).
-/

namespace BundleAudit.Tree

variable {t : Tree} {l : Location} {path : Text}

/-- A path leads to what stands at a location. -/
def LeadsAt (t : Tree) (l : Location) (path : Text) : Prop := t.place .target path = .ok (.found l)

instance (t : Tree) (l : Location) (path : Text) : Decidable (t.LeadsAt l path) :=
  inferInstanceAs (Decidable (_ = _))

/-- What can be read is a file. -/
theorem isFile_of_read {bytes : Bytes} (h : t.read path = .ok bytes) :
    t.isFile path = .ok true := by
  obtain ⟨hpath, k, hplace, hentry⟩ := read_eq_ok_iff.1 h
  rw [isFile, lookAt, if_neg (by simp [hpath]), hplace]
  exact congrArg (Except.map _) (congrArg Except.ok hentry)

/-- The tree in which the file at a location holds something else. -/
def replaced (t : Tree) (l : Location) (bytes : Bytes) : Tree := t.put l (.file bytes)

theorem HasFileAt.ne_nil (h : t.HasFileAt l) : l ≠ [] := by
  rintro rfl
  obtain ⟨bytes, h⟩ := h
  cases h

theorem HasFileAt.entry?_replaced (h : t.HasFileAt l) (bytes : Bytes) (other : Location) :
    entry? (t.replaced l bytes) other =
      if other = l then some (.file bytes) else t.entry? other :=
  entry?_put h.ne_nil (.file bytes) t other

/-! ### Walks -/

theorem HasFileAt.walkNames_replaced (h : t.HasFileAt l) (bytes : Bytes) (purpose : Purpose)
    (onward : Location → List Text → Except SystemCause Place) (d : Location)
    (names : List Text) :
    walkNames (t.replaced l bytes) purpose onward d names = walkNames t purpose onward d names := by
  obtain ⟨old, hold⟩ := h
  induction names generalizing d with
  | nil => rfl
  | cons name rest ih =>
      have hentry := HasFileAt.entry?_replaced ⟨old, hold⟩ bytes (d ++ [name])
      rw [walkNames, walkNames, ih, ih, ih]
      split
      · rfl
      split
      · rfl
      split
      · rfl
      split
      · rfl
      by_cases heq : d ++ [name] = l
      · rw [hentry, if_pos heq, heq, hold]
      · rw [hentry, if_neg heq]

/-- Every path leads to where it led before. -/
theorem HasFileAt.place_replaced (h : t.HasFileAt l) (bytes : Bytes) (purpose : Purpose)
    (path : Text) : (t.replaced l bytes).place purpose path = t.place purpose path := by
  have hwalk : ∀ links, walk (t.replaced l bytes) purpose links = walk t purpose links := by
    intro links
    induction links with
    | zero => rfl
    | succ links ih =>
        funext d names
        rw [walk, walk, ih]
        exact h.walkNames_replaced bytes purpose _ d names
  rw [place, place, hwalk]
  rfl

/-! ### What stands there -/

theorem HasFileAt.lookAt_replaced (h : t.HasFileAt l) (bytes : Bytes) (path : Text) :
    (t.replaced l bytes).lookAt path = t.lookAt path ∨
      (t.replaced l bytes).lookAt path = .ok (some (.file bytes)) ∧
        ∃ old, t.lookAt path = .ok (some (.file old)) := by
  unfold lookAt
  rw [h.place_replaced]
  split
  · exact .inl rfl
  · split
    · next k hplace =>
        rw [h.entry?_replaced]
        split
        · next heq =>
            obtain ⟨old, hold⟩ := h
            exact .inr ⟨rfl, old, by rw [heq, hold]⟩
        · exact .inl rfl
    · exact .inl rfl
    · exact .inl rfl

theorem HasFileAt.isFile_replaced (h : t.HasFileAt l) (bytes : Bytes) (path : Text) :
    (t.replaced l bytes).isFile path = t.isFile path := by
  unfold isFile
  rcases h.lookAt_replaced bytes path with heq | ⟨heq, old, hold⟩
  · rw [heq]
  · rw [heq, hold]
    rfl

theorem HasFileAt.isDirectory_replaced (h : t.HasFileAt l) (bytes : Bytes) (path : Text) :
    (t.replaced l bytes).isDirectory path = t.isDirectory path := by
  unfold isDirectory
  rcases h.lookAt_replaced bytes path with heq | ⟨heq, old, hold⟩
  · rw [heq]
  · rw [heq, hold]
    rfl

theorem HasFileAt.hasEntry_replaced (h : t.HasFileAt l) (bytes : Bytes) (path : Text) :
    (t.replaced l bytes).hasEntry path = t.hasEntry path := by
  unfold hasEntry
  rcases h.lookAt_replaced bytes path with heq | ⟨heq, old, hold⟩
  · rw [heq]
  · rw [heq, hold]
    rfl

/-- **What is read at a path that does not lead to the file is what was read there before,** be it a
content or a failure. -/
theorem HasFileAt.read_replaced (h : t.HasFileAt l) (bytes : Bytes) (hpath : ¬t.LeadsAt l path) :
    (t.replaced l bytes).read path = t.read path := by
  unfold read
  rw [h.place_replaced]
  split
  · rfl
  · split
    · rfl
    · rfl
    · next k hplace =>
        have hne : k ≠ l := by
          rintro rfl
          exact hpath hplace
        rw [h.entry?_replaced, if_neg hne]

/-- Whether a path can be read does not depend on the content. -/
theorem HasFileAt.read_replaced_cases (h : t.HasFileAt l) (bytes : Bytes) (path : Text) :
    (t.replaced l bytes).read path = t.read path ∨
      (t.replaced l bytes).read path = .ok bytes ∧ ∃ old, t.read path = .ok old := by
  unfold read
  rw [h.place_replaced]
  split
  · exact .inl rfl
  · split
    · exact .inl rfl
    · exact .inl rfl
    · next k hplace =>
        rw [h.entry?_replaced]
        by_cases heq : k = l
        · obtain ⟨old, hold⟩ := h
          rw [if_pos heq, heq, hold]
          exact .inr ⟨rfl, old, rfl⟩
        · rw [if_neg heq]
          exact .inl rfl

/-- Where the file can be read, its new content is read. -/
theorem HasFileAt.read_replaced_of_leadsAt (h : t.HasFileAt l) (bytes : Bytes)
    (hpath : t.LeadsAt l path) {old : Bytes} (hread : t.read path = .ok old) :
    (t.replaced l bytes).read path = .ok bytes := by
  obtain ⟨hnone, -⟩ := read_eq_ok_iff.1 hread
  refine read_eq_ok_iff.2 ⟨hnone, l, (h.place_replaced bytes .target path).trans hpath, ?_⟩
  rw [h.entry?_replaced, if_pos rfl]

/-! ### The files in a directory -/

/-- What is collected from all entries stays the same if it does not depend on what files hold. -/
theorem HasFileAt.filterMap_entries_replaced {α : Type} (h : t.HasFileAt l) (bytes : Bytes)
    (g : Location × Entry → Option α)
    (hg : ∀ k new old, g (k, .file new) = g (k, .file old)) :
    (t.replaced l bytes).entries.filterMap g = t.entries.filterMap g := by
  have hne := h.ne_nil
  obtain ⟨old, hold⟩ := h
  unfold entry? at hold
  rw [List.isEmpty_eq_false_iff.2 hne] at hold
  replace hold : t.entries.get? l = some (.file old) := hold
  show List.filterMap g (KeyedList.set l _ t.entries) = _
  generalize t.entries = entries at hold
  induction entries with
  | nil => cases hold
  | cons p rest ih =>
      obtain ⟨k, e⟩ := p
      rw [KeyedList.get?] at hold
      split at hold
      · next heq =>
          obtain rfl := Option.some.inj hold
          rw [KeyedList.set, if_pos heq, List.filterMap_cons, List.filterMap_cons,
            hg l bytes old, heq]
      · next hne =>
          rw [KeyedList.set, if_neg hne, List.filterMap_cons, List.filterMap_cons, ih hold]

/-- The same files stand in the same directories. -/
theorem HasFileAt.filesWithin_replaced (h : t.HasFileAt l) (bytes : Bytes) (d : Location) :
    (t.replaced l bytes).filesWithin d = t.filesWithin d := by
  unfold filesWithin
  rw [h.filterMap_entries_replaced bytes]
  exact fun _ _ _ => rfl

/-- The same directories stand in the same directories. -/
theorem HasFileAt.entriesWithin_replaced (h : t.HasFileAt l) (bytes : Bytes) (d : Location) :
    ((t.replaced l bytes).entriesWithin d).map (fun x => (x.1, decide (x.2 = .directory))) =
      (t.entriesWithin d).map fun x => (x.1, decide (x.2 = .directory)) := by
  have hsorted : ∀ u : Tree, (u.entriesWithin d).map (fun x => (x.1, decide (x.2 = .directory))) =
      (u.entries.filterMap fun x => (within? d x.1).map fun names =>
        (names, decide (x.2 = Entry.directory))).mergeSort fun a b =>
          Text.lexLe Text.le a.1 b.1 := by
    intro u
    refine (List.map_mergeSort (s := fun a b : List Text × Bool => Text.lexLe Text.le a.1 b.1)
      fun _ _ _ _ => rfl).trans ?_
    rw [List.map_filterMap]
    simp only [Option.map_map, Function.comp_def]
  rw [hsorted, hsorted, h.filterMap_entries_replaced bytes]
  exact fun _ _ _ => rfl

end BundleAudit.Tree
