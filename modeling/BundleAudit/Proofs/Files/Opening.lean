import BundleAudit.Files.Write

/-!
# BundleAudit.Proofs.Files.Opening

**Which files can be opened does not depend on what is in files.** Two trees that differ
only in the contents of their files have the same directories and links, so a path
leads to the same place in both (`place_eq`). So files that can be opened one after the
other can be opened whatever is written to those before (`exists_openEmpty`).
-/

namespace BundleAudit

/-- An entry without its content, if it is a file. -/
def Entry.emptied : Entry → Entry
  | .file _ => .file []
  | e => e

namespace Tree

variable {t t' u : Tree} {l : Location} {path : Text} {paths : List Text} {purpose : Purpose}

/-- Two trees differ at most in the contents of their files. -/
structure AlikeButContents (t u : Tree) : Prop where
  here : u.here = t.here
  entry : ∀ l, (u.entry? l).map Entry.emptied = (t.entry? l).map Entry.emptied

/-- A file at the same location in both makes no other difference. -/
theorem AlikeButContents.put_file (h : t.AlikeButContents u) (hl : l ≠ []) (bytes bytes' : Bytes) :
    (t.put l (.file bytes)).AlikeButContents (u.put l (.file bytes')) where
  here := h.here
  entry other := by
    rw [entry?_put hl, entry?_put hl]
    split
    · rfl
    · exact h.entry other

theorem AlikeButContents.file (h : t.AlikeButContents u) {bytes : Bytes}
    (hfile : t.entry? l = some (.file bytes)) : ∃ bytes', u.entry? l = some (.file bytes') := by
  have hentry := h.entry l
  rw [hfile] at hentry
  obtain ⟨e, he, hemptied⟩ := Option.map_eq_some_iff.1 hentry
  cases e with
  | file bytes' => exact ⟨bytes', he⟩
  | directory => cases hemptied
  | link target => cases hemptied

theorem AlikeButContents.walkNames_eq (h : t.AlikeButContents u)
    (onward : Location → List Text → Except SystemCause Place) (l : Location) (names : List Text) :
    walkNames u purpose onward l names = walkNames t purpose onward l names := by
  induction names generalizing l with
  | nil => rfl
  | cons name rest ih =>
      have hentry := h.entry (l ++ [name])
      rw [walkNames, walkNames, ih, ih, ih]
      cases ht : t.entry? (l ++ [name]) with
      | none =>
          rw [ht] at hentry
          rw [Option.map_eq_none_iff.1 hentry]
      | some e =>
          rw [ht] at hentry
          obtain ⟨e', he', hemptied⟩ := Option.map_eq_some_iff.1 hentry
          rw [he']
          -- what the walk does at a file is the same for every content
          cases e <;> cases e' <;> cases hemptied <;> rfl

/-- A path leads to the same place in both. -/
theorem AlikeButContents.place_eq (h : t.AlikeButContents u) (purpose : Purpose) (path : Text) :
    u.place purpose path = t.place purpose path := by
  have hwalk : ∀ links, walk u purpose links = walk t purpose links := by
    intro links
    induction links with
    | zero => rfl
    | succ links ih =>
        funext l names
        rw [walk, walk, ih]
        exact h.walkNames_eq _ l names
  rw [place, place, hwalk, h.here]

/-! ### Opening -/

/-- What opening a file leads to: an empty file at the end of the path. -/
theorem openEmpty_cases (h : t.openEmpty path = .ok (t', l)) :
    l ≠ [] ∧ t' = t.put l (.file []) ∧ notAPath? path = none ∧
      ((∃ d name, t.place .writing path = .ok (.missing d name) ∧ l = d ++ [name]) ∨
        t.place .writing path = .ok (.found l) ∧ ∃ bytes, t.entry? l = some (.file bytes)) := by
  unfold openEmpty at h
  split at h
  · cases h
  · next hpath =>
      split at h
      · cases h
      · next d name hplace =>
          obtain ⟨rfl, rfl⟩ := Prod.mk.inj (Except.ok.inj h)
          exact ⟨List.concat_ne_nil _ _, rfl, hpath, .inl ⟨d, name, hplace, rfl⟩⟩
      · next k hplace =>
          split at h
          · next bytes hentry =>
              obtain ⟨rfl, rfl⟩ := Prod.mk.inj (Except.ok.inj h)
              refine ⟨?_, rfl, hpath, .inr ⟨hplace, bytes, hentry⟩⟩
              rintro rfl
              cases hentry
          · cases h

/-- A file that can be opened in one tree can be opened in the other. -/
theorem AlikeButContents.openEmpty_eq (h : t.AlikeButContents u)
    (hopen : t.openEmpty path = .ok (t', l)) :
    u.openEmpty path = .ok (u.put l (.file []), l) := by
  obtain ⟨-, -, hpath, ⟨d, name, hplace, rfl⟩ | ⟨hplace, bytes, hentry⟩⟩ := openEmpty_cases hopen
  · rw [openEmpty, hpath, h.place_eq, hplace]
  · obtain ⟨bytes', hentry'⟩ := h.file hentry
    rw [openEmpty, hpath, h.place_eq, hplace]
    simp only [hentry']

/-- Files can be opened at paths, one after the other. -/
def takesFiles (t : Tree) : List Text → Bool
  | [] => true
  | path :: rest =>
    match t.openEmpty path with
    | .ok (t', _) => t'.takesFiles rest
    | .error _ => false

theorem AlikeButContents.takesFiles (h : t.AlikeButContents u) (ht : t.takesFiles paths = true) :
    u.takesFiles paths = true := by
  induction paths generalizing t u with
  | nil => rfl
  | cons path rest ih =>
      rw [Tree.takesFiles] at ht
      split at ht
      · next t' l hopen =>
          rw [Tree.takesFiles, h.openEmpty_eq hopen]
          obtain ⟨hl, rfl, -⟩ := openEmpty_cases hopen
          exact ih (h.put_file hl [] []) ht
      · cases ht

/-- **The first file can be opened, and the others can be opened after it,** whatever is written to
it. -/
theorem exists_openEmpty (h : t.takesFiles (path :: paths) = true) :
    ∃ t' l, t.openEmpty path = .ok (t', l) ∧
      ∀ bytes, (t'.put l (.file bytes)).takesFiles paths = true := by
  rw [takesFiles] at h
  split at h
  · next t' l hopen =>
      obtain ⟨hl, rfl, -⟩ := openEmpty_cases hopen
      refine ⟨_, l, hopen, fun bytes => ?_⟩
      have halike : (t.put l (.file [])).AlikeButContents
          ((t.put l (.file [])).put l (.file bytes)) := by
        refine ⟨rfl, fun other => ?_⟩
        rw [entry?_put hl, entry?_put hl]
        split <;> rfl
      exact halike.takesFiles h
  · cases h

end Tree

end BundleAudit
