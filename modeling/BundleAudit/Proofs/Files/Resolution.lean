import BundleAudit.Proofs.Failure
import BundleAudit.Proofs.Files.Difference
import Mathlib.Data.List.Perm.Subperm

/-!
# BundleAudit.Proofs.Files.Resolution

**Paths are resolved by links alone.** Trees that differ in files only have the same links
(`resolve_eq`). Each link on the way is another one, so no more depth is needed than there
are entries, whatever the depth at which names were resolved (`resolveNames_of_length`).
-/

namespace BundleAudit.Tree

variable {W : Location → Prop} {t t' : Tree}

theorem foldlM_congr {α β : Type} {m : Type → Type} [Monad m] {f g : β → α → m β}
    (h : ∀ b a, f b a = g b a) (b : β) (xs : List α) : xs.foldlM f b = xs.foldlM g b := by
  rw [funext fun b => funext (h b)]

/-- With the same links, names lead to the same location. -/
theorem resolveNames_congr (h : ∀ l target,
    t'.entry? l = some (.link target) ↔ t.entry? l = some (.link target)) (depth : Nat)
    (around : List Location) (l : Location) (names : List Text) :
    t'.resolveNames depth around l names = t.resolveNames depth around l names := by
  induction depth generalizing around l names with
  | zero => rfl
  | succ depth ih =>
      rw [resolveNames, resolveNames]
      refine foldlM_congr (fun r name => ?_) _ _
      split
      · rfl
      split
      · rfl
      dsimp only
      split
      · next target hlink =>
          rw [(h _ _).1 hlink]
          dsimp only
          rw [ih]
      · next hnone =>
          split
          · next target hlink => exact absurd ((h _ _).2 hlink) (hnone target)
          · rfl

/-- There are no more links around than there are entries. -/
theorem length_le_of_links {around : List Location} (hnodup : around.Nodup)
    (hlinks : ∀ l ∈ around, ∃ target, t.entry? l = some (.link target)) :
    around.length ≤ t.entries.length := by
  have hsubset : around ⊆ t.entries.keys := by
    intro l hl
    obtain ⟨target, hlink⟩ := hlinks l hl
    unfold entry? at hlink
    split at hlink
    · cases hlink
    · exact List.mem_map.2 ⟨_, KeyedList.mem_of_get?_eq_some hlink, rfl⟩
  have hlength := (List.subperm_of_subset hnodup hsubset).length_le
  rwa [KeyedList.keys, List.length_map] at hlength

/-- No depth runs out that allows for all entries that are not yet around. -/
theorem resolveNames_succ {depth : Nat} {around : List Location} (hnodup : around.Nodup)
    (hlinks : ∀ l ∈ around, ∃ target, t.entry? l = some (.link target))
    (hdepth : t.entries.length < depth + around.length) (l : Location) (names : List Text) :
    t.resolveNames (depth + 1) around l names = t.resolveNames depth around l names := by
  induction depth generalizing around l names with
  | zero =>
      have hlength := length_le_of_links hnodup hlinks
      omega
  | succ depth ih =>
      rw [resolveNames, resolveNames]
      refine foldlM_congr (fun r name => ?_) _ _
      split
      · rfl
      split
      · rfl
      dsimp only
      split
      · next target hlink =>
          split
          · rfl
          · next hnew =>
              refine ih (List.nodup_cons.2 ⟨hnew, hnodup⟩)
                (List.forall_mem_cons.2 ⟨⟨target, hlink⟩, hlinks⟩) ?_ _ _
              rw [List.length_cons]
              omega
      · rfl

theorem resolveNames_add {depth : Nat} {around : List Location} (hnodup : around.Nodup)
    (hlinks : ∀ l ∈ around, ∃ target, t.entry? l = some (.link target))
    (hdepth : t.entries.length < depth + around.length) (more : Nat) (l : Location)
    (names : List Text) :
    t.resolveNames (depth + more) around l names = t.resolveNames depth around l names := by
  induction more with
  | zero => rfl
  | succ more ih =>
      rw [← ih, ← Nat.add_assoc]
      exact resolveNames_succ hnodup hlinks (by omega) l names

/-- A fold that is completed is completed by steps that can do as much. -/
theorem foldlM_mono {α β : Type} {f g : β → α → Except Failure β}
    (hstep : ∀ b a b', f b a = .ok b' → g b a = .ok b') {b c : β} {xs : List α}
    (h : xs.foldlM f b = .ok c) : xs.foldlM g b = .ok c := by
  induction xs generalizing b with
  | nil => exact h
  | cons x rest ih =>
      rw [List.foldlM_cons] at h ⊢
      obtain ⟨b', hb, hrest⟩ := Failure.bind_eq_ok_iff.1 h
      exact Failure.bind_eq_ok_iff.2 ⟨b', hstep b x b' hb, ih hrest⟩

/-- Names that were resolved are resolved in the same way with more depth. -/
theorem resolveNames_mono {depth : Nat} {around : List Location} {l : Location}
    {names : List Text} {r : Resolved} (h : t.resolveNames depth around l names = .ok r)
    (more : Nat) : t.resolveNames (depth + more) around l names = .ok r := by
  induction depth generalizing around l names r with
  | zero => cases h
  | succ depth ih =>
      rw [Nat.add_right_comm, resolveNames]
      refine foldlM_mono (fun r name r' => ?_) h
      split
      · exact id
      split
      · exact id
      dsimp only
      split
      · split
        · exact id
        · exact ih
      · exact id

/-- A depth that allows for all entries is enough for all names that can be resolved. -/
theorem resolveNames_of_length {depth : Nat} {around : List Location} {l : Location}
    {names : List Text} {r : Resolved} (hnodup : around.Nodup)
    (hlinks : ∀ l ∈ around, ∃ target, t.entry? l = some (.link target)) (bound : Nat)
    (hbound : t.entries.length < bound + around.length)
    (h : t.resolveNames depth around l names = .ok r) :
    t.resolveNames bound around l names = .ok r := by
  rw [← resolveNames_add hnodup hlinks hbound depth, Nat.add_comm]
  exact resolveNames_mono h bound

/-- **A path is resolved in the same way in trees that differ in files only.** -/
theorem resolve_eq (h : t.AlikeBut W t') (path : Path) : t'.resolve path = t.resolve path := by
  have hnames : t'.resolveNames t'.depths.links [] (startOf t'.here path.root) path.names =
      t.resolveNames t.depths.links [] (startOf t.here path.root) path.names := by
    rw [h.here, h.depths]
    exact resolveNames_congr (fun l target => h.link_iff) _ _ _ _
  have hendless : ∀ text, t'.isEndless text = t.isEndless text := by
    intro text
    have hplace := place_alike h .target text
    unfold isEndless
    generalize t.place .target text = r at hplace
    generalize t'.place .target text = r' at hplace
    cases hplace with
    | same => rfl
    | changed => rfl
    | missing hc hc' => rcases hc with rfl | rfl <;> rcases hc' with rfl | rfl <;> rfl
  unfold resolve
  rw [hnames]
  simp only [hendless]

end BundleAudit.Tree
