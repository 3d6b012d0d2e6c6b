import BundleAudit.Files.Read
import BundleAudit.Proofs.Files.Walk

/-!
# BundleAudit.Proofs.Files.Difference

**Trees that differ in files only.** Where a file may stand in one of two trees and
another file or nothing in the other one, walks go the same ways (`place_alike`): they
can end there, but not lead through. So the trees have the same directories; and what
stands at the end of a path is the same unless the path leads to such a place
(`lookAt_eq`).
-/

namespace BundleAudit.Tree

variable {W : Location → Prop} {t t' t'' : Tree} {path : Text} {purpose : Purpose}

/-- Two trees differ only at some locations, at none of which a directory or a link stands. -/
structure AlikeBut (W : Location → Prop) (t t' : Tree) : Prop where
  here : t'.here = t.here
  depths : t'.depths = t.depths
  entry : ∀ l, ¬W l → t'.entry? l = t.entry? l
  free : ∀ l, W l → t.IsFree l
  free' : ∀ l, W l → t'.IsFree l

theorem AlikeBut.symm (h : t.AlikeBut W t') : t'.AlikeBut W t :=
  ⟨h.here.symm, h.depths.symm, fun l hl => (h.entry l hl).symm, h.free', h.free⟩

theorem AlikeBut.trans (h : t.AlikeBut W t') (h' : t'.AlikeBut W t'') : t.AlikeBut W t'' :=
  ⟨h'.here.trans h.here, h'.depths.trans h.depths,
    fun l hl => (h'.entry l hl).trans (h.entry l hl), h.free, h'.free'⟩

theorem AlikeBut.refl (h : ∀ l, W l → t.IsFree l) : t.AlikeBut W t :=
  ⟨rfl, rfl, fun _ _ => rfl, h, h⟩

theorem AlikeBut.keeps (h : t.AlikeBut W t') : t.Keeps t' :=
  Keeps.of_isFree h.here fun l => by
    by_cases hl : W l
    · exact .inl (h.free l hl)
    · exact .inr (h.entry l hl)

/-- The same links stand in both. -/
theorem AlikeBut.link_iff (h : t.AlikeBut W t') {l : Location} {target : Text} :
    t'.entry? l = some (.link target) ↔ t.entry? l = some (.link target) :=
  ⟨h.symm.keeps.link, h.keeps.link⟩

/-- A file stands at a location. -/
def HasFileAt (t : Tree) (l : Location) : Prop := ∃ bytes, t.entry? l = some (.file bytes)

theorem IsFree.entry?_cases {l : Location} (h : t.IsFree l) :
    t.entry? l = none ∨ ∃ bytes, t.entry? l = some (.file bytes) := by
  cases hentry : t.entry? l with
  | none => exact .inl rfl
  | some e =>
      cases e with
      | directory => exact absurd hentry h.1
      | file bytes => exact .inr ⟨bytes, rfl⟩
      | link target => exact absurd hentry (h.2 target)

/-! ### Walks -/

/-- The location where a walk ends. -/
def Place.location : Place → Location
  | .found l => l
  | .missing d name => d ++ [name]

/-- Something is missing on the way. -/
def IsMissing (cause : SystemCause) : Prop := cause = .noSuchEntry ∨ cause = .notADirectory

/-- What walks in two trees lead to: the same, or a location at which the trees differ, or nothing.
-/
inductive Alike (W : Location → Prop) :
    Except SystemCause Place → Except SystemCause Place → Prop
  | same (r) : Alike W r r
  | changed {p p'} (heq : p'.location = p.location) (h : W p.location) : Alike W (.ok p) (.ok p')
  | missing {c c'} (h : IsMissing c) (h' : IsMissing c') : Alike W (.error c) (.error c')

theorem walkNames_alike (h : t.AlikeBut W t')
    {onward onward' : Location → List Text → Except SystemCause Place}
    (honward : ∀ l names, Alike W (onward l names) (onward' l names)) (l : Location)
    (names : List Text) :
    Alike W (walkNames t purpose onward l names) (walkNames t' purpose onward' l names) := by
  induction names generalizing l with
  | nil => exact .same _
  | cons name rest ih =>
      rw [walkNames, walkNames]
      split
      · exact ih l
      split
      · exact ih l.dropLast
      split
      · exact .same _
      split
      · exact .same _
      by_cases hw : W (l ++ [name])
      · -- a walk ends where the trees differ, or it fails
        rcases IsFree.entry?_cases (h.free _ hw) with hfree | ⟨bytes, hfree⟩ <;>
          rcases IsFree.entry?_cases (h.free' _ hw) with hfree' | ⟨bytes', hfree'⟩ <;>
          rw [hfree, hfree'] <;> cases rest with
          | nil => exact .changed rfl hw
          | cons next more => exact .missing (by simp [IsMissing]) (by simp [IsMissing])
      · rw [h.entry _ hw]
        cases t.entry? (l ++ [name]) with
        | none => exact .same _
        | some e =>
            cases e with
            | directory => exact ih (l ++ [name])
            | file bytes => exact .same _
            | link target =>
                dsimp only
                split
                · exact .same _
                · exact honward _ _

theorem walk_alike (h : t.AlikeBut W t') (links : Nat) (l : Location) (names : List Text) :
    Alike W (walk t purpose links l names) (walk t' purpose links l names) := by
  induction links generalizing l names with
  | zero => exact .same _
  | succ links ih => exact walkNames_alike h (ih · ·) l names

/-- **Walks in trees that differ in files only go the same ways.** -/
theorem place_alike (h : t.AlikeBut W t') (purpose : Purpose) (path : Text) :
    Alike W (t.place purpose path) (t'.place purpose path) := by
  unfold place
  split
  · exact .same _
  split
  · exact .same _
  · rw [h.here]
    exact walk_alike h _ _ _

/-- A path leads to one of some locations, whether or not anything stands there. -/
def LeadsInto (t : Tree) (W : Location → Prop) (path : Text) : Prop :=
  ∃ p, t.place .target path = .ok p ∧ W p.location

theorem leadsInto_iff (h : t.AlikeBut W t') : t'.LeadsInto W path ↔ t.LeadsInto W path := by
  have hplace := place_alike h .target path
  unfold LeadsInto
  generalize t.place .target path = r at hplace
  generalize t'.place .target path = r' at hplace
  cases hplace with
  | same => exact .rfl
  | changed heq hw => exact ⟨fun _ => ⟨_, rfl, hw⟩, fun _ => ⟨_, rfl, heq ▸ hw⟩⟩
  | missing => exact ⟨nofun, nofun⟩

/-! ### What stands there -/

/-- At a free location no directory is found. -/
theorem exists_lookAt_of_isFree {p : Place} (hpath : ¬(notAPath? path).isSome)
    (hp : t.place .target path = .ok p) (hfree : t.IsFree p.location) :
    ∃ e, t.lookAt path = .ok e ∧ e ≠ some .directory := by
  rw [lookAt, if_neg hpath, hp]
  cases p with
  | found l => exact ⟨_, rfl, hfree.1⟩
  | missing d name => exact ⟨none, rfl, by simp⟩

/-- What stands at the end of a path is the same, or it is no directory and the path leads to where
the trees differ. -/
theorem lookAt_cases (h : t.AlikeBut W t') (path : Text) :
    t'.lookAt path = t.lookAt path ∨
      t.LeadsInto W path ∧ ∃ e e', t.lookAt path = .ok e ∧ t'.lookAt path = .ok e' ∧
        e ≠ some .directory ∧ e' ≠ some .directory := by
  by_cases hpath : (notAPath? path).isSome
  · rw [lookAt, lookAt, if_pos hpath, if_pos hpath]
    exact .inl rfl
  · have hplace := place_alike h .target path
    generalize hr : t.place .target path = r at hplace
    generalize hr' : t'.place .target path = r' at hplace
    cases hplace with
    | same =>
        cases r with
        | error cause =>
            rw [lookAt, lookAt, if_neg hpath, if_neg hpath, hr, hr']
            cases cause <;> exact .inl rfl
        | ok p =>
            by_cases hw : W p.location
            · obtain ⟨e, he, hne⟩ := exists_lookAt_of_isFree hpath hr (h.free _ hw)
              obtain ⟨e', he', hne'⟩ := exists_lookAt_of_isFree hpath hr' (h.free' _ hw)
              exact .inr ⟨⟨p, hr, hw⟩, e, e', he, he', hne, hne'⟩
            · rw [lookAt, lookAt, if_neg hpath, if_neg hpath, hr, hr']
              cases p with
              | found l => exact .inl (congrArg Except.ok (h.entry l hw))
              | missing d name => exact .inl rfl
    | changed heq hw =>
        obtain ⟨e, he, hne⟩ := exists_lookAt_of_isFree hpath hr (h.free _ hw)
        obtain ⟨e', he', hne'⟩ := exists_lookAt_of_isFree hpath hr' (heq ▸ h.free' _ hw)
        exact .inr ⟨⟨_, hr, hw⟩, e, e', he, he', hne, hne'⟩
    | missing hc hc' =>
        rw [lookAt, lookAt, if_neg hpath, if_neg hpath, hr, hr']
        rcases hc with rfl | rfl <;> rcases hc' with rfl | rfl <;> exact .inl rfl

theorem lookAt_eq (h : t.AlikeBut W t') (hpath : ¬t.LeadsInto W path) :
    t'.lookAt path = t.lookAt path :=
  (lookAt_cases h path).resolve_right fun hinto => hpath hinto.1

/-- A path leads to a directory in both trees or in none. -/
theorem isDirectory_eq (h : t.AlikeBut W t') (path : Text) :
    t'.isDirectory path = t.isDirectory path := by
  unfold isDirectory
  rcases lookAt_cases h path with heq | ⟨-, e, e', he, he', hne, hne'⟩
  · rw [heq]
  · rw [he, he']
    show Except.ok (e' == some .directory) = Except.ok (e == some .directory)
    rw [beq_eq_false_iff_ne.2 hne, beq_eq_false_iff_ne.2 hne']

theorem isFile_eq (h : t.AlikeBut W t') (hpath : ¬t.LeadsInto W path) :
    t'.isFile path = t.isFile path := by
  rw [isFile, isFile, lookAt_eq h hpath]

/-- Whether it can be told what stands at the end of a path is the same in both trees. -/
theorem exists_lookAt_iff (h : t.AlikeBut W t') (path : Text) :
    (∃ e, t'.lookAt path = .ok e) ↔ ∃ e, t.lookAt path = .ok e := by
  rcases lookAt_cases h path with heq | ⟨-, e, e', he, he', -, -⟩
  · rw [heq]
  · rw [he, he']
    exact ⟨fun _ => ⟨_, rfl⟩, fun _ => ⟨_, rfl⟩⟩

theorem read_eq_ok_iff {bytes : Bytes} : t.read path = .ok bytes ↔ notAPath? path = none ∧
    ∃ l, t.place .target path = .ok (.found l) ∧ t.entry? l = some (.file bytes) := by
  unfold read
  cases notAPath? path with
  | some failure => simp
  | none =>
      rcases t.place .target path with cause | l | ⟨d, name⟩
      · simp
      · rcases hentry : t.entry? l with _ | _ | _ | _ <;> simp [hentry]
      · simp

/-- The same files are read, except for those at which the trees differ. -/
theorem read_iff (h : t.AlikeBut W t') (hpath : ¬t.LeadsInto W path) {bytes : Bytes} :
    t'.read path = .ok bytes ↔ t.read path = .ok bytes := by
  have hread : ∀ {u u' : Tree}, u.AlikeBut W u' → ¬u.LeadsInto W path → u.read path = .ok bytes →
      u'.read path = .ok bytes := by
    intro u u' h hpath hread
    obtain ⟨hnone, l, hplace, hentry⟩ := read_eq_ok_iff.1 hread
    have hw : ¬W l := fun hw => hpath ⟨_, hplace, hw⟩
    have halike := place_alike h .target path
    rw [hplace] at halike
    refine read_eq_ok_iff.2 ⟨hnone, l, ?_, by rwa [h.entry l hw]⟩
    generalize u'.place .target path = r' at halike
    cases halike with
    | same => rfl
    | changed _ hw' => exact absurd hw' hw
  exact ⟨hread h.symm (mt (leadsInto_iff h).1 hpath), hread h hpath⟩

theorem toOption_read_eq (h : t.AlikeBut W t') (hpath : ¬t.LeadsInto W path) :
    (t'.read path).toOption = (t.read path).toOption := by
  refine Option.ext fun bytes => ?_
  have hread : t'.read path = .ok bytes ↔ t.read path = .ok bytes := read_iff h hpath
  revert hread
  cases t'.read path <;> cases t.read path <;> simp [Except.toOption]

end BundleAudit.Tree
