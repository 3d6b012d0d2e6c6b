import BundleAudit.Text.Basic
import Mathlib.Data.List.Basic

/-!
# BundleAudit.Proofs.Text.Splitting

**Texts between separators.** What is joined with a separator that no part holds is
split into its parts again (`splitOn_intercalate`). What follows the last separator
holds none, whether there is one separator (`afterLast_cases`) or one of two
(`afterLast_replaceCode_cases`).
-/

namespace BundleAudit.Text

variable {c : Code}

theorem splitOn_eq (c : Code) (t : Text) : splitOn c t = List.splitOn c t := by
  induction t with
  | nil => rfl
  | cons x rest ih =>
      have hcons := List.splitOnP_cons_eq_if_modifyHead (p := (· == c)) x rest
      rw [splitOn, ih]
      refine Eq.trans ?_ hcons.symm
      by_cases h : x = c
      · rw [if_pos h, if_pos (beq_iff_eq.2 h)]
        rfl
      · rw [if_neg h, if_neg (by simpa using h)]
        obtain ⟨first, more, hsplit⟩ :=
          List.exists_cons_of_ne_nil (List.splitOnP_ne_nil (· == c) rest)
        show consHead x (List.splitOnP (· == c) rest) = _
        rw [hsplit]
        rfl

theorem splitOn_intercalate {parts : List Text} (h : ∀ part ∈ parts, c ∉ part) (hne : parts ≠ []) :
    splitOn c (List.intercalate [c] parts) = parts := by
  rw [splitOn_eq]
  exact List.splitOn_intercalate c h hne

/-- No part holds the separator. -/
theorem not_mem_of_mem_splitOn {t part : Text} (h : part ∈ splitOn c t) : c ∉ part := by
  induction t generalizing part with
  | nil => rw [List.mem_singleton.1 h]; exact List.not_mem_nil
  | cons x rest ih =>
      rw [splitOn] at h
      split at h
      · rcases List.mem_cons.1 h with rfl | h
        · exact List.not_mem_nil
        · exact ih h
      · next hx =>
          -- the first part has one more character, which is no separator
          cases hsplit : splitOn c rest with
          | nil =>
              rw [hsplit] at h
              rw [List.mem_singleton.1 h, List.mem_singleton]
              exact Ne.symm hx
          | cons first more =>
              rw [hsplit] at h ih
              rcases List.mem_cons.1 h with rfl | h
              · rw [List.mem_cons, not_or]
                exact ⟨Ne.symm hx, ih List.mem_cons_self⟩
              · exact ih (List.mem_cons_of_mem _ h)

/-- The characters of a part are characters of the text. -/
theorem mem_of_mem_splitOn {t part : Text} (h : part ∈ splitOn c t) {d : Code} (hd : d ∈ part) :
    d ∈ t := by
  induction t generalizing part with
  | nil => rwa [List.mem_singleton.1 h] at hd
  | cons x rest ih =>
      rw [splitOn] at h
      split at h
      · rcases List.mem_cons.1 h with rfl | h
        · cases hd
        · exact List.mem_cons_of_mem _ (ih h hd)
      · cases hsplit : splitOn c rest with
        | nil =>
            rw [hsplit] at h
            rw [List.mem_singleton.1 h] at hd
            exact List.mem_singleton.1 hd ▸ List.mem_cons_self
        | cons first more =>
            rw [hsplit] at h ih
            rcases List.mem_cons.1 h with rfl | h
            · rcases List.mem_cons.1 hd with rfl | hd
              · exact List.mem_cons_self
              · exact List.mem_cons_of_mem _ (ih List.mem_cons_self hd)
            · exact List.mem_cons_of_mem _ (ih (List.mem_cons_of_mem _ h) hd)

/-- Each other character of the text is in some part. -/
theorem exists_mem_splitOn {t : Text} {d : Code} (hd : d ∈ t) (hne : d ≠ c) :
    ∃ part ∈ splitOn c t, d ∈ part := by
  induction t with
  | nil => cases hd
  | cons x rest ih =>
      rw [splitOn]
      split
      · next hx =>
          have hrest : d ∈ rest := (List.mem_cons.1 hd).resolve_left fun heq => hne (heq.trans hx)
          obtain ⟨part, hpart, hmem⟩ := ih hrest
          exact ⟨part, List.mem_cons_of_mem _ hpart, hmem⟩
      · cases hsplit : splitOn c rest with
        | nil =>
            -- nothing is split into no parts
            have hnone : d ∉ rest := fun hrest => by
              obtain ⟨part, hpart, -⟩ := ih hrest
              rw [hsplit] at hpart
              cases hpart
            obtain rfl := (List.mem_cons.1 hd).resolve_right hnone
            exact ⟨[d], List.mem_cons_self, List.mem_cons_self⟩
        | cons first more =>
            rw [hsplit] at ih
            rcases List.mem_cons.1 hd with rfl | hrest
            · exact ⟨d :: first, List.mem_cons_self, List.mem_cons_self⟩
            · obtain ⟨part, hpart, hmem⟩ := ih hrest
              rcases List.mem_cons.1 hpart with rfl | hpart
              · exact ⟨x :: part, List.mem_cons_self, List.mem_cons_of_mem _ hmem⟩
              · exact ⟨part, List.mem_cons_of_mem _ hpart, hmem⟩

/-- What follows the last separator ends the last part. -/
theorem exists_splitOn_append {last : Text} (hlast : c ∉ last) (before : Text) :
    ∃ parts x, splitOn c (before ++ last) = parts ++ [x ++ last] := by
  induction before with
  | nil =>
      have hone := splitOn_intercalate (List.forall_mem_singleton.2 hlast) (List.cons_ne_nil _ _)
      rw [List.intercalate_singleton] at hone
      exact ⟨[], [], hone⟩
  | cons d rest ih =>
      obtain ⟨parts, x, hparts⟩ := ih
      rw [List.cons_append, splitOn, hparts]
      split
      · exact ⟨[] :: parts, x, rfl⟩
      · cases parts with
        | nil => exact ⟨[], d :: x, rfl⟩
        | cons part parts => exact ⟨(d :: part) :: parts, x, rfl⟩

/-- What is joined ends with the last part, and each part before it is followed by a separator. -/
theorem intercalate_concat (c : Code) (parts : List Text) (last : Text) :
    List.intercalate [c] (parts ++ [last]) = parts.flatMap (· ++ [c]) ++ last := by
  induction parts with
  | nil => exact List.intercalate_singleton
  | cons part rest ih =>
      rw [List.cons_append, List.intercalate_cons_of_ne_nil (by simp), ih, List.flatMap_cons,
        List.append_assoc, List.append_assoc, List.append_assoc]

/-! ### The last separator -/

theorem of_cutLast?_eq_some {t before after : Text} (h : cutLast? c t = some (before, after)) :
    t = before ++ c :: after := by
  induction t generalizing before with
  | nil => cases h
  | cons x rest ih =>
      rw [cutLast?] at h
      split at h
      · next b a hcut =>
          obtain ⟨rfl, rfl⟩ := Prod.mk.inj (Option.some.inj h)
          rw [ih hcut, List.cons_append]
      · split at h
        · next hx =>
            obtain ⟨rfl, rfl⟩ := Prod.mk.inj (Option.some.inj h)
            rw [hx, List.nil_append]
        · cases h

theorem not_mem_of_cutLast?_eq_none {t : Text} (h : cutLast? c t = none) : c ∉ t := by
  induction t with
  | nil => exact List.not_mem_nil
  | cons x rest ih =>
      rw [cutLast?] at h
      split at h
      · cases h
      · next hcut =>
          split at h
          · cases h
          · next hx =>
              exact fun hmem => (List.mem_cons.1 hmem).elim (fun heq => hx heq.symm) (ih hcut)

theorem not_mem_of_cutLast?_eq_some {t before after : Text}
    (h : cutLast? c t = some (before, after)) : c ∉ after := by
  induction t generalizing before with
  | nil => cases h
  | cons x rest ih =>
      rw [cutLast?] at h
      split at h
      · next hcut =>
          obtain ⟨rfl, rfl⟩ := Prod.mk.inj (Option.some.inj h)
          exact ih hcut
      · next hcut =>
          split at h
          · obtain ⟨rfl, rfl⟩ := Prod.mk.inj (Option.some.inj h)
            exact not_mem_of_cutLast?_eq_none hcut
          · cases h

/-- What follows the last separator holds none; before it stands one, unless it is the whole text.
-/
theorem afterLast_cases (c : Code) (t : Text) :
    c ∉ afterLast c t ∧
      (t = afterLast c t ∨ ∃ before, t = before ++ c :: afterLast c t) := by
  unfold afterLast
  split
  · next before after h =>
      exact ⟨not_mem_of_cutLast?_eq_some h, .inr ⟨before, of_cutLast?_eq_some h⟩⟩
  · next h => exact ⟨not_mem_of_cutLast?_eq_none h, .inl rfl⟩

/-! ### Two separators -/

variable {old new : Code}

/-- Nothing was replaced if the new character does not occur. -/
theorem of_not_mem_replaceCode {t : Text} (h : new ∉ t.replaceCode old new) :
    t.replaceCode old new = t := by
  refine (List.map_congr_left fun x hx => if_neg fun hold => h ?_).trans (List.map_id t)
  exact List.mem_map.2 ⟨x, hx, if_pos hold⟩

/-- If one separator is replaced by the other one, what follows the last of both is as it was. -/
theorem afterLast_replaceCode_cases (old new : Code) (t : Text) :
    t = afterLast new (t.replaceCode old new) ∨
      ∃ before x, (x = old ∨ x = new) ∧
        t = before ++ x :: afterLast new (t.replaceCode old new) := by
  obtain ⟨hnot, hwhole | ⟨before, hcut⟩⟩ := afterLast_cases new (t.replaceCode old new)
  · rw [← hwhole] at hnot ⊢
    exact .inl (of_not_mem_replaceCode hnot).symm
  · generalize afterLast new (t.replaceCode old new) = after at hnot hcut ⊢
    obtain ⟨start, rest, rfl, -, hrest⟩ := List.map_eq_append_iff.1 hcut
    obtain ⟨x, tail, rfl, hx, rfl⟩ := List.map_eq_cons_iff.1 hrest
    have htail : tail.map (fun c => if c = old then new else c) = tail :=
      of_not_mem_replaceCode hnot
    refine .inr ⟨start, x, ?_, by rw [htail]⟩
    split at hx
    · next hold => exact .inl hold
    · exact .inr hx

end BundleAudit.Text
