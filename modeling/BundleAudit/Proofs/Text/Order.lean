import BundleAudit.Text.Basic
import Mathlib.Data.List.Nodup

/-!
# BundleAudit.Proofs.Text.Order

**Sorting by texts.** The order of texts is linear, so sorting things by a text that
each of them has gives them in ascending order, strictly if these texts are distinct,
and leaves alone what is in ascending order already.
-/

namespace BundleAudit.Text

/-! ### The order -/

section LexLe

variable {α : Type} [DecidableEq α] {le : α → α → Bool}

theorem lexLe_trans (hantisymm : ∀ a b, le a b = true → le b a = true → a = b)
    (htrans : ∀ a b c, le a b = true → le b c = true → le a c = true) {xs ys zs : List α}
    (hxy : lexLe le xs ys = true) (hyz : lexLe le ys zs = true) : lexLe le xs zs = true := by
  induction xs generalizing ys zs with
  | nil => rfl
  | cons x xs ih =>
      cases ys with
      | nil => simp [lexLe] at hxy
      | cons y ys =>
          cases zs with
          | nil => simp [lexLe] at hyz
          | cons z zs =>
              rw [lexLe] at hxy hyz ⊢
              by_cases h : x = y
              · subst h
                rw [if_pos rfl] at hxy
                split at hyz
                · next hxz => rw [if_pos hxz]; exact ih hxy hyz
                · next hxz => rwa [if_neg hxz]
              · rw [if_neg h] at hxy
                split at hyz
                · next hzy => rwa [← hzy, if_neg h]
                · next hzy =>
                    -- from `x` over another `y` there is no way back to `x`
                    have hne : x ≠ z := fun hxz => h (hantisymm x y hxy (hxz ▸ hyz))
                    rw [if_neg hne]
                    exact htrans x y z hxy hyz

theorem lexLe_total (htotal : ∀ a b, (le a b || le b a) = true) (xs ys : List α) :
    (lexLe le xs ys || lexLe le ys xs) = true := by
  induction xs generalizing ys with
  | nil => rfl
  | cons x xs ih =>
      cases ys with
      | nil => rfl
      | cons y ys =>
          rw [lexLe, lexLe]
          by_cases h : x = y
          · rw [if_pos h, if_pos h.symm]
            exact ih ys
          · rw [if_neg h, if_neg (Ne.symm h)]
            exact htotal x y

theorem lexLe_antisymm (hantisymm : ∀ a b, le a b = true → le b a = true → a = b) {xs ys : List α}
    (hxy : lexLe le xs ys = true) (hyx : lexLe le ys xs = true) : xs = ys := by
  induction xs generalizing ys with
  | nil =>
      cases ys with
      | nil => rfl
      | cons y ys => simp [lexLe] at hyx
  | cons x xs ih =>
      cases ys with
      | nil => simp [lexLe] at hxy
      | cons y ys =>
          rw [lexLe] at hxy hyx
          by_cases h : x = y
          · rw [if_pos h] at hxy
            rw [if_pos h.symm] at hyx
            rw [h, ih hxy hyx]
          · rw [if_neg h] at hxy
            rw [if_neg (Ne.symm h)] at hyx
            exact absurd (hantisymm x y hxy hyx) h

end LexLe

theorem ble_antisymm (a b : Nat) (hab : a.ble b = true) (hba : b.ble a = true) : a = b :=
  Nat.le_antisymm (Nat.le_of_ble_eq_true hab) (Nat.le_of_ble_eq_true hba)

theorem le_trans {a b c : Text} (hab : a.le b = true) (hbc : b.le c = true) : a.le c = true :=
  lexLe_trans ble_antisymm
    (fun _ _ _ hxy hyz => Nat.ble_eq_true_of_le
      (Nat.le_trans (Nat.le_of_ble_eq_true hxy) (Nat.le_of_ble_eq_true hyz)))
    hab hbc

theorem le_total (a b : Text) : (a.le b || b.le a) = true := by
  refine lexLe_total (fun x y => ?_) a b
  rw [Bool.or_eq_true, Nat.ble_eq, Nat.ble_eq]
  exact Nat.le_total x y

theorem le_refl (t : Text) : t.le t = true := by
  have h := le_total t t
  rwa [Bool.or_self] at h

theorem le_antisymm {a b : Text} (hab : a.le b = true) (hba : b.le a = true) : a = b :=
  lexLe_antisymm ble_antisymm hab hba

/-- Whether a text comes before another one. -/
def lt (a b : Text) : Bool := !b.le a

theorem lt_of_le_of_ne {a b : Text} (h : a.le b = true) (hne : a ≠ b) : a.lt b = true := by
  rw [lt, Bool.not_eq_true', Bool.eq_false_iff]
  intro hba
  exact hne (le_antisymm h hba)

theorem ne_of_lt {a b : Text} (h : a.lt b = true) : a ≠ b := by
  rintro rfl
  rw [lt, le_refl] at h
  cases h

/-- A beginning that two lists share does not count. -/
theorem lexLe_append_left (start a b : List Text) :
    lexLe le (start ++ a) (start ++ b) = lexLe le a b := by
  induction start with
  | nil => rfl
  | cons x rest ih => rw [List.cons_append, List.cons_append, lexLe, if_pos rfl, ih]

theorem le_of_lexLe_singleton {a b : Text} (h : lexLe le [a] [b] = true) : a.le b = true := by
  rw [lexLe] at h
  split at h
  · next heq => exact heq ▸ le_refl a
  · exact h

/-! ### Sorting -/

variable {α : Type}

/-- Things in ascending order of their texts. -/
def sortBy (key : α → Text) (xs : List α) : List α := xs.mergeSort fun a b => (key a).le (key b)

theorem perm_sortBy (key : α → Text) (xs : List α) : (sortBy key xs).Perm xs :=
  List.mergeSort_perm xs _

theorem pairwise_sortBy (key : α → Text) (xs : List α) :
    (sortBy key xs).Pairwise fun a b => (key a).le (key b) = true :=
  @List.pairwise_mergeSort α (fun a b => (key a).le (key b)) (fun _ _ _ => le_trans)
    (fun a b => le_total (key a) (key b)) xs

/-- Distinct texts come in strictly ascending order. -/
theorem pairwise_lt_sortBy {key : α → Text} {xs : List α} (h : (xs.map key).Nodup) :
    ((sortBy key xs).map key).Pairwise fun a b => a.lt b = true := by
  have hnodup : ((sortBy key xs).map key).Nodup := ((perm_sortBy key xs).map key).nodup_iff.2 h
  have hne : (sortBy key xs).Pairwise fun a b => key a ≠ key b := List.pairwise_map.1 hnodup
  exact List.pairwise_map.2
    ((pairwise_sortBy key xs).imp₂ (fun _ _ hle hne => lt_of_le_of_ne hle hne) hne)

/-- Things with distinct texts are sorted in one way, in whatever order they come. -/
theorem sortBy_eq_of_perm {key : α → Text} {xs ys : List α} (h : xs.Perm ys)
    (hnodup : (xs.map key).Nodup) : sortBy key xs = sortBy key ys := by
  have hperm : (sortBy key xs).Perm (sortBy key ys) :=
    (perm_sortBy key xs).trans (h.trans (perm_sortBy key ys).symm)
  refine hperm.eq_of_pairwise (fun a b ha hb hab hba => ?_) (pairwise_sortBy key xs)
    (pairwise_sortBy key ys)
  have ha : a ∈ xs := (perm_sortBy key xs).mem_iff.1 ha
  have hb : b ∈ xs := h.mem_iff.2 ((perm_sortBy key ys).mem_iff.1 hb)
  exact List.inj_on_of_nodup_map hnodup ha hb (le_antisymm hab hba)

/-- Sorting what is made of things sorts the things. -/
theorem sortBy_map {β : Type} (key : β → Text) (f : α → β) (xs : List α) :
    sortBy key (xs.map f) = (sortBy (fun a => key (f a)) xs).map f := by
  unfold sortBy
  rw [List.map_mergeSort (f := f)]
  exact fun _ _ _ _ => rfl

/-- There is one list of the same texts in strictly ascending order. -/
theorem eq_of_pairwise_lt {xs ys : List Text} (hxs : xs.Pairwise fun a b => a.lt b = true)
    (hys : ys.Pairwise fun a b => a.lt b = true) (h : ∀ a, a ∈ xs ↔ a ∈ ys) : xs = ys := by
  have hperm : xs.Perm ys :=
    (List.perm_ext_iff_of_nodup (hxs.imp ne_of_lt) (hys.imp ne_of_lt)).2 h
  refine hperm.eq_of_pairwise (fun a b _ _ hab hba => ?_) hxs hys
  have htotal := le_total a b
  rw [lt, Bool.not_eq_true'] at hab hba
  rw [hab, hba] at htotal
  cases htotal

/-- What two lists in ascending order have in common stands in one order. -/
theorem filter_eq_of_mem_iff {R : α → α → Prop} (hantisymm : ∀ a b, R a b → R b a → a = b)
    {xs ys : List α} (hxs : xs.Pairwise R) (hys : ys.Pairwise R) (hxs' : xs.Nodup)
    (hys' : ys.Nodup) {keep : α → Bool} (h : ∀ a, keep a = true → (a ∈ xs ↔ a ∈ ys)) :
    xs.filter keep = ys.filter keep := by
  have hperm : (xs.filter keep).Perm (ys.filter keep) := by
    refine (List.perm_ext_iff_of_nodup (hxs'.filter _) (hys'.filter _)).2 fun a => ?_
    rw [List.mem_filter, List.mem_filter]
    exact and_congr_left (h a)
  exact hperm.eq_of_pairwise (fun a b _ _ => hantisymm a b) (hxs.filter _) (hys.filter _)

/-- What is in strictly ascending order stays as it is. -/
theorem sortBy_eq_self {key : α → Text} {xs : List α}
    (h : (xs.map key).Pairwise fun a b => a.lt b = true) : sortBy key xs = xs := by
  refine List.mergeSort_of_pairwise ((List.pairwise_map.1 h).imp fun {a b} hlt => ?_)
  have htotal := le_total (key a) (key b)
  rw [lt, Bool.not_eq_true'] at hlt
  rwa [hlt, Bool.or_false] at htotal

/-- What is left of things with distinct texts is sorted as they are. -/
theorem sortBy_filter {key : α → Text} {xs : List α} (h : (xs.map key).Nodup) (keep : α → Bool) :
    sortBy key (xs.filter keep) = (sortBy key xs).filter keep := by
  have hsorted : sortBy key ((sortBy key xs).filter keep) = (sortBy key xs).filter keep :=
    sortBy_eq_self ((pairwise_lt_sortBy h).sublist (List.filter_sublist.map key))
  rw [← hsorted]
  exact sortBy_eq_of_perm ((perm_sortBy key xs).symm.filter keep)
    (h.sublist (List.filter_sublist.map key))

end BundleAudit.Text
