import BundleAudit.KeyedList

/-!
# BundleAudit.Proofs.KeyedList

**Setting keys again.** A key that is new and taken away again leaves nothing, whatever
else was set meanwhile (`erase_set_set`), and setting several keys to the same values
once more changes nothing (`setAll_setAll`).
-/

namespace BundleAudit.KeyedList

variable {κ α : Type} [DecidableEq κ]

theorem not_mem_keys_of_get?_eq_none {key : κ} {m : KeyedList κ α} (h : m.get? key = none) :
    key ∉ m.keys := by
  induction m with
  | nil => exact nofun
  | cons p rest ih =>
    rw [get?] at h
    split at h
    · cases h
    · next hk => exact fun hmem => (List.mem_cons.1 hmem).elim (fun heq => hk heq.symm) (ih h)

theorem set_set (key : κ) (value value' : α) (m : KeyedList κ α) :
    (m.set key value).set key value' = m.set key value' := by
  induction m with
  | nil => simp [set]
  | cons p rest ih =>
    obtain ⟨k, v⟩ := p
    by_cases hk : k = key
    · simp [set, hk]
    · simp [set, hk, ih]

/-- A new key that is taken away leaves nothing. -/
theorem erase_set {key : κ} {m : KeyedList κ α} (h : key ∉ m.keys) (value : α) :
    (m.set key value).erase key = m := by
  have hkeep : m.erase key = m := List.filter_eq_self.2 fun p hp => by
    refine decide_eq_true fun heq => h ?_
    exact heq ▸ List.mem_map.2 ⟨p, hp, rfl⟩
  rw [set_of_not_mem h, erase, List.filter_append]
  unfold erase at hkeep
  rw [hkeep]
  simp

/-- It leaves nothing, whatever else was set meanwhile. -/
theorem erase_set_set {key other : κ} {m : KeyedList κ α} (h : key ∉ m.keys) (hne : other ≠ key)
    (value value' : α) : ((m.set key value).set other value').erase key = m.set other value' := by
  induction m with
  | nil => simp [set, erase, hne, Ne.symm hne]
  | cons p rest ih =>
    obtain ⟨k, v⟩ := p
    simp only [keys, List.map_cons, List.mem_cons, not_or] at h
    have hrest : key ∉ keys rest := h.2
    rw [set, if_neg (Ne.symm h.1), set, set]
    by_cases hk : k = other
    · rw [if_pos hk, if_pos hk]
      have herase := erase_set hrest value
      unfold erase at herase ⊢
      rw [List.filter_cons_of_pos (by simpa using hne), herase]
    · rw [if_neg hk, if_neg hk]
      have herase := ih hrest
      unfold erase at herase ⊢
      rw [List.filter_cons_of_pos (by simpa using Ne.symm h.1), herase]

/-- What has the same keys in the same order, with the same values, is the same. -/
theorem ext_of_keys {m m' : KeyedList κ α} (hkeys : m.keys = m'.keys) (hnodup : m.keys.Nodup)
    (h : ∀ key, m.get? key = m'.get? key) : m = m' := by
  induction m generalizing m' with
  | nil => exact (List.map_eq_nil_iff.1 hkeys.symm).symm
  | cons p rest ih =>
    obtain ⟨k, v⟩ := p
    cases m' with
    | nil => cases hkeys
    | cons p' rest' =>
      obtain ⟨k', v'⟩ := p'
      obtain ⟨hk, hrest⟩ := List.cons.inj hkeys
      obtain rfl : k = k' := hk
      replace hkeys : keys rest = keys rest' := hrest
      obtain ⟨hnew, hnodup⟩ := List.nodup_cons.1 hnodup
      replace hnew : k ∉ keys rest := hnew
      have hv : v = v' := by
        have hk := h k
        rw [get?, get?, if_pos rfl, if_pos rfl] at hk
        exact Option.some.inj hk
      have hrest : rest = rest' := ih hkeys hnodup fun key => by
        by_cases hk : k = key
        · rw [← hk, get?_eq_none hnew, get?_eq_none (hkeys ▸ hnew)]
        · have hkey := h key
          rwa [get?, get?, if_neg hk, if_neg hk] at hkey
      rw [hv, hrest]

/-! ### Several keys -/

/-- Gives keys values, one after the other. -/
def setAll (m : KeyedList κ α) (ps : List (κ × α)) : KeyedList κ α :=
  ps.foldl (fun m p => m.set p.1 p.2) m

theorem setAll_cons (m : KeyedList κ α) (p : κ × α) (ps : List (κ × α)) :
    m.setAll (p :: ps) = (m.set p.1 p.2).setAll ps := rfl

theorem get?_setAll_of_not_mem {key : κ} {ps : List (κ × α)} (h : key ∉ ps.map Prod.fst)
    (m : KeyedList κ α) : (m.setAll ps).get? key = m.get? key := by
  induction ps generalizing m with
  | nil => rfl
  | cons p rest ih =>
    rw [List.map_cons, List.mem_cons, not_or] at h
    rw [setAll_cons, ih h.2, get?_set_of_ne (Ne.symm h.1)]

/-- New keys go to the end, in their order. -/
theorem setAll_of_nodup {ps : List (κ × α)} {m : KeyedList κ α}
    (h : (m.keys ++ ps.map Prod.fst).Nodup) :
    m.setAll ps = m ++ ps := by
  induction ps generalizing m with
  | nil => exact (List.append_nil m).symm
  | cons p rest ih =>
    have hnew : p.1 ∉ m.keys := fun hmem =>
      (List.nodup_append.1 h).2.2 p.1 hmem p.1 List.mem_cons_self rfl
    rw [setAll_cons, set_of_not_mem hnew, ih, List.append_assoc, List.singleton_append]
    rw [keys, List.map_append, List.append_assoc]
    exact h

/-- The value of a key that was set is the last one, whatever there was before. -/
theorem get?_setAll_congr {key : κ} {ps : List (κ × α)} {m m' : KeyedList κ α}
    (h : m.get? key = m'.get? key ∨ key ∈ ps.map Prod.fst) :
    (m.setAll ps).get? key = (m'.setAll ps).get? key := by
  induction ps generalizing m m' with
  | nil =>
    rcases h with h | h
    · exact h
    · cases h
  | cons p rest ih =>
    rw [setAll_cons, setAll_cons]
    refine ih ?_
    rw [get?_set, get?_set]
    by_cases hk : key = p.1
    · rw [if_pos hk, if_pos hk]
      exact .inl rfl
    · rw [if_neg hk, if_neg hk]
      exact h.imp_right fun hmem => (List.mem_cons.1 hmem).resolve_left hk

theorem mem_keys_set {key other : κ} {value : α} {m : KeyedList κ α} :
    other ∈ (m.set key value).keys ↔ other = key ∨ other ∈ m.keys := by
  rw [keys_set]
  split
  · next hkey => exact ⟨.inr, fun h => h.elim (fun heq => heq ▸ hkey) id⟩
  · rw [List.mem_append, List.mem_singleton, Or.comm]

theorem mem_keys_setAll {key : κ} {ps : List (κ × α)} {m : KeyedList κ α}
    (h : key ∈ m.keys ∨ key ∈ ps.map Prod.fst) : key ∈ (m.setAll ps).keys := by
  induction ps generalizing m with
  | nil =>
    rcases h with h | h
    · exact h
    · cases h
  | cons p rest ih =>
    refine ih ?_
    rw [mem_keys_set]
    rcases h with h | h
    · exact .inl (.inr h)
    · rcases List.mem_cons.1 h with h | h
      · exact .inl (.inl h)
      · exact .inr h

/-- Setting keys that are there leaves all keys where they are. -/
theorem keys_setAll (ps : List (κ × α)) {m : KeyedList κ α} (h : ∀ p ∈ ps, p.1 ∈ m.keys) :
    (m.setAll ps).keys = m.keys := by
  induction ps generalizing m with
  | nil => rfl
  | cons p rest ih =>
    obtain ⟨hp, hrest⟩ := List.forall_mem_cons.1 h
    have hkeys : (m.set p.1 p.2).keys = m.keys := by rw [keys_set, if_pos hp]
    rw [setAll_cons, ih (hkeys ▸ hrest), hkeys]

theorem nodup_keys_setAll {ps : List (κ × α)} {m : KeyedList κ α} (h : m.keys.Nodup) :
    (m.setAll ps).keys.Nodup := by
  induction ps generalizing m with
  | nil => exact h
  | cons p rest ih => exact ih (nodup_keys_set h)

/-- Setting the same keys to the same values once more changes nothing. -/
theorem setAll_setAll {ps : List (κ × α)} {m : KeyedList κ α} (h : m.keys.Nodup) :
    (m.setAll ps).setAll ps = m.setAll ps := by
  have hkeys : ((m.setAll ps).setAll ps).keys = (m.setAll ps).keys := keys_setAll ps fun p hp =>
    mem_keys_setAll (.inr (List.mem_map_of_mem hp))
  refine ext_of_keys hkeys (hkeys ▸ nodup_keys_setAll h) fun key => ?_
  by_cases hmem : key ∈ ps.map Prod.fst
  · exact get?_setAll_congr (.inr hmem)
  · exact get?_setAll_of_not_mem hmem _

end BundleAudit.KeyedList
