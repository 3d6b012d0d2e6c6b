/-!
# BundleAudit.KeyedList

**Values by key, in the order in which the keys came.** A key that is set again keeps
its place; one that is removed and set again goes to the end.
-/

namespace BundleAudit

/-- Pairs of a key and its value, at most one for each key. -/
abbrev KeyedList (κ α : Type) := List (κ × α)

namespace KeyedList

variable {κ α : Type} [DecidableEq κ]

/-- The value of a key. -/
def get? (key : κ) : KeyedList κ α → Option α
  | [] => none
  | (k, v) :: rest => if k = key then some v else get? key rest

/-- Gives a key a value, at its place or else at the end. -/
def set (key : κ) (value : α) : KeyedList κ α → KeyedList κ α
  | [] => [(key, value)]
  | (k, v) :: rest => if k = key then (key, value) :: rest else (k, v) :: set key value rest

/-- Changes the value of a key, which is `default` for a new one. -/
def alter (key : κ) (default : α) (f : α → α) (m : KeyedList κ α) : KeyedList κ α :=
  m.set key (f ((m.get? key).getD default))

/-- Takes a key away. -/
def erase (key : κ) (m : KeyedList κ α) : KeyedList κ α := m.filter fun p => p.1 ≠ key

/-- The keys, in their order. -/
def keys (m : KeyedList κ α) : List κ := m.map Prod.fst

@[simp] theorem get?_set_self (key : κ) (value : α) (m : KeyedList κ α) :
    (m.set key value).get? key = some value := by
  induction m with
  | nil => simp [set, get?]
  | cons p rest ih =>
    obtain ⟨k, v⟩ := p
    by_cases h : k = key <;> simp [set, get?, h, ih]

theorem get?_set_of_ne {key other : κ} (h : key ≠ other) (value : α) (m : KeyedList κ α) :
    (m.set key value).get? other = m.get? other := by
  induction m with
  | nil => simp [set, get?, h]
  | cons p rest ih =>
    obtain ⟨k, v⟩ := p
    by_cases hk : k = key
    · subst hk
      simp [set, get?, h]
    · simp [set, get?, hk, ih]

theorem get?_set (key other : κ) (value : α) (m : KeyedList κ α) :
    (m.set key value).get? other = if other = key then some value else m.get? other := by
  by_cases h : other = key
  · rw [h, get?_set_self, if_pos rfl]
  · rw [get?_set_of_ne (Ne.symm h), if_neg h]

theorem get?_erase (key other : κ) (m : KeyedList κ α) :
    (m.erase key).get? other = if other = key then none else m.get? other := by
  induction m with
  | nil => simp [erase, get?]
  | cons p rest ih =>
    obtain ⟨k, v⟩ := p
    unfold erase at ih ⊢
    by_cases hk : k = key
    · rw [List.filter_cons_of_neg (by simpa using hk), ih, get?, hk]
      by_cases hother : other = key
      · rw [if_pos hother, if_pos hother]
      · rw [if_neg hother, if_neg hother, if_neg (Ne.symm hother)]
    · rw [List.filter_cons_of_pos (by simpa using hk), get?, get?, ih]
      by_cases hother : k = other
      · rw [if_pos hother, if_pos hother, if_neg (hother ▸ hk)]
      · rw [if_neg hother, if_neg hother]

theorem mem_of_get?_eq_some {key : κ} {value : α} {m : KeyedList κ α}
    (h : m.get? key = some value) : (key, value) ∈ m := by
  induction m with
  | nil => cases h
  | cons p rest ih =>
    obtain ⟨k, v⟩ := p
    rw [get?] at h
    split at h
    · next hk =>
      rw [hk, Option.some.inj h]
      exact List.mem_cons_self
    · exact List.mem_cons_of_mem _ (ih h)

theorem get?_eq_none {key : κ} {m : KeyedList κ α} (h : key ∉ m.keys) : m.get? key = none := by
  cases hget : m.get? key with
  | none => rfl
  | some value => exact absurd (List.mem_map.2 ⟨_, mem_of_get?_eq_some hget, rfl⟩) h

theorem get?_eq_some {key : κ} {value : α} {m : KeyedList κ α} (hkeys : m.keys.Nodup)
    (h : (key, value) ∈ m) : m.get? key = some value := by
  induction m with
  | nil => cases h
  | cons p rest ih =>
    obtain ⟨k, v⟩ := p
    obtain ⟨hnew, hrest⟩ := List.nodup_cons.1 hkeys
    rcases List.mem_cons.1 h with heq | h
    · obtain ⟨rfl, rfl⟩ := Prod.mk.inj heq
      exact if_pos rfl
    · have hne : k ≠ key := by
        rintro rfl
        exact hnew (List.mem_map.2 ⟨_, h, rfl⟩)
      rw [get?, if_neg hne, ih hrest h]

/-- What is in a list after a key was set. -/
theorem mem_of_mem_set {key : κ} {value : α} {m : KeyedList κ α} {p : κ × α}
    (h : p ∈ m.set key value) : p = (key, value) ∨ p ∈ m := by
  induction m with
  | nil => simpa [set] using h
  | cons q rest ih =>
    obtain ⟨k, v⟩ := q
    rw [set] at h
    split at h
    · rcases List.mem_cons.1 h with rfl | h
      · exact .inl rfl
      · exact .inr (List.mem_cons_of_mem _ h)
    · rcases List.mem_cons.1 h with rfl | h
      · exact .inr List.mem_cons_self
      · exact (ih h).imp_right (List.mem_cons_of_mem _)

/-- Setting a key adds it, unless it is there. -/
theorem keys_set (key : κ) (value : α) (m : KeyedList κ α) :
    (m.set key value).keys = if key ∈ m.keys then m.keys else m.keys ++ [key] := by
  induction m with
  | nil => simp [set, keys]
  | cons q rest ih =>
    obtain ⟨k, v⟩ := q
    by_cases hk : k = key
    · simp [set, keys, hk]
    · have hkey : ¬ key = k := fun h => hk h.symm
      simp only [keys] at ih
      by_cases hmem : key ∈ rest.map Prod.fst
      · simp [set, keys, hk, ih, hmem]
      · simp [set, keys, hk, hkey, ih, hmem]

/-- A new key goes to the end. -/
theorem set_of_not_mem {key : κ} {m : KeyedList κ α} (h : key ∉ m.keys) (value : α) :
    m.set key value = m ++ [(key, value)] := by
  induction m with
  | nil => rfl
  | cons q rest ih =>
    obtain ⟨k, v⟩ := q
    simp only [keys, List.map_cons, List.mem_cons, not_or] at h
    rw [set, if_neg (Ne.symm h.1), ih h.2, List.cons_append]

/-- Setting a key keeps the keys distinct. -/
theorem nodup_keys_set {key : κ} {value : α} {m : KeyedList κ α} (h : m.keys.Nodup) :
    (m.set key value).keys.Nodup := by
  rw [keys_set]
  split
  · exact h
  · next hkey =>
    refine List.nodup_append.2 ⟨h, by simp, fun a ha b hb hab => hkey ?_⟩
    rw [List.mem_singleton] at hb
    exact hb ▸ hab ▸ ha

end KeyedList

end BundleAudit
