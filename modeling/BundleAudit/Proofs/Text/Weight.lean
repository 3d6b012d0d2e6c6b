import BundleAudit.Proofs.Text.Escape

/-!
# BundleAudit.Proofs.Text.Weight

**The weight of a text** is the number of characters it has once it is escaped.
Escaping keeps it, decoding makes it no greater, and leaving characters out makes it
smaller (`weight_of_sublist`). It is what a catalog cannot gain while it is read.
-/

namespace BundleAudit.Text

/-- The number of characters of an escaped text. -/
def weight (t : Text) : Nat := (encodeNonAscii t).length

theorem weight_append (a b : Text) : weight (a ++ b) = weight a + weight b := by
  rw [weight, encodeNonAscii_append, List.length_append, weight, weight]

theorem weight_cons (c : Code) (rest : Text) : weight (c :: rest) = weight [c] + weight rest :=
  weight_append [c] rest

/-- Escaping keeps the weight. -/
theorem weight_encodeNonAscii (t : Text) : weight (encodeNonAscii t) = weight t := by
  rw [weight, encodeNonAscii_eq_self fun _ hc => lt_of_mem_encodeNonAscii hc, weight]

/-! ### Code points -/

theorem length_hex (count n : Nat) : (hex count n).length = count := by
  induction count generalizing n with
  | zero => rfl
  | succ count ih => rw [hex, List.length_append, ih, List.length_singleton]

theorem weight_singleton (c : Nat) :
    weight [c] = if c < 0x80 then 1 else if c ≤ 0xFFFF then 6 else 12 := by
  have hmark : escapeMark.length = 2 := rfl
  have hcode : weight [c] = (escapeCode c).length := by
    rw [weight, encodeNonAscii_cons, List.length_append]
    rfl
  rw [hcode, escapeCode]
  split
  · rfl
  · split
    · rw [List.length_append, hmark, length_hex]
    · simp only [List.length_append, hmark, length_hex]

theorem weight_singleton_pos (c : Code) : 1 ≤ weight [c] := by
  rw [weight_singleton]
  split
  · exact Nat.le_refl _
  · split <;> decide

theorem weight_singleton_le {c : Nat} (h : c ≤ 0xFFFF) : weight [c] ≤ 6 := by
  rw [weight_singleton, if_pos h]
  split <;> decide

theorem weight_singleton_le_twelve (c : Code) : weight [c] ≤ 12 := by
  rw [weight_singleton]
  split
  · decide
  · split <;> decide

/-! ### Leaving out -/

/-- Each character that is left out makes a text lighter. -/
theorem weight_of_sublist {a b : Text} (h : a.Sublist b) :
    weight a + b.length ≤ weight b + a.length := by
  induction h with
  | slnil => exact Nat.le_refl _
  | @cons a b c hab ih =>
      -- the character that is left out has a weight, too
      have hpos := weight_singleton_pos c
      have hweight := weight_cons c b
      rw [List.length_cons]
      omega
  | @cons_cons a b c hab ih =>
      have hweight := weight_cons c a
      have hweight' := weight_cons c b
      rw [List.length_cons, List.length_cons]
      omega

theorem weight_le_of_sublist {a b : Text} (h : a.Sublist b) : weight a ≤ weight b := by
  have hweight := weight_of_sublist h
  have hlength := h.length_le
  omega

theorem weight_lt_of_sublist {a b : Text} (h : a.Sublist b) (hne : a ≠ b) :
    weight a < weight b := by
  have hweight := weight_of_sublist h
  have hlength := h.length_le
  have hne : a.length ≠ b.length := fun heq => hne (h.eq_of_length heq)
  omega

/-! ### Decoding -/

theorem length_le_weight (t : Text) : t.length ≤ weight t := by
  have hweight := weight_of_sublist (List.nil_sublist t)
  have hnil : weight [] = 0 := rfl
  simpa [hnil] using hweight

theorem weight_unescape_le (t : Text) : weight (unescape t) ≤ weight t := by
  induction t using escape_induction with
  | nil => exact Nat.le_refl _
  | escape v e rest he ih =>
      have hv := weight_singleton_le he.le
      have hlength := length_le_weight e
      have hweight := weight_cons v (unescape rest)
      rw [he.length] at hlength
      rw [unescape_append he, weight_append]
      omega
  | cons c rest hc ih =>
      have hweight := weight_cons c rest
      have hweight' := weight_cons c (unescape rest)
      rw [unescape_cons hc]
      omega

theorem weight_joinPairs_le (t : Text) : weight (joinPairs t) ≤ weight t := by
  induction t using joinPairs.induct with
  | case1 => exact Nat.le_refl _
  | case2 c => exact Nat.le_refl _
  | case3 c d rest hpair ih =>
      -- two escapes of surrogates make way for one code point, which is escaped by two
      have hc := weight_singleton c
      have hd := weight_singleton d
      have hjoined := weight_singleton_le_twelve (Code.ofSurrogates c d)
      have hweight := weight_cons c (d :: rest)
      have hweight' := weight_cons d rest
      have hweight'' := weight_cons (Code.ofSurrogates c d) (joinPairs rest)
      rw [joinPairs, if_pos hpair]
      rw [Bool.and_eq_true] at hpair
      have hhigh : 0xD800 ≤ c ∧ c ≤ 0xDBFF := of_decide_eq_true hpair.1
      have hlow : 0xDC00 ≤ d ∧ d ≤ 0xDFFF := of_decide_eq_true hpair.2
      rw [if_neg (by unfold Code at *; omega), if_pos (by unfold Code at *; omega)] at hc hd
      omega
  | case4 c d rest hpair ih =>
      have hweight := weight_cons c (d :: rest)
      have hweight' := weight_cons c (joinPairs (d :: rest))
      rw [joinPairs, if_neg hpair]
      omega

/-- Decoding makes no text heavier. -/
theorem weight_decodeEscapes_le (t : Text) : weight (decodeEscapes t) ≤ weight t := by
  unfold decodeEscapes
  split
  · exact Nat.le_trans (weight_joinPairs_le _) (weight_unescape_le t)
  · exact Nat.le_refl _

end BundleAudit.Text
