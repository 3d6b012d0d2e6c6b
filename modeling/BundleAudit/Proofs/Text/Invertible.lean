import BundleAudit.Proofs.Text.Escape
import Mathlib.Data.List.Infix

/-!
# BundleAudit.Proofs.Text.Invertible

**Which texts escaping keeps.** Decoding what was escaped gives the text back just if it
holds no escape of its own and no surrogate pair (`decodeEscapes_encodeNonAscii_eq_self_iff`).
For an escape and a pair both make one code point of several, so a text that holds one of them
comes back shorter.
-/

namespace BundleAudit.Text

/-- No part of a text is an escape. -/
theorem hasEscape_eq_false_iff {t : Text} :
    hasEscape t = false ↔ ∀ v e, IsEscapeOf v e → ¬e <:+: t := by
  induction t with
  | nil =>
      refine iff_of_true rfl fun v e he hinfix => ?_
      have hlength := he.length
      rw [List.eq_nil_of_infix_nil hinfix] at hlength
      cases hlength
  | cons c rest ih =>
      have hbegins : beginsWithEscape (c :: rest) = false ↔
          ∀ v e, IsEscapeOf v e → ¬e <+: c :: rest := by
        rw [Bool.eq_false_iff, Ne, beginsWithEscape_iff]
        constructor
        · rintro hnone v e he ⟨more, heq⟩
          exact hnone ⟨v, e, more, heq.symm, he⟩
        · rintro hnone ⟨v, e, more, heq, he⟩
          exact hnone v e he ⟨more, heq.symm⟩
      rw [hasEscape, Bool.or_eq_false_iff, hbegins, ih]
      simp only [List.infix_cons_iff, not_or, imp_and, forall_and]

/-- No two neighbours in a text are a surrogate pair. -/
def PairFree (t : Text) : Prop :=
  ∀ a b : Code, a.isHighSurrogate = true → b.isLowSurrogate = true → ¬[a, b] <:+: t

theorem pairFree_cons_cons {c d : Code} {rest : Text} :
    PairFree (c :: d :: rest) ↔
      ¬(c.isHighSurrogate && d.isLowSurrogate) = true ∧ PairFree (d :: rest) := by
  rw [Bool.and_eq_true]
  constructor
  · intro h
    refine ⟨fun hpair => h c d hpair.1 hpair.2 (List.infix_append [] [c, d] rest), ?_⟩
    exact fun a b ha hb hinfix => h a b ha hb (List.infix_cons hinfix)
  · rintro ⟨hpair, hrest⟩ a b ha hb hinfix
    rcases List.infix_cons_iff.1 hinfix with hprefix | hinfix
    · obtain ⟨rfl, rfl, -⟩ : a = c ∧ b = d ∧ True := by simpa using hprefix
      exact hpair ⟨ha, hb⟩
    · exact hrest a b ha hb hinfix

/-- Joining leaves a text as it is just if there is no pair to join. -/
theorem joinPairs_eq_self_iff {t : Text} : joinPairs t = t ↔ PairFree t := by
  have hshort : ∀ {t : Text}, t.length ≤ 1 → PairFree t := fun hlength a b _ _ hinfix =>
    absurd hinfix.length_le (by simpa using Nat.lt_succ_of_le hlength)
  induction t using joinPairs.induct with
  | case1 => exact iff_of_true rfl (hshort (Nat.zero_le 1))
  | case2 c => exact iff_of_true rfl (hshort (Nat.le_refl 1))
  | case3 c d rest hpair ih =>
      rw [pairFree_cons_cons, joinPairs, if_pos hpair]
      refine iff_of_false (fun heq => ?_) (fun h => h.1 hpair)
      have hlength := congrArg List.length heq
      have hle := length_joinPairs_le rest
      simp only [List.length_cons] at hlength
      omega
  | case4 c d rest hpair ih =>
      have hrest : joinPairs (d :: rest) = d :: rest ↔ PairFree (d :: rest) := ih
      rw [pairFree_cons_cons, joinPairs_cons_cons hpair, List.cons.injEq, hrest]
      simp [hpair]

/-- A text that holds an escape is not what it stands for. -/
theorem joinPairs_unescape_eq_self_iff {t : Text} :
    joinPairs (unescape t) = t ↔ hasEscape t = false ∧ PairFree t := by
  cases hescape : hasEscape t with
  | false => simp [unescape_eq_self hescape, joinPairs_eq_self_iff]
  | true =>
      refine iff_of_false (fun heq => ?_) (by simp)
      have hlt := (length_unescape t).2 hescape
      have hle := length_joinPairs_le (unescape t)
      rw [heq] at hle
      exact absurd hlt (Nat.not_lt_of_le hle)

/-- **A text comes back** from escaping and decoding just if no part of it is an escape or a
surrogate pair. What was escaped is ASCII, so escaping it again changes nothing, and it is decoded
to what the text without surrogates itself is decoded to. -/
theorem decodeEscapes_encodeNonAscii_eq_self_iff {t : Text} (h : ∀ c ∈ t, c < 0x110000) :
    (decodeEscapes (encodeNonAscii t) = t ↔
        (∀ v e, IsEscapeOf v e → ¬e <:+: t) ∧ PairFree t) ∧
      (∀ c ∈ encodeNonAscii t, c < 0x80) ∧
      encodeNonAscii (encodeNonAscii t) = encodeNonAscii t ∧
      (t.all Code.isScalar = true → decodeEscapes (encodeNonAscii t) = decodeEscapes t) := by
  have hascii : ∀ c ∈ encodeNonAscii t, c < 0x80 := fun c => lt_of_mem_encodeNonAscii
  have hdecode := decodeEscapes_encodeNonAscii h
  refine ⟨?_, hascii, encodeNonAscii_eq_self hascii, fun hscalar => ?_⟩
  · rw [hdecode, joinPairs_unescape_eq_self_iff, hasEscape_eq_false_iff]
  · rw [hdecode, decodeEscapes_eq_joinPairs fun c hc =>
      isHighSurrogate_of_isScalar (List.all_eq_true.1 hscalar c hc)]

/-- A text that begins like an escape, and in which another code point stands between two
surrogates. -/
def strayText : Text := [0x5C, 0x75, 0x30, 0xE9, 0x1F600, 0xD83D, 0x41, 0xDE00]

theorem decodeEscapes_encodeNonAscii_strayText :
    (∀ c ∈ strayText, c < 0x110000) ∧
      encodeNonAscii strayText = "\\u0\\u00e9\\ud83d\\ude00\\ud83dA\\ude00" ∧
      decodeEscapes (encodeNonAscii strayText) = strayText ∧
      (∀ v e, IsEscapeOf v e → ¬e <:+: strayText) ∧ PairFree strayText := by
  have hrange : ∀ c ∈ strayText, c < 0x110000 := by decide
  have hback : decodeEscapes (encodeNonAscii strayText) = strayText := by decide
  exact ⟨hrange, by decide, hback, (decodeEscapes_encodeNonAscii_eq_self_iff hrange).1.1 hback⟩

end BundleAudit.Text
