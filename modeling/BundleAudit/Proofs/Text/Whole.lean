import BundleAudit.Proofs.Text.Blank
import BundleAudit.Proofs.Text.Escape
import Mathlib.Data.List.Induction

/-!
# BundleAudit.Proofs.Text.Whole

**Escaped texts that are read as one whole line.** An escape is a backslash with letters
and digits behind it, so it brings no blank, no line boundary and no backslash at the
end of a line. Whether an escaped text is read as it was written is decided by the ASCII
in it (`isWhole_encodeNonAscii_iff`).
-/

namespace BundleAudit

theorem Code.isBlank_of_isLineBoundary {c : Nat} (h : Code.isLineBoundary c = true) :
    Code.isBlank c = true := by
  unfold Code.isLineBoundary at h
  unfold Code.isBlank
  simp only [Bool.or_eq_true, decide_eq_true_eq, beq_iff_eq] at h ⊢
  unfold Code at h ⊢
  omega

theorem Code.of_hexValue? {c : Code} {v : Nat} (h : c.hexValue? = some v) :
    c.isBlank = false ∧ c ≠ Code.backslash := by
  have hall : ∀ c < 0x80, (Code.hexValue? c).isSome = true →
      Code.isBlank c = false ∧ c ≠ Code.backslash := by decide
  exact hall c (Code.lt_of_hexValue? h).2 (Option.isSome_iff_exists.2 ⟨v, h⟩)

namespace Text

variable {t : Text} {c : Code}

/-! ### Escapes -/

/-- The characters of an escape are no blanks, and the last one is no backslash. -/
theorem IsEscapeOf.noBlank {v : Nat} {e : Text} (h : IsEscapeOf v e) :
    (∀ k ∈ e, k.isBlank = false) ∧ ∃ before d, e = before ++ [d] ∧ d ≠ Code.backslash := by
  obtain ⟨ha, hb, hc, hd⟩ := h
  constructor
  · simp only [List.forall_mem_cons]
    exact ⟨rfl, rfl, (Code.of_hexValue? ha).1, (Code.of_hexValue? hb).1, (Code.of_hexValue? hc).1,
      (Code.of_hexValue? hd).1, nofun⟩
  · exact ⟨[_, _, _, _, _], _, rfl, (Code.of_hexValue? hd).2⟩

theorem escapeCode_noBlank (h : ¬c < 0x80) (hc : c < 0x110000) :
    (∀ k ∈ escapeCode c, k.isBlank = false) ∧
      ∃ before d, escapeCode c = before ++ [d] ∧ d ≠ Code.backslash := by
  rcases escapeCode_cases c with ⟨hascii, -⟩ | ⟨e, -, -, heq, he⟩ | ⟨-, a, b, heq, hab⟩
  · exact absurd hascii h
  · exact heq ▸ he.noBlank
  · obtain ⟨ha, hb⟩ := hab hc
    obtain ⟨before, d, hlast, hd⟩ := hb.noBlank.2
    refine heq ▸ ⟨List.forall_mem_append.2 ⟨ha.noBlank.1, hb.noBlank.1⟩, a ++ before, d, ?_, hd⟩
    rw [hlast, List.append_assoc]

/-! ### Line boundaries -/

theorem isLine_encodeNonAscii_iff (ht : ∀ c ∈ t, c < 0x110000) :
    t.encodeNonAscii.isLine = true ↔ ∀ c ∈ t, c < 0x80 → c.isLineBoundary = false := by
  rw [isLine, encodeNonAscii, List.all_flatMap, List.all_eq_true]
  refine forall₂_congr fun c hc => ?_
  by_cases hascii : c < 0x80
  · simp [escapeCode_of_ascii hascii, hascii]
  · refine iff_of_true (List.all_eq_true.2 fun k hk => ?_) fun h => absurd h hascii
    rw [Bool.not_eq_true', Bool.eq_false_iff]
    intro hboundary
    have hblank := (escapeCode_noBlank hascii (ht c hc)).1 k hk
    rw [Code.isBlank_of_isLineBoundary hboundary] at hblank
    cases hblank

/-! ### Ends -/

theorem trimRight_concat_eq_self_iff (before : Text) (c : Code) :
    (before ++ [c]).trimRight = before ++ [c] ↔ c.isBlank = false := by
  constructor
  · intro h
    have hlast := List.head?_dropWhile_not Code.isBlank (before ++ [c]).reverse
    have hreverse := congrArg List.reverse h
    rw [trimRight, dropTrailing, List.reverse_reverse] at hreverse
    rw [hreverse, List.reverse_append] at hlast
    exact hlast
  · intro h
    exact dropTrailing_append_cons h before []

/-- A text that ends in no blank is not trimmed there. -/
theorem trimRight_eq_self (h : ∀ c ∈ t.getLast?, c.isBlank = false) : t.trimRight = t := by
  induction t using List.reverseRecOn with
  | nil => rfl
  | append_singleton before c _ =>
      exact (trimRight_concat_eq_self_iff before c).2 (h c List.getLast?_concat)

/-- As many backslashes stand at the end of the escaped text. -/
theorem trailingBackslashes_encodeNonAscii (ht : ∀ c ∈ t, c < 0x110000) :
    trailingBackslashes t.encodeNonAscii = trailingBackslashes t := by
  induction t using List.reverseRecOn with
  | nil => rfl
  | append_singleton before c ih =>
      obtain ⟨hbefore, hc⟩ := List.forall_mem_append.1 ht
      have hone : encodeNonAscii [c] = escapeCode c := List.flatMap_singleton ..
      rw [encodeNonAscii_append, hone, trailingBackslashes_concat]
      by_cases hascii : c < 0x80
      · rw [escapeCode_of_ascii hascii, trailingBackslashes_concat, ih hbefore]
      · obtain ⟨-, more, d, hlast, hd⟩ := escapeCode_noBlank hascii (hc c List.mem_cons_self)
        have hne : c ≠ Code.backslash := by
          rintro rfl
          exact hascii (by decide)
        rw [hlast, ← List.append_assoc, trailingBackslashes_concat, if_neg hd, if_neg hne]

theorem trimRight_encodeNonAscii_iff (ht : ∀ c ∈ t, c < 0x110000) :
    t.encodeNonAscii.trimRight = t.encodeNonAscii ↔
      ∀ c ∈ t.getLast?, c < 0x80 → c.isBlank = false := by
  induction t using List.reverseRecOn with
  | nil => exact iff_of_true rfl nofun
  | append_singleton before c _ =>
      have hone : encodeNonAscii [c] = escapeCode c := List.flatMap_singleton ..
      rw [encodeNonAscii_append, hone, List.getLast?_concat]
      by_cases hascii : c < 0x80
      · simp [escapeCode_of_ascii hascii, trimRight_concat_eq_self_iff, hascii]
      · obtain ⟨hblank, more, d, hlast, -⟩ :=
          escapeCode_noBlank hascii (ht c (List.mem_append_right _ List.mem_cons_self))
        have hd : d.isBlank = false := hblank d (hlast ▸ List.mem_append_right _ List.mem_cons_self)
        rw [hlast, ← List.append_assoc, trimRight_concat_eq_self_iff]
        refine iff_of_true hd fun k hk => ?_
        obtain rfl := Option.some.inj hk
        exact fun h => absurd h hascii

/-- **An escaped text is read as one whole line** just if its ASCII lets it: there is no line
boundary in it, no blank at its end, and no odd number of backslashes. -/
theorem isWhole_encodeNonAscii_iff (ht : ∀ c ∈ t, c < 0x110000) :
    t.encodeNonAscii.isWhole = true ↔
      (∀ c ∈ t, c < 0x80 → c.isLineBoundary = false) ∧
        (∀ c ∈ t.getLast?, c < 0x80 → c.isBlank = false) ∧ trailingBackslashes t % 2 = 0 := by
  rw [isWhole_iff, isLine_encodeNonAscii_iff ht, trimRight_encodeNonAscii_iff ht]
  refine and_congr_right fun _ => and_congr_right fun hlast => ?_
  rw [continues, (trimRight_encodeNonAscii_iff ht).2 hlast, trailingBackslashes_encodeNonAscii ht,
    beq_eq_false_iff_ne]
  omega

end Text

end BundleAudit
