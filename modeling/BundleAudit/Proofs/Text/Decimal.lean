import BundleAudit.Proofs.Text.Blank
import BundleAudit.Text.Decimal

/-!
# BundleAudit.Proofs.Text.Decimal

**Decimals as text.** What is written for a number is a decimal that denotes it
(`isDecimal_ofNat`, `decimalValue_ofNat`). A decimal is read as the number that it denotes,
unless it has more digits than are read (`IsDecimal.toInt?`).
-/

namespace BundleAudit.Text

/-! ### Writing -/

theorem isAsciiDigit_ofNat (n : Nat) : ∀ c ∈ ofNat n, Code.isAsciiDigit c = true := by
  induction n using Nat.strongRecOn with
  | ind n ih =>
      have hdigit : ∀ d < 10, Code.isAsciiDigit (0x30 + d) = true := by decide
      rw [ofNat]
      split
      · next hlt => exact List.forall_mem_singleton.2 (hdigit n hlt)
      · refine fun c hc => (List.mem_append.1 hc).elim (ih (n / 10) (by omega) c) fun hc => ?_
        rw [List.mem_singleton.1 hc]
        exact hdigit _ (Nat.mod_lt _ (by decide))

theorem ofNat_ne_nil (n : Nat) : ofNat n ≠ [] := by
  rw [ofNat]
  split <;> simp

/-- A whole number begins with a minus sign or a digit. -/
theorem exists_ofInt_eq_cons (n : Int) :
    ∃ (c : Nat) (more : Text), ofInt n = c :: more ∧ 0x2D ≤ c ∧ c ≤ 0x39 := by
  cases n with
  | negSucc n => exact ⟨_, _, rfl, by decide⟩
  | ofNat n =>
      obtain ⟨c, more, hcons⟩ := List.exists_cons_of_ne_nil (ofNat_ne_nil n)
      have hdigit : 0x30 ≤ c ∧ c ≤ 0x39 :=
        of_decide_eq_true (isAsciiDigit_ofNat n c (hcons ▸ List.mem_cons_self))
      exact ⟨c, more, hcons, Nat.le_trans (by decide) hdigit.1, hdigit.2⟩

theorem foldl_ofNat (n : Nat) : (ofNat n).foldl (fun m c => 10 * m + (c - 0x30)) 0 = n := by
  induction n using Nat.strongRecOn with
  | ind n ih =>
      rw [ofNat]
      split
      · simp
      · rw [List.foldl_append, ih (n / 10) (by omega)]
        simp
        omega

/-! ### Decimals -/

/-- A number in decimal: digits, with or without zeros in front. -/
structure IsDecimal (t : Text) : Prop where
  ne_nil : t ≠ []
  isAsciiDigit : ∀ c ∈ t, Code.isAsciiDigit c = true

/-- The number that a decimal denotes. -/
def decimalValue (t : Text) : Nat := t.foldl (fun n c => 10 * n + (c - 0x30)) 0

theorem isDecimal_ofNat (n : Nat) : (ofNat n).IsDecimal := ⟨ofNat_ne_nil n, isAsciiDigit_ofNat n⟩

@[simp] theorem decimalValue_ofNat (n : Nat) : (ofNat n).decimalValue = n := foldl_ofNat n

/-- A digit is no blank, no line boundary, no sign, no backslash and no surrogate. -/
theorem of_isAsciiDigit {c : Code} (h : c.isAsciiDigit = true) :
    c.isBlank = false ∧ c.isLineBoundary = false ∧ c.isScalar = true ∧
      c ≠ Code.minus ∧ c ≠ Code.plus ∧ c ≠ Code.underscore ∧ c ≠ Code.backslash := by
  have hall : ∀ c < 0x80, Code.isAsciiDigit c = true →
      Code.isBlank c = false ∧ Code.isLineBoundary c = false ∧ Code.isScalar c = true ∧
        c ≠ Code.minus ∧ c ≠ Code.plus ∧ c ≠ Code.underscore ∧ c ≠ Code.backslash := by decide
  have hle : 0x30 ≤ c ∧ c ≤ 0x39 := of_decide_eq_true h
  exact hall c (Nat.lt_of_le_of_lt hle.2 (by decide)) h

namespace IsDecimal

variable {t : Text}

theorem dropWhile_eq_self {p : Code → Bool} (h : t.IsDecimal)
    (hp : ∀ c, c.isBlank = false → p c = false) : t.dropWhile p = t := by
  obtain ⟨c, rest, rfl⟩ := List.exists_cons_of_ne_nil h.ne_nil
  obtain ⟨hblank, -⟩ := of_isAsciiDigit (h.isAsciiDigit c List.mem_cons_self)
  exact List.dropWhile_cons_of_neg (by simp [hp c hblank])

theorem dropTrailing_eq_self {p : Code → Bool} (h : t.IsDecimal)
    (hp : ∀ c, c.isBlank = false → p c = false) : dropTrailing p t = t :=
  Text.dropTrailing_eq_self fun c hc => hp c (of_isAsciiDigit (h.isAsciiDigit c hc)).1

theorem trim (h : t.IsDecimal) : t.trim = t := by
  rw [Text.trim, trimLeft, h.dropWhile_eq_self fun c hc => hc]
  exact h.dropTrailing_eq_self fun c hc => hc

/-- A line that ends in a decimal ends there. -/
theorem isWhole (h : t.IsDecimal) : t.isWhole = true := by
  have hright : t.trimRight = t := h.dropTrailing_eq_self fun c hc => hc
  have hlast : t.dropLast ++ [t.getLast h.ne_nil] = t := List.dropLast_concat_getLast h.ne_nil
  obtain ⟨-, -, -, -, -, -, hslash⟩ :=
    of_isAsciiDigit (h.isAsciiDigit _ (List.getLast_mem h.ne_nil))
  refine isWhole_iff.2 ⟨List.all_eq_true.2 fun d hd => ?_, hright, ?_⟩
  · simp [(of_isAsciiDigit (h.isAsciiDigit d hd)).2.1]
  · rw [continues, hright, ← hlast, trailingBackslashes_concat, if_neg hslash]
    rfl

theorem isScalar (h : t.IsDecimal) : t.all Code.isScalar = true :=
  List.all_eq_true.2 fun c hc => (of_isAsciiDigit (h.isAsciiDigit c hc)).2.2.1

/-! ### Reading -/

theorem digitValue? {c : Code} (h : c.isAsciiDigit = true) : c.digitValue? = some (c - 0x30) := by
  have hle : 0x30 ≤ c ∧ c ≤ 0x39 := of_decide_eq_true h
  rw [Code.digitValue?, if_pos (Nat.lt_of_le_of_lt hle.2 (by decide)), if_pos h]

theorem digits? (h : t.IsDecimal) : Text.digits? t = some (t.map fun c => c - 0x30) := by
  obtain ⟨hne, hdigits⟩ := h
  fun_induction Text.digits? t with
  | case1 => exact absurd rfl hne
  | case2 c => simp [digitValue? (hdigits c List.mem_cons_self)]
  | case3 c rest ih =>
      obtain ⟨-, -, -, -, -, hunderscore, -⟩ := of_isAsciiDigit (hdigits Code.underscore (by simp))
      exact absurd rfl hunderscore
  | case4 c rest hone hunderscore ih =>
      obtain ⟨hc, hrest⟩ := List.forall_mem_cons.1 hdigits
      have hmore := ih (fun hnil => hone hnil) hrest
      simp [digitValue? hc, hmore]

theorem toNat? (h : t.IsDecimal) :
    t.toNat? = if t.length ≤ maxDigits then some t.decimalValue else none := by
  have hvalue : (t.map fun c => c - 0x30).foldl (fun n d => 10 * n + d) 0 = t.decimalValue :=
    List.foldl_map
  rw [Text.toNat?, h.digits?]
  change (guard ((t.map fun c => c - 0x30).length ≤ maxDigits) : Option Unit).bind (fun _ =>
    some ((t.map fun c => c - 0x30).foldl (fun n d => 10 * n + d) 0)) = _
  rw [hvalue, List.length_map]
  by_cases hlength : t.length ≤ maxDigits
  · have hguard : (guard (t.length ≤ maxDigits) : Option Unit) = some () := if_pos hlength
    rw [hguard, if_pos hlength, Option.bind_some]
  · have hguard : (guard (t.length ≤ maxDigits) : Option Unit) = none := if_neg hlength
    rw [hguard, if_neg hlength, Option.bind_none]

/-- **A decimal is read as the number that it denotes,** if it has no more digits than are read. -/
theorem toInt? (h : t.IsDecimal) :
    t.toInt? = if t.length ≤ maxDigits then some (t.decimalValue : Int) else none := by
  have hblank : ∀ c : Code, c.isBlank = false → isNumberBlank c = false := by
    intro c hc
    simp [isNumberBlank, hc]
  have hbare : t.toInt? = t.toNat?.map Int.ofNat := by
    rw [Text.toInt?, h.dropWhile_eq_self hblank, h.dropTrailing_eq_self hblank]
    obtain ⟨c, rest, rfl⟩ := List.exists_cons_of_ne_nil h.ne_nil
    obtain ⟨-, -, -, hminus, hplus, -⟩ := of_isAsciiDigit (h.isAsciiDigit c List.mem_cons_self)
    split
    · next heq => exact absurd (List.cons.inj heq).1 hminus
    · next heq => exact absurd (List.cons.inj heq).1 hplus
    · rfl
  rw [hbare, h.toNat?]
  split <;> rfl

end IsDecimal

end BundleAudit.Text
