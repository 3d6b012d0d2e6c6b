import BundleAudit.Proofs.Text.Utf8
import BundleAudit.Text.Escape

/-!
# BundleAudit.Proofs.Text.Escape

**Escapes that are written are read back, and nothing gets longer by reading.** A text
is either empty, or begins with an escape, or begins with a code point that stands for
itself (`escape_induction`); all facts about unescaping follow these three cases.

Unescaping what was escaped gives what unescaping alone gives
(`decodeEscapes_encodeNonAscii`): escaping never completes an escape that was not
there. So the text comes back just if it held no escape.
-/

namespace BundleAudit

theorem Code.hexValue?_hexDigit : ∀ n < 16, Code.hexValue? (Code.hexDigit n) = some n := by
  decide

theorem Code.lt_of_hexValue? {c : Nat} {v : Nat} (h : Code.hexValue? c = some v) :
    v < 16 ∧ c < 0x80 := by
  simp only [Code.hexValue?, Code.isAsciiDigit, decide_eq_true_eq] at h
  unfold Code at h
  split at h
  · next hc => rw [← Option.some.inj h]; omega
  · split at h
    · next hc => rw [← Option.some.inj h]; omega
    · split at h
      · next hc => rw [← Option.some.inj h]; omega
      · cases h

namespace Text

/-! ### Escapes -/

/-- A text is the escape of a code point. -/
inductive IsEscapeOf : Code → Text → Prop
  | mk {a b c d w x y z : Nat} (ha : Code.hexValue? a = some w) (hb : Code.hexValue? b = some x)
      (hc : Code.hexValue? c = some y) (hd : Code.hexValue? d = some z) :
      IsEscapeOf (((w * 16 + x) * 16 + y) * 16 + z) [Code.backslash, 0x75, a, b, c, d]

/-- Whether a text begins with an escape. -/
def beginsWithEscape : Text → Bool
  | Code.backslash :: 0x75 :: a :: b :: c :: d :: _ =>
    a.hexValue?.isSome && b.hexValue?.isSome && c.hexValue?.isSome && d.hexValue?.isSome
  | _ => false

/-- Whether an escape stands somewhere in a text. -/
def hasEscape : Text → Bool
  | [] => false
  | c :: rest => beginsWithEscape (c :: rest) || hasEscape rest

theorem isEscapeOf_hex {n : Nat} (h : n ≤ 0xFFFF) : IsEscapeOf n (escapeMark ++ hex 4 n) := by
  have hvalue : ((n / 16 / 16 / 16 % 16 * 16 + n / 16 / 16 % 16) * 16 + n / 16 % 16) * 16 + n % 16 =
      n := by
    omega
  have hescape := IsEscapeOf.mk
    (Code.hexValue?_hexDigit (n / 16 / 16 / 16 % 16) (Nat.mod_lt _ (by decide)))
    (Code.hexValue?_hexDigit (n / 16 / 16 % 16) (Nat.mod_lt _ (by decide)))
    (Code.hexValue?_hexDigit (n / 16 % 16) (Nat.mod_lt _ (by decide)))
    (Code.hexValue?_hexDigit (n % 16) (Nat.mod_lt _ (by decide)))
  rw [hvalue] at hescape
  exact hescape

theorem IsEscapeOf.le {v : Nat} {e : Text} (h : IsEscapeOf v e) : v ≤ 0xFFFF := by
  obtain ⟨ha, hb, hc, hd⟩ := h
  have ha := Code.lt_of_hexValue? ha
  have hb := Code.lt_of_hexValue? hb
  have hc := Code.lt_of_hexValue? hc
  have hd := Code.lt_of_hexValue? hd
  omega

theorem IsEscapeOf.length {v : Nat} {e : Text} (h : IsEscapeOf v e) : e.length = 6 := by
  cases h
  rfl

theorem IsEscapeOf.ascii {v : Nat} {e : Text} (h : IsEscapeOf v e) : ∀ c ∈ e, c < 0x80 := by
  obtain ⟨ha, hb, hc, hd⟩ := h
  have ha := (Code.lt_of_hexValue? ha).2
  have hb := (Code.lt_of_hexValue? hb).2
  have hc := (Code.lt_of_hexValue? hc).2
  have hd := (Code.lt_of_hexValue? hd).2
  intro k hk
  simp only [List.mem_cons, List.not_mem_nil, or_false] at hk
  rcases hk with rfl | rfl | rfl | rfl | rfl | rfl
  · decide
  · decide
  · exact ha
  · exact hb
  · exact hc
  · exact hd

theorem beginsWithEscape_iff {t : Text} :
    beginsWithEscape t = true ↔ ∃ v e rest, t = e ++ rest ∧ IsEscapeOf v e := by
  constructor
  · intro h
    unfold beginsWithEscape at h
    split at h
    · next a b c d rest =>
        simp only [Bool.and_eq_true, Option.isSome_iff_exists] at h
        obtain ⟨⟨⟨⟨w, ha⟩, ⟨x, hb⟩⟩, ⟨y, hc⟩⟩, ⟨z, hd⟩⟩ := h
        exact ⟨_, _, rest, rfl, .mk ha hb hc hd⟩
    · cases h
  · rintro ⟨v, e, rest, rfl, ha, hb, hc, hd⟩
    simp [beginsWithEscape, ha, hb, hc, hd]

theorem hasEscape_append {v : Code} {e : Text} (h : IsEscapeOf v e) (rest : Text) :
    hasEscape (e ++ rest) = true := by
  have hbegins := beginsWithEscape_iff.2 ⟨v, e, rest, rfl, h⟩
  cases h
  rw [List.cons_append, hasEscape, Bool.or_eq_true]
  exact .inl hbegins

/-- What holds of the empty text, of a text behind an escape, and of a text behind a code point with
which no escape begins, holds of every text. -/
theorem escape_induction {motive : Text → Prop} (nil : motive [])
    (escape : ∀ v e rest, IsEscapeOf v e → motive rest → motive (e ++ rest))
    (cons : ∀ c rest, beginsWithEscape (c :: rest) = false → motive rest → motive (c :: rest))
    (t : Text) : motive t := by
  induction hlength : t.length using Nat.strongRecOn generalizing t with
  | ind n ih =>
      cases t with
      | nil => exact nil
      | cons c rest =>
          cases hbegins : beginsWithEscape (c :: rest) with
          | false =>
              exact cons c rest hbegins (ih _ (by rw [← hlength]; exact Nat.lt_succ_self _) _ rfl)
          | true =>
              obtain ⟨v, e, more, heq, hescape⟩ := beginsWithEscape_iff.1 hbegins
              rw [heq] at hlength ⊢
              refine escape v e more hescape (ih more.length ?_ more rfl)
              rw [← hlength, List.length_append, hescape.length]
              omega

/-! ### Unescaping -/

theorem unescape_append {v : Code} {e : Text} (h : IsEscapeOf v e) (rest : Text) :
    unescape (e ++ rest) = v :: unescape rest := by
  obtain ⟨ha, hb, hc, hd⟩ := h
  simp [unescape, ha, hb, hc, hd]

theorem unescape_cons {c : Code} {rest : Text} (h : beginsWithEscape (c :: rest) = false) :
    unescape (c :: rest) = c :: unescape rest := by
  unfold beginsWithEscape at h
  split at h
  · next a b c d more heq =>
      cases heq
      rw [unescape]
      split
      · next ha hb hc hd => simp [ha, hb, hc, hd] at h
      · rfl
  · next hne =>
      rw [unescape]
      rintro a b c' d more rfl rfl
      exact hne a b c' d more rfl

theorem hasEscape_cons {c : Code} {rest : Text} (h : beginsWithEscape (c :: rest) = false) :
    hasEscape (c :: rest) = hasEscape rest := by
  rw [hasEscape, h, Bool.false_or]

/-- Without escapes a text stands for itself. -/
theorem unescape_eq_self {t : Text} (h : hasEscape t = false) : unescape t = t := by
  induction t using escape_induction with
  | nil => rfl
  | escape v e rest he ih =>
      rw [hasEscape_append he] at h
      cases h
  | cons c rest hc ih =>
      rw [hasEscape_cons hc] at h
      rw [unescape_cons hc, ih h]

/-- Unescaping makes a text shorter, unless there is no escape. -/
theorem length_unescape (t : Text) :
    (unescape t).length ≤ t.length ∧ (hasEscape t = true → (unescape t).length < t.length) := by
  induction t using escape_induction with
  | nil => exact ⟨Nat.le_refl _, nofun⟩
  | escape v e rest he ih =>
      rw [unescape_append he, List.length_cons, List.length_append, he.length]
      omega
  | cons c rest hc ih =>
      rw [unescape_cons hc, hasEscape_cons hc, List.length_cons, List.length_cons]
      exact ⟨Nat.succ_le_succ ih.1, fun h => Nat.succ_lt_succ (ih.2 h)⟩

/-! ### Surrogate pairs -/

theorem ofSurrogates_bounds {a b : Nat} (ha : Code.isHighSurrogate a = true)
    (hb : Code.isLowSurrogate b = true) :
    0xFFFF < Code.ofSurrogates a b ∧ Code.ofSurrogates a b < 0x110000 := by
  unfold Code.isHighSurrogate at ha
  unfold Code.isLowSurrogate at hb
  have ha : 0xD800 ≤ a ∧ a ≤ 0xDBFF := of_decide_eq_true ha
  have hb : 0xDC00 ≤ b ∧ b ≤ 0xDFFF := of_decide_eq_true hb
  unfold Code.ofSurrogates Code
  exact ⟨by omega, by omega⟩

/-- The first half of the surrogate pair of a code point above `0xFFFF`. -/
def highHalf (c : Nat) : Nat := 0xD800 + (c - 0x10000) / 0x400

/-- The second half of the surrogate pair of a code point above `0xFFFF`. -/
def lowHalf (c : Nat) : Nat := 0xDC00 + (c - 0x10000) % 0x400

/-- The surrogate pair of a code point above `0xFFFF`; another code point as it is. -/
def splitCode (c : Code) : Text := if c ≤ 0xFFFF then [c] else [highHalf c, lowHalf c]

/-- A text with surrogate pairs in place of what is above `0xFFFF`. -/
def splitPairs (t : Text) : Text := t.flatMap splitCode

theorem joinPairs_cons_of_not_high {c : Nat} (h : Code.isHighSurrogate c = false) (rest : Text) :
    joinPairs (c :: rest) = c :: joinPairs rest := by
  cases rest with
  | nil => rfl
  | cons d more => rw [joinPairs, h, Bool.false_and, if_neg Bool.false_ne_true]

theorem joinPairs_eq_self {t : Text} (h : ∀ c ∈ t, Code.isHighSurrogate c = false) :
    joinPairs t = t := by
  induction t with
  | nil => rfl
  | cons c rest ih =>
      obtain ⟨hc, hrest⟩ := List.forall_mem_cons.1 h
      rw [joinPairs_cons_of_not_high hc, ih hrest]

theorem length_joinPairs_le (t : Text) : (joinPairs t).length ≤ t.length := by
  induction t using joinPairs.induct with
  | case1 => exact Nat.le_refl _
  | case2 c => exact Nat.le_refl _
  | case3 c d rest h ih =>
      rw [joinPairs, if_pos h]
      simp only [List.length_cons]
      omega
  | case4 c d rest h ih =>
      rw [joinPairs, if_neg h]
      simp only [List.length_cons] at ih ⊢
      omega

theorem joinPairs_cons_cons {c d : Code} (h : ¬(c.isHighSurrogate && d.isLowSurrogate) = true)
    (rest : Text) : joinPairs (c :: d :: rest) = c :: joinPairs (d :: rest) := by
  rw [joinPairs, if_neg h]

theorem joinPairs_pair {a b : Code} (ha : a.isHighSurrogate = true) (hb : b.isLowSurrogate = true)
    (rest : Text) : joinPairs (a :: b :: rest) = Code.ofSurrogates a b :: joinPairs rest := by
  rw [joinPairs, ha, hb]
  rfl

theorem halves {c : Nat} (h : ¬c ≤ 0xFFFF) (hc : c < 0x110000) :
    Code.isHighSurrogate (highHalf c) = true ∧ Code.isLowSurrogate (highHalf c) = false ∧
      Code.isLowSurrogate (lowHalf c) = true ∧ Code.ofSurrogates (highHalf c) (lowHalf c) = c := by
  have hhigh : 0xD800 ≤ highHalf c ∧ highHalf c ≤ 0xDBFF := by
    unfold highHalf
    omega
  have hnot : ¬(0xDC00 ≤ highHalf c ∧ highHalf c ≤ 0xDFFF) := by omega
  have hlow : 0xDC00 ≤ lowHalf c ∧ lowHalf c ≤ 0xDFFF := by
    unfold lowHalf
    omega
  have hjoin : 0x10000 + (highHalf c - 0xD800) * 0x400 + (lowHalf c - 0xDC00) = c := by
    unfold highHalf lowHalf
    omega
  exact ⟨decide_eq_true hhigh, decide_eq_false hnot, decide_eq_true hlow, hjoin⟩

/-- Joining pairs does not depend on whether they were split before. -/
theorem joinPairs_splitPairs {t : Text} (h : ∀ c ∈ t, c < 0x110000) :
    joinPairs (splitPairs t) = joinPairs t := by
  induction t using joinPairs.induct with
  | case1 => rfl
  | case2 c =>
      have hc := h c List.mem_cons_self
      rw [splitPairs, List.flatMap_singleton]
      by_cases hsmall : c ≤ 0xFFFF
      · rw [splitCode, if_pos hsmall]
      · obtain ⟨ha, -, hb, hjoin⟩ := halves hsmall hc
        rw [splitCode, if_neg hsmall, joinPairs_pair ha hb, hjoin]
        rfl
  | case3 c d rest hpair ih =>
      have hrest := ih fun k hk => h k (List.mem_cons_of_mem _ (List.mem_cons_of_mem _ hk))
      have hsmall : splitCode c = [c] ∧ splitCode d = [d] := by
        simp only [Code.isHighSurrogate, Code.isLowSurrogate, Bool.and_eq_true,
          decide_eq_true_eq] at hpair
        unfold splitCode Code at *
        exact ⟨if_pos (by omega), if_pos (by omega)⟩
      rw [splitPairs, List.flatMap_cons, List.flatMap_cons, hsmall.1, hsmall.2, joinPairs,
        if_pos hpair]
      show joinPairs (c :: d :: splitPairs rest) = _
      rw [joinPairs, if_pos hpair, hrest]
  | case4 c d rest hpair ih =>
      obtain ⟨hc, hd⟩ := List.forall_mem_cons.1 h
      have hrest := ih hd
      rw [joinPairs_cons_cons hpair, ← hrest, splitPairs, List.flatMap_cons]
      by_cases hsmall : c ≤ 0xFFFF
      · rw [splitCode, if_pos hsmall]
        -- what follows `c` begins with `d` or with its first half, and neither makes a pair with
        -- `c`
        by_cases hsmall' : d ≤ 0xFFFF
        · have hsplit : splitCode d = [d] := if_pos hsmall'
          rw [splitPairs, List.flatMap_cons, hsplit]
          exact joinPairs_cons_cons hpair _
        · obtain ⟨-, ha, -, -⟩ := halves hsmall' (hd d List.mem_cons_self)
          have hsplit : splitCode d = [highHalf d, lowHalf d] := if_neg hsmall'
          rw [splitPairs, List.flatMap_cons, hsplit]
          exact joinPairs_cons_cons (by simp [ha]) _
      · obtain ⟨ha, -, hb, hjoin⟩ := halves hsmall hc
        rw [splitCode, if_neg hsmall]
        show joinPairs (highHalf c :: lowHalf c :: splitPairs (d :: rest)) = _
        rw [joinPairs_pair ha hb, hjoin]

/-! ### Escaping -/

/-- What escapes a code point: itself, its escape, or the escapes of its two halves. -/
theorem escapeCode_cases (c : Nat) :
    (c < 0x80 ∧ escapeCode c = [c]) ∨
    (∃ e, 0x80 ≤ c ∧ c ≤ 0xFFFF ∧ escapeCode c = e ∧ IsEscapeOf c e) ∨
    (¬c ≤ 0xFFFF ∧ ∃ a b, escapeCode c = a ++ b ∧
      (c < 0x110000 → IsEscapeOf (highHalf c) a ∧ IsEscapeOf (lowHalf c) b)) := by
  unfold escapeCode
  by_cases h₁ : c < 0x80
  · exact .inl ⟨h₁, if_pos h₁⟩
  · rw [if_neg h₁]
    by_cases h₂ : c ≤ 0xFFFF
    · rw [if_pos h₂]
      exact .inr (.inl ⟨_, Nat.le_of_not_lt h₁, h₂, rfl, isEscapeOf_hex h₂⟩)
    · rw [if_neg h₂]
      refine .inr (.inr ⟨h₂, escapeMark ++ hex 4 (highHalf c), escapeMark ++ hex 4 (lowHalf c),
        List.append_assoc _ _ _, fun hc => ⟨isEscapeOf_hex ?_, isEscapeOf_hex ?_⟩⟩)
      · unfold highHalf
        omega
      · unfold lowHalf
        omega

theorem escapeCode_of_ascii {c : Code} (h : c < 0x80) : escapeCode c = [c] := if_pos h

theorem encodeNonAscii_cons (c : Code) (rest : Text) :
    encodeNonAscii (c :: rest) = escapeCode c ++ encodeNonAscii rest := List.flatMap_cons

theorem encodeNonAscii_append (a b : Text) :
    encodeNonAscii (a ++ b) = encodeNonAscii a ++ encodeNonAscii b := List.flatMap_append

/-- Hexadecimal digits are plain characters of ASCII. -/
theorem range_of_mem_hex {count n : Nat} {c : Code} (h : c ∈ hex count n) :
    0x20 ≤ c ∧ c < 0x7F := by
  have hdigit : ∀ d < 16, 0x20 ≤ Code.hexDigit d ∧ Code.hexDigit d < 0x7F := by decide
  induction count generalizing n with
  | zero => cases h
  | succ count ih =>
      rcases List.mem_append.1 h with h | h
      · exact ih h
      · rw [List.mem_singleton.1 h]
        exact hdigit _ (Nat.mod_lt _ (by decide))

/-- An escaped text is ASCII. -/
theorem lt_of_mem_encodeNonAscii {t : Text} {c : Code} (h : c ∈ encodeNonAscii t) : c < 0x80 := by
  have hmark : ∀ k ∈ escapeMark, k < 0x80 := by decide
  have hhex : ∀ {n}, c ∈ hex 4 n → c < 0x80 :=
    fun h => Nat.lt_trans (range_of_mem_hex h).2 (by decide)
  obtain ⟨k, -, hc⟩ := List.mem_flatMap.1 h
  unfold escapeCode at hc
  split at hc
  · next hk => rwa [List.mem_singleton.1 hc]
  · split at hc
    · rcases List.mem_append.1 hc with hc | hc
      · exact hmark c hc
      · exact hhex hc
    · simp only [List.mem_append] at hc
      rcases hc with ((hc | hc) | hc) | hc
      · exact hmark c hc
      · exact hhex hc
      · exact hmark c hc
      · exact hhex hc

/-- What is ASCII already is not changed by escaping. -/
theorem encodeNonAscii_eq_self {t : Text} (h : ∀ c ∈ t, c < 0x80) : encodeNonAscii t = t := by
  induction t with
  | nil => rfl
  | cons c rest ih =>
      obtain ⟨hc, hrest⟩ := List.forall_mem_cons.1 h
      rw [encodeNonAscii_cons, escapeCode_of_ascii hc, ih hrest]
      rfl

/-- A code point other than the backslash in an escaped text stands for itself. -/
theorem of_encodeNonAscii_eq_cons {t more : Text} {c : Code} (h : encodeNonAscii t = c :: more)
    (hc : c ≠ Code.backslash) : ∃ rest, t = c :: rest ∧ encodeNonAscii rest = more := by
  cases t with
  | nil => cases h
  | cons k rest =>
      rw [encodeNonAscii_cons] at h
      by_cases hk : k < 0x80
      · rw [escapeCode_of_ascii hk] at h
        obtain ⟨rfl, hmore⟩ := List.cons.inj h
        exact ⟨rest, rfl, hmore⟩
      · have hhead : ∃ after, escapeCode k = Code.backslash :: after := by
          unfold escapeCode
          rw [if_neg hk]
          split <;> exact ⟨_, rfl⟩
        obtain ⟨after, hafter⟩ := hhead
        rw [hafter] at h
        exact absurd (List.cons.inj h).1.symm hc

/-- Escaping what follows a code point completes no escape. -/
theorem beginsWithEscape_encodeNonAscii {c : Code} {rest : Text}
    (h : beginsWithEscape (c :: rest) = false) :
    beginsWithEscape (c :: encodeNonAscii rest) = false := by
  rw [Bool.eq_false_iff] at h ⊢
  intro hbegins
  refine h (beginsWithEscape_iff.2 ?_)
  obtain ⟨v, e, more, heq, hescape⟩ := beginsWithEscape_iff.1 hbegins
  obtain ⟨ha, hb, hc, hd⟩ := hescape
  have hne : ∀ {k : Code} {v : Nat}, k.hexValue? = some v → k ≠ Code.backslash := by
    rintro k v hk rfl
    cases hk
  -- character by character, what stands in the escape stood there before escaping
  obtain ⟨rfl, h₁⟩ := List.cons.inj heq
  obtain ⟨r₁, rfl, h₂⟩ := of_encodeNonAscii_eq_cons h₁ (by decide)
  obtain ⟨r₂, rfl, h₃⟩ := of_encodeNonAscii_eq_cons h₂ (hne ha)
  obtain ⟨r₃, rfl, h₄⟩ := of_encodeNonAscii_eq_cons h₃ (hne hb)
  obtain ⟨r₄, rfl, h₅⟩ := of_encodeNonAscii_eq_cons h₄ (hne hc)
  obtain ⟨r₅, rfl, -⟩ := of_encodeNonAscii_eq_cons h₅ (hne hd)
  exact ⟨_, _, r₅, rfl, .mk ha hb hc hd⟩

/-- Unescaping what was escaped is unescaping alone, but for surrogate pairs. -/
theorem unescape_encodeNonAscii {t : Text} (h : ∀ c ∈ t, c < 0x110000) :
    unescape (encodeNonAscii t) = splitPairs (unescape t) := by
  induction t using escape_induction with
  | nil => rfl
  | escape v e rest he ih =>
      have hrest := ih fun c hc => h c (List.mem_append_right _ hc)
      have hsplit : splitCode v = [v] := if_pos he.le
      rw [encodeNonAscii_append, encodeNonAscii_eq_self he.ascii, unescape_append he,
        unescape_append he, hrest, splitPairs, splitPairs, List.flatMap_cons, hsplit]
      rfl
  | cons c rest hc ih =>
      obtain ⟨hrange, hrest⟩ := List.forall_mem_cons.1 h
      have hrest := ih hrest
      rw [encodeNonAscii_cons, unescape_cons hc]
      show _ = splitCode c ++ splitPairs (unescape rest)
      rcases escapeCode_cases c with ⟨hascii, heq⟩ | ⟨e, -, hle, heq, he⟩ | ⟨hle, a, b, heq, hab⟩
      · have hsplit : splitCode c = [c] := if_pos (Nat.le_trans (Nat.le_of_lt hascii) (by decide))
        rw [heq, hsplit]
        show unescape (c :: encodeNonAscii rest) = c :: splitPairs (unescape rest)
        rw [unescape_cons (beginsWithEscape_encodeNonAscii hc), hrest]
      · have hsplit : splitCode c = [c] := if_pos hle
        rw [heq, hsplit, unescape_append he, hrest]
        rfl
      · have hsplit : splitCode c = [highHalf c, lowHalf c] := if_neg hle
        obtain ⟨ha, hb⟩ := hab hrange
        rw [heq, hsplit, List.append_assoc, unescape_append ha, unescape_append hb, hrest]
        rfl

/-! ### Decoding -/

/-- A text without the beginning of an escape has no escape. -/
theorem hasEscape_eq_false_of_not_includes {t : Text} (h : t.includes escapeMark = false) :
    hasEscape t = false := by
  induction t with
  | nil => rfl
  | cons c rest ih =>
      rw [includes, Bool.or_eq_false_iff] at h
      rw [hasEscape, ih h.2, Bool.or_false, Bool.eq_false_iff]
      intro hbegins
      obtain ⟨v, e, more, heq, he⟩ := beginsWithEscape_iff.1 hbegins
      cases he
      rw [heq] at h
      cases h.1

/-- Decoding is unescaping and joining, unless a text without escapes holds surrogates. -/
theorem decodeEscapes_eq_joinPairs {t : Text} (h : ∀ c ∈ t, c.isHighSurrogate = false) :
    decodeEscapes t = joinPairs (unescape t) := by
  unfold decodeEscapes
  split
  · rfl
  · next hmark =>
      rw [unescape_eq_self (hasEscape_eq_false_of_not_includes (Bool.eq_false_iff.2 hmark)),
        joinPairs_eq_self h]

theorem isHighSurrogate_of_isScalar {c : Nat} (h : Code.isScalar c = true) :
    Code.isHighSurrogate c = false := by
  have hscalar := Code.isScalar_iff.1 h
  have hnot : ¬(0xD800 ≤ c ∧ c ≤ 0xDBFF) := by omega
  exact decide_eq_false hnot

/-- Without surrogates and escapes a text stands for itself. -/
theorem decodeEscapes_eq_self {t : Text} (hscalar : t.all Code.isScalar = true)
    (hescape : hasEscape t = false) : decodeEscapes t = t := by
  have hhigh : ∀ c ∈ t, c.isHighSurrogate = false := fun c hc =>
    isHighSurrogate_of_isScalar (List.all_eq_true.1 hscalar c hc)
  rw [decodeEscapes_eq_joinPairs hhigh, unescape_eq_self hescape, joinPairs_eq_self hhigh]

theorem lt_of_mem_unescape {t : Text} (h : ∀ c ∈ t, c < 0x110000) :
    ∀ c ∈ unescape t, c < 0x110000 := by
  induction t using escape_induction with
  | nil => exact h
  | escape v e rest he ih =>
      rw [unescape_append he]
      refine List.forall_mem_cons.2 ⟨Nat.lt_of_le_of_lt he.le (by decide), ih fun c hc => ?_⟩
      exact h c (List.mem_append_right _ hc)
  | cons c rest hc ih =>
      obtain ⟨hrange, hrest⟩ := List.forall_mem_cons.1 h
      rw [unescape_cons hc]
      exact List.forall_mem_cons.2 ⟨hrange, ih hrest⟩

theorem lt_of_mem_joinPairs {t : Text} (h : ∀ c ∈ t, c < 0x110000) :
    ∀ c ∈ joinPairs t, c < 0x110000 := by
  induction t using joinPairs.induct with
  | case1 => exact h
  | case2 c => exact h
  | case3 c d rest hpair ih =>
      rw [joinPairs, if_pos hpair]
      rw [Bool.and_eq_true] at hpair
      refine List.forall_mem_cons.2 ⟨(ofSurrogates_bounds hpair.1 hpair.2).2, ih fun k hk => ?_⟩
      exact h k (List.mem_cons_of_mem _ (List.mem_cons_of_mem _ hk))
  | case4 c d rest hpair ih =>
      obtain ⟨hrange, hrest⟩ := List.forall_mem_cons.1 h
      rw [joinPairs, if_neg hpair]
      exact List.forall_mem_cons.2 ⟨hrange, ih hrest⟩

theorem lt_of_mem_decodeEscapes {t : Text} (h : ∀ c ∈ t, c < 0x110000) :
    ∀ c ∈ decodeEscapes t, c < 0x110000 := by
  unfold decodeEscapes
  split
  · exact lt_of_mem_joinPairs (lt_of_mem_unescape h)
  · exact h

/-- Decoding what was escaped is unescaping and joining alone. -/
theorem decodeEscapes_encodeNonAscii {t : Text} (h : ∀ c ∈ t, c < 0x110000) :
    decodeEscapes (encodeNonAscii t) = joinPairs (unescape t) := by
  -- an escaped text is ASCII, so it holds no surrogates that are not escaped
  have hhigh : ∀ c ∈ encodeNonAscii t, c.isHighSurrogate = false := by
    intro c hc
    have hascii : ¬(0xD800 ≤ c ∧ c ≤ 0xDBFF) := fun hsurrogate =>
      absurd (Nat.lt_of_le_of_lt hsurrogate.1 (lt_of_mem_encodeNonAscii hc)) (by decide)
    exact decide_eq_false hascii
  rw [decodeEscapes_eq_joinPairs hhigh, unescape_encodeNonAscii h,
    joinPairs_splitPairs (lt_of_mem_unescape h)]

/-- Decoding makes a text shorter, unless there is no escape. -/
theorem length_decodeEscapes (t : Text) :
    (decodeEscapes t).length ≤ t.length ∧
      (hasEscape t = true → (decodeEscapes t).length < t.length) := by
  unfold decodeEscapes
  split
  · obtain ⟨hle, hlt⟩ := length_unescape t
    have hjoin := length_joinPairs_le (unescape t)
    exact ⟨Nat.le_trans hjoin hle, fun h => Nat.lt_of_le_of_lt hjoin (hlt h)⟩
  · next hmark =>
      rw [hasEscape_eq_false_of_not_includes (Bool.eq_false_iff.2 hmark)]
      exact ⟨Nat.le_refl _, nofun⟩

end Text

end BundleAudit
