import BundleAudit.Text.Encoding

/-!
# BundleAudit.Proofs.Text.Utf8

**What is written in UTF-8 is read back.** The bytes of a code point that is no
surrogate are one whole sequence, whatever follows them, so the bytes of a text are
read sequence by sequence as the text. Only a byte order mark at its beginning is lost
(`ofBytes_flatMap_eq_dropMark`).
-/

namespace BundleAudit

theorem Code.isScalar_iff {c : Nat} :
    Code.isScalar c = true ↔ c < 0x110000 ∧ ¬(0xD800 ≤ c ∧ c ≤ 0xDFFF) := by
  rw [Code.isScalar, Code.isSurrogate, Bool.and_eq_true, decide_eq_true_iff, Bool.not_eq_true',
    decide_eq_false_iff_not]

theorem Code.isScalar_of_ascii {c : Nat} (h : c < 0x80) : Code.isScalar c = true :=
  Code.isScalar_iff.2 ⟨by omega, by omega⟩

namespace Text

/-! ### One code point -/

theorem toNat_ofNat_of_lt {n : Nat} (h : n < 256) : (UInt8.ofNat n).toNat = n :=
  UInt8.toNat_ofNat_of_lt' h

theorem isContinuation_ofNat {n : Nat} (h : n < 0x40) :
    isContinuation (.ofNat (0x80 + n)) = true := by
  rw [isContinuation, toNat_ofNat_of_lt (by omega)]
  exact decide_eq_true (by omega)

theorem lowSix_ofNat {n : Nat} (h : n < 0x40) : lowSix (.ofNat (0x80 + n)) = n := by
  have hbyte : (UInt8.ofNat (0x80 + n)).toNat = 0x80 + n := toNat_ofNat_of_lt (by omega)
  unfold lowSix
  omega

theorem isSecondOfThree_ofNat {m n : Nat} (hm : m < 0x10) (hn : n < 0x40)
    (hlow : m = 0 → 0x20 ≤ n) (hsurrogate : m = 0xD → n < 0x20) :
    isSecondOfThree (.ofNat (0xE0 + m)) (.ofNat (0x80 + n)) = true := by
  rw [isSecondOfThree, isContinuation_ofNat hn, Bool.true_and, Bool.and_eq_true, Bool.or_eq_true,
    Bool.or_eq_true, bne_iff_ne, bne_iff_ne, decide_eq_true_iff, decide_eq_true_iff,
    toNat_ofNat_of_lt (by omega), Ne, Ne, ← UInt8.toNat_inj, ← UInt8.toNat_inj,
    toNat_ofNat_of_lt (by omega)]
  show (¬0xE0 + m = 0xE0 ∨ 0xA0 ≤ 0x80 + n) ∧ (¬0xE0 + m = 0xED ∨ 0x80 + n ≤ 0x9F)
  omega

theorem isSecondOfFour_ofNat {m n : Nat} (hm : m < 0x5) (hn : n < 0x40)
    (hlow : m = 0 → 0x10 ≤ n) (hhigh : m = 4 → n < 0x10) :
    isSecondOfFour (.ofNat (0xF0 + m)) (.ofNat (0x80 + n)) = true := by
  rw [isSecondOfFour, isContinuation_ofNat hn, Bool.true_and, Bool.and_eq_true, Bool.or_eq_true,
    Bool.or_eq_true, bne_iff_ne, bne_iff_ne, decide_eq_true_iff, decide_eq_true_iff,
    toNat_ofNat_of_lt (by omega), Ne, Ne, ← UInt8.toNat_inj, ← UInt8.toNat_inj,
    toNat_ofNat_of_lt (by omega)]
  show (¬0xF0 + m = 0xF0 ∨ 0x90 ≤ 0x80 + n) ∧ (¬0xF0 + m = 0xF4 ∨ 0x80 + n ≤ 0x8F)
  omega

/-- The sequence of a code point is one whole sequence, whatever follows it. -/
theorem firstUtf8_utf8Code {c : Nat} (h : Code.isScalar c = true) (rest : Bytes) :
    ∃ a more, utf8Code c = a :: more ∧ firstUtf8 a (more ++ rest) = (some c, more.length) := by
  -- one case for each number of bytes, in which the range of the first byte selects the same case
  obtain ⟨hrange, hsurrogate⟩ := Code.isScalar_iff.1 h
  unfold utf8Code firstUtf8
  by_cases h₁ : c < 0x80
  · refine ⟨_, _, if_pos h₁, ?_⟩
    rw [toNat_ofNat_of_lt (by omega), if_pos h₁]
    rfl
  rw [if_neg h₁]
  by_cases h₂ : c < 0x800
  · refine ⟨_, _, if_pos h₂, ?_⟩
    rw [toNat_ofNat_of_lt (by omega), if_neg (by omega), if_pos (by omega)]
    simp only [List.cons_append, isContinuation_ofNat (show c % 0x40 < 0x40 by omega),
      lowSix_ofNat (show c % 0x40 < 0x40 by omega), if_true]
    refine Prod.ext (congrArg some ?_) rfl
    show (0xC0 + c / 0x40 - 0xC0) * 0x40 + c % 0x40 = c
    omega
  rw [if_neg h₂]
  by_cases h₃ : c < 0x10000
  · refine ⟨_, _, if_pos h₃, ?_⟩
    rw [toNat_ofNat_of_lt (by omega), if_neg (by omega), if_neg (by omega),
      if_pos (by omega)]
    simp only [List.cons_append,
      isSecondOfThree_ofNat (show c / 0x1000 < 0x10 by omega)
        (show c / 0x40 % 0x40 < 0x40 by omega) (by omega) (by omega),
      isContinuation_ofNat (show c % 0x40 < 0x40 by omega),
      lowSix_ofNat (show c / 0x40 % 0x40 < 0x40 by omega),
      lowSix_ofNat (show c % 0x40 < 0x40 by omega), if_true]
    refine Prod.ext (congrArg some ?_) rfl
    show (0xE0 + c / 0x1000 - 0xE0) * 0x1000 + c / 0x40 % 0x40 * 0x40 + c % 0x40 = c
    omega
  · refine ⟨_, _, if_neg h₃, ?_⟩
    rw [toNat_ofNat_of_lt (by omega), if_neg (by omega), if_neg (by omega),
      if_neg (by omega), if_pos (by omega)]
    simp only [List.cons_append,
      isSecondOfFour_ofNat (show c / 0x40000 < 0x5 by omega)
        (show c / 0x1000 % 0x40 < 0x40 by omega) (by omega) (by omega),
      isContinuation_ofNat (show c / 0x40 % 0x40 < 0x40 by omega),
      isContinuation_ofNat (show c % 0x40 < 0x40 by omega),
      lowSix_ofNat (show c / 0x1000 % 0x40 < 0x40 by omega),
      lowSix_ofNat (show c / 0x40 % 0x40 < 0x40 by omega),
      lowSix_ofNat (show c % 0x40 < 0x40 by omega), if_true]
    refine Prod.ext (congrArg some ?_) rfl
    show (0xF0 + c / 0x40000 - 0xF0) * 0x40000 + c / 0x1000 % 0x40 * 0x1000 +
      c / 0x40 % 0x40 * 0x40 + c % 0x40 = c
    omega

/-! ### Texts -/

theorem decodeUtf8_utf8Code {c : Code} (h : c.isScalar = true) (rest : Bytes) :
    decodeUtf8 (utf8Code c ++ rest) = some c :: decodeUtf8 rest := by
  obtain ⟨a, more, hcode, hfirst⟩ := firstUtf8_utf8Code h rest
  rw [hcode, List.cons_append, decodeUtf8, hfirst, List.drop_left]

theorem decodeUtf8_flatMap {t : Text} (h : t.all Code.isScalar = true) :
    decodeUtf8 (t.flatMap utf8Code) = t.map some := by
  induction t with
  | nil => rw [List.flatMap_nil, decodeUtf8, List.map_nil]
  | cons c rest ih =>
      rw [List.all_cons, Bool.and_eq_true] at h
      rw [List.flatMap_cons, decodeUtf8_utf8Code h.1, ih h.2, List.map_cons]

/-- A text that is written is read back. -/
theorem ofUtf8?_flatMap {t : Text} (h : t.all Code.isScalar = true) :
    ofUtf8? (t.flatMap utf8Code) = some t := by
  rw [ofUtf8?, decodeUtf8_flatMap h]
  induction t with
  | nil => rfl
  | cons c rest ih =>
      rw [List.all_cons, Bool.and_eq_true] at h
      rw [List.map_cons, List.mapM_cons, ih h.2]
      rfl

theorem toUtf8?_eq_some_iff {t : Text} {bytes : Bytes} :
    t.toUtf8? = some bytes ↔ t.all Code.isScalar = true ∧ t.flatMap utf8Code = bytes := by
  rw [toUtf8?]
  split
  · next h => simp [h]
  · next h => simp [h]

/-! ### Byte order marks -/

/-- A text without a byte order mark at its beginning. -/
def dropMark (t : Text) : Text := if t.head? = some Code.byteOrderMark then t.tail else t

theorem decodeUtf8_mark (bytes : Bytes) :
    decodeUtf8 (utf8Mark ++ bytes) = some Code.byteOrderMark :: decodeUtf8 bytes :=
  decodeUtf8_utf8Code (c := Code.byteOrderMark) rfl bytes

/-- No text is written with a byte at its beginning that begins no sequence. -/
theorem head?_flatMap_ne {t : Text} (h : t.all Code.isScalar = true) {b : UInt8}
    (hb : ∀ rest, (firstUtf8 b rest).1 = none) : (t.flatMap utf8Code).head? ≠ some b := by
  intro hhead
  obtain ⟨rest, hbytes⟩ := List.head?_eq_some_iff.1 hhead
  have hdecode := decodeUtf8_flatMap h
  rw [hbytes, decodeUtf8] at hdecode
  have hnone : none ∈ t.map some := hdecode ▸ (hb rest ▸ List.mem_cons_self)
  simp at hnone

/-- Only the mark of a text is taken for one, and that as the one of UTF-8. -/
theorem encoding_flatMap {t : Text} (h : t.all Code.isScalar = true) :
    Encoding.ofBytes (t.flatMap utf8Code) =
      if t.head? = some Code.byteOrderMark then .markedUtf8 else .utf8 := by
  have hlow : List.isPrefixOf [0xFF, 0xFE] (t.flatMap utf8Code) = false := by
    rw [Bool.eq_false_iff]
    intro hmark
    obtain ⟨rest, hrest⟩ := List.isPrefixOf_iff_prefix.1 hmark
    exact head?_flatMap_ne h (b := 0xFF) (fun _ => rfl) (by rw [← hrest]; rfl)
  have hhigh : List.isPrefixOf [0xFE, 0xFF] (t.flatMap utf8Code) = false := by
    rw [Bool.eq_false_iff]
    intro hmark
    obtain ⟨rest, hrest⟩ := List.isPrefixOf_iff_prefix.1 hmark
    exact head?_flatMap_ne h (b := 0xFE) (fun _ => rfl) (by rw [← hrest]; rfl)
  have hmarked : utf8Mark.isPrefixOf (t.flatMap utf8Code) = true ↔
      t.head? = some Code.byteOrderMark := by
    constructor
    · intro hmark
      obtain ⟨rest, hrest⟩ := List.isPrefixOf_iff_prefix.1 hmark
      have hdecode := decodeUtf8_flatMap h
      rw [← hrest, decodeUtf8_mark] at hdecode
      have hhead := congrArg List.head? hdecode
      rw [List.head?_cons, List.head?_map] at hhead
      obtain ⟨c, hc, hmap⟩ := Option.map_eq_some_iff.1 hhead.symm
      exact Option.some.inj hmap ▸ hc
    · intro hhead
      obtain ⟨rest, rfl⟩ := List.head?_eq_some_iff.1 hhead
      exact List.isPrefixOf_iff_prefix.2 ⟨rest.flatMap utf8Code, rfl⟩
  rw [Encoding.ofBytes, hlow, hhigh]
  by_cases hhead : t.head? = some Code.byteOrderMark
  · rw [if_pos hhead, if_pos (hmarked.2 hhead)]
  · rw [if_neg hhead, if_neg (mt hmarked.1 hhead)]
    rfl

theorem withReplacement_map_some (t : Text) : withReplacement (t.map some) = t := by
  rw [withReplacement, List.map_map]
  exact List.map_id _

/-- A text that is written is read back, but for a byte order mark at its beginning. -/
theorem ofBytes_flatMap_eq_dropMark {t : Text} (h : t.all Code.isScalar = true) :
    ofBytes (t.flatMap utf8Code) = t.dropMark := by
  rw [ofBytes, encoding_flatMap h, dropMark]
  by_cases hhead : t.head? = some Code.byteOrderMark
  · obtain ⟨rest, rfl⟩ := List.head?_eq_some_iff.1 hhead
    have hrest : rest.all Code.isScalar = true := by
      rw [List.all_cons, Bool.and_eq_true] at h
      exact h.2
    have hdrop : List.drop 3 ((Code.byteOrderMark :: rest : Text).flatMap utf8Code) =
        rest.flatMap utf8Code := rfl
    rw [if_pos hhead, if_pos hhead]
    dsimp only
    rw [hdrop, decodeUtf8_flatMap hrest, withReplacement_map_some, List.tail_cons]
  · rw [if_neg hhead, if_neg hhead]
    dsimp only
    rw [decodeUtf8_flatMap h, withReplacement_map_some]

/-! ### Files that begin with an ASCII character -/

theorem flatMap_utf8Code_cons {c : Nat} (hc : c < 0x80) (t : Text) :
    (c :: t : Text).flatMap utf8Code = .ofNat c :: t.flatMap utf8Code := by
  rw [List.flatMap_cons, utf8Code, if_pos hc]
  rfl

/-- No ASCII character begins as a byte order mark does. -/
theorem beq_ofNat_of_ascii {c : Nat} (hc : c < 0x80) {b : UInt8} (hb : 0x80 ≤ b.toNat) :
    (b == .ofNat c) = false := by
  rw [beq_eq_false_iff_ne]
  rintro rfl
  rw [toNat_ofNat_of_lt (by omega)] at hb
  omega

/-- A file whose text begins with an ASCII character has no byte order mark. -/
theorem ofBytes_flatMap {c : Nat} (hc : c < 0x80) {t : Text}
    (h : (c :: t).all Code.isScalar = true) :
    ofBytes ((c :: t : Text).flatMap utf8Code) = c :: t := by
  have hhead : (c :: t : Text).head? ≠ some Code.byteOrderMark := fun hmark => by
    have hmark : c = 0xFEFF := Option.some.inj hmark
    omega
  rw [ofBytes_flatMap_eq_dropMark h, dropMark, if_neg hhead]

end Text

end BundleAudit
