import BundleAudit.Proofs.Text.Escape
import BundleAudit.Proofs.Text.Utf8

/-!
# BundleAudit.Proofs.Text.Scalar

**What is read from a file holds no surrogates,** whatever its bytes are. A sequence of
UTF-8 that would stand for a surrogate cannot go on, and a surrogate of UTF-16 either
finds its other half or stands for nothing. So surrogates get into a text only where
escapes are decoded.
-/

namespace BundleAudit.Text

/-! ### UTF-8 -/

theorem of_isContinuation {b : UInt8} (h : isContinuation b = true) :
    lowSix b < 0x40 ∧ b.toNat = 0x80 + lowSix b := by
  have hb := of_decide_eq_true h
  unfold lowSix
  omega

theorem of_isSecondOfThree {a b : UInt8} (h : isSecondOfThree a b = true) :
    isContinuation b = true ∧ (a.toNat = 0xED → lowSix b < 0x20) := by
  rw [isSecondOfThree, Bool.and_eq_true, Bool.and_eq_true, Bool.or_eq_true, Bool.or_eq_true] at h
  obtain ⟨⟨hb, -⟩, hsurrogate⟩ := h
  refine ⟨hb, fun ha => ?_⟩
  rcases hsurrogate with hne | hle
  · exact absurd (UInt8.toNat_inj.1 ha) (bne_iff_ne.1 hne)
  · have hle := of_decide_eq_true hle
    obtain ⟨-, hvalue⟩ := of_isContinuation hb
    omega

theorem of_isSecondOfFour {a b : UInt8} (h : isSecondOfFour a b = true) :
    isContinuation b = true ∧ (a.toNat = 0xF0 → 0x10 ≤ lowSix b) ∧
      (a.toNat = 0xF4 → lowSix b < 0x10) := by
  rw [isSecondOfFour, Bool.and_eq_true, Bool.and_eq_true, Bool.or_eq_true, Bool.or_eq_true] at h
  obtain ⟨⟨hb, hlow⟩, hhigh⟩ := h
  obtain ⟨-, hvalue⟩ := of_isContinuation hb
  refine ⟨hb, fun ha => ?_, fun ha => ?_⟩
  · rcases hlow with hne | hle
    · exact absurd (UInt8.toNat_inj.1 ha) (bne_iff_ne.1 hne)
    · have hle := of_decide_eq_true hle
      omega
  · rcases hhigh with hne | hle
    · exact absurd (UInt8.toNat_inj.1 ha) (bne_iff_ne.1 hne)
    · have hle := of_decide_eq_true hle
      omega

/-- No sequence of UTF-8 stands for a surrogate. -/
theorem isScalar_of_firstUtf8 {a : UInt8} {rest : Bytes} {c : Nat}
    (h : (firstUtf8 a rest).1 = some c) : Code.isScalar c = true := by
  rw [Code.isScalar_iff]
  unfold firstUtf8 at h
  split at h
  · next hascii =>
      rw [← Option.some.inj h]
      omega
  split at h
  · next htwo =>
      split at h
      · split at h
        · next hb =>
            obtain ⟨hlow, -⟩ := of_isContinuation hb
            rw [← Option.some.inj h]
            omega
        · cases h
      · cases h
  split at h
  · next hthree =>
      split at h
      · split at h
        · next hb =>
            split at h
            · next hc =>
                obtain ⟨hb, hsurrogate⟩ := of_isSecondOfThree hb
                obtain ⟨hlow, -⟩ := of_isContinuation hb
                obtain ⟨hlow', -⟩ := of_isContinuation hc
                rw [← Option.some.inj h]
                omega
            · cases h
        · cases h
      · cases h
      · cases h
  split at h
  · next hfour =>
      split at h
      · split at h
        · next hb =>
            split at h
            · next hc =>
                split at h
                · next hd =>
                    obtain ⟨hb, hstart, hend⟩ := of_isSecondOfFour hb
                    obtain ⟨hlow, -⟩ := of_isContinuation hb
                    obtain ⟨hlow', -⟩ := of_isContinuation hc
                    obtain ⟨hlow'', -⟩ := of_isContinuation hd
                    rw [← Option.some.inj h]
                    omega
                · cases h
            · cases h
        · cases h
      · cases h
      · cases h
      · cases h
  · cases h

/-- All code points that bytes stand for are no surrogates. -/
theorem isScalar_of_mem_decodeUtf8 {bytes : Bytes} {c : Nat} (h : some c ∈ decodeUtf8 bytes) :
    Code.isScalar c = true := by
  induction bytes using decodeUtf8.induct with
  | case1 => simp [decodeUtf8] at h
  | case2 a rest first ih =>
      rw [decodeUtf8] at h
      rcases List.mem_cons.1 h with hfirst | h
      · exact isScalar_of_firstUtf8 hfirst.symm
      · exact ih h

theorem exists_of_mapM_eq_some {α β : Type} {f : α → Option β} {xs : List α} {ys : List β}
    (h : xs.mapM f = some ys) {y : β} (hy : y ∈ ys) : ∃ x ∈ xs, f x = some y := by
  induction xs generalizing ys with
  | nil =>
      rw [List.mapM_nil] at h
      exact absurd hy (Option.some.inj h ▸ List.not_mem_nil)
  | cons x more ih =>
      rw [List.mapM_cons] at h
      obtain ⟨z, hz, h⟩ := Option.bind_eq_some_iff.1 h
      obtain ⟨zs, hzs, h⟩ := Option.bind_eq_some_iff.1 h
      rw [← Option.some.inj h] at hy
      rcases List.mem_cons.1 hy with rfl | hy
      · exact ⟨x, List.mem_cons_self, hz⟩
      · obtain ⟨w, hw, hf⟩ := ih hzs hy
        exact ⟨w, List.mem_cons_of_mem _ hw, hf⟩

/-- A text that bytes stand for holds no surrogates. -/
theorem all_isScalar_of_ofUtf8? {bytes : Bytes} {t : Text} (h : ofUtf8? bytes = some t) :
    t.all Code.isScalar = true := by
  refine List.all_eq_true.2 fun c hc => ?_
  obtain ⟨code, hcode, rfl⟩ := exists_of_mapM_eq_some h hc
  exact isScalar_of_mem_decodeUtf8 hcode

/-! ### UTF-16 -/

theorem unit_lt (order : ByteOrder) (a b : UInt8) : unit order a b < 0x10000 := by
  have ha := a.toNat_lt
  have hb := b.toNat_lt
  cases order <;> rw [unit] <;> omega

/-- A surrogate that is no half of a pair stands for nothing. -/
theorem isScalar_of_firstUtf16 {order : ByteOrder} {u : Nat} (hu : u < 0x10000) {rest : Bytes}
    {c : Nat} (h : (firstUtf16 order u rest).1 = some c) : Code.isScalar c = true := by
  rw [Code.isScalar_iff]
  unfold firstUtf16 at h
  split at h
  · next hhigh =>
      split at h
      · dsimp only at h
        split at h
        · next hlow =>
            obtain ⟨hover, hunder⟩ := ofSurrogates_bounds hhigh hlow
            rw [← Option.some.inj h]
            exact ⟨hunder, fun hrange => absurd (Nat.lt_of_lt_of_le hover hrange.2) (by decide)⟩
        · cases h
      · cases h
      · cases h
  · next hhigh =>
      split at h
      · cases h
      · next hlow =>
          have hhigh : ¬(0xD800 ≤ u ∧ u ≤ 0xDBFF) := fun hrange => hhigh (decide_eq_true hrange)
          have hlow : ¬(0xDC00 ≤ u ∧ u ≤ 0xDFFF) := fun hrange => hlow (decide_eq_true hrange)
          rw [← Option.some.inj h]
          omega

theorem isScalar_of_mem_decodeUtf16 {order : ByteOrder} {bytes : Bytes} {c : Nat}
    (h : some c ∈ decodeUtf16 order bytes) : Code.isScalar c = true := by
  induction bytes using decodeUtf16.induct order with
  | case1 => simp [decodeUtf16] at h
  | case2 a => simp [decodeUtf16] at h
  | case3 a b rest first ih =>
      rw [decodeUtf16] at h
      rcases List.mem_cons.1 h with hfirst | h
      · exact isScalar_of_firstUtf16 (unit_lt order a b) hfirst.symm
      · exact ih h

/-! ### Files -/

/-- With the replacement character for each failure there are no surrogates either. -/
theorem all_isScalar_withReplacement {codes : List (Option Code)}
    (h : ∀ c, some c ∈ codes → Code.isScalar c = true) :
    (withReplacement codes).all Code.isScalar = true := by
  refine List.all_eq_true.2 fun c hc => ?_
  obtain ⟨code, hcode, rfl⟩ := List.mem_map.1 hc
  cases code with
  | none => rfl
  | some c => exact h c hcode

/-- The text of a file holds no surrogates. -/
theorem all_isScalar_ofBytes (bytes : Bytes) : (ofBytes bytes).all Code.isScalar = true := by
  unfold ofBytes
  split
  · exact all_isScalar_withReplacement fun c => isScalar_of_mem_decodeUtf8
  · exact all_isScalar_withReplacement fun c => isScalar_of_mem_decodeUtf8
  · exact all_isScalar_withReplacement fun c => isScalar_of_mem_decodeUtf16

end BundleAudit.Text
