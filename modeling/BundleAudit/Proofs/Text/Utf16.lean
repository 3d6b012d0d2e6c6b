import BundleAudit.Proofs.Text.Utf8

/-!
# BundleAudit.Proofs.Text.Utf16

**What is stored in an encoding that the first bytes name is read back.** The units of a
code point are one whole sequence of UTF-16 in either order of bytes, as its bytes are
one of UTF-8, so the bytes of a text are read sequence by sequence as the text.

A mark in front of the bytes is taken away once. So a text that begins with a mark of its
own is read back as it is where the storage has a mark, and without it where the storage
has none (`ofBytes_bytes_eq_iff`).
-/

namespace BundleAudit.Text

/-! ### Units -/

/-- The bytes of a unit are read as the unit. -/
theorem exists_unitBytes (order : ByteOrder) {n : Nat} (hn : n < 0x10000) :
    ∃ a b, unitBytes order n = [a, b] ∧ unit order a b = n := by
  have hlow : (UInt8.ofNat (n % 0x100)).toNat = n % 0x100 := toNat_ofNat_of_lt (by omega)
  have hhigh : (UInt8.ofNat (n / 0x100)).toNat = n / 0x100 := toNat_ofNat_of_lt (by omega)
  cases order with
  | lowFirst =>
      refine ⟨_, _, rfl, ?_⟩
      rw [unit, hlow, hhigh]
      omega
  | highFirst =>
      refine ⟨_, _, rfl, ?_⟩
      rw [unit, hlow, hhigh]
      omega

theorem isHighSurrogate_iff {n : Nat} :
    Code.isHighSurrogate n = true ↔ 0xD800 ≤ n ∧ n ≤ 0xDBFF := decide_eq_true_iff

theorem isLowSurrogate_iff {n : Nat} :
    Code.isLowSurrogate n = true ↔ 0xDC00 ≤ n ∧ n ≤ 0xDFFF := decide_eq_true_iff

/-- The two units of a code point are the halves of its surrogate pair. -/
theorem ofSurrogates_units {c : Nat} (hc : 0x10000 ≤ c) :
    Code.ofSurrogates (0xD800 + (c - 0x10000) / 0x400) (0xDC00 + (c - 0x10000) % 0x400) = c := by
  show 0x10000 + (0xD800 + (c - 0x10000) / 0x400 - 0xD800) * 0x400 +
    (0xDC00 + (c - 0x10000) % 0x400 - 0xDC00) = c
  omega

/-! ### Texts -/

/-- The bytes of a code point are one whole sequence, whatever follows them. -/
theorem decodeUtf16_utf16Units (order : ByteOrder) {c : Nat} (h : Code.isScalar c = true)
    (rest : Bytes) :
    decodeUtf16 order ((utf16Units c).flatMap (unitBytes order) ++ rest) =
      some c :: decodeUtf16 order rest := by
  obtain ⟨hrange, hsurrogate⟩ := Code.isScalar_iff.1 h
  by_cases hsmall : c < 0x10000
  · obtain ⟨a, b, hbytes, hunit⟩ := exists_unitBytes order hsmall
    have hhigh : ¬Code.isHighSurrogate c = true := by
      rw [isHighSurrogate_iff]
      omega
    have hlow : ¬Code.isLowSurrogate c = true := by
      rw [isLowSurrogate_iff]
      omega
    have hfirst : firstUtf16 order c rest = (some c, 0) := by
      unfold firstUtf16
      rw [if_neg hhigh, if_neg hlow]
    rw [utf16Units, if_pos hsmall, List.flatMap_singleton, hbytes, List.cons_append,
      List.cons_append, List.nil_append, decodeUtf16, hunit, hfirst, List.drop_zero]
  · generalize hfst : 0xD800 + (c - 0x10000) / 0x400 = high
    generalize hsnd : 0xDC00 + (c - 0x10000) % 0x400 = low
    obtain ⟨a, b, hbytes, hunit⟩ := exists_unitBytes order (show high < 0x10000 by omega)
    obtain ⟨a', b', hbytes', hunit'⟩ := exists_unitBytes order (show low < 0x10000 by omega)
    have hhigh : Code.isHighSurrogate high = true := isHighSurrogate_iff.2 (by omega)
    have hlow : Code.isLowSurrogate low = true := isLowSurrogate_iff.2 (by omega)
    have hpair : Code.ofSurrogates high low = c := by
      rw [← hfst, ← hsnd]
      exact ofSurrogates_units (by omega)
    have hfirst : firstUtf16 order high (a' :: b' :: rest) = (some c, 2) := by
      simp only [firstUtf16, if_pos hhigh, hunit', if_pos hlow, hpair]
    have hunits : utf16Units c = [high, low] := by
      rw [utf16Units, if_neg hsmall, hfst, hsnd]
    rw [hunits, List.flatMap_cons, List.flatMap_singleton, hbytes, hbytes']
    show decodeUtf16 order (a :: b :: a' :: b' :: rest) = _
    rw [decodeUtf16, hunit, hfirst]
    rfl

theorem decodeUtf16_toUtf16 (order : ByteOrder) {t : Text} (h : t.all Code.isScalar = true) :
    decodeUtf16 order (toUtf16 order t) = t.map some := by
  induction t with
  | nil => rw [toUtf16, List.flatMap_nil, decodeUtf16, List.map_nil]
  | cons c rest ih =>
      rw [List.all_cons, Bool.and_eq_true] at h
      rw [toUtf16, List.flatMap_cons, decodeUtf16_utf16Units order h.1, List.map_cons, ← ih h.2]
      rfl

/-! ### Storages -/

/-- The byte order mark in UTF-16. -/
def utf16Mark : ByteOrder → Bytes
  | .lowFirst => [0xFF, 0xFE]
  | .highFirst => [0xFE, 0xFF]

/-- A way to store a text that reading can tell from the first bytes. -/
inductive Storage
  | utf8
  /-- UTF-8 after a byte order mark. -/
  | markedUtf8
  /-- UTF-16 after a byte order mark. -/
  | utf16 (order : ByteOrder)
  deriving DecidableEq, Repr

/-- The bytes of a text. -/
def Storage.bytes : Storage → Text → Bytes
  | .utf8, t => t.flatMap utf8Code
  | .markedUtf8, t => utf8Mark ++ t.flatMap utf8Code
  | .utf16 order, t => utf16Mark order ++ toUtf16 order t

/-- No mark of the text itself is taken for the mark of the storage. -/
def Storage.Keeps (storage : Storage) (t : Text) : Prop :=
  storage = .utf8 → t.head? ≠ some Code.byteOrderMark

instance (storage : Storage) (t : Text) : Decidable (storage.Keeps t) :=
  inferInstanceAs (Decidable (_ → _))

theorem dropMark_eq_self_iff {t : Text} :
    t.dropMark = t ↔ t.head? ≠ some Code.byteOrderMark := by
  rw [dropMark]
  split
  · next hhead =>
      obtain ⟨rest, rfl⟩ := List.head?_eq_some_iff.1 hhead
      exact iff_of_false (Ne.symm (List.cons_ne_self _ _)) (not_not_intro hhead)
  · next hhead => exact iff_of_true rfl hhead

/-- A text that is stored after a mark is read back, with a mark of its own. -/
theorem ofBytes_markedUtf8 {t : Text} (h : t.all Code.isScalar = true) :
    ofBytes (utf8Mark ++ t.flatMap utf8Code) = t := by
  have hencoding : Encoding.ofBytes (utf8Mark ++ t.flatMap utf8Code) = .markedUtf8 :=
    if_pos (List.isPrefixOf_iff_prefix.2 (List.prefix_append _ _))
  have hdrop : List.drop 3 (utf8Mark ++ t.flatMap utf8Code) = t.flatMap utf8Code := rfl
  rw [ofBytes, hencoding]
  dsimp only
  rw [hdrop, decodeUtf8_flatMap h, withReplacement_map_some]

theorem ofBytes_utf16 (order : ByteOrder) {t : Text} (h : t.all Code.isScalar = true) :
    ofBytes (utf16Mark order ++ toUtf16 order t) = t := by
  have hencoding : Encoding.ofBytes (utf16Mark order ++ toUtf16 order t) = .utf16 := by
    cases order <;> rfl
  have horder : (if (utf16Mark order ++ toUtf16 order t).head? = some 0xFF then
      ByteOrder.lowFirst else .highFirst) = order := by
    cases order <;> rfl
  have hdrop : List.drop 2 (utf16Mark order ++ toUtf16 order t) = toUtf16 order t := by
    cases order <;> rfl
  rw [ofBytes, hencoding]
  dsimp only
  rw [horder, hdrop, decodeUtf16_toUtf16 order h, withReplacement_map_some]

/-- What is stored is read back just if no mark of its own is taken away. -/
theorem ofBytes_bytes_eq_iff {t : Text} (h : t.all Code.isScalar = true) (storage : Storage) :
    ofBytes (storage.bytes t) = t ↔ storage.Keeps t := by
  cases storage with
  | utf8 =>
      rw [Storage.bytes, ofBytes_flatMap_eq_dropMark h, dropMark_eq_self_iff]
      exact ⟨fun hhead _ => hhead, fun hkeeps => hkeeps rfl⟩
  | markedUtf8 => exact iff_of_true (ofBytes_markedUtf8 h) nofun
  | utf16 order => exact iff_of_true (ofBytes_utf16 order h) nofun

end BundleAudit.Text
