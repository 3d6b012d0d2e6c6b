import BundleAudit.Json.Reader
import BundleAudit.Proofs.Text.Decimal
import BundleAudit.Proofs.Text.Escape
import BundleAudit.Proofs.Text.Utf8

/-!
# BundleAudit.Proofs.Json.Writing

**What is written for a value.** A code point of a text is written in one of four ways
(`writeCode_cases`), and all else that is written is plain ASCII and the gaps of the layout.
So a value on one line holds no line feed (`lineFeed_not_mem_write`), and it can be encoded
if its texts can, or if all of them are escaped (`isScalar_write`).
-/

namespace BundleAudit

namespace Json

/-! ### Code points -/

/-- The units as which one code point is written. -/
def unitsOf (asciiOnly : Bool) (c : Code) : Text := if asciiOnly then Text.splitCode c else [c]

/-- How a code point is written: as an escape by a letter, as one of its unit or of its two
halves, or as it is. -/
theorem writeCode_cases (asciiOnly : Bool) {c : Nat} (h : c < 0x110000) :
    (∃ e : Nat, e ≠ 0x75 ∧ 0x20 ≤ e ∧ e < 0x7F ∧ letterEscape? e = some c ∧ c < 0x80 ∧
      writeCode asciiOnly c = [Code.backslash, e]) ∨
    (c ≤ 0xFFFF ∧ writeCode asciiOnly c = unitEscape c) ∨
    (∃ a b : Nat, a ≤ 0xFFFF ∧ b ≤ 0xFFFF ∧ unitsOf asciiOnly c = [a, b] ∧
      writeCode asciiOnly c = unitEscape a ++ unitEscape b) ∨
    (c ≠ Code.doubleQuote ∧ c ≠ Code.backslash ∧ ¬c < 0x20 ∧ (asciiOnly = true → c < 0x7F) ∧
      writeCode asciiOnly c = [c]) := by
  by_cases hquote : c = Code.doubleQuote
  · exact .inl ⟨0x22, by decide, by decide, by decide, hquote ▸ rfl,
      hquote ▸ by decide, hquote ▸ rfl⟩
  by_cases hbackslash : c = Code.backslash
  · exact .inl ⟨0x5C, by decide, by decide, by decide, hbackslash ▸ rfl, hbackslash ▸ by decide,
      by rw [hbackslash]; rfl⟩
  by_cases hfeed : c = Code.lineFeed
  · exact .inl ⟨0x6E, by decide, by decide, by decide, hfeed ▸ rfl, hfeed ▸ by decide, hfeed ▸ rfl⟩
  by_cases hreturn : c = Code.carriageReturn
  · exact .inl ⟨0x72, by decide, by decide, by decide, hreturn ▸ rfl, hreturn ▸ by decide,
      hreturn ▸ rfl⟩
  by_cases htab : c = Code.tab
  · exact .inl ⟨0x74, by decide, by decide, by decide, htab ▸ rfl, htab ▸ by decide, htab ▸ rfl⟩
  by_cases hform : c = Code.formFeed
  · exact .inl ⟨0x66, by decide, by decide, by decide, hform ▸ rfl, hform ▸ by decide, hform ▸ rfl⟩
  by_cases hback : c = 0x08
  · exact .inl ⟨0x62, by decide, by decide, by decide, hback ▸ rfl, hback ▸ by decide, hback ▸ rfl⟩
  have hnone : ¬(c = Code.doubleQuote ∨ c = Code.backslash) := not_or.2 ⟨hquote, hbackslash⟩
  refine .inr ?_
  rw [writeCode, if_neg hnone, if_neg hfeed, if_neg hreturn, if_neg htab, if_neg hform,
    if_neg hback]
  by_cases hcontrol : c < 0x20
  · exact .inl ⟨by omega, if_pos hcontrol⟩
  rw [if_neg hcontrol]
  by_cases hescaped : (asciiOnly && decide (0x7F ≤ c)) = true
  · rw [if_pos hescaped, codeEscape]
    by_cases hle : c ≤ 0xFFFF
    · exact .inl ⟨hle, if_pos hle⟩
    · have hunits : unitsOf asciiOnly c = [Text.highHalf c, Text.lowHalf c] := by
        rw [unitsOf, if_pos (Bool.and_eq_true_iff.1 hescaped).1, Text.splitCode, if_neg hle]
      refine .inr (.inl ⟨_, _, ?_, ?_, hunits, if_neg hle⟩)
      · unfold Text.highHalf
        omega
      · unfold Text.lowHalf
        omega
  · refine .inr (.inr ⟨hquote, hbackslash, hcontrol, fun hascii => ?_, if_neg hescaped⟩)
    rw [hascii, Bool.true_and, decide_eq_true_iff] at hescaped
    omega

theorem unitsOf_of_le {c : Nat} (h : c ≤ 0xFFFF) (asciiOnly : Bool) :
    unitsOf asciiOnly c = [c] := by
  cases asciiOnly with
  | false => rfl
  | true => rw [unitsOf, if_pos rfl, Text.splitCode, if_pos h]

theorem unitsOf_of_plain {asciiOnly : Bool} {c : Nat} (h : asciiOnly = true → c < 0x7F) :
    unitsOf asciiOnly c = [c] := by
  cases asciiOnly with
  | false => rfl
  | true => exact unitsOf_of_le (by have := h rfl; omega) true

theorem range_of_mem_unitEscape {n : Nat} {d : Nat} (h : d ∈ unitEscape n) :
    0x20 ≤ d ∧ d < 0x7F := by
  rcases List.mem_append.1 h with h | h
  · have hd : d = Code.backslash ∨ d = 0x75 := by simpa [Text.ofString] using h
    rcases hd with rfl | rfl <;> decide
  · exact Text.range_of_mem_hex h

/-- What is written for a code point are plain characters of ASCII, or the code point itself if it
is not to be escaped. -/
theorem mem_writeCode {asciiOnly : Bool} {c d : Nat} (h : d ∈ writeCode asciiOnly c) :
    0x20 ≤ d ∧ d < 0x7F ∨ d = c ∧ ¬c < 0x20 ∧ asciiOnly = false := by
  by_cases hc : c < 0x110000
  · rcases writeCode_cases asciiOnly hc with ⟨e, -, hlow, hhigh, -, -, hwrite⟩ | ⟨-, hwrite⟩ |
      ⟨a, b, -, -, -, hwrite⟩ | ⟨-, -, hcontrol, hplain, hwrite⟩
    · rw [hwrite] at h
      have hd : d = Code.backslash ∨ d = e := by simpa using h
      rcases hd with rfl | rfl
      · exact .inl (by decide)
      · exact .inl ⟨hlow, hhigh⟩
    · exact .inl (range_of_mem_unitEscape (hwrite ▸ h))
    · rw [hwrite] at h
      exact .inl ((List.mem_append.1 h).elim range_of_mem_unitEscape range_of_mem_unitEscape)
    · rw [hwrite, List.mem_singleton] at h
      cases asciiOnly with
      | false => exact .inr ⟨h, hcontrol, rfl⟩
      | true => exact .inl ⟨by omega, h ▸ hplain rfl⟩
  · -- beyond all code points, nothing is special
    have hbeyond : 0x110000 ≤ c := Nat.not_lt.1 hc
    have hne : ∀ k < 0x110000, c ≠ k := fun k hk => by omega
    have hcontrol : ¬c < 0x20 := Nat.not_lt.2 (Nat.le_trans (by decide) hbeyond)
    rw [writeCode, if_neg (not_or.2 ⟨hne _ (by decide), hne _ (by decide)⟩),
      if_neg (hne _ (by decide)), if_neg (hne _ (by decide)), if_neg (hne _ (by decide)),
      if_neg (hne _ (by decide)), if_neg (hne _ (by decide)), if_neg hcontrol] at h
    cases asciiOnly with
    | false => exact .inr ⟨List.mem_singleton.1 h, hcontrol, rfl⟩
    | true =>
        rw [Bool.true_and, if_pos (decide_eq_true (Nat.le_trans (by decide) hbeyond)), codeEscape,
          if_neg (Nat.not_le.2 (Nat.lt_of_lt_of_le (by decide) hbeyond))] at h
        exact .inl ((List.mem_append.1 h).elim range_of_mem_unitEscape range_of_mem_unitEscape)

/-! ### Layouts -/

/-- A text that the reader skips between the parts of a value. -/
def IsGap (t : Text) : Prop := ∀ c ∈ t, isGap c = true

theorem isGap_nil : IsGap [] := nofun

theorem isGap_edge (l : Layout) (depth : Nat) : IsGap (l.edge depth) := by
  cases hindent : l.indent with
  | none => simp [Layout.edge, hindent, IsGap]
  | some n =>
      have hspaces : ∀ c ∈ List.replicate (n * depth) Code.space, isGap c = true := fun c hc => by
        rw [List.eq_of_mem_replicate hc]
        rfl
      rw [Layout.edge, hindent]
      exact List.forall_mem_cons.2 ⟨rfl, hspaces⟩

/-- A separator is a comma and a gap. -/
theorem exists_separator_eq (l : Layout) (depth : Nat) :
    ∃ gap, IsGap gap ∧ l.separator depth = Code.comma :: gap := by
  cases hindent : l.indent with
  | none => exact ⟨[Code.space], List.forall_mem_singleton.2 rfl,
      by rw [Layout.separator, hindent]; rfl⟩
  | some n =>
      refine ⟨l.edge depth, isGap_edge l depth, ?_⟩
      rw [Layout.separator, Layout.edge, hindent]
      rfl

theorem wrap_of_ne_nil (l : Layout) (depth : Nat) (opening closing : Code) {items : List Text}
    (h : items ≠ []) : l.wrap depth opening closing items =
      opening :: (l.edge (depth + 1) ++ List.intercalate (l.separator (depth + 1)) items ++
        l.edge depth ++ [closing]) := by
  cases items with
  | nil => exact absurd rfl h
  | cons item rest => simp [Layout.wrap]

theorem mem_of_mem_intercalate {separator : Text} {parts : List Text} {c : Code}
    (h : c ∈ List.intercalate separator parts) : c ∈ separator ∨ ∃ part ∈ parts, c ∈ part := by
  induction parts with
  | nil => simp at h
  | cons part rest ih =>
      cases rest with
      | nil =>
          rw [List.intercalate_singleton] at h
          exact .inr ⟨part, List.mem_cons_self, h⟩
      | cons next more =>
          rw [List.intercalate_cons_of_ne_nil (List.cons_ne_nil _ _)] at h
          rcases List.mem_append.1 h with h | h
          · rcases List.mem_append.1 h with h | h
            · exact .inr ⟨part, List.mem_cons_self, h⟩
            · exact .inl h
          · exact (ih h).imp_right fun ⟨part, hpart, hc⟩ =>
              ⟨part, List.mem_cons_of_mem _ hpart, hc⟩

/-! ### Values -/

mutual

/-- The texts in a value, the names of members among them. -/
def texts : Json → List Text
  | .text t => [t]
  | .list items => textsOfItems items
  | .object members => textsOfMembers members
  | .null | .bool _ | .number _ => []

/-- The texts in the items of an array. -/
def textsOfItems : List Json → List Text
  | [] => []
  | v :: rest => texts v ++ textsOfItems rest

/-- The texts in the members of an object, their names included. -/
def textsOfMembers : List (Text × Json) → List Text
  | [] => []
  | (name, v) :: rest => name :: texts v ++ textsOfMembers rest

end

theorem mem_textsOfItems {items : List Json} {t : Text} :
    t ∈ textsOfItems items ↔ ∃ v ∈ items, t ∈ v.texts := by
  induction items with
  | nil => simp [textsOfItems]
  | cons v rest ih => simp [textsOfItems, ih]

theorem mem_textsOfMembers {members : List (Text × Json)} {t : Text} :
    t ∈ textsOfMembers members ↔ ∃ p ∈ members, t = p.1 ∨ t ∈ p.2.texts := by
  induction members with
  | nil => simp [textsOfMembers]
  | cons p rest ih =>
      obtain ⟨name, v⟩ := p
      simp [textsOfMembers, ih, or_assoc]

/-- A class of code points that holds everything a layout writes but the texts. -/
structure Layout.WritesIn (l : Layout) (P : Code → Prop) : Prop where
  plain : ∀ c : Nat, 0x20 ≤ c → c < 0x7F → P c
  separator : ∀ depth, ∀ c ∈ l.separator depth, P c
  edge : ∀ depth, ∀ c ∈ l.edge depth, P c

section

variable {l : Layout} {P : Code → Prop}

theorem holds_wrap (hl : l.WritesIn P) {depth : Nat} {opening closing : Nat}
    (ho : 0x20 ≤ opening ∧ opening < 0x7F)
    (hc : 0x20 ≤ closing ∧ closing < 0x7F) {items : List Text}
    (h : ∀ item ∈ items, ∀ c ∈ item, P c) : ∀ c ∈ l.wrap depth opening closing items, P c := by
  have hopening := hl.plain opening ho.1 ho.2
  have hclosing := hl.plain closing hc.1 hc.2
  cases items with
  | nil => exact List.forall_mem_cons.2 ⟨hopening, List.forall_mem_singleton.2 hclosing⟩
  | cons item rest =>
      rw [wrap_of_ne_nil l depth _ _ (List.cons_ne_nil item rest)]
      refine List.forall_mem_cons.2 ⟨hopening, fun c hc => ?_⟩
      simp only [List.mem_append, List.mem_singleton] at hc
      rcases hc with ((hc | hc) | hc) | rfl
      · exact hl.edge _ c hc
      · rcases mem_of_mem_intercalate hc with hc | ⟨part, hpart, hc⟩
        · exact hl.separator _ c hc
        · exact h part hpart c hc
      · exact hl.edge _ c hc
      · exact hclosing

theorem holds_writeText (hl : l.WritesIn P) {t : Text}
    (h : ∀ c ∈ t, ∀ d ∈ writeCode l.asciiOnly c, P d) :
    ∀ d ∈ writeText l.asciiOnly t, P d := by
  intro d hd
  simp only [writeText, List.cons_append, List.mem_cons, List.mem_append, List.mem_flatMap,
    List.not_mem_nil, or_false] at hd
  rcases hd with rfl | ⟨c, hc, hd⟩ | rfl
  · exact hl.plain _ (by decide) (by decide)
  · exact h c hc d hd
  · exact hl.plain _ (by decide) (by decide)

theorem holds_ofInt (hl : l.WritesIn P) (k : Int) : ∀ c ∈ Text.ofInt k, P c := by
  have hdigits : ∀ n, ∀ c ∈ Text.ofNat n, P c := fun n c hc => by
    have hdigit : 0x30 ≤ c ∧ c ≤ 0x39 := of_decide_eq_true (Text.isAsciiDigit_ofNat n c hc)
    exact hl.plain c (Nat.le_trans (by decide) hdigit.1) (Nat.lt_of_le_of_lt hdigit.2 (by decide))
  cases k with
  | ofNat n => exact hdigits n
  | negSucc n =>
      exact List.forall_mem_cons.2 ⟨hl.plain _ (by decide) (by decide), hdigits (n + 1)⟩

mutual

/-- What is written holds the code points that are written for its texts, and those of the
layout. -/
theorem holds_writeAt (hl : l.WritesIn P) (v : Json) (depth : Nat)
    (h : ∀ t ∈ v.texts, ∀ c ∈ t, ∀ d ∈ writeCode l.asciiOnly c, P d) :
    ∀ d ∈ writeAt l depth v, P d := by
  have hword : ∀ word : Text, word.all (fun c => decide (0x20 ≤ c) && decide (c < 0x7F)) = true →
      ∀ d ∈ word, P d := fun word hword d hd => by
    have hd := List.all_eq_true.1 hword d hd
    rw [Bool.and_eq_true, decide_eq_true_iff, decide_eq_true_iff] at hd
    exact hl.plain d hd.1 hd.2
  match v with
  | .null =>
      rw [writeAt]
      exact hword _ rfl
  | .bool true =>
      rw [writeAt]
      exact hword _ rfl
  | .bool false =>
      rw [writeAt]
      exact hword _ rfl
  | .number k =>
      rw [writeAt]
      exact holds_ofInt hl k
  | .text t =>
      rw [writeAt]
      exact holds_writeText hl (h t (by simp [texts]))
  | .list items =>
      rw [writeAt]
      exact holds_wrap hl (by decide) (by decide) (holds_writeItems hl items _ h)
  | .object members =>
      rw [writeAt]
      exact holds_wrap hl (by decide) (by decide) (holds_writeMembers hl members _ h)

theorem holds_writeItems (hl : l.WritesIn P) (items : List Json) (depth : Nat)
    (h : ∀ t ∈ textsOfItems items, ∀ c ∈ t, ∀ d ∈ writeCode l.asciiOnly c, P d) :
    ∀ part ∈ writeItems l depth items, ∀ d ∈ part, P d := by
  match items with
  | [] =>
      rw [writeItems]
      exact nofun
  | v :: rest =>
      rw [textsOfItems, List.forall_mem_append] at h
      rw [writeItems]
      exact List.forall_mem_cons.2 ⟨holds_writeAt hl v depth h.1,
        holds_writeItems hl rest depth h.2⟩

theorem holds_writeMembers (hl : l.WritesIn P) (members : List (Text × Json)) (depth : Nat)
    (h : ∀ t ∈ textsOfMembers members, ∀ c ∈ t, ∀ d ∈ writeCode l.asciiOnly c, P d) :
    ∀ part ∈ writeMembers l depth members, ∀ d ∈ part, P d := by
  match members with
  | [] =>
      rw [writeMembers]
      exact nofun
  | (name, v) :: rest =>
      rw [textsOfMembers, List.cons_append, List.forall_mem_cons, List.forall_mem_append] at h
      obtain ⟨hname, hv, hrest⟩ := h
      have hcolon : ∀ d ∈ Text.ofString ": ", P d := by
        intro d hd
        have hd : d = Code.colon ∨ d = Code.space := by simpa [Text.ofString] using hd
        rcases hd with rfl | rfl
        · exact hl.plain _ (by decide) (by decide)
        · exact hl.plain _ (by decide) (by decide)
      rw [writeMembers]
      refine List.forall_mem_cons.2 ⟨?_, holds_writeMembers hl rest depth hrest⟩
      exact List.forall_mem_append.2 ⟨List.forall_mem_append.2
        ⟨holds_writeText hl hname, hcolon⟩, holds_writeAt hl v depth hv⟩

end

end

/-- What is written on one line holds no line feed. -/
theorem lineFeed_not_mem_write (v : Json) : Code.lineFeed ∉ write .line v := by
  have hline : Layout.line.WritesIn (· ≠ Code.lineFeed) := by
    refine ⟨fun c hlow _ heq => ?_, fun depth c hc => ?_, fun depth => nofun⟩
    · rw [heq] at hlow
      exact absurd hlow (by decide)
    · have hc : c = Code.comma ∨ c = Code.space := by
        simpa [Layout.separator, Layout.line, Text.ofString] using hc
      rcases hc with rfl | rfl <;> decide
  refine fun hmem => holds_writeAt hline v 0 (fun t _ c _ d hd => ?_) _ hmem rfl
  rintro rfl
  rcases mem_writeCode hd with hd | ⟨rfl, hcontrol, -⟩
  · exact absurd hd.1 (by decide)
  · exact hcontrol (by decide)

/-- A layout adds no surrogates. -/
theorem Layout.writesIn_isScalar (l : Layout) : l.WritesIn (Code.isScalar · = true) := by
  have hgap : ∀ gap, IsGap gap → ∀ c ∈ gap, Code.isScalar c = true := by
    intro gap hgap c hc
    have hc := hgap c hc
    simp only [isGap, Bool.or_eq_true, beq_iff_eq] at hc
    rcases hc with ((rfl | rfl) | rfl) | rfl <;> rfl
  refine ⟨fun c _ hhigh => Code.isScalar_of_ascii (by omega), fun depth => ?_, fun depth =>
    hgap _ (isGap_edge l depth)⟩
  obtain ⟨gap, hbetween, hseparator⟩ := exists_separator_eq l depth
  rw [hseparator]
  exact List.forall_mem_cons.2 ⟨rfl, hgap gap hbetween⟩

/-- What is written can be encoded if the texts of the value can, or are escaped. -/
theorem isScalar_write {l : Layout} {v : Json}
    (h : l.asciiOnly = true ∨ ∀ t ∈ v.texts, t.all Code.isScalar = true) :
    (write l v).all Code.isScalar = true := by
  refine List.all_eq_true.2 (holds_writeAt l.writesIn_isScalar v 0 fun t ht c hc d hd => ?_)
  rcases mem_writeCode hd with hd | ⟨rfl, -, hplain⟩
  · exact Code.isScalar_of_ascii (by omega)
  · rcases h with hascii | h
    · rw [hascii] at hplain
      cases hplain
    · exact List.all_eq_true.1 (h t ht) d hc

end Json

end BundleAudit
