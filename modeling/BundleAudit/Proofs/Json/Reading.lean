import BundleAudit.Proofs.Json.Writing
import Mathlib.Data.List.Basic

/-!
# BundleAudit.Proofs.Json.Reading

**What is written as JSON is read back,** in either layout. A text is written one code
point after the other, and each of them is read as the units it was written as
(`readUnits_writeCode`); a number ends where no digit follows; and the reader skips the
gaps that a layout leaves between the parts of a value. So a value whose texts hold no
surrogates is the one that its text denotes (`read?_write`).
-/

namespace BundleAudit

namespace Json

/-! ### Numbers -/

/-- What follows a number in a text: no digit. -/
def EndsNumber (rest : Text) : Prop := ∀ c ∈ rest.head?, c.isAsciiDigit = false

theorem takeWhile_digits {digits rest : Text} (h : ∀ c ∈ digits, c.isAsciiDigit = true)
    (hrest : EndsNumber rest) : (digits ++ rest).takeWhile Code.isAsciiDigit = digits := by
  have hnone : rest.takeWhile Code.isAsciiDigit = [] := by
    cases rest with
    | nil => rfl
    | cons c more => exact List.takeWhile_cons_of_neg (by simp [hrest c rfl])
  rw [List.takeWhile_append_of_pos h, hnone, List.append_nil]

theorem dropWhile_digits {digits rest : Text} (h : ∀ c ∈ digits, c.isAsciiDigit = true)
    (hrest : EndsNumber rest) : (digits ++ rest).dropWhile Code.isAsciiDigit = rest := by
  have hsame : rest.dropWhile Code.isAsciiDigit = rest := by
    cases rest with
    | nil => rfl
    | cons c more => exact List.dropWhile_cons_of_neg (by simp [hrest c rfl])
  rw [List.dropWhile_append_of_pos h, hsame]

theorem readNumber_ofInt (n : Int) {rest : Text} (hrest : EndsNumber rest) :
    readNumber (Text.ofInt n ++ rest) = some (n, rest) := by
  cases n with
  | negSucc n =>
      have hdigits := Text.isAsciiDigit_ofNat (n + 1)
      rw [Text.ofInt, List.cons_append, readNumber, takeWhile_digits hdigits hrest,
        dropWhile_digits hdigits hrest]
      simp [Text.ofNat_ne_nil, Text.foldl_ofNat]
      omega
  | ofNat n =>
      have hdigits := Text.isAsciiDigit_ofNat n
      have hminus : ∀ more, Text.ofNat n ++ rest ≠ Code.minus :: more := by
        intro more heq
        obtain ⟨c, digits, hcons⟩ := List.exists_cons_of_ne_nil (Text.ofNat_ne_nil n)
        rw [hcons] at heq
        have hc := hdigits c (hcons ▸ List.mem_cons_self)
        rw [(List.cons.inj heq).1] at hc
        cases hc
      rw [Text.ofInt, readNumber]
      · rw [takeWhile_digits hdigits hrest, dropWhile_digits hdigits hrest]
        simp [Text.ofNat_ne_nil, Text.foldl_ofNat]
      · exact hminus

/-! ### Texts -/

theorem readUnits_escape {v : Code} {e : Text} (h : Text.IsEscapeOf v e) (n : Nat) (rest : Text) :
    readUnits (n + 1) (e ++ rest) = (readUnits n rest).map fun p => (v :: p.1, p.2) := by
  obtain ⟨ha, hb, hc, hd⟩ := h
  simp only [List.cons_append, List.nil_append, readUnits, unit?, ha, hb, hc, hd]
  cases hrest : readUnits n rest <;> simp [hrest]

theorem readUnits_letter {e c : Code} (he : e ≠ 0x75) (h : letterEscape? e = some c) (n : Nat)
    (rest : Text) : readUnits (n + 1) (Code.backslash :: e :: rest) =
      (readUnits n rest).map fun p => (c :: p.1, p.2) := by
  rw [readUnits]
  · rw [h]
    cases readUnits n rest <;> rfl
  · exact fun h' => he h'

theorem readUnits_plain {c : Code} (hquote : c ≠ Code.doubleQuote) (hbackslash : c ≠ Code.backslash)
    (hc : ¬c < 0x20) (n : Nat) (rest : Text) :
    readUnits (n + 1) (c :: rest) = (readUnits n rest).map fun p => (c :: p.1, p.2) := by
  rw [readUnits]
  · rw [if_neg hquote, if_neg hc]
    cases readUnits n rest <;> rfl
  · exact fun _ h => absurd h hbackslash
  · exact fun _ _ h => absurd h hbackslash

/-- What is written for a code point is read as its units. -/
theorem readUnits_writeCode (asciiOnly : Bool) {c : Nat} (h : c < 0x110000) (n : Nat)
    (rest : Text) :
    readUnits (n + (unitsOf asciiOnly c).length) (writeCode asciiOnly c ++ rest) =
      (readUnits n rest).map fun p => (unitsOf asciiOnly c ++ p.1, p.2) := by
  rcases writeCode_cases asciiOnly h with ⟨e, he, -, -, hread, hc, hwrite⟩ | ⟨hle, hwrite⟩ |
    ⟨a, b, ha, hb, hunits, hwrite⟩ | ⟨hquote, hbackslash, hcontrol, hascii, hwrite⟩
  · rw [hwrite, unitsOf_of_le (by omega)]
    exact readUnits_letter he hread n rest
  · rw [hwrite, unitsOf_of_le hle]
    exact readUnits_escape (Text.isEscapeOf_hex hle) n rest
  · rw [hwrite, hunits, List.append_assoc]
    refine (readUnits_escape (Text.isEscapeOf_hex ha) (n + 1) _).trans ?_
    rw [show readUnits (n + 1) (unitEscape b ++ rest) = _ from
      readUnits_escape (Text.isEscapeOf_hex hb) n rest, Option.map_map]
    rfl
  · rw [hwrite, unitsOf_of_plain hascii]
    exact readUnits_plain hquote hbackslash hcontrol n rest

theorem length_unitsOf_le (asciiOnly : Bool) {c : Nat} (h : c < 0x110000) :
    (unitsOf asciiOnly c).length ≤ (writeCode asciiOnly c).length := by
  rcases writeCode_cases asciiOnly h with ⟨e, -, -, -, -, hc, hwrite⟩ | ⟨hle, hwrite⟩ |
    ⟨a, b, -, -, hunits, hwrite⟩ | ⟨-, -, -, hascii, hwrite⟩
  · rw [hwrite, unitsOf_of_le (by omega)]
    exact Nat.le_succ 1
  · rw [hwrite, unitsOf_of_le hle]
    exact Nat.le_add_left 1 5
  · rw [hwrite, hunits]
    exact Nat.le_add_left 2 10
  · exact Nat.le_of_eq (by rw [hwrite, unitsOf_of_plain hascii])

theorem length_flatMap_unitsOf_le (asciiOnly : Bool) {t : Text} (h : ∀ c ∈ t, c < 0x110000) :
    (t.flatMap (unitsOf asciiOnly)).length ≤ (t.flatMap (writeCode asciiOnly)).length := by
  induction t with
  | nil => exact Nat.le_refl 0
  | cons c more ih =>
      obtain ⟨hc, hmore⟩ := List.forall_mem_cons.1 h
      rw [List.flatMap_cons, List.flatMap_cons, List.length_append, List.length_append]
      exact Nat.add_le_add (length_unitsOf_le asciiOnly hc) (ih hmore)

theorem readUnits_flatMap (asciiOnly : Bool) {t : Text} (h : ∀ c ∈ t, c < 0x110000) (n : Nat)
    (rest : Text) :
    readUnits (n + 1 + (t.flatMap (unitsOf asciiOnly)).length)
        (t.flatMap (writeCode asciiOnly) ++ Code.doubleQuote :: rest) =
      some (t.flatMap (unitsOf asciiOnly), rest) := by
  induction t with
  | nil =>
      show readUnits (n + 1) (Code.doubleQuote :: rest) = some ([], rest)
      rw [readUnits]
      · exact if_pos rfl
      · exact fun _ h => nomatch h
      · exact fun _ _ h => nomatch h
  | cons c more ih =>
      obtain ⟨hc, hmore⟩ := List.forall_mem_cons.1 h
      rw [List.flatMap_cons, List.flatMap_cons, List.append_assoc, List.length_append,
        Nat.add_comm (unitsOf asciiOnly c).length, ← Nat.add_assoc,
        readUnits_writeCode asciiOnly hc,
        ih hmore]
      rfl

theorem joinPairs_flatMap_unitsOf (asciiOnly : Bool) {t : Text} (h : t.all Code.isScalar = true) :
    Text.joinPairs (t.flatMap (unitsOf asciiOnly)) = t := by
  have hself : Text.joinPairs t = t := Text.joinPairs_eq_self fun c hc =>
    Text.isHighSurrogate_of_isScalar (List.all_eq_true.1 h c hc)
  cases asciiOnly with
  | false =>
      have hsame : t.flatMap (unitsOf false) = t := List.flatMap_singleton' t
      rw [hsame, hself]
  | true =>
      have hlt : ∀ c ∈ t, c < 0x110000 := fun c hc =>
        (Code.isScalar_iff.1 (List.all_eq_true.1 h c hc)).1
      have hunits : unitsOf true = Text.splitCode := funext fun c => if_pos rfl
      rw [hunits, ← Text.splitPairs, Text.joinPairs_splitPairs hlt, hself]

/-- A text that holds no surrogates is read back behind its opening quote. -/
theorem readText_write (asciiOnly : Bool) {t : Text} (h : t.all Code.isScalar = true)
    (rest : Text) :
    readText (t.flatMap (writeCode asciiOnly) ++ Code.doubleQuote :: rest) = some (t, rest) := by
  have hlt : ∀ c ∈ t, c < 0x110000 := fun c hc =>
    (Code.isScalar_iff.1 (List.all_eq_true.1 h c hc)).1
  have hlength := length_flatMap_unitsOf_le asciiOnly hlt
  have hsteps : (t.flatMap (writeCode asciiOnly) ++ Code.doubleQuote :: rest).length =
      (t.flatMap (writeCode asciiOnly)).length - (t.flatMap (unitsOf asciiOnly)).length +
        rest.length + 1 + (t.flatMap (unitsOf asciiOnly)).length := by
    rw [List.length_append, List.length_cons]
    omega
  rw [readText, hsteps, readUnits_flatMap asciiOnly hlt, Option.map_some]
  exact congrArg (fun units => some (units, rest)) (joinPairs_flatMap_unitsOf asciiOnly h)

/-! ### Layouts -/

theorem skipGap_append {gap : Text} (h : IsGap gap) (rest : Text) :
    skipGap (gap ++ rest) = skipGap rest := List.dropWhile_append_of_pos h

theorem skipGap_cons {c : Code} (h : isGap c = false) (rest : Text) :
    skipGap (c :: rest) = c :: rest := List.dropWhile_cons_of_neg (by simp [h])

theorem isGap_comma : isGap Code.comma = false := rfl

theorem isGap_colon : isGap Code.colon = false := rfl

theorem isGap_leftBracket : isGap Code.leftBracket = false := rfl

theorem isGap_rightBracket : isGap Code.rightBracket = false := rfl

theorem isGap_leftBrace : isGap Code.leftBrace = false := rfl

theorem isGap_rightBrace : isGap Code.rightBrace = false := rfl

/-! ### Values -/

theorem writeText_append (asciiOnly : Bool) (t rest : Text) :
    writeText asciiOnly t ++ rest =
      Code.doubleQuote :: (t.flatMap (writeCode asciiOnly) ++ Code.doubleQuote :: rest) := by
  simp [writeText]

theorem readValue_gap {gap : Text} (h : IsGap gap) (n : Nat) (t : Text) :
    readValue n (gap ++ t) = readValue n t := by
  cases n with
  | zero => simp only [readValue]
  | succ n => simp only [readValue, skipGap_append h]

theorem readValue_text (asciiOnly : Bool) {t : Text} (h : t.all Code.isScalar = true) (n : Nat)
    (rest : Text) : readValue (n + 1) (writeText asciiOnly t ++ rest) = some (.text t, rest) := by
  rw [writeText_append, readValue, skipGap_cons rfl]
  simp only [readText_write asciiOnly h, Option.map_some]

/-- No sign and no digit is a gap. -/
theorem isGap_eq_false_of_range {c : Nat} (h : 0x2D ≤ c ∧ c ≤ 0x39) : isGap c = false := by
  have hne : ∀ d, ¬(0x2D ≤ d ∧ d ≤ 0x39) → c ≠ d := fun d hd heq => hd (heq ▸ h)
  simp [isGap, hne Code.space (by decide), hne Code.lineFeed (by decide),
    hne Code.carriageReturn (by decide), hne Code.tab (by decide)]

theorem readValue_number (k : Int) {rest : Text} (hrest : EndsNumber rest) (n : Nat) :
    readValue (n + 1) (Text.ofInt k ++ rest) = some (.number k, rest) := by
  have hread := readNumber_ofInt k hrest
  obtain ⟨c, more, hcons, hrange⟩ := Text.exists_ofInt_eq_cons k
  have hne : ∀ d, ¬(0x2D ≤ d ∧ d ≤ 0x39) → c ≠ d := fun d hd heq => hd (heq ▸ hrange)
  have hgap := isGap_eq_false_of_range hrange
  rw [hcons, List.cons_append] at hread ⊢
  rw [readValue, skipGap_cons hgap]
  split
  · next heq => exact absurd (List.cons.inj heq).1 (hne _ (by decide))
  · next heq => exact absurd (List.cons.inj heq).1 (hne _ (by decide))
  · next heq => exact absurd (List.cons.inj heq).1 (hne _ (by decide))
  · have hword : ∀ (d : Code) (word : Text), ¬(0x2D ≤ d ∧ d ≤ 0x39) →
        List.isPrefixOf? (d :: word) (c :: (more ++ rest)) = none := fun d word hd =>
      Option.eq_none_iff_forall_ne_some.2 fun after hafter =>
        hne d hd (List.cons.inj (List.isPrefixOf?_eq_some_iff_append_eq.1 hafter)).1.symm
    rw [show List.isPrefixOf? (Text.ofString "null") (c :: (more ++ rest)) = none from
        hword 0x6E _ (by decide),
      show List.isPrefixOf? (Text.ofString "true") (c :: (more ++ rest)) = none from
        hword 0x74 _ (by decide),
      show List.isPrefixOf? (Text.ofString "false") (c :: (more ++ rest)) = none from
        hword 0x66 _ (by decide), hread]
    rfl

/-- A written value begins neither with a gap nor with a closing bracket. -/
theorem exists_writeAt_eq_cons (l : Layout) (depth : Nat) (v : Json) :
    ∃ c more, writeAt l depth v = c :: more ∧ isGap c = false ∧ c ≠ Code.rightBracket := by
  cases v with
  | null => exact ⟨_, _, by rw [writeAt]; rfl, rfl, by decide⟩
  | bool value =>
      cases value with
      | false => exact ⟨_, _, by rw [writeAt]; rfl, rfl, by decide⟩
      | true => exact ⟨_, _, by rw [writeAt]; rfl, rfl, by decide⟩
  | number k =>
      obtain ⟨c, more, hcons, hrange⟩ := Text.exists_ofInt_eq_cons k
      refine ⟨c, more, by rw [writeAt, hcons], isGap_eq_false_of_range hrange, ?_⟩
      rintro rfl
      exact absurd hrange.2 (by decide)
  | text t => exact ⟨_, _, by rw [writeAt]; rfl, rfl, by decide⟩
  | list items =>
      rw [writeAt]
      cases writeItems l (depth + 1) items with
      | nil => exact ⟨_, _, rfl, rfl, by decide⟩
      | cons item rest => exact ⟨_, _, rfl, rfl, by decide⟩
  | object members =>
      rw [writeAt]
      cases writeMembers l (depth + 1) members with
      | nil => exact ⟨_, _, rfl, rfl, by decide⟩
      | cons member rest => exact ⟨_, _, rfl, rfl, by decide⟩

/-- Joined parts begin as the first of them does. -/
theorem exists_intercalate_eq_cons (separator : Text) (c : Code) (more : Text) (parts : List Text) :
    ∃ tail, List.intercalate separator ((c :: more) :: parts) = c :: tail := by
  cases parts with
  | nil => exact ⟨more, List.intercalate_singleton⟩
  | cons part rest =>
      exact ⟨_, List.intercalate_cons_of_ne_nil (List.cons_ne_nil part rest)⟩

theorem readValue_list {body : Text} (h : (skipGap body).head? ≠ some Code.rightBracket) (n : Nat) :
    readValue (n + 1) (Code.leftBracket :: body) =
      (readItems n body).map fun p => (.list p.1, p.2) := by
  simp only [readValue, skipGap_cons isGap_leftBracket]
  split
  · next heq => exact absurd (by rw [heq]; rfl) h
  · rfl

theorem readValue_object {body : Text} (h : (skipGap body).head? ≠ some Code.rightBrace) (n : Nat) :
    readValue (n + 1) (Code.leftBrace :: body) =
      (readMembers n body).map fun p => (.object p.1, p.2) := by
  simp only [readValue, skipGap_cons isGap_leftBrace]
  split
  · next heq => exact absurd (by rw [heq]; rfl) h
  · rfl

theorem readMembers_gap {gap : Text} (h : IsGap gap) (n : Nat) (t : Text) :
    readMembers n (gap ++ t) = readMembers n t := by
  cases n with
  | zero => simp only [readMembers]
  | succ n => simp only [readMembers, skipGap_append h]

/-- The members from one on of which the name and the value are read. -/
def readMembersFrom (n : Nat) (name : Text) (p : Json × Text) :
    Option (List (Text × Json) × Text) :=
  match skipGap p.2 with
  | Code.rightBrace :: rest => some ([(name, p.1)], rest)
  | Code.comma :: rest => do
    let (members, rest) ← readMembers n rest
    return ((name, p.1) :: members, rest)
  | _ => none

/-- A member is read as its name and its value, whatever decides about those after it. -/
theorem readMembers_writeText (asciiOnly : Bool) {name : Text} (h : name.all Code.isScalar = true)
    (n : Nat) (rest : Text) : readMembers (n + 1) (writeText asciiOnly name ++ (": " ++ rest)) =
      (readValue n rest).bind (readMembersFrom n name) := by
  have hspace : IsGap [Code.space] := List.forall_mem_singleton.2 rfl
  have hcolon : skipGap (": " ++ rest) = Code.colon :: ([Code.space] ++ rest) :=
    skipGap_cons isGap_colon _
  rw [writeText_append, readMembers, skipGap_cons rfl]
  simp only [readText_write asciiOnly h, Option.bind_eq_bind, Option.bind_some, hcolon,
    readValue_gap hspace]
  rfl

/-- No number goes on in a gap or in a code point that is no digit. -/
theorem endsNumber_append {gap : Text} (h : IsGap gap) {c : Code} (hc : c.isAsciiDigit = false)
    (rest : Text) : EndsNumber (gap ++ c :: rest) := by
  cases gap with
  | nil =>
      intro d hd
      rw [← Option.some.inj hd]
      exact hc
  | cons g more =>
      intro d hd
      rw [← Option.some.inj hd]
      have hgap := h g List.mem_cons_self
      simp only [isGap, Bool.or_eq_true, beq_iff_eq] at hgap
      rcases hgap with ((rfl | rfl) | rfl) | rfl <;> rfl

/-! ### Steps

Each reader calls the others with one step less. So the induction is on the number of steps, over
what all three of them read back within it. -/

/-- Within `n` steps, what is written for a value is read back, whatever follows it, and so are
items up to the closing bracket and members up to the closing brace. -/
structure ReadsBack (l : Layout) (n : Nat) : Prop where
  value : ∀ (v : Json) (depth : Nat) (rest : Text),
    (∀ t ∈ v.texts, t.all Code.isScalar = true) → (writeAt l depth v).length ≤ n →
    EndsNumber rest → readValue n (writeAt l depth v ++ rest) = some (v, rest)
  items : ∀ (items : List Json) (depth : Nat) (gap gap' rest : Text), items ≠ [] →
    (∀ t ∈ textsOfItems items, t.all Code.isScalar = true) →
    (List.intercalate (l.separator depth) (writeItems l depth items)).length < n →
    IsGap gap → IsGap gap' →
    readItems n (gap ++ (List.intercalate (l.separator depth) (writeItems l depth items) ++
      (gap' ++ Code.rightBracket :: rest))) = some (items, rest)
  members : ∀ (members : List (Text × Json)) (depth : Nat) (gap gap' rest : Text), members ≠ [] →
    (∀ t ∈ textsOfMembers members, t.all Code.isScalar = true) →
    (List.intercalate (l.separator depth) (writeMembers l depth members)).length < n →
    IsGap gap → IsGap gap' →
    readMembers n (gap ++ (List.intercalate (l.separator depth) (writeMembers l depth members) ++
      (gap' ++ Code.rightBrace :: rest))) = some (members, rest)

section

variable {l : Layout} {n : Nat}

theorem ReadsBack.list (h : ReadsBack l n) {items : List Json} (depth : Nat) (rest : Text)
    (htexts : ∀ t ∈ textsOfItems items, t.all Code.isScalar = true)
    (hn : (writeAt l depth (.list items)).length ≤ n + 1) :
    readValue (n + 1) (writeAt l depth (.list items) ++ rest) = some (.list items, rest) := by
  cases items with
  | nil =>
      rw [writeAt, writeItems]
      show readValue (n + 1) (Code.leftBracket :: Code.rightBracket :: rest) = _
      rw [readValue, skipGap_cons isGap_leftBracket]
      simp only [skipGap_cons isGap_rightBracket]
  | cons v items =>
      have hne : writeItems l (depth + 1) (v :: items) ≠ [] := by simp [writeItems]
      rw [writeAt, wrap_of_ne_nil l depth _ _ hne] at hn ⊢
      have hitems := h.items (v :: items) (depth + 1) (l.edge (depth + 1)) (l.edge depth) rest
        (List.cons_ne_nil _ _) htexts (by
          simp only [List.length_append, List.length_cons, List.length_nil] at hn
          omega) (isGap_edge l _) (isGap_edge l _)
      obtain ⟨d, more, hv, hd, hbracket⟩ := exists_writeAt_eq_cons l (depth + 1) v
      obtain ⟨tail, hfirst⟩ := exists_intercalate_eq_cons (l.separator (depth + 1)) d more
        (writeItems l (depth + 1) items)
      rw [← hv, ← writeItems] at hfirst
      simp only [List.append_assoc, List.cons_append, List.nil_append]
      rw [readValue_list, hitems]
      · rfl
      · rw [skipGap_append (isGap_edge l _), hfirst, List.cons_append, skipGap_cons hd]
        exact fun h => hbracket (Option.some.inj h)

theorem ReadsBack.object (h : ReadsBack l n) {members : List (Text × Json)} (depth : Nat)
    (rest : Text) (htexts : ∀ t ∈ textsOfMembers members, t.all Code.isScalar = true)
    (hn : (writeAt l depth (.object members)).length ≤ n + 1) :
    readValue (n + 1) (writeAt l depth (.object members) ++ rest) =
      some (.object members, rest) := by
  cases members with
  | nil =>
      rw [writeAt, writeMembers]
      show readValue (n + 1) (Code.leftBrace :: Code.rightBrace :: rest) = _
      rw [readValue, skipGap_cons isGap_leftBrace]
      simp only [skipGap_cons isGap_rightBrace]
  | cons member members =>
      have hne : writeMembers l (depth + 1) (member :: members) ≠ [] := by simp [writeMembers]
      rw [writeAt, wrap_of_ne_nil l depth _ _ hne] at hn ⊢
      have hmembers := h.members (member :: members) (depth + 1) (l.edge (depth + 1))
        (l.edge depth) rest (List.cons_ne_nil _ _) htexts (by
          simp only [List.length_append, List.length_cons, List.length_nil] at hn
          omega) (isGap_edge l _) (isGap_edge l _)
      obtain ⟨tail, hfirst⟩ := exists_intercalate_eq_cons (l.separator (depth + 1)) Code.doubleQuote
        (member.1.flatMap (writeCode l.asciiOnly) ++ Code.doubleQuote ::
          (": " ++ writeAt l (depth + 1) member.2)) (writeMembers l (depth + 1) members)
      rw [← writeText_append, ← List.append_assoc] at hfirst
      simp only [List.append_assoc, List.cons_append, List.nil_append]
      rw [readValue_object, hmembers]
      · rfl
      · rw [skipGap_append (isGap_edge l _), writeMembers, hfirst, List.cons_append,
          skipGap_cons rfl]
        exact fun h => absurd (Option.some.inj h) (by decide)

theorem ReadsBack.value_succ (h : ReadsBack l n) (v : Json) (depth : Nat) (rest : Text)
    (htexts : ∀ t ∈ v.texts, t.all Code.isScalar = true)
    (hn : (writeAt l depth v).length ≤ n + 1) (hrest : EndsNumber rest) :
    readValue (n + 1) (writeAt l depth v ++ rest) = some (v, rest) := by
  cases v with
  | null =>
      rw [writeAt]
      exact readValue_null n rest
  | bool value =>
      cases value with
      | true =>
          rw [writeAt]
          exact readValue_true n rest
      | false =>
          rw [writeAt]
          exact readValue_false n rest
  | number k =>
      rw [writeAt]
      exact readValue_number k hrest n
  | text t =>
      rw [writeAt]
      exact readValue_text l.asciiOnly (htexts t (by simp [texts])) n rest
  | list items => exact h.list depth rest (by rwa [texts] at htexts) hn
  | object members => exact h.object depth rest (by rwa [texts] at htexts) hn

theorem ReadsBack.items_succ (h : ReadsBack l n) (items : List Json) (depth : Nat)
    (gap gap' rest : Text) (hitems : items ≠ [])
    (htexts : ∀ t ∈ textsOfItems items, t.all Code.isScalar = true)
    (hn : (List.intercalate (l.separator depth) (writeItems l depth items)).length < n + 1)
    (hgap : IsGap gap) (hgap' : IsGap gap') :
    readItems (n + 1) (gap ++ (List.intercalate (l.separator depth) (writeItems l depth items) ++
      (gap' ++ Code.rightBracket :: rest))) = some (items, rest) := by
  obtain ⟨v, items, rfl⟩ := List.exists_cons_of_ne_nil hitems
  have hv := fun t ht => htexts t (List.mem_append_left _ ht)
  cases items with
  | nil =>
      have hread := h.value v depth (gap' ++ Code.rightBracket :: rest) hv
        (by simpa [writeItems, Nat.lt_succ_iff] using hn) (endsNumber_append hgap' rfl rest)
      rw [writeItems, writeItems, List.intercalate_singleton, readItems, readValue_gap hgap, hread]
      simp only [Option.bind_eq_bind, Option.bind_some, skipGap_append hgap',
        skipGap_cons isGap_rightBracket]
      rfl
  | cons w more =>
      obtain ⟨between, hbetween, hseparator⟩ := exists_separator_eq l depth
      have hne : writeItems l depth (w :: more) ≠ [] := by simp [writeItems]
      rw [writeItems, List.intercalate_cons_of_ne_nil hne] at hn ⊢
      simp only [List.length_append] at hn
      have hread := h.value v depth
        (l.separator depth ++ (List.intercalate (l.separator depth) (writeItems l depth (w :: more))
          ++ (gap' ++ Code.rightBracket :: rest)))
        hv (by omega) (hseparator ▸ endsNumber_append isGap_nil rfl _)
      have hmore := h.items (w :: more) depth between gap' rest (List.cons_ne_nil _ _)
        (fun t ht => htexts t (List.mem_append_right _ ht)) (by
          rw [hseparator, List.length_cons] at hn
          rw [hseparator]
          omega) hbetween hgap'
      rw [readItems, List.append_assoc, List.append_assoc, readValue_gap hgap, hread]
      rw [hseparator] at hmore ⊢
      simp only [Option.bind_eq_bind, Option.bind_some, List.cons_append,
        skipGap_cons isGap_comma, hmore]
      rfl

theorem ReadsBack.members_succ (h : ReadsBack l n) (members : List (Text × Json)) (depth : Nat)
    (gap gap' rest : Text) (hmembers : members ≠ [])
    (htexts : ∀ t ∈ textsOfMembers members, t.all Code.isScalar = true)
    (hn : (List.intercalate (l.separator depth) (writeMembers l depth members)).length < n + 1)
    (hgap : IsGap gap) (hgap' : IsGap gap') :
    readMembers (n + 1) (gap ++ (List.intercalate (l.separator depth)
      (writeMembers l depth members) ++ (gap' ++ Code.rightBrace :: rest))) =
        some (members, rest) := by
  obtain ⟨⟨name, v⟩, members, rfl⟩ := List.exists_cons_of_ne_nil hmembers
  rw [textsOfMembers, List.cons_append, List.forall_mem_cons, List.forall_mem_append] at htexts
  obtain ⟨hname, hv, htexts⟩ := htexts
  rw [readMembers_gap hgap]
  cases members with
  | nil =>
      rw [writeMembers, writeMembers, List.intercalate_singleton] at hn ⊢
      simp only [List.length_append] at hn
      have hread := h.value v depth (gap' ++ Code.rightBrace :: rest) hv (by omega)
        (endsNumber_append hgap' rfl rest)
      rw [List.append_assoc, List.append_assoc, readMembers_writeText l.asciiOnly hname, hread,
        Option.bind_some, readMembersFrom, skipGap_append hgap', skipGap_cons isGap_rightBrace]
      rfl
  | cons w more =>
      obtain ⟨between, hbetween, hseparator⟩ := exists_separator_eq l depth
      have hne : writeMembers l depth (w :: more) ≠ [] := by simp [writeMembers]
      rw [writeMembers, List.intercalate_cons_of_ne_nil hne] at hn ⊢
      simp only [List.length_append] at hn
      have hread := h.value v depth
        (l.separator depth ++ (List.intercalate (l.separator depth)
          (writeMembers l depth (w :: more)) ++ (gap' ++ Code.rightBrace :: rest)))
        hv (by omega) (hseparator ▸ endsNumber_append isGap_nil rfl _)
      have hmore := h.members (w :: more) depth between gap' rest (List.cons_ne_nil _ _) htexts (by
          rw [hseparator, List.length_cons] at hn
          rw [hseparator]
          omega) hbetween hgap'
      simp only [List.append_assoc]
      rw [readMembers_writeText l.asciiOnly hname, hread]
      rw [hseparator] at hmore ⊢
      rw [List.cons_append, Option.bind_some, readMembersFrom, skipGap_cons isGap_comma]
      simp only [hmore]
      rfl

end

theorem readsBack (l : Layout) (n : Nat) : ReadsBack l n := by
  induction n with
  | zero =>
      refine ⟨fun v depth rest _ hn _ => ?_, fun _ _ _ _ _ _ _ hn => absurd hn (Nat.not_lt_zero _),
        fun _ _ _ _ _ _ _ hn => absurd hn (Nat.not_lt_zero _)⟩
      obtain ⟨c, more, hcons, -, -⟩ := exists_writeAt_eq_cons l depth v
      rw [hcons] at hn
      exact absurd hn (Nat.not_succ_le_zero _)
  | succ n ih => exact ⟨ih.value_succ, ih.items_succ, ih.members_succ⟩

/-- **What is written is read back,** in every layout, if its texts hold no surrogates. -/
theorem read?_write (l : Layout) {v : Json} (h : ∀ t ∈ v.texts, t.all Code.isScalar = true) :
    read? (write l v) = some v := by
  have hread := (readsBack l (2 * (write l v).length + 1)).value v 0 [] h
    (by rw [write]; omega) nofun
  rw [List.append_nil, ← write] at hread
  rw [read?, hread]
  rfl

end Json

end BundleAudit
