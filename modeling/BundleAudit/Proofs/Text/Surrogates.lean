import BundleAudit.Proofs.Json.Writing
import BundleAudit.Text.LowerCase
import BundleAudit.Text.Quoted

/-!
# BundleAudit.Proofs.Text.Surrogates

**What is made of texts without surrogates holds none:** pieces and joins of them, their
lower-case forms, and what they look like between quotes. Fixed texts and numbers hold
none at all.
-/

namespace BundleAudit

/-- No letter has a surrogate for its small letter. -/
theorem Code.all_isScalar_lower {c : Nat} (h : Code.isScalar c = true) :
    (Code.lower c).all Code.isScalar = true := by
  have hruns : ∀ run ∈ caseRuns, ((0 ≤ run.first + run.shift ∧ run.last + run.shift < 0xD800) ∨
      0xDFFF < run.first + run.shift ∧ run.last + run.shift < 0x110000) := by
    decide +kernel
  unfold Code.lower
  split
  · decide
  · dsimp only
    split
    · next run hrun =>
        have hmem := List.mem_of_find?_eq_some hrun
        have hholds := List.find?_some hrun
        rw [Bool.and_eq_true, decide_eq_true_eq] at hholds
        obtain ⟨⟨hfirst, hlast⟩, -⟩ : (run.first ≤ c ∧ c ≤ run.last) ∧ _ := hholds
        rw [List.all_cons, List.all_nil, Bool.and_true, Code.isScalar_iff]
        rcases hruns run hmem with hbounds | hbounds <;> omega
    · rw [List.all_cons, h]
      rfl

namespace Text

variable {t : Text}

theorem all_isScalar_of_subset {part : Text} (h : ∀ c ∈ part, c ∈ t)
    (ht : t.all Code.isScalar = true) : part.all Code.isScalar = true :=
  List.all_eq_true.2 fun c hc => List.all_eq_true.1 ht c (h c hc)

theorem all_isScalar_ofString (s : String) : (ofString s).all Code.isScalar = true := by
  refine List.all_eq_true.2 fun c hc => ?_
  obtain ⟨char, -, rfl⟩ := List.mem_map.1 hc
  rw [Code.isScalar_iff]
  have hvalid := char.valid
  unfold UInt32.isValidChar Nat.isValidChar at hvalid
  unfold Char.toNat
  omega

theorem all_isScalar_ofNat (n : Nat) : (ofNat n).all Code.isScalar = true := by
  refine List.all_eq_true.2 fun c hc => Code.isScalar_of_ascii ?_
  exact Nat.lt_of_le_of_lt (of_decide_eq_true (isAsciiDigit_ofNat n c hc)).2 (by decide)

theorem all_isScalar_intercalate {separator : Text} {parts : List Text}
    (hseparator : separator.all Code.isScalar = true)
    (h : ∀ part ∈ parts, part.all Code.isScalar = true) :
    (List.intercalate separator parts).all Code.isScalar = true := by
  refine List.all_eq_true.2 fun c hc => ?_
  rcases Json.mem_of_mem_intercalate hc with hc | ⟨part, hpart, hc⟩
  · exact List.all_eq_true.1 hseparator c hc
  · exact List.all_eq_true.1 (h part hpart) c hc

/-! ### Lower case -/

theorem all_isScalar_toLowerFrom (before : Text) (h : t.all Code.isScalar = true) :
    (toLowerFrom before t).all Code.isScalar = true := by
  induction t generalizing before with
  | nil => rfl
  | cons c rest ih =>
      obtain ⟨hc, hrest⟩ := Bool.and_eq_true_iff.1 h
      rw [toLowerFrom, List.all_append, ih (c :: before) hrest, Bool.and_true]
      split
      · split <;> rfl
      · exact Code.all_isScalar_lower hc

theorem all_isScalar_toLower (h : t.all Code.isScalar = true) :
    t.toLower.all Code.isScalar = true :=
  all_isScalar_toLowerFrom [] h

/-! ### Quotes -/

theorem all_isScalar_hex (count n : Nat) : (hex count n).all Code.isScalar = true := by
  have hdigit : ∀ d < 16, (Code.hexDigit d).isScalar = true := by decide
  induction count generalizing n with
  | zero => rfl
  | succ count ih =>
      rw [hex, List.all_append, ih, List.all_cons, hdigit _ (Nat.mod_lt n (by decide))]
      rfl

theorem all_isScalar_quoteCode {q c : Code} (h : c.isScalar = true) :
    (quoteCode q c).all Code.isScalar = true := by
  have hescape : ∀ (letter : String) (count : Nat),
      (ofString letter ++ hex count c).all Code.isScalar = true := by
    intro letter count
    rw [List.all_append, all_isScalar_ofString, all_isScalar_hex]
    rfl
  unfold quoteCode
  split
  · rw [List.all_cons, List.all_cons, h]
    rfl
  split
  · exact all_isScalar_ofString _
  split
  · exact all_isScalar_ofString _
  split
  · exact all_isScalar_ofString _
  split
  · rw [List.all_cons, h]
    rfl
  split
  · exact hescape _ _
  split
  · exact hescape _ _
  · exact hescape _ _

theorem all_isScalar_quoted (h : t.all Code.isScalar = true) :
    t.quoted.all Code.isScalar = true := by
  have hquote : (quoteFor t).isScalar = true := by
    unfold quoteFor
    split <;> decide
  have hcodes : (t.flatMap (quoteCode (quoteFor t))).all Code.isScalar = true := by
    rw [List.all_flatMap, List.all_eq_true]
    exact fun c hc => all_isScalar_quoteCode (List.all_eq_true.1 h c hc)
  rw [quoted, List.cons_append, List.all_cons, List.all_append, List.all_cons, hquote, hcodes]
  rfl

theorem all_isScalar_quotedList {ts : List Text} (h : ∀ t ∈ ts, t.all Code.isScalar = true) :
    (quotedList ts).all Code.isScalar = true := by
  have hparts : (List.intercalate (ofString ", ") (ts.map quoted)).all Code.isScalar = true :=
    all_isScalar_intercalate (by decide)
      (List.forall_mem_map.2 fun t ht => all_isScalar_quoted (h t ht))
  rw [quotedList, List.cons_append, List.all_cons, List.all_append, hparts]
  rfl

end Text

end BundleAudit
