import BundleAudit.Catalog.Basic
import BundleAudit.Proofs.Text.Lines

/-!
# BundleAudit.Proofs.Text.Blank

**The ends of a text.** Trimming, cutting and counting backslashes look at a text from
one end and stop at the first character that is not of their class, so nothing
behind such a character is seen (`dropTrailing_append_cons`, `continues_append_cons`).
-/

namespace BundleAudit.Text

/-! ### Dropping -/

section Drop

variable {p : Code → Bool}

theorem dropWhile_append_cons {c : Code} (h : p c = false) (a rest : Text) :
    (a ++ c :: rest).dropWhile p = a.dropWhile p ++ c :: rest := by
  induction a with
  | nil => exact List.dropWhile_cons_of_neg (by simp [h])
  | cons d more ih =>
      rw [List.cons_append, List.dropWhile_cons, List.dropWhile_cons, ih]
      split <;> rfl

theorem takeWhile_append_cons {c : Code} (h : p c = false) (a rest : Text) :
    (a ++ c :: rest).takeWhile p = a.takeWhile p := by
  induction a with
  | nil => exact List.takeWhile_cons_of_neg (by simp [h])
  | cons d more ih =>
      rw [List.cons_append, List.takeWhile_cons, List.takeWhile_cons, ih]

/-- What stands before a character that is not dropped is kept. -/
theorem dropTrailing_append_cons {c : Code} (h : p c = false) (a rest : Text) :
    dropTrailing p (a ++ c :: rest) = a ++ c :: dropTrailing p rest := by
  have hreverse : (a ++ c :: rest).reverse = rest.reverse ++ c :: a.reverse := by simp
  rw [dropTrailing, hreverse, dropWhile_append_cons h, List.reverse_append, List.reverse_cons,
    List.reverse_reverse, List.append_assoc]
  rfl

theorem dropTrailing_cons {c : Code} (h : p c = false) (rest : Text) :
    dropTrailing p (c :: rest) = c :: dropTrailing p rest := dropTrailing_append_cons h [] rest

theorem isPrefix_dropTrailing (t : Text) : dropTrailing p t <+: t := by
  rw [← List.reverse_suffix, dropTrailing, List.reverse_reverse]
  exact List.dropWhile_suffix p

theorem dropTrailing_sublist (t : Text) : (dropTrailing p t).Sublist t :=
  (isPrefix_dropTrailing t).sublist

theorem dropTrailing_eq_self {t : Text} (h : ∀ c ∈ t, p c = false) : dropTrailing p t = t := by
  induction t with
  | nil => rfl
  | cons c rest ih =>
      obtain ⟨hc, hrest⟩ := List.forall_mem_cons.1 h
      rw [dropTrailing_cons hc, ih hrest]

theorem dropTrailing_dropTrailing (t : Text) :
    dropTrailing p (dropTrailing p t) = dropTrailing p t := by
  have hhead := List.head?_dropWhile_not p t.reverse
  unfold dropTrailing
  rw [List.reverse_reverse]
  cases hdrop : t.reverse.dropWhile p with
  | nil => rfl
  | cons c rest =>
      rw [hdrop] at hhead
      have hc : p c = false := hhead
      rw [List.dropWhile_cons_of_neg (by simp [hc])]

end Drop

/-! ### Trimming -/

theorem trimRight_trimRight (t : Text) : t.trimRight.trimRight = t.trimRight :=
  dropTrailing_dropTrailing t

theorem trimLeft_cons {c : Code} (h : c.isBlank = false) (rest : Text) :
    trimLeft (c :: rest) = c :: rest := List.dropWhile_cons_of_neg (by simp [h])

theorem isInfix_trim (t : Text) : t.trim <:+: t :=
  (isPrefix_dropTrailing _).isInfix.trans (List.dropWhile_suffix _).isInfix

theorem trim_sublist (t : Text) : t.trim.Sublist t := (isInfix_trim t).sublist

/-- A trimmed text is empty, or begins with a character that is no blank. -/
theorem trim_cases (t : Text) :
    t.trim = [] ∨ ∃ c rest, c.isBlank = false ∧ t.trim = c :: trimRight rest := by
  have hhead := List.head?_dropWhile_not Code.isBlank t
  rw [trim, trimLeft]
  cases hdrop : t.dropWhile Code.isBlank with
  | nil => exact .inl rfl
  | cons c rest =>
      rw [hdrop] at hhead
      have hc : c.isBlank = false := hhead
      exact .inr ⟨c, rest, hc, dropTrailing_cons hc rest⟩

theorem trim_cons {c : Code} (h : c.isBlank = false) (rest : Text) :
    trim (c :: rest) = c :: trimRight rest := by
  rw [trim, trimLeft_cons h]
  exact dropTrailing_cons h rest

theorem trim_trim (t : Text) : t.trim.trim = t.trim := by
  rcases trim_cases t with h | ⟨c, rest, hc, h⟩
  · rw [h]
    rfl
  · rw [h, trim_cons hc, trimRight_trimRight]

/-! ### Cutting -/

theorem cut?_append_cons {c : Code} {a : Text} (h : c ∉ a) (rest : Text) :
    cut? c (a ++ c :: rest) = some (a, rest) := by
  induction a with
  | nil => exact if_pos rfl
  | cons d more ih =>
      obtain ⟨hd, hmore⟩ := not_or.1 fun h' => h (List.mem_cons.2 h')
      rw [List.cons_append, cut?, if_neg (Ne.symm hd), ih hmore]
      rfl

/-- A text is cut at its first `c`. -/
theorem of_cut?_eq_some {c : Code} {t before after : Text} (h : cut? c t = some (before, after)) :
    t = before ++ c :: after ∧ c ∉ before := by
  induction t generalizing before with
  | nil => cases h
  | cons d rest ih =>
      rw [cut?] at h
      split at h
      · next hd =>
          obtain ⟨rfl, rfl⟩ := Prod.mk.inj (Option.some.inj h)
          exact ⟨congrArg (· :: rest) hd, List.not_mem_nil⟩
      · next hd =>
          obtain ⟨⟨b, a⟩, hcut, heq⟩ := Option.map_eq_some_iff.1 h
          obtain ⟨rfl, rfl⟩ := Prod.mk.inj heq
          obtain ⟨rfl, hb⟩ := ih hcut
          exact ⟨rfl, fun hmem => (List.mem_cons.1 hmem).elim (fun heq => hd heq.symm) hb⟩

/-! ### Continuation -/

theorem trailingBackslashes_append_cons {c : Code} (h : c ≠ Code.backslash) (a rest : Text) :
    trailingBackslashes (a ++ c :: rest) = trailingBackslashes rest := by
  have hreverse : (a ++ c :: rest).reverse = rest.reverse ++ c :: a.reverse := by simp
  rw [trailingBackslashes, hreverse, takeWhile_append_cons (by simpa using h),
    trailingBackslashes]

/-- Whether a line goes on is seen behind any character that is neither blank nor a backslash. -/
theorem continues_append_cons {c : Code} (hblank : c.isBlank = false) (h : c ≠ Code.backslash)
    (a rest : Text) : continues (a ++ c :: rest) = continues rest := by
  rw [continues, trimRight, dropTrailing_append_cons hblank, trailingBackslashes_append_cons h,
    continues, trimRight]

theorem continues_trimRight (t : Text) : continues t.trimRight = continues t := by
  rw [continues, trimRight_trimRight, continues]

/-- What stands at the beginning of a line does not matter, unless it is a backslash. -/
theorem continues_cons {c : Code} (h : c ≠ Code.backslash) (rest : Text) :
    continues (c :: rest) = continues rest := by
  have hnone : trailingBackslashes [c] = 0 := by
    simp [trailingBackslashes, h]
  unfold continues trimRight dropTrailing
  rw [List.reverse_cons, List.dropWhile_append]
  split
  · next hempty =>
      rw [List.isEmpty_iff.1 hempty, List.dropWhile_cons]
      split
      · rfl
      · rw [List.reverse_singleton, hnone]
        rfl
  · rw [List.reverse_append, List.reverse_singleton]
    exact congrArg (· % 2 == 1) (trailingBackslashes_append_cons h [] _)

theorem continues_trimLeft (t : Text) : continues t.trimLeft = continues t := by
  induction t with
  | nil => rfl
  | cons c rest ih =>
      cases hblank : c.isBlank with
      | false => rw [trimLeft_cons hblank]
      | true =>
          have hne : c ≠ Code.backslash := by
            rintro rfl
            cases hblank
          rw [continues_cons hne, ← ih, trimLeft, List.dropWhile_cons_of_pos hblank, trimLeft]

theorem continues_trim (t : Text) : continues t.trim = continues t := by
  rw [trim, continues_trimRight, continues_trimLeft]

theorem trailingBackslashes_concat (before : Text) (c : Code) :
    trailingBackslashes (before ++ [c]) =
      if c = Code.backslash then trailingBackslashes before + 1 else 0 := by
  rw [trailingBackslashes, List.reverse_append]
  show (List.takeWhile _ (c :: before.reverse)).length = _
  rw [List.takeWhile_cons]
  by_cases h : c = Code.backslash
  · rw [if_pos (beq_iff_eq.2 h), if_pos h]
    rfl
  · rw [if_neg (mt beq_iff_eq.1 h), if_neg h]
    rfl

/-- One more backslash behind an even number of them lets a line go on. -/
theorem continues_concat {t : Text} (h : trailingBackslashes t % 2 = 0) :
    continues (t ++ [Code.backslash]) = true := by
  rw [continues, trimRight, dropTrailing_append_cons rfl]
  show (trailingBackslashes (t ++ [Code.backslash]) % 2 == 1) = true
  rw [trailingBackslashes_concat, if_pos rfl, beq_iff_eq]
  omega

/-- What goes on loses that backslash and nothing else. -/
theorem dropContinuation_concat {t : Text} (h : trailingBackslashes t % 2 = 0) :
    dropContinuation (t ++ [Code.backslash]) = t := by
  rw [dropContinuation, if_pos (continues_concat h), trimRight, dropTrailing_append_cons rfl]
  exact List.dropLast_concat

theorem dropContinuation_sublist (t : Text) : t.dropContinuation.Sublist t := by
  unfold dropContinuation
  split
  · exact (List.dropLast_sublist _).trans (dropTrailing_sublist t)
  · exact List.Sublist.refl t

/-- Whether a text is read as one whole line: it has no line boundaries and no blanks at its end,
and does not go on in the next line. -/
def isWhole (t : Text) : Bool := t.isLine && t.trimRight == t && !t.continues

/-- A line is whole just if nothing is taken off its end. -/
theorem dropContinuation_trimRight_eq_self_iff {t : Text} :
    t.trimRight.dropContinuation = t ↔ t.trimRight = t ∧ t.continues = false := by
  constructor
  · intro h
    have hdrop := dropContinuation_sublist t.trimRight
    rw [h] at hdrop
    have htrim : t.trimRight = t := (dropTrailing_sublist t).eq_of_length_le hdrop.length_le
    refine ⟨htrim, ?_⟩
    rw [htrim, dropContinuation] at h
    cases hcontinues : t.continues with
    | false => rfl
    | true =>
        rw [hcontinues, if_pos rfl, htrim] at h
        have hlength := congrArg List.length h
        rw [List.length_dropLast] at hlength
        have hnil : t = [] := List.eq_nil_of_length_eq_zero (by omega)
        rw [hnil] at hcontinues
        cases hcontinues
  · rintro ⟨htrim, hcontinues⟩
    rw [htrim, dropContinuation, hcontinues, if_neg Bool.false_ne_true]

theorem isWhole_iff {t : Text} :
    t.isWhole = true ↔ t.isLine = true ∧ t.trimRight = t ∧ t.continues = false := by
  rw [isWhole, Bool.and_eq_true, Bool.and_eq_true, beq_iff_eq, Bool.not_eq_true', and_assoc]

end BundleAudit.Text
