import BundleAudit.Text.Basic

/-!
# BundleAudit.Proofs.Text.Newlines

**Line ends of all kinds as line feeds.** Only a carriage return before a line feed is
read together with what follows it. So a text can be taken apart anywhere else, before
its line ends are normalised or after (`normalizeNewlines_append`,
`exists_append_of_normalizeNewlines`).
-/

namespace BundleAudit.Text

/-- No line end goes across the border between two texts. -/
def MeetsPlainly (a b : Text) : Prop :=
  a.getLast? = some Code.carriageReturn → b.head? ≠ some Code.lineFeed

theorem normalizeNewlines_cons {c : Code} {t : Text}
    (h : c = Code.carriageReturn → t.head? ≠ some Code.lineFeed) :
    normalizeNewlines (c :: t) =
      (if c = Code.carriageReturn then Code.lineFeed else c) :: normalizeNewlines t := by
  rw [normalizeNewlines]
  rintro rest rfl rfl
  exact h rfl rfl

theorem normalizeNewlines_append {a b : Text} (h : a.MeetsPlainly b) :
    normalizeNewlines (a ++ b) = a.normalizeNewlines ++ b.normalizeNewlines := by
  fun_induction normalizeNewlines a with
  | case1 => rfl
  | case2 rest ih =>
      have hrest : MeetsPlainly rest b := by
        intro hlast
        refine h ?_
        simp [List.getLast?_cons, hlast]
      rw [List.cons_append, List.cons_append, normalizeNewlines, ih hrest]
      rfl
  | case3 c rest hplain ih =>
      have hrest : MeetsPlainly rest b := by
        intro hlast
        refine h ?_
        simp [List.getLast?_cons, hlast]
      rw [List.cons_append, normalizeNewlines_cons, ih hrest]
      · rfl
      · rintro rfl
        cases rest with
        | nil => exact h rfl
        | cons d more =>
            intro hhead
            obtain rfl : d = Code.lineFeed := by simpa using hhead
            exact hplain more rfl rfl

theorem normalizeNewlines_eq_self {t : Text} (h : Code.carriageReturn ∉ t) :
    t.normalizeNewlines = t := by
  induction t with
  | nil => rfl
  | cons c rest ih =>
      obtain ⟨hc, hrest⟩ := not_or.1 fun hmem => h (List.mem_cons.2 hmem)
      rw [normalizeNewlines_cons fun heq => absurd heq.symm hc, if_neg (Ne.symm hc), ih hrest]

theorem not_mem_normalizeNewlines (t : Text) : Code.carriageReturn ∉ t.normalizeNewlines := by
  fun_induction normalizeNewlines t with
  | case1 => simp
  | case2 rest ih => exact List.not_mem_cons_of_ne_of_not_mem (by decide) ih
  | case3 c rest _ ih =>
      refine List.not_mem_cons_of_ne_of_not_mem ?_ ih
      split
      · decide
      · exact Ne.symm ‹_›

/-- A text without line feeds was not changed. -/
theorem eq_of_normalizeNewlines {t : Text} (h : Code.lineFeed ∉ t.normalizeNewlines) :
    t.normalizeNewlines = t := by
  refine normalizeNewlines_eq_self fun hmem => h ?_
  fun_induction normalizeNewlines t with
  | case1 => simp at hmem
  | case2 => simp
  | case3 c rest hplain ih =>
      rcases List.mem_cons.1 hmem with rfl | hrest
      · simp
      · exact List.mem_cons_of_mem _ (ih (fun hfeed => h (List.mem_cons_of_mem _ hfeed)) hrest)

theorem getLast?_normalizeNewlines (t : Text) :
    t.normalizeNewlines.getLast? =
      t.getLast?.map fun c => if c = Code.carriageReturn then Code.lineFeed else c := by
  fun_induction normalizeNewlines t with
  | case1 => rfl
  | case2 rest ih =>
      rw [List.getLast?_cons, List.getLast?_cons, List.getLast?_cons, ih]
      cases rest.getLast? <;> rfl
  | case3 c rest hplain ih =>
      rw [List.getLast?_cons, List.getLast?_cons, ih]
      cases rest.getLast? <;> rfl

/-- Parts of the normalised text are parts of the text. -/
theorem exists_append_of_normalizeNewlines {t p q : Text} (h : t.normalizeNewlines = p ++ q) :
    ∃ a b, t = a ++ b ∧ a.normalizeNewlines = p ∧ b.normalizeNewlines = q := by
  fun_induction normalizeNewlines t generalizing p with
  | case1 =>
      obtain ⟨rfl, rfl⟩ := List.append_eq_nil_iff.1 h.symm
      exact ⟨[], [], rfl, rfl, rfl⟩
  | case2 rest ih =>
      cases p with
      | nil => exact ⟨[], _, rfl, rfl, h⟩
      | cons d p =>
          obtain ⟨rfl, hrest⟩ := List.cons.inj h
          obtain ⟨a, b, rfl, rfl, rfl⟩ := ih hrest
          exact ⟨Code.carriageReturn :: Code.lineFeed :: a, b, rfl, rfl, rfl⟩
  | case3 c rest hplain ih =>
      cases p with
      | nil =>
          refine ⟨[], c :: rest, rfl, rfl, ?_⟩
          rw [normalizeNewlines]
          · exact h
          · exact hplain
      | cons d p =>
          obtain ⟨rfl, hrest⟩ := List.cons.inj h
          obtain ⟨a, b, rfl, rfl, rfl⟩ := ih hrest
          refine ⟨c :: a, b, rfl, normalizeNewlines_cons ?_, rfl⟩
          rintro rfl hhead
          obtain ⟨more, rfl⟩ := List.head?_eq_some_iff.1 hhead
          exact hplain _ rfl rfl

end BundleAudit.Text
