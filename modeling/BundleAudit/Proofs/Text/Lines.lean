import BundleAudit.Text.Lines

/-!
# BundleAudit.Proofs.Text.Lines

**Lines of a text.** Cutting a text into lines drops its line boundaries and nothing
else (`flatten_lines`); so a line has no boundary in it, and lines without boundaries
that are written one after the other are the lines that are read (`lines_ofLines`).
-/

namespace BundleAudit.Text

/-- Whether a text holds no line boundary. -/
def isLine (t : Text) : Bool := t.all (!·.isLineBoundary)

theorem flatten_consHead (c : Code) (ls : List Text) :
    (consHead c ls).flatten = c :: ls.flatten := by
  cases ls with
  | nil => rfl
  | cons first rest => rfl

/-- The lines of a text are the text without its boundaries. -/
theorem flatten_lines (t : Text) : t.lines.flatten = t.filter (!·.isLineBoundary) := by
  induction t using lines.induct with
  | case1 => rfl
  | case2 rest ih =>
      rw [lines, List.flatten_cons, List.nil_append, ih]
      rfl
  | case3 c rest hne hc ih =>
      rw [lines.eq_3 c rest hne, if_pos hc, List.flatten_cons, List.nil_append, ih,
        List.filter_cons_of_neg (by simp [hc])]
  | case4 c rest hne hc ih =>
      rw [lines.eq_3 c rest hne, if_neg hc, flatten_consHead, ih,
        List.filter_cons_of_pos (by simp [hc])]

/-- A line of a text holds no boundary. -/
theorem isLine_of_mem_lines {t l : Text} (h : l ∈ t.lines) : l.isLine = true := by
  refine List.all_eq_true.2 fun c hc => ?_
  have hflatten : c ∈ t.lines.flatten := List.mem_flatten.2 ⟨l, h, hc⟩
  rw [flatten_lines] at hflatten
  exact (List.mem_filter.1 hflatten).2

theorem lines_lineFeed (rest : Text) : lines (Code.lineFeed :: rest) = [] :: rest.lines := by
  rw [lines.eq_3 Code.lineFeed rest fun _ h => absurd h (by decide)]
  rfl

/-- A line that is ended by a line feed is read as it is. -/
theorem lines_append_lineFeed {l : Text} (h : l.isLine = true) (rest : Text) :
    lines (l ++ Code.lineFeed :: rest) = l :: rest.lines := by
  induction l with
  | nil => exact lines_lineFeed rest
  | cons c more ih =>
      rw [isLine, List.all_cons, Bool.and_eq_true, Bool.not_eq_true'] at h
      -- no carriage return takes the line feed along, as `l` has none
      have hne : ∀ after, c = Code.carriageReturn → more ++ Code.lineFeed :: rest =
          Code.lineFeed :: after → False := by
        rintro after rfl
        cases h.1
      rw [List.cons_append, lines.eq_3 c _ hne, if_neg (by simp [h.1]), ih h.2]
      rfl

/-- Lines without boundaries are read as they are written, whatever follows them. -/
theorem lines_ofLines_append {ls : List Text} (h : ∀ l ∈ ls, l.isLine = true) (more : List Text) :
    (ofLines (ls ++ more)).lines = ls ++ (ofLines more).lines := by
  induction ls with
  | nil => rfl
  | cons l rest ih =>
      obtain ⟨hl, hrest⟩ := List.forall_mem_cons.1 h
      have hcons : ofLines (l :: rest ++ more) = l ++ Code.lineFeed :: ofLines (rest ++ more) := by
        rw [List.cons_append, ofLines, List.flatMap_cons, List.append_assoc]
        rfl
      rw [hcons, lines_append_lineFeed hl, ih hrest, List.cons_append]

theorem lines_ofLines {ls : List Text} (h : ∀ l ∈ ls, l.isLine = true) :
    (ofLines ls).lines = ls := by
  have happend := lines_ofLines_append h []
  rw [List.append_nil] at happend
  exact happend.trans (List.append_nil ls)

/-- What is read of lines that are written are their characters, but for boundaries. -/
theorem flatten_lines_ofLines (ls : List Text) :
    (ofLines ls).lines.flatten = ls.flatten.filter (!·.isLineBoundary) := by
  rw [flatten_lines, ofLines]
  induction ls with
  | nil => rfl
  | cons l rest ih =>
      rw [List.flatMap_cons, List.flatten_cons, List.filter_append, List.filter_append,
        List.filter_append, ih]
      exact congrArg (· ++ _) (List.append_nil _)

end BundleAudit.Text
