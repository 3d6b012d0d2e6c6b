import BundleAudit.Files.Walk
import BundleAudit.Proofs.Text.Splitting

/-!
# BundleAudit.Proofs.Files.Path

**The text of a path leads along its names.** A path that was read from a text is
normal: its names can be told apart again in its text. So a path comes back from its
text (`ofText_toText`), and a walk along the text follows the names of the path
(`Tree.namesOf_toText`).
-/

namespace BundleAudit

namespace Path

/-! ### Normal paths -/

/-- A text between two slashes that a path keeps. -/
structure IsName (name : Text) : Prop where
  ne_nil : name ≠ []
  ne_dot : name ≠ [Code.dot]
  noSlash : Code.slash ∉ name

instance (name : Text) : Decidable (IsName name) :=
  decidable_of_iff (name ≠ [] ∧ name ≠ [Code.dot] ∧ Code.slash ∉ name)
    ⟨fun ⟨hnil, hdot, hslash⟩ => ⟨hnil, hdot, hslash⟩, fun h => ⟨h.ne_nil, h.ne_dot, h.noSlash⟩⟩

/-- A path whose parts can be told apart in its text. -/
structure IsNormal (p : Path) : Prop where
  root : p.root = [] ∨ p.root = [Code.slash] ∨ p.root = [Code.slash, Code.slash]
  names : ∀ name ∈ p.names, IsName name

theorem isRedundant_eq_false {name : Text} (h : IsName name) : isRedundant name = false := by
  rw [isRedundant, Bool.or_eq_false_iff, beq_eq_false_iff_ne, beq_eq_false_iff_ne]
  exact ⟨h.ne_nil, h.ne_dot⟩

theorem isName_of_mem_namesOf {t name : Text} (h : name ∈ namesOf t) : IsName name := by
  obtain ⟨hpart, hkept⟩ := List.mem_filter.1 h
  rw [isRedundant, Bool.not_eq_true', Bool.or_eq_false_iff, beq_eq_false_iff_ne,
    beq_eq_false_iff_ne] at hkept
  exact ⟨hkept.1, hkept.2, Text.not_mem_of_mem_splitOn hpart⟩

/-- A character that is neither a slash nor a dot is in some name. -/
theorem exists_mem_namesOf {t : Text} {c : Code} (hc : c ∈ t) (hslash : c ≠ Code.slash)
    (hdot : c ≠ Code.dot) : ∃ name ∈ namesOf t, c ∈ name := by
  obtain ⟨name, hpart, hmem⟩ := Text.exists_mem_splitOn hc hslash
  have hkept : isRedundant name = false := by
    rw [isRedundant, Bool.or_eq_false_iff, beq_eq_false_iff_ne, beq_eq_false_iff_ne]
    refine ⟨List.ne_nil_of_mem hmem, fun heq => hdot ?_⟩
    rwa [heq, List.mem_singleton] at hmem
  exact ⟨name, List.mem_filter.2 ⟨hpart, by rw [hkept]; rfl⟩, hmem⟩

/-- A text that does not begin with a slash is a relative path. -/
theorem ofText_relative {t : Text} (h : t.head? ≠ some Code.slash) :
    ofText t = ⟨[], namesOf t⟩ := by
  have hnone : t.takeWhile (· == Code.slash) = [] := by
    cases t with
    | nil => rfl
    | cons c rest =>
        have hc : ¬(c == Code.slash) = true := fun heq => h (congrArg some (beq_iff_eq.1 heq))
        exact List.takeWhile_cons_of_neg hc
  rw [ofText, hnone]
  rfl

/-- A path that was read from a text is normal. -/
theorem isNormal_ofText (t : Text) : (ofText t).IsNormal := by
  refine ⟨?_, fun name h => isName_of_mem_namesOf h⟩
  unfold ofText
  split
  · exact .inl rfl
  · exact .inr (.inr rfl)
  · exact .inr (.inl rfl)

/-! ### Texts of paths -/

variable {p : Path}

theorem toText_of_names_ne_nil (hne : p.names ≠ []) :
    p.toText = p.root ++ List.intercalate [Code.slash] p.names := by
  rw [toText, List.isEmpty_eq_false_iff.2 hne, Bool.and_false]
  rfl

/-- The text of a path ends with its last name. -/
theorem toText_concat (root : Text) (names : List Text) (last : Text) :
    toText ⟨root, names ++ [last]⟩ = root ++ names.flatMap (· ++ [Code.slash]) ++ last := by
  rw [toText_of_names_ne_nil (by simp), Text.intercalate_concat, List.append_assoc]

/-- A path that has a name consists of the path around it and the name. -/
theorem eq_of_name_ne_nil (h : p.name ≠ []) : p = ⟨p.root, p.names.dropLast ++ [p.name]⟩ := by
  obtain ⟨root, names⟩ := p
  rcases List.eq_nil_or_concat' names with rfl | ⟨init, last, rfl⟩
  · exact absurd rfl h
  · rw [name, List.dropLast_concat, List.getLastD_concat]

theorem names_ne_nil (h : p.name ≠ []) : p.names ≠ [] := by
  intro hnames
  rw [name, hnames] at h
  exact h rfl

theorem name_ne_nil (h : p.IsNormal) (hnames : p.names ≠ []) : p.name ≠ [] := by
  obtain ⟨init, last, hconcat⟩ := (List.eq_nil_or_concat' p.names).resolve_left hnames
  rw [name, hconcat, List.getLastD_concat]
  exact (h.names last (hconcat ▸ List.mem_append_right _ List.mem_cons_self)).ne_nil

theorem isName_name (h : p.IsNormal) (hne : p.name ≠ []) : IsName p.name := by
  have hnames : p.names = p.names.dropLast ++ [p.name] := congrArg names (eq_of_name_ne_nil hne)
  exact h.names _ (hnames ▸ List.mem_append_right _ List.mem_cons_self)

/-- Each slash of the root leaves an empty name. -/
theorem splitOn_toText (h : p.IsNormal) (hne : p.names ≠ []) :
    Text.splitOn Code.slash p.toText = List.replicate p.root.length [] ++ p.names := by
  have hsplit : Text.splitOn Code.slash (List.intercalate [Code.slash] p.names) = p.names :=
    Text.splitOn_intercalate (fun name hname => (h.names name hname).noSlash) hne
  rw [toText_of_names_ne_nil hne]
  rcases h.root with hroot | hroot | hroot <;> rw [hroot]
  · exact hsplit
  · exact congrArg ([] :: ·) hsplit
  · exact congrArg ([] :: [] :: ·) hsplit

theorem head?_intercalate_ne_slash (h : p.IsNormal) :
    (List.intercalate [Code.slash] p.names).head? ≠ some Code.slash := by
  cases hnames : p.names with
  | nil => exact nofun
  | cons name rest =>
      have hname := h.names name (hnames ▸ List.mem_cons_self)
      obtain ⟨c, more, rfl⟩ := List.exists_cons_of_ne_nil hname.ne_nil
      have hc : c ≠ Code.slash := fun heq => hname.noSlash (heq ▸ List.mem_cons_self)
      cases rest <;> exact fun hhead => hc (Option.some.inj hhead)

theorem takeWhile_toText (h : p.IsNormal) :
    p.toText.takeWhile (· == Code.slash) = p.root := by
  have htake : ∀ t : Text, t.head? ≠ some Code.slash → t.takeWhile (· == Code.slash) = [] := by
    intro t ht
    cases t with
    | nil => rfl
    | cons c rest =>
        have hc : (c == Code.slash) = false :=
          beq_eq_false_iff_ne.2 fun heq => ht (congrArg some heq)
        rw [List.takeWhile_cons, hc]
        rfl
  by_cases hempty : p.root = [] ∧ p.names = []
  · rw [toText, hempty.1, hempty.2]
    rfl
  · have htext : p.toText = p.root ++ List.intercalate [Code.slash] p.names := by
      rw [toText, if_neg]
      simpa using hempty
    have hnone := htake _ (head?_intercalate_ne_slash h)
    rw [htext]
    rcases h.root with hroot | hroot | hroot <;> rw [hroot]
    · exact hnone
    · exact congrArg (Code.slash :: ·) hnone
    · exact congrArg (Code.slash :: Code.slash :: ·) hnone

theorem namesOf_toText (h : p.IsNormal) : namesOf p.toText = p.names := by
  by_cases hne : p.names = []
  · rw [toText, hne]
    rcases h.root with hroot | hroot | hroot <;> rw [hroot] <;> rfl
  · rw [namesOf, splitOn_toText h hne, List.filter_append, List.filter_eq_nil_iff.2,
      List.filter_eq_self.2, List.nil_append]
    · exact fun name hname => by rw [isRedundant_eq_false (h.names name hname)]; rfl
    · intro name hname
      rw [List.eq_of_mem_replicate hname]
      decide

/-- A normal path comes back from its text. -/
theorem ofText_toText (h : p.IsNormal) : ofText p.toText = p := by
  rw [ofText, takeWhile_toText h, namesOf_toText h]
  obtain ⟨root, names⟩ := p
  rcases h.root with rfl | rfl | rfl <;> rfl

/-- Before the last name of a path stands a slash, unless it is the whole path. -/
theorem toText_cases (h : p.IsNormal) (hne : p.name ≠ []) :
    p.toText = p.name ∨ ∃ before, p.toText = before ++ Code.slash :: p.name := by
  have htext := toText_concat p.root p.names.dropLast p.name
  rw [← eq_of_name_ne_nil hne] at htext
  rw [htext]
  rcases List.eq_nil_or_concat' p.names.dropLast with hnil | ⟨init, around, hconcat⟩
  · rw [hnil]
    rcases h.root with hroot | hroot | hroot <;> rw [hroot]
    · exact .inl rfl
    · exact .inr ⟨[], rfl⟩
    · exact .inr ⟨[Code.slash], rfl⟩
  · refine .inr ⟨p.root ++ init.flatMap (· ++ [Code.slash]) ++ around, ?_⟩
    rw [hconcat, List.flatMap_append, List.flatMap_singleton]
    simp only [List.append_assoc, List.singleton_append]

/-! ### Paths within paths -/

/-- The path that names lead to from a path. -/
theorem join_relative (p : Path) (names : List Text) :
    p.join ⟨[], names⟩ = ⟨p.root, p.names ++ names⟩ := rfl

theorem isNormal_join (h : p.IsNormal) {names : List Text} (hnames : ∀ name ∈ names, IsName name) :
    (p.join ⟨[], names⟩).IsNormal :=
  ⟨h.root, fun name hname => (List.mem_append.1 hname).elim (h.names name) (hnames name)⟩

/-- Names with slashes between them are the relative path of these names. -/
theorem ofText_intercalate {names : List Text} (h : ∀ name ∈ names, IsName name) :
    ofText (List.intercalate [Code.slash] names) = ⟨[], names⟩ := by
  by_cases hne : names = []
  · rw [hne]
    rfl
  · have hnormal : IsNormal ⟨[], names⟩ := ⟨.inl rfl, h⟩
    rw [← ofText_toText hnormal, toText_of_names_ne_nil hne, List.nil_append]

theorem intercalate_inj {names names' : List Text} (h : ∀ name ∈ names, IsName name)
    (h' : ∀ name ∈ names', IsName name)
    (heq : List.intercalate [Code.slash] names = List.intercalate [Code.slash] names') :
    names = names' := by
  have htext := congrArg ofText heq
  rw [ofText_intercalate h, ofText_intercalate h'] at htext
  exact congrArg Path.names htext

theorem ofText_name {name : Text} (h : IsName name) : ofText name = ⟨[], [name]⟩ := by
  rw [← ofText_intercalate (List.forall_mem_singleton.2 h), List.intercalate_singleton]

/-! ### Suffixes -/

theorem splitName_append (name : Text) : (splitName name).1 ++ (splitName name).2 = name := by
  unfold splitName
  split
  · next hcut =>
      split
      · exact List.append_nil name
      · exact (Text.of_cutLast?_eq_some hcut).symm
  · exact List.append_nil name

theorem slash_not_mem_stem (h : p.IsNormal) : Code.slash ∉ p.stem := by
  intro hmem
  have hname : Code.slash ∈ p.name :=
    splitName_append p.name ▸ List.mem_append_left _ hmem
  have hne : p.name ≠ [] := List.ne_nil_of_mem hname
  exact (isName_name h hne).noSlash hname

/-- A suffix that comes after the one of a path is added to its name. -/
theorem of_withSuffix_eq_ok {added : Text} {q : Path}
    (h : p.withSuffix (p.suffix ++ added) = .ok q) :
    p.name ≠ [] ∧ q = ⟨p.root, p.names.dropLast ++ [p.name ++ added]⟩ := by
  unfold withSuffix at h
  split at h
  · cases h
  · split at h
    · cases h
    · next hname =>
        refine ⟨fun hnil => hname (by rw [hnil]; rfl), ?_⟩
        rw [← Except.ok.inj h, stem, suffix, ← List.append_assoc, splitName_append]

end Path

/-! ### Walking along the text of a path -/

namespace Tree

variable {p : Path}

theorem getLast?_toText_ne_slash (h : p.IsNormal) (hne : p.name ≠ []) :
    p.toText.getLast? ≠ some Code.slash := by
  rw [Path.eq_of_name_ne_nil hne, Path.toText_concat, List.getLast?_append_of_ne_nil _ hne]
  exact fun hend => (Path.isName_name h hne).noSlash (List.mem_of_getLast? hend)

theorem namesOf_toText (h : p.IsNormal) (hne : p.name ≠ []) : namesOf p.toText = p.names := by
  rw [namesOf, if_neg (getLast?_toText_ne_slash h hne),
    Path.splitOn_toText h (Path.names_ne_nil hne),
    List.filter_append, List.filter_eq_nil_iff.2, List.filter_eq_self.2, List.nil_append]
  · intro name hname
    rw [List.isEmpty_eq_false_iff.2 (h.names name hname).ne_nil]
    rfl
  · intro name hname
    rw [List.eq_of_mem_replicate hname]
    decide

end Tree

end BundleAudit
