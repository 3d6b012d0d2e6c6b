import BundleAudit.Proofs.Failure
import BundleAudit.Proofs.Files.Write

/-!
# BundleAudit.Proofs.Files.Refusal

**Writing fails only where the file system refuses.** A text without surrogates, and a
path that is one, leave nothing else to go wrong (`isSystem_of_writeText`): the
directories, the temporary file and its name are all made from the path.
-/

namespace BundleAudit.Tree

variable {t t' : Tree} {p target : Path} {path text : Text} {f : Failure}

/-! ### Paths that are none -/

theorem notAPath?_append {a b : Text} :
    notAPath? (a ++ b) = none ↔ notAPath? a = none ∧ notAPath? b = none := by
  rw [notAPath?_eq_none_iff, notAPath?_eq_none_iff, notAPath?_eq_none_iff, List.all_append,
    Bool.and_eq_true, List.mem_append, not_or]
  exact and_and_and_comm

theorem notAPath?_flatMap {names : List Text} :
    notAPath? (names.flatMap (· ++ [Code.slash])) = none ↔ ∀ n ∈ names, notAPath? n = none := by
  induction names with
  | nil => exact ⟨fun _ => nofun, fun _ => rfl⟩
  | cons n rest ih =>
      rw [List.flatMap_cons, notAPath?_append, notAPath?_append, ih, List.forall_mem_cons]
      exact ⟨fun h => ⟨h.1.1, h.2⟩, fun h => ⟨⟨h.1, rfl⟩, h.2⟩⟩

/-- A path is one in the file system if each of its names is. -/
theorem notAPath?_toText_of_root (hroot : notAPath? p.root = none) :
    notAPath? p.toText = none ↔ ∀ n ∈ p.names, notAPath? n = none := by
  rcases List.eq_nil_or_concat' p.names with hnames | ⟨init, last, hnames⟩
  · refine ⟨fun _ => hnames ▸ nofun, fun _ => ?_⟩
    rw [Path.toText, hnames]
    split
    · rfl
    · rwa [List.intercalate_nil, List.append_nil]
  · have htext : p.toText = p.root ++ init.flatMap (· ++ [Code.slash]) ++ last := by
      rw [← Path.toText_concat, ← hnames]
    rw [htext, hnames, notAPath?_append, notAPath?_append, notAPath?_flatMap]
    simp only [List.forall_mem_append, List.forall_mem_singleton, hroot, true_and]

theorem notAPath?_toText (hp : p.IsNormal) :
    notAPath? p.toText = none ↔ ∀ n ∈ p.names, notAPath? n = none := by
  refine notAPath?_toText_of_root ?_
  rcases hp.root with h | h | h <;> rw [h] <;> rfl

theorem notAPath?_intercalate {names : List Text} :
    notAPath? (List.intercalate [Code.slash] names) = none ↔ ∀ n ∈ names, notAPath? n = none := by
  by_cases hne : names = []
  · subst hne
    exact ⟨fun _ => nofun, fun _ => rfl⟩
  · have htext := Path.toText_of_names_ne_nil (p := ⟨[], names⟩) hne
    rw [List.nil_append] at htext
    rw [← htext, notAPath?_toText_of_root rfl]

/-- The names of a path in the file system are names in it. -/
theorem notAPath?_names_ofText (h : notAPath? text = none) :
    ∀ n ∈ (Path.ofText text).names, notAPath? n = none := by
  intro n hn
  rw [notAPath?_eq_none_iff, List.all_eq_true] at h ⊢
  have hmem : ∀ c ∈ n, c ∈ text := fun c => Text.mem_of_mem_splitOn (List.mem_of_mem_filter hn)
  exact ⟨fun c hc => h.1 c (hmem c hc), fun hnul => h.2 (hmem _ hnul)⟩

theorem isNormal_parent (hp : p.IsNormal) : p.parent.IsNormal :=
  ⟨hp.root, fun n hn => hp.names n ((List.dropLast_sublist _).subset hn)⟩

/-! ### The steps of writing -/

theorem isSystem_of_lookAt (h : t.lookAt path = .error f) : f.IsSystem := by
  unfold lookAt at h
  split at h
  · cases h
  · split at h
    · cases h
    · cases h
      exact Failure.isSystem_system ..
    · cases h

theorem isSystem_of_isDirectory (h : t.isDirectory path = .error f) : f.IsSystem :=
  isSystem_of_lookAt (Failure.map_eq_error_iff.1 h)

theorem isSystem_of_isFile (h : t.isFile path = .error f) : f.IsSystem :=
  isSystem_of_lookAt (Failure.map_eq_error_iff.1 h)

theorem isSystem_of_unlessDirectory {cause : SystemCause}
    (h : t.unlessDirectory path cause = some f) : f.IsSystem := by
  unfold unlessDirectory at h
  split at h
  · cases h
  · exact Option.some.inj h ▸ Failure.isSystem_system ..
  · next hdirectory => exact Option.some.inj h ▸ isSystem_of_isDirectory hdirectory

theorem isSystem_of_makeDirectoriesFrom {root : Text} {names : List Text}
    (h : (makeDirectoriesFrom root t names).2 = some f) : f.IsSystem := by
  induction names generalizing t f with
  | nil => cases h
  | cons name around ih =>
      rw [makeDirectoriesFrom] at h
      split at h
      · cases h
      · split at h
        · next hfrom => exact Option.some.inj h ▸ ih (congrArg Prod.snd hfrom)
        · split at h
          · cases h
          · exact Option.some.inj h ▸ Failure.isSystem_system ..
          · exact isSystem_of_unlessDirectory h
      · exact isSystem_of_unlessDirectory h

theorem isSystem_of_makeDirectories (hpath : notAPath? p.toText = none)
    (h : (t.makeDirectories p).2 = some f) : f.IsSystem := by
  rw [makeDirectories, hpath] at h
  exact isSystem_of_makeDirectoriesFrom h

theorem isSystem_of_openEmpty (hpath : notAPath? path = none) (h : t.openEmpty path = .error f) :
    f.IsSystem := by
  rw [openEmpty, hpath] at h
  dsimp only at h
  split at h
  · exact Except.error.inj h ▸ Failure.isSystem_system ..
  · cases h
  · split at h
    · cases h
    · exact Except.error.inj h ▸ Failure.isSystem_system ..

theorem isSystem_of_writeInPlace (hpath : notAPath? path = none)
    (htext : text.all Code.isScalar = true) (h : (t.writeInPlace path [text]).2 = some f) :
    f.IsSystem := by
  unfold writeInPlace at h
  split at h
  · next hopen => exact Option.some.inj h ▸ isSystem_of_openEmpty hpath hopen
  · rw [List.takeWhile_cons, if_pos htext, List.takeWhile_nil] at h
    cases h

theorem isSystem_of_rename (h : t.rename path target = .error f) : f.IsSystem := by
  unfold rename at h
  dsimp only at h
  split at h
  · exact Except.error.inj h ▸ Failure.isSystem_system ..
  · split at h
    · exact Except.error.inj h ▸ Failure.isSystem_system ..
    · exact Except.error.inj h ▸ Failure.isSystem_system ..
    · exact Except.error.inj h ▸ Failure.isSystem_system ..
    · split at h
      · cases h
      · exact Except.error.inj h ▸ Failure.isSystem_system ..
    · split at h
      · exact Except.error.inj h ▸ Failure.isSystem_system ..
      · cases h
      · exact Except.error.inj h ▸ Failure.isSystem_system ..

theorem isSystem_of_discard (hpath : notAPath? path = none) (h : (t.discard path).2 = some f) :
    f.IsSystem := by
  rw [discard, hpath] at h
  dsimp only at h
  split at h
  · cases h
  · exact Option.some.inj h ▸ Failure.isSystem_system ..
  · cases h
  · split at h
    · exact Option.some.inj h ▸ Failure.isSystem_system ..
    · cases h

theorem isSystem_of_giveUp (hpath : notAPath? path = none) {failure : Failure}
    (hfailure : failure.IsSystem) (h : (t.giveUp path failure).2 = some f) : f.IsSystem := by
  unfold giveUp at h
  split at h
  · next hdiscard =>
      refine Option.some.inj h ▸ isSystem_of_discard (t := t) hpath ?_
      rw [hdiscard]
  · exact Option.some.inj h ▸ hfailure

theorem isSystem_of_writeThrough (hpath : notAPath? path = none)
    (htext : text.all Code.isScalar = true) (h : (t.writeThrough path target text).2 = some f) :
    f.IsSystem := by
  unfold writeThrough at h
  split at h
  · next hfill =>
      refine isSystem_of_giveUp hpath ?_ h
      exact isSystem_of_writeInPlace (t := t) hpath htext (by rw [hfill])
  · split at h
    · cases h
    · next hmove => exact isSystem_of_giveUp hpath (isSystem_of_rename hmove) h

/-! ### Writing a text -/

/-- The name of a path always takes the suffix of the temporary file. -/
theorem withSuffix_temporarySuffix (hp : p.IsNormal) (hname : p.name ≠ []) :
    p.withSuffix (p.suffix ++ temporarySuffix) = .ok (temporaryOf p) := by
  have hslash : Code.slash ∉ p.suffix := fun hmem => (Path.isName_name hp hname).noSlash <| by
    rw [← Path.splitName_append p.name]
    exact List.mem_append_right _ hmem
  have hhead : (p.suffix ++ temporarySuffix).head? = some Code.dot := by
    unfold Path.suffix Path.splitName
    split
    · split <;> rfl
    · rfl
  have hne : p.suffix ++ temporarySuffix ≠ [Code.dot] := fun heq => by
    have hlength := congrArg List.length heq
    rw [List.length_append, length_temporarySuffix] at hlength
    cases hlength
  have hnone : (p.suffix ++ temporarySuffix).elem Code.slash = false := by
    rw [List.elem_eq_mem, decide_eq_false_iff_not, List.mem_append, not_or]
    exact ⟨hslash, by decide⟩
  rw [Path.withSuffix, hnone, hhead, beq_eq_false_iff_ne.2 hne, List.isEmpty_eq_false_iff.2 hname]
  simp only [bne_self_eq_false, Bool.and_false, Bool.or_false, Bool.false_eq_true,
    if_false]
  rw [temporaryOf, Path.stem, Path.suffix, ← List.append_assoc, Path.splitName_append]

/-- **Writing fails only where the file system refuses,** if the text and the path hold no
surrogates and the path no zero. -/
theorem isSystem_of_writeText (htarget : target.IsNormal) (hname : target.name ≠ [])
    (hpath : notAPath? target.toText = none) (htext : text.all Code.isScalar = true)
    (h : (t.writeText target text).2 = some f) : f.IsSystem := by
  have hnames := (notAPath?_toText htarget).1 hpath
  have hparent : notAPath? target.parent.toText = none :=
    (notAPath?_toText (isNormal_parent htarget)).2 fun n hn =>
      hnames n ((List.dropLast_sublist _).subset hn)
  unfold writeText at h
  split at h
  · next hmade =>
      refine isSystem_of_makeDirectories (t := t) hparent ?_
      rw [hmade]
      exact h
  · rw [withSuffix_temporarySuffix htarget hname] at h
    refine isSystem_of_writeThrough ?_ htext h
    rw [toText_temporaryOf hname, notAPath?_append]
    exact ⟨hpath, rfl⟩

/-- A text with surrogates is never written. -/
theorem all_isScalar_of_writeText (h : (t.writeText target text).2 = none) :
    text.all Code.isScalar = true := by
  obtain ⟨-, t', hmade, hsuffix⟩ := of_writeText_eq_none h
  rw [writeText_eq hmade hsuffix] at h
  unfold writeThrough at h
  split at h
  · exact absurd h (giveUp_ne_none _ _ _)
  · next hfill =>
      by_contra hnot
      have hnone := congrArg Prod.snd hfill
      unfold writeInPlace at hnone
      split at hnone
      · cases hnone
      · rw [List.takeWhile_cons, if_neg hnot] at hnone
        cases hnone

end BundleAudit.Tree
