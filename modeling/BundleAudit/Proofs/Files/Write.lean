import BundleAudit.Files.Write
import BundleAudit.Proofs.Files.Walk

/-!
# BundleAudit.Proofs.Files.Write

**A text that was written is at its place.** Where an empty file can be written, any
text can, and its bytes are then read at the path (`read_writeText`). Writing takes
three steps, each of which keeps all directories and links, so that the way to the
directory of the file is the same before and after: directories are made, the
temporary file is filled, and it is moved onto the file.
-/

namespace BundleAudit.Tree

variable {t t' : Tree} {p target : Path} {l d : Location} {name : Text}

/-! ### Links -/

theorem NoLinkHas.put (h : t.NoLinkHas name) {e : Entry} (he : ∀ aim, e ≠ .link aim) (hl : l ≠ []) :
    (t.put l e).NoLinkHas name := by
  intro other aim hentry
  rw [entry?_put hl] at hentry
  split at hentry
  · exact he aim (Option.some.inj hentry)
  · exact h other aim hentry

/-! ### Making directories -/

theorem makeDirectory_noLinkHas {path : Text} (hmade : t.makeDirectory path = .ok t')
    (h : t.NoLinkHas name) : t'.NoLinkHas name := by
  unfold makeDirectory at hmade
  split at hmade
  · cases hmade
  · cases hmade
  · rw [← Except.ok.inj hmade]
    exact h.put nofun (by simp)

theorem makeDirectoriesFrom_noLinkHas (root : Text) (h : t.NoLinkHas name) (names : List Text) :
    (makeDirectoriesFrom root t names).1.NoLinkHas name := by
  induction names generalizing t with
  | nil => exact h
  | cons first around ih =>
      rw [makeDirectoriesFrom]
      split
      · next hmade => exact makeDirectory_noLinkHas hmade h
      · have haround := ih h
        split
        · next hfrom => rwa [hfrom] at haround
        · next hfrom =>
            rw [hfrom] at haround
            split
            · next hmade => exact makeDirectory_noLinkHas hmade haround
            · exact haround
            · exact haround
      · exact h

/-- Directories are made, but no links. -/
theorem makeDirectories_noLinkHas (h : t.NoLinkHas name) (path : Path) :
    (t.makeDirectories path).1.NoLinkHas name := by
  unfold makeDirectories
  split
  · exact h
  · exact makeDirectoriesFrom_noLinkHas _ h _

/-! ### The temporary file -/

theorem placeAt_eq_missing {directory : Location} {other : Text}
    (h : t.placeAt d name = .missing directory other) :
    directory = d ∧ other = name ∧ t.entry? (d ++ [name]) = none := by
  unfold placeAt at h
  split at h
  · cases h
  · next hentry =>
      cases h
      exact ⟨rfl, rfl, by simpa using hentry⟩

theorem placeAt_eq_found (h : t.placeAt d name = .found l) :
    l = d ++ [name] ∧ (t.entry? (d ++ [name])).isSome := by
  unfold placeAt at h
  split at h
  · next hentry =>
      cases h
      exact ⟨rfl, hentry⟩
  · cases h

theorem of_openEmpty_eq_ok (hp : p.IsNormal) (hname : IsProper p.name) (hlink : t.HasNoLinkAt p)
    (h : t.openEmpty p.toText = .ok (t', l)) :
    notAPath? p.toText = none ∧ ∃ d, t.LeadsTo p d ∧ l = d ++ [p.name] ∧ t.IsFree l ∧
      t' = t.put l (.file []) := by
  have hend : ∀ d, t.LeadsTo p d → t.EndsAt .writing (d ++ [p.name]) := fun d hd =>
    .inr (hlink d hd)
  unfold openEmpty at h
  split at h
  · cases h
  · next hpath =>
      refine ⟨hpath, ?_⟩
      split at h
      · cases h
      · next hplace =>
          obtain ⟨d, hd, hmissing⟩ := (place_eq_ok_iff hp hname hend).1 hplace
          obtain ⟨rfl, rfl, hentry⟩ := placeAt_eq_missing hmissing.symm
          obtain ⟨rfl, rfl⟩ := Prod.mk.inj (Except.ok.inj h)
          exact ⟨_, hd, rfl, ⟨by rw [hentry]; nofun, hlink _ hd⟩, rfl⟩
      · next hplace =>
          obtain ⟨d, hd, hfound⟩ := (place_eq_ok_iff hp hname hend).1 hplace
          obtain ⟨rfl, -⟩ := placeAt_eq_found hfound.symm
          split at h
          · next hentry =>
              obtain ⟨rfl, rfl⟩ := Prod.mk.inj (Except.ok.inj h)
              exact ⟨_, hd, rfl, ⟨by rw [hentry]; nofun, hlink _ hd⟩, rfl⟩
          · cases h

/-- The file is moved just if both paths lead to directories, and it takes the place of none. -/
theorem rename_eq_ok_iff (hp : p.IsNormal) (hname : IsProper p.name) (htarget : target.IsNormal)
    (htname : IsProper target.name) :
    t.rename p.toText target = .ok t' ↔
      ∃ d d' e, t.LeadsTo p d ∧ t.LeadsTo target d' ∧ t.entry? (d ++ [p.name]) = some e ∧
        t.entry? (d' ++ [target.name]) ≠ some .directory ∧
        t' = (t.put (d' ++ [target.name]) e).remove (d ++ [p.name]) := by
  unfold rename
  rw [htname.notParent, if_neg Bool.false_ne_true]
  constructor
  · intro h
    dsimp only at h
    split at h
    · cases h
    · cases h
    · cases h
    · next hplace htplace =>
        obtain ⟨d, hd, hfound⟩ := (place_eq_ok_iff hp hname fun _ _ => .inl rfl).1 hplace
        obtain ⟨d', hd', hmissing⟩ := (place_eq_ok_iff htarget htname fun _ _ => .inl rfl).1 htplace
        obtain ⟨rfl, -⟩ := placeAt_eq_found hfound.symm
        obtain ⟨rfl, rfl, hentry⟩ := placeAt_eq_missing hmissing.symm
        split at h
        · next hfile =>
            exact ⟨_, _, _, hd, hd', hfile, by rw [hentry]; nofun, (Except.ok.inj h).symm⟩
        · cases h
    · next hplace htplace =>
        obtain ⟨d, hd, hfound⟩ := (place_eq_ok_iff hp hname fun _ _ => .inl rfl).1 hplace
        obtain ⟨d', hd', hfound'⟩ := (place_eq_ok_iff htarget htname fun _ _ => .inl rfl).1 htplace
        obtain ⟨rfl, -⟩ := placeAt_eq_found hfound.symm
        obtain ⟨rfl, -⟩ := placeAt_eq_found hfound'.symm
        split at h
        · cases h
        · next hfile hdirectory =>
            exact ⟨_, _, _, hd, hd', hfile, hdirectory, (Except.ok.inj h).symm⟩
        · cases h
  · rintro ⟨d, d', e, hd, hd', hentry, hdirectory, rfl⟩
    have hplace : t.place .entry p.toText = .ok (.found (d ++ [p.name])) :=
      (place_eq_ok_iff hp hname fun _ _ => .inl rfl).2 ⟨d, hd, by rw [placeAt, hentry]; rfl⟩
    have htplace : t.place .entry target.toText = .ok (t.placeAt d' target.name) :=
      (place_eq_ok_iff htarget htname fun _ _ => .inl rfl).2 ⟨d', hd', rfl⟩
    rw [hplace, htplace, placeAt]
    cases hthere : t.entry? (d' ++ [target.name]) with
    | none => simp [hentry]
    | some there =>
        cases there with
        | directory => exact absurd hthere hdirectory
        | file bytes => simp [hentry, hthere]
        | link aim => simp [hentry, hthere]

theorem isProper_of_rename_eq_ok {path : Text} (htarget : target.IsNormal)
    (hname : target.name ≠ []) (h : t.rename path target = .ok t') : IsProper target.name where
  notSame := by
    have hname := Path.isName_name htarget hname
    rw [isSame, List.isEmpty_eq_false_iff.2 hname.ne_nil, beq_eq_false_iff_ne.2 hname.ne_dot]
    rfl
  notParent := by
    cases hparent : isParent target.name with
    | false => rfl
    | true =>
        rw [rename, if_pos hparent] at h
        cases h

/-- A file is read where the path leads. -/
theorem read_eq_ok (hp : p.IsNormal) (hname : IsProper p.name) (hpath : notAPath? p.toText = none)
    (hd : t.LeadsTo p d) {bytes : Bytes}
    (hentry : t.entry? (d ++ [p.name]) = some (.file bytes)) : t.read p.toText = .ok bytes := by
  have hplace : t.place .target p.toText = .ok (.found (d ++ [p.name])) := by
    rw [hd.place_eq hp hname (.inr fun target => by rw [hentry]; nofun), placeAt, hentry]
    rfl
  rw [read, hpath, hplace]
  simp only [hentry]

/-! ### The trees on the way -/

/-- The tree with a new file that holds some bytes. -/
def filled (t : Tree) (l : Location) (bytes : Bytes) : Tree :=
  (t.put l (.file [])).put l (.file bytes)

/-- The tree in which that file has been moved to another location. -/
def moved (t : Tree) (l l' : Location) (bytes : Bytes) : Tree :=
  ((t.filled l bytes).put l' (.file bytes)).remove l

variable {l' : Location}

theorem entry?_filled (hl : l ≠ []) (bytes : Bytes) (other : Location) :
    entry? (t.filled l bytes) other = if other = l then some (.file bytes) else t.entry? other := by
  rw [filled, entry?_put hl, entry?_put hl]
  split <;> rfl

theorem entry?_moved (hl : l ≠ []) (hl' : l' ≠ []) (bytes : Bytes) (other : Location) :
    entry? (t.moved l l' bytes) other =
      if other = l then none
      else if other = l' then some (.file bytes)
      else t.entry? other := by
  rw [moved, entry?_remove hl, entry?_put hl', entry?_filled hl]
  split
  · rfl
  · rfl

theorem isFree_filled (hl : l ≠ []) (bytes : Bytes) : (t.filled l bytes).IsFree l :=
  isFree_of_entry?_eq_file (by rw [entry?_filled hl, if_pos rfl])

theorem keeps_filled (hl : l ≠ []) (hfree : t.IsFree l) (bytes : Bytes) :
    t.Keeps (t.filled l bytes) :=
  Keeps.of_isFree rfl fun other => by
    by_cases h : other = l
    · exact .inl (h ▸ hfree)
    · exact .inr (by rw [entry?_filled hl, if_neg h])

/-- No directory and no link is new. -/
theorem filled_keeps (hl : l ≠ []) (bytes : Bytes) : (t.filled l bytes).Keeps t :=
  Keeps.of_isFree rfl fun other => by
    by_cases h : other = l
    · rw [h]
      exact .inl (isFree_filled hl bytes)
    · exact .inr (by rw [entry?_filled hl, if_neg h])

theorem filled_keeps_filled (hl : l ≠ []) (bytes bytes' : Bytes) :
    (t.filled l bytes).Keeps (t.filled l bytes') :=
  Keeps.of_isFree rfl fun other => by
    by_cases h : other = l
    · rw [h]
      exact .inl (isFree_filled hl bytes)
    · exact .inr (by rw [entry?_filled hl, entry?_filled hl, if_neg h, if_neg h])

theorem filled_keeps_moved (hl : l ≠ []) (hl' : l' ≠ []) {bytes : Bytes}
    (hfree : (t.filled l bytes).IsFree l') : (t.filled l bytes).Keeps (t.moved l l' bytes) :=
  Keeps.of_isFree rfl fun other => by
    by_cases h : other = l
    · rw [h]
      exact .inl (isFree_filled hl bytes)
    · by_cases h' : other = l'
      · exact .inl (h' ▸ hfree)
      · exact .inr (by rw [entry?_moved hl hl', entry?_filled hl, if_neg h, if_neg h, if_neg h'])

theorem moved_keeps_moved (hl : l ≠ []) (hl' : l' ≠ []) (bytes bytes' : Bytes) :
    (t.moved l l' bytes).Keeps (t.moved l l' bytes') :=
  Keeps.of_isFree rfl fun other => by
    by_cases h' : other = l'
    · have hmoved := entry?_moved (t := t) hl hl' bytes other
      rw [if_pos h'] at hmoved
      split at hmoved
      · exact .inl (isFree_of_entry?_eq_none hmoved)
      · exact .inl (isFree_of_entry?_eq_file hmoved)
    · exact .inr (by rw [entry?_moved hl hl', entry?_moved hl hl', if_neg h', if_neg h'])

/-- No directory and no link is new. -/
theorem moved_keeps (hl : l ≠ []) (hl' : l' ≠ []) (bytes : Bytes) :
    (t.moved l l' bytes).Keeps t :=
  Keeps.of_isFree rfl fun other => by
    by_cases h : other = l
    · exact .inl (isFree_of_entry?_eq_none (by rw [entry?_moved hl hl', if_pos h]))
    · by_cases h' : other = l'
      · exact .inl (isFree_of_entry?_eq_file (by rw [entry?_moved hl hl', if_neg h, if_pos h']))
      · exact .inr (by rw [entry?_moved hl hl', if_neg h, if_neg h'])

/-! ### Writing through the temporary file -/

theorem giveUp_ne_none (t : Tree) (temporary : Text) (failure : Failure) :
    (t.giveUp temporary failure).2 ≠ none := by
  unfold giveUp
  split <;> exact Option.some_ne_none _

theorem writeInPlace_eq {path text : Text} (htext : text.all Code.isScalar = true)
    (h : t.openEmpty path = .ok (t.put l (.file []), l)) :
    t.writeInPlace path [text] = (t.filled l (text.flatMap Text.utf8Code), none) := by
  rw [writeInPlace, h]
  simp only [List.takeWhile_cons, htext, if_true, List.takeWhile_nil, List.flatMap_singleton]
  rfl

/-- A text whose writing succeeds was put into the temporary file, which was moved. -/
theorem of_writeThrough_eq_none {temporary text : Text}
    (h : (t.writeThrough temporary target text).2 = none) :
    ∃ t' l, t.openEmpty temporary = .ok (t', l) ∧
      ∃ t'', ((t.writeInPlace temporary [text]).1).rename temporary target = .ok t'' := by
  unfold writeThrough at h
  split at h
  · exact absurd h (giveUp_ne_none _ _ _)
  · next hfill =>
      split at h
      · next hmove =>
          cases hopen : t.openEmpty temporary with
          | error failure =>
              rw [writeInPlace, hopen] at hfill
              cases hfill
          | ok opened => exact ⟨_, _, rfl, _, by rw [hfill]; exact hmove⟩
      · exact absurd h (giveUp_ne_none _ _ _)

/-- The directory to which a path leads is one. -/
theorem LeadsTo.unique (hd : t.LeadsTo p d) {d' : Location} (hd' : t.LeadsTo p d')
    (hp : p.IsNormal) (hname : IsProper p.name) : d' = d := by
  have hfirst : t.place .entry p.toText = .ok (t.placeAt d p.name) :=
    hd.place_eq hp hname (.inl rfl)
  have hplace := hfirst.symm.trans (hd'.place_eq hp hname (.inl rfl))
  unfold placeAt at hplace
  split at hplace <;> split at hplace
  · exact (List.append_inj_left' (Place.found.inj (Except.ok.inj hplace)) rfl).symm
  · cases hplace
  · cases hplace
  · exact (Place.missing.inj (Except.ok.inj hplace)).1.symm

/-- Where a file is filled, and where it is moved. -/
structure MovesFile (t : Tree) (p target : Path) (l l' : Location) : Prop where
  fills : ∃ d, t.LeadsTo p d ∧ l = d ++ [p.name]
  isFree : t.IsFree l
  ne_nil : l ≠ []
  other : l' ≠ l
  isPath : notAPath? p.toText = none
  leads : ∃ d', t.LeadsTo target d' ∧ l' = d' ++ [target.name]
  notDirectory : t.entry? l' ≠ some .directory
  isProper : IsProper target.name
  writes : ∀ text : Text, text.all Code.isScalar = true →
    t.writeThrough p.toText target text = (t.moved l l' (text.flatMap Text.utf8Code), none)

/-- Where one text can be moved to its place, any text can. -/
theorem exists_movesFile (hp : p.IsNormal) (hname : IsProper p.name) (hlink : t.HasNoLinkAt p)
    (htarget : target.IsNormal) (htname : target.name ≠ []) (hne : p.name ≠ target.name)
    {first : Text} (hfirst : first.all Code.isScalar = true)
    (h : (t.writeThrough p.toText target first).2 = none) :
    ∃ l l', t.MovesFile p target l l' := by
  obtain ⟨t₁, l, hopen, t₂, hmove⟩ := of_writeThrough_eq_none h
  have hproper := isProper_of_rename_eq_ok htarget htname hmove
  obtain ⟨hpath, d, hd, hl, hfree, rfl⟩ := of_openEmpty_eq_ok hp hname hlink hopen
  have hlne : l ≠ [] := by
    rw [hl]
    exact List.concat_ne_nil _ d
  -- this text shows where the path of the file leads
  rw [writeInPlace_eq hfirst hopen] at hmove
  obtain ⟨_, d', _, _, hd', _, hdirectory, _⟩ :=
    (rename_eq_ok_iff hp hname htarget hproper).1 hmove
  have hother : d' ++ [target.name] ≠ l := by
    rw [hl]
    intro heq
    exact hne (List.singleton_inj.1 (List.append_inj' heq rfl).2).symm
  rw [entry?_filled hlne, if_neg hother] at hdirectory
  refine ⟨l, d' ++ [target.name], ⟨d, hd, hl⟩, hfree, hlne, hother, hpath,
    ⟨d', hd'.of_keeps (filled_keeps hlne _), rfl⟩, hdirectory, hproper, fun text htext => ?_⟩
  generalize hbytes : text.flatMap Text.utf8Code = bytes
  have hdone : (t.filled l bytes).rename p.toText target =
      .ok (t.moved l (d' ++ [target.name]) bytes) := by
    refine (rename_eq_ok_iff hp hname htarget hproper).2 ⟨d, d', .file bytes,
      hd.of_keeps (keeps_filled hlne hfree bytes),
      hd'.of_keeps (filled_keeps_filled hlne _ bytes), ?_, ?_, by rw [moved, hl]⟩
    · rw [← hl, entry?_filled hlne, if_pos rfl]
    · rwa [entry?_filled hlne, if_neg hother]
  rw [writeThrough, writeInPlace_eq htext hopen, hbytes]
  simp only [hdone]

namespace MovesFile

variable (h : t.MovesFile p target l l')
include h

theorem ne_nil' : l' ≠ [] := by
  obtain ⟨d', -, rfl⟩ := h.leads
  exact List.concat_ne_nil _ d'

variable (htarget : target.IsNormal)
include htarget

/-- A file that was moved is read if its path still leads where it did. -/
theorem read_moved {d' : Location} (hleads : (t.moved l l' []).LeadsTo target d')
    (hl' : l' = d' ++ [target.name]) (hpath : notAPath? target.toText = none) (bytes : Bytes) :
    (t.moved l l' bytes).read target.toText = .ok bytes := by
  have hne' := h.ne_nil'
  refine read_eq_ok htarget h.isProper hpath (hleads.of_keeps (moved_keeps_moved h.ne_nil hne' _ _))
    ?_
  rw [← hl', entry?_moved h.ne_nil hne', if_neg h.other, if_pos rfl]

/-- A file that was moved is read if no link stood at its place. -/
theorem read_of_hasNoLinkAt (hlink : t.HasNoLinkAt target)
    (hpath : notAPath? target.toText = none) (bytes : Bytes) :
    (t.moved l l' bytes).read target.toText = .ok bytes := by
  obtain ⟨d', hd', hl'⟩ := h.leads
  refine h.read_moved htarget ?_ hl' hpath bytes
  have hplace : (t.filled l []).IsFree l' := by
    rw [IsFree, entry?_filled h.ne_nil, if_neg h.other]
    exact ⟨h.notDirectory, hl' ▸ hlink d' hd'⟩
  exact hd'.of_keeps ((keeps_filled h.ne_nil h.isFree []).trans
    (filled_keeps_moved h.ne_nil (h.ne_nil') hplace))

/-- A file that was moved is read if an empty one is. -/
theorem read_of_read_empty (hpath : notAPath? target.toText = none)
    (hread : (t.moved l l' []).read target.toText = .ok []) (bytes : Bytes) :
    (t.moved l l' bytes).read target.toText = .ok bytes := by
  obtain ⟨d', hd', hl'⟩ := h.leads
  have hplace : ∃ place, (t.moved l l' []).place .target target.toText = .ok place := by
    rw [read, hpath] at hread
    dsimp only at hread
    split at hread
    · cases hread
    · exact ⟨_, ‹_›⟩
    · exact ⟨_, ‹_›⟩
  obtain ⟨place, hplace⟩ := hplace
  obtain ⟨d, hd, -⟩ := exists_leadsTo htarget h.isProper hplace
  -- all directories and links that are there after the move were there before
  have hbefore := hd.of_keeps (moved_keeps h.ne_nil (h.ne_nil') [])
  rw [hd'.unique hbefore htarget h.isProper] at hd
  exact h.read_moved htarget hd hl' hpath bytes

end MovesFile

/-! ### Writing a text -/

/-- The path of the temporary file. -/
def temporaryOf (target : Path) : Path :=
  ⟨target.root, target.names.dropLast ++ [target.name ++ temporarySuffix]⟩

theorem name_temporaryOf (target : Path) :
    (temporaryOf target).name = target.name ++ temporarySuffix :=
  List.getLastD_concat ..

theorem toText_temporaryOf (hname : target.name ≠ []) :
    (temporaryOf target).toText = target.toText ++ temporarySuffix := by
  rw [temporaryOf, Path.toText_concat, ← List.append_assoc, ← Path.toText_concat,
    ← Path.eq_of_name_ne_nil hname]

theorem length_temporarySuffix : temporarySuffix.length = 4 := rfl

theorem isNormal_temporaryOf (htarget : target.IsNormal) (hname : target.name ≠ []) :
    (temporaryOf target).IsNormal := by
  refine ⟨htarget.root, fun name h => ?_⟩
  rcases List.mem_append.1 h with h | h
  · exact htarget.names name ((List.dropLast_sublist _).subset h)
  · rw [List.mem_singleton.1 h]
    refine ⟨List.append_ne_nil_of_left_ne_nil hname _, fun hdot => ?_, fun hslash => ?_⟩
    · have := congrArg List.length hdot
      simp [length_temporarySuffix] at this
    · rcases List.mem_append.1 hslash with hslash | hslash
      · exact (Path.isName_name htarget hname).noSlash hslash
      · exact absurd hslash (by decide)

theorem isProper_temporaryOf (target : Path) : IsProper (temporaryOf target).name := by
  have hlength : 4 ≤ (temporaryOf target).name.length := by
    rw [name_temporaryOf, List.length_append, length_temporarySuffix]
    exact Nat.le_add_left 4 _
  constructor
  · rw [isSame, Bool.or_eq_false_iff, List.isEmpty_eq_false_iff, beq_eq_false_iff_ne]
    exact ⟨fun h => by simp [h] at hlength, fun h => by simp [h] at hlength⟩
  · rw [isParent, beq_eq_false_iff_ne]
    exact fun h => by simp [h] at hlength

theorem notAPath?_eq_none_iff {path : Text} :
    notAPath? path = none ↔ path.all Code.isScalar = true ∧ Code.nul ∉ path := by
  rw [notAPath?]
  cases hscalar : path.all Code.isScalar with
  | false => simp
  | true => simp

/-- What a text writes to the temporary path, once the directories are there. -/
theorem writeText_eq {temporary : Path} (hmade : t.makeDirectories target.parent = (t', none))
    (hsuffix : target.withSuffix (target.suffix ++ temporarySuffix) = .ok temporary) (text : Text) :
    t.writeText target text = t'.writeThrough temporary.toText target text := by
  rw [writeText, hmade]
  simp only [hsuffix]

theorem of_writeText_eq_none {text : Text} (h : (t.writeText target text).2 = none) :
    target.name ≠ [] ∧ ∃ t', t.makeDirectories target.parent = (t', none) ∧
      target.withSuffix (target.suffix ++ temporarySuffix) = .ok (temporaryOf target) := by
  unfold writeText at h
  split at h
  · cases h
  · next hmade =>
      split at h
      · cases h
      · next hsuffix =>
          obtain ⟨hname, rfl⟩ := Path.of_withSuffix_eq_ok hsuffix
          exact ⟨hname, _, hmade, hsuffix⟩

/-- An empty file can be written at a path, and no link has its name or that of its temporary
file. -/
structure IsWritable (t : Tree) (target : Path) : Prop where
  writesEmpty : (t.writeText target []).2 = none
  noLink : t.NoLinkHas target.name
  noTemporaryLink : t.NoLinkHas (target.name ++ temporarySuffix)

/-- An empty file can be written at a path and is then read there, and once its directories are
made, no link stands at its temporary file. -/
structure TakesFile (t : Tree) (target : Path) : Prop where
  writesEmpty : (t.writeText target []).2 = none
  readsEmpty : (t.writeText target []).1.read target.toText = .ok []
  noTemporaryLink : (t.makeDirectories target.parent).1.HasNoLinkAt (temporaryOf target)

/-- Once its directories are made, a text goes to the temporary file, which is moved. -/
theorem exists_movesFile_of_writeText (htarget : target.IsNormal) {first : Text}
    (hfirst : first.all Code.isScalar = true) (h : (t.writeText target first).2 = none)
    (hlink : (t.makeDirectories target.parent).1.HasNoLinkAt (temporaryOf target)) :
    notAPath? target.toText = none ∧ ∃ t' l l', t.makeDirectories target.parent = (t', none) ∧
      t'.MovesFile (temporaryOf target) target l l' ∧
      ∀ text : Text, text.all Code.isScalar = true →
        t.writeText target text = (t'.moved l l' (text.flatMap Text.utf8Code), none) := by
  obtain ⟨hname, t', hmade, hsuffix⟩ := of_writeText_eq_none h
  have hmadeTree : (t.makeDirectories target.parent).1 = t' := congrArg Prod.fst hmade
  rw [writeText_eq hmade hsuffix] at h
  have hne : (temporaryOf target).name ≠ target.name := by
    rw [name_temporaryOf]
    exact fun h => absurd (List.append_right_eq_self.1 h) (by decide)
  obtain ⟨l, l', hmoves⟩ := exists_movesFile (isNormal_temporaryOf htarget hname)
    (isProper_temporaryOf target) (hmadeTree ▸ hlink) htarget hname hne hfirst h
  refine ⟨?_, t', l, l', hmade, hmoves, fun text htext => ?_⟩
  · have hpath := hmoves.isPath
    rw [toText_temporaryOf hname, notAPath?_eq_none_iff, List.all_append, Bool.and_eq_true] at hpath
    exact notAPath?_eq_none_iff.2
      ⟨hpath.1.1, fun hmem => hpath.2 (List.mem_append_left _ hmem)⟩
  · rw [writeText_eq hmade hsuffix, hmoves.writes text htext]

/-- Any text can be written where an empty file can, and it is read there. -/
theorem TakesFile.read_writeText (htarget : target.IsNormal) (h : t.TakesFile target) {text : Text}
    (htext : text.all Code.isScalar = true) :
    ∃ t', t.writeText target text = (t', none) ∧
      t'.read target.toText = .ok (text.flatMap Text.utf8Code) := by
  obtain ⟨hpath, t', l, l', -, hmoves, hwrites⟩ :=
    exists_movesFile_of_writeText htarget rfl h.writesEmpty h.noTemporaryLink
  have hread := h.readsEmpty
  rw [hwrites [] rfl] at hread
  exact ⟨_, hwrites text htext, hmoves.read_of_read_empty htarget hpath hread _⟩

/-- So it is where no link in the whole tree has its name or that of its temporary file. -/
theorem IsWritable.takesFile (htarget : target.IsNormal) (h : t.IsWritable target) :
    t.TakesFile target := by
  have hlink : (t.makeDirectories target.parent).1.HasNoLinkAt (temporaryOf target) := by
    have hnone := makeDirectories_noLinkHas h.noTemporaryLink target.parent
    exact NoLinkHas.hasNoLinkAt (by rwa [name_temporaryOf])
  refine ⟨h.writesEmpty, ?_, hlink⟩
  obtain ⟨hpath, t', l, l', hmade, hmoves, hwrites⟩ :=
    exists_movesFile_of_writeText htarget rfl h.writesEmpty hlink
  have hnone := makeDirectories_noLinkHas h.noLink target.parent
  rw [hmade] at hnone
  rw [hwrites [] rfl]
  exact hmoves.read_of_hasNoLinkAt htarget hnone.hasNoLinkAt hpath []

theorem read_writeText (htarget : target.IsNormal) (h : t.IsWritable target) {text : Text}
    (htext : text.all Code.isScalar = true) :
    ∃ t', t.writeText target text = (t', none) ∧
      t'.read target.toText = .ok (text.flatMap Text.utf8Code) :=
  (h.takesFile htarget).read_writeText htarget htext

end BundleAudit.Tree
