import BundleAudit.Proofs.Files.Directories

/-!
# BundleAudit.Proofs.Files.Atomicity

**A text is written as a whole, or not at all** (`isWhole_writeText`). Writing has
three outcomes once the directories are made (`writeThrough_cases`): nothing could be
opened, the temporary file was filled and taken away, or it was filled and moved. Each
of them leaves nothing at the temporary path, and all entries but that of the target.

The directories come first: one of them can be what stands at the temporary path.
-/

namespace BundleAudit.Tree

variable {t t' : Tree} {p target : Path} {l l' d : Location} {path text : Text} {f : Failure}

/-! ### What stands at a path -/

/-- An entry stands at a path, be it a link. -/
def StandsAt (t : Tree) (path : Text) (l : Location) : Prop :=
  notAPath? path = none ∧ t.place .entry path = .ok (.found l)

/-- It stands at the last name of the path, in the directory to which the others lead. -/
theorem StandsAt.exists_leadsTo (h : t.StandsAt p.toText l) (hp : p.IsNormal)
    (hname : IsProper p.name) :
    ∃ d, t.LeadsTo p d ∧ l = d ++ [p.name] ∧ t.entry? (d ++ [p.name]) ≠ none := by
  obtain ⟨d, hd, hfound⟩ := (place_eq_ok_iff hp hname fun _ _ => .inl rfl).1 h.2
  obtain ⟨hl, hsome⟩ := placeAt_eq_found hfound.symm
  exact ⟨d, hd, hl, Option.isSome_iff_ne_none.1 hsome⟩

theorem LeadsTo.standsAt (hd : t.LeadsTo p d) (hp : p.IsNormal) (hname : IsProper p.name)
    (hpath : notAPath? p.toText = none) (hentry : t.entry? (d ++ [p.name]) ≠ none) :
    t.StandsAt p.toText (d ++ [p.name]) :=
  ⟨hpath, by rw [hd.place_eq hp hname (.inl rfl), placeAt,
    if_pos (Option.isSome_iff_ne_none.2 hentry)]⟩

/-- Where a file stands, one can be opened. -/
theorem StandsAt.exists_openEmpty (h : t.StandsAt p.toText l) (hp : p.IsNormal)
    (hname : IsProper p.name) (hfree : t.IsFree l) :
    ∃ opened, t.openEmpty p.toText = .ok opened := by
  obtain ⟨d, hd, rfl, hentry⟩ := h.exists_leadsTo hp hname
  have hplace : t.place .writing p.toText = .ok (.found (d ++ [p.name])) := by
    rw [hd.place_eq hp hname (.inr hfree.2), placeAt, if_pos (Option.isSome_iff_ne_none.2 hentry)]
  rcases hfree.entry?_cases with hnone | ⟨bytes, hfile⟩
  · exact absurd hnone hentry
  · rw [openEmpty, h.1, hplace]
    simp only [hfile]
    exact ⟨_, rfl⟩

/-! ### After a failure -/

/-- Nothing is taken away where nothing stands. -/
theorem discard_of_not_standsAt (h : ∀ l, ¬t.StandsAt path l) : (t.discard path).1 = t := by
  unfold discard
  split
  · rfl
  · next hpath =>
      split
      · rfl
      · rfl
      · rfl
      · next hplace => exact absurd ⟨hpath, hplace⟩ (h _)

/-- A file is taken away. -/
theorem LeadsTo.discard_eq (hd : t.LeadsTo p d) (hp : p.IsNormal) (hname : IsProper p.name)
    (hpath : notAPath? p.toText = none) {bytes : Bytes}
    (hfile : t.entry? (d ++ [p.name]) = some (.file bytes)) :
    t.discard p.toText = (t.remove (d ++ [p.name]), none) := by
  have hplace := (hd.standsAt hp hname hpath (by simp [hfile])).2
  rw [discard, hpath, hplace]
  simp [hfile]

theorem giveUp_eq (temporary : Text) (failure : Failure) :
    ∃ other, t.giveUp temporary failure = ((t.discard temporary).1, some other) := by
  unfold giveUp
  split
  · next hdiscard => exact ⟨_, by rw [hdiscard]⟩
  · next hdiscard => exact ⟨_, by rw [hdiscard]⟩

/-! ### The three outcomes -/

/-- A temporary file can be filled at a location. -/
structure Fills (t : Tree) (p : Path) (d : Location) : Prop where
  isPath : notAPath? p.toText = none
  leads : t.LeadsTo p d
  isFree : t.IsFree (d ++ [p.name])

/-- A file that was filled is taken away after a failure. -/
theorem Fills.giveUp_eq (h : t.Fills p d) (hp : p.IsNormal) (hname : IsProper p.name)
    (bytes : Bytes) (failure : Failure) :
    ∃ other, (t.filled (d ++ [p.name]) bytes).giveUp p.toText failure =
      ((t.filled (d ++ [p.name]) bytes).remove (d ++ [p.name]), some other) := by
  have hne : d ++ [p.name] ≠ [] := List.concat_ne_nil _ _
  obtain ⟨other, hgiveUp⟩ :=
    Tree.giveUp_eq (t := t.filled (d ++ [p.name]) bytes) p.toText failure
  have hdiscard := (h.leads.of_keeps (keeps_filled hne h.isFree bytes)).discard_eq hp hname h.isPath
    (by rw [entry?_filled hne, if_pos rfl])
  exact ⟨other, by rw [hgiveUp, hdiscard]⟩

/-- **Writing through a temporary path has three outcomes.** -/
theorem writeThrough_cases (hp : p.IsNormal) (hname : IsProper p.name) (htarget : target.IsNormal)
    (htname : target.name ≠ []) (hfree : ∀ l, t.StandsAt p.toText l → t.IsFree l) (text : Text) :
    (∃ f, t.writeThrough p.toText target text = (t, some f) ∧ ∀ l, ¬t.StandsAt p.toText l) ∨
    (∃ d bytes f, t.Fills p d ∧ t.writeThrough p.toText target text =
      ((t.filled (d ++ [p.name]) bytes).remove (d ++ [p.name]), some f)) ∨
    (text.all Code.isScalar = true ∧ IsProper target.name ∧ ∃ d d', t.Fills p d ∧
      t.LeadsTo target d' ∧ t.entry? (d' ++ [target.name]) ≠ some .directory ∧
      t.writeThrough p.toText target text =
        (t.moved (d ++ [p.name]) (d' ++ [target.name]) (text.flatMap Text.utf8Code), none)) := by
  cases hopen : t.openEmpty p.toText with
  | error failure =>
      have hnone : ∀ l, ¬t.StandsAt p.toText l := fun l hl => by
        obtain ⟨opened, hok⟩ := hl.exists_openEmpty hp hname (hfree l hl)
        rw [hopen] at hok
        cases hok
      obtain ⟨other, hgiveUp⟩ := giveUp_eq (t := t) p.toText failure
      refine .inl ⟨other, ?_, hnone⟩
      rw [writeThrough, writeInPlace, hopen]
      simp only [hgiveUp, discard_of_not_standsAt hnone]
  | ok opened =>
      obtain ⟨t₁, l⟩ := opened
      have hlink : t.HasNoLinkAt p := fun d hd aim hentry => by
        have hstands := hd.standsAt hp hname (of_openEmpty hopen).1 (by simp [hentry])
        exact (hfree _ hstands).2 aim hentry
      obtain ⟨hpath, d, hd, rfl, hplaceFree, rfl⟩ := of_openEmpty_eq_ok hp hname hlink hopen
      have hfills : t.Fills p d := ⟨hpath, hd, hplaceFree⟩
      have hne : d ++ [p.name] ≠ [] := List.concat_ne_nil _ _
      cases htext : text.all Code.isScalar with
      | false =>
          obtain ⟨other, hgiveUp⟩ := hfills.giveUp_eq hp hname [] .unencodable
          refine .inr (.inl ⟨d, [], other, hfills, ?_⟩)
          have hfill : t.writeInPlace p.toText [text] =
              (t.filled (d ++ [p.name]) [], some .unencodable) := by
            rw [writeInPlace, hopen]
            simp only [List.takeWhile_cons, htext]
            rfl
          rw [writeThrough, hfill]
          exact hgiveUp
      | true =>
          have hfill := writeInPlace_eq htext hopen
          cases hmove : (t.filled (d ++ [p.name]) (text.flatMap Text.utf8Code)).rename p.toText
              target with
          | error failure =>
              obtain ⟨other, hgiveUp⟩ :=
                hfills.giveUp_eq hp hname (text.flatMap Text.utf8Code) failure
              refine .inr (.inl ⟨d, text.flatMap Text.utf8Code, other, hfills, ?_⟩)
              rw [writeThrough, hfill]
              simp only [hmove, hgiveUp]
          | ok t₂ =>
              have hproper := isProper_of_rename_eq_ok htarget htname hmove
              obtain ⟨d₁, d', e, hd₁, hd', hentry, hdirectory, rfl⟩ :=
                (rename_eq_ok_iff hp hname htarget hproper).1 hmove
              obtain rfl := (hd₁.of_keeps (filled_keeps hne _)).unique hd hp hname
              rw [entry?_filled hne, if_pos rfl] at hentry
              obtain rfl := Option.some.inj hentry
              rw [entry?_filled hne] at hdirectory
              refine .inr (.inr ⟨rfl, hproper, d, d', hfills, hd'.of_keeps (filled_keeps hne _),
                fun hthere => hdirectory ?_, ?_⟩)
              · split
                · next heq => exact absurd (heq ▸ hthere) hplaceFree.1
                · exact hthere
              rw [writeThrough, hfill]
              simp only [hmove]
              rfl

/-! ### After the temporary file -/

/-- Nothing is left at the location of a file that was taken away. -/
theorem entry?_remove_filled (hl : l ≠ []) (bytes : Bytes) (other : Location) :
    entry? ((t.filled l bytes).remove l) other = if other = l then none else t.entry? other := by
  rw [entry?_remove hl, entry?_filled hl]
  split <;> rfl

/-- No directory and no link is new. -/
theorem remove_filled_keeps (hl : l ≠ []) (bytes : Bytes) :
    ((t.filled l bytes).remove l).Keeps t :=
  Keeps.of_isFree rfl fun other => by
    by_cases h : other = l
    · exact .inl (isFree_of_entry?_eq_none (by rw [entry?_remove_filled hl, if_pos h]))
    · exact .inr (by rw [entry?_remove_filled hl, if_neg h])

/-- Nothing stands at a path if nothing stands where it led before. -/
theorem Fills.not_standsAt (h : t.Fills p d) (hp : p.IsNormal) (hname : IsProper p.name)
    (hkeeps : t'.Keeps t) (hnone : t'.entry? (d ++ [p.name]) = none) (l : Location) :
    ¬t'.StandsAt p.toText l := by
  intro hl
  obtain ⟨d', hd', -, hentry⟩ := hl.exists_leadsTo hp hname
  rw [h.leads.unique (hd'.of_keeps hkeeps) hp hname] at hentry
  exact hentry hnone

theorem Fills.entry?_eq_none (h : t.Fills p d) (hp : p.IsNormal) (hname : IsProper p.name)
    (hl : ¬t.StandsAt p.toText (d ++ [p.name])) : t.entry? (d ++ [p.name]) = none := by
  by_contra hentry
  exact hl (h.leads.standsAt hp hname h.isPath hentry)

/-! ### Whole texts -/

/-- A result of writing a text to a target: the target has become a file that holds the text, or it
is as it was; nothing is left at the temporary path, and nothing else has changed. -/
structure IsWhole (t : Tree) (target : Path) (text : Text) (r : Tree × Option Failure) : Prop where
  here : r.1.here = t.here
  returns : r.2 = none → text.all Code.isScalar = true ∧
    ∃ d, t.LeadsTo target d ∧ entry? r.1 (d ++ [target.name]) = some (.ofText text)
  reads : r.2 = none → t.HasNoLinkAt target →
    r.1.read target.toText = .ok (text.flatMap Text.utf8Code)
  fails : r.2 ≠ none → ∀ d, t.LeadsTo target d →
    entry? r.1 (d ++ [target.name]) = t.entry? (d ++ [target.name])
  gone : ∀ l, ¬r.1.StandsAt (temporaryOf target).toText l
  others : ∀ l, (∀ d, t.LeadsTo target d → l ≠ d ++ [target.name]) →
    ¬t.StandsAt (temporaryOf target).toText l → entry? r.1 l = t.entry? l

theorem isWhole_of_not_standsAt (h : ∀ l, ¬t.StandsAt (temporaryOf target).toText l)
    (text : Text) (f : Failure) : IsWhole t target text (t, some f) where
  here := rfl
  returns := nofun
  reads := nofun
  fails _ _ _ := rfl
  gone := h
  others _ _ _ := rfl

/-- The target and its temporary file are different entries. -/
theorem concat_name_ne (target : Path) (d d' : Location) :
    d ++ [target.name] ≠ d' ++ [(temporaryOf target).name] := by
  intro heq
  have hlast := List.singleton_inj.1 (List.append_inj' heq rfl).2
  rw [name_temporaryOf] at hlast
  exact absurd (List.append_right_eq_self.1 hlast.symm) (by decide)

theorem Fills.isWhole_remove (h : t.Fills (temporaryOf target) d) (htarget : target.IsNormal)
    (hname : target.name ≠ []) (bytes : Bytes) (text : Text) (f : Failure) :
    IsWhole t target text ((t.filled (d ++ [(temporaryOf target).name]) bytes).remove
      (d ++ [(temporaryOf target).name]), some f) := by
  have hp := isNormal_temporaryOf htarget hname
  have hproper := isProper_temporaryOf target
  have hne : d ++ [(temporaryOf target).name] ≠ [] := List.concat_ne_nil _ _
  have hentry := entry?_remove_filled (t := t) hne bytes
  refine ⟨rfl, nofun, nofun, fun _ d' _ => ?_, ?_, fun l _ hl => ?_⟩
  · rw [hentry, if_neg (concat_name_ne target d' d)]
  · exact h.not_standsAt hp hproper (remove_filled_keeps hne bytes) (by rw [hentry, if_pos rfl])
  · rw [hentry]
    split
    · next heq =>
        rw [heq] at hl ⊢
        exact (h.entry?_eq_none hp hproper hl).symm
    · rfl

theorem Fills.isWhole_moved (h : t.Fills (temporaryOf target) d) (htarget : target.IsNormal)
    (htname : IsProper target.name) {d' : Location} (hd' : t.LeadsTo target d')
    (hdirectory : t.entry? (d' ++ [target.name]) ≠ some .directory)
    (htext : text.all Code.isScalar = true) :
    IsWhole t target text (t.moved (d ++ [(temporaryOf target).name]) (d' ++ [target.name])
      (text.flatMap Text.utf8Code), none) := by
  have hp := isNormal_temporaryOf htarget htname.ne_nil
  have hproper := isProper_temporaryOf target
  have hne : d ++ [(temporaryOf target).name] ≠ [] := List.concat_ne_nil _ _
  have hne' : d' ++ [target.name] ≠ [] := List.concat_ne_nil _ _
  have hother := concat_name_ne target d' d
  have hentry := entry?_moved (t := t) hne hne' (text.flatMap Text.utf8Code)
  have hplaced : entry? (t.moved (d ++ [(temporaryOf target).name]) (d' ++ [target.name])
      (text.flatMap Text.utf8Code)) (d' ++ [target.name]) = some (.ofText text) := by
    rw [hentry, if_neg hother, if_pos rfl]
    rfl
  refine ⟨rfl, fun _ => ⟨htext, d', hd', hplaced⟩, fun _ hlink => ?_, fun hnone => absurd rfl hnone,
    ?_, fun l hl hstands => ?_⟩
  · -- the way to the target is kept where no link is replaced
    have hfree : (t.filled (d ++ [(temporaryOf target).name]) (text.flatMap Text.utf8Code)).IsFree
        (d' ++ [target.name]) := by
      rw [IsFree, entry?_filled hne, if_neg hother]
      exact ⟨hdirectory, hlink d' hd'⟩
    have hkeeps := (keeps_filled hne h.isFree (text.flatMap Text.utf8Code)).trans
      (filled_keeps_moved hne hne' hfree)
    have hpath := h.isPath
    rw [toText_temporaryOf htname.ne_nil, notAPath?_append] at hpath
    exact read_eq_ok htarget htname hpath.1 (hd'.of_keeps hkeeps) hplaced
  · exact h.not_standsAt hp hproper (moved_keeps hne hne' _) (by rw [hentry, if_pos rfl])
  · rw [hentry, if_neg (hl d' hd')]
    split
    · next heq =>
        rw [heq] at hstands ⊢
        exact (h.entry?_eq_none hp hproper hstands).symm
    · rfl

/-! ### Writing a text -/

/-- Nothing stands at the temporary path where no directory can be made for it. -/
theorem not_standsAt_of_makeDirectories (ht : t.IsRooted) (htarget : target.IsNormal)
    (hname : target.name ≠ []) (h : t.makeDirectories target.parent = (t', some f))
    (l : Location) : ¬t'.StandsAt (temporaryOf target).toText l := by
  intro hl
  have hp := isNormal_temporaryOf htarget hname
  have hproper := isProper_temporaryOf target
  have hparent := isNormal_parent htarget
  have hsame : (temporaryOf target).parent = target.parent := by
    rw [Path.parent, temporaryOf, List.dropLast_concat]
    rfl
  obtain ⟨d, hd, -, -⟩ := hl.exists_leadsTo hp hproper
  have hmakes := makesAlong_makeDirectories (t := t) hparent
  rw [h] at hmakes
  have hrooted := hmakes.isRooted ht
  by_cases hnames : target.parent.names = []
  · -- there is nothing to be made
    have hpath : notAPath? target.parent.toText = none :=
      (notAPath?_toText hparent).2 (by simp [hnames])
    rw [makeDirectories, hpath, hnames] at h
    cases h
  · have hway :
        t'.Leads linkLimit (startOf t'.here target.parent.toText) target.parent.names d := by
      have hstart : startOf t'.here (temporaryOf target).toText =
          startOf t'.here target.parent.toText := by
        rw [startOf_toText hp, startOf_toText hparent]
        rfl
      rw [← hstart, ← hsame]
      exact hd.way
    have hpath : notAPath? target.parent.toText = none :=
      (notAPath?_toText hparent).2 fun n hn =>
        (notAPath?_toText hp).1 hl.1 n (List.mem_append_left _ hn)
    have hlimit : byteLength target.parent.toText ≤ pathLimit := by
      rw [← hsame] at hnames ⊢
      exact Nat.le_trans (byteLength_parent_le hproper.ne_nil hnames) hd.pathLimit
    exact isDirectory_of_makeDirectories ht hparent h (isDirectory_of_leads hparent
      (Path.name_ne_nil hparent hnames) hpath hlimit hway
      (hrooted.directory_of_leads hway (directory_startOf hrooted.here _)))

/-- **A text is written as a whole or not at all,** if neither a directory nor a link stands at the
temporary path once the directories around the target have been made. No other directory is new. -/
theorem isWhole_writeText (ht : t.IsRooted) (htarget : target.IsNormal) (hname : target.name ≠ [])
    (hfree : ∀ l, (t.makeDirectories target.parent).1.StandsAt (temporaryOf target).toText l →
      (t.makeDirectories target.parent).1.IsFree l) (text : Text) :
    t.MakesAlong target.parent (t.makeDirectories target.parent).1 ∧
      IsWhole (t.makeDirectories target.parent).1 target text (t.writeText target text) := by
  refine ⟨makesAlong_makeDirectories (isNormal_parent htarget), ?_⟩
  obtain ⟨u, failure, hmade⟩ : ∃ u failure, t.makeDirectories target.parent = (u, failure) :=
    ⟨_, _, rfl⟩
  rw [hmade] at hfree ⊢
  cases failure with
  | some f =>
      rw [writeText, hmade]
      exact isWhole_of_not_standsAt (not_standsAt_of_makeDirectories ht htarget hname hmade) text f
  | none =>
      rw [writeText_eq hmade (withSuffix_temporarySuffix htarget hname)]
      rcases writeThrough_cases (isNormal_temporaryOf htarget hname) (isProper_temporaryOf target)
        htarget hname hfree text with ⟨f, hwrite, hnone⟩ | ⟨d, bytes, f, hfills, hwrite⟩ |
        ⟨htext, htname, d, d', hfills, hd', hdirectory, hwrite⟩
      · rw [hwrite]
        exact isWhole_of_not_standsAt hnone text f
      · rw [hwrite]
        exact hfills.isWhole_remove htarget hname bytes text f
      · rw [hwrite]
        exact hfills.isWhole_moved htarget htname hd' hdirectory htext

/-- A tree with notes and what an interrupted write has left. -/
def draftTree : Tree :=
  { here := [Text.ofString "work"]
    entries :=
      [([Text.ofString "work"], .directory),
        ([Text.ofString "work", Text.ofString "notes"], .ofText "old"),
        ([Text.ofString "work", Text.ofString "notes.tmp"], .ofText "half")] }

theorem isWhole_writeText_sample :
    draftTree.IsRooted ∧ (Path.ofText "new/../notes").IsNormal ∧
      (Path.ofText "new/../notes").name ≠ [] ∧
      (∀ l, (draftTree.makeDirectories (Path.ofText "new/../notes").parent).1.StandsAt
          (temporaryOf (Path.ofText "new/../notes")).toText l →
        (draftTree.makeDirectories (Path.ofText "new/../notes").parent).1.IsFree l) ∧
      draftTree.MakesAlong (Path.ofText "new/../notes").parent
        (draftTree.makeDirectories (Path.ofText "new/../notes").parent).1 ∧
      IsWhole (draftTree.makeDirectories (Path.ofText "new/../notes").parent).1
        (Path.ofText "new/../notes") "done"
        (draftTree.writeText (Path.ofText "new/../notes") "done") := by
  have hrooted : draftTree.IsRooted := IsSound.isRooted (by decide +kernel)
  have hnormal := Path.isNormal_ofText "new/../notes"
  have hname : (Path.ofText "new/../notes").name ≠ [] := by decide +kernel
  have hfree : ∀ l, (draftTree.makeDirectories (Path.ofText "new/../notes").parent).1.StandsAt
      (temporaryOf (Path.ofText "new/../notes")).toText l →
      (draftTree.makeDirectories (Path.ofText "new/../notes").parent).1.IsFree l := by
    intro l hl
    have hplace : (draftTree.makeDirectories (Path.ofText "new/../notes").parent).1.place .entry
        (temporaryOf (Path.ofText "new/../notes")).toText =
          .ok (.found [Text.ofString "work", Text.ofString "notes.tmp"]) := by decide +kernel
    obtain rfl := Place.found.inj (Except.ok.inj (hl.2.symm.trans hplace))
    have hfile : entry? (draftTree.makeDirectories (Path.ofText "new/../notes").parent).1
        [Text.ofString "work", Text.ofString "notes.tmp"] = some (.ofText "half") := by
      decide +kernel
    exact isFree_of_entry?_eq_file hfile
  exact ⟨hrooted, hnormal, hname, hfree, isWhole_writeText hrooted hnormal hname hfree "done"⟩

/-- A directory that is made on the way to a file can be what stands at its temporary path, where
nothing stood before. It stays there, and the text is not written. -/
theorem parent_stands_at_temporary :
    IsRooted {} ∧ (∀ l, ¬StandsAt {} (temporaryOf (Path.ofText "x.tmp/../x")).toText l) ∧
      (writeText {} (Path.ofText "x.tmp/../x") "t").2.map (·.message) =
        some (Text.ofString "[Errno 21] Is a directory: 'x.tmp/../x.tmp'") ∧
      (writeText {} (Path.ofText "x.tmp/../x") "t").1.StandsAt
        (temporaryOf (Path.ofText "x.tmp/../x")).toText [Text.ofString "x.tmp"] := by
  have hnone : place {} .entry (temporaryOf (Path.ofText "x.tmp/../x")).toText =
      .error .noSuchEntry := by decide +kernel
  refine ⟨IsSound.isRooted (by decide +kernel), fun l hl => ?_, by decide +kernel,
    by decide +kernel, by decide +kernel⟩
  rw [StandsAt, hnone] at hl
  cases hl.2

end BundleAudit.Tree
