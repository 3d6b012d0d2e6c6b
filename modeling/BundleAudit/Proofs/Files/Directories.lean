import BundleAudit.Proofs.Files.Overwriting

/-!
# BundleAudit.Proofs.Files.Directories

**Making directories adds directories and nothing else,** and only where the path leads
that asks for them (`makesAlong_makeDirectories`). Where it fails, the path does not lead
to a directory afterwards either, so nothing can stand below it
(`isDirectory_of_makeDirectories`).
-/

namespace BundleAudit.Tree

variable {t t' u : Tree} {p path : Path} {links : Nat} {l d : Location} {name : Text}
  {names names' : List Text} {f : Failure}

/-! ### Ways -/

theorem Leads.mono {more : Nat} (h : t.Leads links l names d) (hle : links ≤ more) :
    t.Leads more l names d := by
  induction h generalizing more with
  | done => exact .done
  | same hsame _ ih => exact .same hsame (ih hle)
  | parent hsame hparent _ ih => exact .parent hsame hparent (ih hle)
  | directory hname hlimit hentry _ ih => exact .directory hname hlimit hentry (ih hle)
  | link hname hlimit hentry _ ih =>
      obtain ⟨more, rfl⟩ :=
        Nat.exists_eq_add_of_le' (Nat.le_trans (Nat.succ_le_succ (Nat.zero_le _)) hle)
      exact .link hname hlimit hentry (ih (Nat.le_of_succ_le_succ hle))

/-- A way consists of a way along its first names and one along the others. -/
theorem Leads.exists_between (h : t.Leads links l (names ++ names') d) :
    ∃ d', t.Leads links l names d' ∧ t.Leads links d' names' d := by
  generalize hall : names ++ names' = all at h
  induction h generalizing names with
  | done =>
      obtain ⟨rfl, rfl⟩ := List.append_eq_nil_iff.1 hall
      exact ⟨_, .done, .done⟩
  | @same links l name rest d hsame hway ih =>
      cases names with
      | nil =>
          obtain rfl : names' = name :: rest := hall
          exact ⟨_, .done, .same hsame hway⟩
      | cons first more =>
          obtain ⟨rfl, hrest⟩ := List.cons_eq_cons.1 hall
          obtain ⟨d', hd', hon⟩ := ih hrest
          exact ⟨d', .same hsame hd', hon⟩
  | @parent links l name rest d hsame hparent hway ih =>
      cases names with
      | nil =>
          obtain rfl : names' = name :: rest := hall
          exact ⟨_, .done, .parent hsame hparent hway⟩
      | cons first more =>
          obtain ⟨rfl, hrest⟩ := List.cons_eq_cons.1 hall
          obtain ⟨d', hd', hon⟩ := ih hrest
          exact ⟨d', .parent hsame hparent hd', hon⟩
  | @directory links l name rest d hname hlimit hentry hway ih =>
      cases names with
      | nil =>
          obtain rfl : names' = name :: rest := hall
          exact ⟨_, .done, .directory hname hlimit hentry hway⟩
      | cons first more =>
          obtain ⟨rfl, hrest⟩ := List.cons_eq_cons.1 hall
          obtain ⟨d', hd', hon⟩ := ih hrest
          exact ⟨d', .directory hname hlimit hentry hd', hon⟩
  | @link links l name rest aim d hname hlimit hentry hway ih =>
      cases names with
      | nil =>
          obtain rfl : names' = name :: rest := hall
          exact ⟨_, .done, .link hname hlimit hentry hway⟩
      | cons first more =>
          obtain ⟨rfl, hrest⟩ : first = name ∧ more ++ names' = rest := List.cons_eq_cons.1 hall
          have hfollowed : namesOf aim ++ more ++ names' = namesOf aim ++ rest := by
            rw [List.append_assoc, hrest]
          obtain ⟨d', hd', hon⟩ := ih hfollowed
          exact ⟨d', .link hname hlimit hentry hd', hon.mono (Nat.le_succ _)⟩

/-- The names before a missing one lead to the directory in which it is missing. -/
theorem leads_of_walk_missing (h : walk t .entry links l names = .ok (.missing d name)) :
    ∃ more init, links = more + 1 ∧ names = init ++ [name] ∧ t.Leads more l init d ∧
      IsProper name ∧ byteLength name ≤ nameLimit ∧ t.entry? (d ++ [name]) = none := by
  -- a link is followed with fewer links left, any other name with fewer names
  induction links generalizing l names with
  | zero => cases h
  | succ links ih =>
      refine ⟨links, ?_⟩
      rw [walk] at h
      induction names generalizing l with
      | nil => cases h
      | cons first rest ihn =>
          rw [walkNames] at h
          split at h
          · next hsame =>
              obtain ⟨init, -, rfl, hway, hend⟩ := ihn h
              exact ⟨first :: init, rfl, rfl, .same hsame hway, hend⟩
          · next hsame =>
              have hsame := Bool.eq_false_iff.2 hsame
              split at h
              · next hparent =>
                  obtain ⟨init, -, rfl, hway, hend⟩ := ihn h
                  exact ⟨first :: init, rfl, rfl, .parent hsame hparent hway, hend⟩
              · next hparent =>
                  have hname : IsProper first := ⟨hsame, Bool.eq_false_iff.2 hparent⟩
                  split at h
                  · cases h
                  split at h
                  · cases h
                  next hlimit =>
                    have hlimit := Nat.le_of_not_gt hlimit
                    split at h
                    · next hentry =>
                        split at h
                        · next hrest =>
                            obtain ⟨rfl, rfl⟩ := Place.missing.inj (Except.ok.inj h)
                            exact ⟨[], rfl, by rw [List.isEmpty_iff.1 hrest]; rfl, .done, hname,
                              hlimit, hentry⟩
                        · cases h
                    · next hentry =>
                        obtain ⟨init, -, rfl, hway, hend⟩ := ihn h
                        exact ⟨first :: init, rfl, rfl, .directory hname hlimit hentry hway, hend⟩
                    · split at h <;> cases h
                    · next aim hentry =>
                        split at h
                        · cases h
                        · next hmore =>
                            obtain ⟨more, init, rfl, hnames, hway, hend⟩ := ih h
                            have hrest : rest ≠ [] := fun hnil => hmore (by rw [hnil]; rfl)
                            obtain ⟨before, last, rfl⟩ :=
                              (List.eq_nil_or_concat' rest).resolve_left hrest
                            rw [← List.append_assoc] at hnames
                            obtain ⟨rfl, hlast⟩ := List.append_inj' hnames rfl
                            obtain rfl := List.singleton_inj.1 hlast
                            exact ⟨first :: before, rfl, rfl, .link hname hlimit hentry hway, hend⟩

/-- The working directory is a directory, and so is what is around a directory. -/
structure IsRooted (t : Tree) : Prop where
  here : t.entry? t.here = some .directory
  around : ∀ l, t.entry? l = some .directory → t.entry? l.dropLast = some .directory

theorem IsSound.isRooted (h : t.IsSound) : t.IsRooted where
  here := h.here
  around l hl := by
    rcases List.eq_nil_or_concat' l with rfl | ⟨init, last, rfl⟩
    · exact hl
    · rw [List.dropLast_concat]
      exact h.directory_of_append hl (List.cons_ne_nil _ _)

theorem directory_startOf (hl : t.entry? l = some .directory) (path : Text) :
    t.entry? (startOf l path) = some .directory := by
  unfold startOf
  split
  · rfl
  · exact hl

/-- A way from a directory ends at one. -/
theorem IsRooted.directory_of_leads (h : t.IsRooted) (hway : t.Leads links l names d)
    (hl : t.entry? l = some .directory) : t.entry? d = some .directory := by
  induction hway with
  | done => exact hl
  | same _ _ ih => exact ih hl
  | parent _ _ _ ih => exact ih (h.around _ hl)
  | directory _ _ hentry _ ih => exact ih hentry
  | link _ _ _ _ ih => exact ih (directory_startOf hl _)

/-! ### Making directories -/

/-- Nothing has changed but for new directories, to each of which the first names of a path lead. -/
structure MakesAlong (t : Tree) (p : Path) (t' : Tree) : Prop where
  here : t'.here = t.here
  entry : ∀ l, t'.entry? l = t.entry? l ∨
    t.entry? l = none ∧ t'.entry? l = some .directory ∧
      ∃ names, names <+: p.names ∧
        t'.Leads linkLimit (startOf t'.here p.toText) names l
  isRooted : t.IsRooted → t'.IsRooted

theorem MakesAlong.refl (t : Tree) (p : Path) : t.MakesAlong p t := ⟨rfl, fun _ => .inl rfl, id⟩

theorem MakesAlong.keeps (h : t.MakesAlong p t') : t.Keeps t' := by
  refine Keeps.of_isFree h.here fun l => ?_
  rcases h.entry l with hsame | ⟨hnone, -⟩
  · exact .inr hsame
  · exact .inl (isFree_of_entry?_eq_none hnone)

/-- A directory is made where the path leads to nothing. -/
theorem makesAlong_makeDirectory (hp : p.IsNormal) (hname : p.name ≠ [])
    (h : t.makeDirectory p.toText = .ok t') : t.MakesAlong p t' := by
  unfold makeDirectory at h
  split at h
  · cases h
  · cases h
  · next d name hplace =>
      obtain rfl := Except.ok.inj h
      have hlimit := byteLength_of_place hplace
      rw [place_eq_walk hp hname hlimit] at hplace
      obtain ⟨more, init, hmore, hnames, hway, hproper, hlength, hnone⟩ :=
        leads_of_walk_missing hplace
      obtain rfl := Nat.succ.inj hmore
      have hne : d ++ [name] ≠ [] := List.concat_ne_nil _ _
      have hentry := entry?_put hne .directory t
      have hkeeps : t.Keeps (t.put (d ++ [name]) .directory) := by
        refine Keeps.of_isFree rfl fun other => ?_
        by_cases hother : other = d ++ [name]
        · exact .inl (isFree_of_entry?_eq_none (hother ▸ hnone))
        · exact .inr (by rw [hentry, if_neg hother])
      refine ⟨rfl, fun other => ?_, fun ht => ⟨hkeeps.directory ht.here, fun other hother => ?_⟩⟩
      · by_cases hother : other = d ++ [name]
        · refine .inr ⟨hother ▸ hnone, by rw [hentry, if_pos hother], p.names, List.prefix_rfl, ?_⟩
          have hlast :
              ∀ links, (t.put (d ++ [name]) .directory).Leads links d [name] (d ++ [name]) :=
            fun links => .directory hproper hlength (by rw [hentry, if_pos rfl]) .done
          rw [hother, hnames]
          exact (hway.of_keeps hkeeps).append hlast
        · exact .inl (by rw [hentry, if_neg hother])
      · rw [hentry] at hother
        split at hother
        · next heq =>
            rw [heq, List.dropLast_concat]
            exact hkeeps.directory (ht.directory_of_leads hway (directory_startOf ht.here _))
        · exact hkeeps.directory (ht.around _ hother)

/-- Directories along the first names of a path are along the path. -/
theorem MakesAlong.trans (h : t.MakesAlong p t') (h' : t'.MakesAlong path u)
    (hroot : ∀ here, startOf here p.toText = startOf here path.toText)
    (hnames : p.names <+: path.names) : t.MakesAlong path u where
  here := h'.here.trans h.here
  entry l := by
    rcases h'.entry l with hsame | ⟨hnone, hdirectory, hway⟩
    · rcases h.entry l with hsame' | ⟨hnone', hdirectory', names, hbegins, hway'⟩
      · exact .inl (hsame.trans hsame')
      · refine .inr ⟨hnone', hsame.trans hdirectory', names, hbegins.trans hnames, ?_⟩
        rw [← hroot, h'.here]
        exact hway'.of_keeps h'.keeps
    · refine .inr ⟨?_, hdirectory, hway⟩
      rcases h.entry l with hsame | ⟨hnone', -⟩
      · rw [← hsame, hnone]
      · exact hnone'
  isRooted ht := h'.isRooted (h.isRooted ht)

theorem makesAlong_makeDirectoriesFrom {root : Text} {names : List Text}
    (hp : Path.IsNormal ⟨root, names.reverse⟩) :
    t.MakesAlong ⟨root, names.reverse⟩ (makeDirectoriesFrom root t names).1 := by
  induction names generalizing t with
  | nil => exact .refl t _
  | cons name around ih =>
      have hname : Path.name ⟨root, (name :: around).reverse⟩ ≠ [] :=
        Path.name_ne_nil hp (by simp)
      have hbegins : around.reverse <+: (name :: around).reverse := by
        rw [List.reverse_cons]
        exact List.prefix_append _ _
      have haround : Path.IsNormal ⟨root, around.reverse⟩ :=
        ⟨hp.root, fun n hn => hp.names n (hbegins.subset hn)⟩
      have hstart : ∀ here, startOf here (Path.toText ⟨root, around.reverse⟩) =
          startOf here (Path.toText ⟨root, (name :: around).reverse⟩) := fun here => by
        rw [startOf_toText haround, startOf_toText hp]
      have hfirst := ih (t := t) haround
      have hrest :
          t.MakesAlong ⟨root, (name :: around).reverse⟩ (makeDirectoriesFrom root t around).1 :=
        hfirst.trans (.refl _ _) hstart hbegins
      rw [makeDirectoriesFrom]
      split
      · next hmade => exact makesAlong_makeDirectory hp hname hmade
      · split
        · next hfrom => rwa [hfrom] at hrest
        · next hfrom =>
            rw [hfrom] at hfirst hrest
            split
            · next hmade =>
                exact hfirst.trans (makesAlong_makeDirectory hp hname hmade) hstart hbegins
            · exact hrest
            · exact hrest
      · exact .refl t _

/-- **Making the directories at a path changes nothing else.** -/
theorem makesAlong_makeDirectories (hp : p.IsNormal) : t.MakesAlong p (t.makeDirectories p).1 := by
  unfold makeDirectories
  split
  · exact .refl t p
  · have hmakes : t.MakesAlong ⟨p.root, p.names.reverse.reverse⟩
        (makeDirectoriesFrom p.root t p.names.reverse).1 :=
      makesAlong_makeDirectoriesFrom (by rwa [List.reverse_reverse])
    rwa [List.reverse_reverse] at hmakes

/-! ### Where no directory can be made -/

theorem leads_of_isDirectory (hp : p.IsNormal) (h : t.isDirectory p.toText = .ok true) :
    notAPath? p.toText = none ∧ byteLength p.toText ≤ pathLimit ∧
      ∃ d, t.Leads linkLimit (startOf t.here p.toText) p.names d ∧
      t.entry? d = some .directory := by
  obtain ⟨hpath, d, hplace, hd⟩ := isDirectory_iff.1 h
  exact ⟨hpath, byteLength_of_place hplace, d, leads_of_place hp hplace hd, hd⟩

/-- The directory around one is one. -/
theorem isDirectory_parent (ht : t.IsRooted) (hp : p.IsNormal) (hnames : p.parent.names ≠ [])
    (h : t.isDirectory p.toText = .ok true) : t.isDirectory p.parent.toText = .ok true := by
  obtain ⟨hpath, hlimit, d, hway, -⟩ := leads_of_isDirectory hp h
  have hparent := isNormal_parent hp
  have hname : p.name ≠ [] := Path.name_ne_nil hp fun hnil => hnames (by
    rw [Path.parent, hnil]
    rfl)
  rw [names_eq_concat hname] at hway
  obtain ⟨d', hway', -⟩ := hway.exists_between
  have hstart : startOf t.here p.toText = startOf t.here p.parent.toText := by
    rw [startOf_toText hp, startOf_toText hparent]
    rfl
  rw [hstart] at hway'
  refine isDirectory_of_leads hparent (Path.name_ne_nil hparent hnames) ?_
    (Nat.le_trans (byteLength_parent_le hname hnames) hlimit) hway'
    (ht.directory_of_leads hway' (directory_startOf ht.here _))
  exact (notAPath?_toText hparent).2 fun n hn =>
    (notAPath?_toText hp).1 hpath n ((List.dropLast_sublist _).subset hn)

theorem isDirectory_of_unlessDirectory {text : Text} {cause : SystemCause}
    (h : t.unlessDirectory text cause = some f) : t.isDirectory text ≠ .ok true := by
  unfold unlessDirectory at h
  split at h
  · cases h
  · next hnot => rw [hnot]; nofun
  · next hnot => rw [hnot]; nofun

theorem isDirectory_of_makeDirectory (hp : p.IsNormal) (hname : p.name ≠ [])
    (h : t.makeDirectory p.toText = .error .noSuchEntry) : t.isDirectory p.toText ≠ .ok true := by
  intro hdirectory
  obtain ⟨-, hlimit, d, hway, -⟩ := leads_of_isDirectory hp hdirectory
  obtain ⟨d', hentry⟩ := hway.exists_walk_entry
  rw [makeDirectory, place_eq_walk hp hname hlimit, hentry] at h
  cases h

theorem isDirectory_of_makeDirectoriesFrom (ht : t.IsRooted) {root : Text} {names : List Text}
    (hp : Path.IsNormal ⟨root, names.reverse⟩)
    (h : makeDirectoriesFrom root t names = (t', some f)) :
    t'.isDirectory (Path.toText ⟨root, names.reverse⟩) ≠ .ok true := by
  induction names generalizing t t' f with
  | nil => cases h
  | cons name around ih =>
      have hname : Path.name ⟨root, (name :: around).reverse⟩ ≠ [] :=
        Path.name_ne_nil hp (by simp)
      have hparent : Path.parent ⟨root, (name :: around).reverse⟩ = ⟨root, around.reverse⟩ := by
        rw [Path.parent, List.reverse_cons, List.dropLast_concat]
      have haround : Path.IsNormal ⟨root, around.reverse⟩ := hparent ▸ isNormal_parent hp
      have hmakes := makesAlong_makeDirectoriesFrom (t := t) haround
      rw [makeDirectoriesFrom] at h
      split at h
      · cases h
      · split at h
        · next hfrom =>
            obtain ⟨rfl, -⟩ := Prod.mk.inj h
            intro hdirectory
            cases around with
            | nil => cases hfrom
            | cons next more =>
                refine ih ht haround hfrom ?_
                rw [hfrom] at hmakes
                rw [← hparent]
                exact isDirectory_parent (hmakes.isRooted ht) hp (by rw [hparent]; simp) hdirectory
        · split at h
          · cases h
          · next hmissing =>
              obtain ⟨rfl, -⟩ := Prod.mk.inj h
              exact isDirectory_of_makeDirectory hp hname hmissing
          · obtain ⟨rfl, hcause⟩ := Prod.mk.inj h
            exact isDirectory_of_unlessDirectory hcause
      · obtain ⟨rfl, hcause⟩ := Prod.mk.inj h
        exact isDirectory_of_unlessDirectory hcause

/-- **Where making the directories at a path fails, it leads to none afterwards.** -/
theorem isDirectory_of_makeDirectories (ht : t.IsRooted) (hp : p.IsNormal)
    (h : t.makeDirectories p = (t', some f)) : t'.isDirectory p.toText ≠ .ok true := by
  unfold makeDirectories at h
  split at h
  · next hpath =>
      intro hdirectory
      rw [(isDirectory_iff.1 hdirectory).1] at hpath
      cases hpath
  · have hnormal : Path.IsNormal ⟨p.root, p.names.reverse.reverse⟩ := by rwa [List.reverse_reverse]
    have hfails := isDirectory_of_makeDirectoriesFrom ht hnormal h
    rwa [List.reverse_reverse] at hfails

end BundleAudit.Tree
