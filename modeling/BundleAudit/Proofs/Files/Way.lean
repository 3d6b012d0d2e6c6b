import BundleAudit.Proofs.Files.Difference
import BundleAudit.Proofs.Files.Sound

/-!
# BundleAudit.Proofs.Files.Way

**Ways to a directory and on from there.** A walk that follows links to a directory is a
way to it (`leads_of_place`), and every way is such a walk. A way can be gone on with
below the directory where it ends (`Leads.append`); so the path of a file below a
source root leads to the directory in which the file stands (`leadsTo_below`).
-/

namespace BundleAudit.Tree

variable {t : Tree} {links : Nat} {l d d' : Location} {names names' : List Text} {p : Path}

/-! ### Ways and walks -/

/-- Names lead to a directory if a walk that follows links does. -/
theorem leads_of_walk (h : walk t .target links l names = .ok (.found d))
    (hd : t.entry? d = some .directory) : ∃ more, links = more + 1 ∧ t.Leads more l names d := by
  -- a link is followed with fewer links left, any other name with fewer names
  induction links generalizing l names with
  | zero => cases h
  | succ links ih =>
      refine ⟨links, rfl, ?_⟩
      rw [walk] at h
      induction names generalizing l with
      | nil =>
          obtain rfl := Place.found.inj (Except.ok.inj h)
          exact .done
      | cons name rest ihn =>
          rw [walkNames] at h
          split at h
          · next hsame => exact .same hsame (ihn h)
          · next hsame =>
              have hsame := Bool.eq_false_iff.2 hsame
              split at h
              · next hparent => exact .parent hsame hparent (ihn h)
              · next hparent =>
                  have hname : IsProper name := ⟨hsame, Bool.eq_false_iff.2 hparent⟩
                  split at h
                  · cases h
                  split at h
                  · cases h
                  next hlimit =>
                    have hlimit := Nat.le_of_not_gt hlimit
                    split at h
                    · split at h <;> cases h
                    · next hentry => exact .directory hname hlimit hentry (ihn h)
                    · next hentry =>
                        split at h
                        · obtain rfl := Place.found.inj (Except.ok.inj h)
                          rw [hentry] at hd
                          cases hd
                        · cases h
                    · next hentry =>
                        split at h
                        · next hnot => simp at hnot
                        · obtain ⟨more, rfl, hleads⟩ := ih h
                          exact .link hname hlimit hentry hleads

theorem walkNames_directory {purpose : Purpose}
    {onward : Location → List Text → Except SystemCause Place} {name : Text}
    (hpurpose : purpose ≠ .writing) (hname : IsProper name) (hlimit : byteLength name ≤ nameLimit)
    (hentry : t.entry? (l ++ [name]) = some .directory) :
    walkNames t purpose onward l (name :: names) =
      walkNames t purpose onward (l ++ [name]) names := by
  rw [walkNames, hname.notSame, hname.notParent, decide_eq_false hpurpose, hentry,
    if_neg (Nat.not_lt.2 hlimit)]
  rfl

/-- A way is a walk that follows links. -/
theorem Leads.walk_target (h : t.Leads links l names d) :
    walk t .target (links + 1) l names = .ok (.found d) := by
  induction h with
  | done => rfl
  | same hsame _ ih => rw [walk, walkNames_of_isSame hsame, ← ih, walk]
  | parent hsame hparent _ ih => rw [walk, walkNames_of_isParent hsame hparent, ← ih, walk]
  | directory hname hlimit hentry _ ih =>
      rw [walk, walkNames_directory (by decide) hname hlimit hentry, ← ih, walk]
  | link hname hlimit hentry _ ih =>
      rw [walk, walkNames, hname.notSame, hname.notParent, hentry,
        if_neg (Nat.not_lt.2 hlimit), ← ih]
      simp

/-- There is an entry at the end of a way. -/
theorem Leads.exists_walk_entry (h : t.Leads links l names d) :
    ∃ d', walk t .entry (links + 1) l names = .ok (.found d') := by
  induction h with
  | done => exact ⟨_, rfl⟩
  | same hsame _ ih =>
      obtain ⟨d', hd'⟩ := ih
      exact ⟨d', by rw [walk, walkNames_of_isSame hsame, ← hd', walk]⟩
  | parent hsame hparent _ ih =>
      obtain ⟨d', hd'⟩ := ih
      exact ⟨d', by rw [walk, walkNames_of_isParent hsame hparent, ← hd', walk]⟩
  | directory hname hlimit hentry _ ih =>
      obtain ⟨d', hd'⟩ := ih
      exact ⟨d', by rw [walk, walkNames_directory (by decide) hname hlimit hentry, ← hd', walk]⟩
  | @link links l name names target d hname hlimit hentry _ ih =>
      obtain ⟨d', hd'⟩ := ih
      rw [walk, walkNames, hname.notSame, hname.notParent, hentry, if_neg (Nat.not_lt.2 hlimit)]
      cases names with
      | nil => exact ⟨_, rfl⟩
      | cons next rest => exact ⟨d', hd'⟩

/-- A way goes on where it ends. -/
theorem Leads.append (h : t.Leads links l names d) (h' : ∀ links, t.Leads links d names' d') :
    t.Leads links l (names ++ names') d' := by
  induction h with
  | done => exact h' _
  | same hsame _ ih => exact .same hsame (ih h')
  | parent hsame hparent _ ih => exact .parent hsame hparent (ih h')
  | directory hname hlimit hentry _ ih => exact .directory hname hlimit hentry (ih h')
  | link hname hlimit hentry _ ih =>
      have hrest := ih h'
      rw [List.append_assoc] at hrest
      exact .link hname hlimit hentry hrest

/-! ### Paths -/

theorem startOf_toText (hp : p.IsNormal) (here : Location) :
    startOf here p.toText = if p.root = [] then here else [] := by
  unfold startOf Path.toText
  by_cases hroot : p.root = []
  · rw [if_pos hroot, hroot, List.isEmpty_nil, Bool.true_and, if_neg]
    split
    · decide
    · exact Path.head?_intercalate_ne_slash hp
  · obtain ⟨rest, hrest⟩ : ∃ rest, p.root = Code.slash :: rest := by
      rcases hp.root with h | h | h
      · exact absurd h hroot
      · exact ⟨_, h⟩
      · exact ⟨_, h⟩
    rw [if_neg hroot, hrest]
    rfl

/-- A path is a way to a directory if it leads there. -/
theorem leads_of_place (hp : p.IsNormal) (h : t.place .target p.toText = .ok (.found d))
    (hd : t.entry? d = some .directory) :
    t.Leads linkLimit (startOf t.here p.toText) p.names d := by
  unfold place at h
  split at h
  · cases h
  split at h
  · cases h
  obtain ⟨more, hmore, hleads⟩ := leads_of_walk h hd
  obtain rfl := Nat.succ.inj hmore
  rcases List.eq_nil_or_concat' p.names with hnames | ⟨init, last, hnames⟩
  · -- the text of such a path is a dot or a slash
    have htext : ∃ name, namesOf p.toText = [name] ∧ isSame name = true := by
      rw [Path.toText, hnames]
      rcases hp.root with hroot | hroot | hroot <;> rw [hroot] <;> exact ⟨_, rfl, rfl⟩
    obtain ⟨name, hname, hsame⟩ := htext
    rw [hname] at hleads
    rw [hnames]
    cases hleads with
    | same _ hrest => exact hrest
    | parent hnot => rw [hsame] at hnot; cases hnot
    | directory hproper => rw [hproper.notSame] at hsame; cases hsame
    | link hproper => rw [hproper.notSame] at hsame; cases hsame
  · have hne : p.name ≠ [] := Path.name_ne_nil hp (by simp [hnames])
    rwa [namesOf_toText hp hne] at hleads

theorem isDirectory_of_leads (hp : p.IsNormal) (hname : p.name ≠ [])
    (hpath : notAPath? p.toText = none) (hlimit : byteLength p.toText ≤ pathLimit)
    (hway : t.Leads linkLimit (startOf t.here p.toText) p.names d)
    (hd : t.entry? d = some .directory) : t.isDirectory p.toText = .ok true := by
  refine isDirectory_iff.2 ⟨hpath, d, ?_, hd⟩
  rw [place_eq_walk hp hname hlimit]
  exact hway.walk_target

/-- The path of a file below a directory leads to the directory around the file. -/
theorem leadsTo_below (ht : t.IsSound) (hp : p.IsNormal)
    (h : t.place .target p.toText = .ok (.found d)) {around : List Text} {name : Text}
    (hd : t.entry? (d ++ around) = some .directory) (hname : byteLength name ≤ nameLimit)
    (hlimit : byteLength (Path.toText ⟨p.root, p.names ++ around ++ [name]⟩) ≤ pathLimit)
    (hnormal : Path.IsNormal ⟨p.root, p.names ++ around ++ [name]⟩) :
    t.LeadsTo ⟨p.root, p.names ++ around ++ [name]⟩ (d ++ around) where
  way := by
    have hbelow : t.entry? d = some .directory := by
      by_cases hnil : around = []
      · rwa [hnil, List.append_nil] at hd
      · exact ht.directory_of_append hd hnil
    have hrest : ∀ links, t.Leads links d around (d ++ around) := fun links => ht.leads hd
    have hway := (leads_of_place hp h hbelow).append hrest
    rw [startOf_toText hp] at hway
    rwa [startOf_toText hnormal, List.dropLast_concat]
  nameLimit := by rwa [Path.name, List.getLastD_concat]
  pathLimit := hlimit

/-! ### Trees without links -/

/-- There are no links in a tree. -/
def HasNoLinks (t : Tree) : Prop := ∀ l target, t.entry? l ≠ some (.link target)

theorem HasNoLinks.of_entries (h : ∀ l target, (l, .link target) ∉ t.entries) : t.HasNoLinks := by
  intro l target hentry
  by_cases hl : l = []
  · rw [hl] at hentry
    cases hentry
  · rw [entry?_of_ne_nil hl] at hentry
    exact h l target (KeyedList.mem_of_get?_eq_some hentry)

theorem exists_namesOf_child (p : Path) {name : Text} (hname : Path.IsName name) :
    ∃ names before, namesOf (p.child name).toText = names ++ [before ++ name] := by
  have hlast : (p.child name).toText.getLast? ≠ some Code.slash := by
    rw [Path.child, Path.toText_concat, List.getLast?_append_of_ne_nil _ hname.ne_nil]
    exact fun h => hname.noSlash (List.mem_of_getLast? h)
  obtain ⟨parts, before, hparts⟩ := Text.exists_splitOn_append hname.noSlash
    (p.root ++ p.names.flatMap (· ++ [Code.slash]))
  rw [namesOf, if_neg hlast, Path.child, Path.toText_concat, hparts, List.filter_append]
  refine ⟨parts.filter (!·.isEmpty), before, ?_⟩
  rw [List.filter_cons_of_pos (by simp [hname.ne_nil])]
  rfl

/-- Without links, a path leads to something whose name ends as the path does. -/
theorem HasNoLinks.location_child (h : t.HasNoLinks) {purpose : Purpose} {name : Text}
    (hname : Path.IsName name) (hproper : ∀ before, IsProper (before ++ name)) {place : Place}
    (hplace : t.place purpose (p.child name).toText = .ok place) :
    ∃ d before, place.location = d ++ [before ++ name] := by
  obtain ⟨names, before, hnames⟩ := exists_namesOf_child p hname
  unfold Tree.place at hplace
  split at hplace
  · cases hplace
  split at hplace
  · cases hplace
  rw [hnames] at hplace
  obtain ⟨more, d, -, -, -, hend⟩ := exists_leads (hproper before) hplace
  refine ⟨d, before, ?_⟩
  rw [hend (.inr (h _)), placeAt]
  split <;> rfl

end BundleAudit.Tree
