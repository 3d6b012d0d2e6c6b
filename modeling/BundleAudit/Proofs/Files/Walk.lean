import BundleAudit.Proofs.Files.Path

/-!
# BundleAudit.Proofs.Files.Walk

**A walk depends on directories and links only.** All names of a path but the last
have to lead to a directory, which is a relation of its own (`Leads`), the same for
each purpose of a walk. It outlives every change of the tree that takes away no
directory and no link (`Leads.of_keeps`). The last name is then looked up in that
directory: this is all that a walk finds, unless a link stands there that it has to
follow (`place_eq_ok_iff`).
-/

namespace BundleAudit.Tree

/-! ### The way to a directory -/

/-- A name at which an entry can stand. -/
structure IsProper (name : Text) : Prop where
  notSame : isSame name = false
  notParent : isParent name = false

theorem IsProper.of_length {name : Text} (h : 3 ≤ name.length) : IsProper name where
  notSame := by
    have hne : name ≠ [] := List.ne_nil_of_length_pos (by omega)
    have hdot : name ≠ [Code.dot] := by
      rintro rfl
      simp at h
    simp [isSame, hne, hdot]
  notParent := beq_eq_false_iff_ne.2 (by
    rintro rfl
    simp at h)

/-- Names lead from a directory to another one, through at most so many links. -/
inductive Leads (t : Tree) : Nat → Location → List Text → Location → Prop
  | done {links l} : Leads t links l [] l
  | same {links l name names d} (hname : isSame name = true) (h : Leads t links l names d) :
    Leads t links l (name :: names) d
  | parent {links l name names d} (hsame : isSame name = false) (hname : isParent name = true)
    (h : Leads t links l.dropLast names d) : Leads t links l (name :: names) d
  | directory {links l name names d} (hname : IsProper name) (hlimit : byteLength name ≤ nameLimit)
    (hentry : t.entry? (l ++ [name]) = some .directory) (h : Leads t links (l ++ [name]) names d) :
    Leads t links l (name :: names) d
  | link {links l name names target d} (hname : IsProper name)
    (hlimit : byteLength name ≤ nameLimit)
    (hentry : t.entry? (l ++ [name]) = some (.link target))
    (h : Leads t links (startOf l target) (namesOf target ++ names) d) :
    Leads t (links + 1) l (name :: names) d

variable {t t' : Tree} {purpose : Purpose} {links : Nat} {l d : Location} {name last : Text}
  {names : List Text}

/-- A tree has all directories and links of another one, and the same working directory. -/
structure Keeps (t t' : Tree) : Prop where
  here : t'.here = t.here
  directory : ∀ {l}, t.entry? l = some .directory → t'.entry? l = some .directory
  link : ∀ {l target}, t.entry? l = some (.link target) → t'.entry? l = some (.link target)

/-- Where no directory and no link stands. -/
def IsFree (t : Tree) (l : Location) : Prop :=
  t.entry? l ≠ some .directory ∧ ∀ target, t.entry? l ≠ some (.link target)

theorem isFree_of_entry?_eq_none (h : t.entry? l = none) : t.IsFree l := by
  simp [IsFree, h]

theorem isFree_of_entry?_eq_file {bytes : Bytes} (h : t.entry? l = some (.file bytes)) :
    t.IsFree l := by
  simp [IsFree, h]

/-- A tree keeps what it has to if it changes only where no directory and no link stands. -/
theorem Keeps.of_isFree (hhere : t'.here = t.here)
    (h : ∀ l, t.IsFree l ∨ t'.entry? l = t.entry? l) : t.Keeps t' where
  here := hhere
  directory {l} hentry := ((h l).resolve_left fun hfree => hfree.1 hentry).trans hentry
  link {l target} hentry := ((h l).resolve_left fun hfree => hfree.2 target hentry).trans hentry

theorem Keeps.trans {t'' : Tree} (h : t.Keeps t') (h' : t'.Keeps t'') : t.Keeps t'' where
  here := h'.here.trans h.here
  directory hentry := h'.directory (h.directory hentry)
  link hentry := h'.link (h.link hentry)

/-- A way is still there if all directories and links are. -/
theorem Leads.of_keeps (h : t.Leads links l names d) (hkeeps : t.Keeps t') :
    t'.Leads links l names d := by
  induction h with
  | done => exact .done
  | same hname _ ih => exact .same hname ih
  | parent hsame hname _ ih => exact .parent hsame hname ih
  | directory hname hlimit hentry _ ih =>
      exact .directory hname hlimit (hkeeps.directory hentry) ih
  | link hname hlimit hentry _ ih => exact .link hname hlimit (hkeeps.link hentry) ih

/-! ### The last name -/

/-- What a walk finds at a name in a directory. -/
def placeAt (t : Tree) (d : Location) (name : Text) : Place :=
  if (t.entry? (d ++ [name])).isSome then .found (d ++ [name]) else .missing d name

/-- No link stands at a location. -/
def IsUnlinked (t : Tree) (l : Location) : Prop := ∀ target, t.entry? l ≠ some (.link target)

/-- A walk ends at a location, whatever stands there. -/
def EndsAt (t : Tree) (purpose : Purpose) (l : Location) : Prop := purpose = .entry ∨ t.IsUnlinked l

/-- No link has the name. -/
def NoLinkHas (t : Tree) (name : Text) : Prop :=
  ∀ l target, t.entry? (l ++ [name]) ≠ some (.link target)

theorem NoLinkHas.of_entries (h : ∀ l target, (l ++ [name], .link target) ∉ t.entries) :
    t.NoLinkHas name := by
  intro l target hentry
  unfold entry? at hentry
  rw [List.isEmpty_eq_false_iff.2 (by simp)] at hentry
  exact h l target (KeyedList.mem_of_get?_eq_some hentry)

theorem NoLinkHas.isUnlinked (h : t.NoLinkHas name) (d : Location) : t.IsUnlinked (d ++ [name]) :=
  h d

theorem walkNames_of_isSame {onward : Location → List Text → Except SystemCause Place}
    (hname : isSame name = true) :
    walkNames t purpose onward l (name :: names) = walkNames t purpose onward l names := by
  rw [walkNames, if_pos hname]

theorem walkNames_of_isParent {onward : Location → List Text → Except SystemCause Place}
    (hsame : isSame name = false) (hname : isParent name = true) :
    walkNames t purpose onward l (name :: names) =
      walkNames t purpose onward l.dropLast names := by
  rw [walkNames, if_neg (ne_true_of_eq_false hsame), if_pos hname]

theorem IsProper.append_ne (h : IsProper last) (names : List Text) : names ++ [last] ≠ [[]] := by
  intro heq
  have hlast : last ∈ [([] : Text)] := heq ▸ List.mem_append_right names List.mem_cons_self
  cases (List.mem_singleton.1 hlast) ▸ h.notSame

/-- A step along a name at which an entry can stand, when another one comes last. -/
theorem walkNames_cons {onward : Location → List Text → Except SystemCause Place}
    (hname : IsProper name) (hlast : IsProper last) :
    walkNames t purpose onward l (name :: (names ++ [last])) =
      if byteLength name > nameLimit then .error .nameTooLong
      else
        match t.entry? (l ++ [name]) with
        | none => .error .noSuchEntry
        | some .directory => walkNames t purpose onward (l ++ [name]) (names ++ [last])
        | some (.file _) => .error .notADirectory
        | some (.link target) => onward (startOf l target)
            (namesOf target ++ (names ++ [last])) := by
  have hrest : (names ++ [last]).isEmpty = false := List.isEmpty_eq_false_iff.2 (by simp)
  rw [walkNames, hname.notSame, hname.notParent, decide_eq_false (hlast.append_ne names), hrest,
    Bool.and_false, Bool.false_and]
  rfl

/-- The step along the last name. -/
theorem walkNames_singleton {onward : Location → List Text → Except SystemCause Place}
    (hlast : IsProper last) (hend : t.EndsAt purpose (l ++ [last])) :
    walkNames t purpose onward l [last] =
      if byteLength last > nameLimit then .error .nameTooLong else .ok (t.placeAt l last) := by
  rw [walkNames, hlast.notSame, hlast.notParent, decide_eq_false (List.cons_ne_nil _ _).symm,
    Bool.and_false, placeAt]
  cases hentry : t.entry? (l ++ [last]) with
  | none => rfl
  | some e =>
      cases e with
      | directory => rfl
      | file bytes => rfl
      | link target =>
          rcases hend with rfl | hlink
          · rfl
          · exact absurd hentry (hlink target)

theorem byteLength_of_walkNames_singleton
    {onward : Location → List Text → Except SystemCause Place} (hlast : IsProper last)
    {place : Place} (h : walkNames t purpose onward l [last] = .ok place) :
    byteLength last ≤ nameLimit := by
  by_contra hlong
  rw [walkNames, hlast.notSame, hlast.notParent, decide_eq_false (List.cons_ne_nil _ _).symm,
    Bool.and_false, if_neg Bool.false_ne_true, if_neg Bool.false_ne_true,
    if_neg Bool.false_ne_true, if_pos (Nat.lt_of_not_le hlong)] at h
  cases h

theorem exists_leads (hlast : IsProper last) {place : Place}
    (h : walk t purpose links l (names ++ [last]) = .ok place) :
    ∃ more d, links = more + 1 ∧ t.Leads more l names d ∧ byteLength last ≤ nameLimit ∧
      (t.EndsAt purpose (d ++ [last]) → place = t.placeAt d last) := by
  -- a link is followed with fewer links left, any other name with fewer names
  induction links generalizing l names with
  | zero => cases h
  | succ links ih =>
      refine ⟨links, ?_⟩
      rw [walk] at h
      induction names generalizing l with
      | nil =>
          rw [List.nil_append] at h
          refine ⟨l, rfl, .done, byteLength_of_walkNames_singleton hlast h, fun hend => ?_⟩
          rw [walkNames_singleton hlast hend] at h
          split at h
          · cases h
          · exact (Except.ok.inj h).symm
      | cons name rest ihn =>
          rw [List.cons_append] at h
          cases hsame : isSame name with
          | true =>
              rw [walkNames_of_isSame hsame] at h
              obtain ⟨d, _, hleads, hfound⟩ := ihn h
              exact ⟨d, rfl, .same hsame hleads, hfound⟩
          | false =>
              cases hparent : isParent name with
              | true =>
                  rw [walkNames_of_isParent hsame hparent] at h
                  obtain ⟨d, _, hleads, hfound⟩ := ihn h
                  exact ⟨d, rfl, .parent hsame hparent hleads, hfound⟩
              | false =>
                  have hname : IsProper name := ⟨hsame, hparent⟩
                  rw [walkNames_cons hname hlast] at h
                  split at h
                  · cases h
                  · next hlimit =>
                      have hlimit := Nat.le_of_not_gt hlimit
                      split at h
                      · cases h
                      · next hentry =>
                          obtain ⟨d, _, hleads, hfound⟩ := ihn h
                          exact ⟨d, rfl, .directory hname hlimit hentry hleads, hfound⟩
                      · cases h
                      · next hentry =>
                          rw [← List.append_assoc] at h
                          obtain ⟨more, d, rfl, hleads, hfound⟩ := ih h
                          exact ⟨d, rfl, .link hname hlimit hentry hleads, hfound⟩

theorem Leads.walk_eq (h : t.Leads links l names d) (hlast : IsProper last)
    (hlimit : byteLength last ≤ nameLimit) (hend : t.EndsAt purpose (d ++ [last])) :
    walk t purpose (links + 1) l (names ++ [last]) = .ok (t.placeAt d last) := by
  induction h with
  | done => rw [walk, List.nil_append, walkNames_singleton hlast hend, if_neg (Nat.not_lt.2 hlimit)]
  | same hsame _ ih => rw [walk, List.cons_append, walkNames_of_isSame hsame, ← ih hend, walk]
  | parent hsame hparent _ ih =>
      rw [walk, List.cons_append, walkNames_of_isParent hsame hparent, ← ih hend, walk]
  | directory hname hname' hentry _ ih =>
      rw [walk, List.cons_append, walkNames_cons hname hlast, if_neg (Nat.not_lt.2 hname'), hentry,
        ← ih hend, walk]
  | link hname hname' hentry _ ih =>
      rw [walk, List.cons_append, walkNames_cons hname hlast, if_neg (Nat.not_lt.2 hname'), hentry,
        ← ih hend, List.append_assoc]

/-! ### Paths -/

variable {p : Path}

/-- All names of a path but the last lead to a directory, and none of its texts is too long. -/
structure LeadsTo (t : Tree) (p : Path) (d : Location) : Prop where
  way : t.Leads linkLimit (startOf t.here p.toText) p.names.dropLast d
  nameLimit : byteLength p.name ≤ nameLimit
  pathLimit : byteLength p.toText ≤ pathLimit

theorem LeadsTo.of_keeps (h : t.LeadsTo p d) (hkeeps : t.Keeps t') : t'.LeadsTo p d where
  way := hkeeps.here ▸ h.way.of_keeps hkeeps
  nameLimit := h.nameLimit
  pathLimit := h.pathLimit

/-- No link stands at the last name of a path. -/
def HasNoLinkAt (t : Tree) (p : Path) : Prop := ∀ d, t.LeadsTo p d → t.IsUnlinked (d ++ [p.name])

theorem NoLinkHas.hasNoLinkAt (h : t.NoLinkHas p.name) : t.HasNoLinkAt p := fun d _ =>
  h.isUnlinked d

theorem IsProper.ne_nil (h : IsProper name) : name ≠ [] := by
  rintro rfl
  cases h.notSame

/-- A walk along the text of a path is one along its names. -/
theorem place_eq_walk (hp : p.IsNormal) (hname : p.name ≠ [])
    (hlimit : byteLength p.toText ≤ pathLimit) :
    t.place purpose p.toText =
      walk t purpose (linkLimit + 1) (startOf t.here p.toText) p.names := by
  have htext : p.toText.isEmpty = false := by
    rw [Path.eq_of_name_ne_nil hname, Path.toText_concat]
    exact List.isEmpty_eq_false_iff.2 (List.append_ne_nil_of_right_ne_nil _ hname)
  rw [Tree.place, htext, if_neg Bool.false_ne_true, if_neg (Nat.not_lt.2 hlimit),
    namesOf_toText hp hname]

/-- The last name of a path is its name. -/
theorem names_eq_concat (hname : p.name ≠ []) : p.names = p.names.dropLast ++ [p.name] :=
  congrArg Path.names (Path.eq_of_name_ne_nil hname)

theorem LeadsTo.place_eq (hd : t.LeadsTo p d) (hp : p.IsNormal) (hname : IsProper p.name)
    (hend : t.EndsAt purpose (d ++ [p.name])) :
    t.place purpose p.toText = .ok (t.placeAt d p.name) := by
  rw [place_eq_walk hp hname.ne_nil hd.pathLimit, names_eq_concat hname.ne_nil]
  exact hd.way.walk_eq hname hd.nameLimit hend

/-- A path that is too long is a failure, wherever it is asked for. -/
theorem lookAt_of_overlong {path : Text} (hpath : notAPath? path = none)
    (hlong : pathLimit < byteLength path) :
    t.lookAt path = .error (.system .nameTooLong path none) := by
  have hne : path.isEmpty = false := by
    rw [List.isEmpty_eq_false_iff]
    rintro rfl
    cases hlong
  have hplace : t.place .target path = .error .nameTooLong := by
    rw [Tree.place, hne, if_neg Bool.false_ne_true, if_pos hlong]
  rw [lookAt, hpath, hplace]
  rfl

/-- A path leads to a directory if the walk along it ends at one. -/
theorem isDirectory_iff {path : Text} : t.isDirectory path = .ok true ↔ notAPath? path = none ∧
    ∃ d, t.place .target path = .ok (.found d) ∧ t.entry? d = some .directory := by
  unfold isDirectory lookAt
  cases notAPath? path with
  | some failure => simp [Except.map]
  | none =>
      rcases t.place .target path with cause | d | ⟨d, name⟩
      · cases cause <;> simp [Except.map]
      · simp [Except.map]
      · simp [Except.map]

/-- A path that leads anywhere is not too long. -/
theorem byteLength_of_place {purpose : Purpose} {path : Text} {place : Place}
    (h : t.place purpose path = .ok place) : byteLength path ≤ pathLimit := by
  by_contra hlong
  rw [Tree.place] at h
  split at h
  · cases h
  · rw [if_pos (Nat.lt_of_not_le hlong)] at h
    cases h

/-- All names but the last lead to a directory if a path leads anywhere. -/
theorem exists_leadsTo (hp : p.IsNormal) (hname : IsProper p.name) {place : Place}
    (h : t.place purpose p.toText = .ok place) :
    ∃ d, t.LeadsTo p d ∧ (t.EndsAt purpose (d ++ [p.name]) → place = t.placeAt d p.name) := by
  have hlong := byteLength_of_place h
  rw [place_eq_walk hp hname.ne_nil hlong, names_eq_concat hname.ne_nil] at h
  obtain ⟨more, d, hmore, hway, hlimit, hplace⟩ := exists_leads hname h
  exact ⟨d, ⟨Nat.succ.inj hmore ▸ hway, hlimit, hlong⟩, hplace⟩

/-- A path leads to what stands at its last name in the directory to which the others lead. -/
theorem place_eq_ok_iff (hp : p.IsNormal) (hname : IsProper p.name)
    (hend : ∀ d, t.LeadsTo p d → t.EndsAt purpose (d ++ [p.name])) {place : Place} :
    t.place purpose p.toText = .ok place ↔ ∃ d, t.LeadsTo p d ∧ place = t.placeAt d p.name := by
  constructor
  · intro h
    obtain ⟨d, hd, hplace⟩ := exists_leadsTo hp hname h
    exact ⟨d, hd, hplace (hend d hd)⟩
  · rintro ⟨d, hd, rfl⟩
    exact hd.place_eq hp hname (hend d hd)

end BundleAudit.Tree
