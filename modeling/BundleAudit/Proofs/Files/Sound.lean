import BundleAudit.Proofs.Files.Refusal
import BundleAudit.Proofs.Module.Files
import Mathlib.Data.List.Induction

/-!
# BundleAudit.Proofs.Files.Sound

**Directory trees.** In a tree as a file system has it, everything stands once, in a
directory, and at a name that an entry can have (`IsSound`).
-/

namespace BundleAudit.Tree

/-- A name that a file system takes for an entry. -/
structure IsEntryName (name : Text) : Prop where
  isName : Path.IsName name
  notParent : isParent name = false
  isPath : notAPath? name = none
  limit : byteLength name ≤ nameLimit

instance (name : Text) : Decidable (IsEntryName name) :=
  decidable_of_iff (Path.IsName name ∧ isParent name = false ∧ notAPath? name = none ∧
      byteLength name ≤ nameLimit)
    ⟨fun ⟨hname, hparent, hpath, hlimit⟩ => ⟨hname, hparent, hpath, hlimit⟩,
      fun h => ⟨h.isName, h.notParent, h.isPath, h.limit⟩⟩

theorem IsEntryName.isProper {name : Text} (h : IsEntryName name) : IsProper name where
  notSame := by
    rw [isSame, List.isEmpty_eq_false_iff.2 h.isName.ne_nil, beq_eq_false_iff_ne.2 h.isName.ne_dot]
    rfl
  notParent := h.notParent

/-- A name that is too long for an entry. -/
def overlongName : Text := List.replicate 300 (0x61 : Nat)

/-- Each entry stands once, at a name that an entry can have, in a directory; and the working
directory is one. -/
structure IsSound (t : Tree) : Prop where
  nodup : t.entries.keys.Nodup
  ne_nil : ∀ e ∈ t.entries, e.1 ≠ []
  names : ∀ e ∈ t.entries, ∀ name ∈ e.1, IsEntryName name
  around : ∀ e ∈ t.entries, t.entry? e.1.dropLast = some .directory
  here : t.entry? t.here = some .directory

instance (t : Tree) : Decidable t.IsSound :=
  decidable_of_iff (t.entries.keys.Nodup ∧ (∀ e ∈ t.entries, e.1 ≠ []) ∧
      (∀ e ∈ t.entries, ∀ name ∈ e.1, IsEntryName name) ∧
      (∀ e ∈ t.entries, t.entry? e.1.dropLast = some .directory) ∧
      t.entry? t.here = some .directory)
    ⟨fun ⟨hnodup, hne, hnames, haround, hhere⟩ => ⟨hnodup, hne, hnames, haround, hhere⟩,
      fun h => ⟨h.nodup, h.ne_nil, h.names, h.around, h.here⟩⟩

variable {t : Tree}

theorem IsSound.isNamed (h : t.IsSound) : t.IsNamed := fun e he name hname =>
  (h.names e he name hname).isName

/-! ### Entries -/

theorem entry?_of_ne_nil {l : Location} (hl : l ≠ []) : t.entry? l = t.entries.get? l := by
  unfold entry?
  rw [List.isEmpty_eq_false_iff.2 hl]
  rfl

/-- What stands at a location is one of the entries. -/
theorem IsSound.mem_entries_iff (h : t.IsSound) {l : Location} {e : Entry} :
    (l, e) ∈ t.entries ↔ l ≠ [] ∧ t.entry? l = some e := by
  constructor
  · intro hmem
    have hl : l ≠ [] := h.ne_nil _ hmem
    exact ⟨hl, by rw [entry?_of_ne_nil hl, KeyedList.get?_eq_some h.nodup hmem]⟩
  · rintro ⟨hl, hentry⟩
    rw [entry?_of_ne_nil hl] at hentry
    exact KeyedList.mem_of_get?_eq_some hentry

/-- An entry stands at names of entries. -/
theorem IsSound.isEntryName (h : t.IsSound) {l : Location} {e : Entry}
    (hentry : t.entry? l = some e) :
    ∀ name ∈ l, IsEntryName name := by
  by_cases hl : l = []
  · exact hl ▸ nofun
  · exact h.names _ (h.mem_entries_iff.2 ⟨hl, hentry⟩)

/-- What stands at a location stands in directories all the way. -/
theorem IsSound.directory_of_append (h : t.IsSound) {l names : List Text} {e : Entry}
    (hentry : t.entry? (l ++ names) = some e) (hnames : names ≠ []) :
    t.entry? l = some .directory := by
  induction names using List.reverseRecOn generalizing e with
  | nil => exact absurd rfl hnames
  | append_singleton names name ih =>
      have hne : l ++ (names ++ [name]) ≠ [] := by simp
      have haround := h.around _ (h.mem_entries_iff.2 ⟨hne, hentry⟩)
      rw [← List.append_assoc, List.dropLast_concat] at haround
      cases names with
      | nil => rwa [List.append_nil] at haround
      | cons first rest => exact ih haround (List.cons_ne_nil _ _)

/-! ### Real paths -/

/-- Names of directories lead there, without a link. -/
theorem IsSound.leads (h : t.IsSound) {links : Nat} {l names : List Text}
    (hentry : t.entry? (l ++ names) = some .directory) : t.Leads links l names (l ++ names) := by
  induction names generalizing l with
  | nil =>
      rw [List.append_nil]
      exact .done
  | cons name rest ih =>
      have hname := h.isEntryName hentry name (List.mem_append_right _ List.mem_cons_self)
      rw [List.append_cons] at hentry ⊢
      have hdirectory : t.entry? (l ++ [name]) = some .directory := by
        cases rest with
        | nil => rwa [List.append_nil] at hentry
        | cons next more => exact h.directory_of_append hentry (List.cons_ne_nil _ _)
      exact .directory hname.isProper hname.limit hdirectory (ih hentry)

theorem isNormal_toPath {l : Location} (h : ∀ name ∈ l, Path.IsName name) : l.toPath.IsNormal :=
  ⟨.inr (.inl rfl), h⟩

/-- The path of a location leads to its directory. -/
theorem IsSound.leadsTo_toPath (h : t.IsSound) {d : Location} {name : Text}
    (hd : t.entry? d = some .directory) (hname : byteLength name ≤ nameLimit)
    (hlimit : byteLength (Location.toPath (d ++ [name])).toText ≤ pathLimit) :
    t.LeadsTo (Location.toPath (d ++ [name])) d where
  way := by
    have hstart : startOf t.here (Location.toPath (d ++ [name])).toText = [] := by
      rw [Location.toPath, Path.toText_concat]
      rfl
    rw [hstart, Location.toPath, List.dropLast_concat]
    exact h.leads (l := []) hd
  nameLimit := by rwa [Location.toPath, Path.name, List.getLastD_concat]
  pathLimit := hlimit

/-- Where no directory and no link stands, there is no directory. -/
theorem IsSound.isDirectory_eq_false (h : t.IsSound) {d : Location} {name : Text}
    (hd : t.entry? d = some .directory) (hname : IsEntryName name) (hfree : t.IsFree (d ++ [name]))
    (hlimit : byteLength (Location.toPath (d ++ [name])).toText ≤ pathLimit) :
    t.isDirectory (d.toPath.child name).toText = .ok false := by
  have hnormal : (Location.toPath (d ++ [name])).IsNormal := isNormal_toPath fun n hn => by
    rcases List.mem_append.1 hn with hn | hn
    · exact (h.isEntryName hd n hn).isName
    · exact List.mem_singleton.1 hn ▸ hname.isName
  have hlast : (Location.toPath (d ++ [name])).name = name := List.getLastD_concat ..
  have hplace : t.place .target (Location.toPath (d ++ [name])).toText =
      .ok (t.placeAt d (Location.toPath (d ++ [name])).name) :=
    (h.leadsTo_toPath hd hname.limit hlimit).place_eq hnormal (hlast.symm ▸ hname.isProper)
      (.inr (hlast.symm ▸ hfree.2))
  have hlook : ∃ e, t.lookAt (d.toPath.child name).toText = .ok e ∧ e ≠ some .directory := by
    show ∃ e, t.lookAt (Location.toPath (d ++ [name])).toText = .ok e ∧ _
    rw [lookAt, hplace, hlast]
    split
    · exact ⟨none, rfl, (Option.some_ne_none _).symm⟩
    · by_cases hsome : (t.entry? (d ++ [name])).isSome
      · rw [placeAt, if_pos hsome]
        exact ⟨_, rfl, hfree.1⟩
      · rw [placeAt, if_neg hsome]
        exact ⟨none, rfl, (Option.some_ne_none _).symm⟩
  obtain ⟨e, he, hne⟩ := hlook
  rw [isDirectory, he]
  exact congrArg Except.ok (beq_eq_false_iff_ne.2 hne)

/-! ### The names in a directory -/

theorem IsSound.mem_names_iff (h : t.IsSound) {d : Location} {name : Text} :
    name ∈ t.names d ↔ (t.entry? (d ++ [name])).isSome := by
  rw [Tree.names, Text.sort, List.mem_mergeSort, List.mem_filterMap, Option.isSome_iff_exists]
  constructor
  · rintro ⟨⟨l, e⟩, hentry, hname⟩
    dsimp only at hname
    split at hname
    · next hd =>
        have hl : l = d ++ [name] := by
          rw [← hd]
          exact (List.dropLast_append_getLast? name hname).symm
        exact ⟨e, (h.mem_entries_iff.1 (hl ▸ hentry)).2⟩
    · cases hname
  · rintro ⟨e, hentry⟩
    refine ⟨(d ++ [name], e), h.mem_entries_iff.2 ⟨List.concat_ne_nil _ _, hentry⟩, ?_⟩
    simp

theorem pairwise_names (t : Tree) (d : Location) :
    (t.names d).Pairwise fun a b => a.le b = true :=
  @List.pairwise_mergeSort Text Text.le (fun _ _ _ => Text.le_trans) Text.le_total _

theorem IsSound.nodup_names (h : t.IsSound) (d : Location) : (t.names d).Nodup := by
  rw [Tree.names, Text.sort, (List.mergeSort_perm _ _).nodup_iff, List.Nodup,
    List.pairwise_filterMap]
  refine (List.pairwise_map.1 h.nodup).imp fun {a b} hne name hname name' hname' heq => hne ?_
  -- the name and the directory make up the location
  obtain ⟨l, e⟩ := a
  obtain ⟨l', e'⟩ := b
  dsimp only at hname hname' ⊢
  split at hname
  · next hd =>
      split at hname'
      · next hd' =>
          rw [← List.dropLast_append_getLast? name hname,
            ← List.dropLast_append_getLast? name' hname',
            hd, hd', heq]
      · cases hname'
  · cases hname

/-! ### Files within a directory -/

/-- The names that lead to the files within a directory. -/
theorem IsSound.mem_filesWithin_iff (h : t.IsSound) {directory : Location} {names : List Text} :
    names ∈ t.filesWithin directory ↔
      names ≠ [] ∧ ∃ bytes, t.entry? (directory ++ names) = some (.file bytes) := by
  have hmem : names ∈ t.filesWithin directory ↔
      ∃ l bytes, (l, Entry.file bytes) ∈ t.entries ∧ within? directory l = some names := by
    rw [filesWithin, List.mem_mergeSort, List.mem_filterMap]
    constructor
    · rintro ⟨⟨l, e⟩, hentry, hfile⟩
      cases e with
      | directory => cases hfile
      | link target => cases hfile
      | file bytes => exact ⟨l, bytes, hentry, hfile⟩
    · rintro ⟨l, bytes, hentry, hfile⟩
      exact ⟨(l, .file bytes), hentry, hfile⟩
  rw [hmem]
  constructor
  · rintro ⟨l, bytes, hentry, hwithin⟩
    obtain ⟨hne, rfl⟩ := within?_eq_some_iff.1 hwithin
    exact ⟨hne, bytes, (h.mem_entries_iff.1 hentry).2⟩
  · rintro ⟨hne, bytes, hentry⟩
    refine ⟨directory ++ names, bytes, h.mem_entries_iff.2 ⟨?_, hentry⟩, ?_⟩
    · exact List.append_ne_nil_of_right_ne_nil _ hne
    · exact within?_eq_some_iff.2 ⟨hne, rfl⟩

/-- No names lead to two files. -/
theorem IsSound.nodup_filesWithin (h : t.IsSound) (directory : Location) :
    (t.filesWithin directory).Nodup := by
  rw [filesWithin, (List.mergeSort_perm _ _).nodup_iff, List.Nodup, List.pairwise_filterMap]
  refine (List.pairwise_map.1 h.nodup).imp fun {a b} hne names hnames names' hnames' heq => hne ?_
  -- the names and the directory make up the location
  obtain ⟨l, e⟩ := a
  obtain ⟨l', e'⟩ := b
  cases e <;> first | cases hnames | skip
  cases e' <;> first | cases hnames' | skip
  rw [← (of_within?_eq_some hnames).2, ← (of_within?_eq_some hnames').2, heq]

/-- The names that lead to a file are names of entries. -/
theorem IsSound.names_of_mem_filesWithin (h : t.IsSound) {directory : Location} {names : List Text}
    (hnames : names ∈ t.filesWithin directory) : ∀ name ∈ names, IsEntryName name := by
  obtain ⟨hne, bytes, hentry⟩ := h.mem_filesWithin_iff.1 hnames
  have hmem := h.mem_entries_iff.2 ⟨List.append_ne_nil_of_right_ne_nil directory hne, hentry⟩
  exact fun name hname => h.names _ hmem name (List.mem_append_right _ hname)

end BundleAudit.Tree
