import BundleAudit.Proofs.Files.Refusal
import BundleAudit.Proofs.Files.Way
import BundleAudit.Proofs.KeyedList

/-!
# BundleAudit.Proofs.Files.Overwriting

**Writing a file changes one entry of the tree,** if its directories are there and nothing
stands at its temporary file (`Takes.writeText_eq`): the temporary file leaves nothing.
Where this holds once, it holds in all trees that differ in files only.
-/

namespace BundleAudit.Tree

variable {W : Location → Prop} {t t' : Tree} {p target : Path} {l d : Location} {text : Text}

/-! ### The directories around a file -/

theorem byteLength_append (a b : Text) : byteLength (a ++ b) = byteLength a + byteLength b := by
  rw [byteLength, List.flatMap_append, List.length_append, byteLength, byteLength]

theorem byteLength_parent_le (hname : p.name ≠ []) (hparent : p.parent.names ≠ []) :
    byteLength p.parent.toText ≤ byteLength p.toText := by
  obtain ⟨init, last, hnames⟩ := (List.eq_nil_or_concat' p.parent.names).resolve_left hparent
  have htext := Path.toText_concat p.root p.parent.names p.name
  have hparentText : p.parent.toText = p.root ++ init.flatMap (· ++ [Code.slash]) ++ last := by
    rw [← Path.toText_concat, ← hnames]
    rfl
  have hwhole : p.toText = p.parent.toText ++ ([Code.slash] ++ p.name) := by
    have heq : p.toText = Path.toText ⟨p.root, p.parent.names ++ [p.name]⟩ :=
      congrArg Path.toText (Path.eq_of_name_ne_nil hname)
    rw [heq, htext, hparentText, hnames, List.flatMap_append, List.flatMap_singleton]
    simp only [List.append_assoc]
  rw [hwhole, byteLength_append]
  exact Nat.le_add_right _ _

/-- No directory is made on a way that is there. -/
theorem makeDirectories_eq (hp : p.IsNormal) (hname : p.name ≠ [])
    (hpath : notAPath? p.toText = none) (hlimit : byteLength p.toText ≤ pathLimit)
    (h : t.Leads linkLimit (startOf t.here p.toText) p.names.dropLast d)
    (hd : t.entry? d = some .directory) : t.makeDirectories p.parent = (t, none) := by
  have hparent : notAPath? p.parent.toText = none :=
    (notAPath?_toText (isNormal_parent hp)).2 fun n hn =>
      (notAPath?_toText hp).1 hpath n ((List.dropLast_sublist _).subset hn)
  rw [makeDirectories, hparent]
  dsimp only
  by_cases hnames : p.parent.names = []
  · rw [hnames]
    rfl
  · have hname' := Path.name_ne_nil (isNormal_parent hp) hnames
    have hlimit := Nat.le_trans (byteLength_parent_le hname hnames) hlimit
    have hway : t.Leads linkLimit (startOf t.here p.parent.toText) p.parent.names d := by
      have hstart : startOf t.here p.parent.toText = startOf t.here p.toText := by
        rw [startOf_toText (isNormal_parent hp), startOf_toText hp]
        rfl
      rw [hstart]
      exact h
    obtain ⟨d', hentry⟩ := hway.exists_walk_entry
    have hplace : t.place .entry p.parent.toText = .ok (.found d') := by
      rw [place_eq_walk (isNormal_parent hp) hname' hlimit]
      exact hentry
    have hdirectory := isDirectory_of_leads (isNormal_parent hp) hname' hparent hlimit hway hd
    -- the innermost directory is there already
    cases hreverse : p.parent.names.reverse with
    | nil => exact absurd (List.reverse_eq_nil_iff.1 hreverse) hnames
    | cons last around =>
        have htext : Path.toText ⟨p.parent.root, (last :: around).reverse⟩ = p.parent.toText := by
          rw [← hreverse, List.reverse_reverse]
        rw [makeDirectoriesFrom, htext, makeDirectory, hplace]
        simp only [unlessDirectory, hdirectory]

/-! ### One file -/

/-- A file can be put at a location: its path leads there, no directory and no link stands there,
and nothing at all at its temporary file. -/
structure Takes (t : Tree) (target : Path) (l : Location) : Prop where
  isNormal : target.IsNormal
  isProper : IsProper target.name
  isPath : notAPath? target.toText = none
  leads : ∃ d, t.LeadsTo target d ∧ t.LeadsTo (temporaryOf target) d ∧
    t.entry? d = some .directory ∧ t.entry? (d ++ [(temporaryOf target).name]) = none ∧
    l = d ++ [target.name]
  isFree : t.IsFree l

/-- A file can be put there in a tree that differs at locations of files only. -/
theorem Takes.of_alike (h : t.Takes target l) (halike : t.AlikeBut W t')
    (htemporary : ¬W (l.dropLast ++ [(temporaryOf target).name])) : t'.Takes target l := by
  obtain ⟨d, hd, hd', hdirectory, hnone, rfl⟩ := h.leads
  rw [List.dropLast_concat] at htemporary
  refine ⟨h.isNormal, h.isProper, h.isPath,
    ⟨d, hd.of_keeps halike.keeps, hd'.of_keeps halike.keeps, halike.keeps.directory hdirectory,
      (halike.entry _ htemporary).trans hnone, rfl⟩, ?_⟩
  by_cases hl : W (d ++ [target.name])
  · exact halike.free' _ hl
  · rw [IsFree, halike.entry _ hl]
    exact h.isFree

/-- A file that is filled at a new location and moved on leaves nothing there. -/
theorem moved_eq {l l' : Location} (hl : l ≠ []) (hnew : t.entry? l = none) (hne : l' ≠ l)
    (bytes : Bytes) : t.moved l l' bytes = t.put l' (.file bytes) := by
  rw [entry?_of_ne_nil hl] at hnew
  have hkey := KeyedList.not_mem_keys_of_get?_eq_none hnew
  rw [moved, filled, put, put, put, remove, put, KeyedList.set_set,
    KeyedList.erase_set_set hkey hne]

/-- **A text goes to its place, and nothing else changes.** -/
theorem Takes.writeText_eq (h : t.Takes target l) (htext : text.all Code.isScalar = true) :
    t.writeText target text = (t.put l (.file (text.flatMap Text.utf8Code)), none) := by
  obtain ⟨d, hd, hd', hdirectory, hnone, rfl⟩ := h.leads
  have hname := h.isProper.ne_nil
  have hnormal := isNormal_temporaryOf h.isNormal hname
  have hproper := isProper_temporaryOf target
  have hpath : notAPath? (temporaryOf target).toText = none := by
    rw [toText_temporaryOf hname, notAPath?_append]
    exact ⟨h.isPath, rfl⟩
  have hne : d ++ [target.name] ≠ d ++ [(temporaryOf target).name] := by
    rw [name_temporaryOf]
    intro heq
    have hself := List.singleton_inj.1 (List.append_cancel_left heq)
    exact absurd (List.append_right_eq_self.1 hself.symm) (by decide)
  have hfree : t.IsFree (d ++ [(temporaryOf target).name]) := isFree_of_entry?_eq_none hnone
  have hopen : t.openEmpty (temporaryOf target).toText =
      .ok (t.put (d ++ [(temporaryOf target).name]) (.file []),
        d ++ [(temporaryOf target).name]) := by
    have hplace : t.place .writing (temporaryOf target).toText =
        .ok (.missing d (temporaryOf target).name) := by
      rw [hd'.place_eq hnormal hproper (.inr hfree.2), placeAt, hnone]
      rfl
    rw [openEmpty, hpath, hplace]
  generalize hbytes : text.flatMap Text.utf8Code = bytes
  have htemporary : d ++ [(temporaryOf target).name] ≠ [] := List.concat_ne_nil _ _
  have hkeeps := keeps_filled htemporary hfree bytes
  have hmove : (t.filled (d ++ [(temporaryOf target).name]) bytes).rename
      (temporaryOf target).toText target =
        .ok (t.moved (d ++ [(temporaryOf target).name]) (d ++ [target.name]) bytes) := by
    refine (rename_eq_ok_iff hnormal hproper h.isNormal h.isProper).2
      ⟨d, d, .file bytes, hd'.of_keeps hkeeps, hd.of_keeps hkeeps, ?_, ?_, rfl⟩
    · rw [entry?_filled htemporary, if_pos rfl]
    · rw [entry?_filled htemporary, if_neg hne]
      exact h.isFree.1
  rw [writeText_eq (makeDirectories_eq h.isNormal hname h.isPath hd.pathLimit hd.way hdirectory)
      (withSuffix_temporarySuffix h.isNormal hname), writeThrough, writeInPlace_eq htext hopen,
    hbytes]
  simp only [hmove, moved_eq htemporary hnone hne]

/-- A path at which a file was opened is within the limit. -/
theorem of_openEmpty {path : Text} (h : t.openEmpty path = .ok (t', l)) :
    notAPath? path = none ∧ byteLength path ≤ pathLimit := by
  unfold openEmpty at h
  split at h
  · cases h
  · next hpath =>
      split at h
      · cases h
      · next hplace => exact ⟨hpath, byteLength_of_place hplace⟩
      · next hplace => exact ⟨hpath, byteLength_of_place hplace⟩

/-- The way to the temporary file is the one to the file. -/
theorem way_temporaryOf (htarget : target.IsNormal) (hname : target.name ≠ [])
    (hway : t.Leads linkLimit (startOf t.here target.toText) target.names.dropLast d) :
    t.Leads linkLimit (startOf t.here (temporaryOf target).toText)
      (temporaryOf target).names.dropLast d := by
  rw [startOf_toText (isNormal_temporaryOf htarget hname), temporaryOf, List.dropLast_concat,
    ← startOf_toText htarget]
  exact hway

/-- A text that was written went through the temporary file in the directory around. -/
theorem movesFile_of_writeText (htarget : target.IsNormal)
    (hway : t.Leads linkLimit (startOf t.here target.toText) target.names.dropLast d)
    (hd : t.entry? d = some .directory) (hlink : t.HasNoLinkAt (temporaryOf target))
    (h : (t.writeText target text).2 = none) :
    notAPath? target.toText = none ∧ t.LeadsTo target d ∧ t.LeadsTo (temporaryOf target) d ∧
      t.MovesFile (temporaryOf target) target (d ++ [(temporaryOf target).name])
        (d ++ [target.name]) ∧
      ∀ other : Text, other.all Code.isScalar = true → t.writeText target other =
        (t.moved (d ++ [(temporaryOf target).name]) (d ++ [target.name])
          (other.flatMap Text.utf8Code), none) := by
  have hscalar := all_isScalar_of_writeText h
  obtain ⟨hname, t', hmade, hsuffix⟩ := of_writeText_eq_none h
  -- the directories are there, since the path is short enough
  have hlimits : notAPath? target.toText = none ∧ byteLength target.toText ≤ pathLimit := by
    have hthrough := h
    rw [writeText_eq hmade hsuffix] at hthrough
    obtain ⟨t₁, l, hopen, -⟩ := of_writeThrough_eq_none hthrough
    obtain ⟨hpath, hlimit⟩ := of_openEmpty hopen
    rw [toText_temporaryOf hname] at hpath hlimit
    rw [byteLength_append] at hlimit
    exact ⟨(notAPath?_append.1 hpath).1, by omega⟩
  have hmade := makeDirectories_eq htarget hname hlimits.1 hlimits.2 hway hd
  obtain ⟨hpath, t'', l, l', hmade', hmoves, hwrites⟩ :=
    exists_movesFile_of_writeText htarget hscalar h (by rwa [hmade])
  obtain ⟨rfl, -⟩ := Prod.mk.inj (hmade.symm.trans hmade')
  obtain ⟨d₁, hd₁, rfl⟩ := hmoves.fills
  obtain ⟨d₂, hd₂, rfl⟩ := hmoves.leads
  have hleads : t.LeadsTo target d := ⟨hway, hd₂.nameLimit, hd₂.pathLimit⟩
  have hleads' : t.LeadsTo (temporaryOf target) d :=
    ⟨way_temporaryOf htarget hname hway, hd₁.nameLimit, hd₁.pathLimit⟩
  obtain rfl := hleads.unique hd₂ htarget hmoves.isProper
  obtain rfl := hleads'.unique hd₁ (isNormal_temporaryOf htarget hname)
    (isProper_temporaryOf target)
  exact ⟨hpath, hleads, hleads', hmoves, hwrites⟩

/-- Where one text was written, any text can be put. -/
theorem takes_of_writeText (htarget : target.IsNormal)
    (hway : t.Leads linkLimit (startOf t.here target.toText) target.names.dropLast d)
    (hd : t.entry? d = some .directory) (hlink : t.HasNoLinkAt target)
    (hnone : t.entry? (d ++ [(temporaryOf target).name]) = none)
    (h : (t.writeText target text).2 = none) : t.Takes target (d ++ [target.name]) := by
  have hnoLink : t.HasNoLinkAt (temporaryOf target) := by
    intro d' hd'
    obtain ⟨hname, -⟩ := of_writeText_eq_none h
    have hleads : t.LeadsTo (temporaryOf target) d :=
      ⟨way_temporaryOf htarget hname hway, hd'.nameLimit, hd'.pathLimit⟩
    rw [hleads.unique hd' (isNormal_temporaryOf htarget hname) (isProper_temporaryOf target)]
    exact (isFree_of_entry?_eq_none hnone).2
  obtain ⟨hpath, hleads, hleads', hmoves, -⟩ := movesFile_of_writeText htarget hway hd hnoLink h
  exact ⟨htarget, hmoves.isProper, hpath, ⟨d, hleads, hleads', hd, hnone, rfl⟩,
    ⟨hmoves.notDirectory, hlink d hleads⟩⟩

/-! ### Several files -/

/-- What is free stays free where a file is put somewhere. -/
theorem IsFree.put_file {other : Location} (hfree : t.IsFree other) (hne : l ≠ []) (bytes : Bytes) :
    (t.put l (.file bytes)).IsFree other := by
  by_cases heq : other = l
  · exact isFree_of_entry?_eq_file (by rw [entry?_put hne, if_pos heq])
  · rwa [IsFree, entry?_put hne, if_neg heq]

/-- A tree with a file at a location differs there only. -/
theorem alike_put (hfree : ∀ l, W l → t.IsFree l) (hl : W l) (hne : l ≠ []) (bytes : Bytes) :
    t.AlikeBut W (t.put l (.file bytes)) where
  here := rfl
  depths := rfl
  entry other hother := by
    rw [entry?_put hne, if_neg]
    rintro rfl
    exact hother hl
  free := hfree
  free' other hother := (hfree other hother).put_file hne bytes

theorem Takes.ne_nil (h : t.Takes target l) : l ≠ [] := by
  obtain ⟨d, -, -, -, -, rfl⟩ := h.leads
  exact List.concat_ne_nil _ _

/-- The name at the end of a path is one that an entry can have. -/
theorem LeadsTo.isEntryName (h : t.LeadsTo p d) (hp : p.IsNormal) (hname : IsProper p.name)
    (hpath : notAPath? p.toText = none) : IsEntryName p.name := by
  have hmem : p.name ∈ p.names := by
    rw [names_eq_concat hname.ne_nil]
    exact List.mem_append_right _ List.mem_cons_self
  exact ⟨Path.isName_name hp hname.ne_nil, hname.notParent, (notAPath?_toText hp).1 hpath _ hmem,
    h.nameLimit⟩

/-- A tree stays sound where a file is put into a directory. -/
theorem IsSound.put_file (ht : t.IsSound) (hd : t.entry? d = some .directory) {name : Text}
    (hname : IsEntryName name) (hfree : t.IsFree (d ++ [name])) (bytes : Bytes) :
    (t.put (d ++ [name]) (.file bytes)).IsSound := by
  have hne : d ++ [name] ≠ [] := List.concat_ne_nil _ _
  have hkeeps : t.Keeps (t.put (d ++ [name]) (.file bytes)) :=
    (alike_put (W := (· = d ++ [name])) (fun l hl => hl ▸ hfree) rfl hne bytes).keeps
  have hentries : ∀ e ∈ (t.put (d ++ [name]) (.file bytes)).entries,
      e.1 = d ++ [name] ∨ e ∈ t.entries := fun e he =>
    (KeyedList.mem_of_mem_set he).imp_left (congrArg Prod.fst)
  refine ⟨KeyedList.nodup_keys_set ht.nodup, fun e he => ?_, fun e he => ?_, fun e he => ?_,
    hkeeps.directory ht.here⟩
  · rcases hentries e he with heq | he
    · exact heq ▸ hne
    · exact ht.ne_nil e he
  · rcases hentries e he with heq | he
    · rw [heq]
      exact List.forall_mem_append.2 ⟨ht.isEntryName hd, List.forall_mem_singleton.2 hname⟩
    · exact ht.names e he
  · rcases hentries e he with heq | he
    · rw [heq, List.dropLast_concat]
      exact hkeeps.directory hd
    · exact hkeeps.directory (ht.around e he)

theorem Takes.isSound_put (h : t.Takes target l) (ht : t.IsSound) (bytes : Bytes) :
    (t.put l (.file bytes)).IsSound := by
  obtain ⟨d, hleads, -, hd, -, rfl⟩ := h.leads
  exact ht.put_file hd (hleads.isEntryName h.isNormal h.isProper h.isPath) h.isFree bytes

/-- Puts files at locations, one after the other. -/
def putAll (t : Tree) (files : List (Location × Bytes)) : Tree :=
  { t with entries := t.entries.setAll (files.map fun f => (f.1, .file f.2)) }

theorem putAll_cons (t : Tree) (f : Location × Bytes) (rest : List (Location × Bytes)) :
    t.putAll (f :: rest) = (t.put f.1 (.file f.2)).putAll rest := rfl

theorem entry?_putAll {files : List (Location × Bytes)} (hfiles : ∀ f ∈ files, f.1 ≠ []) (t : Tree)
    (l : Location) :
    entry? (t.putAll files) l = t.entry? l ∧ (∀ f ∈ files, f.1 ≠ l) ∨
      ∃ f ∈ files, f.1 = l ∧ entry? (t.putAll files) l = some (.file f.2) := by
  induction files generalizing t with
  | nil => exact .inl ⟨rfl, nofun⟩
  | cons f rest ih =>
      obtain ⟨hf, hrest⟩ := List.forall_mem_cons.1 hfiles
      rw [putAll_cons]
      rcases ih hrest (t.put f.1 (.file f.2)) with ⟨hentry, hne⟩ | ⟨g, hg, heq, hentry⟩
      · rw [hentry, entry?_put hf]
        split
        · next heq => exact .inr ⟨f, List.mem_cons_self, heq.symm, rfl⟩
        · next hother => exact .inl ⟨rfl, List.forall_mem_cons.2 ⟨Ne.symm hother, hne⟩⟩
      · exact .inr ⟨g, List.mem_cons_of_mem _ hg, heq, hentry⟩

/-- Putting the same files once more changes nothing. -/
theorem putAll_putAll (ht : t.IsSound) (files : List (Location × Bytes)) :
    (t.putAll files).putAll files = t.putAll files := by
  unfold putAll
  rw [KeyedList.setAll_setAll ht.nodup]

/-! ### Several texts -/

/-- Writes texts to the files at paths, one after the other, up to the first failure. -/
def writeAll (t : Tree) : List (Path × Text) → Tree × Option Failure
  | [] => (t, none)
  | f :: rest =>
    match t.writeText f.1 f.2 with
    | (t, none) => writeAll t rest
    | (t, some failure) => (t, some failure)

theorem writeAll_append (t : Tree) (files more : List (Path × Text)) :
    t.writeAll (files ++ more) =
      match t.writeAll files with
      | (t, none) => t.writeAll more
      | (t, some failure) => (t, some failure) := by
  induction files generalizing t with
  | nil => rfl
  | cons f rest ih =>
      rw [List.cons_append, writeAll, writeAll]
      rcases t.writeText f.1 f.2 with ⟨t', failure | failure⟩
      · exact ih t'
      · rfl

/-- A text goes to a location: its path leads into the directory of the location, and nothing
stands or goes where its temporary file does. -/
structure GoesTo (t : Tree) (W : Location → Prop) (target : Path) (l : Location) : Prop where
  isNormal : target.IsNormal
  leads : ∃ d, t.Leads linkLimit (startOf t.here target.toText) target.names.dropLast d ∧
    t.entry? d = some .directory ∧ l = d ++ [target.name]
  temporary : t.entry? (l.dropLast ++ [(temporaryOf target).name]) = none
  apart : ¬W (l.dropLast ++ [(temporaryOf target).name])
  mem : W l

variable {files : List (Path × Text)} {place : Path × Text → Location} {u : Tree}

theorem HasNoLinkAt.of_alike (h : t.HasNoLinkAt target) (halike : t.AlikeBut W t') :
    t'.HasNoLinkAt target := fun d hd aim hentry =>
  h d (hd.of_keeps halike.symm.keeps) aim (halike.link_iff.1 hentry)

/-- **Where texts were written one after the other, each of them can be put from the beginning.** -/
theorem takes_of_writeAll (h : t.AlikeBut (fun l => W l ∧ t.IsFree l) u)
    (hfiles : ∀ f ∈ files, t.GoesTo W f.1 (place f) ∧ t.HasNoLinkAt f.1)
    (hwrite : (u.writeAll files).2 = none) :
    ∀ f ∈ files, t.Takes f.1 (place f) ∧ f.2.all Code.isScalar = true := by
  induction files generalizing u with
  | nil => exact nofun
  | cons f rest ih =>
      obtain ⟨⟨hgoes, hlink⟩, hrest⟩ := List.forall_mem_cons.1 hfiles
      obtain ⟨u', failure, hfirst⟩ : ∃ u' failure, u.writeText f.1 f.2 = (u', failure) :=
        ⟨_, _, rfl⟩
      rw [writeAll, hfirst] at hwrite
      cases failure with
      | some failure => cases hwrite
      | none =>
          obtain ⟨d, hway, hdirectory, hplace⟩ := hgoes.leads
          have htemporary := hgoes.temporary
          have hapart := hgoes.apart
          rw [hplace, List.dropLast_concat] at htemporary hapart
          have hnone := (h.entry _ fun hw => hapart hw.1).trans htemporary
          have hsucceeds : (u.writeText f.1 f.2).2 = none := by rw [hfirst]
          have htakes : u.Takes f.1 (d ++ [f.1.name]) :=
            takes_of_writeText hgoes.isNormal (h.here ▸ hway.of_keeps h.keeps)
              (h.keeps.directory hdirectory) (hlink.of_alike h) hnone hsucceeds
          have hscalar := all_isScalar_of_writeText hsucceeds
          have htakes' : t.Takes f.1 (place f) := by
            rw [hplace]
            refine htakes.of_alike h.symm fun hw => hapart ?_
            rw [List.dropLast_concat] at hw
            exact hw.1
          refine List.forall_mem_cons.2 ⟨⟨htakes', hscalar⟩, ih ?_ hrest hwrite⟩
          rw [htakes.writeText_eq hscalar, ← hplace] at hfirst
          obtain rfl := (Prod.mk.inj hfirst).1
          exact h.trans (alike_put h.free' ⟨hgoes.mem, htakes'.isFree⟩ htakes'.ne_nil _)

/-- What is put for texts at their locations. -/
def putsOf (place : Path × Text → Location) (files : List (Path × Text)) :
    List (Location × Bytes) :=
  files.map fun f => (place f, f.2.flatMap Text.utf8Code)

/-- **Writing texts puts them at their locations,** and changes nothing else. -/
theorem writeAll_eq (h : t.AlikeBut W u) (hu : u.IsSound)
    (hfiles : ∀ f ∈ files, t.GoesTo W f.1 (place f))
    (htakes : ∀ f ∈ files, t.Takes f.1 (place f) ∧ f.2.all Code.isScalar = true) :
    u.writeAll files = (u.putAll (putsOf place files), none) ∧
      t.AlikeBut W (u.putAll (putsOf place files)) ∧ (u.putAll (putsOf place files)).IsSound := by
  induction files generalizing u with
  | nil => exact ⟨rfl, h, hu⟩
  | cons f rest ih =>
      obtain ⟨hgoes, hrest⟩ := List.forall_mem_cons.1 hfiles
      obtain ⟨⟨htakes, hscalar⟩, hothers⟩ := List.forall_mem_cons.1 htakes
      have htakes := htakes.of_alike h hgoes.apart
      rw [writeAll, htakes.writeText_eq hscalar]
      exact ih (h.trans (alike_put h.free' hgoes.mem htakes.ne_nil _)) (htakes.isSound_put hu _)
        hrest hothers

/-- A path that leads into a directory leads to its name there. -/
theorem LeadsTo.place_entry (h : t.LeadsTo target d) (htarget : target.IsNormal)
    (hname : IsProper target.name) :
    ∃ p, t.place .entry target.toText = .ok p ∧ p.location = d ++ [target.name] := by
  refine ⟨_, h.place_eq htarget hname (.inl rfl), ?_⟩
  unfold placeAt
  split <;> rfl

theorem Takes.place_entry (h : t.Takes target l) :
    ∃ p, t.place .entry target.toText = .ok p ∧ p.location = l := by
  obtain ⟨d, hd, -, -, -, rfl⟩ := h.leads
  exact hd.place_entry h.isNormal h.isProper

end BundleAudit.Tree
