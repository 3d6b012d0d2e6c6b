import BundleAudit.Proofs.Files.Overwriting

/-!
# BundleAudit.Proofs.Files.Replacement

**A file that is written replaces what stood there, and its temporary file is gone**
(`isReplaced_of_writeText`). So the tree differs from the one before at these two
locations only, even if something stood at the temporary file.
-/

namespace BundleAudit.Tree

variable {t t' : Tree} {target : Path} {l d : Location} {text : Text}

/-- A tree stays sound where a file is taken away. -/
theorem IsSound.remove (ht : t.IsSound) (hfree : t.IsFree l) : (t.remove l).IsSound := by
  have hne : l ≠ [] := by
    rintro rfl
    exact hfree.1 rfl
  have hsublist : (t.remove l).entries.Sublist t.entries := List.filter_sublist
  have hkeep : ∀ {other : Location}, t.entry? other = some .directory →
      entry? (t.remove l) other = some .directory := by
    intro other hother
    rw [entry?_remove hne, if_neg, hother]
    rintro rfl
    exact hfree.1 hother
  exact ⟨ht.nodup.sublist (hsublist.map _), fun e he => ht.ne_nil e (hsublist.subset he),
    fun e he => ht.names e (hsublist.subset he),
    fun e he => hkeep (ht.around e (hsublist.subset he)), hkeep ht.here⟩

/-- A tree stays sound where a file is filled and moved within a directory. -/
theorem IsSound.moved (ht : t.IsSound) (hd : t.entry? d = some .directory) {name name' : Text}
    (hname : IsEntryName name) (hname' : IsEntryName name') (hfree : t.IsFree (d ++ [name]))
    (hfree' : t.IsFree (d ++ [name'])) (bytes : Bytes) :
    (t.moved (d ++ [name]) (d ++ [name']) bytes).IsSound := by
  have hput : ∀ {u : Tree} {n : Text} (bytes : Bytes), u.IsSound ∧ u.entry? d = some .directory →
      IsEntryName n → u.IsFree (d ++ [n]) → (u.put (d ++ [n]) (.file bytes)).IsSound ∧
        entry? (u.put (d ++ [n]) (.file bytes)) d = some .directory := by
    rintro u n bytes ⟨hu, hd⟩ hn hfree
    refine ⟨hu.put_file hd hn hfree bytes, ?_⟩
    rwa [entry?_put (List.concat_ne_nil _ _), if_neg fun heq => by simp at heq]
  have hne : d ++ [name] ≠ [] := List.concat_ne_nil _ _
  have hempty := hput [] ⟨ht, hd⟩ hname hfree
  have hfilled := hput bytes hempty hname (hfree.put_file hne [])
  have hplaced := hput bytes hfilled hname' ((hfree'.put_file hne []).put_file hne bytes)
  have hnext : d ++ [name'] ≠ [] := List.concat_ne_nil _ _
  exact hplaced.1.remove (((hfree.put_file hne []).put_file hne bytes).put_file hnext bytes)

/-- The locations of a file and of its temporary file. -/
def IsWrittenAt (target : Path) (d l : Location) : Prop :=
  l = d ++ [target.name] ∨ l = d ++ [(temporaryOf target).name]

/-- A tree in which a text replaced the file at a path. -/
structure IsReplaced (t : Tree) (target : Path) (d : Location) (text : Text) (t' : Tree) :
    Prop where
  isPath : notAPath? target.toText = none
  leads : t.LeadsTo target d
  leadsTemporary : t.LeadsTo (temporaryOf target) d
  isProper : IsProper target.name
  alike : t.AlikeBut (IsWrittenAt target d) t'
  sound : t'.IsSound
  entry : t'.entry? (d ++ [target.name]) = some (.file (text.flatMap Text.utf8Code))
  temporary : t'.entry? (d ++ [(temporaryOf target).name]) = none

/-- **A text that is written replaces a file.** -/
theorem isReplaced_of_writeText (ht : t.IsSound) (htarget : target.IsNormal)
    (hway : t.Leads linkLimit (startOf t.here target.toText) target.names.dropLast d)
    (hd : t.entry? d = some .directory) (hlink : t.HasNoLinkAt target)
    (htemporary : t.HasNoLinkAt (temporaryOf target)) (h : t.writeText target text = (t', none)) :
    t.IsReplaced target d text t' := by
  have hnone : (t.writeText target text).2 = none := congrArg Prod.snd h
  obtain ⟨hpath, hleads, hleads', hmoves, hwrites⟩ :=
    movesFile_of_writeText htarget hway hd htemporary hnone
  obtain ⟨rfl, -⟩ := Prod.mk.inj (h.symm.trans (hwrites text (all_isScalar_of_writeText hnone)))
  set bytes := text.flatMap Text.utf8Code
  have hne := hmoves.ne_nil
  have hne' := hmoves.ne_nil'
  have hfree : t.IsFree (d ++ [target.name]) := ⟨hmoves.notDirectory, hlink d hleads⟩
  have hentry := entry?_moved (t := t) hne hne' bytes
  have hname := hleads.isEntryName htarget hmoves.isProper hpath
  have hname' := hleads'.isEntryName (isNormal_temporaryOf htarget hmoves.isProper.ne_nil)
    (isProper_temporaryOf target) hmoves.isPath
  refine ⟨hpath, hleads, hleads', hmoves.isProper,
    ⟨rfl, rfl, fun other hother => ?_, ?_, ?_⟩, ?_, ?_, ?_⟩
  · obtain ⟨hfile, htmp⟩ := not_or.1 hother
    rw [hentry, if_neg htmp, if_neg hfile]
  · rintro other (rfl | rfl)
    · exact hfree
    · exact hmoves.isFree
  · rintro other (rfl | rfl)
    · exact isFree_of_entry?_eq_file (by rw [hentry, if_neg hmoves.other, if_pos rfl])
    · exact isFree_of_entry?_eq_none (by rw [hentry, if_pos rfl])
  · exact ht.moved hd hname' hname hmoves.isFree hfree bytes
  · rw [hentry, if_neg hmoves.other, if_pos rfl]
  · rw [hentry, if_pos rfl]

end BundleAudit.Tree
