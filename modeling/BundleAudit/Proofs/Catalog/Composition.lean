import BundleAudit.Proofs.Catalog.Reading

/-!
# BundleAudit.Proofs.Catalog.Composition

**The lines of two catalogs, one behind the other.** Where the first lines end with a
record, and with no comment that speaks of the next entry, the entries are those of the
first catalog whose keys do not come again, and then those of the second one on their
later lines (`ofLines_append`).

The lines behind are read side by side on their own and after the others; what is read
differs by the entries from before all along (`IsBehind`).
-/

namespace BundleAudit.CatalogEntry

variable {marker : Text} {count number : Nat} {base : List CatalogEntry} {r s : Reading}

/-- An entry that stands behind a number of other lines. -/
def moveDown (count : Nat) (e : CatalogEntry) : CatalogEntry := { e with line := e.line + count }

/-- The entries that stay in front of others: those whose keys do not come again. -/
def keptBefore (es later : List CatalogEntry) : List CatalogEntry :=
  es.filter fun e => later.all fun d => d.key ≠ e.key

/-- `s` was read of some lines alone, and `r` of the same lines behind others with the entries
`base`. -/
structure IsBehind (count : Nat) (base : List CatalogEntry) (s r : Reading) : Prop where
  entries : r.entries = s.entries.map (moveDown count) ++ keptBefore base s.entries
  intentional : r.intentional = s.intentional
  position : r.position = s.position
  /-- What goes on is an entry of these lines. -/
  last : s.position = .inEntry → s.entries ≠ []

/-- Of the entries from before go those whose key is defined. -/
theorem filter_keptBefore (e : CatalogEntry) (es later : List CatalogEntry) :
    (keptBefore es later).filter (fun d => d.key ≠ e.key) =
      keptBefore es (e :: later.filter fun d => d.key ≠ e.key) := by
  rw [keptBefore, keptBefore, List.filter_filter]
  refine List.filter_congr fun d _ => ?_
  rw [Bool.eq_iff_iff]
  simp only [Bool.and_eq_true, List.all_eq_true, List.mem_cons, List.mem_filter, decide_eq_true_eq,
    forall_eq_or_imp, and_imp]
  constructor
  · rintro ⟨hne, hall⟩
    exact ⟨Ne.symm hne, fun f hf _ => hall f hf⟩
  · rintro ⟨hne, hall⟩
    -- what goes has the key of `e`, which is not that of `d`
    exact ⟨Ne.symm hne, fun f hf heq => hall f hf (fun hkey => hne (hkey.symm.trans heq)) heq⟩

theorem IsBehind.readFresh (h : IsBehind count base s r) (hfresh : s.position = .fresh)
    (number : Nat) (raw : Text) :
    IsBehind count base (readFresh marker s number raw)
      (readFresh marker r (number + count) raw) := by
  obtain ⟨hentries, hintentional, hposition, -⟩ := h
  have hlast : s.position = .inEntry → s.entries ≠ [] := fun hgoes => by
    rw [hfresh] at hgoes
    cases hgoes
  simp only [CatalogEntry.readFresh]
  split
  · exact ⟨hentries, hintentional, hposition, hlast⟩
  · split
    · exact ⟨hentries, rfl, hposition, hlast⟩
    · exact ⟨hentries, hintentional, hposition, hlast⟩
  · split
    · refine ⟨hentries, rfl, rfl, fun hgoes => ?_⟩
      dsimp only at hgoes
      split at hgoes <;> cases hgoes
    · refine ⟨?_, rfl, rfl, fun _ => List.cons_ne_nil _ _⟩
      dsimp only
      rw [hentries, hintentional, List.filter_append, List.filter_map, List.map_cons,
        List.cons_append, ← filter_keptBefore]
      rfl

theorem IsBehind.readLine (h : IsBehind count base s r) (number : Nat) (line : Text) :
    IsBehind count base (readLine marker s number line)
      (readLine marker r (number + count) line) := by
  unfold CatalogEntry.readLine
  rw [h.position]
  cases hposition : s.position with
  | fresh => exact h.readFresh hposition number _
  | inMalformed =>
      refine ⟨h.entries, h.intentional, rfl, fun hgoes => ?_⟩
      dsimp only at hgoes
      split at hgoes <;> cases hgoes
  | inEntry =>
      -- the entry that goes on is the last one of both
      obtain ⟨e, rest, hs⟩ := List.exists_cons_of_ne_nil (h.last hposition)
      have hentries := h.entries
      rw [hs] at hentries
      refine ⟨?_, h.intentional, rfl, fun _ => ?_⟩
      · dsimp only
        rw [hentries, hs]
        rfl
      · dsimp only
        rw [hs]
        exact List.cons_ne_nil _ _

/-- **Lines behind others are read as on their own.** -/
theorem IsBehind.readLines (h : IsBehind count base s r) (number : Nat) (lines : List Text) :
    IsBehind count base (readLines marker s number lines)
      (readLines marker r (number + count) lines) := by
  induction lines generalizing s r number with
  | nil => exact h
  | cons line rest ih =>
      rw [CatalogEntry.readLines, CatalogEntry.readLines, Nat.add_right_comm]
      exact ih (h.readLine number line) (number + 1)

/-- **The catalog of lines behind others** has the entries of the first lines whose keys do not come
again, and then those of the second lines. -/
theorem ofLines_append {xs : List Text} (hposition : (readLines marker {} 1 xs).position = .fresh)
    (hintentional : (readLines marker {} 1 xs).intentional = false) (ys : List Text) :
    (ofLines marker (xs ++ ys)).1 =
      keptBefore (ofLines marker xs).1 (ofLines marker ys).1 ++
        (ofLines marker ys).1.map (moveDown xs.length) := by
  have hstart :
      IsBehind xs.length (readLines marker {} 1 xs).entries {} (readLines marker {} 1 xs) :=
    ⟨(List.filter_eq_self.2 fun _ _ => rfl).symm, hintentional, hposition, nofun⟩
  have hbehind : IsBehind xs.length (readLines marker {} 1 xs).entries (readLines marker {} 1 ys)
      (readLines marker (readLines marker {} 1 xs) (1 + xs.length) ys) := hstart.readLines 1 ys
  have hentries := hbehind.entries
  rw [ofLines, ofLines, ofLines]
  dsimp only
  rw [readLines_append, hentries, List.reverse_append, List.map_reverse, keptBefore, keptBefore,
    List.filter_reverse]
  simp only [List.all_reverse]

end BundleAudit.CatalogEntry
