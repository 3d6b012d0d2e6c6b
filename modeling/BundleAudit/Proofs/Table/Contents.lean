import BundleAudit.Proofs.KeyedList
import BundleAudit.Proofs.Table.Rows
import Mathlib.Data.List.Dedup
import Mathlib.Data.List.Induction

/-!
# BundleAudit.Proofs.Table.Contents

**What is in a table.** The rows of a table are set one after the other, so the text of an
address (a module, a package and a key) is that of the last row which holds one
(`find?_foldl_addRow`), and there are as many texts as such rows have addresses
(`size_foldl_addRow`). A table is tidy all along: each name stands once on its level,
and no package is empty (`IsTidy`). So what a table says is said by its texts alone.

Rows make up a table just if each has five cells; else the first one that has not is
refused (`readRows_eq_error_iff`).
-/

namespace BundleAudit

/-! ### Nested lists -/

namespace KeyedList

variable {κ α β : Type}

/-- The keys with what is made of their values. -/
def pairsBy (f : α → List β) (m : KeyedList κ α) : List (κ × β) :=
  m.flatMap fun p => (f p.2).map (p.1, ·)

theorem nodup_pairsBy {f : α → List β} {m : KeyedList κ α} (h : m.keys.Nodup)
    (hf : ∀ p ∈ m, (f p.2).Nodup) : (pairsBy f m).Nodup := by
  refine List.nodup_flatMap.2 ⟨fun p hp => (hf p hp).map fun a b hab => (Prod.mk.inj hab).2, ?_⟩
  refine (List.pairwise_map.1 h).imp fun {p q} hne => ?_
  intro x hx hy
  obtain ⟨b, -, rfl⟩ := List.mem_map.1 hx
  obtain ⟨c, -, heq⟩ := List.mem_map.1 hy
  exact hne (Prod.mk.inj heq).1.symm

theorem foldl_length_eq (f : α → List β) (n : Nat) (m : KeyedList κ α) :
    m.foldl (fun n p => n + (f p.2).length) n = n + (pairsBy f m).length := by
  induction m generalizing n with
  | nil => rfl
  | cons p rest ih =>
      rw [List.foldl_cons, ih, pairsBy, pairsBy, List.flatMap_cons, List.length_append,
        List.length_map, Nat.add_assoc]

/-- Each key stands once, and its value has a property. -/
structure IsTidy (P : α → Prop) (m : KeyedList κ α) : Prop where
  keys : m.keys.Nodup
  values : ∀ p ∈ m, P p.2

variable [DecidableEq κ]

theorem get?_alter (key other : κ) (default : α) (f : α → α) (m : KeyedList κ α) :
    (m.alter key default f).get? other =
      if other = key then some (f ((m.get? key).getD default)) else m.get? other := by
  rw [alter, get?_set]

theorem mem_pairsBy_iff {f : α → List β} {m : KeyedList κ α} (h : m.keys.Nodup) {key : κ} {b : β} :
    (key, b) ∈ pairsBy f m ↔ ∃ a, m.get? key = some a ∧ b ∈ f a := by
  constructor
  · intro hmem
    obtain ⟨p, hp, hb⟩ := List.mem_flatMap.1 hmem
    obtain ⟨c, hc, heq⟩ := List.mem_map.1 hb
    obtain ⟨rfl, rfl⟩ := Prod.mk.inj heq
    exact ⟨p.2, get?_eq_some h hp, hc⟩
  · rintro ⟨a, hget, hb⟩
    exact List.mem_flatMap.2 ⟨_, mem_of_get?_eq_some hget, List.mem_map_of_mem hb⟩

/-- A list stays tidy if what a key gets has the property. -/
theorem IsTidy.alter {P : α → Prop} {m : KeyedList κ α} {default : α} {f : α → α}
    (h : m.IsTidy P) (hf : ∀ a, a = default ∨ P a → P (f a)) (key : κ) :
    (m.alter key default f).IsTidy P where
  keys := nodup_keys_set h.keys
  values := by
    intro p hp
    rcases mem_of_mem_set hp with rfl | hp
    · refine hf _ ?_
      cases hget : m.get? key with
      | none => exact .inl rfl
      | some a => exact .inr (h.values _ (mem_of_get?_eq_some hget))
    · exact h.values p hp

theorem isSome_get?_iff {key : κ} {m : KeyedList κ α} :
    (m.get? key).isSome = true ↔ key ∈ m.keys := by
  cases hget : m.get? key with
  | none => simp [not_mem_keys_of_get?_eq_none hget]
  | some a =>
      simp only [Option.isSome_some, true_iff]
      exact List.mem_map_of_mem (mem_of_get?_eq_some hget)

theorem set_ne_nil (key : κ) (value : α) (m : KeyedList κ α) : m.set key value ≠ [] := by
  intro h
  have hget := get?_set_self key value m
  rw [h] at hget
  cases hget

end KeyedList

/-! ### Rows -/

namespace TableRow

/-- What a row speaks of. -/
def address (r : TableRow) : Text × Text × Text := (r.module, r.package, r.key)

theorem ofCells?_eq_some_iff {cells : List Text} {r : TableRow} :
    ofCells? cells = some r ↔ cells = r.cells := by
  constructor
  · intro h
    unfold ofCells? at h
    split at h
    · cases h
      rfl
    · cases h
  · rintro rfl
    rfl

theorem ofCells?_eq_none_iff {cells : List Text} :
    ofCells? cells = none ↔ cells.length ≠ width := by
  unfold ofCells?
  split
  · simp [width]
  · next h =>
      refine ⟨fun _ hlength => ?_, fun _ => rfl⟩
      match cells, hlength with
      | [a, b, c, d, e], _ => exact h a b c d e rfl

/-- A row holds a text, unless it heads a table or leaves a text untranslated. -/
def HoldsText (r : TableRow) : Prop :=
  r ≠ header ∧ ¬(r.translated.isBlank = true ∧ r.primary.isBlank = false)

instance (r : TableRow) : Decidable r.HoldsText :=
  inferInstanceAs (Decidable (_ ∧ ¬(_ ∧ _)))

theorem isKept_iff {r : TableRow} : r.isKept = true ↔ r.HoldsText := by
  rw [isKept, Bool.and_eq_true, bne_iff_ne, HoldsText]
  cases r.translated.isBlank <;> cases r.primary.isBlank <;> simp

theorem isKept_eq (r : TableRow) : r.isKept = decide r.HoldsText :=
  Bool.eq_iff_iff.2 (isKept_iff.trans decide_eq_true_iff.symm)

/-- Cells of which there are as many as a row has are those of a row. -/
theorem exists_map_cells {lists : List (List Text)} (h : ∀ cells ∈ lists, cells.length = width) :
    ∃ rows : List TableRow, lists = rows.map (·.cells) := by
  induction lists with
  | nil => exact ⟨[], rfl⟩
  | cons cells rest ih =>
      obtain ⟨hcells, hrest⟩ := List.forall_mem_cons.1 h
      obtain ⟨rows, rfl⟩ := ih hrest
      cases hrow : ofCells? cells with
      | none => exact absurd hcells (ofCells?_eq_none_iff.1 hrow)
      | some r => exact ⟨r :: rows, by rw [List.map_cons, ofCells?_eq_some_iff.1 hrow]⟩

end TableRow

namespace Table

variable {source : Text} {number : Nat} {t : Table} {rows : List TableRow}

/-! ### Cells -/

/-- Rows that are read are the cells of rows. -/
theorem length_of_readRows {lists : List (List Text)} {t' : Table}
    (h : readRows source number t lists = .ok t') :
    ∀ cells ∈ lists, cells.length = TableRow.width := by
  induction lists generalizing number t with
  | nil => exact nofun
  | cons row rest ih =>
      rw [readRows] at h
      split at h
      · cases h
      · next r hrow =>
          refine List.forall_mem_cons.2 ⟨?_, ih h⟩
          rw [TableRow.ofCells?_eq_some_iff.1 hrow]
          rfl

/-- **Rows are refused at the first one with another number of cells.** -/
theorem readRows_eq_error_iff {lists : List (List Text)} {f : Failure} :
    readRows source number t lists = .error f ↔
      ∃ before cells after, lists = before ++ cells :: after ∧
        (∀ row ∈ before, row.length = TableRow.width) ∧ cells.length ≠ TableRow.width ∧
        f = .wrongColumns source (number + before.length) TableRow.width cells := by
  induction lists generalizing number t with
  | nil => simp [readRows]
  | cons row rest ih =>
      rw [readRows]
      cases hrow : TableRow.ofCells? row with
      | none =>
          have hlength := TableRow.ofCells?_eq_none_iff.1 hrow
          constructor
          · intro h
            exact ⟨[], row, rest, rfl, nofun, hlength, (Except.error.inj h).symm⟩
          · rintro ⟨before, cells, after, heq, hbefore, -, rfl⟩
            cases before with
            | nil =>
                obtain ⟨rfl, -⟩ := List.cons.inj heq
                rfl
            | cons first more =>
                obtain ⟨rfl, -⟩ := List.cons.inj heq
                exact absurd (hbefore _ List.mem_cons_self) hlength
      | some r =>
          have hlength : row.length = TableRow.width := by
            rw [TableRow.ofCells?_eq_some_iff.1 hrow]
            rfl
          refine ih.trans ?_
          constructor
          · rintro ⟨before, cells, after, rfl, hbefore, hcells, rfl⟩
            refine ⟨row :: before, cells, after, rfl, ?_, hcells, ?_⟩
            · exact List.forall_mem_cons.2 ⟨hlength, hbefore⟩
            · rw [List.length_cons, Nat.add_right_comm, Nat.add_assoc]
          · rintro ⟨before, cells, after, heq, hbefore, hcells, rfl⟩
            cases before with
            | nil =>
                obtain ⟨rfl, -⟩ := List.cons.inj heq
                exact absurd hlength hcells
            | cons first more =>
                obtain ⟨rfl, rfl⟩ := List.cons.inj heq
                refine ⟨more, cells, after, rfl, (List.forall_mem_cons.1 hbefore).2, hcells, ?_⟩
                rw [List.length_cons, Nat.add_right_comm, Nat.add_assoc]

/-! ### Texts -/

/-- The text that rows hold for an address: that of the last one. -/
def lastText? (rows : List TableRow) (address : Text × Text × Text) : Option Text :=
  ((rows.filter fun r => r.isKept && r.address = address).getLast?).map (·.translated.decodeEscapes)

theorem lastText?_eq_some_iff {address : Text × Text × Text} {text : Text} :
    lastText? rows address = some text ↔
      ∃ before r after, rows = before ++ r :: after ∧ r.isKept = true ∧ r.address = address ∧
        (∀ later ∈ after, later.isKept = true → later.address ≠ address) ∧
        r.translated.decodeEscapes = text := by
  simp only [lastText?, Option.map_eq_some_iff, List.getLast?_eq_some_iff]
  constructor
  · rintro ⟨r, ⟨earlier, hfilter⟩, rfl⟩
    obtain ⟨before, rest, rfl, -, hrest⟩ := List.filter_eq_append_iff.1 hfilter
    obtain ⟨others, after, rfl, -, hr, hafter⟩ := List.filter_eq_cons_iff.1 hrest
    rw [Bool.and_eq_true, decide_eq_true_iff] at hr
    refine ⟨before ++ others, r, after, (List.append_assoc ..).symm, hr.1, hr.2, ?_, rfl⟩
    intro later hlater hkept haddress
    refine List.filter_eq_nil_iff.1 hafter later hlater ?_
    rw [hkept, Bool.true_and, decide_eq_true haddress]
  · rintro ⟨before, r, after, rfl, hkept, haddress, hafter, rfl⟩
    refine ⟨r, ⟨before.filter fun r => r.isKept && r.address = address, ?_⟩, rfl⟩
    have hnone : after.filter (fun r => r.isKept && r.address = address) = [] := by
      refine List.filter_eq_nil_iff.2 fun later hlater h => ?_
      rw [Bool.and_eq_true, decide_eq_true_iff] at h
      exact hafter later hlater h.1 h.2
    rw [List.filter_append, List.filter_cons_of_pos (by rw [hkept, decide_eq_true haddress]; rfl),
      hnone]

theorem isSome_lastText?_iff {address : Text × Text × Text} :
    (lastText? rows address).isSome = true ↔
      ∃ r ∈ rows, r.isKept = true ∧ r.address = address := by
  rw [lastText?, Option.isSome_map, List.getLast?_isSome, Ne, List.filter_eq_nil_iff]
  simp

theorem lastText?_concat (r : TableRow) (address : Text × Text × Text) :
    lastText? (rows ++ [r]) address =
      if r.isKept = true ∧ r.address = address then some r.translated.decodeEscapes
      else lastText? rows address := by
  rw [lastText?, List.filter_append]
  split
  · next h => simp [h]
  · next h =>
      have hnone : [r].filter (fun r => r.isKept && r.address = address) = [] := by
        simpa using h
      rw [hnone, List.append_nil, lastText?]

theorem find?_add (module package key text : Text) (address : Text × Text × Text) (t : Table) :
    (t.add module package key text).find? address.1 address.2.1 address.2.2 =
      if (module, package, key) = address then some text
      else t.find? address.1 address.2.1 address.2.2 := by
  obtain ⟨module', package', key'⟩ := address
  unfold find? forModule add
  rw [KeyedList.get?_alter]
  by_cases hmodule : module' = module
  · rw [if_pos hmodule, Option.getD_some, KeyedList.get?_alter, hmodule]
    by_cases hpackage : package' = package
    · rw [if_pos hpackage, Option.bind_some, KeyedList.get?_set, hpackage]
      by_cases hkey : key' = key
      · rw [if_pos hkey, if_pos (by rw [hkey])]
      · rw [if_neg hkey, if_neg (by simp [Ne.symm hkey])]
        cases KeyedList.get? package ((KeyedList.get? module t).getD []) <;> rfl
    · rw [if_neg hpackage, if_neg (by simp [Ne.symm hpackage])]
  · rw [if_neg hmodule, if_neg (by simp [Ne.symm hmodule])]

/-- **The text of an address is that of the last row which holds one.** -/
theorem find?_foldl_addRow (rows : List TableRow) (module package key : Text) :
    (rows.foldl addRow []).find? module package key = lastText? rows (module, package, key) := by
  induction rows using List.reverseRecOn with
  | nil => rfl
  | append_singleton rows r ih =>
      rw [List.foldl_append, List.foldl_cons, List.foldl_nil, lastText?_concat, addRow]
      by_cases hkept : r.isKept = true
      · rw [if_pos hkept, find?_add _ _ _ _ (module, package, key), ih]
        simp only [hkept, true_and]
        rfl
      · rw [if_neg hkept, if_neg (fun h => hkept h.1), ih]

/-! ### Addresses -/

/-- Each name stands once on its level, and no package is empty. -/
def IsTidy (t : Table) : Prop :=
  KeyedList.IsTidy (KeyedList.IsTidy fun keys => keys ≠ [] ∧ (KeyedList.keys keys).Nodup) t

theorem isTidy_nil : IsTidy [] := ⟨List.nodup_nil, nofun⟩

theorem IsTidy.add (h : t.IsTidy) (module package key text : Text) :
    (t.add module package key text).IsTidy := by
  refine KeyedList.IsTidy.alter h (fun packages hpackages => ?_) module
  refine KeyedList.IsTidy.alter ?_ (fun keys hkeys =>
    ⟨KeyedList.set_ne_nil key text keys, ?_⟩) package
  · rcases hpackages with rfl | hpackages
    · exact ⟨List.nodup_nil, nofun⟩
    · exact hpackages
  · refine KeyedList.nodup_keys_set ?_
    rcases hkeys with rfl | hkeys
    · exact List.nodup_nil
    · exact hkeys.2

theorem isTidy_foldl_addRow (h : t.IsTidy) (rows : List TableRow) :
    (rows.foldl addRow t).IsTidy := by
  induction rows generalizing t with
  | nil => exact h
  | cons r rest ih =>
      refine ih ?_
      rw [addRow]
      split
      · exact h.add _ _ _ _
      · exact h

/-- What there are texts for: modules, packages and keys. -/
def addresses (t : Table) : List (Text × Text × Text) :=
  KeyedList.pairsBy (KeyedList.pairsBy KeyedList.keys) t

theorem IsTidy.forModule (h : t.IsTidy) (module : Text) :
    (t.forModule module).IsTidy fun keys => keys ≠ [] ∧ (KeyedList.keys keys).Nodup := by
  unfold Table.forModule
  cases hget : KeyedList.get? module t with
  | none => exact ⟨List.nodup_nil, nofun⟩
  | some packages => exact h.values _ (KeyedList.mem_of_get?_eq_some hget)

theorem IsTidy.of_package? (h : t.IsTidy) {module package : Text} {keys : KeyedList Text Text}
    (hkeys : t.package? module package = some keys) : keys ≠ [] ∧ keys.keys.Nodup :=
  (h.forModule module).values _ (KeyedList.mem_of_get?_eq_some hkeys)

theorem IsTidy.nodup_addresses (h : t.IsTidy) : t.addresses.Nodup :=
  KeyedList.nodup_pairsBy h.keys fun m hm =>
    KeyedList.nodup_pairsBy (h.values m hm).keys fun p hp => ((h.values m hm).values p hp).2

theorem length_addresses (t : Table) : t.addresses.length = t.size := by
  have hpackages : ∀ (n : Nat) (packages : KeyedList Text (KeyedList Text Text)),
      packages.foldl (fun n p => n + p.2.length) n =
        n + (KeyedList.pairsBy KeyedList.keys packages).length := by
    intro n packages
    rw [← KeyedList.foldl_length_eq]
    simp only [KeyedList.keys, List.length_map]
  have hsize : t.size = t.foldl (fun n m => m.2.foldl (fun n p => n + p.2.length) n) 0 := rfl
  rw [hsize, addresses]
  simp only [hpackages]
  rw [KeyedList.foldl_length_eq, Nat.zero_add]

/-- A package has texts if there are any keys for it. -/
theorem isSome_find?_iff {module package key : Text} :
    (t.find? module package key).isSome = true ↔
      ∃ keys, t.package? module package = some keys ∧ key ∈ KeyedList.keys keys := by
  rw [find?, ← package?]
  cases t.package? module package with
  | none => simp
  | some keys => simp [KeyedList.isSome_get?_iff]

theorem IsTidy.mem_addresses_iff (h : t.IsTidy) {module package key : Text} :
    (module, package, key) ∈ t.addresses ↔ (t.find? module package key).isSome = true := by
  rw [addresses, KeyedList.mem_pairsBy_iff (KeyedList.IsTidy.keys h), isSome_find?_iff]
  unfold package? Table.forModule
  cases hget : KeyedList.get? module t with
  | none => simp [KeyedList.get?]
  | some packages =>
      have hkeys : packages.keys.Nodup :=
        (h.values _ (KeyedList.mem_of_get?_eq_some hget)).keys
      rw [Option.getD_some, ← KeyedList.mem_pairsBy_iff hkeys]
      simp only [Option.some.injEq, exists_eq_left']

/-- **There are as many texts as the rows that hold one have addresses.** -/
theorem size_foldl_addRow (rows : List TableRow) :
    (rows.foldl addRow []).size =
      ((rows.filter (·.isKept)).map (·.address)).dedup.length := by
  have htidy := isTidy_foldl_addRow isTidy_nil rows
  rw [← length_addresses]
  refine List.Perm.length_eq ((List.perm_ext_iff_of_nodup htidy.nodup_addresses
    (List.nodup_dedup _)).2 fun ⟨module, package, key⟩ => ?_)
  rw [htidy.mem_addresses_iff, find?_foldl_addRow, isSome_lastText?_iff, List.mem_dedup,
    List.mem_map]
  simp only [List.mem_filter, and_assoc]

/-! ### A table and its rows -/

/-- A table holds what rows say. -/
structure Says (rows : List TableRow) (t : Table) : Prop where
  /-- The text of an address is that of the last row which holds one. -/
  text_iff : ∀ module package key text, t.find? module package key = some text ↔
    ∃ before r after, rows = before ++ r :: after ∧
      r.HoldsText ∧ r.address = (module, package, key) ∧
      (∀ later ∈ after, later.HoldsText → later.address ≠ (module, package, key)) ∧
      r.translated.decodeEscapes = text
  none_iff : ∀ module package key, t.find? module package key = none ↔
    ∀ r ∈ rows, r.HoldsText → r.address ≠ (module, package, key)
  /-- There are as many texts as addresses. -/
  size_eq : t.size = ((rows.filter fun r => r.HoldsText).map (·.address)).dedup.length

theorem says_foldl_addRow (rows : List TableRow) : Says rows (rows.foldl addRow []) where
  text_iff module package key text := by
    rw [find?_foldl_addRow, lastText?_eq_some_iff]
    simp only [TableRow.isKept_iff]
  none_iff module package key := by
    rw [find?_foldl_addRow, ← Option.not_isSome_iff_eq_none, isSome_lastText?_iff]
    simp only [TableRow.isKept_iff, not_exists, not_and, Ne]
  size_eq := by
    rw [size_foldl_addRow]
    simp only [TableRow.isKept_eq]

/-- What becomes of rows of cells: a table, or a failure at the first row that is none. -/
structure IsExact (source : Text) (lists : List (List Text)) : Prop where
  refused_iff : (∃ f, ofRows source lists = .error f) ↔ ∃ cells ∈ lists, cells.length ≠ 5
  /-- The failure names the first row with another number of cells. -/
  refused : ∀ f, ofRows source lists = .error f →
    ∃ before cells after, lists = before ++ cells :: after ∧ (∀ row ∈ before, row.length = 5) ∧
      cells.length ≠ 5 ∧ f = .wrongColumns source (before.length + 1) 5 cells ∧
      (source ++ ":" ++ Text.ofNat (before.length + 1) ++ ":" : Text) <+: f.message
  /-- The table holds what all rows say. -/
  accepted : (∀ cells ∈ lists, cells.length = 5) →
    ∃ (rows : List TableRow) (t : Table), lists = rows.map (·.cells) ∧
      ofRows source lists = .ok t ∧ t.Says rows

/-- Rows are either refused at the first one with another number of cells, or the table holds what
all of them say. -/
theorem isExact (source : Text) (lists : List (List Text)) : IsExact source lists := by
  have haccepted : (∀ cells ∈ lists, cells.length = 5) →
      ∃ (rows : List TableRow) (t : Table), lists = rows.map (·.cells) ∧
        ofRows source lists = .ok t ∧ t.Says rows := by
    intro h
    obtain ⟨rows, rfl⟩ := TableRow.exists_map_cells h
    exact ⟨rows, _, rfl, readRows_cells source 1 [] rows, says_foldl_addRow rows⟩
  refine ⟨⟨fun ⟨f, hf⟩ => ?_, fun ⟨cells, hmem, hcells⟩ => ?_⟩, fun f hf => ?_, haccepted⟩
  · by_contra hnone
    push Not at hnone
    obtain ⟨rows, t, -, ht, -⟩ := haccepted hnone
    rw [hf] at ht
    cases ht
  · cases hof : ofRows source lists with
    | error f => exact ⟨f, rfl⟩
    | ok t => exact absurd (length_of_readRows hof cells hmem) hcells
  · obtain ⟨before, cells, after, hlists, hbefore, hcells, rfl⟩ := readRows_eq_error_iff.1 hf
    rw [Nat.add_comm]
    refine ⟨before, cells, after, hlists, hbefore, hcells, rfl, ?_⟩
    refine ⟨" row has wrong number of values (" ++ Text.ofNat cells.length ++ " instead of "
      ++ Text.ofNat TableRow.width ++ "): " ++ Text.quotedList cells, ?_⟩
    simp only [Failure.message, List.append_assoc]
    rfl

end Table

end BundleAudit
