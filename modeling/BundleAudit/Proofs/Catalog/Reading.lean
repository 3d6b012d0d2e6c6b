import BundleAudit.Proofs.Text.Blank
import BundleAudit.Proofs.Text.Weight
import Mathlib.Data.List.Flatten

/-!
# BundleAudit.Proofs.Catalog.Reading

**What reading a catalog can add.** A line that begins a record adds one entry, whose key
and value are parts of the line, or none (`entries_readFresh`); a continuation adds a
part of the line to a value. So the keys of a catalog are distinct and can be written
in front of an equals sign again, the entries hold no code points but those of the
lines, and they weigh no more.
-/

namespace BundleAudit.CatalogEntry

/-- A text that can be the key of an entry. -/
structure IsKey (key : Text) : Prop where
  ne_nil : key ≠ []
  trim : key.trim = key
  noEquals : Code.equals ∉ key
  noHash : key.head? ≠ some Code.hash
  isLine : key.isLine = true

/-- The key and the value of an entry. -/
def pair (e : CatalogEntry) : Text × Text := (e.key, e.value)

/-- The line of a key and a value. -/
def lineOf (p : Text × Text) : Text := p.1 ++ Code.equals :: p.2

/-- The weight of entries. -/
def load (es : List CatalogEntry) : Nat := Text.weight (es.flatMap fun e => lineOf e.pair)

/-! ### Lines -/

theorem readLines_append (marker : Text) (r : Reading) (number : Nat) (a b : List Text) :
    readLines marker r number (a ++ b) =
      readLines marker (readLines marker r number a) (number + a.length) b := by
  induction a generalizing r number with
  | nil => rfl
  | cons line rest ih =>
      rw [List.cons_append, readLines, ih, readLines, List.length_cons, Nat.add_assoc,
        Nat.add_comm 1]

/-- A line that begins a record adds no entry, or one in place of those with its key. -/
theorem entries_readFresh (marker : Text) (r : Reading) (number : Nat) (raw : Text) :
    (readFresh marker r number raw).entries = r.entries ∨
    ∃ e before after, raw.trim = before ++ Code.equals :: after ∧ before ≠ [] ∧
      Code.equals ∉ before ∧ raw.trim.head? ≠ some Code.hash ∧ e.key = before.trim ∧
      e.value.Sublist after ∧
      (readFresh marker r number raw).entries = e :: r.entries.filter fun d => d.key ≠ e.key := by
  simp only [readFresh]
  split
  · exact .inl rfl
  · split <;> exact .inl rfl
  · next hnil hhash =>
      split
      · exact .inl rfl
      · next key value hsplit =>
          have hhead : raw.trim.head? ≠ some Code.hash := by
            cases hline : raw.trim with
            | nil => nofun
            | cons c rest =>
                intro hc
                exact hhash rest (by rw [hline, Option.some.inj hc])
          rw [split?] at hsplit
          split at hsplit
          · next before after hcut =>
              obtain ⟨hline, hequals⟩ := Text.of_cut?_eq_some hcut
              split at hsplit
              · cases hsplit
              · next hbefore =>
                  obtain ⟨rfl, rfl⟩ := Prod.mk.inj (Option.some.inj hsplit)
                  refine .inr ⟨_, before, after, hline, ?_, hequals, hhead, rfl, ?_, rfl⟩
                  · exact fun h => hbefore (List.isEmpty_iff.2 h)
                  · show (ite _ _ _ : Text).Sublist after
                    split
                    · exact Text.dropContinuation_sublist after
                    · exact List.Sublist.refl after
          · cases hsplit

/-! ### Keys -/

/-- A line without carriage returns and line feeds at its end. -/
def withoutEnd (line : Text) : Text :=
  line.dropTrailing fun c => c == Code.carriageReturn || c == Code.lineFeed

/-- A key that a line can define: what stands before its first equals sign, but for blanks. -/
def DefinesKey (line key : Text) : Prop :=
  ∃ before after, (withoutEnd line).trim = before ++ Code.equals :: after ∧ before ≠ [] ∧
    Code.equals ∉ before ∧ (withoutEnd line).trim.head? ≠ some Code.hash ∧ key = before.trim

theorem DefinesKey.equals_not_mem {line key : Text} (h : DefinesKey line key) :
    Code.equals ∉ key := by
  obtain ⟨before, -, -, -, hequals, -, rfl⟩ := h
  exact fun hmem => hequals ((Text.trim_sublist before).subset hmem)

theorem DefinesKey.isKey {line key : Text} (h : DefinesKey line key) (hline : line.isLine = true) :
    IsKey key := by
  have hequals := h.equals_not_mem
  obtain ⟨before, after, htrim, hbefore, -, hhash, rfl⟩ := h
  have hmem : ∀ c ∈ before.trim, c ∈ line := fun c hc =>
    ((Text.trim_sublist _).trans (Text.dropTrailing_sublist line)).subset
      (htrim ▸ List.mem_append_left _ ((Text.trim_sublist before).subset hc))
  -- the key begins with the first character of the line, which is no blank
  obtain ⟨c, rest, rfl⟩ := List.exists_cons_of_ne_nil hbefore
  have hc : c.isBlank = false := by
    rcases Text.trim_cases (withoutEnd line) with h | ⟨d, more, hd, h⟩
    · rw [h] at htrim
      cases htrim
    · rw [h] at htrim
      obtain ⟨rfl, -⟩ := List.cons.inj htrim
      exact hd
  have hkey : Text.trim (c :: rest) = c :: Text.trimRight rest := Text.trim_cons hc rest
  constructor
  case ne_nil =>
      rw [hkey]
      exact List.cons_ne_nil _ _
  case trim => exact Text.trim_trim _
  case noEquals => exact hequals
  case noHash =>
      rw [hkey]
      rw [htrim] at hhash
      exact hhash
  case isLine => exact List.all_eq_true.2 fun d hd => List.all_eq_true.1 hline d (hmem d hd)

theorem keys_extendLast (text : Text) (es : List CatalogEntry) :
    (extendLast text es).map (·.key) = es.map (·.key) := by
  cases es <;> rfl

theorem nodup_readLine (marker : Text) {r : Reading} (number : Nat) (line : Text)
    (h : (r.entries.map (·.key)).Nodup) :
    ((readLine marker r number line).entries.map (·.key)).Nodup := by
  unfold readLine
  cases r.position with
  | fresh =>
      show ((readFresh marker r number (withoutEnd line)).entries.map (·.key)).Nodup
      rcases entries_readFresh marker r number (withoutEnd line) with
        heq | ⟨e, -, -, -, -, -, -, -, -, heq⟩
      · rw [heq]
        exact h
      · rw [heq, List.map_cons, List.nodup_cons]
        refine ⟨fun hmem => ?_, h.sublist (List.filter_sublist.map _)⟩
        obtain ⟨d, hd, hdkey⟩ := List.mem_map.1 hmem
        exact of_decide_eq_true (List.mem_filter.1 hd).2 hdkey
  | inEntry =>
      rw [keys_extendLast]
      exact h
  | inMalformed => exact h

/-- The keys that are read are distinct. -/
theorem nodup_readLines (marker : Text) {r : Reading} (number : Nat) (lines : List Text)
    (h : (r.entries.map (·.key)).Nodup) :
    ((readLines marker r number lines).entries.map (·.key)).Nodup := by
  induction lines generalizing r number with
  | nil => exact h
  | cons line rest ih => exact ih (number + 1) (nodup_readLine marker number line h)

theorem key_of_mem_readLine {marker : Text} {r : Reading} {number : Nat} {line key : Text}
    (h : key ∈ (readLine marker r number line).entries.map (·.key)) :
    key ∈ r.entries.map (·.key) ∨ DefinesKey line key := by
  unfold readLine at h
  cases hr : r.position with
  | fresh =>
      simp only [hr] at h
      change key ∈ (readFresh marker r number (withoutEnd line)).entries.map (·.key) at h
      rcases entries_readFresh marker r number (withoutEnd line) with
        heq | ⟨e, before, after, htrim, hbefore, hequals, hhash, hkey, -, heq⟩
      · rw [heq] at h
        exact .inl h
      · rw [heq] at h
        rcases List.mem_cons.1 h with rfl | h
        · exact .inr ⟨before, after, htrim, hbefore, hequals, hhash, hkey⟩
        · exact .inl ((List.filter_sublist.map _).subset h)
  | inEntry =>
      simp only [hr, keys_extendLast] at h
      exact .inl h
  | inMalformed =>
      simp only [hr] at h
      exact .inl h

/-- A key that is read was there, or a line defines it. -/
theorem key_of_mem_readLines {marker : Text} {r : Reading} {number : Nat} {lines : List Text}
    {key : Text} (h : key ∈ (readLines marker r number lines).entries.map (·.key)) :
    key ∈ r.entries.map (·.key) ∨ ∃ line ∈ lines, DefinesKey line key := by
  induction lines generalizing r number with
  | nil => exact .inl h
  | cons line rest ih =>
      rcases ih h with h | ⟨l, hl, hkey⟩
      · exact (key_of_mem_readLine h).imp_right fun hkey => ⟨line, List.mem_cons_self, hkey⟩
      · exact .inr ⟨l, List.mem_cons_of_mem _ hl, hkey⟩

/-! ### Catalogs -/

theorem nodup_keys_ofLines (marker : Text) (lines : List Text) :
    ((ofLines marker lines).1.map (·.key)).Nodup := by
  rw [ofLines, List.map_reverse]
  exact (List.reverse_perm _).nodup_iff.2 (nodup_readLines marker 1 lines List.nodup_nil)

/-- Each key of a catalog is defined by one of its lines. -/
theorem exists_definesKey {marker : Text} {lines : List Text} {e : CatalogEntry}
    (h : e ∈ (ofLines marker lines).1) : ∃ line ∈ lines, DefinesKey line e.key := by
  have hkey := List.mem_map_of_mem (f := (·.key)) (List.mem_reverse.1 h)
  exact (key_of_mem_readLines hkey).resolve_left List.not_mem_nil

/-- What holds of the keys of entries: they are distinct, and each can be a key. -/
structure HaveKeys (es : List CatalogEntry) : Prop where
  nodup : (es.map (·.key)).Nodup
  isKey : ∀ e ∈ es, IsKey e.key

/-- The keys of a catalog file are distinct, and each can be the key of a line again. -/
theorem haveKeys_ofLines (marker : Text) (bytes : Bytes) :
    HaveKeys (ofLines marker (Text.linesOfBytes bytes)).1 := by
  refine ⟨nodup_keys_ofLines marker _, fun e he => ?_⟩
  obtain ⟨line, hline, hkey⟩ := exists_definesKey he
  exact hkey.isKey (Text.isLine_of_mem_lines hline)

/-! ### Code points -/

section

variable {P : Code → Prop}

/-- What holds of all code points of an entry. -/
def Holds (P : Code → Prop) (e : CatalogEntry) : Prop := (∀ c ∈ e.key, P c) ∧ ∀ c ∈ e.value, P c

theorem holds_readFresh (marker : Text) {r : Reading} (number : Nat) {raw : Text}
    (hr : ∀ e ∈ r.entries, e.Holds P) (hraw : ∀ c ∈ raw, P c) :
    ∀ e ∈ (readFresh marker r number raw).entries, e.Holds P := by
  rcases entries_readFresh marker r number raw with
    heq | ⟨e, before, after, htrim, -, -, -, hkey, hvalue, heq⟩
  · rwa [heq]
  · have hline : ∀ c ∈ before ++ Code.equals :: after, P c := fun c hc =>
      hraw c ((Text.trim_sublist raw).subset (htrim ▸ hc))
    rw [heq]
    refine List.forall_mem_cons.2 ⟨⟨fun c hc => ?_, fun c hc => ?_⟩, fun d hd => ?_⟩
    · exact hline c (List.mem_append_left _ ((Text.trim_sublist before).subset (hkey ▸ hc)))
    · exact hline c (List.mem_append_right _ (List.mem_cons_of_mem _ (hvalue.subset hc)))
    · exact hr d (List.mem_filter.1 hd).1

theorem holds_readLine (marker : Text) {r : Reading} (number : Nat) {line : Text}
    (hr : ∀ e ∈ r.entries, e.Holds P) (hline : ∀ c ∈ line, P c) :
    ∀ e ∈ (readLine marker r number line).entries, e.Holds P := by
  have hraw : ∀ c ∈ line.dropTrailing fun c => c == Code.carriageReturn || c == Code.lineFeed,
      P c := fun c hc => hline c ((Text.dropTrailing_sublist line).subset hc)
  unfold readLine
  cases r.position with
  | fresh => exact holds_readFresh marker number hr hraw
  | inMalformed => exact hr
  | inEntry =>
      cases hentries : r.entries with
      | nil => exact nofun
      | cons e rest =>
          obtain ⟨he, hrest⟩ := List.forall_mem_cons.1 (hentries ▸ hr)
          refine List.forall_mem_cons.2 ⟨⟨he.1, fun c hc => ?_⟩, hrest⟩
          rcases List.mem_append.1 hc with hc | hc
          · exact he.2 c hc
          · refine hraw c (List.Sublist.subset ?_ hc)
            exact (Text.dropContinuation_sublist _).trans (List.dropWhile_sublist _)

theorem holds_readLines (marker : Text) {r : Reading} (number : Nat) {lines : List Text}
    (hr : ∀ e ∈ r.entries, e.Holds P) (hlines : ∀ line ∈ lines, ∀ c ∈ line, P c) :
    ∀ e ∈ (readLines marker r number lines).entries, e.Holds P := by
  induction lines generalizing r number with
  | nil => exact hr
  | cons line rest ih =>
      obtain ⟨hline, hrest⟩ := List.forall_mem_cons.1 hlines
      exact ih (number + 1) (holds_readLine marker number hr hline) hrest

/-- The code points of the entries of a catalog are those of its lines. -/
theorem holds_ofLines {marker : Text} {lines : List Text}
    (hlines : ∀ line ∈ lines, ∀ c ∈ line, P c) :
    ∀ e ∈ (ofLines marker lines).1, e.Holds P := fun e he =>
  holds_readLines marker 1 (r := {}) nofun hlines e (List.mem_reverse.1 he)

end

/-! ### Weight -/

theorem weight_lineOf (p : Text × Text) :
    (lineOf p).weight = p.1.weight + (Text.weight [Code.equals] + p.2.weight) := by
  rw [lineOf, Text.weight_append, Text.weight_cons]

theorem weight_lineOf_pair (e : CatalogEntry) :
    (lineOf e.pair).weight = e.key.weight + (Text.weight [Code.equals] + e.value.weight) :=
  weight_lineOf e.pair

theorem load_cons (e : CatalogEntry) (es : List CatalogEntry) :
    load (e :: es) = (lineOf e.pair).weight + load es := by
  rw [load, List.flatMap_cons, Text.weight_append, load]

theorem load_append (es fs : List CatalogEntry) : load (es ++ fs) = load es + load fs := by
  rw [load, List.flatMap_append, Text.weight_append, load, load]

theorem load_reverse (es : List CatalogEntry) : load es.reverse = load es := by
  induction es with
  | nil => rfl
  | cons e rest ih =>
      rw [List.reverse_cons, load_append, load_cons, load_cons, ih]
      exact Nat.add_comm _ _

theorem load_filter_le (p : CatalogEntry → Bool) (es : List CatalogEntry) :
    load (es.filter p) ≤ load es :=
  Text.weight_le_of_sublist (List.filter_sublist.flatMap _)

theorem load_extendLast_le (text : Text) (es : List CatalogEntry) :
    load (extendLast text es) ≤ load es + text.weight := by
  cases es with
  | nil => exact Nat.zero_le _
  | cons e rest =>
      have hline : lineOf (pair { e with value := e.value ++ text }) = lineOf e.pair ++ text := by
        simp [lineOf, pair]
      rw [extendLast, load_cons, load_cons, hline, Text.weight_append]
      omega

theorem load_readFresh_le (marker : Text) (r : Reading) (number : Nat) (raw : Text) :
    load (readFresh marker r number raw).entries ≤ load r.entries + raw.weight := by
  rcases entries_readFresh marker r number raw with
    heq | ⟨e, before, after, htrim, -, -, -, hkey, hvalue, heq⟩
  · rw [heq]
    exact Nat.le_add_right _ _
  · have hsublist : (lineOf e.pair).Sublist raw := by
      refine List.Sublist.trans ?_ (Text.trim_sublist raw)
      rw [htrim, lineOf, pair, hkey]
      exact (Text.trim_sublist before).append (hvalue.cons_cons _)
    have hweight := Text.weight_le_of_sublist hsublist
    have hfilter := load_filter_le (fun d => decide (d.key ≠ e.key)) r.entries
    rw [heq, load_cons]
    omega

theorem load_readLine_le (marker : Text) (r : Reading) (number : Nat) (line : Text) :
    load (readLine marker r number line).entries ≤ load r.entries + line.weight := by
  have hraw := Text.weight_le_of_sublist (Text.dropTrailing_sublist
    (p := fun c => c == Code.carriageReturn || c == Code.lineFeed) line)
  unfold readLine
  cases r.position with
  | fresh =>
      refine Nat.le_trans (load_readFresh_le marker r number _) ?_
      omega
  | inEntry =>
      refine Nat.le_trans (load_extendLast_le _ r.entries) (Nat.add_le_add_left ?_ _)
      refine Nat.le_trans (Text.weight_le_of_sublist ?_) hraw
      exact (Text.dropContinuation_sublist _).trans (List.dropWhile_sublist _)
  | inMalformed => exact Nat.le_add_right _ _

/-- Entries weigh no more than the lines from which they were read. -/
theorem load_readLines_le (marker : Text) (r : Reading) (number : Nat) (lines : List Text) :
    load (readLines marker r number lines).entries ≤
      load r.entries + Text.weight lines.flatten := by
  induction lines generalizing r number with
  | nil => exact Nat.le_add_right _ _
  | cons line rest ih =>
      have hline := load_readLine_le marker r number line
      have hrest := ih (readLine marker r number line) (number + 1)
      rw [List.flatten_cons, Text.weight_append, readLines]
      omega

/-- Entries weigh at least as much as pairs of distinct keys and lighter values that they have. -/
theorem weight_le_load {ps : List (Text × Text)} {es : List CatalogEntry}
    (hnodup : (ps.map Prod.fst).Nodup)
    (h : ∀ p ∈ ps, ∃ e ∈ es, e.key = p.1 ∧ p.2.weight ≤ e.value.weight) :
    Text.weight (ps.flatMap lineOf) ≤ load es := by
  induction ps generalizing es with
  | nil => exact Nat.zero_le _
  | cons p rest ih =>
      obtain ⟨hp, hrest⟩ := List.forall_mem_cons.1 h
      obtain ⟨hnew, hnodup⟩ := List.nodup_cons.1 hnodup
      obtain ⟨e, he, hkey, hvalue⟩ := hp
      -- the entry of this pair is taken out, and the others keep theirs
      obtain ⟨before, after, rfl⟩ := List.append_of_mem he
      have hothers : Text.weight (rest.flatMap lineOf) ≤ load (before ++ after) := by
        refine ih hnodup fun q hq => ?_
        obtain ⟨d, hd, hdkey, hdvalue⟩ := hrest q hq
        refine ⟨d, ?_, hdkey, hdvalue⟩
        rcases List.mem_append.1 hd with hd | hd
        · exact List.mem_append_left _ hd
        · rcases List.mem_cons.1 hd with rfl | hd
          · exact absurd (List.mem_map.2 ⟨q, hq, hdkey.symm.trans hkey⟩) hnew
          · exact List.mem_append_right _ hd
      have hline : (lineOf p).weight ≤ (lineOf e.pair).weight := by
        rw [weight_lineOf_pair, weight_lineOf, hkey]
        omega
      rw [load_append] at hothers ⊢
      rw [load_cons, List.flatMap_cons, Text.weight_append]
      omega

end BundleAudit.CatalogEntry
