import BundleAudit.Proofs.Baseline
import BundleAudit.Proofs.Catalog.Rendering
import BundleAudit.Proofs.Files.Encoding
import BundleAudit.Proofs.Text.Decimal

/-!
# BundleAudit.Proofs.Acceptance

**A baseline that was taken from a run accepts this run and nothing worse**
(`guards_ofList`). A module has one line in it, its name and the number of its problems in
decimal. Such lines are read as they are, in any order, so no module has more problems than it
is allowed. Where the line of a module is taken away or its number is lowered, this module is
reported and no other one; and to raise numbers or to add lines never has a module reported
that was not reported before.

All of this needs numbers that are read: the line of a number with more than `maxDigits`
digits is left out, and so a module may be reported because its number was raised
(`reported_longNumber`).
-/

namespace BundleAudit

open CatalogEntry (lineOf entriesFrom)

namespace Baseline

/-! ### The lines of a baseline -/

/-- A name of a module that a line of a baseline can begin with. -/
structure IsModuleName (name : Text) : Prop where
  isKey : CatalogEntry.IsKey name
  isScalar : name.all Code.isScalar = true
  noMark : name.head? ≠ some Code.byteOrderMark

/-- Names of modules with a decimal each, no name twice. -/
structure IsBaseline (ps : List (Text × Text)) : Prop where
  names : ∀ p ∈ ps, IsModuleName p.1
  nodup : (ps.map Prod.fst).Nodup
  decimals : ∀ p ∈ ps, p.2.IsDecimal

/-- The number that is read of a decimal. One with too many digits is left out, as if it were zero.
-/
def numberRead (digits : Text) : Nat :=
  if digits.length ≤ Text.maxDigits then digits.decimalValue else 0

theorem numberRead_le (digits : Text) : numberRead digits ≤ digits.decimalValue := by
  unfold numberRead
  split
  · exact Nat.le_refl _
  · exact Nat.zero_le _

/-- The baseline that is read at a path, and what is said about its file. -/
def load (t : Tree) (path : Text) : Except Failure (Baseline × Log) :=
  (t.readLines path).map (ofLines path)

theorem find?_key_eq_get? (name : Text) (es : List CatalogEntry) :
    (es.find? (·.key = name)).map (·.value) = KeyedList.get? name (es.map CatalogEntry.pair) := by
  induction es with
  | nil => rfl
  | cons e rest ih =>
      by_cases hkey : e.key = name
      · simp [KeyedList.get?, CatalogEntry.pair, hkey]
      · simp [KeyedList.get?, CatalogEntry.pair, hkey, ih]

/-- Entries whose numbers are read are read without a warning. -/
theorem ofEntries_eq (file : Text) {es : List CatalogEntry}
    (h : ∀ e ∈ es, e.value.IsDecimal ∧ e.value.length ≤ Text.maxDigits) :
    ofEntries file es = (es.map fun e => (e.key, (e.value.decimalValue : Int)), []) := by
  induction es with
  | nil => rfl
  | cons e rest ih =>
      obtain ⟨⟨hdecimal, hlength⟩, hrest⟩ := List.forall_mem_cons.1 h
      rw [ofEntries, ih hrest, hdecimal.trim, hdecimal.toInt?, if_pos hlength]
      rfl

namespace IsBaseline

variable {t : Tree} {file path name digits : Text} {ps : List (Text × Text)}

theorem ofLines_entries (h : IsBaseline ps) (marker : Text) :
    CatalogEntry.ofLines marker (ps.map lineOf) = (entriesFrom 1 false ps, []) := by
  have hread := CatalogEntry.readLines_whole marker (r := {}) 1 rfl (fun p hp =>
    (h.names p hp).isKey)
    (fun p hp => (h.decimals p hp).isWhole) (by simpa using h.nodup)
  rw [CatalogEntry.ofLines, hread]
  simp

theorem load (h : IsBaseline ps) (hfile : t.HoldsLines path (ps.map lineOf)) :
    Baseline.load t path = .ok (ofLines path (ps.map lineOf)) := by
  have hlines : t.readLines path = .ok (ps.map lineOf) := by
    refine hfile.readLines (List.forall_mem_map.2 fun p hp => ?_)
      (List.forall_mem_map.2 fun p hp => ?_)
    · have hequals : Code.isScalar Code.equals = true := rfl
      rw [lineOf, List.all_append, List.all_cons, (h.names p hp).isScalar, hequals,
        (h.decimals p hp).isScalar]
      rfl
    · -- the line begins with the name
      obtain ⟨c, rest, hname⟩ := List.exists_cons_of_ne_nil (h.names p hp).isKey.ne_nil
      have hmark := (h.names p hp).noMark
      rw [hname] at hmark
      rw [lineOf, hname]
      exact hmark
  rw [Baseline.load, hlines, Except.map]

/-- Numbers that are read are read without a warning. -/
theorem ofLines_eq (h : IsBaseline ps) (hlength : ∀ p ∈ ps, p.2.length ≤ Text.maxDigits)
    (file : Text) :
    ofLines file (ps.map lineOf) = (ps.map fun p => (p.1, (p.2.decimalValue : Int)), []) := by
  have hpairs := CatalogEntry.map_pair_entriesFrom 1 false ps
  have hentries : ∀ e ∈ entriesFrom 1 false ps, e.value.IsDecimal ∧
    e.value.length ≤ Text.maxDigits := by
    intro e he
    have hmem : e.pair ∈ ps := hpairs ▸ List.mem_map_of_mem he
    exact ⟨h.decimals _ hmem, hlength _ hmem⟩
  simp only [ofLines, h.ofLines_entries, ofEntries_eq file hentries]
  conv_rhs => rw [← hpairs]
  simp [CatalogEntry.pair, CatalogEntry.warnings]

theorem allowed_eq (h : IsBaseline ps) (file name : Text) :
    allowed (ofLines file (ps.map lineOf)).1 name =
      ((KeyedList.get? name ps).bind (·.trim.toInt?)).getD 0 := by
  have hvalue := find?_key_eq_get? name (entriesFrom 1 false ps)
  rw [CatalogEntry.map_pair_entriesFrom] at hvalue
  rw [allowed_ofLines, numberIn, h.ofLines_entries, ← hvalue, Option.bind_map]
  rfl

/-- A module is allowed the number in its line, -/
theorem allowed_of_mem (h : IsBaseline ps) (hp : (name, digits) ∈ ps) :
    allowed (ofLines file (ps.map lineOf)).1 name = (numberRead digits : Int) := by
  have hdecimal := h.decimals _ hp
  rw [h.allowed_eq, KeyedList.get?_eq_some h.nodup hp, Option.bind_some, hdecimal.trim,
    hdecimal.toInt?, numberRead]
  split <;> rfl

/-- or none. -/
theorem allowed_of_not_mem (h : IsBaseline ps) (hname : name ∉ ps.map Prod.fst) :
    allowed (ofLines file (ps.map lineOf)).1 name = 0 := by
  rw [h.allowed_eq, KeyedList.get?_eq_none hname]
  rfl

theorem allowed_nonneg (h : IsBaseline ps) (file name : Text) :
    0 ≤ allowed (ofLines file (ps.map lineOf)).1 name := by
  by_cases hname : name ∈ ps.map Prod.fst
  · obtain ⟨⟨name, digits⟩, hp, rfl⟩ := List.mem_map.1 hname
    rw [h.allowed_of_mem hp]
    exact Int.natCast_nonneg _
  · exact Int.le_of_eq (h.allowed_of_not_mem hname).symm

end IsBaseline

/-! ### The lines of a run -/

/-- The lines of modules that are given digits. -/
def linesFor (digits : Report → Option Text) (qs : List Report) : List (Text × Text) :=
  qs.filterMap fun r => (digits r).map (Prod.mk r.name)

/-- The number that the line of a module allows it, or none where it has no line. -/
def allowance : Option Text → Nat
  | some digits => numberRead digits
  | none => 0

section

variable {digits : Report → Option Text} {qs : List Report}

theorem mem_linesFor {p : Text × Text} :
    p ∈ linesFor digits qs ↔ ∃ r ∈ qs, digits r = some p.2 ∧ r.name = p.1 := by
  obtain ⟨name, text⟩ := p
  simp [linesFor]

theorem names_linesFor_sublist (digits : Report → Option Text) (qs : List Report) :
    ((linesFor digits qs).map Prod.fst).Sublist (qs.map (·.name)) := by
  induction qs with
  | nil => exact .slnil
  | cons r rest ih =>
      cases hr : digits r with
      | none =>
          rw [linesFor, List.filterMap_cons_none (by rw [hr]; rfl)]
          exact ih.cons r.name
      | some text =>
          rw [linesFor, List.filterMap_cons_some (by rw [hr]; rfl)]
          exact ih.cons_cons r.name

theorem isBaseline_linesFor (hnames : ∀ r ∈ qs, IsModuleName r.name)
    (hnodup : (qs.map (·.name)).Nodup)
    (hdigits : ∀ r ∈ qs, ∀ text ∈ digits r, text.IsDecimal) : IsBaseline (linesFor digits qs) where
  names p hp := by
    obtain ⟨r, hr, -, hname⟩ := mem_linesFor.1 hp
    exact hname ▸ hnames r hr
  nodup := hnodup.sublist (names_linesFor_sublist digits qs)
  decimals p hp := by
    obtain ⟨r, hr, htext, -⟩ := mem_linesFor.1 hp
    exact hdigits r hr p.2 htext

/-- Each module is allowed what its own line says. -/
theorem allowed_linesFor (h : IsBaseline (linesFor digits qs)) (hnodup : (qs.map (·.name)).Nodup)
    {r : Report} (hr : r ∈ qs) (file : Text) :
    allowed (ofLines file ((linesFor digits qs).map lineOf)).1 r.name =
      (allowance (digits r) : Int) := by
  cases hdigits : digits r with
  | some text => exact h.allowed_of_mem (mem_linesFor.2 ⟨r, hr, hdigits, rfl⟩)
  | none =>
      refine h.allowed_of_not_mem fun hname => ?_
      obtain ⟨p, hp, hpname⟩ := List.mem_map.1 hname
      obtain ⟨q, hq, htext, hqname⟩ := mem_linesFor.1 hp
      -- no other module has the name
      obtain rfl := List.inj_on_of_nodup_map hnodup hq hr (hqname.trans hpname)
      rw [hdigits] at htext
      cases htext

end

/-! ### Who is reported -/

/-- The modules that have more problems than they are allowed. -/
def exceeding (b : Baseline) (rs : Reports) : List Report :=
  rs.ordered.filter fun r => b.allowed r.name < (r.problems : Int)

theorem excesses_eq_map_exceeding (b : Baseline) (rs : Reports) :
    b.excesses rs = (b.exceeding rs).map fun r => excess r (b.allowed r.name) := rfl

/-- Where numbers decide who is reported, they are what is said of these modules. -/
theorem excesses_eq_map_filter {b : Baseline} {rs : Reports} {reported : Report → Bool}
    (number : Report → Nat) (hnumber : ∀ r ∈ rs, b.allowed r.name = (number r : Int))
    (h : ∀ r ∈ rs, number r < r.problems ↔ reported r = true) :
    b.excesses rs = (rs.ordered.filter reported).map fun r => excess r (number r) := by
  have hexceeding : b.exceeding rs = rs.ordered.filter reported := by
    refine List.filter_congr fun r hr => ?_
    have hr := Reports.mem_ordered.1 hr
    rw [hnumber r hr, Bool.eq_iff_iff, decide_eq_true_iff, Int.ofNat_lt, h r hr]
  rw [excesses_eq_map_exceeding, hexceeding]
  refine List.map_congr_left fun r hr => ?_
  rw [hnumber r (Reports.mem_ordered.1 (List.mem_filter.1 hr).1)]

/-! ### What is accepted -/

/-- The line of a module in the baseline that is taken from its run. -/
def lineOfReport (r : Report) : Text := lineOf (r.name, Text.ofNat r.problems)

/-- The digits of a run in which the lines of the chosen modules are taken away or their numbers
lowered. -/
structure Lowers (rs : Reports) (chosen : Report → Bool) (digits : Report → Option Text) :
    Prop where
  positive : ∀ r ∈ rs, chosen r = true → 0 < r.problems
  lowered : ∀ r ∈ rs, chosen r = true → ∀ text ∈ digits r,
    text.IsDecimal ∧ text.decimalValue < r.problems
  kept : ∀ r ∈ rs, chosen r = false → digits r = some (Text.ofNat r.problems)

/-- Numbers are raised, to ones that are read, and lines may be added. -/
def Raises (ps ps' : List (Text × Text)) : Prop :=
  ∀ p ∈ ps, ∃ text, (p.1, text) ∈ ps' ∧ p.2.decimalValue ≤ text.decimalValue ∧
    text.length ≤ Text.maxDigits

/-- A baseline guards the reports of a run. -/
structure Guards (rs : Reports) : Prop where
  /-- Modules are listed in the ascending order of their names, each once, -/
  ascending : rs.ordered.names.Pairwise fun a b => a.lt b = true
  mem_ordered : ∀ r, r ∈ rs.ordered ↔ r ∈ rs
  /-- and the ones that exceed a baseline are reported in this order. -/
  reported : ∀ b : Baseline, (b.exceeding rs).Sublist rs.ordered ∧
    b.excesses rs = (b.exceeding rs).map fun r => excess r (b.allowed r.name)
  /-- The lines of the run are read as its numbers, and no module has more problems. -/
  accepts {t : Tree} {path : Text} {qs : List Report} : qs.Perm rs →
    t.HoldsLines path (qs.map lineOfReport) →
      load t path = .ok (qs.map fun r => (r.name, (r.problems : Int)), []) ∧
      excesses (qs.map fun r => (r.name, (r.problems : Int))) rs = []
  /-- The modules whose lines are taken away or lowered are reported, and no other ones. -/
  rejects {t : Tree} {path : Text} {qs : List Report} {chosen : Report → Bool}
    {digits : Report → Option Text} : qs.Perm rs → Lowers rs chosen digits →
    t.HoldsLines path ((linesFor digits qs).map lineOf) →
      ∃ b log, load t path = .ok (b, log) ∧
        b.excesses rs = (rs.ordered.filter chosen).map fun r => excess r (allowance (digits r))
  /-- To raise numbers and to add lines has no module reported that was not. -/
  raises {t t' : Tree} {path path' : Text} {ps ps' : List (Text × Text)} : IsBaseline ps →
    IsBaseline ps' → Raises ps ps' → t.HoldsLines path (ps.map lineOf) →
    t'.HoldsLines path' (ps'.map lineOf) →
      ∃ b log b' log', load t path = .ok (b, log) ∧ load t' path' = .ok (b', log') ∧
        (b'.exceeding rs).Sublist (b.exceeding rs)

theorem IsBaseline.allowed_le {ps ps' : List (Text × Text)} (h : IsBaseline ps)
    (h' : IsBaseline ps') (hraises : Raises ps ps') (file file' name : Text) :
    allowed (ofLines file (ps.map lineOf)).1 name ≤
      allowed (ofLines file' (ps'.map lineOf)).1 name := by
  by_cases hname : name ∈ ps.map Prod.fst
  · obtain ⟨⟨name, digits⟩, hp, rfl⟩ := List.mem_map.1 hname
    obtain ⟨text, htext, hle, hlength⟩ := hraises _ hp
    have hread : numberRead text = text.decimalValue := if_pos hlength
    rw [h.allowed_of_mem hp, h'.allowed_of_mem htext, hread]
    exact Int.ofNat_le.2 (Nat.le_trans (numberRead_le digits) hle)
  · rw [h.allowed_of_not_mem hname]
    exact h'.allowed_nonneg file' name

section

variable {inputs : List Report} (hnames : ∀ r ∈ inputs, IsModuleName r.name)

include hnames

/-- The lines of a run are those of a baseline, whatever their order and their digits. -/
theorem isBaseline_of_perm {qs : List Report} {digits : Report → Option Text}
    (hperm : qs.Perm (Reports.ofList inputs))
    (hdigits : ∀ r ∈ Reports.ofList inputs, ∀ text ∈ digits r, text.IsDecimal) :
    (qs.map (·.name)).Nodup ∧ IsBaseline (linesFor digits qs) := by
  have hnodup : (qs.map (·.name)).Nodup :=
    (hperm.map _).nodup_iff.2 (Reports.nodup_names_ofList inputs)
  refine ⟨hnodup, isBaseline_linesFor (fun r hr => ?_) hnodup fun r hr =>
    hdigits r (hperm.subset hr)⟩
  obtain ⟨q, hq, hname⟩ := Reports.mem_names_ofList.1 (List.mem_map_of_mem (hperm.subset hr))
  exact hname ▸ hnames q hq

/-- Of the lines of a run, those that were taken away or lowered decide who is reported. -/
theorem excesses_linesFor {qs : List Report} {chosen : Report → Bool}
    {digits : Report → Option Text}
    (hcounts : ∀ r ∈ Reports.ofList inputs, (Text.ofNat r.problems).length ≤ Text.maxDigits)
    (hperm : qs.Perm (Reports.ofList inputs))
    (hlowers : Lowers (Reports.ofList inputs) chosen digits)
    (file : Text) :
    IsBaseline (linesFor digits qs) ∧
      (ofLines file ((linesFor digits qs).map lineOf)).1.excesses (Reports.ofList inputs) =
        ((Reports.ofList inputs).ordered.filter chosen).map fun r =>
          excess r (allowance (digits r)) := by
  have hdigits : ∀ r ∈ Reports.ofList inputs, ∀ text ∈ digits r, text.IsDecimal := by
    intro r hr text htext
    cases hchosen : chosen r with
    | true => exact (hlowers.lowered r hr hchosen text htext).1
    | false =>
        rw [hlowers.kept r hr hchosen] at htext
        exact Option.some.inj htext ▸ Text.isDecimal_ofNat r.problems
  obtain ⟨hnodup, hbaseline⟩ := isBaseline_of_perm hnames hperm hdigits
  refine ⟨hbaseline, excesses_eq_map_filter _ (fun r hr => ?_) fun r hr => ?_⟩
  · exact allowed_linesFor hbaseline hnodup (hperm.mem_iff.2 hr) file
  · cases hchosen : chosen r with
    | false =>
        -- its own number is read, and allows just as many
        rw [hlowers.kept r hr hchosen, allowance, numberRead, if_pos (hcounts r hr),
          Text.decimalValue_ofNat]
        simp
    | true =>
        refine iff_of_true ?_ rfl
        cases htext : digits r with
        | none => exact hlowers.positive r hr hchosen
        | some text =>
            exact Nat.lt_of_le_of_lt (numberRead_le text)
              (hlowers.lowered r hr hchosen text htext).2

/-- **A baseline that was taken from a run accepts the run and nothing worse,** if its numbers are
read. -/
theorem guards_ofList
    (hcounts : ∀ r ∈ Reports.ofList inputs, (Text.ofNat r.problems).length ≤ Text.maxDigits) :
    Guards (Reports.ofList inputs) := by
  constructor
  case ascending => exact Text.pairwise_lt_sortBy (Reports.nodup_names_ofList inputs)
  case mem_ordered => exact fun r => Reports.mem_ordered
  case reported => exact fun b => ⟨List.filter_sublist, rfl⟩
  case accepts =>
      intro t path qs hperm hfile
      -- no line is taken away, and no number lowered
      have hlowers : Lowers (Reports.ofList inputs) (fun _ => false)
          fun r => some (Text.ofNat r.problems) := ⟨nofun, nofun, fun r _ _ => rfl⟩
      obtain ⟨hbaseline, hexcesses⟩ := excesses_linesFor hnames hcounts hperm hlowers path
      have hpairs : linesFor (fun r => some (Text.ofNat r.problems)) qs =
          qs.map fun r => (r.name, Text.ofNat r.problems) := by
        simp [linesFor]
      rw [hpairs] at hbaseline hexcesses
      have hlength : ∀ p ∈ qs.map fun r => (r.name, Text.ofNat r.problems),
          p.2.length ≤ Text.maxDigits :=
        List.forall_mem_map.2 fun r hr => hcounts r (hperm.subset hr)
      have hlines : t.HoldsLines path
          ((qs.map fun r => (r.name, Text.ofNat r.problems)).map lineOf) := by
        rw [List.map_map]
        exact hfile
      have hload := hbaseline.load hlines
      rw [hbaseline.ofLines_eq hlength] at hload hexcesses
      simp only [List.map_map, Function.comp_def, Text.decimalValue_ofNat] at hload hexcesses
      exact ⟨hload, hexcesses.trans (by simp)⟩
  case rejects =>
      intro t path qs chosen digits hperm hlowers hfile
      obtain ⟨hbaseline, hexcesses⟩ := excesses_linesFor hnames hcounts hperm hlowers path
      exact ⟨_, _, hbaseline.load hfile, hexcesses⟩
  case raises =>
      intro t t' path path' ps ps' h h' hraises hfile hfile'
      refine ⟨_, _, _, _, h.load hfile, h'.load hfile', List.monotone_filter_right _ fun r hr => ?_⟩
      have hle := h.allowed_le h' hraises path path' r.name
      exact decide_eq_true (Int.lt_of_le_of_lt hle (of_decide_eq_true hr))

end

/-! ### Examples -/

/-- A tree that holds a text in a file. -/
def baselineTree (text : Text) : Tree :=
  { here := [Text.ofString "work"]
    entries :=
      [([Text.ofString "work"], .directory),
        ([Text.ofString "work", Text.ofString "b"], .file (Text.Storage.utf8.bytes text))] }

theorem holdsLines_baselineTree (text : Text) : (baselineTree text).HoldsLines "b" text.lines :=
  ⟨.utf8, text, rfl, rfl⟩

theorem isModuleName_of_decide {name : Text}
    (h : name ≠ [] ∧ name.trim = name ∧ Code.equals ∉ name ∧ name.head? ≠ some Code.hash ∧
      name.isLine = true ∧ name.all Code.isScalar = true ∧ name.head? ≠ some Code.byteOrderMark) :
    IsModuleName name := by
  obtain ⟨hne, htrim, hequals, hhash, hline, hscalar, hmark⟩ := h
  exact ⟨⟨hne, htrim, hequals, hhash, hline⟩, hscalar, hmark⟩

/-- Reports on two modules, with two problems and with one. -/
def twoReports : List Report :=
  [{ name := "n", findings := [⟨.missingKey, "x", 1, "k"⟩] },
    { name := "m/a", findings := [⟨.missingKey, "y", 2, "k"⟩, ⟨.missingKey, "y", 3, "l"⟩] }]

/-- The number of the first module is lowered, and the line of the second one taken away. -/
def loweredDigits (r : Report) : Option Text := if r.problems = 1 then some "00" else none

theorem guards_ofList_sample :
    (∀ r ∈ twoReports, IsModuleName r.name) ∧
      (∀ r ∈ Reports.ofList twoReports, (Text.ofNat r.problems).length ≤ Text.maxDigits) ∧
      load (baselineTree "m/a=2\r\nn=1") "b" = .ok ([("m/a", 2), ("n", 1)], []) ∧
      ∃ b log, load (baselineTree "n=00\n") "b" = .ok (b, log) ∧
        b.excesses (Reports.ofList twoReports) =
          ["Module m/a: Found 2 errors in I18N (expected <= 0).",
            "Module n: Found 1 errors in I18N (expected <= 0)."].map Text.ofString := by
  have hnames : ∀ r ∈ twoReports, IsModuleName r.name := by
    have hall : ∀ r ∈ twoReports, r.name ≠ [] ∧ r.name.trim = r.name ∧ Code.equals ∉ r.name ∧
        r.name.head? ≠ some Code.hash ∧ r.name.isLine = true ∧ r.name.all Code.isScalar = true ∧
        r.name.head? ≠ some Code.byteOrderMark := by decide +kernel
    exact fun r hr => isModuleName_of_decide (hall r hr)
  have hcounts : ∀ r ∈ Reports.ofList twoReports,
      (Text.ofNat r.problems).length ≤ Text.maxDigits := by decide +kernel
  have hguards := guards_ofList hnames hcounts
  have hlist : Reports.ofList twoReports = twoReports := by decide +kernel
  have hlowers : Lowers (Reports.ofList twoReports) (fun _ => true) loweredDigits := by
    refine ⟨fun r hr _ => ?_, fun r _ _ text htext => ?_, nofun⟩
    · have hall : ∀ r ∈ Reports.ofList twoReports, 0 < r.problems := by decide +kernel
      exact hall r hr
    · unfold loweredDigits at htext
      split at htext
      · next hone =>
          obtain rfl := Option.some.inj htext
          exact ⟨⟨by decide, by decide⟩, hone ▸ by decide⟩
      · cases htext
  have hperm : twoReports.reverse.Perm (Reports.ofList twoReports) :=
    hlist ▸ List.reverse_perm twoReports
  have hordered : (Reports.ofList twoReports).ordered = twoReports.reverse :=
    (Text.sortBy_eq_of_perm hperm.symm (Reports.nodup_names_ofList _)).trans
      (Text.sortBy_eq_self (by decide +kernel))
  refine ⟨hnames, hcounts, ?_, ?_⟩
  · have hlines : Text.lines "m/a=2\r\nn=1" = twoReports.reverse.map lineOfReport := by
      decide +kernel
    exact (hguards.accepts hperm (hlines ▸ holdsLines_baselineTree _)).1
  · have hlines : Text.lines "n=00\n" = (linesFor loweredDigits twoReports.reverse).map lineOf := by
      decide +kernel
    obtain ⟨b, log, hload, hexcesses⟩ :=
      hguards.rejects hperm hlowers (hlines ▸ holdsLines_baselineTree _)
    rw [hordered] at hexcesses
    exact ⟨b, log, hload, hexcesses.trans (by decide +kernel)⟩

/-! ### Numbers that are not read -/

/-- A decimal with one digit more than is read. -/
def longNumber : Text := 0x31 :: List.replicate Text.maxDigits 0x30

theorem isDecimal_longNumber : longNumber.IsDecimal := by
  refine ⟨List.cons_ne_nil _ _, List.forall_mem_cons.2 ⟨rfl, fun c hc => ?_⟩⟩
  exact List.eq_of_mem_replicate hc ▸ rfl

theorem one_le_decimalValue_longNumber : 1 ≤ longNumber.decimalValue := by
  have hgrows : ∀ (t : Text) (n : Nat), n ≤ t.foldl (fun n c => 10 * n + (c - 0x30)) n := by
    intro t
    induction t with
    | nil => exact Nat.le_refl
    | cons c rest ih => exact fun n => Nat.le_trans (by omega) (ih (10 * n + (c - 0x30)))
  rw [longNumber, Text.decimalValue, List.foldl_cons]
  exact Nat.le_trans (by decide) (hgrows _ _)

theorem numberRead_longNumber : numberRead longNumber = 0 := by
  rw [numberRead, if_neg]
  simp [longNumber]

/-- A module with one problem. -/
def oneReport : List Report := [{ name := "m", findings := [⟨.missingKey, "x", 1, "k"⟩] }]

/-- It is reported just if it is allowed none. -/
theorem excesses_oneReport {b : Baseline} {n : Nat} (h : b.allowed "m" = (n : Int)) :
    b.excesses (Reports.ofList oneReport) =
      if n = 0 then [Text.ofString "Module m: Found 1 errors in I18N (expected <= 0)."]
      else [] := by
  have hlist : Reports.ofList oneReport = oneReport := by decide +kernel
  have hordered : (Reports.ofList oneReport).ordered = oneReport :=
    hlist.symm ▸ List.mergeSort_singleton _
  have hnumber : ∀ r ∈ Reports.ofList oneReport, b.allowed r.name = (n : Int) := by
    rw [hlist]
    exact List.forall_mem_singleton.2 h
  have hreported : ∀ r ∈ Reports.ofList oneReport, n < r.problems ↔ decide (n = 0) = true := by
    rw [hlist]
    exact List.forall_mem_singleton.2 (by simp [Report.problems])
  rw [excesses_eq_map_filter (fun _ => n) hnumber hreported, hordered]
  split
  · next hn =>
      subst hn
      decide +kernel
  · next hn => simp [hn]

/-- A baseline with one line, and what is said of the module by it. -/
theorem load_oneLine {digits : Text} (h : digits.IsDecimal) :
    IsBaseline [("m", digits)] ∧
      ∃ b log, load (baselineTree (Text.ofLines [lineOf ("m", digits)])) "b" = .ok (b, log) ∧
        b.excesses (Reports.ofList oneReport) =
          if numberRead digits = 0 then
            [Text.ofString "Module m: Found 1 errors in I18N (expected <= 0)."]
          else [] := by
  have hname : IsModuleName "m" := isModuleName_of_decide (by decide)
  have hbaseline : IsBaseline [(Text.ofString "m", digits)] :=
    ⟨List.forall_mem_singleton.2 hname, by simp, List.forall_mem_singleton.2 h⟩
  have hline : ∀ l ∈ [(Text.ofString "m", digits)].map lineOf, l.isLine = true :=
    CatalogEntry.isLine_of_mem_map_lineOf (fun p hp => (hbaseline.names p hp).isKey)
      fun p hp => (Text.isWhole_iff.1 (hbaseline.decimals p hp).isWhole).1
  have hlines : (Text.ofLines [lineOf ("m", digits)]).lines = [lineOf ("m", digits)] :=
    Text.lines_ofLines hline
  have hallowed :
      allowed (ofLines "b" [lineOf ("m", digits)]).1 "m" = (numberRead digits : Int) :=
    hbaseline.allowed_of_mem List.mem_cons_self
  exact ⟨hbaseline, _, _, hbaseline.load ⟨.utf8, _, rfl, hlines⟩, excesses_oneReport hallowed⟩

/-- **A number that is raised beyond what is read** has a module reported that was accepted before.
-/
theorem reported_longNumber :
    IsBaseline [("m", "1")] ∧ IsBaseline [("m", longNumber)] ∧
      Text.decimalValue "1" ≤ longNumber.decimalValue ∧
      (∃ b log, load (baselineTree (Text.ofLines ["m=1"])) "b" = .ok (b, log) ∧
        b.excesses (Reports.ofList oneReport) = []) ∧
      ∃ b log, load (baselineTree (Text.ofLines [lineOf ("m", longNumber)])) "b" = .ok (b, log) ∧
        b.excesses (Reports.ofList oneReport) =
          [Text.ofString "Module m: Found 1 errors in I18N (expected <= 0)."] := by
  have hdecimal : Text.IsDecimal "1" := ⟨by decide, by decide⟩
  obtain ⟨hone, hacceptsOne⟩ := load_oneLine hdecimal
  obtain ⟨hlong, hreportsLong⟩ := load_oneLine isDecimal_longNumber
  rw [if_neg (by decide)] at hacceptsOne
  rw [if_pos numberRead_longNumber] at hreportsLong
  exact ⟨hone, hlong, one_le_decimalValue_longNumber, hacceptsOne, hreportsLong⟩

end Baseline

end BundleAudit
