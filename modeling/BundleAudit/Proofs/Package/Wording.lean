import BundleAudit.Proofs.Catalog.Reading
import BundleAudit.Proofs.Package.Reporting
import BundleAudit.Proofs.Token.Literals
import BundleAudit.Proofs.Wording

/-!
# BundleAudit.Proofs.Package.Wording

**What is said about a package holds no surrogates** if its paths hold none. What is read
of a file holds none, so neither do the texts of its literals and its keys
(`Package.IsScalar.read`); and nothing that is done with a package brings any in.
-/

namespace BundleAudit

variable {s : Settings} {t : Tree} {failure : Failure}

/-- A finding that holds no surrogates. -/
structure Finding.IsScalar (f : Finding) : Prop where
  file : f.file.all Code.isScalar = true
  message : f.message.all Code.isScalar = true

/-! ### Occurrences -/

theorem Token.mem_of_mem_stripDelimiters {literal : Text} {c : Code}
    (h : c ∈ stripDelimiters literal) : c ∈ literal := by
  have hbody : ∀ {c}, c ∈ literal.dropWhile Code.isAsciiLetter → c ∈ literal :=
    fun h => (List.dropWhile_sublist _).subset h
  unfold stripDelimiters at h
  dsimp only at h
  split at h
  · exact hbody h
  · split at h
    · exact hbody (List.mem_of_mem_drop (List.mem_of_mem_take h))
    · exact hbody (List.mem_of_mem_drop h)

/-! ### Sources -/

namespace SourceFile

variable {f g : SourceFile}

/-- A source whose path and texts hold no surrogates. -/
structure IsScalar (f : SourceFile) : Prop where
  path : f.path.all Code.isScalar = true
  texts : ∀ o ∈ f.occurrences, o.text.all Code.isScalar = true

/-- What is read of a source holds no surrogates. -/
theorem IsScalar.read (hf : f.IsScalar) (h : f.read s t = .ok g) : g.IsScalar := by
  obtain ⟨text, htext, hrest⟩ := Failure.bind_eq_ok_iff.1 h
  obtain ⟨tokens, htokens, hg⟩ := Failure.bind_eq_ok_iff.1 hrest
  obtain ⟨bytes, -, rfl⟩ := Failure.map_eq_ok_iff.1 htext
  obtain rfl := Except.ok.inj hg
  refine ⟨hf.path, Occurrence.text_of_mem_ofTokens (P := fun text => text.all Code.isScalar = true)
    fun k hk hkind => List.all_eq_true.2 fun c hc => ?_⟩
  have hcode := Token.mem_of_mem_literal htokens hk hkind (Token.mem_of_mem_stripDelimiters hc)
  rcases hcode with hc | rfl
  · exact List.all_eq_true.1 (Text.all_isScalar_ofBytes bytes) c hc
  · decide

theorem isScalar_of_read (hf : f.IsScalar) (h : f.read s t = .error failure) :
    failure.IsScalar := by
  rcases Failure.bind_eq_error_iff.1 h with h | ⟨text, -, h⟩
  · exact Tree.isScalar_of_read (Failure.map_eq_error_iff.1 h)
  rcases Failure.bind_eq_error_iff.1 h with h | ⟨tokens, -, h⟩
  · have h := Failure.map_eq_error_iff.1 h
    unfold Token.Source.ofPath at h
    dsimp only at h
    split at h
    · cases h
    split at h
    · cases h
    · refine Except.error.inj h ▸ List.forall_mem_singleton.2 ?_
      split
      · exact hf.path
      · exact Text.all_isScalar_toLower (Path.isScalar_ofText hf.path).all_suffix
  · cases h

theorem IsScalar.lookUp (h : f.IsScalar) (catalogs : List Catalog) : (f.lookUp catalogs).IsScalar :=
  ⟨h.path, List.forall_mem_map.2 h.texts⟩

theorem IsScalar.isScalar_of_mem_findings (h : f.IsScalar) {form : Bool} :
    ∀ x ∈ f.findings form, x.IsScalar := by
  intro x hx
  rw [findings_eq_verdicts] at hx
  have hverdict : ∀ wanted, x ∈ f.verdicts form wanted → x.IsScalar := by
    intro wanted hx
    obtain ⟨o, ho, hx⟩ := List.mem_filterMap.1 hx
    obtain ⟨kind, -, rfl⟩ := Option.map_eq_some_iff.1 hx
    exact ⟨h.path, h.texts o ho⟩
  exact (List.mem_append.1 hx).elim (hverdict _) (hverdict _)

/-- A source of which it cannot be told whether it has a form. -/
theorem IsScalar.isScalar_of_hasForm (h : f.IsScalar) (hs : s.formSuffix.all Code.isScalar = true)
    (hform : f.hasForm s t = .error failure) : failure.IsScalar := by
  unfold hasForm at hform
  split at hform
  · next error herror =>
      obtain rfl := Except.error.inj hform
      unfold Path.withSuffix at herror
      split at herror
      · exact Except.error.inj herror ▸ List.forall_mem_singleton.2 hs
      · split at herror
        · refine Except.error.inj herror ▸ List.forall_mem_singleton.2 ?_
          exact (Path.isScalar_ofText h.path).all_toText
        · cases herror
  · exact Tree.isScalar_of_hasEntry hform

end SourceFile

/-! ### Catalogs -/

namespace Catalog

variable {c d : Catalog}

/-- A catalog whose path and keys hold no surrogates. -/
structure IsScalar (c : Catalog) : Prop where
  path : c.path.all Code.isScalar = true
  keys : ∀ e ∈ c.entries, e.key.all Code.isScalar = true

/-- What is read of a catalog holds no surrogates. -/
theorem IsScalar.read (hc : c.IsScalar) (h : c.read? s t = some d) : d.IsScalar := by
  obtain ⟨malformed, hread⟩ := read?_eq_some_iff.1 h
  obtain ⟨lines, hlines, heq⟩ := Failure.map_eq_ok_iff.1 hread
  obtain ⟨rfl, -⟩ := Prod.mk.inj heq
  refine ⟨hc.path, fun e he => List.all_eq_true.2 ?_⟩
  exact (CatalogEntry.holds_ofLines (Tree.isScalar_of_mem_readLines hlines) e he).1

theorem isScalar_of_read (h : c.read s t = .error failure) : failure.IsScalar :=
  Tree.isScalar_of_readLines (Failure.map_eq_error_iff.1 h)

theorem IsScalar.addUses (h : c.IsScalar) (n : Text → Nat) : (c.addUses n).IsScalar :=
  ⟨h.path, List.forall_mem_map.2 h.keys⟩

theorem IsScalar.countUses (h : c.IsScalar) (keys : List Text) : (c.countUses keys).IsScalar :=
  countUses_eq keys c ▸ h.addUses _

theorem IsScalar.isScalar_of_mem_findings (h : c.IsScalar) : ∀ x ∈ c.findings, x.IsScalar := by
  unfold findings
  split
  · exact nofun
  · exact List.forall_mem_map.2 fun e he => ⟨h.path, h.keys e (List.mem_filter.1 he).1⟩

end Catalog

/-! ### Packages -/

namespace Package

variable {p : Package}

/-- A package whose catalogs and sources hold no surrogates. -/
structure IsScalar (p : Package) : Prop where
  primary : ∀ c ∈ p.primary.toList, c.IsScalar
  secondary : ∀ c ∈ p.secondary, c.IsScalar
  translated : ∀ c ∈ p.translated, c.IsScalar
  sources : ∀ x ∈ p.sources, x.2.IsScalar

theorem IsScalar.reportedCatalogs (h : p.IsScalar) : ∀ c ∈ p.reportedCatalogs, c.IsScalar := by
  intro c hc
  rcases List.mem_append.1 hc with hc | hc
  · rcases List.mem_append.1 hc with hc | hc
    · exact h.primary c hc
    · exact h.secondary c ((Text.perm_sortBy Catalog.path _).mem_iff.1 hc)
  · exact h.translated c ((Text.perm_sortBy Catalog.path _).mem_iff.1 hc)

theorem IsScalar.orderedSources (h : p.IsScalar) : ∀ x ∈ p.orderedSources, x.2.IsScalar :=
  fun x hx => h.sources x ((Text.perm_sortBy Prod.fst _).mem_iff.1 hx)

/-- What is read of the files of a package holds no surrogates, -/
theorem IsScalar.read (h : p.IsScalar) (s : Settings) (t : Tree) : (p.read s t).1.IsScalar := by
  have hcatalogs : ∀ {cs : List Catalog}, (∀ c ∈ cs, c.IsScalar) →
      ∀ d ∈ cs.filterMap (Catalog.read? s t), d.IsScalar := by
    intro cs hcs d hd
    obtain ⟨c, hc, hread⟩ := List.mem_filterMap.1 hd
    exact (hcs c hc).read hread
  rw [read_fst]
  refine ⟨fun d hd => ?_, hcatalogs h.secondary, hcatalogs h.translated, fun x hx => ?_⟩
  · obtain ⟨c, hc, hread⟩ := Option.bind_eq_some_iff.1 (Option.mem_toList.1 hd)
    exact (h.primary c (Option.mem_toList.2 hc)).read hread
  · obtain ⟨y, hy, hx⟩ := List.mem_filterMap.1 hx
    obtain ⟨g, hread, rfl⟩ := Option.map_eq_some_iff.1 hx
    exact (h.orderedSources y hy).read (SourceFile.read?_eq_some_iff.1 hread)

theorem isScalar_unreadable {path what : Text} (hpath : path.all Code.isScalar = true)
    (hwhat : what.all Code.isScalar = true) (hfailure : failure.IsScalar) :
    (unreadable path what failure).IsScalar := by
  refine ⟨hpath, ?_⟩
  simp only [unreadable, List.all_append, Text.all_isScalar_ofString, hwhat,
    Failure.all_isScalar_message hfailure, Bool.and_self]

theorem isScalar_of_mem_readCatalogs {cs : List Catalog} (h : ∀ c ∈ cs, c.IsScalar) :
    ∀ x ∈ (readCatalogs s t cs).2.1, x.IsScalar := by
  induction cs with
  | nil => exact nofun
  | cons c rest ih =>
      obtain ⟨hc, hrest⟩ := List.forall_mem_cons.1 h
      rw [readCatalogs]
      cases hread : c.read s t with
      | error failure =>
          refine List.forall_mem_cons.2 ⟨?_, ih hrest⟩
          exact isScalar_unreadable hc.path (by decide) (Catalog.isScalar_of_read hread)
      | ok r => exact ih hrest

theorem isScalar_of_mem_readSources {xs : List (Text × SourceFile)} (h : ∀ x ∈ xs, x.2.IsScalar) :
    ∀ x ∈ (readSources s t xs).2, x.IsScalar := by
  induction xs with
  | nil => exact nofun
  | cons x rest ih =>
      obtain ⟨name, f⟩ := x
      obtain ⟨hf, hrest⟩ := List.forall_mem_cons.1 h
      rw [readSources]
      cases hread : f.read s t with
      | error failure =>
          refine List.forall_mem_cons.2 ⟨?_, ih hrest⟩
          exact isScalar_unreadable hf.path (by decide) (SourceFile.isScalar_of_read hf hread)
      | ok g => exact ih hrest

/-- and neither does what is said about those that cannot be read. -/
theorem IsScalar.isScalar_of_mem_read (h : p.IsScalar) : ∀ x ∈ (p.read s t).2.1, x.IsScalar := by
  intro x hx
  have hx : x ∈ (readCatalogs s t p.primary.toList).2.1 ++ (readCatalogs s t p.secondary).2.1 ++
      (readCatalogs s t p.translated).2.1 ++ (readSources s t p.orderedSources).2 := hx
  simp only [List.mem_append] at hx
  rcases hx with ((hx | hx) | hx) | hx
  · exact isScalar_of_mem_readCatalogs h.primary x hx
  · exact isScalar_of_mem_readCatalogs h.secondary x hx
  · exact isScalar_of_mem_readCatalogs h.translated x hx
  · exact isScalar_of_mem_readSources h.orderedSources x hx

theorem IsScalar.lookUp (h : p.IsScalar) : p.lookUp.IsScalar := by
  refine ⟨fun c hc => ?_, List.forall_mem_map.2 fun c hc => (h.secondary c hc).countUses _,
    h.translated, List.forall_mem_map.2 fun x hx => (h.sources x hx).lookUp _⟩
  obtain ⟨d, hd, rfl⟩ := Option.map_eq_some_iff.1 (Option.mem_toList.1 hc)
  exact (h.primary d (Option.mem_toList.2 hd)).countUses _

theorem IsScalar.addUses (h : p.IsScalar) (n : Text → Nat) : (p.addUses n).IsScalar := by
  refine { h with primary := fun c hc => ?_ }
  obtain ⟨d, hd, rfl⟩ := Option.map_eq_some_iff.1 (Option.mem_toList.1 hc)
  exact (h.primary d (Option.mem_toList.2 hd)).addUses n

/-- **What is found about a package holds no surrogates.** -/
theorem IsScalar.isScalar_of_mem_findings (h : p.IsScalar) : ∀ x ∈ p.findings s t, x.IsScalar := by
  intro x hx
  rcases List.mem_append.1 hx with hx | hx
  · obtain ⟨y, hy, hx⟩ := List.mem_flatMap.1 hx
    exact (h.orderedSources y hy).isScalar_of_mem_findings x hx
  · obtain ⟨c, hc, hx⟩ := List.mem_flatMap.1 hx
    exact (h.reportedCatalogs c hc).isScalar_of_mem_findings x hx

theorem isScalar_of_reportSources (hs : s.formSuffix.all Code.isScalar = true)
    {xs : List (Text × SourceFile)} (h : ∀ x ∈ xs, x.2.IsScalar) {r : Report}
    (hreport : (reportSources s t r xs).2 = some failure) : failure.IsScalar := by
  induction xs generalizing r with
  | nil => cases hreport
  | cons x rest ih =>
      obtain ⟨name, f⟩ := x
      obtain ⟨hf, hrest⟩ := List.forall_mem_cons.1 h
      rw [reportSources, SourceFile.report_eq] at hreport
      cases hform : f.hasForm s t with
      | error other =>
          rw [hform] at hreport
          exact Option.some.inj hreport ▸ hf.isScalar_of_hasForm hs hform
      | ok form =>
          rw [hform] at hreport
          exact ih hrest hreport

theorem IsScalar.isScalar_of_report (h : p.IsScalar) (hs : s.formSuffix.all Code.isScalar = true)
    {r : Report} (hreport : (p.report s t r).2 = some failure) : failure.IsScalar := by
  unfold report at hreport
  split at hreport
  · next hsources =>
      have hfailure : (reportSources s t r p.orderedSources).2 = some failure := by
        rw [hsources]
        exact hreport
      exact isScalar_of_reportSources hs h.orderedSources hfailure
  · cases hreport

end Package

end BundleAudit
