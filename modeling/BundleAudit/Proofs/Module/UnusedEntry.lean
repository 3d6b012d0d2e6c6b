import BundleAudit.Proofs.Module.Deletion
import BundleAudit.Proofs.Module.Placement

/-!
# BundleAudit.Proofs.Module.UnusedEntry

**An entry that is reported to be unused can be deleted.** The uses that a scan counts
are those of all sources, of the manifest and of the layer, so the finding says that
none of them looks the key up (`exists_of_finding`). What is left is that nothing else
that the scan reads is the file of the catalog (`IsAlone`); then the scan of the module
without the lines of the entry is the same but for the finding
(`report_ofModule_deleted`).
-/

namespace BundleAudit.Deletion

open ModuleScan RepositoryModule

variable {d : Deletion} {s : Settings} {t : Tree} {l : Location} {bytes : Bytes}
  {m : RepositoryModule} {x y : ModuleScan} {p : Package} {key path : Text}

/-! ### The files of a module -/

/-- Among what a scan reads for its findings, just one catalog is the file at a location: no source
and no other catalog in which texts are looked up is this file, nor is the manifest or the layer.
-/
structure IsAlone (t : Tree) (l : Location) (m : RepositoryModule) (f : ModuleFile) : Prop where
  mem : f ∈ m.files
  kind : f.kind = .primaryCatalog ∨ f.kind = .secondaryCatalog
  leads : t.LeadsAt l f.path
  files : ∀ g ∈ m.files, g ≠ f → g.kind ≠ .translatedCatalog → ¬t.LeadsAt l g.path
  manifest : ∀ path, m.manifest = some path → ¬t.LeadsAt l path
  layer : ∀ path, (platformManifest? t m).bind (layerPath? m) = some path → ¬t.LeadsAt l path

variable {f g : ModuleFile}

/-- Of the files that are collected in a directory tree, no two are at one location. -/
theorem eq_of_leadsAt (ht : t.IsSound) {m' : RepositoryModule} {log : Log}
    (h : m.collectFiles s t = .ok (m', log)) (hf : f ∈ m'.files) (hg : g ∈ m'.files)
    (hleads : t.LeadsAt l f.path) (hleads' : t.LeadsAt l g.path) : f = g := by
  obtain ⟨root, hroot, -, rfl⟩ := exists_isRootedAt_of_mem ht h hf
  obtain ⟨around, name, hstands, hfile⟩ := (mem_filesAt_iff ht).1 hf
  obtain ⟨around', name', hstands', hfile'⟩ := (mem_filesAt_iff ht).1 hg
  have hl : l = root ++ around ++ [name] := hroot.location_eq ht hstands hfile hleads
  have hl' : l = root ++ around' ++ [name'] := hroot.location_eq ht hstands' hfile' hleads'
  rw [List.append_assoc] at hl hl'
  have hnames := List.append_cancel_left (hl.symm.trans hl')
  have hsame := file?_of_standsAt hstands
  rw [hnames, file?_of_standsAt hstands'] at hsame
  exact (Option.some.inj hsame).symm

/-- So just the manifest and the layer can be the file of a catalog that was collected. -/
theorem IsAlone.of_collectFiles (ht : t.IsSound) {m' : RepositoryModule} {log : Log}
    (h : m.collectFiles s t = .ok (m', log)) (hf : f ∈ m'.files)
    (hkind : f.kind = .primaryCatalog ∨ f.kind = .secondaryCatalog) (hleads : t.LeadsAt l f.path)
    (hmanifest : ∀ path, m'.manifest = some path → ¬t.LeadsAt l path)
    (hlayer : ∀ path, (platformManifest? t m').bind (layerPath? m') = some path →
      ¬t.LeadsAt l path) : IsAlone t l m' f :=
  ⟨hf, hkind, hleads, fun _ hg hne _ hleads' => hne (eq_of_leadsAt ht h hg hf hleads' hleads),
    hmanifest, hlayer⟩

theorem IsAlone.platformAlike (h : IsAlone t l m f) (hfile : t.HasFileAt l) (bytes : Bytes) :
    PlatformAlike t (t.replaced l bytes) m where
  manifest path hpath := by
    unfold Tree.readManifest Tree.readLines
    rw [hfile.read_replaced bytes (h.manifest path hpath)]
  isFile := hfile.isFile_replaced bytes
  layer path hpath := by
    unfold Tree.readLayer
    rw [hfile.read_replaced bytes (h.layer path hpath)]
    rfl

/-- A catalog in which texts are looked up is the one at the location, or it does not lead there. -/
theorem IsAlone.lookupCatalog (h : IsAlone t l m f) (hstart : start m = .ok x)
    (hp : p ∈ x.packages) {c : Catalog} (hc : c ∈ p.lookupCatalogs) :
    (p.name = f.package ∧ c = f.catalog) ∨ ¬t.LeadsAt l c.path := by
  obtain ⟨g, hg, rfl⟩ := (mem_packages_iff hstart).1 hp
  obtain ⟨e, he, hkind, rfl⟩ := exists_of_mem_lookupCatalogs hc
  obtain ⟨hmem, hpackage⟩ := List.mem_filter.1 he
  by_cases heq : e = f
  · subst heq
    exact .inl ⟨(of_decide_eq_true hpackage).symm, rfl⟩
  · refine .inr (h.files e hmem heq ?_)
    rcases hkind with hkind | hkind
    · rw [hkind]
      decide
    · rw [hkind]
      decide

theorem IsAlone.isOnlyIn (h : IsAlone t l m f) (hstart : start m = .ok x) (hpath : d.path = f.path)
    (hp : p ∈ x.packages) : d.IsOnlyIn t l p := by
  refine ⟨fun c hc => ?_, fun g hg => ?_⟩
  · rcases h.lookupCatalog hstart hp hc with ⟨-, rfl⟩ | hnot
    · exact .inl hpath.symm
    · exact .inr hnot
  · obtain ⟨e, -, rfl⟩ := (mem_packages_iff hstart).1 hp
    obtain ⟨b, hb, hkind, hsource⟩ := exists_of_mem_sources hg
    rw [hsource]
    refine h.files b (List.mem_of_mem_filter hb) ?_ (by rw [hkind]; decide)
    rintro rfl
    rcases h.kind with heq | heq <;> cases hkind.symm.trans heq

/-- A catalog at the path is the one at the location. -/
theorem IsAlone.of_path (h : IsAlone t l m f) (hstart : start m = .ok x) (hp : p ∈ x.packages)
    {c : Catalog} (hc : c ∈ p.lookupCatalogs) (hpath : c.path = f.path) :
    p.name = f.package ∧ c = f.catalog :=
  (h.lookupCatalog hstart hp hc).resolve_right fun hnot => hnot (hpath ▸ h.leads)

/-! ### The finding -/

theorem exists_of_finding_mem_unused {n : Text → Nat} {c : Catalog}
    (h : d.finding ∈ c.unused n) :
    c.path = d.path ∧ n d.key = 0 ∧
      ∃ e ∈ c.entries, e.line = d.line ∧ e.key = d.key ∧ e.intentional = false := by
  obtain ⟨e, he, heq⟩ := List.mem_map.1 h
  obtain ⟨hmem, hnone⟩ := List.mem_filter.1 he
  rw [finding, Finding.mk.injEq] at heq
  obtain ⟨-, hpath, hline, hkey⟩ := heq
  rw [Bool.and_eq_true, beq_iff_eq, Bool.not_eq_true'] at hnone
  exact ⟨hpath, hkey ▸ hnone.1, e, hmem, Int.ofNat.inj hline, hkey, hnone.2⟩

/-- What is reported as unused is an entry of a catalog that was read. Its key is no text of a
source, and if the catalog is a primary one, the platform does not mark it. -/
theorem exists_of_finding (hstart : start m = .ok x) (hy : (ModuleScan.ofFiles s t m).2 = .ok y)
    (hfound : d.finding ∈ y.report.findings) :
    ∃ p ∈ x.packages, d.key ∉ (p.read s t).1.texts ∧
      ∃ c ∈ (p.read s t).1.lookupCatalogs, c.path = d.path ∧
        (c.kind = .primaryCatalog → platformUses s t m p.name d.key = 0) ∧
        ∃ e ∈ c.entries, e.line = d.line ∧ e.key = d.key ∧ e.intentional = false := by
  have hmem : d.finding ∈ y.report.ofKind .possiblyUnusedEntry :=
    List.mem_filter.2 ⟨hfound, decide_eq_true rfl⟩
  obtain ⟨x', r, hstart', -, hpackages, -⟩ := of_ofFiles_eq_ok hy
  obtain rfl : x = x' := Except.ok.inj (hstart.symm.trans hstart')
  rw [(accounted_ofFiles hy).unused, hpackages, List.flatMap_map] at hmem
  obtain ⟨p, hp, hmem⟩ := List.mem_flatMap.1 hmem
  have hkinds := wellFormed_counted ((of_start_eq_ok hstart).2.2.2 p hp) s t
    (platformUses s t m p.name)
  rw [texts_counted, name_counted] at hmem
  obtain ⟨c, hc, hpath, htexts, hmarks, e, he, hentry⟩ :
    ∃ c ∈ (counted s t (platformUses s t m p.name)
      p).lookupCatalogs, c.path = d.path ∧ (p.read s t).1.texts.count d.key = 0 ∧
        (c.kind = .primaryCatalog → platformUses s t m p.name d.key = 0) ∧
        ∃ e ∈ c.entries, e.line = d.line ∧ e.key = d.key ∧ e.intentional = false := by
    rcases List.mem_append.1 hmem with hmem | hmem
    · obtain ⟨c, hc, hmem⟩ := List.mem_flatMap.1 hmem
      obtain ⟨hpath, hnone, hentry⟩ := exists_of_finding_mem_unused hmem
      exact ⟨c, List.mem_append_left _ hc, hpath, Nat.eq_zero_of_add_eq_zero_right hnone,
        fun _ => Nat.eq_zero_of_add_eq_zero_left hnone, hentry⟩
    · obtain ⟨c, hc, hmem⟩ := List.mem_flatMap.1 hmem
      obtain ⟨hpath, hnone, hentry⟩ := exists_of_finding_mem_unused hmem
      have hc := (Text.perm_sortBy Catalog.path _).mem_iff.1 hc
      refine ⟨c, List.mem_append_right _ hc, hpath, hnone, fun hkind => ?_, hentry⟩
      cases hkind.symm.trans (hkinds.secondary c hc)
  -- the uses that were counted do not change what was read of the entry
  obtain ⟨b, hb, k, rfl⟩ := exists_of_mem_lookupCatalogs_counted hc
  obtain ⟨a, ha, rfl⟩ := List.mem_map.1 he
  exact ⟨p, hp, List.count_eq_zero.1 htexts, b, hb, hpath, hmarks, a, ha, hentry⟩

/-- What was read of a catalog are the entries of the lines of its file. -/
theorem mem_ofLines_of_read? {a c : Catalog} {e : CatalogEntry} {old : Bytes}
    (hc : a.read? s t = some c) (hpath : c.path = path) (hread : t.read path = .ok old)
    (he : e ∈ c.entries) :
    e ∈ (CatalogEntry.ofLines s.intentionalMarker (Text.linesOfBytes old)).1 := by
  obtain ⟨hsame, -, -⟩ := Catalog.of_read?_eq_some hc
  rw [Catalog.read?_eq, ← hsame, hpath, hread] at hc
  obtain rfl := Option.some.inj hc
  exact he

/-- So an entry that is reported as unused is not in use, if its catalog is alone. -/
theorem IsAlone.isUnusedIn (h : IsAlone t l m f) (hpath : d.path = f.path)
    (hstart : start m = .ok x) (hy : (ModuleScan.ofFiles s t m).2 = .ok y)
    (hfound : d.finding ∈ y.report.findings) : d.IsUnusedIn s t l x := by
  obtain ⟨p, hp, htexts, c, hc, hcpath, hmarks, -⟩ := exists_of_finding hstart hy hfound
  obtain ⟨hmodule, -, hascending, hofFiles⟩ := of_start_eq_ok hstart
  have hnodup : (x.packages.map (·.name)).Nodup := hascending.imp fun hlt => Text.ne_of_lt hlt
  -- a catalog of the path is that of the file, before and after it is read
  have hown : ∀ q ∈ x.packages, ∀ b ∈ (q.read s t).1.lookupCatalogs, b.path = d.path →
      q.name = f.package ∧ b.kind = f.kind := by
    intro q hq b hb hbpath
    obtain ⟨a, ha, hread⟩ := exists_of_mem_lookupCatalogs_read hb
    obtain ⟨hsame, hkind, -⟩ := Catalog.of_read?_eq_some hread
    obtain ⟨hname, rfl⟩ := h.of_path hstart hq ha (hsame.symm.trans (hbpath.trans hpath))
    exact ⟨hname, hkind⟩
  obtain ⟨hname, hkind⟩ := hown p hp c hc hcpath
  have heq : ∀ q ∈ x.packages, q.name = f.package → q = p := fun q hq hqname =>
    List.inj_on_of_nodup_map hnodup hq hp (hqname.trans hname.symm)
  refine ⟨fun q hq => h.isOnlyIn hstart hpath hq, fun q hq b hb hbpath => ?_,
    fun q hq b hb hbpath => ?_⟩
  · rw [heq q hq (hown q hq b hb hbpath).1]
    exact htexts
  · obtain ⟨hqname, hbkind⟩ := hown q hq b (List.mem_append_left _ (Option.mem_toList.2 hb)) hbpath
    have hprimary := ((hofFiles q hq).wellFormed.read s t).primary b hb
    rw [heq q hq hqname, hmodule]
    exact hmarks (hkind.trans (hbkind.symm.trans hprimary))

/-! ### The module -/

theorem closedBelow?_replaced (h : t.HasFileAt l) (bytes : Bytes) (depth : Nat) (sourceRoot : Path)
    (directory : Location) :
    closedBelow? depth sourceRoot ((t.replaced l bytes).entriesWithin directory) =
      closedBelow? depth sourceRoot (t.entriesWithin directory) := by
  have hmapped : ∀ entries : List (List Text × Entry), closedBelow? depth sourceRoot entries =
      (entries.map fun x => (x.1, decide (x.2 = .directory))).findSome? fun x =>
        if x.2 then closed? depth sourceRoot x.1 .directory else none := by
    intro entries
    rw [closedBelow?, List.findSome?_map]
    congr 1
    funext x
    obtain ⟨names, e⟩ := x
    cases e <;> rfl
  rw [hmapped, hmapped, h.entriesWithin_replaced]

/-- The same files are collected, or the same failure ends it. -/
theorem withFiles_replaced (h : t.HasFileAt l) (bytes : Bytes) (s : Settings)
    (m : RepositoryModule) : withFiles s (t.replaced l bytes) m = withFiles s t m := by
  have hfiles : ∀ u : Tree, (m.collectFiles s u).map Prod.fst =
      ((filesBelow s u (Path.ofText m.sourceRoot)).map Prod.fst).map fun files =>
      { m with files } := by
    intro u
    unfold collectFiles
    cases filesBelow s u (Path.ofText m.sourceRoot) <;> rfl
  have hbelow : (filesBelow s (t.replaced l bytes) (Path.ofText m.sourceRoot)).map Prod.fst =
      (filesBelow s t (Path.ofText m.sourceRoot)).map Prod.fst := by
    unfold filesBelow
    rw [h.isDirectory_replaced, h.place_replaced]
    cases t.isDirectory (Path.ofText m.sourceRoot).toText with
    | error failure => rfl
    | ok isDirectory =>
        have hdepths : (t.replaced l bytes).depths = t.depths := rfl
        simp only [closedBelow?_replaced h, h.filesWithin_replaced, hdepths, bind, Except.bind]
        split
        · split
          · split <;> rfl
          · rfl
        · rfl
  rw [withFiles, withFiles, hfiles, hfiles, hbelow]

/-- Where the lines of an entry are deleted from a file, the entry is deleted from the catalog. -/
theorem isDeletedIn_of_lines {old : Bytes} {xs record ys : List Text} {e : CatalogEntry}
    (hfile : t.HasFileAt l) (hleads : t.LeadsAt l path) (hread : t.read path = .ok old)
    (hold : Text.linesOfBytes old = xs ++ (record ++ ys))
    (hnew : Text.linesOfBytes bytes = xs ++ ys)
    (hrecord : CatalogEntry.IsRecord record ys)
    (he : e ∈ (CatalogEntry.ofLines s.intentionalMarker (xs ++ (record ++ ys))).1)
    (hline : e.line = xs.length + 1) (hintentional : e.intentional = false)
    (honce : ∀ b ∈ (CatalogEntry.ofLines s.intentionalMarker xs).1, b.key ≠ e.key) :
    IsDeletedIn ⟨path, e.key, xs.length + 1, record.length⟩ s t l bytes := by
  refine ⟨hfile, hleads, old, hread, fun c hc =>
    ⟨⟨fun _ b hb heq => ?_, fun _ b hb hlater => ?_⟩, ?_⟩⟩
  · rw [Catalog.withBytes, hold] at hb
    exact CatalogEntry.key_eq_of_line_eq hb he (heq.trans hline.symm)
  · rw [Catalog.withBytes, hold] at hb
    exact CatalogEntry.le_line_of_lt hrecord he hline honce hb hlater
  · have hown : (c.withBytes s old).path = path := hc
    rw [catalog, if_pos hown, Catalog.withBytes, Catalog.withBytes, hnew, hold,
      CatalogEntry.ofLines_deleted hrecord he hline hintentional honce]

/-- **Deleting an entry that is reported to be unused is safe.** Its key must be defined once in
its catalog: a later definition would have taken its place, so there is none before it. Then
without all its lines the scan is completed as before, and the report lacks the finding about it.
-/
theorem report_ofModule_deleted {old : Bytes} {xs record ys : List Text}
    (hy : (ofModule s t m).2 = .ok y) (hf : IsAlone t l y.module f)
    (hread : t.read f.path = .ok old) (hold : Text.linesOfBytes old = xs ++ (record ++ ys))
    (hrecord : CatalogEntry.IsRecord record ys) (hnew : Text.linesOfBytes bytes = xs ++ ys)
    (hfound : ⟨.possiblyUnusedEntry, f.path, (xs.length + 1 : Nat), key⟩ ∈ y.report.findings)
    (honce : ∀ e ∈ (CatalogEntry.ofLines s.intentionalMarker xs).1, e.key ≠ key) :
    ∃ y', (ofModule s (t.replaced l bytes) m).2 = .ok y' ∧ y'.report = { y.report with
      findings := findings ⟨f.path, key, xs.length + 1, record.length⟩ y.report.findings } := by
  have hfile : t.HasFileAt l := by
    obtain ⟨-, k, hplace, hentry⟩ := Tree.read_eq_ok_iff.1 hread
    obtain rfl : k = l := Tree.Place.found.inj (Except.ok.inj (hplace.symm.trans hf.leads))
    exact ⟨old, hentry⟩
  rw [ofModule_snd] at hy
  obtain ⟨m', hfiles, hy⟩ := Failure.bind_eq_ok_iff.1 hy
  obtain ⟨x, r, hstart, hmodule, -⟩ := of_ofFiles_eq_ok hy
  rw [hmodule] at hf
  obtain ⟨p, -, -, c, hc, hpath, -, e, he, hline, rfl, hintentional⟩ :=
    exists_of_finding (d := ⟨f.path, key, xs.length + 1, record.length⟩) hstart hy hfound
  obtain ⟨a, -, hcatalog⟩ := exists_of_mem_lookupCatalogs_read hc
  have he := mem_ofLines_of_read? hcatalog hpath hread he
  rw [hold] at he
  have hdeleted := isDeletedIn_of_lines hfile hf.leads hread hold hnew hrecord he hline
    hintentional honce
  have hunused : IsUnusedIn ⟨f.path, e.key, xs.length + 1, record.length⟩ s t l x :=
    hf.isUnusedIn rfl hstart hy hfound
  have hscan := hdeleted.ofFiles hstart hunused (hf.platformAlike hfile bytes) hy
  refine ⟨_, Eq.trans ?_ hscan, rfl⟩
  rw [ofModule_snd, withFiles_replaced hfile, hfiles]
  rfl

/-- A tree with a catalog in which an entry without a use goes over two lines. -/
def sampleTree : Tree :=
  { entries :=
      [([Text.ofString "p"], .directory),
        ([Text.ofString "p", Text.ofString "A.java"], .ofText "a = \"one\";\n"),
        ([Text.ofString "p", Text.ofString "Bundle.properties"],
          .ofText "one=1\ntwo=2,\\\n  3\nfour=4\n")] }

/-- The module of these files. -/
def sampleModule : RepositoryModule where
  identity := "m"
  root := "/"
  sourceRoot := "/"
  files := [⟨"p", "/p/A.java", .source⟩, ⟨"p", "/p/Bundle.properties", .primaryCatalog⟩]

/-- Where the catalog stands. -/
def sampleLocation : Location := [Text.ofString "p", Text.ofString "Bundle.properties"]

theorem isAlone_sample : IsAlone sampleTree sampleLocation sampleModule
    ⟨"p", "/p/Bundle.properties", .primaryCatalog⟩ where
  mem := by decide
  kind := .inl rfl
  leads := by decide +kernel
  files := by decide +kernel
  manifest path h := by cases h
  layer path h := by cases h

theorem report_ofModule_deleted_sample :
    ∃ y y', (ofModule .standard sampleTree sampleModule).2 = .ok y ∧
      y.report.findings =
        [⟨.possiblyUnusedEntry, "/p/Bundle.properties", 2, "two"⟩,
          ⟨.possiblyUnusedEntry, "/p/Bundle.properties", 4, "four"⟩] ∧
      (ofModule .standard
        (sampleTree.replaced sampleLocation
          ((Text.ofString "one=1\nfour=4\n").flatMap Text.utf8Code))
        sampleModule).2 = .ok y' ∧
      y'.report.findings = [⟨.possiblyUnusedEntry, "/p/Bundle.properties", 2, "four"⟩] := by
  have hscan : (ofModule .standard sampleTree sampleModule).2.toOption.map
      (fun y => (y.module, y.report.findings)) = some (sampleModule,
        [⟨.possiblyUnusedEntry, "/p/Bundle.properties", 2, "two"⟩,
          ⟨.possiblyUnusedEntry, "/p/Bundle.properties", 4, "four"⟩]) := by
    decide +kernel
  obtain ⟨y, hy, hreport⟩ := Option.map_eq_some_iff.1 hscan
  obtain ⟨hmodule, hfindings⟩ := Prod.mk.inj hreport
  have hy := Failure.eq_ok_of_toOption hy
  have hread : sampleTree.read "/p/Bundle.properties" =
      .ok ((Text.ofString "one=1\ntwo=2,\\\n  3\nfour=4\n").flatMap Text.utf8Code) :=
    Failure.eq_ok_of_toOption (by decide +kernel)
  have hold : Text.linesOfBytes
      ((Text.ofString "one=1\ntwo=2,\\\n  3\nfour=4\n").flatMap Text.utf8Code) =
        (["one=1"] : List Text) ++
          ((["two=2,\\", "  3"] : List Text) ++ (["four=4"] : List Text)) := by
    decide +kernel
  have hnew : Text.linesOfBytes ((Text.ofString "one=1\nfour=4\n").flatMap Text.utf8Code) =
      (["one=1"] : List Text) ++ (["four=4"] : List Text) := by
    decide +kernel
  have hrecord : CatalogEntry.IsRecord ["two=2,\\", "  3"] ["four=4"] :=
    ⟨by decide +kernel, fun h => absurd h (by decide +kernel)⟩
  have hfound : ⟨.possiblyUnusedEntry, "/p/Bundle.properties", 2, "two"⟩ ∈ y.report.findings := by
    rw [hfindings]
    exact List.mem_cons_self
  obtain ⟨y', hy', hreport'⟩ := report_ofModule_deleted hy (hmodule ▸ isAlone_sample) hread hold
    hrecord hnew hfound (by decide +kernel)
  refine ⟨y, y', hy, hfindings, hy', ?_⟩
  rw [hreport']
  dsimp only
  rw [hfindings]
  decide +kernel

/-- A tree of a platform module that names its catalog as its layer. -/
def layeredTree : Tree :=
  { entries :=
      [([Text.ofString "manifest.mf"],
          .ofText "OpenIDE-Module: m\nOpenIDE-Module-Layer: p/Bundle.properties\n"),
        ([Text.ofString "p"], .directory),
        ([Text.ofString "p", Text.ofString "Bundle.properties"],
          .ofText "<a bundlevalue=\"p.Bundle#zzz\"/>\n")] }

/-- This module. The one line of its catalog is an entry, and a document that refers to a key. -/
def layeredModule : RepositoryModule where
  identity := "m"
  root := "/"
  sourceRoot := "/"
  manifest := some "/manifest.mf"
  files := [⟨"p", "/p/Bundle.properties", .primaryCatalog⟩]

/-- Without the entry the layer is no document, and the finding about its reference is gone, too. -/
theorem unusedEntry_is_layer :
    ∃ y y', (ofModule .standard layeredTree layeredModule).2 = .ok y ∧
      layeredTree.LeadsAt sampleLocation "/p/Bundle.properties" ∧
      layeredTree.read "/p/Bundle.properties" =
        .ok ((Text.ofString "<a bundlevalue=\"p.Bundle#zzz\"/>\n").flatMap Text.utf8Code) ∧
      Text.linesOfBytes
        ((Text.ofString "<a bundlevalue=\"p.Bundle#zzz\"/>\n").flatMap Text.utf8Code) =
          ([] : List Text) ++ ((["<a bundlevalue=\"p.Bundle#zzz\"/>"] : List Text) ++ []) ∧
      CatalogEntry.IsRecord ["<a bundlevalue=\"p.Bundle#zzz\"/>"] [] ∧
      Text.linesOfBytes [] = ([] : List Text) ++ [] ∧
      ⟨.possiblyUnusedEntry, "/p/Bundle.properties", 1, "<a bundlevalue"⟩ ∈ y.report.findings ∧
      (∀ e ∈ (CatalogEntry.ofLines Settings.standard.intentionalMarker []).1,
        e.key ≠ "<a bundlevalue") ∧
      (ofModule .standard (layeredTree.replaced sampleLocation []) layeredModule).2 = .ok y' ∧
      y'.report.findings ≠
        findings ⟨"/p/Bundle.properties", "<a bundlevalue", 1, 1⟩ y.report.findings := by
  have hscan : (ofModule .standard layeredTree layeredModule).2.toOption.map (·.report.findings) =
      some [⟨.layerDefinition, "/p/Bundle.properties", 1,
          "Missing resource bundle key zzz specified in layer file: /bundlevalue"⟩,
        ⟨.possiblyUnusedEntry, "/p/Bundle.properties", 1, "<a bundlevalue"⟩] := by
    decide +kernel
  have hscan' : (ofModule .standard (layeredTree.replaced sampleLocation [])
      layeredModule).2.toOption.map (·.report.findings) = some [] := by
    decide +kernel
  obtain ⟨y, hy, hfindings⟩ := Option.map_eq_some_iff.1 hscan
  obtain ⟨y', hy', hfindings'⟩ := Option.map_eq_some_iff.1 hscan'
  refine ⟨y, y', Failure.eq_ok_of_toOption hy, by decide +kernel,
    Failure.eq_ok_of_toOption (by decide +kernel), by decide +kernel, fun _ => rfl,
    by decide +kernel, ?_, by decide +kernel, Failure.eq_ok_of_toOption hy', ?_⟩
  · rw [hfindings]
    exact List.mem_cons_of_mem _ List.mem_cons_self
  · rw [hfindings', hfindings]
    decide +kernel

end BundleAudit.Deletion
