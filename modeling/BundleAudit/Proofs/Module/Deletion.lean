import BundleAudit.Proofs.Module.Layer
import BundleAudit.Proofs.Package.Deletion

/-!
# BundleAudit.Proofs.Module.Deletion

**A scan without an entry that nothing uses.** Each step does to the packages without
the entry what it does to those with it, as none looks its key up: reading
(`readPackages`), then the manifest, and the references of the layer one after the
other (`scan_checkPlatform`). So a whole scan ends in the same way, and its report
lacks just the finding about the entry (`IsDeletedIn.ofFiles`).
-/

namespace BundleAudit.Deletion

open ModuleScan

variable {d : Deletion} {s : Settings} {t t' : Tree} {l : Location} {bytes : Bytes}
  {m : RepositoryModule} {n k : Text → Text → Nat} {x y : ModuleScan} {p : Package}
  {name key path : Text} {manifest : Manifest}

/-- A scan without the entry. -/
def scan (d : Deletion) (s : Settings) (t : Tree) (x : ModuleScan) : ModuleScan :=
  { x with packages := x.packages.map (d.package s t) }

/-- The entry is one of the packages of a scan, and its key is not marked. -/
structure Spares (d : Deletion) (n : Text → Text → Nat) (x : ModuleScan) : Prop where
  catalogs : ∀ p ∈ x.packages, ∀ c, p.primary = some c → d.Matches c
  unmarked : ∀ p ∈ x.packages, ∀ c, p.primary = some c → c.path = d.path → n p.name d.key = 0

theorem Spares.mono (h : d.Spares n x) (hle : ∀ package key, k package key ≤ n package key) :
    d.Spares k x :=
  ⟨h.catalogs, fun p hp c hc hpath =>
    Nat.eq_zero_of_le_zero (h.unmarked p hp c hc hpath ▸ hle p.name d.key)⟩

/-- Marking keeps the entry. -/
theorem Spares.marks (h : d.Spares n x) (hxy : Marks k x y) : d.Spares n y := by
  have horigin : ∀ p ∈ y.packages, ∀ c, p.primary = some c → ∃ q ∈ x.packages, p.name = q.name ∧
      ∃ b, q.primary = some b ∧ c = b.addUses (k q.name) := by
    intro p hp c hc
    rw [hxy.packages] at hp
    obtain ⟨q, hq, rfl⟩ := List.mem_map.1 hp
    obtain ⟨b, hb, rfl⟩ := Option.map_eq_some_iff.1 hc
    exact ⟨q, hq, rfl, b, hb, rfl⟩
  refine ⟨fun p hp c hc => ?_, fun p hp c hc hpath => ?_⟩
  · obtain ⟨q, hq, -, b, hb, rfl⟩ := horigin p hp c hc
    exact (h.catalogs q hq b hb).addUses _
  · obtain ⟨q, hq, hname, b, hb, rfl⟩ := horigin p hp c hc
    rw [hname]
    exact h.unmarked q hq b hb hpath

/-- A key that is marked is still there. -/
theorem Spares.hasKey (h : d.Spares n x) (hp : p ∈ x.packages) {c : Catalog}
    (hc : p.primary = some c) (hkey : n p.name key ≠ 0) :
    (d.catalog c).hasKey key = c.hasKey key := by
  refine hasKey_catalog (h.catalogs p hp c hc) ?_
  rintro hpath rfl
  exact hkey (h.unmarked p hp c hc hpath)

/-! ### Packages -/

theorem package?_scan (d : Deletion) (s : Settings) (t : Tree) (name : Text) (x : ModuleScan) :
    (d.scan s t x).package? name = (x.package? name).map (d.package s t) := by
  unfold package? scan
  rw [List.find?_map]
  rfl

theorem updatePackage_scan {f : Package → Package}
    (hf : ∀ p, f (d.package s t p) = d.package s t (f p)) (name : Text) (x : ModuleScan) :
    (d.scan s t x).updatePackage name f = d.scan s t (x.updatePackage name f) := by
  unfold updatePackage scan
  rw [List.map_map, List.map_map]
  congr 1
  refine List.map_congr_left fun p _ => ?_
  rw [Function.comp_apply, Function.comp_apply, name_package]
  split
  · exact hf p
  · rfl

theorem package_countUses (d : Deletion) (s : Settings) (t : Tree)
    (keys : List Text) (p : Package) :
    { d.package s t p with primary := (d.package s t p).primary.map (·.countUses keys) } =
      d.package s t { p with primary := p.primary.map (·.countUses keys) } := by
  have hcount : (fun c : Catalog => c.countUses keys) = (·.addUses keys.count) :=
    funext (Catalog.countUses_eq keys)
  rw [hcount]
  exact (package_addUses d s t keys.count p).symm

theorem package_countUse (d : Deletion) (s : Settings) (t : Tree) (key : Text) (p : Package) :
    (d.package s t p).countUse key = d.package s t (p.countUse key) := by
  rw [Package.countUse_eq, Package.countUse_eq, package_addUses]

/-! ### The manifest -/

theorem scan_readManifest
    (hread : ∀ path, x.module.manifest = some path → t'.readManifest path = t.readManifest path)
    (d : Deletion) (s : Settings) :
    (d.scan s t' x).readManifest t' =
      (d.scan s t' (x.readManifest t).1, (x.readManifest t).2) := by
  have hmodule : (d.scan s t' x).module = x.module := rfl
  unfold readManifest
  rw [hmodule]
  cases hmanifest : x.module.manifest with
  | none => rfl
  | some path =>
      cases path with
      | nil => rfl
      | cons c rest =>
          dsimp only
          rw [hread _ hmanifest]
          cases t.readManifest (c :: rest) <;> rfl

/-- A key that the manifest demands is in the catalog as before. -/
theorem missingKeys_catalog (h : d.Spares (manifestUses s manifest) x) (hp : p ∈ x.packages)
    (hcatalog : manifest.catalogPackage = some p.name) {c : Catalog} (hc : p.primary = some c) :
    missingKeys s (d.catalog c) = missingKeys s c := by
  have hkeys : ∀ key ∈ s.mandatoryModuleKeys, (!(d.catalog c).hasKey key) = !c.hasKey key := by
    intro key hkey
    refine congrArg _ (h.hasKey hp hc ?_)
    have hcount := List.count_pos_iff.2 hkey
    rw [manifestUses, if_pos hcatalog]
    omega
  unfold missingKeys
  rw [List.filter_congr hkeys, path_catalog]

/-- What the manifest names is looked up as before. -/
theorem scan_checkCatalog (h : d.Spares (manifestUses s manifest) x) (t : Tree) :
    (d.scan s t x).checkCatalog s manifest = d.scan s t (x.checkCatalog s manifest) := by
  unfold checkCatalog
  cases hcatalog : manifest.catalogPackage with
  | none => rfl
  | some name =>
      dsimp only
      rw [package?_scan]
      cases hpackage : x.package? name with
      | none => rfl
      | some p =>
          obtain ⟨hp, rfl⟩ := package?_eq_some hpackage
          rw [Option.map_some, Option.bind_some, Option.bind_some]
          cases hprimary : p.primary with
          | none =>
              have hnone : (d.package s t p).primary = none := by
                rw [package, hprimary]
                rfl
              rw [hnone]
              rfl
          | some c =>
              have hsome : (d.package s t p).primary = some (d.catalog c) := by
                rw [package, hprimary]
                rfl
              rw [hsome]
              dsimp only
              rw [missingKeys_catalog h hp hcatalog hprimary]
              exact updatePackage_scan (package_countUses d s t _) p.name
                { x with report := x.report.addAll (missingKeys s c) }

/-! ### The layer -/

theorem scan_checkReference (path : Text) {r : LayerReference}
    (h : d.Spares (referenceUses [r]) x) (s : Settings) (t : Tree) :
    checkReference path (d.scan s t x) r = d.scan s t (checkReference path x r) := by
  unfold checkReference
  rw [package?_scan]
  cases hpackage : x.package? r.package with
  | none => rfl
  | some p =>
      obtain ⟨hp, hname⟩ := package?_eq_some hpackage
      have hkey : (d.package s t p).hasPrimaryKey r.key = p.hasPrimaryKey r.key := by
        unfold Package.hasPrimaryKey package
        cases hprimary : p.primary with
        | none => rfl
        | some c =>
            refine h.hasKey hp hprimary ?_
            simp [referenceUses, hname]
      rw [Option.map_some]
      dsimp only
      rw [hkey]
      split
      · exact updatePackage_scan (fun q => package_countUse d s t r.key q) r.package x
      · rfl

/-- What the layer refers to is looked up as before, one reference after the other. -/
theorem scan_references (path : Text) {rs : List LayerReference}
    (hx : (x.packages.map (·.name)).Nodup) (h : d.Spares (referenceUses rs) x) (s : Settings)
    (t : Tree) :
    rs.foldl (checkReference path) (d.scan s t x) =
      d.scan s t (rs.foldl (checkReference path) x) := by
  induction rs generalizing x with
  | nil => rfl
  | cons r rest ih =>
      have hstep := marks_checkReference path r hx
      have hsum : ∀ package key, referenceUses (r :: rest) package key =
          referenceUses [r] package key + referenceUses rest package key := by
        intro package key
        unfold referenceUses
        rw [← List.countP_append]
        rfl
      rw [List.foldl_cons, List.foldl_cons,
        scan_checkReference path (h.mono fun package key => ?_)]
      · refine ih (hstep.names ▸ hx) ((h.mono fun package key => ?_).marks hstep)
        rw [hsum]
        exact Nat.le_add_left _ _
      · rw [hsum]
        exact Nat.le_add_right _ _

theorem scan_addLayer (path : Text) {layer : Except Failure (List LayerReference)}
    (hx : (x.packages.map (·.name)).Nodup)
    (h : d.Spares (referenceUses (layer.toOption.getD [])) x) (s : Settings) (t : Tree) :
    (d.scan s t x).addLayer path layer = (x.addLayer path layer).map (d.scan s t) := by
  cases layer with
  | ok references => exact congrArg Except.ok (scan_references path hx h s t)
  | error failure =>
      rw [addLayer, addLayer]
      cases failure.isOfFile <;> rfl

theorem scan_checkLayer (hx : (x.packages.map (·.name)).Nodup)
    (h : d.Spares (referenceUses (layerReferences t x.module manifest)) x)
    (hfile : ∀ path, t'.isFile path = t.isFile path)
    (hlayer : ∀ path, layerPath? x.module manifest = some path →
      t'.readLayer path = t.readLayer path)
    (s : Settings) :
    ((d.scan s t' x).checkLayer t' manifest).2 =
      (x.checkLayer t manifest).2.map (d.scan s t') := by
  have hmodule : (d.scan s t' x).module = x.module := rfl
  unfold layerPath? at hlayer
  unfold layerReferences at h
  unfold checkLayer
  rw [hmodule]
  cases hname : manifest.layerFile with
  | none => rfl
  | some name =>
      cases name with
      | nil => rfl
      | cons c rest =>
          simp only [hname] at h hlayer ⊢
          rw [hfile, hlayer _ rfl]
          generalize ((Path.ofText x.module.sourceRoot).join (Path.ofText (c :: rest))).toText =
            path at h ⊢
          cases hisFile : t.isFile path with
          | error failure => rfl
          | ok isFile =>
              cases isFile with
              | false => rfl
              | true =>
                  rw [hisFile] at h
                  refine scan_addLayer path hx ?_ s t'
                  cases hread : (t.readLayer path).2 with
                  | error failure =>
                      rw [hread] at h
                      exact h
                  | ok references =>
                      rw [hread] at h
                      exact h

/-! ### The platform -/

/-- The manifest and the layer of a module are the same in two trees. -/
structure PlatformAlike (t t' : Tree) (m : RepositoryModule) : Prop where
  manifest : ∀ path, m.manifest = some path → t'.readManifest path = t.readManifest path
  isFile : ∀ path, t'.isFile path = t.isFile path
  layer : ∀ path, (platformManifest? t m).bind (layerPath? m) = some path →
    t'.readLayer path = t.readLayer path

/-- What the manifest and the layer name is looked up as before. -/
theorem scan_checkPlatform (hx : (x.packages.map (·.name)).Nodup)
    (h : d.Spares (platformUses s t x.module) x) (halike : PlatformAlike t t' x.module) :
    ((d.scan s t' x).checkPlatform s t').2 = (x.checkPlatform s t).2.map (d.scan s t') := by
  obtain ⟨hmanifest, hplatform⟩ := marks_readManifest t x
  unfold checkPlatform
  rw [scan_readManifest halike.manifest]
  cases hread : x.readManifest t with
  | mk z manifest? =>
      cases manifest? with
      | none => rfl
      | some manifest =>
          rw [hread] at hmanifest hplatform
          dsimp only
          cases hisPlatform : manifest.isPlatformModule with
          | false => rfl
          | true =>
              rw [Option.filter_some, hisPlatform, if_pos rfl] at hplatform
              have hz : d.Spares (platformUses s t x.module) z := h.marks hmanifest
              have huses : ∀ package key, platformUses s t x.module package key =
                  manifestUses s manifest package key +
                    referenceUses (layerReferences t x.module manifest) package key := by
                intro package key
                rw [platformUses, hplatform]
              have hnames : (z.packages.map (·.name)).Nodup := hmanifest.names ▸ hx
              have hcatalog := marks_checkCatalog s manifest hnames
              have hmodule : (z.checkCatalog s manifest).module = x.module :=
                hcatalog.module.trans hmanifest.module
              rw [if_pos rfl, if_pos rfl, scan_checkCatalog (hz.mono fun package key => ?_)]
              · refine scan_checkLayer (hcatalog.names ▸ hnames) ?_ halike.isFile
                  (fun path hpath => ?_) s
                · rw [hmodule]
                  refine (hz.mono fun package key => ?_).marks hcatalog
                  rw [huses]
                  exact Nat.le_add_left _ _
                · refine halike.layer path ?_
                  rw [hplatform, Option.bind_some, ← hmodule]
                  exact hpath
              · rw [huses]
                exact Nat.le_add_right _ _

/-! ### Reading and reporting -/

/-- What is read of a module, and looked up, is the same but for the entry. -/
theorem IsDeletedIn.readPackages (h : d.IsDeletedIn s t l bytes)
    (honly : ∀ p ∈ x.packages, d.IsOnlyIn t l p)
    (htexts : ∀ p ∈ x.packages, ∀ c ∈ (p.read s t).1.lookupCatalogs, c.path = d.path →
      d.key ∉ (p.read s t).1.texts) :
    (x.readPackages s (t.replaced l bytes)).1 =
      d.scan s (t.replaced l bytes) (x.readPackages s t).1 := by
  have hpackages : ∀ p ∈ x.packages, (p.read s (t.replaced l bytes)).1.lookUp =
      d.package s (t.replaced l bytes) (p.read s t).1.lookUp := by
    intro p hp
    have hfits : d.Fits (p.read s t).1 := by
      refine ⟨fun c hc => ?_, htexts p hp⟩
      obtain ⟨b, -, hread⟩ := exists_of_mem_lookupCatalogs_read hc
      exact h.matches_of_read? hread
    rw [h.fst_read (honly p hp), hfits.lookUp]
  have hfindings : ∀ p ∈ x.packages,
      (p.read s (t.replaced l bytes)).2.1 = (p.read s t).2.1 := fun p hp =>
    h.findings_read (honly p hp)
  unfold ModuleScan.readPackages scan
  dsimp only
  rw [List.map_map, List.map_map, List.map_map, List.flatMap_map, List.flatMap_map]
  congr 1
  · exact List.map_congr_left hpackages
  · exact congrArg _ (List.flatMap_congr hfindings)

/-- The reports on the packages lack just the finding about the entry. -/
theorem reportPackages_scan (h : t.HasFileAt l) (bytes : Bytes)
    (hx : ∀ p ∈ x.packages, p.WellFormed)
    (hmatches : ∀ p ∈ x.packages, ∀ c ∈ p.lookupCatalogs, d.Matches c)
    {r r' : Report} (hr : reportPackages s t r x.packages = .ok r')
    (hunused : r.ofKind .possiblyUnusedEntry = []) :
    reportPackages s (t.replaced l bytes) r (d.scan s (t.replaced l bytes) x).packages =
      .ok { r' with findings := d.findings r'.findings } := by
  have hforms := exists_reportPackages_iff.1 ⟨r', hr⟩
  have hexists : ∃ r₁, reportPackages s (t.replaced l bytes) r
      (d.scan s (t.replaced l bytes) x).packages = .ok r₁ := by
    refine exists_reportPackages_iff.2 (List.forall_mem_map.2 fun p hp f hf => ?_)
    rw [hasForm_replaced h]
    exact hforms p hp f hf
  obtain ⟨r₁, hr₁⟩ := hexists
  have hbefore : d.findings r.findings = r.findings := by
    refine findings_eq_self fun f hf hkind => ?_
    have hmem : f ∈ r.ofKind .possiblyUnusedEntry :=
      List.mem_filter.2 ⟨hf, decide_eq_true hkind⟩
    rw [hunused] at hmem
    cases hmem
  have hfindings : ∀ p ∈ x.packages, (d.package s (t.replaced l bytes) p).findings s
      (t.replaced l bytes) = d.findings (p.findings s t) := by
    intro p hp
    rw [findings_package (hmatches p hp) (hx p hp), findings_replaced h]
  rw [hr₁, reportPackages_eq_ok hr₁, reportPackages_eq_ok hr, Report.extend, Report.extend,
    findings_append, hbefore, findings_flatMap]
  unfold scan
  dsimp only
  rw [List.flatMap_map, List.flatMap_map, List.flatMap_congr hfindings]
  simp only [files_package]

/-! ### The scan -/

/-- The catalogs of a package that was counted are those that were read, with more uses. -/
theorem exists_of_mem_lookupCatalogs_counted {n : Text → Nat} {c : Catalog}
    (hc : c ∈ (counted s t n p).lookupCatalogs) :
    ∃ b ∈ (p.read s t).1.lookupCatalogs, ∃ k, c = b.addUses k := by
  rcases List.mem_append.1 hc with hc | hc
  · obtain ⟨b, hb, rfl⟩ := Option.map_eq_some_iff.1 (Option.mem_toList.1 hc)
    obtain ⟨a, ha, rfl⟩ := Option.map_eq_some_iff.1 hb
    refine ⟨a, List.mem_append_left _ (Option.mem_toList.2 ha),
      fun key => (p.read s t).1.texts.count key + n key, ?_⟩
    rw [Catalog.countUses_eq, Catalog.addUses_addUses]
  · obtain ⟨a, ha, rfl⟩ := List.mem_map.1 hc
    exact ⟨a, List.mem_append_right _ ha, _, Catalog.countUses_eq _ a⟩

/-- At the start of a scan: no other file leads to that of the catalog, and when all is read, no
text is the key, and the platform does not mark it. -/
structure IsUnusedIn (d : Deletion) (s : Settings) (t : Tree) (l : Location) (x : ModuleScan) :
    Prop where
  only : ∀ p ∈ x.packages, d.IsOnlyIn t l p
  texts : ∀ p ∈ x.packages, ∀ c ∈ (p.read s t).1.lookupCatalogs, c.path = d.path →
    d.key ∉ (p.read s t).1.texts
  unmarked : ∀ p ∈ x.packages, ∀ c, (p.read s t).1.primary = some c → c.path = d.path →
    platformUses s t x.module p.name d.key = 0

/-- After the reading, the entry is still one of the packages. -/
theorem IsDeletedIn.spares (h : d.IsDeletedIn s t l bytes) (hstart : start m = .ok x)
    (hunused : d.IsUnusedIn s t l x) :
    d.Spares (platformUses s t m) (x.readPackages s t).1 := by
  have hmodule := (of_start_eq_ok hstart).1
  have horigin : ∀ p ∈ (x.readPackages s t).1.packages, ∀ c, p.primary = some c →
      ∃ q ∈ x.packages, p.name = q.name ∧ ∃ b, (q.read s t).1.primary = some b ∧
        c = b.addUses (q.read s t).1.texts.count := by
    intro p hp c hc
    rw [(readPackages_fst hstart).2.1] at hp
    obtain ⟨q, hq, rfl⟩ := List.mem_map.1 hp
    rw [counted, Package.addUses_zero] at hc
    obtain ⟨b, hb, rfl⟩ := Option.map_eq_some_iff.1 hc
    exact ⟨q, hq, name_counted s t _ q, b, hb, Catalog.countUses_eq _ b⟩
  refine ⟨fun p hp c hc => ?_, fun p hp c hc hpath => ?_⟩
  · obtain ⟨q, hq, -, b, hb, rfl⟩ := horigin p hp c hc
    obtain ⟨a, -, hread⟩ := exists_of_mem_lookupCatalogs_read
      (List.mem_append_left _ (Option.mem_toList.2 hb))
    exact (h.matches_of_read? hread).addUses _
  · obtain ⟨q, hq, hname, b, hb, rfl⟩ := horigin p hp c hc
    rw [hname, ← hmodule]
    exact hunused.unmarked q hq b hb hpath

theorem IsDeletedIn.ofFiles (h : d.IsDeletedIn s t l bytes) (hstart : start m = .ok x)
    (hunused : d.IsUnusedIn s t l x) (halike : PlatformAlike t (t.replaced l bytes) m)
    (hy : (ofFiles s t m).2 = .ok y) :
    (ModuleScan.ofFiles s (t.replaced l bytes) m).2 =
      .ok { d.scan s (t.replaced l bytes) y with
        report := { y.report with findings := d.findings y.report.findings } } := by
  obtain ⟨x', z, report, hstart', hplatform, hreport, rfl⟩ := ofFiles_cases hy
  obtain rfl : x = x' := Except.ok.inj (hstart.symm.trans hstart')
  obtain ⟨-, -, -, hofFiles⟩ := of_start_eq_ok hstart
  obtain ⟨hmodule, -, hnone, -⟩ := readPackages_fst (s := s) (t := t) hstart
  have hnodup := nodup_names_readPackages hstart s t
  have hmarks := marks_checkPlatform hnodup hplatform
  have hpackages := packages_of_checkPlatform hstart hplatform
  have hstep := scan_checkPlatform (s := s) hnodup (hmodule.symm ▸ h.spares hstart hunused)
    (hmodule.symm ▸ halike)
  have hwellFormed : ∀ p ∈ z.packages, p.WellFormed := by
    rw [hpackages]
    exact List.forall_mem_map.2 fun q hq => wellFormed_counted (hofFiles q hq) s t _
  have hmatches : ∀ p ∈ z.packages, ∀ c ∈ p.lookupCatalogs, d.Matches c := by
    rw [hpackages]
    refine List.forall_mem_map.2 fun q _ c hc => ?_
    obtain ⟨b, hb, k, rfl⟩ := exists_of_mem_lookupCatalogs_counted hc
    obtain ⟨a, -, hread⟩ := exists_of_mem_lookupCatalogs_read hb
    exact (h.matches_of_read? hread).addUses k
  have hfinish := reportPackages_scan h.file bytes hwellFormed hmatches hreport
    (hmarks.unused.trans hnone)
  rw [ModuleScan.ofFiles, hstart]
  dsimp only
  rw [h.readPackages hunused.only hunused.texts, hstep, hplatform]
  exact congrArg (Except.map _) hfinish

end BundleAudit.Deletion
