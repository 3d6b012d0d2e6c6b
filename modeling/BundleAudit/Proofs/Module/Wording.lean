import BundleAudit.Proofs.Layer
import BundleAudit.Proofs.Module.Collection
import BundleAudit.Proofs.Module.Discovery
import BundleAudit.Proofs.Module.Platform
import BundleAudit.Proofs.Package.Wording
import BundleAudit.Proofs.Xml.Elements

/-!
# BundleAudit.Proofs.Module.Wording

**What is said about a module holds no surrogates** if the paths of the module hold none
(`gives_ofFiles`). What its manifest and its layer name is read from files, or from
documents, which hold none.
-/

namespace BundleAudit

variable {s : Settings} {t : Tree} {failure : Failure}

/-! ### Manifests -/

namespace Manifest

variable {r : Reading} {line : Text} {lines : List Text}

theorem all_isScalar_readLine (hr : ∀ a ∈ r.attributes, a.2.all Code.isScalar = true)
    (hline : line.all Code.isScalar = true) :
    ∀ a ∈ (readLine r line).attributes, a.2.all Code.isScalar = true := by
  intro a ha
  unfold readLine at ha
  split at ha
  · next more name _ =>
      rcases KeyedList.mem_of_mem_set ha with rfl | ha
      · have hvalue : ((r.attributes.get? name).getD []).all Code.isScalar = true := by
          cases hget : r.attributes.get? name with
          | none => rfl
          | some value => exact hr _ (KeyedList.mem_of_get?_eq_some hget)
        rw [List.all_append, hvalue, (Bool.and_eq_true_iff.1 hline).2]
        rfl
      · exact hr a ha
  · split at ha
    · exact hr a ha
    · next name value hcut =>
        rcases KeyedList.mem_of_mem_set ha with rfl | ha
        · refine Text.all_isScalar_of_subset (fun c hc => ?_) hline
          rw [(Text.of_cut?_eq_some hcut).1]
          exact List.mem_append_right _ (List.mem_cons_of_mem _
            ((Text.trim_sublist value).subset hc))
        · exact hr a ha

theorem all_isScalar_attributes (h : ∀ line ∈ lines, line.all Code.isScalar = true) :
    ∀ a ∈ attributes lines, a.2.all Code.isScalar = true := by
  have hrun : ∀ r : Reading, (∀ a ∈ r.attributes, a.2.all Code.isScalar = true) →
      ∀ a ∈ (lines.foldl readLine r).attributes, a.2.all Code.isScalar = true := by
    induction lines with
    | nil => exact fun r hr => hr
    | cons line rest ih =>
        obtain ⟨hline, hrest⟩ := List.forall_mem_cons.1 h
        exact fun r hr => ih hrest _ (all_isScalar_readLine hr hline)
  exact hrun {} nofun

/-- The name of a layer is read from the file. -/
theorem all_isScalar_layerFile {path : Text} {manifest : Manifest}
    (h : t.readManifest path = .ok manifest) {name : Text}
    (hname : manifest.layerFile = some name) :
    name.all Code.isScalar = true := by
  obtain ⟨lines, hlines, rfl⟩ := Failure.map_eq_ok_iff.1 h
  obtain ⟨value, hvalue, rfl⟩ := Option.map_eq_some_iff.1 hname
  have hget := (Option.filter_eq_some_iff.1 hvalue).1
  refine Text.all_isScalar_of_subset (fun c hc => (Text.trim_sublist value).subset hc) ?_
  exact all_isScalar_attributes
    (fun line hline => List.all_eq_true.2 (Tree.isScalar_of_mem_readLines hlines line hline)) _
    (KeyedList.mem_of_get?_eq_some hget)

end Manifest

/-! ### Layers -/

/-- A reference that holds no surrogates in what is said of it. -/
structure LayerReference.IsScalar (r : LayerReference) : Prop where
  key : r.key.all Code.isScalar = true
  place : r.place.all Code.isScalar = true

namespace Layer

variable {e : Xml.Element} {names : List Text} {depth : Nat} {source : Text} {bytes : Bytes}

/-- A bundle value that holds no surrogates. -/
structure BundleValue.IsScalar (v : BundleValue) : Prop where
  names : ∀ name ∈ v.names, name.all Code.isScalar = true
  value : v.value.all Code.isScalar = true

theorem all_isScalar_of_isCharacter {value : Text} (h : ∀ c ∈ value, Xml.isCharacter c = true) :
    value.all Code.isScalar = true :=
  List.all_eq_true.2 fun c hc => Xml.isScalar_of_isCharacter (h c hc)

theorem all_isScalar_namesTo {name : Text} {attributes : KeyedList Text Text}
    {children : List Xml.Element}
    (hvalues : ∀ a ∈ attributes, ∀ c ∈ a.2, Xml.isCharacter c = true)
    (hnames : ∀ n ∈ names, n.all Code.isScalar = true) :
    ∀ n ∈ namesTo names (.mk name attributes children), n.all Code.isScalar = true := by
  unfold namesTo
  split
  · next c rest hname =>
      refine List.forall_mem_append.2 ⟨hnames, List.forall_mem_singleton.2 ?_⟩
      exact all_isScalar_of_isCharacter (hvalues _ (KeyedList.mem_of_get?_eq_some hname))
  · exact hnames

/-- The bundle values in an element hold no surrogates. -/
theorem isScalar_of_mem_bundleValues (he : e.IsProper)
    (hnames : ∀ n ∈ names, n.all Code.isScalar = true) :
    ∀ v ∈ bundleValues names e, v.IsScalar := by
  induction he generalizing names with
  | @mk name attributes children values inside ih =>
      have hto : ∀ n ∈ namesTo names (.mk name attributes children), n.all Code.isScalar = true :=
        all_isScalar_namesTo values hnames
      rw [bundleValues_eq]
      refine List.forall_mem_append.2 ⟨fun v hv => ?_, fun v hv => ?_⟩
      · obtain ⟨value, hvalue, rfl⟩ := Option.map_eq_some_iff.1 (Option.mem_toList.1 hv)
        refine ⟨hto, all_isScalar_of_isCharacter ?_⟩
        exact values _ (KeyedList.mem_of_get?_eq_some hvalue)
      · obtain ⟨child, hchild, hv⟩ := List.mem_flatMap.1 hv
        exact ih child hchild hto v hv

theorem BundleValue.IsScalar.reference {v : BundleValue} (h : v.IsScalar) {r : LayerReference}
    (hr : reference? v = some r) : r.IsScalar := by
  obtain ⟨⟨catalog, key⟩, hcut, rfl⟩ := Option.map_eq_some_iff.1 hr
  refine ⟨Text.all_isScalar_of_subset (fun c hc => ?_) h.value, ?_⟩
  · rw [(Text.of_cut?_eq_some hcut).1]
    exact List.mem_append_right _ (List.mem_cons_of_mem _ hc)
  · have hplace : (List.intercalate [Code.slash] (v.names ++ [bundleAttribute])).all
        Code.isScalar = true :=
      Text.all_isScalar_intercalate (by decide)
        (List.forall_mem_append.2 ⟨h.names, List.forall_mem_singleton.2 (by decide)⟩)
    rw [List.all_cons, hplace]
    rfl

theorem isScalar_of_mem_references {vs : List BundleValue} (h : ∀ v ∈ vs, v.IsScalar) :
    ∀ r ∈ (references source vs).1, r.IsScalar := by
  induction vs with
  | nil => exact nofun
  | cons v rest ih =>
      obtain ⟨hv, hrest⟩ := List.forall_mem_cons.1 h
      rw [references]
      cases hr : reference? v with
      | some r => exact List.forall_mem_cons.2 ⟨hv.reference hr, ih hrest⟩
      | none => exact ih hrest

/-- What is read of a layer holds no surrogates, and neither does what a failure to read it
mentions. -/
theorem gives_ofBytes (depth : Nat) (source : Text) (bytes : Bytes) :
    Failure.Gives (fun rs => ∀ r ∈ rs, r.IsScalar) (ofBytes depth source bytes).2 := by
  rw [ofBytes]
  cases hdocument : Xml.Element.ofBytes bytes with
  | ok root =>
      rcases ofDocument_cases depth source root with ⟨-, heq⟩ | ⟨-, hcut⟩
      · rw [heq]
        exact Failure.gives_ok (isScalar_of_mem_references
          (isScalar_of_mem_bundleValues (Xml.isProper_ofBytes hdocument) (List.forall_mem_nil _)))
      · rw [hcut.failure]
        exact Failure.gives_error (List.forall_mem_nil _)
  | error fault =>
      have hnames := Xml.all_isScalar_names hdocument
      cases fault with
      | malformed => exact Failure.gives_ok (List.forall_mem_nil _)
      | unknownCharset name => exact Failure.gives_error hnames
      | notACharset name => exact Failure.gives_error hnames
      | multiByteCharset => exact Failure.gives_error (List.forall_mem_nil _)

end Layer

theorem Tree.gives_readLayer (t : Tree) (path : Text) :
    Failure.Gives (fun rs => ∀ r ∈ rs, r.IsScalar) (t.readLayer path).2 := by
  unfold readLayer
  split
  · exact Layer.gives_ofBytes t.depths.elements path _
  · next failure hread => exact Failure.gives_error (isScalar_of_read hread)

/-! ### Modules -/

/-- Settings whose texts hold no surrogates, as far as a scan says them. -/
structure Settings.IsScalar (s : Settings) : Prop where
  formSuffix : s.formSuffix.all Code.isScalar = true
  mandatoryModuleKeys : ∀ key ∈ s.mandatoryModuleKeys, key.all Code.isScalar = true

/-- A module whose paths hold no surrogates. -/
structure RepositoryModule.IsScalar (m : RepositoryModule) : Prop where
  identity : m.identity.all Code.isScalar = true
  root : m.root.all Code.isScalar = true
  sourceRoot : m.sourceRoot.all Code.isScalar = true
  manifest : ∀ path ∈ m.manifest, path.all Code.isScalar = true
  files : ∀ f ∈ m.files, f.path.all Code.isScalar = true

namespace ModuleScan

variable {m : RepositoryModule} {x y : ModuleScan} {manifest : Manifest} {path name : Text}
  {files : List ModuleFile}

/-- A module whose paths and packages hold no surrogates. -/
structure IsScalar (x : ModuleScan) : Prop where
  module : x.module.IsScalar
  packages : ∀ p ∈ x.packages, p.IsScalar

theorem isScalar_packageOf (h : ∀ f ∈ files, f.path.all Code.isScalar = true) :
    (packageOf m name files).IsScalar := by
  have hcatalog : ∀ f ∈ files, f.catalog.IsScalar := fun f hf => ⟨h f hf, nofun⟩
  have hsources : ∀ (fs : List ModuleFile) (sources : KeyedList Text SourceFile),
      (∀ f ∈ fs, f.path.all Code.isScalar = true) → (∀ x ∈ sources, x.2.IsScalar) →
        ∀ x ∈ fs.foldl (fun sources f => KeyedList.set f.name { path := f.path } sources) sources,
          x.2.IsScalar := by
    intro fs
    induction fs with
    | nil => exact fun sources _ hsources => hsources
    | cons f rest ih =>
        intro sources hfs hsources
        obtain ⟨hf, hrest⟩ := List.forall_mem_cons.1 hfs
        refine ih _ hrest fun x hx => ?_
        rcases KeyedList.mem_of_mem_set hx with rfl | hx
        · exact ⟨hf, nofun⟩
        · exact hsources x hx
  refine ⟨fun c hc => ?_, List.forall_mem_map.2 fun f hf => hcatalog f (List.mem_filter.1 hf).1,
    List.forall_mem_map.2 fun f hf => hcatalog f (List.mem_filter.1 hf).1,
    hsources _ _ (fun f hf => h f (List.mem_filter.1 hf).1) nofun⟩
  obtain ⟨f, hf, rfl⟩ := Option.map_eq_some_iff.1 (Option.mem_toList.1 hc)
  exact hcatalog f (List.mem_of_find?_eq_some hf)

theorem isScalar_of_start (hm : m.IsScalar) (hx : start m = .ok x) : x.IsScalar := by
  refine ⟨(of_start_eq_ok hx).1 ▸ hm, fun p hp => ?_⟩
  obtain ⟨f, -, rfl⟩ := (mem_packages_iff hx).1 hp
  exact isScalar_packageOf fun f hf => hm.files f (List.mem_filter.1 hf).1

theorem isScalar_counted {p : Package} (h : p.IsScalar) (n : Text → Nat) :
    (counted s t n p).IsScalar := ((h.read s t).lookUp).addUses n

/-! ### The platform -/

theorem IsScalar.isScalar_missingCatalog (hx : x.IsScalar) :
    (missingCatalog x.module).IsScalar := by
  refine ⟨?_, Text.all_isScalar_ofString _⟩
  rw [missingCatalog]
  cases hmanifest : x.module.manifest with
  | none => exact hx.module.root
  | some path => exact hx.module.manifest path hmanifest

theorem IsScalar.isScalar_of_mem_catalogFindings (hx : x.IsScalar) (hs : s.IsScalar) :
    ∀ f ∈ x.catalogFindings s manifest, f.IsScalar := by
  unfold catalogFindings
  split
  · exact nofun
  · split
    · exact List.forall_mem_singleton.2 hx.isScalar_missingCatalog
    · next name _ c hc =>
        obtain ⟨primary, hprimary, hc⟩ := Option.bind_eq_some_iff.1 hc
        obtain ⟨p, hp, rfl⟩ := Option.map_eq_some_iff.1 hprimary
        have hscalar := (hx.packages p (package?_eq_some hp).1).primary c (Option.mem_toList.2 hc)
        refine List.forall_mem_map.2 fun key hkey => ⟨hscalar.path, ?_⟩
        simp only [List.all_append, Text.all_isScalar_ofString, Bool.and_self,
          hs.mandatoryModuleKeys key (List.mem_filter.1 hkey).1]

theorem isScalar_of_mem_referenceFindings (hpath : path.all Code.isScalar = true)
    {r : LayerReference} (hr : r.IsScalar) : ∀ f ∈ referenceFindings path x r, f.IsScalar := by
  unfold referenceFindings
  split
  · exact nofun
  · split
    · exact nofun
    · refine List.forall_mem_singleton.2 ⟨hpath, ?_⟩
      simp only [missingReference, List.all_append, Text.all_isScalar_ofString, hr.key, hr.place,
        Bool.and_self]

/-- What is found in a layer holds no surrogates. -/
def LayerContent.IsScalar : LayerContent → Prop
  | .findings fs => ∀ f ∈ fs, f.IsScalar
  | .references path rs => path.all Code.isScalar = true ∧ ∀ r ∈ rs, r.IsScalar

theorem gives_contentOf (hpath : path.all Code.isScalar = true)
    {layer : Except Failure (List LayerReference)}
    (h : Failure.Gives (fun rs => ∀ r ∈ rs, r.IsScalar) layer) :
    Failure.Gives LayerContent.IsScalar (contentOf path layer) := by
  cases layer with
  | ok references => exact Failure.gives_ok ⟨hpath, h.value references rfl⟩
  | error failure =>
      have hfailure := h.failure failure rfl
      rw [contentOf]
      split
      · refine Failure.gives_ok (List.forall_mem_singleton.2 ?_)
        exact Package.isScalar_unreadable hpath (by decide) hfailure
      · exact Failure.gives_error hfailure

/-- A look into a layer says and finds nothing with surrogates. -/
theorem gives_layerContent (hm : m.IsScalar)
    (hlayer : ∀ name, manifest.layerFile = some name → name.all Code.isScalar = true) :
    Failure.Gives LayerContent.IsScalar (layerContent t manifest m) := by
  have hnone : LayerContent.IsScalar (.findings []) := List.forall_mem_nil _
  unfold layerContent
  split
  · exact Failure.gives_ok hnone
  · exact Failure.gives_ok hnone
  · next name _ hname =>
      have hname := hlayer name hname
      have hpath :=
        ((Path.isScalar_ofText hm.sourceRoot).join (Path.isScalar_ofText hname)).all_toText
      generalize ((Path.ofText m.sourceRoot).join (Path.ofText name)).toText = path at hpath
      simp only [bind, Except.bind]
      cases hfile : t.isFile path with
      | error other => exact Failure.gives_error (Tree.isScalar_of_isFile hfile)
      | ok isFile =>
          cases isFile with
          | false =>
              refine Failure.gives_ok (List.forall_mem_singleton.2 ⟨hpath, ?_⟩)
              rw [missingLayer, List.all_append, Text.all_isScalar_ofString, hname]
              rfl
          | true =>
              dsimp only
              rw [if_pos rfl]
              exact gives_contentOf hpath (t.gives_readLayer path)

theorem LayerContent.IsScalar.contentFindings {content : LayerContent} (h : content.IsScalar)
    (x : ModuleScan) : ∀ f ∈ x.contentFindings content, f.IsScalar := by
  cases content with
  | findings fs => exact h
  | references path rs =>
      intro f hf
      obtain ⟨r, hr, hf⟩ := List.mem_flatMap.1 hf
      exact isScalar_of_mem_referenceFindings h.1 (h.2 r hr) f hf

/-- So does a look at the manifest and at what it names. -/
theorem IsScalar.gives_platformFindings (hx : x.IsScalar) (hs : s.IsScalar) :
    Failure.Gives (fun fs => ∀ f ∈ fs, f.IsScalar) (x.platformFindings s t) := by
  unfold platformFindings
  split
  · exact Failure.gives_ok (List.forall_mem_nil _)
  · exact Failure.gives_ok (List.forall_mem_nil _)
  · next path _ hpath =>
      split
      · next failure hread =>
          refine Failure.gives_ok (List.forall_mem_singleton.2 ?_)
          exact Package.isScalar_unreadable (hx.module.manifest path hpath) (by decide)
            (Tree.isScalar_of_readLines (Failure.map_eq_error_iff.1 hread))
      · next manifest hread =>
          split
          · have hlayer :
                Failure.Gives (fun fs => ∀ f ∈ fs, f.IsScalar) (x.layerFindings t manifest) :=
              (gives_layerContent hx.module fun name => Manifest.all_isScalar_layerFile hread).map
                fun content h => h.contentFindings x
            exact hlayer.map fun fs hfs =>
              List.forall_mem_append.2 ⟨hx.isScalar_of_mem_catalogFindings hs, hfs⟩
          · exact Failure.gives_ok (List.forall_mem_nil _)

/-! ### The scan -/

theorem isScalar_of_reportPackages (hs : s.IsScalar) {r : Report} {ps : List Package}
    (hps : ∀ p ∈ ps, p.IsScalar) (h : reportPackages s t r ps = .error failure) :
    failure.IsScalar := by
  induction ps generalizing r with
  | nil => cases h
  | cons p rest ih =>
      obtain ⟨hp, hrest⟩ := List.forall_mem_cons.1 hps
      rw [reportPackages] at h
      split at h
      · exact ih hrest h
      · next hreport =>
          obtain rfl := Except.error.inj h
          exact hp.isScalar_of_report hs.formSuffix (congrArg Prod.snd hreport)

/-- **A scan finds nothing with surrogates, and what ends it mentions none,** if the paths of the
module hold none. -/
theorem gives_ofFiles (hs : s.IsScalar) (hm : m.IsScalar) (hstart : start m = .ok x) :
    Failure.Gives (fun y => ∀ f ∈ y.report.findings, f.IsScalar) (ofFiles s t m).2 := by
  have hx := isScalar_of_start hm hstart
  obtain ⟨hmodule, hpackages, -⟩ := readPackages_fst (s := s) (t := t) hstart
  have hread : (x.readPackages s t).1.IsScalar := by
    refine ⟨hmodule ▸ hm, ?_⟩
    rw [hpackages]
    exact List.forall_mem_map.2 fun p hp => isScalar_counted (hx.packages p hp) _
  have hcounted : ∀ p ∈ x.packages.map fun p => counted s t (platformUses s t m p.name) p,
      p.IsScalar := List.forall_mem_map.2 fun p hp => isScalar_counted (hx.packages p hp) _
  have hplatform := hread.gives_platformFindings (t := t) hs
  refine ⟨fun y hy => ?_, fun failure h => ?_⟩
  · obtain ⟨fs, hfs, hy, hreport⟩ := findings_ofFiles hstart hy
    rw [hreport]
    refine List.forall_mem_append.2 ⟨List.forall_mem_append.2 ⟨fun f hf => ?_,
      hplatform.value fs hfs⟩, fun f hf => ?_⟩
    · obtain ⟨p, hp, hf⟩ := List.mem_flatMap.1 hf
      exact (hx.packages p hp).isScalar_of_mem_read f hf
    · obtain ⟨p, hp, hf⟩ := List.mem_flatMap.1 hf
      exact (hcounted p (hy ▸ hp)).isScalar_of_mem_findings f hf
  · rw [ofFiles_eq hstart] at h
    rcases Failure.bind_eq_error_iff.1 h with h | ⟨fs, -, h⟩
    · exact hplatform.failure failure h
    · exact isScalar_of_reportPackages hs hcounted (Failure.map_eq_error_iff.1 h)

end ModuleScan

end BundleAudit
