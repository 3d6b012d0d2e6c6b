import BundleAudit.Proofs.Module.Placement
import BundleAudit.Proofs.Module.Rediscovery

/-!
# BundleAudit.Proofs.Module.Recollection

**Scanning a module again after translations were written.** A translated catalog in the
directory of a package is a file of that package and of no other, and it changes no
source and no primary catalog (`isRecollected`). As a layer it is no document, which
does not end a scan. So a scan that was completed is completed again
(`exists_ofModule`), and one that was not is only where the layer of the module
was written (`exists_ofModule_of`).
-/

namespace BundleAudit

/-! ### Layers that are no documents -/

namespace Xml

/-- In whatever units, what begins with the byte of a number sign begins with a number sign. -/
theorem units_hash (rest : Bytes) :
    (Units.ofBytes (0x23 :: rest) = (.bytes, 0x23 :: rest) ∧
        ∃ more, ofUtf8 (0x23 :: rest) = Code.hash :: more) ∨
      ∃ order, Units.ofBytes (0x23 :: rest) = (.pairs order, 0x23 :: rest) ∧
        ∃ more, ofPairs order (0x23 :: rest) = Code.hash :: more := by
  by_cases hpairs : ∃ more, rest = 0 :: more
  · obtain ⟨more, rfl⟩ := hpairs
    refine .inr ⟨.lowFirst, by simp [Units.ofBytes], ofPairs .lowFirst more, ?_⟩
    have hunit : Text.unit .lowFirst 0x23 0 = Code.hash := by decide
    conv_lhs => unfold ofPairs
    simp only [hunit]
    rfl
  · refine .inl ⟨?_, ofUtf8 rest, ?_⟩
    · unfold Units.ofBytes
      split <;> simp_all
    · have hdecode := Text.decodeUtf8_utf8Code (c := Code.hash) rfl rest
      have hfirst : Text.utf8Code Code.hash ++ rest = 0x23 :: rest := rfl
      rw [hfirst] at hdecode
      simp only [ofUtf8, hdecode]
      rfl

/-- No document begins with a number sign. -/
theorem ofBytes_hash (rest : Bytes) : Element.ofBytes (0x23 :: rest) = .error .malformed := by
  have hdeclaration : ∀ more,
      declarationOf? (Code.hash :: more) = some ({}, Code.hash :: more) := fun _ => rfl
  have hafter : ∀ size more,
      Element.afterDeclaration size {} (Code.hash :: more) = .error .malformed := fun _ _ => rfl
  rcases units_hash rest with ⟨hunits, more, hmore⟩ | ⟨order, hunits, more, hmore⟩
  · simp only [Element.ofBytes, hunits, hmore, hdeclaration, hafter]
  · simp only [Element.ofBytes, hunits, hmore, hdeclaration, hafter]

end Xml

/-! ### Written catalogs -/

/-- A translated catalog that begins with a comment stands at a name. -/
structure IsCatalogAt (s : Settings) (t' : Tree) (d : Location) (name : Text) : Prop where
  kind : FileKind.ofName? s name = some .translatedCatalog
  comment : ∃ rest, t'.entry? (d ++ [name]) = some (.file (0x23 :: rest))

/-- A tree in which translated catalogs were written, and perhaps files of no kind taken away. -/
structure IsWritten (s : Settings) (t : Tree) (W : Location → Prop) (t' : Tree) : Prop where
  sound : t.IsSound
  sound' : t'.IsSound
  alike : t.AlikeBut W t'
  catalog : ∀ d name, W (d ++ [name]) → IsCatalogAt s t' d name ∨
    FileKind.ofName? s name = none ∧ t'.entry? (d ++ [name]) = none

/-- What is written below the source root of a module, and has a kind, stands beside a file of it.
-/
def IsBeside (s : Settings) (t : Tree) (W : Location → Prop) (m : RepositoryModule) : Prop :=
  ∀ l, RepositoryModule.IsRootedAt t m l → ∀ around name, W (l ++ around ++ [name]) →
    (FileKind.ofName? s name).isSome →
      ∃ g ∈ RepositoryModule.filesAt s t m l, g.package = List.intercalate [Code.slash] around

namespace IsWritten

open RepositoryModule

variable {s : Settings} {t t' : Tree} {W : Location → Prop} {m : RepositoryModule} {l : Location}
  {f : ModuleFile} {name : Text} {kind : FileKind}

theorem isCatalogAt (h : IsWritten s t W t') (hkind : FileKind.ofName? s name = some kind)
    (hw : W (l ++ [name])) : IsCatalogAt s t' l name := by
  refine (h.catalog l name hw).resolve_right fun ⟨hnone, _⟩ => ?_
  rw [hkind] at hnone
  cases hnone

theorem hasFileAt_iff (h : IsWritten s t W t') (hl : ¬W l) : t'.HasFileAt l ↔ t.HasFileAt l := by
  rw [Tree.HasFileAt, Tree.HasFileAt, h.alike.entry l hl]

/-- No file of some kind was taken away. -/
theorem hasFileAt (h : IsWritten s t W t') (hkind : FileKind.ofName? s name = some kind)
    (hl : t.HasFileAt (l ++ [name])) : t'.HasFileAt (l ++ [name]) := by
  by_cases hw : W (l ++ [name])
  · obtain ⟨rest, hentry⟩ := (h.isCatalogAt hkind hw).comment
    exact ⟨_, hentry⟩
  · exact (h.hasFileAt_iff hw).2 hl

/-- It is possible to look into the same directories. -/
theorem isOpen_iff (h : IsWritten s t W t') : IsOpen t' m l ↔ IsOpen t m l := by
  unfold RepositoryModule.IsOpen
  rw [h.alike.depths]
  refine forall₂_congr fun names _ => imp_congr_left ?_
  exact ⟨h.alike.symm.keeps.directory, h.alike.keeps.directory⟩

/-- Source roots lead to the same directories. -/
theorem isRootedAt (h : IsWritten s t W t') (hl : IsRootedAt t m l) : IsRootedAt t' m l := by
  refine ⟨hl.isPath, ?_, h.alike.keeps.directory hl.directory⟩
  have hplace := Tree.place_alike h.alike .target (Path.ofText m.sourceRoot).toText
  rw [hl.place] at hplace
  generalize t'.place .target (Path.ofText m.sourceRoot).toText = r at hplace
  cases hplace with
  | same => rfl
  | changed heq hw => exact absurd hl.directory (h.alike.free _ hw).1

/-! ### Files -/

theorem mem_filesAt (h : IsWritten s t W t') (hf : f ∈ filesAt s t m l) : f ∈ filesAt s t' m l := by
  obtain ⟨around, name, hstands, hfile⟩ := (mem_filesAt_iff h.sound).1 hf
  exact (mem_filesAt_iff h.sound').2 ⟨around, name, hstands, h.hasFileAt hstands.kind hfile⟩

/-- A new file stands beside one that was there. -/
theorem exists_mem_filesAt (h : IsWritten s t W t') (hbeside : IsBeside s t W m)
    (hl : IsRootedAt t m l) (hf : f ∈ filesAt s t' m l) :
    ∃ g ∈ filesAt s t m l, g.package = f.package := by
  obtain ⟨around, name, hstands, hfile⟩ := (mem_filesAt_iff h.sound').1 hf
  by_cases hw : W (l ++ around ++ [name])
  · rw [hstands.package]
    exact hbeside l hl around name hw (Option.isSome_of_eq_some hstands.kind)
  · exact ⟨f, (mem_filesAt_iff h.sound).2 ⟨around, name, hstands,
      (h.hasFileAt_iff hw).1 hfile⟩, rfl⟩

/-- The files that are no translated catalogs are the same, in the same order. -/
theorem filter_filesAt (h : IsWritten s t W t') :
    (filesAt s t' m l).filter (·.kind ≠ .translatedCatalog) =
      (filesAt s t m l).filter (·.kind ≠ .translatedCatalog) := by
  classical
  have hkept : ∀ {u : Tree}, u.IsSound →
      (filesAt s u m l).filter (·.kind ≠ .translatedCatalog) =
        ((u.filesWithin l).filter fun names => !decide (W (l ++ names))).filterMap fun names =>
          (file? s (Path.ofText m.sourceRoot) names).filter (·.kind ≠ .translatedCatalog) := by
    intro u hu
    rw [filesAt, List.filter_filterMap, List.filterMap_filter]
    refine List.filterMap_congr fun names hnames => ?_
    by_cases hw : W (l ++ names)
    · -- what was written is a translated catalog
      obtain ⟨hne, -⟩ := hu.mem_filesWithin_iff.1 hnames
      obtain ⟨around, name, rfl⟩ := (List.eq_nil_or_concat' names).resolve_left hne
      rw [file?, List.getLastD_concat]
      split
      · simp
      · cases hkind : FileKind.ofName? s name with
        | none => simp [hw]
        | some kind =>
            have hcatalog :=
              (h.isCatalogAt hkind (l := l ++ around) (by rwa [List.append_assoc])).kind
            simp [hw, Option.some.inj (hkind.symm.trans hcatalog)]
    · simp [hw]
  rw [hkept h.sound', hkept h.sound]
  congr 1
  refine Text.filter_eq_of_mem_iff (fun a b => Text.lexLe_antisymm fun _ _ => Text.le_antisymm)
    (Tree.pairwise_filesWithin t' l) (Tree.pairwise_filesWithin t l)
    (h.sound'.nodup_filesWithin l) (h.sound.nodup_filesWithin l) fun names hkeep => ?_
  have hw : ¬W (l ++ names) := by simpa using hkeep
  rw [h.sound'.mem_filesWithin_iff, h.sound.mem_filesWithin_iff, h.alike.entry _ hw]

end IsWritten

/-! ### What ends a scan -/

namespace ModuleScan

open RepositoryModule

variable {s : Settings} {t t' : Tree} {W : Location → Prop} {m : RepositoryModule} {path : Text}

theorem read?_source_eq (h : t.AlikeBut W t') {f : SourceFile} (hpath : ¬t.LeadsInto W f.path) :
    f.read? s t' = f.read? s t := by
  have hread : ∀ u : Tree, f.read? s u = (u.read f.path).toOption.bind fun bytes =>
      (Token.ofSource f.path (Text.ofBytes bytes)).toOption.map fun tokens =>
        { f with occurrences := Occurrence.ofTokens s tokens } := by
    intro u
    unfold SourceFile.read? SourceFile.read Tree.readText
    cases u.read f.path with
    | error failure => rfl
    | ok bytes => cases htokens : Token.ofSource f.path (Text.ofBytes bytes) <;>
        simp [Except.map, bind, Except.bind, Except.toOption, htokens, pure, Except.pure]
  rw [hread, hread, Tree.toOption_read_eq h hpath]

theorem exists_hasForm_iff (h : t.AlikeBut W t') (f : SourceFile) :
    (∃ form, f.hasForm s t' = .ok form) ↔ ∃ form, f.hasForm s t = .ok form := by
  unfold SourceFile.hasForm
  split
  · exact .rfl
  · rw [Tree.hasEntry, Tree.hasEntry, Failure.exists_map_eq_ok_iff, Failure.exists_map_eq_ok_iff]
    exact Tree.exists_lookAt_iff h _

/-- Of the same sources it can be told in both trees whether they have forms. -/
theorem formsSettled_iff (h : t.AlikeBut W t') {p p' : Package} (hsources : p'.sources = p.sources)
    (hapart : ∀ x ∈ p.sources, ¬t.LeadsInto W x.2.path) :
    FormsSettled s t' p' ↔ FormsSettled s t p := by
  unfold FormsSettled
  rw [hsources]
  refine forall₂_congr fun x hx => ?_
  rw [read?_source_eq h (hapart x hx), exists_hasForm_iff h]

theorem platformManifest?_eq (h : t.AlikeBut W t') (hapart : IsApart t W) {root directory : Path}
    (hm : IsOf t root directory m) : platformManifest? t' m = platformManifest? t m := by
  unfold platformManifest?
  split
  · rfl
  · rfl
  · next path _ hmanifest =>
      have hpath : ¬t.LeadsInto W path := by
        rw [hm.manifest path hmanifest]
        exact hapart.manifest directory
      unfold Tree.readManifest Tree.readLines
      rw [Failure.toOption_map, Failure.toOption_map, Failure.toOption_map, Failure.toOption_map,
        Tree.toOption_read_eq h hpath]

/-- A layer elsewhere ends a scan in both trees, or in none. -/
theorem isSettled_iff (h : t.AlikeBut W t') (hpath : ¬t.LeadsInto W path) :
    IsSettled t' path ↔ IsSettled t path := by
  unfold IsSettled
  rw [Tree.isFile_eq h hpath]
  refine or_congr Iff.rfl (and_congr_right fun hfile => ?_)
  obtain ⟨bytes, hread⟩ := exists_read_of_isFile hfile
  rw [Tree.readLayer, Tree.readLayer, hread, (Tree.read_iff h hpath).2 hread, h.depths]

end ModuleScan

namespace IsWritten

open RepositoryModule ModuleScan

variable {s : Settings} {t t' : Tree} {W : Location → Prop} {m : RepositoryModule} {path : Text}

/-- A layer that did not end a scan does not end it now, even if it was written. -/
theorem isSettled (h : IsWritten s t W t') (hpath : IsSettled t path) : IsSettled t' path := by
  by_cases hinto : t.LeadsInto W path
  · have hlook : ∃ isFile, t'.isFile path = .ok isFile := by
      have hold : ∃ isFile, t.isFile path = .ok isFile := hpath.elim (⟨_, ·⟩) (⟨_, ·.1⟩)
      rw [Tree.isFile, Failure.exists_map_eq_ok_iff] at hold ⊢
      exact (Tree.exists_lookAt_iff h.alike path).2 hold
    obtain ⟨isFile, hfile⟩ := hlook
    cases isFile with
    | false => exact .inl hfile
    | true =>
        refine .inr ⟨hfile, fun f hf => ?_⟩
        obtain ⟨bytes, hread⟩ := exists_read_of_isFile hfile
        obtain ⟨-, l, hplace, hentry⟩ := Tree.read_eq_ok_iff.1 hread
        obtain ⟨p, hp, hw⟩ := (Tree.leadsInto_iff h.alike).2 hinto
        obtain rfl := Except.ok.inj (hplace.symm.trans hp)
        have hl : l ≠ [] := by
          rintro rfl
          exact (h.alike.free _ hw).1 rfl
        obtain ⟨d, name, rfl⟩ := (List.eq_nil_or_concat' l).resolve_left hl
        obtain ⟨rest, rfl⟩ : ∃ rest, bytes = 0x23 :: rest := by
          rcases h.catalog d name hw with hcatalog | ⟨-, hnone⟩
          · obtain ⟨rest, hcomment⟩ := hcatalog.comment
            rw [hcomment] at hentry
            cases hentry
            exact ⟨rest, rfl⟩
          · rw [hnone] at hentry
            cases hentry
        have hlayer : (t'.readLayer path).2 = .ok [] := by
          simp only [Tree.readLayer, hread, Layer.ofBytes, Xml.ofBytes_hash, Layer.ofDocument]
        cases hlayer.symm.trans hf
  · exact (isSettled_iff h.alike hinto).2 hpath

end IsWritten

/-! ### The files of a module -/

/-- The files of a module before and after: the same ones, and translated catalogs beside them. -/
structure IsRecollected (t : Tree) (W : Location → Prop) (files files' : List ModuleFile) :
    Prop where
  mem : ∀ f ∈ files, f ∈ files'
  beside : ∀ f ∈ files', ∃ g ∈ files, g.package = f.package
  others : files'.filter (·.kind ≠ .translatedCatalog) = files.filter (·.kind ≠ .translatedCatalog)
  apart : ∀ f ∈ files, f.kind ≠ .translatedCatalog → ¬t.LeadsInto W f.path

namespace IsRecollected

variable {s : Settings} {t t' : Tree} {W : Location → Prop} {m m' : RepositoryModule}
  {files files' : List ModuleFile}

theorem filter_filesOf (h : IsRecollected t W files files') (keep : ModuleFile → Bool)
    (hkeep : ∀ f, keep f = true → f.kind ≠ .translatedCatalog) (name : Text) :
    (filesOf name files').filter keep = (filesOf name files).filter keep := by
  have hothers : ∀ fs : List ModuleFile, (filesOf name fs).filter keep =
      ((fs.filter (·.kind ≠ .translatedCatalog)).filter (·.package = name)).filter keep := by
    intro fs
    rw [filesOf, List.filter_filter, List.filter_filter, List.filter_filter]
    refine List.filter_congr fun f _ => ?_
    cases hk : keep f with
    | false => rfl
    | true => simp [hkeep f hk]
  rw [hothers, hothers, h.others]

theorem sources_eq (h : IsRecollected t W files files') (name : Text) :
    (ModuleScan.packageOf m' name (filesOf name files')).sources =
      (ModuleScan.packageOf m name (filesOf name files)).sources := by
  have hsources := h.filter_filesOf (fun f => f.kind = .source)
    (fun f hf heq => by rw [heq] at hf; cases hf) name
  simp only [ModuleScan.packageOf, hsources]

theorem primary_eq (h : IsRecollected t W files files') (name : Text) :
    (ModuleScan.packageOf m' name (filesOf name files')).primary =
      (ModuleScan.packageOf m name (filesOf name files)).primary := by
  have hprimary := h.filter_filesOf (fun f => f.kind = .primaryCatalog)
    (fun f hf heq => by rw [heq] at hf; cases hf) name
  simp only [ModuleScan.packageOf, ← List.head?_filter, hprimary]

/-- Whether all sources let a scan go on is decided by the files that were there before. -/
theorem formsSettled_iff (h : IsRecollected t W files files') (s : Settings)
    (m m' : RepositoryModule) (halike : t.AlikeBut W t') :
    (∀ f ∈ files', ModuleScan.FormsSettled s t'
        (ModuleScan.packageOf m' f.package (filesOf f.package files'))) ↔
      ∀ f ∈ files, ModuleScan.FormsSettled s t
        (ModuleScan.packageOf m f.package (filesOf f.package files)) := by
  have hone : ∀ name, ModuleScan.FormsSettled s t'
      (ModuleScan.packageOf m' name (filesOf name files')) ↔
        ModuleScan.FormsSettled s t (ModuleScan.packageOf m name (filesOf name files)) := by
    intro name
    refine ModuleScan.formsSettled_iff halike (h.sources_eq name) fun x hx => ?_
    obtain ⟨f, hf, hkind, hpath⟩ := ModuleScan.exists_of_mem_sources hx
    rw [hpath]
    exact h.apart f (List.mem_of_mem_filter hf) (by rw [hkind]; nofun)
  constructor
  · intro hall f hf
    exact (hone f.package).1 (hall f (h.mem f hf))
  · intro hall f hf
    obtain ⟨g, hg, hpackage⟩ := h.beside f hf
    rw [← hpackage]
    exact (hone g.package).2 (hall g hg)

end IsRecollected

namespace IsWritten

open RepositoryModule ModuleScan

variable {s : Settings} {t t' : Tree} {W : Location → Prop} {m : RepositoryModule} {l : Location}

theorem isRecollected (h : IsWritten s t W t') (hbeside : IsBeside s t W m)
    (hl : IsRootedAt t m l) : IsRecollected t W (filesAt s t m l) (filesAt s t' m l) := by
  refine ⟨fun f => h.mem_filesAt, fun f => h.exists_mem_filesAt hbeside hl, h.filter_filesAt, ?_⟩
  rintro f hf hkind ⟨place, hplace, hw⟩
  obtain ⟨around, name, hstands, hfile⟩ := (mem_filesAt_iff h.sound).1 hf
  rw [hl.location_eq h.sound hstands hfile hplace] at hw
  exact hkind (Option.some.inj (hstands.kind.symm.trans (h.isCatalogAt hstands.kind hw).kind))

/-- The files of a module are collected in both trees, or in none. -/
theorem collectFiles_cases (h : IsWritten s t W t') (hbeside : IsBeside s t W m) :
    ((∀ r, m.collectFiles s t ≠ .ok r) ∧ ∀ r, m.collectFiles s t' ≠ .ok r) ∨
      ∃ m₁ m₂ log₁ log₂, m.collectFiles s t = .ok (m₁, log₁) ∧
        m.collectFiles s t' = .ok (m₂, log₂) ∧ IsRecollected t W m₁.files m₂.files := by
  have hdirectory' := Tree.isDirectory_eq h.alike (Path.ofText m.sourceRoot).toText
  cases hdirectory : t.isDirectory (Path.ofText m.sourceRoot).toText with
  | error failure =>
      rw [hdirectory] at hdirectory'
      refine .inl ⟨fun r hr => ?_, fun r hr => ?_⟩
      · rw [collectFiles, filesBelow, hdirectory] at hr
        cases hr
      · rw [collectFiles, filesBelow, hdirectory'] at hr
        cases hr
  | ok isDirectory =>
      rw [hdirectory] at hdirectory'
      cases isDirectory with
      | false =>
          obtain ⟨log₁, h₁⟩ := exists_collectFiles_of_isDirectory_eq_false (s := s) hdirectory
          obtain ⟨log₂, h₂⟩ := exists_collectFiles_of_isDirectory_eq_false (s := s) hdirectory'
          exact .inr ⟨_, _, log₁, log₂, h₁, h₂, by simp, by simp, rfl, by simp⟩
      | true =>
          obtain ⟨l, hl⟩ := exists_isRootedAt hdirectory
          have hl' := h.isRootedAt hl
          by_cases hopen : IsOpen t m l
          · obtain ⟨log₁, h₁⟩ := hl.exists_collectFiles (s := s) h.sound hopen
            obtain ⟨log₂, h₂⟩ := hl'.exists_collectFiles (s := s) h.sound' (h.isOpen_iff.2 hopen)
            exact .inr ⟨_, _, log₁, log₂, h₁, h₂, h.isRecollected hbeside hl⟩
          · exact .inl ⟨fun r hr => hopen (hl.of_collectFiles h.sound hr).1,
              fun r hr => hopen (h.isOpen_iff.1 (hl'.of_collectFiles h.sound' hr).1)⟩

/-! ### Completion -/

variable {root directory : Path}

/-- **A scan is completed again** if its layer does not end it, and only then. -/
theorem exists_ofModule_iff (h : IsWritten s t W t') (hbeside : IsBeside s t W m)
    (hm : IsOf t root directory m) :
    (∃ y, (ofModule s t' m).2 = .ok y) ↔ LayerSettled t' m ∧
      ∃ m' log, m.collectFiles s t = .ok (m', log) ∧
        ∀ f ∈ m'.files, FormsSettled s t (packageOf m' f.package (filesOf f.package m'.files)) := by
  rw [ModuleScan.exists_ofModule_iff h.sound' hm.files]
  rcases h.collectFiles_cases hbeside with ⟨hnone, hnone'⟩ | ⟨m₁, m₂, log₁, log₂, h₁, h₂, hfiles⟩
  · exact ⟨fun ⟨m', log, hm', _⟩ => absurd hm' (hnone' _), fun ⟨_, m', log, hm', _⟩ =>
      absurd hm' (hnone _)⟩
  · have hforms := hfiles.formsSettled_iff s m₁ m₂ h.alike
    constructor
    · rintro ⟨m', log, hm', hlayer, hall⟩
      obtain ⟨rfl, rfl⟩ := Prod.mk.inj (Except.ok.inj (h₂.symm.trans hm'))
      exact ⟨hlayer, m₁, log₁, h₁, hforms.1 hall⟩
    · rintro ⟨hlayer, m', log, hm', hall⟩
      obtain ⟨rfl, rfl⟩ := Prod.mk.inj (Except.ok.inj (h₁.symm.trans hm'))
      exact ⟨m₂, log₂, h₂, hlayer, hforms.2 hall⟩

theorem exists_ofModule (h : IsWritten s t W t') (hbeside : IsBeside s t W m) (hapart : IsApart t W)
    (hm : IsOf t root directory m) (hy : ∃ y, (ofModule s t m).2 = .ok y) :
    ∃ y, (ofModule s t' m).2 = .ok y := by
  obtain ⟨m', log, hm', hlayer, hall⟩ := (ModuleScan.exists_ofModule_iff h.sound hm.files).1 hy
  refine (h.exists_ofModule_iff hbeside hm).2 ⟨fun path hpath => ?_, m', log, hm', hall⟩
  rw [platformManifest?_eq h.alike hapart hm] at hpath
  exact h.isSettled (hlayer path hpath)

/-- A scan that was not completed is not completed now, unless the layer of the module was written.
-/
theorem exists_ofModule_of (h : IsWritten s t W t') (hbeside : IsBeside s t W m)
    (hapart : IsApart t W) (hm : IsOf t root directory m)
    (hlayer : ∀ path, (platformManifest? t m).bind (layerPath? m) = some path → ¬t.LeadsInto W path)
    (hy : ∃ y, (ofModule s t' m).2 = .ok y) : ∃ y, (ofModule s t m).2 = .ok y := by
  obtain ⟨hsettled, m', log, hm', hall⟩ := (h.exists_ofModule_iff hbeside hm).1 hy
  refine (ModuleScan.exists_ofModule_iff h.sound hm.files).2
    ⟨m', log, hm', fun path hpath => ?_, hall⟩
  refine (isSettled_iff h.alike (hlayer path hpath)).1 (hsettled path ?_)
  rw [platformManifest?_eq h.alike hapart hm, hpath]

end IsWritten

end BundleAudit
