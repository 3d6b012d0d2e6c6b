import BundleAudit.Proofs.Catalog.Return
import BundleAudit.Proofs.Files.Replacement
import BundleAudit.Proofs.Module.Regeneration
import BundleAudit.Proofs.Module.Rows
import BundleAudit.Proofs.Table.Reading
import Mathlib.Data.List.Permutation

/-!
# BundleAudit.Proofs.Module.Retranslation

**The texts of a table survive in the catalog that is made from them.** The catalog goes
to the own name of the translation beside the primary catalog. There it is the only file
that passes for the translation, and the rest of the module is what it was. So the rows
of the package have the texts of the table (`survives_writeLines`).
-/

namespace BundleAudit

open RepositoryModule

/-! ### Rows -/

/-- A row with a text for its key. -/
def TableRow.withText (texts : Text → Text) (r : TableRow) : TableRow :=
  { r with translated := texts r.key }

/-- The rows of the entries of a primary catalog, with texts. -/
def Catalog.rowsWith (module package : Text) (texts : Text → Text) (primary : Catalog) :
    List TableRow :=
  primary.entries.map fun e => ⟨e.key, e.value, texts e.key, module, package⟩

namespace Package

variable {s : Settings} {language module : Text} {p : Package} {primary : Catalog}

/-- The rows of a package differ from those without translations by the texts of its translation. -/
theorem exportRows_eq_withText : p.exportRows s language module =
    ((p.exportRows s language module).map (·.untranslated)).map
      (·.withText (Catalog.textOf (p.translation? s language))) := by
  unfold exportRows
  cases p.primary with
  | none => rfl
  | some primary =>
      rw [List.map_map, List.map_map]
      rfl

theorem withText_exportRows (hprimary : p.primary = some primary) (texts : Text → Text) :
    ((p.exportRows s language module).map (·.untranslated)).map (·.withText texts) =
      primary.rowsWith module p.name texts := by
  unfold exportRows
  rw [hprimary, List.map_map, List.map_map]
  rfl

end Package

variable {s : Settings} {t t' : Tree} {W : Location → Prop} {m m₁ m₂ : RepositoryModule}
  {x y : ModuleScan} {p q : Package} {primary : Catalog} {l : Location} {around : List Text}
  {language : Text}

namespace ModuleScan

/-- The rows of a package are those of its primary catalog, but for the translations. -/
theorem untranslated_exportRows (hx : (ofFiles s t m).2 = .ok x) (hp : p ∈ x.packages) :
    (p.exportRows s language m.identity).map (·.untranslated) =
      (packageOf m p.name (filesOf p.name m.files)).primary.toList.flatMap fun c =>
        catalogRows s t m p.name c.path := by
  obtain ⟨z, -, hstart, -, hpackages, -, -⟩ := of_ofFiles_eq_ok hx
  rw [hpackages] at hp
  obtain ⟨q, hq, rfl⟩ := List.mem_map.1 hp
  obtain ⟨f, -, rfl⟩ := (mem_packages_iff hstart).1 hq
  rw [untranslated_exportRows_counted, name_counted]
  rfl

theorem haveKeys_entriesIn (s : Settings) (t : Tree) (path : Text) :
    CatalogEntry.HaveKeys (entriesIn s t path) := by
  unfold entriesIn Tree.readLines
  cases t.read path with
  | error failure => exact ⟨List.nodup_nil, nofun⟩
  | ok bytes => exact CatalogEntry.haveKeys_ofLines _ bytes

/-- Keys of a primary catalog can be keys of a catalog again. -/
theorem isKey_of_mem_entries (hx : (ofFiles s t m).2 = .ok x) (hp : p ∈ x.packages)
    (hprimary : p.primary = some primary) {e : CatalogEntry} (he : e ∈ primary.entries) :
    CatalogEntry.IsKey e.key := by
  have hrows : (p.exportRows s [] m.identity).map (·.untranslated) = _ :=
    untranslated_exportRows hx hp
  have hmem : Package.exportRow m.identity p.name (p.translation? s []) e ∈
      p.exportRows s [] m.identity := by
    rw [Package.exportRows, hprimary]
    exact List.mem_map_of_mem he
  have hrow := List.mem_map_of_mem (f := TableRow.untranslated) hmem
  rw [hrows] at hrow
  obtain ⟨c, -, hrow⟩ := List.mem_flatMap.1 hrow
  obtain ⟨e', he', heq⟩ := List.mem_map.1 hrow
  have hkey : e'.key = e.key := congrArg TableRow.key heq
  exact hkey ▸ (haveKeys_entriesIn s t c.path).isKey e' he'

/-- They are the same where only translations were written. -/
theorem untranslated_exportRows_eq {files files' : List ModuleFile}
    (h : IsRecollected t W files files') (halike : t.AlikeBut W t')
    (hx : (ofFiles s t { m with files }).2 = .ok x)
    (hy : (ofFiles s t' { m with files := files' }).2 = .ok y) (hp : p ∈ x.packages)
    (hq : q ∈ y.packages) (hname : q.name = p.name) :
    (q.exportRows s language m.identity).map (·.untranslated) =
      (p.exportRows s language m.identity).map (·.untranslated) := by
  refine (untranslated_exportRows hy hq).trans (Eq.trans ?_ (untranslated_exportRows hx hp).symm)
  rw [hname, h.primary_eq (m := { m with files })]
  refine List.flatMap_congr fun c hc => ?_
  -- the primary catalog is one of the files, and not written
  obtain ⟨f, hfind, rfl⟩ := Option.map_eq_some_iff.1 (Option.mem_toList.1 hc)
  have hf := List.mem_of_mem_filter (List.mem_of_find?_eq_some hfind)
  have hkind := List.find?_some hfind
  have hapart := h.apart f hf (by rw [of_decide_eq_true hkind]; nofun)
  have hlines : (t'.readLines f.path).toOption = (t.readLines f.path).toOption := by
    rw [Tree.readLines, Tree.readLines, Failure.toOption_map, Failure.toOption_map,
      Tree.toOption_read_eq halike hapart]
  show List.map _ (CatalogEntry.ofLines _ ((t'.readLines f.path).toOption.getD [])).1 = _
  rw [hlines]
  rfl

/-- What is written in the directory of a package stands beside a file of it. -/
theorem IsDirectoryOf.isBeside (hd : IsDirectoryOf s t m p l around) {target : Path} :
    IsBeside s t (Tree.IsWrittenAt target (l ++ around)) m := by
  rintro l' hl' around' name hw -
  obtain ⟨rfl⟩ := Except.ok.inj (hd.isRootedAt.place.symm.trans hl'.place)
  have haround : l ++ around' = l ++ around := by
    rcases hw with heq | heq <;> exact (List.append_inj' heq rfl).1
  obtain ⟨f, hf, hpackage, -⟩ := hd.file
  rw [List.append_cancel_left haround, ← hd.isPackageAt.name]
  exact ⟨f, hf, hpackage⟩

/-- A package is found again, and its rows are the same but for the translations. -/
theorem IsDirectoryOf.exists_package {root directory : Path} (h : IsWritten s t W t')
    (hbeside : IsBeside s t W m) (hapart : IsApart t W) (hm : IsOf t root directory m)
    (hd : IsDirectoryOf s t m p l around)
    (hx : (ofModule s t m).2 = .ok x) (hp : p ∈ x.packages) :
    ∃ y q, (ofModule s t' m).2 = .ok y ∧ y.package? p.name = some q ∧ q.name = p.name ∧
      IsScanned s t' { m with files := filesAt s t' m l } q ∧
      ∀ language, (q.exportRows s language m.identity).map (·.untranslated) =
        (p.exportRows s language m.identity).map (·.untranslated) := by
  obtain ⟨y, hy⟩ := h.exists_ofModule hbeside hapart hm ⟨x, hx⟩
  have hl := hd.isRootedAt
  obtain ⟨log₁, hm₁⟩ := hl.exists_collectFiles (s := s) h.sound hd.isOpen
  obtain ⟨log₂, hm₂⟩ :=
    (h.isRootedAt hl).exists_collectFiles (s := s) h.sound' (h.isOpen_iff.2 hd.isOpen)
  obtain ⟨_, _, hfiles₁, hx⟩ := of_ofModule_eq_ok hm.files hx
  obtain ⟨rfl, -⟩ := Prod.mk.inj (Except.ok.inj (hm₁.symm.trans hfiles₁))
  obtain ⟨_, _, hfiles₂, hz⟩ := of_ofModule_eq_ok hm.files hy
  obtain ⟨rfl, -⟩ := Prod.mk.inj (Except.ok.inj (hm₂.symm.trans hfiles₂))
  obtain ⟨f, hf, hpackage, -⟩ := hd.file
  obtain ⟨q, hq, hname⟩ := (exists_mem_packages_iff hz).2 ⟨f, h.mem_filesAt hf, hpackage⟩
  refine ⟨y, q, hy, (package?_eq_some_iff hz).2 ⟨hq, hname⟩, hname,
    isScanned_of_ofFiles_eq_ok h.sound'.isNamed hm₂ hz hq, fun language => ?_⟩
  exact untranslated_exportRows_eq (h.isRecollected hbeside hl) h.alike hx hz hp hq hname

/-! ### The own translation -/

/-- A package with a primary catalog, and without a translated catalog in a language. -/
structure IsUntranslated (t : Tree) (m : RepositoryModule) (language : Text) (p : Package)
    (primary : Catalog) : Prop where
  package : ∃ x, (ofModule .standard t m).2 = .ok x ∧ p ∈ x.packages
  primary : p.primary = some primary
  untranslated : ∀ c ∈ p.translated, c.language? .standard ≠ some language

theorem IsUntranslated.translationPath_eq (h : IsUntranslated t m language p primary) :
    p.translationPath .standard language = p.ownPath .standard language := by
  refine translationPath_of_eq_none (List.find?_eq_none.2 fun c hc htaken => ?_)
  rw [Bool.and_eq_true] at htaken
  exact h.untranslated c hc (beq_iff_eq.1 htaken.1)

/-- Where only the own translation was written, no other file passes for a translation. -/
theorem name_eq_of_passes (h : IsWritten .standard t W t')
    (hd : IsDirectoryOf .standard t m p l around)
    (huntranslated : ∀ c ∈ p.translated, c.language? .standard ≠ some language)
    (hW : ∀ name, W (l ++ around ++ [name]) → Passes .standard language name →
      name = Package.translationName .standard language)
    {f : ModuleFile} (hf : f ∈ filesAt .standard t' m l) (hpackage : f.package = p.name)
    (hpasses : Passes .standard language f.name) :
    f.name = Package.translationName .standard language := by
  obtain ⟨around', name, hstands, hfile⟩ := (mem_filesAt_iff h.sound').1 hf
  obtain rfl : around' = around := by
    refine Path.intercalate_inj hstands.isName_around hd.isPackageAt.isName ?_
    rw [← hstands.package, hpackage, hd.isPackageAt.name]
  have hname := hstands.name_eq (Path.isNormal_ofText m.sourceRoot)
  by_contra hother
  have hw : ¬W (l ++ around' ++ [name]) := fun hw =>
    hother (hname.trans (hW name hw (hname ▸ hpasses)))
  -- it was there before, and was a catalog in the language
  have hold := (h.hasFileAt_iff hw).1 hfile
  have hf : f ∈ filesAt .standard t m l :=
    (mem_filesAt_iff h.sound).2 ⟨around', name, hstands, hold⟩
  obtain ⟨c, hc⟩ := Option.isSome_iff_exists.1 (isSome_catalogOf?_iff (s := .standard).2
    (hd.isRootedAt.exists_read h.sound hstands hold))
  have hkind := hd.isScanned.kind_eq hf hpasses
  have hmem : c ∈ p.translated :=
    (hd.isScanned.hasCatalogs.mem_iff c).2 ⟨f, hf, hpackage, hkind, hc⟩
  have htaken := (isTaken_iff hstands hkind hc).2 hpasses
  rw [Bool.and_eq_true] at htaken
  exact huntranslated c hmem (beq_iff_eq.1 htaken.1)

/-- That translation is taken once it was written. -/
theorem exists_translation?_own (h : IsWritten .standard t W t')
    (hd : IsDirectoryOf .standard t m p l around)
    (huntranslated : ∀ c ∈ p.translated, c.language? .standard ≠ some language)
    (hW : ∀ name, W (l ++ around ++ [name]) → Passes .standard language name →
      name = Package.translationName .standard language)
    (hlanguage : isLanguage language = true)
    (hq : IsScanned .standard t' { m with files := filesAt .standard t' m l } q)
    (hname : q.name = p.name)
    (hfile : t'.HasFileAt (l ++ around ++ [Package.translationName .standard language]))
    (hread : ∃ bytes, t'.read (p.ownPath .standard language) = .ok bytes) :
    ∃ c, q.translation? .standard language = some c ∧ Catalog.read? .standard t'
      { path := p.ownPath .standard language, kind := .translatedCatalog } = some c := by
  obtain ⟨bytes, hentry⟩ := hfile
  have hpasses := passes_translationName hlanguage
  have hat := hd.isPackageAt
  have hlimit : Tree.byteLength (pathBelow (Path.ofText m.sourceRoot)
      (around ++ [Package.translationName .standard language])) ≤ Tree.pathLimit := by
    obtain ⟨_, hread⟩ := hread
    obtain ⟨-, _, hplace, -⟩ := Tree.read_eq_ok_iff.1 hread
    rw [pathBelow_concat, ← hat.ownPath_eq hlanguage]
    exact Tree.byteLength_of_place hplace
  obtain ⟨f, hf, hstands, -⟩ :=
    exists_mem_filesAt h.sound' hentry (ofName?_of_passes hpasses) hlimit
  have hfname := hstands.name_eq (Path.isNormal_ofText m.sourceRoot)
  have hpackage : f.package = p.name := hstands.package.trans hat.name.symm
  rw [← (hat.path_eq_ownPath_iff hlanguage hstands).2 ⟨hpackage, hfname⟩] at hread
  obtain ⟨c₀, hc₀⟩ := Option.isSome_iff_exists.1 (isSome_catalogOf?_iff (s := .standard).2 hread)
  obtain ⟨c, hc, -⟩ :=
    hq.exists_translation? hf (hpackage.trans hname.symm) (hfname ▸ hpasses) hc₀
  -- what is taken is the own translation
  obtain ⟨g, hg, hgpackage, hgpasses, hgc⟩ := hq.of_translation?_eq_some hc
  have hgname := name_eq_of_passes h hd huntranslated hW hg (hgpackage.trans hname) hgpasses
  obtain ⟨around', name, hgstands, -⟩ := (mem_filesAt_iff h.sound').1 hg
  have hgpath := (hat.path_eq_ownPath_iff hlanguage hgstands).2 ⟨hgpackage.trans hname, hgname⟩
  rw [catalogOf?, hgpath, hq.kind_eq hg hgpasses] at hgc
  exact ⟨c, hc, hgc⟩

end ModuleScan

open ModuleScan

/-! ### The own translation is written -/

/-- The name of a temporary file has no kind. -/
theorem ofName?_temporary {name : Text} (hname : Path.IsName (name ++ Tree.temporarySuffix)) :
    FileKind.ofName? .standard (name ++ Tree.temporarySuffix) = none := by
  have hends : ∀ ending : Text, ending ≠ [] → ending <:+ name ++ Tree.temporarySuffix →
      ending.getLast? = some 0x70 := by
    rintro ending hne ⟨before, heq⟩
    have hlast := congrArg List.getLast? heq
    rwa [List.getLast?_append_of_ne_nil _ hne,
      List.getLast?_append_of_ne_nil _ (by decide)] at hlast
  have hsource : (Path.ofText (name ++ Tree.temporarySuffix)).suffix ≠ Text.ofString ".java" := by
    intro heq
    have hsplit : _ ++ Path.suffix _ = Path.name _ :=
      Path.splitName_append (Path.ofText (name ++ Tree.temporarySuffix)).name
    rw [heq, Path.ofText_name hname] at hsplit
    have hlast := hends (Text.ofString ".java") (by decide) ⟨_, hsplit⟩
    cases hlast
  unfold FileKind.ofName?
  rw [if_neg, if_neg, if_neg]
  · simpa [Settings.standard] using hsource
  · rw [List.isSuffixOf_iff_suffix]
    intro hsuffix
    cases hends _ (by decide) hsuffix
  · intro heq
    cases hends Settings.standard.primaryCatalogName (by decide) (heq ▸ List.suffix_refl _)

/-- Where a catalog and its temporary file are written. -/
def GeneratedCatalog.Writes (t : Tree) (g : GeneratedCatalog) (l : Location) : Prop :=
  ∃ path, (path = Path.ofText g.path ∨ path = Tree.temporaryOf (Path.ofText g.path)) ∧
    ∃ place, t.place .entry path.toText = .ok place ∧ place.location = l

theorem GeneratedCatalog.writes_eq {g : GeneratedCatalog} {d : Location} {text : Text}
    (h : t.IsReplaced (Path.ofText g.path) d text t') :
    g.Writes t = Tree.IsWrittenAt (Path.ofText g.path) d := by
  have hnormal := Path.isNormal_ofText g.path
  obtain ⟨p₁, hp₁, hl₁⟩ := h.leads.place_entry hnormal h.isProper
  obtain ⟨p₂, hp₂, hl₂⟩ := h.leadsTemporary.place_entry
    (Tree.isNormal_temporaryOf hnormal h.isProper.ne_nil) (Tree.isProper_temporaryOf _)
  funext l
  refine propext ⟨?_, ?_⟩
  · rintro ⟨_, rfl | rfl, p, hp, rfl⟩
    · exact .inl ((congrArg Tree.Place.location (Except.ok.inj (hp.symm.trans hp₁))).trans hl₁)
    · exact .inr ((congrArg Tree.Place.location (Except.ok.inj (hp.symm.trans hp₂))).trans hl₂)
  · rintro (rfl | rfl)
    · exact ⟨_, .inl rfl, p₁, hp₁, hl₁⟩
    · exact ⟨_, .inr rfl, p₂, hp₂, hl₂⟩

/-- A text that is written under the name of a translation, and begins with a comment, is a
catalog. -/
theorem isWritten_of_isReplaced {target : Path} {d : Location} {rest : Text} (ht : t.IsSound)
    (htarget : target.IsNormal) (h : t.IsReplaced target d (Code.hash :: rest) t')
    (hpasses : Passes .standard language target.name) :
    IsWritten .standard t (Tree.IsWrittenAt target d) t' := by
  refine ⟨ht, h.sound, h.alike, fun d' name hw => ?_⟩
  rcases hw with heq | heq <;> obtain ⟨rfl, hname⟩ := List.append_inj' heq rfl <;>
    obtain rfl := List.singleton_inj.1 hname
  · refine .inl ⟨ofName?_of_passes hpasses, rest.flatMap Text.utf8Code, ?_⟩
    rw [h.entry, Text.flatMap_utf8Code_cons (by decide)]
    rfl
  · refine .inr ⟨?_, h.temporary⟩
    have hnormal := Tree.isNormal_temporaryOf htarget h.isProper.ne_nil
    have hisName := Path.isName_name hnormal (Tree.isProper_temporaryOf target).ne_nil
    rw [Tree.name_temporaryOf] at hisName ⊢
    exact ofName?_temporary hisName

/-- No link stands where a catalog is written, and nothing that makes a directory a module leads
there. -/
structure IsWrittenApart (t : Tree) (g : GeneratedCatalog) : Prop where
  noLink : t.HasNoLinkAt (Path.ofText g.path)
  noTemporaryLink : t.HasNoLinkAt (Tree.temporaryOf (Path.ofText g.path))
  isApart : IsApart t (g.Writes t)

/-- **The texts of a table survive in the catalog that is made from them.** -/
theorem survives_writeLines (ht : t.IsSound) {root : Path} {tops : List Text} {filter : Option Text}
    {modules : List RepositoryModule} {log : Log}
    (hmodules : discover t root tops filter = .ok (modules, log)) (hm : m ∈ modules)
    (hlanguage : isLanguage language = true) (hp : IsUntranslated t m language p primary)
    {source : Text} {rows : List (List Text)} {table : Table}
    (htable : Table.ofRows source rows = .ok table) {translations : KeyedList Text Text}
    (htranslations : table.package? m.identity p.name = some translations)
    (hkeys : ∀ key ∈ translations.keys, ∃ e ∈ primary.entries, e.key = key)
    (htexts : ∀ e ∈ translations, e.2.IsTransferable) {header : List Text} (hnonempty : header ≠ [])
    (hheader : ∀ line ∈ header, line.head? = some Code.hash ∧ line.isLine = true)
    {g : GeneratedCatalog} (hg : g = p.generate .standard language header translations m.identity)
    (hapart : IsWrittenApart t g)
    (hwrite : t.writeLines (Path.ofText g.path) g.lines = (t', none)) :
    discover t' root tops filter = .ok (modules, log) ∧
      ∃ y q, (ofModule .standard t' m).2 = .ok y ∧ y.package? p.name = some q ∧
        q.exportRows .standard language y.module.identity =
          primary.rowsWith m.identity p.name fun key =>
            (KeyedList.get? key translations).getD [] := by
  obtain ⟨directory, hdirectory⟩ := (of_discover_eq_ok hmodules).2 m hm
  have hof := isOf_of_ofDirectory hdirectory
  obtain ⟨x, hx, hpx⟩ := hp.package
  obtain ⟨l, around, hd⟩ := exists_isDirectoryOf ht hof.files hx hpx
  -- the catalog goes to its own name in the directory of the package
  have hpath : g.path = p.ownPath .standard language := by
    rw [hg]
    exact hp.translationPath_eq
  have hin := hd.isPathIn ht (Package.isName_translationName hlanguage)
  rw [← hd.isPackageAt.ownPath_eq hlanguage, ← hpath] at hin
  have hreplaced := Tree.isReplaced_of_writeText ht (Path.isNormal_ofText g.path) hin.way
    hin.directory hapart.noLink hapart.noTemporaryLink hwrite
  obtain ⟨more, hmore⟩ : ∃ more, Text.ofLines g.lines = Code.hash :: more := by
    rw [hg]
    obtain ⟨line, rest, rfl⟩ := List.exists_cons_of_ne_nil hnonempty
    obtain ⟨more, rfl⟩ := List.head?_eq_some_iff.1 (hheader line List.mem_cons_self).1
    exact ⟨_, rfl⟩
  have hpasses := passes_translationName hlanguage
  have hwritten : IsWritten .standard t (Tree.IsWrittenAt (Path.ofText g.path) (l ++ around)) t' :=
    isWritten_of_isReplaced ht (Path.isNormal_ofText g.path) (hmore ▸ hreplaced)
      (hin.name_eq.symm ▸ hpasses)
  have hnothing := GeneratedCatalog.writes_eq hreplaced ▸ hapart.isApart
  -- so the package is found again, with that catalog for its translation
  obtain ⟨y, q, hy, hpackage, hname, hq, hrows⟩ := hd.exists_package hwritten hd.isBeside
    hnothing hof hx hpx
  refine ⟨discover_eq ht hreplaced.sound hreplaced.alike hnothing root tops filter ▸ hmodules,
    y, q, hy, hpackage, ?_⟩
  have hW : ∀ name, Tree.IsWrittenAt (Path.ofText g.path) (l ++ around) (l ++ around ++ [name]) →
      Passes .standard language name → name = Package.translationName .standard language := by
    rintro name (heq | heq) hname <;>
      obtain rfl := List.singleton_inj.1 (List.append_inj' heq rfl).2
    · exact hin.name_eq
    · rw [Tree.name_temporaryOf] at hname
      exact absurd hname not_passes_temporary
  have hread : t'.read g.path = .ok ((Text.ofLines g.lines).flatMap Text.utf8Code) := by
    have hnormal := Path.isNormal_ofText g.path
    have hleads := hreplaced.leads.of_keeps hreplaced.alike.keeps
    rw [← hin.toText]
    exact Tree.read_eq_ok hnormal hreplaced.isProper hreplaced.isPath hleads hreplaced.entry
  obtain ⟨c, hc, hcatalog⟩ := exists_translation?_own hwritten hd hp.untranslated hW hlanguage hq
    hname ⟨_, hin.name_eq ▸ hreplaced.entry⟩ ⟨_, hpath ▸ hread⟩
  rw [← hpath] at hcatalog
  have hisKey : ∀ e ∈ translations, CatalogEntry.IsKey e.1 := by
    intro e he
    obtain ⟨m₁, -, -, hx⟩ := of_ofModule_eq_ok hof.files hx
    obtain ⟨entry, hentry, heq⟩ := hkeys e.1 (List.mem_map_of_mem he)
    exact heq ▸ isKey_of_mem_entries hx hpx hp.primary hentry
  have hnodup := (Table.nodup_keys_of_ofRows htable).of_package? htranslations
  have hscalar := Tree.all_isScalar_of_writeText (congrArg Prod.snd hwrite)
  have hlines : g.lines = Catalog.render header true translations :=
    congrArg GeneratedCatalog.lines hg
  rw [hlines] at hread hscalar
  have htexts := Catalog.textOf_of_read? hnonempty hheader hisKey hnodup htexts
    hscalar hread hcatalog
  rw [(name_ofModule hy).1, Package.exportRows_eq_withText, hrows,
    Package.withText_exportRows hp.primary, hc, funext htexts]

/-! ### A translation that survives, and one that does not -/

/-- The primary catalog of the repository, as it is scanned. -/
def onlyPrimary : Catalog where
  path := (inSources "Bundle.properties").toPath.toText
  kind := .primaryCatalog
  entries := [{ key := "k", value := "x", line := 1 }]

/-- The rows of a table of one translation. -/
def onlyRows : List (List Text) := [["k", "x", "y", "m", []]]

/-- The catalog that is made from that table. -/
def onlyCatalog : GeneratedCatalog where
  module := "m"
  package := []
  path := (inSources "Bundle_ja.properties").toPath.toText
  lines := ["# Made from a table", "k=y"]

/-- The repository with that catalog. -/
def repositoryTranslated : Tree :=
  (repositoryWith []).put (inSources "Bundle_ja.properties")
    (.ofText (Text.ofLines onlyCatalog.lines))

theorem writeLines_onlyCatalog :
    (repositoryWith []).writeLines (Path.ofText onlyCatalog.path) onlyCatalog.lines =
      (repositoryTranslated, none) := by
  cbv

theorem onlyRows_table : Table.ofRows "t.csv" onlyRows =
    .ok [(Text.ofString "m", [([], [(Text.ofString "k", Text.ofString "y")])])] := by
  cbv

theorem isTransferable_y : Text.IsTransferable "y" := by
  refine ⟨by decide, by decide, by decide, fun c hc _ => ?_, by decide⟩
  obtain rfl := Option.some.inj hc
  decide

/-- A package of the repository that is without a translation gets that catalog. -/
theorem exists_isUntranslated (more : KeyedList Location Entry)
    (h : (ofModule .standard (repositoryWith more) onlyModule).2.toOption.map
      (fun x => x.packages.map fun p => (p.name, p.directory, p.primary, p.translated)) =
        some [([], onlyModule.sourceRoot, some onlyPrimary, [])]) :
    ∃ p, IsUntranslated (repositoryWith more) onlyModule "ja" p onlyPrimary ∧ p.name = [] ∧
      onlyCatalog = p.generate .standard "ja" [Text.ofString "# Made from a table"]
        [(Text.ofString "k", Text.ofString "y")] onlyModule.identity := by
  obtain ⟨x, hx, p, hp, hlook⟩ := exists_package h
  obtain ⟨hname, hlook⟩ := Prod.mk.inj hlook
  obtain ⟨hdirectory, hlook⟩ := Prod.mk.inj hlook
  obtain ⟨hprimary, htranslated⟩ := Prod.mk.inj hlook
  refine ⟨p, ⟨⟨x, hx, hp⟩, hprimary, fun c hc => ?_⟩, hname, ?_⟩
  · rw [htranslated] at hc
    cases hc
  · rw [Package.generate, Package.translationPath, Package.translation?, htranslated, hname,
      hdirectory]
    cbv

theorem isWrittenApart_onlyCatalog : IsWrittenApart (repositoryWith []) onlyCatalog := by
  have hnone : (repositoryWith []).HasNoLinks := .of_entries fun l target hmem => by
    simp [repositoryWith, Entry.ofText] at hmem
  have hplace : (repositoryWith []).place .entry (Path.ofText onlyCatalog.path).toText =
      .ok (.missing (inSources "Bundle_ja.properties").dropLast "Bundle_ja.properties") := by cbv
  have htemporary :
      (repositoryWith []).place .entry (Tree.temporaryOf (Path.ofText onlyCatalog.path)).toText =
        .ok (.missing (inSources "Bundle_ja.properties").dropLast "Bundle_ja.properties.tmp") := by
    cbv
  have hwrites : ∀ l, onlyCatalog.Writes (repositoryWith []) l →
      l = inSources "Bundle_ja.properties" ∨ l = inSources "Bundle_ja.properties.tmp" := by
    rintro l ⟨path, rfl | rfl, place, hp, rfl⟩
    · exact .inl (Except.ok.inj (hp.symm.trans hplace) ▸ rfl)
    · exact .inr (Except.ok.inj (hp.symm.trans htemporary) ▸ rfl)
  refine ⟨fun d _ => hnone _, fun d _ => hnone _,
    .of_hasNoLinks hnone (fun l hw => ?_) fun l hw => ?_⟩
  · rcases hwrites l hw with rfl | rfl
    · exact ⟨_, "Bundle_ja.properties", rfl, by decide, by decide⟩
    · exact ⟨_, "Bundle_ja.properties.tmp", rfl, by decide, by decide⟩
  · rcases hwrites l hw with rfl | rfl <;> decide

theorem survives_writeLines_sample :
    (repositoryWith []).IsSound ∧
      discover (repositoryWith []) (Path.ofText "/r") [Text.ofString "."] none =
        .ok ([onlyModule], []) ∧
      IsWrittenApart (repositoryWith []) onlyCatalog ∧
      (repositoryWith []).writeLines (Path.ofText onlyCatalog.path) onlyCatalog.lines =
        (repositoryTranslated, none) ∧
      discover repositoryTranslated (Path.ofText "/r") [Text.ofString "."] none =
        .ok ([onlyModule], []) ∧
      ∃ y q, (ofModule .standard repositoryTranslated onlyModule).2 = .ok y ∧
        y.package? [] = some q ∧
        q.exportRows .standard "ja" y.module.identity = [⟨"k", "x", "y", "m", []⟩] := by
  have hsound : (repositoryWith []).IsSound := by decide +kernel
  have hmodules : discover (repositoryWith []) (Path.ofText "/r") [Text.ofString "."] none =
      .ok ([onlyModule], []) := Failure.eq_ok_of_toOption (by decide +kernel)
  obtain ⟨p, hp, hname, hcatalog⟩ := exists_isUntranslated [] (by decide +kernel)
  have htranslations : Table.package? onlyModule.identity p.name
      [(Text.ofString "m", [([], [(Text.ofString "k", Text.ofString "y")])])] =
        some [(Text.ofString "k", Text.ofString "y")] := by
    rw [hname]
    rfl
  have hsurvives := survives_writeLines hsound hmodules (List.mem_singleton.2 rfl) (by decide) hp
    onlyRows_table htranslations
    (fun key hkey => ⟨_, List.mem_singleton.2 rfl, (List.mem_singleton.1 hkey).symm⟩)
    (fun e he => List.mem_singleton.1 he ▸ isTransferable_y) (List.cons_ne_nil _ _)
    (fun line hline => List.mem_singleton.1 hline ▸ by decide) hcatalog isWrittenApart_onlyCatalog
    writeLines_onlyCatalog
  rw [hname] at hsurvives
  exact ⟨hsound, hmodules, isWrittenApart_onlyCatalog, writeLines_onlyCatalog, hsurvives⟩

/-- A repository in which a link stands at the temporary file of the translation. -/
def repositoryAndTemporaryLink : Tree :=
  repositoryWith [(inSources "Bundle_ja.properties.tmp", .link "x.txt")]

/-- That repository once the catalog is written: the text went through the link, and the link was
moved. -/
def repositoryAndMovedLink : Tree :=
  ((repositoryWith []).put (inSources "x.txt") (.ofText (Text.ofLines onlyCatalog.lines))).put
    (inSources "Bundle_ja.properties") (.link "x.txt")

/-- A link at the temporary file becomes the translation. It is no file of the module, so the text
is lost. -/
theorem temporary_link_loses_text :
    repositoryAndTemporaryLink.IsSound ∧
      discover repositoryAndTemporaryLink (Path.ofText "/r") [Text.ofString "."] none =
        .ok ([onlyModule], []) ∧
      isLanguage "ja" = true ∧
      Table.ofRows "t.csv" onlyRows =
        .ok [(Text.ofString "m", [([], [(Text.ofString "k", Text.ofString "y")])])] ∧
      Text.IsTransferable "y" ∧
      (∃ p, IsUntranslated repositoryAndTemporaryLink onlyModule "ja" p onlyPrimary ∧ p.name = [] ∧
        onlyCatalog = p.generate .standard "ja" [Text.ofString "# Made from a table"]
          [(Text.ofString "k", Text.ofString "y")] onlyModule.identity) ∧
      repositoryAndTemporaryLink.writeLines (Path.ofText onlyCatalog.path) onlyCatalog.lines =
        (repositoryAndMovedLink, none) ∧
      discover repositoryAndMovedLink (Path.ofText "/r") [Text.ofString "."] none =
        .ok ([onlyModule], []) ∧
      ∀ y q, (ofModule .standard repositoryAndMovedLink onlyModule).2 = .ok y →
        y.package? [] = some q →
          q.exportRows .standard "ja" y.module.identity ≠ [⟨"k", "x", "y", "m", []⟩] := by
  refine ⟨by decide +kernel, Failure.eq_ok_of_toOption (by decide +kernel), by decide,
    onlyRows_table, isTransferable_y, exists_isUntranslated _ (by cbv), by cbv,
    Failure.eq_ok_of_toOption (by decide +kernel), fun y q hy hq hrows => ?_⟩
  have hlook : (ofModule .standard repositoryAndMovedLink onlyModule).2.toOption.map
      (fun y => (y.package? []).map fun q => q.exportRows .standard "ja" y.module.identity) =
        some (some [⟨"k", "x", [], "m", []⟩]) := by cbv
  rw [hy] at hlook
  have hlook : (y.package? []).map (fun q => q.exportRows .standard "ja" y.module.identity) = _ :=
    Option.some.inj hlook
  rw [hq] at hlook
  cases (Option.some.inj hlook).symm.trans hrows

end BundleAudit
