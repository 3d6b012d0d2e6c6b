import BundleAudit.Proofs.Module.Addressing
import BundleAudit.Proofs.Module.Collection
import BundleAudit.Proofs.Module.Discovery
import BundleAudit.Proofs.Scan.Completion
import BundleAudit.Proofs.Table.Reading

/-!
# BundleAudit.Proofs.Module.Generation

**Catalogs that are generated can be written,** as far as their paths and texts go
(`isUsable_of_mem_generate`). A path is that of a catalog that was read, or lies beside
the primary catalog; a line consists of a key of the table and of ASCII.
-/

namespace BundleAudit

/-- The settings of a scan that leaves all as it is, except perhaps for the catalogs that count. -/
def Settings.ofBundles (all : Bool) : Settings :=
  { Settings.standard with scanSecondaryCatalogs := all }

/-- A path and lines that can be written. -/
structure GeneratedCatalog.IsUsable (g : GeneratedCatalog) : Prop where
  hasName : (Path.ofText g.path).name ≠ []
  isPath : Tree.notAPath? (Path.ofText g.path).toText = none
  isScalar : (Text.ofLines g.lines).all Code.isScalar = true

/-! ### Lines -/

namespace Catalog

theorem all_isScalar_encodeNonAscii (t : Text) : t.encodeNonAscii.all Code.isScalar = true :=
  List.all_eq_true.2 fun _ hc => Code.isScalar_of_ascii (Text.lt_of_mem_encodeNonAscii hc)

/-- A catalog holds no surrogates but those of its header and of its keys. -/
theorem all_isScalar_render {header : List Text} {translations : KeyedList Text Text}
    (hheader : ∀ l ∈ header, l.all Code.isScalar = true)
    (hkeys : ∀ key ∈ translations.keys, key.all Code.isScalar = true) :
    (Text.ofLines (render header true translations)).all Code.isScalar = true := by
  have hlines : ∀ l ∈ render header true translations, l.all Code.isScalar = true := by
    intro l hl
    rcases List.mem_append.1 hl with hl | hl
    · exact hheader l hl
    · obtain ⟨⟨key, value⟩, hentry, rfl⟩ := List.mem_map.1 hl
      have hentry := (List.mergeSort_perm _ _).mem_iff.1 hentry
      have hkey := hkeys key (List.mem_map.2 ⟨_, hentry, rfl⟩)
      show (key ++ Code.equals :: value.encodeNonAscii).all Code.isScalar = true
      rw [List.all_append, List.all_cons, hkey, all_isScalar_encodeNonAscii]
      rfl
  refine List.all_eq_true.2 fun c hc => ?_
  obtain ⟨l, hl, hc⟩ := List.mem_flatMap.1 hc
  rcases List.mem_append.1 hc with hc | hc
  · exact List.all_eq_true.1 (hlines l hl) c hc
  · rw [List.mem_singleton.1 hc]
    rfl

end Catalog

/-! ### Paths -/

namespace ModuleScan

open RepositoryModule

variable {t : Tree} {m m' : RepositoryModule} {p : Package} {language : Text} {all : Bool}
  {y : ModuleScan} {s : Settings} {log : Log}

/-- The name of a translation is a path in the file system. -/
theorem notAPath?_translationName (h : isLanguage language = true) :
    Tree.notAPath? (Package.translationName .standard language) = none := by
  have hlanguage : Tree.notAPath? language = none := by
    refine Tree.notAPath?_eq_none_iff.2 ⟨List.all_eq_true.2 fun c hc => ?_, fun hnul => ?_⟩
    · have hcode := isLanguageCode_of_mem h hc
      refine Code.isScalar_of_ascii ?_
      simp only [Code.isLanguageCode, Code.isAsciiLetter, Bool.or_eq_true, beq_iff_eq] at hcode
      rcases hcode with (hupper | hlower) | rfl
      · exact Nat.lt_of_le_of_lt (of_decide_eq_true hupper).2 (by decide)
      · exact Nat.lt_of_le_of_lt (of_decide_eq_true hlower).2 (by decide)
      · decide
    · cases isLanguageCode_of_mem h hnul
  rw [Package.translationName_standard, Tree.notAPath?_append, Tree.notAPath?_append]
  exact ⟨⟨by decide, (Tree.notAPath?_append (a := [Code.underscore])).2 ⟨rfl, hlanguage⟩⟩,
    by decide⟩

/-- A generated catalog goes to a path at which a file can be written. -/
theorem isPath_translationPath (ht : t.IsSound) (hroot : Tree.notAPath? m.sourceRoot = none)
    (hm : m.collectFiles (.ofBundles all) t = .ok (m', log))
    (hy : (ofFiles (.ofBundles all) t m').2 = .ok y) (hp : p ∈ y.packages)
    (hlanguage : isLanguage language = true) :
    (Path.ofText (p.translationPath (.ofBundles all) language)).name ≠ [] ∧
      Tree.notAPath? (Path.ofText (p.translationPath (.ofBundles all) language)).toText = none := by
  obtain ⟨files, rfl⟩ := collectFiles_eq_ok hm
  obtain ⟨x, -, hstart, -, hpackages, -, -⟩ := of_ofFiles_eq_ok hy
  rw [hpackages] at hp
  obtain ⟨q, hq, rfl⟩ := List.mem_map.1 hp
  obtain ⟨f, hf, hfiles⟩ := (mem_packages_iff hstart).1 hq
  unfold Package.translationPath
  split
  · next c hc =>
      -- a catalog that is taken was read at its path
      have hmem := List.mem_of_find?_eq_some hc
      rw [translated_counted, hfiles] at hmem
      obtain ⟨c₀, hc₀, hread⟩ := List.mem_filterMap.1 hmem
      obtain ⟨g, hg, rfl⟩ := List.mem_map.1 hc₀
      obtain ⟨around, name, hstands, -⟩ := exists_standsAt ht hm
        (List.mem_of_mem_filter (List.mem_of_mem_filter hg))
      have hpath : c.path = g.path := (Catalog.of_read?_eq_some hread).1
      have htext := hstands.ofText_path (Path.isNormal_ofText _)
      obtain ⟨bytes, hbytes⟩ := isSome_catalogOf?_iff.1 (Option.isSome_of_eq_some hread)
      rw [hpath, htext, ← hstands.path]
      refine ⟨?_, ?_⟩
      · rw [Path.name, List.getLastD_concat]
        exact (hstands.isName name (List.mem_append_right _ List.mem_cons_self)).ne_nil
      · by_contra hnone
        obtain ⟨failure, hfailure⟩ := Option.ne_none_iff_exists'.1 hnone
        rw [Tree.read, hfailure] at hbytes
        cases hbytes
  · obtain ⟨around, name, hstands, hentry⟩ := exists_standsAt ht hm hf
    have hat : IsPackageAt { m with files } (counted (.ofBundles all) t
        (platformUses (.ofBundles all) t { m with files } q.name) q) around :=
      ⟨hstands.isName_around, by rw [name_counted, hfiles, packageOf, hstands.package],
        by rw [name_counted, directory_counted, hfiles, packageOf]⟩
    have htext := hat.ofText_ownPath hlanguage
    show (Path.ofText (Package.ownPath .standard language _)).name ≠ [] ∧
      Tree.notAPath? (Path.ofText (Package.ownPath .standard language _)).toText = none
    have hnormal := Path.isNormal_ofText (Package.ownPath .standard language
      (counted (.ofBundles all) t (platformUses (.ofBundles all) t { m with files } q.name) q))
    rw [Tree.notAPath?_toText hnormal, htext]
    refine ⟨?_, fun n hn => ?_⟩
    · rw [Path.name, List.getLastD_concat]
      exact (Package.isName_translationName hlanguage).ne_nil
    · rcases List.mem_append.1 hn with hn | hn
      · rcases List.mem_append.1 hn with hn | hn
        · exact Tree.notAPath?_names_ofText hroot n hn
        · exact (hentry n (List.mem_append_left _ hn)).isPath
      · exact List.mem_singleton.1 hn ▸ notAPath?_translationName hlanguage

/-! ### The catalogs of a module -/

theorem mem_generateFrom {header : List Text} {entries : List (Text × KeyedList Text Text)}
    {g : GeneratedCatalog} (hg : g ∈ (generateFrom s language header y entries).1) :
    ∃ e ∈ entries, ∃ p ∈ y.packages,
      g = p.generate s language header e.2 y.module.identity := by
  induction entries with
  | nil => cases hg
  | cons e rest ih =>
      obtain ⟨name, translations⟩ := e
      cases hmore : generateFrom s language header y rest with | mk catalogs log =>
      have hrest : ∀ hg : g ∈ catalogs, ∃ e ∈ (name, translations) :: rest, ∃ p ∈ y.packages,
          g = p.generate s language header e.2 y.module.identity := fun hg =>
        let ⟨e, he, h⟩ := ih (by rwa [hmore])
        ⟨e, List.mem_cons_of_mem _ he, h⟩
      rw [generateFrom, hmore] at hg
      dsimp only at hg
      split at hg
      · exact hrest hg
      · next hpackage =>
          split at hg
          · exact hrest hg
          · rcases List.mem_cons.1 hg with rfl | hg
            · exact ⟨_, List.mem_cons_self, _, List.mem_of_find?_eq_some hpackage, rfl⟩
            · exact hrest hg

/-- **Catalogs that are generated can be written,** as far as their paths and texts go. -/
theorem isUsable_of_mem_generate (ht : t.IsSound) (hroot : Tree.notAPath? m.sourceRoot = none)
    (hfiles : m.files = []) (hy : (ofModule (.ofBundles all) t m).2 = .ok y)
    (hlanguage : isLanguage language = true) {header : List Text}
    (hheader : ∀ l ∈ header, l.all Code.isScalar = true) {table : Table}
    (htable : table.KeysHold (·.all Code.isScalar = true)) {g : GeneratedCatalog}
    (hg : g ∈ (y.generate (.ofBundles all) language header table).1) : g.IsUsable := by
  obtain ⟨m', log, hm, hy⟩ := of_ofModule_eq_ok hfiles hy
  obtain ⟨e, he, p, hp, rfl⟩ := mem_generateFrom hg
  have he := (List.mergeSort_perm _ _).mem_iff.1 he
  obtain ⟨hname, hpath⟩ := isPath_translationPath ht hroot hm hy hp hlanguage
  refine ⟨hname, hpath, Catalog.all_isScalar_render hheader ?_⟩
  unfold Table.forModule at he
  cases hget : KeyedList.get? y.module.identity table with
  | none =>
      rw [hget] at he
      cases he
  | some packages =>
      rw [hget] at he
      exact htable _ (KeyedList.mem_of_get?_eq_some hget) e he

end ModuleScan

end BundleAudit
