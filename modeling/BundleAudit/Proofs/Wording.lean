import BundleAudit.Files.Read
import BundleAudit.Proofs.Files.Refusal
import BundleAudit.Proofs.Text.Lines
import BundleAudit.Proofs.Text.Scalar
import BundleAudit.Proofs.Text.Splitting
import BundleAudit.Proofs.Text.Surrogates

/-!
# BundleAudit.Proofs.Wording

**The wording of a failure holds no surrogates** if the texts that the failure mentions
hold none (`all_isScalar_message`). The file system does not look at a path with
surrogates, so what it refuses is a path without them. What is made of paths without
surrogates holds none.
-/

namespace BundleAudit

/-! ### Paths -/

namespace Path

variable {p q : Path} {text : Text}

/-- A path that holds no surrogates. -/
structure IsScalar (p : Path) : Prop where
  root : p.root.all Code.isScalar = true
  names : ∀ name ∈ p.names, name.all Code.isScalar = true

theorem isScalar_ofText (h : text.all Code.isScalar = true) : (ofText text).IsScalar := by
  refine ⟨?_, fun name hname => ?_⟩
  · rcases (isNormal_ofText text).root with hroot | hroot | hroot <;> rw [hroot] <;> rfl
  · exact Text.all_isScalar_of_subset
      (fun c => Text.mem_of_mem_splitOn (List.mem_of_mem_filter hname)) h

theorem IsScalar.all_toText (h : p.IsScalar) : p.toText.all Code.isScalar = true := by
  have hnames : (List.intercalate [Code.slash] p.names).all Code.isScalar = true :=
    Text.all_isScalar_intercalate (by decide) h.names
  unfold toText
  split
  · decide
  · rw [List.all_append, h.root, hnames]
    rfl

theorem IsScalar.join (hp : p.IsScalar) (hq : q.IsScalar) : (p.join q).IsScalar := by
  unfold Path.join
  split
  · exact hq
  · exact ⟨hp.root, List.forall_mem_append.2 ⟨hp.names, hq.names⟩⟩

theorem IsScalar.all_suffix (h : p.IsScalar) : p.suffix.all Code.isScalar = true := by
  have hname : p.name.all Code.isScalar = true := by
    rw [name, List.getLastD_eq_getLast?]
    cases hlast : p.names.getLast? with
    | none => rfl
    | some name => exact h.names name (List.mem_of_getLast? hlast)
  refine Text.all_isScalar_of_subset (fun c hc => ?_) hname
  rw [← splitName_append p.name]
  exact List.mem_append_right _ hc

end Path

/-! ### Failures -/

namespace Failure

/-- The texts that a failure mentions. -/
def texts : Failure → List Text
  | .system _ path target => path :: target.toList
  | .unknownCharset name => [name]
  | .notACharset name => [name]
  | .noTokens suffixOrPath => [suffixOrPath]
  | .badSuffix (.invalidSuffix suffix) => [suffix]
  | .badSuffix (.emptyName path) => [path.toText]
  | .secondPrimaryCatalog directory => [directory]
  | .wrongColumns source _ _ cells => source :: cells
  | _ => []

/-- A failure mentions no text with surrogates. -/
def IsScalar (f : Failure) : Prop := ∀ text ∈ f.texts, text.all Code.isScalar = true

theorem all_isScalar_message {f : Failure} (h : f.IsScalar) :
    f.message.all Code.isScalar = true := by
  cases f with
  | system cause path target =>
      obtain ⟨hpath, htarget⟩ := List.forall_mem_cons.1 h
      have hcause : cause.description.all Code.isScalar = true := by
        cases cause <;> exact Text.all_isScalar_ofString _
      cases target with
      | none =>
          simp only [message, List.all_append, Text.all_isScalar_ofString, Text.all_isScalar_ofNat,
            hcause, Text.all_isScalar_quoted hpath, List.all_nil, Bool.and_self]
      | some target =>
          have htarget := Text.all_isScalar_quoted (htarget target List.mem_cons_self)
          simp only [message, List.all_append, Text.all_isScalar_ofString, Text.all_isScalar_ofNat,
            hcause, Text.all_isScalar_quoted hpath, htarget, Bool.and_self]
  | zeroInPath => exact Text.all_isScalar_ofString _
  | linkCircle => exact Text.all_isScalar_ofString _
  | noHome => exact Text.all_isScalar_ofString _
  | unencodable => exact Text.all_isScalar_ofString _
  | undecodable => exact Text.all_isScalar_ofString _
  | unknownCharset name =>
      rw [message, List.all_append, Text.all_isScalar_ofString, h name List.mem_cons_self]
      rfl
  | notACharset name =>
      rw [message, List.cons_append, List.all_cons, List.all_append, Text.all_isScalar_ofString,
        h name List.mem_cons_self]
      rfl
  | multiByteCharset => exact Text.all_isScalar_ofString _
  | nestedTooDeep => exact Text.all_isScalar_ofString _
  | overlongCell => exact Text.all_isScalar_ofString _
  | noTokens text =>
      simp only [message, List.all_append, Text.all_isScalar_ofString, h text List.mem_cons_self,
        Bool.and_self]
  | badSuffix error =>
      cases error with
      | invalidSuffix suffix =>
          simp only [message, List.all_append, Text.all_isScalar_ofString,
            Text.all_isScalar_quoted (h suffix List.mem_cons_self), Bool.and_self]
      | emptyName path =>
          simp only [message, List.all_append, Text.all_isScalar_ofString,
            Text.all_isScalar_quoted (h path.toText List.mem_cons_self), Bool.and_self]
  | secondPrimaryCatalog directory =>
      rw [message, List.all_append, Text.all_isScalar_ofString, h directory List.mem_cons_self]
      rfl
  | wrongColumns source row expected cells =>
      obtain ⟨hsource, hcells⟩ := List.forall_mem_cons.1 h
      simp only [message, List.all_append, Text.all_isScalar_ofString, Text.all_isScalar_ofNat,
        hsource, Text.all_isScalar_quotedList hcells, Bool.and_self]
  | unknownSetting => exact Text.all_isScalar_ofString _

/-- What a step gives has a property, and if it fails, no text with surrogates is mentioned. -/
structure Gives {α : Type} (P : α → Prop) (x : Except Failure α) : Prop where
  value : ∀ a, x = .ok a → P a
  failure : ∀ f, x = .error f → f.IsScalar

theorem gives_ok {α : Type} {P : α → Prop} {a : α} (h : P a) : Gives P (.ok a) where
  value _ heq := Except.ok.inj heq ▸ h
  failure _ heq := by cases heq

theorem gives_error {α : Type} {P : α → Prop} {f : Failure} (h : f.IsScalar) :
    Gives P (.error f : Except Failure α) where
  value _ heq := by cases heq
  failure _ heq := Except.error.inj heq ▸ h

theorem Gives.map {α β : Type} {P : α → Prop} {Q : β → Prop} {x : Except Failure α} {g : α → β}
    (h : Gives P x) (hg : ∀ a, P a → Q (g a)) : Gives Q (x.map g) where
  value b hb := by
    obtain ⟨a, ha, rfl⟩ := map_eq_ok_iff.1 hb
    exact hg a (h.value a ha)
  failure f hf := h.failure f (map_eq_error_iff.1 hf)

end Failure

/-! ### The file system -/

namespace Tree

variable {t : Tree} {path : Text} {f : Failure}

theorem isScalar_of_notAPath? (h : notAPath? path = some f) : f.IsScalar := by
  unfold notAPath? at h
  split at h
  · exact Option.some.inj h ▸ nofun
  · split at h
    · exact Option.some.inj h ▸ nofun
    · cases h

theorem isScalar_system (h : notAPath? path = none) (cause : SystemCause) :
    (Failure.system cause path none).IsScalar :=
  List.forall_mem_singleton.2 (notAPath?_eq_none_iff.1 h).1

theorem isScalar_of_lookAt (h : t.lookAt path = .error f) : f.IsScalar := by
  unfold lookAt at h
  split at h
  · cases h
  · next hpath =>
      split at h
      · cases h
      · exact Except.error.inj h ▸ isScalar_system (by simpa using hpath) _
      · cases h

theorem isScalar_of_isFile (h : t.isFile path = .error f) : f.IsScalar :=
  isScalar_of_lookAt (Failure.map_eq_error_iff.1 h)

theorem isScalar_of_isDirectory (h : t.isDirectory path = .error f) : f.IsScalar :=
  isScalar_of_lookAt (Failure.map_eq_error_iff.1 h)

theorem isScalar_of_hasEntry (h : t.hasEntry path = .error f) : f.IsScalar :=
  isScalar_of_lookAt (Failure.map_eq_error_iff.1 h)

theorem isScalar_of_read (h : t.read path = .error f) : f.IsScalar := by
  unfold read at h
  split at h
  · next hpath => exact Except.error.inj h ▸ isScalar_of_notAPath? hpath
  · next hpath =>
      split at h
      · exact Except.error.inj h ▸ isScalar_system hpath _
      · exact Except.error.inj h ▸ isScalar_system hpath _
      · split at h
        · cases h
        · exact Except.error.inj h ▸ isScalar_system hpath _

theorem isScalar_of_readLines (h : t.readLines path = .error f) : f.IsScalar :=
  isScalar_of_read (Failure.map_eq_error_iff.1 h)

/-- The lines of a file hold no surrogates. -/
theorem isScalar_of_mem_readLines {lines : List Text} (h : t.readLines path = .ok lines) :
    ∀ line ∈ lines, ∀ c ∈ line, Code.isScalar c = true := by
  obtain ⟨bytes, -, rfl⟩ := Failure.map_eq_ok_iff.1 h
  intro line hline c hc
  have hmem : c ∈ (Text.ofBytes bytes).lines.flatten := List.mem_flatten_of_mem hline hc
  rw [Text.flatten_lines] at hmem
  exact List.all_eq_true.1 (Text.all_isScalar_ofBytes bytes) c (List.mem_filter.1 hmem).1

end Tree

end BundleAudit
