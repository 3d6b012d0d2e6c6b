import BundleAudit.Proofs.Files.Directories
import BundleAudit.Proofs.Files.Resolution
import BundleAudit.Proofs.Files.Way
import Mathlib.Data.Nat.Find

/-!
# BundleAudit.Proofs.Files.Links

**A way to a directory is resolved to where it leads** (`resolve_of_place`). Walking and
resolving follow the same links, but resolving stops at a link that it is following
already. A way never gets there: going on from a link takes fewer links than going
through it, so no link is met again on the way to its own target.

Where no link leads back to itself (`HasNoLoops`), none is left on the way to what a path is
resolved to, so only names that are none in the file system keep a path from being
resolved (`HasNoLoops.notAPath?_of_resolve`).
-/

namespace BundleAudit.Tree

variable {t : Tree} {p : Path} {links depth : Nat} {around : List Location} {l d : Location}
  {name : Text} {names : List Text} {r r' : Resolved}

/-! ### One name -/

theorem resolveNames_of_isSame (h : isSame name = true) :
    t.resolveNames (depth + 1) around l (name :: names) =
      t.resolveNames (depth + 1) around l names := by
  have hadd : Resolved.add ⟨l, false⟩ name = ⟨l, false⟩ := by rw [Resolved.add, if_pos h]
  rw [resolveNames, resolveNames, List.foldlM_cons, h, Bool.or_true, Bool.true_or, if_pos rfl, hadd]
  rfl

theorem resolveNames_of_isParent (hsame : isSame name = false) (h : isParent name = true) :
    t.resolveNames (depth + 1) around l (name :: names) =
      t.resolveNames (depth + 1) around l.dropLast names := by
  have hadd : Resolved.add ⟨l, false⟩ name = ⟨l.dropLast, false⟩ := by
    rw [Resolved.add, hsame, if_neg Bool.false_ne_true, if_pos h]
  rw [resolveNames, resolveNames, List.foldlM_cons, h, Bool.or_true, if_pos rfl, hadd]
  rfl

theorem IsProper.add_eq (h : IsProper name) (l : Location) (circular : Bool) :
    Resolved.add ⟨l, circular⟩ name = ⟨l ++ [name], circular⟩ := by
  rw [Resolved.add, h.notSame, h.notParent]
  rfl

theorem resolveNames_of_directory (hname : IsProper name) (hpath : notAPath? name = none)
    (hentry : t.entry? (l ++ [name]) = some .directory) :
    t.resolveNames (depth + 1) around l (name :: names) =
      t.resolveNames (depth + 1) around (l ++ [name]) names := by
  rw [resolveNames, resolveNames, List.foldlM_cons, hname.notSame, hname.notParent,
    hname.add_eq, hpath]
  simp only [hentry]
  rfl

/-- A link is followed before the names after it, if it is not followed already. -/
theorem resolveNames_of_link {target : Text} (hname : IsProper name) (hpath : notAPath? name = none)
    (hentry : t.entry? (l ++ [name]) = some (.link target)) (hnew : l ++ [name] ∉ around)
    (hfollowed : t.resolveNames depth ((l ++ [name]) :: around) (startOf l target)
      (namesOf target) = .ok ⟨d, false⟩) :
    t.resolveNames (depth + 1) around l (name :: names) =
      t.resolveNames (depth + 1) around d names := by
  rw [resolveNames, resolveNames, List.foldlM_cons, hname.notSame, hname.notParent,
    hname.add_eq, hpath]
  simp only [hentry, if_neg hnew, hfollowed]
  rfl

/-! ### Ways -/

/-- A link leads to a directory through at most so many other links. -/
def Follows (t : Tree) (links : Nat) (l : Location) : Prop :=
  ∃ target d, t.entry? l = some (.link target) ∧
    t.Leads links (startOf l.dropLast target) (namesOf target) d

theorem Leads.unique {more : Nat} {d' : Location} (h : t.Leads links l names d)
    (h' : t.Leads more l names d') : d = d' := by
  have hwalk := (h.mono (Nat.le_max_left links more)).walk_target
  rw [(h'.mono (Nat.le_max_right links more)).walk_target] at hwalk
  exact (Place.found.inj (Except.ok.inj hwalk)).symm

/-- Of all ways from a link there is one through fewest links, and none of those that are counted is
the link itself. -/
theorem exists_least_leads {target : Text} (hentry : t.entry? l = some (.link target))
    (h : t.Leads links (startOf l.dropLast target) (namesOf target) d) :
    ∃ least ≤ links, t.Leads least (startOf l.dropLast target) (namesOf target) d ∧
      ∀ fewer < least, ¬t.Follows fewer l := by
  classical
  have hexists : ∃ n, t.Leads n (startOf l.dropLast target) (namesOf target) d := ⟨links, h⟩
  refine ⟨Nat.find hexists, Nat.find_min' hexists h, Nat.find_spec hexists, ?_⟩
  rintro fewer hfewer ⟨target', d', hentry', hway⟩
  obtain rfl := Entry.link.inj (Option.some.inj (hentry.symm.trans hentry'))
  exact Nat.find_min hexists hfewer (h.unique hway ▸ hway)

/-- Names that lead to a directory are resolved to it if none of the links around is on the way. -/
theorem resolveNames_of_leads
    (hpaths : ∀ l e, t.entry? l = some e → ∀ name ∈ l, notAPath? name = none)
    (h : t.Leads links l names d) (hnew : ∀ a ∈ around, ∀ fewer < links, ¬t.Follows fewer a)
    (hdepth : links < depth) :
    t.resolveNames depth around l names = .ok ⟨d, false⟩ := by
  induction links using Nat.strongRecOn generalizing depth around l names d with
  | ind links ihl =>
      obtain ⟨depth, rfl⟩ := Nat.exists_eq_succ_of_ne_zero (n := depth) (by omega)
      induction names generalizing l with
      | nil =>
          cases h
          rfl
      | cons name rest ihn =>
          cases h with
          | same hsame hway =>
              rw [resolveNames_of_isSame hsame]
              exact ihn hway
          | parent hsame hparent hway =>
              rw [resolveNames_of_isParent hsame hparent]
              exact ihn hway
          | directory hname _ hentry hway =>
              have hpath := hpaths _ _ hentry name (List.mem_append_right _ List.mem_cons_self)
              rw [resolveNames_of_directory hname hpath hentry]
              exact ihn hway
          | @link links _ _ _ target _ hname _ hentry hway =>
              have hpath := hpaths _ _ hentry name (List.mem_append_right _ List.mem_cons_self)
              obtain ⟨e, hto, hon⟩ := hway.exists_between
              have hlast : (l ++ [name]).dropLast = l := List.dropLast_concat
              rw [← hlast] at hto
              have hfresh : l ++ [name] ∉ around := fun hmem =>
                hnew _ hmem links (Nat.lt_succ_self _) ⟨target, e, hentry, hto⟩
              obtain ⟨least, hleast, hshort, hself⟩ := exists_least_leads hentry hto
              rw [hlast] at hshort
              have hfollowed : t.resolveNames depth ((l ++ [name]) :: around) (startOf l target)
                  (namesOf target) = .ok ⟨e, false⟩ := by
                refine ihl least (by omega) hshort
                  (List.forall_mem_cons.2 ⟨hself, fun a ha fewer hfewer => ?_⟩) (by omega)
                exact hnew a ha fewer (by omega)
              rw [resolveNames_of_link hname hpath hentry hfresh hfollowed]
              exact ihn (hon.mono (Nat.le_succ _))

/-! ### Real locations -/

/-- No name on the way to a location is that of a link, and all are names of entries. -/
structure IsReal (t : Tree) (l : Location) : Prop where
  names : ∀ name ∈ l, Path.IsName name ∧ isParent name = false
  noLink : ∀ k, k <+: l → ∀ target, t.entry? k ≠ some (.link target)

theorem IsReal.isProper (h : t.IsReal l) (hname : name ∈ l) : IsProper name where
  notSame := by
    obtain ⟨hname, -⟩ := h.names name hname
    rw [isSame, List.isEmpty_eq_false_iff.2 hname.ne_nil, beq_eq_false_iff_ne.2 hname.ne_dot]
    rfl
  notParent := (h.names name hname).2

theorem IsReal.before {k : Location} (h : t.IsReal l) (hk : k <+: l) : t.IsReal k :=
  ⟨fun name hname => h.names name (hk.subset hname), fun k' hk' => h.noLink k' (hk'.trans hk)⟩

theorem IsReal.concat (h : t.IsReal l) (hname : Path.IsName name ∧ isParent name = false)
    (hentry : ∀ target, t.entry? (l ++ [name]) ≠ some (.link target)) : t.IsReal (l ++ [name]) where
  names := List.forall_mem_append.2 ⟨h.names, List.forall_mem_singleton.2 hname⟩
  noLink k hk := by
    rcases List.prefix_concat_iff.1 hk with rfl | hk
    · exact hentry
    · exact h.noLink k hk

theorem isReal_nil (t : Tree) : t.IsReal [] where
  names := nofun
  noLink k hk target := by
    rw [List.prefix_nil.1 hk]
    exact nofun

theorem IsReal.startOf (h : t.IsReal l) (path : Text) : t.IsReal (startOf l path) := by
  unfold Tree.startOf
  split
  · exact isReal_nil t
  · exact h

/-- A directory stands at a real location. -/
theorem IsSound.isReal (ht : t.IsSound) (hl : t.entry? l = some .directory) : t.IsReal l where
  names name hname :=
    have hentry := ht.isEntryName hl name hname
    ⟨hentry.isName, hentry.notParent⟩
  noLink k hk target := by
    obtain ⟨rest, rfl⟩ := hk
    by_cases hrest : rest = []
    · rw [hrest, List.append_nil] at hl
      rw [hl]
      exact nofun
    · rw [ht.directory_of_append hl hrest]
      exact nofun

/-- Without links on its way a walk ends. -/
theorem walkNames_ne_tooManyLinks {onward : Location → List Text → Except SystemCause Place}
    (hreal : t.IsReal (l ++ names)) :
    walkNames t .target onward l names ≠ .error .tooManyLinks := by
  intro h
  induction names generalizing l with
  | nil => cases h
  | cons name rest ih =>
      have hname := hreal.isProper (List.mem_append_right l List.mem_cons_self)
      rw [List.append_cons] at hreal
      have hlink := hreal.noLink (l ++ [name]) (List.prefix_append _ _)
      rw [walkNames, hname.notSame, hname.notParent, if_neg Bool.false_ne_true,
        if_neg Bool.false_ne_true] at h
      split at h
      · cases h
      split at h
      · cases h
      split at h
      · split at h <;> cases h
      · exact ih hreal h
      · split at h <;> cases h
      · next target hentry => exact hlink target hentry

theorem IsReal.isNormal (h : t.IsReal l) : l.toPath.IsNormal :=
  isNormal_toPath fun name hname => (h.names name hname).1

/-- Following the links along the path of a real location has an end. -/
theorem IsReal.isEndless (h : t.IsReal l) : t.isEndless l.toPath.toText = false := by
  have hplace : t.place .target l.toPath.toText ≠ .error .tooManyLinks := by
    unfold place
    split
    · exact nofun
    split
    · exact nofun
    rcases List.eq_nil_or_concat' l with rfl | ⟨init, last, hl⟩
    · exact nofun
    · have hname : l.toPath.name ≠ [] := Path.name_ne_nil h.isNormal (by simp [Location.toPath, hl])
      rw [namesOf_toText h.isNormal hname, startOf_toText h.isNormal,
        if_neg (by simp [Location.toPath]),
        walk]
      exact walkNames_ne_tooManyLinks (l := []) h
  unfold Tree.isEndless
  split
  · next hmany => exact absurd hmany hplace
  · rfl

/-! ### Resolving where there is a way -/

theorem startOf_root (hp : p.IsNormal) (here : Location) :
    startOf here p.root = startOf here p.toText := by
  rw [startOf_toText hp]
  rcases hp.root with h | h | h <;> rw [h] <;> rfl

theorem resolve_eq_ok_iff : t.resolve p = .ok l ↔
    ∃ circular, t.resolveNames t.depths.links [] (Tree.startOf t.here p.root) p.names =
        .ok ⟨l, circular⟩ ∧
      notAPath? l.toPath.toText = none ∧ t.isEndless l.toPath.toText = false := by
  rw [resolve, Failure.bind_eq_ok_iff]
  constructor
  · rintro ⟨⟨l', circular⟩, hnames, h⟩
    dsimp only at h
    split at h
    · cases h
    · next hpath =>
        split at h
        · cases h
        · next hendless =>
            obtain rfl := Except.ok.inj h
            exact ⟨circular, hnames, hpath, Bool.eq_false_iff.2 hendless⟩
  · rintro ⟨circular, hnames, hpath, hendless⟩
    refine ⟨_, hnames, ?_⟩
    dsimp only
    rw [hpath, hendless]
    rfl

/-- **A path that leads to a directory is resolved to where it stands.** -/
theorem resolve_of_place (ht : t.IsSound) (hp : p.IsNormal)
    (h : t.place .target p.toText = .ok (.found d)) (hd : t.entry? d = some .directory) :
    t.resolve p = .ok d := by
  refine resolve_eq_ok_iff.2 ⟨false, ?_, ?_, (ht.isReal hd).isEndless⟩
  · rw [startOf_root hp]
    exact resolveNames_of_leads (fun l e he name hname => (ht.isEntryName he name hname).isPath)
      (leads_of_place hp h hd) nofun t.depths.linkLimit_lt
  · exact (notAPath?_toText_of_root rfl).2 fun name hname => (ht.isEntryName hd name hname).isPath

/-! ### Links that lead back to themselves -/

/-- The link at a location is met again on the way to where it leads. -/
def leadsBack (t : Tree) (l : Location) (target : Text) : Bool :=
  match t.resolveNames t.entries.length [l] (Tree.startOf l.dropLast target) (namesOf target) with
  | .ok r => r.circular
  | .error _ => false

/-- No link leads back to itself. -/
def HasNoLoops (t : Tree) : Prop :=
  ∀ l target, t.entry? l = some (.link target) → t.leadsBack l target = false

theorem HasNoLoops.of_entries
    (h : t.entries.all fun e =>
      match e.2 with
      | .link target => !t.leadsBack e.1 target
      | _ => true) : t.HasNoLoops := by
  intro l target hentry
  have hl : l ≠ [] := by
    rintro rfl
    cases hentry
  rw [entry?_of_ne_nil hl] at hentry
  have hlink : (!t.leadsBack l target) = true :=
    List.all_eq_true.1 h _ (KeyedList.mem_of_get?_eq_some hentry)
  rwa [Bool.not_eq_true'] at hlink

/-- The names of what is resolved are names of entries, and if no link led back to itself, none is
left on the way there. -/
structure IsStraight (t : Tree) (r : Resolved) : Prop where
  names : ∀ name ∈ r.location, Path.IsName name ∧ isParent name = false
  isReal : r.circular = false → t.IsReal r.location

theorem IsReal.isStraight (h : t.IsReal l) : t.IsStraight ⟨l, false⟩ := ⟨h.names, fun _ => h⟩

theorem add_cases (r : Resolved) (name : Text) :
    r.add name = r ∨ r.add name = { r with location := r.location.dropLast } ∨
      IsProper name ∧ r.add name = { r with location := r.location ++ [name] } := by
  unfold Resolved.add
  split
  · exact .inl rfl
  · next hsame =>
      split
      · exact .inr (.inl rfl)
      · next hparent =>
          exact .inr (.inr ⟨⟨Bool.eq_false_iff.2 hsame, Bool.eq_false_iff.2 hparent⟩, rfl⟩)

theorem isName_of_isProper (hname : IsProper name) (hslash : Code.slash ∉ name) :
    Path.IsName name ∧ isParent name = false := by
  have hsame := hname.notSame
  rw [isSame, Bool.or_eq_false_iff, List.isEmpty_eq_false_iff, beq_eq_false_iff_ne] at hsame
  exact ⟨⟨hsame.1, hsame.2, hslash⟩, hname.notParent⟩

theorem IsStraight.names_add (h : t.IsStraight r) (hslash : Code.slash ∉ name) :
    ∀ n ∈ (r.add name).location, Path.IsName n ∧ isParent n = false := by
  rcases add_cases r name with hadd | hadd | ⟨hname, hadd⟩ <;> rw [hadd]
  · exact h.names
  · exact fun n hn => h.names n ((List.dropLast_sublist _).subset hn)
  · exact List.forall_mem_append.2
      ⟨h.names, List.forall_mem_singleton.2 (isName_of_isProper hname hslash)⟩

/-- Adding a name as it is keeps what is straight, if it is not that of a link. -/
theorem IsStraight.add (h : t.IsStraight r) (hslash : Code.slash ∉ name)
    (hentry : r.circular = false → IsProper name →
      ∀ target, t.entry? (r.add name).location ≠ some (.link target)) :
    t.IsStraight (r.add name) := by
  refine ⟨h.names_add hslash, ?_⟩
  rcases add_cases r name with hadd | hadd | ⟨hname, hadd⟩ <;> rw [hadd] at hentry ⊢
  · exact h.isReal
  · exact fun hcircular => (h.isReal hcircular).before (List.dropLast_prefix _)
  · exact fun hcircular =>
      (h.isReal hcircular).concat (isName_of_isProper hname hslash) (hentry hcircular hname)

theorem noSlash_of_mem_namesOf {path : Text} (h : name ∈ namesOf path) : Code.slash ∉ name := by
  have hpart : ∀ {n}, n ∈ (Text.splitOn Code.slash path).filter (!·.isEmpty) → Code.slash ∉ n :=
    fun hn => Text.not_mem_of_mem_splitOn (List.mem_of_mem_filter hn)
  unfold namesOf at h
  dsimp only at h
  split at h
  · rcases List.mem_append.1 h with h | h
    · exact hpart h
    · rw [List.mem_singleton.1 h]
      exact List.not_mem_nil
  · exact hpart h

/-- Steps that keep a property keep it together. -/
theorem of_foldlM_eq_ok {α β : Type} {f : β → α → Except Failure β} {motive : β → Prop}
    {xs : List α} (hstep : ∀ b b', motive b → ∀ a ∈ xs, f b a = .ok b' → motive b') {b b' : β}
    (hb : motive b) (h : xs.foldlM f b = .ok b') : motive b' := by
  induction xs generalizing b with
  | nil =>
      cases h
      exact hb
  | cons a rest ih =>
      rw [List.foldlM_cons] at h
      obtain ⟨c, hc, hrest⟩ := Failure.bind_eq_ok_iff.1 h
      exact ih (fun b b' hb a ha => hstep b b' hb a (List.mem_cons_of_mem _ ha))
        (hstep b c hb a List.mem_cons_self hc) hrest

theorem circular_add (r : Resolved) (name : Text) : (r.add name).circular = r.circular := by
  rcases add_cases r name with h | h | ⟨-, h⟩ <;> rw [h]

/-- What names are resolved to is straight. -/
theorem isStraight_of_resolveNames (hl : t.IsReal l) (hslash : ∀ name ∈ names, Code.slash ∉ name)
    (h : t.resolveNames depth around l names = .ok r) : t.IsStraight r := by
  induction depth generalizing around l names r with
  | zero => cases h
  | succ depth ih =>
      refine of_foldlM_eq_ok (fun r r' hr name hname hstep => ?_) hl.isStraight h
      have hslash := hslash name hname
      split at hstep
      · next hasIs =>
          obtain rfl := Except.ok.inj hstep
          refine hr.add hslash fun hcircular hproper => ?_
          rw [hcircular, hproper.notSame, hproper.notParent] at hasIs
          cases hasIs
      · next hproper =>
          rw [Bool.or_eq_true, Bool.or_eq_true, not_or, not_or, Bool.not_eq_true] at hproper
          obtain ⟨⟨hcircular, -⟩, -⟩ := hproper
          split at hstep
          · cases hstep
          dsimp only at hstep
          split at hstep
          · split at hstep
            · obtain rfl := Except.ok.inj hstep
              exact ⟨hr.names_add hslash, nofun⟩
            · exact ih ((hr.isReal hcircular).startOf _) (fun n hn =>
                noSlash_of_mem_namesOf hn) hstep
          · next hlink =>
              obtain rfl := Except.ok.inj hstep
              exact hr.add hslash fun _ _ => hlink

/-- Where no link leads back to itself, none is met that is followed already. -/
theorem HasNoLoops.circular_eq_false (h : t.HasNoLoops)
    (hnames : t.resolveNames depth [] l names = .ok r) : r.circular = false := by
  obtain ⟨depth, rfl⟩ := Nat.exists_eq_succ_of_ne_zero (n := depth) (by rintro rfl; cases hnames)
  refine of_foldlM_eq_ok (motive := fun r => r.circular = false)
    (fun r r' hr name _ hstep => ?_) rfl hnames
  split at hstep
  · rw [← Except.ok.inj hstep, circular_add, hr]
  · next hproper =>
      rw [Bool.or_eq_true, Bool.or_eq_true, not_or, not_or, Bool.not_eq_true] at hproper
      obtain ⟨⟨-, hsame⟩, hparent⟩ := hproper
      have hadd : (r.add name).location = r.location ++ [name] := by
        rw [Resolved.add, if_neg hsame, if_neg hparent]
      split at hstep
      · cases hstep
      dsimp only at hstep
      rw [hadd] at hstep
      split at hstep
      · next target hentry =>
          rw [if_neg List.not_mem_nil] at hstep
          have hall := resolveNames_of_length (List.nodup_singleton _)
            (List.forall_mem_singleton.2 ⟨target, hentry⟩) t.entries.length (Nat.lt_succ_self _)
            hstep
          have hback := h _ target hentry
          rwa [leadsBack, List.dropLast_concat, hall] at hback
      · rw [← Except.ok.inj hstep, circular_add, hr]

/-- Where names cannot be resolved, one of them is none in the file system, or too many links lead
to links. -/
theorem notAPath?_of_resolveNames {failure : Failure}
    (h : t.resolveNames depth around l names = .error failure) :
    failure = .nestedTooDeep ∨ ∃ text, notAPath? text = some failure := by
  induction depth generalizing around l names with
  | zero => exact .inl (Except.error.inj h).symm
  | succ depth ih =>
      rw [Tree.resolveNames] at h
      generalize (⟨l, false⟩ : Resolved) = r at h
      induction names generalizing r with
      | nil => cases h
      | cons name rest ihn =>
          rw [List.foldlM_cons, Failure.bind_eq_error_iff] at h
          rcases h with h | ⟨r', -, h⟩
          · split at h
            · cases h
            · split at h
              · next failure' hpath =>
                  obtain rfl := Except.error.inj h
                  exact .inr ⟨name, hpath⟩
              · dsimp only at h
                split at h
                · split at h
                  · cases h
                  · exact ih h
                · cases h
          · exact ihn r' h

/-- **Where no link leads back to itself, only names that are none in the file system keep a path
from being resolved,** unless too many links lead to links. -/
theorem HasNoLoops.notAPath?_of_resolve (h : t.HasNoLoops) (ht : t.IsSound) (hp : p.IsNormal)
    {failure : Failure} (hresolve : t.resolve p = .error failure) :
    failure = .nestedTooDeep ∨ ∃ text, notAPath? text = some failure := by
  rw [resolve, Failure.bind_eq_error_iff] at hresolve
  rcases hresolve with hnames | ⟨r, hnames, hrest⟩
  · exact notAPath?_of_resolveNames hnames
  · have hstraight := isStraight_of_resolveNames ((ht.isReal ht.here).startOf p.root)
      (fun name hname => (hp.names name hname).noSlash) hnames
    have hreal := hstraight.isReal (h.circular_eq_false hnames)
    dsimp only at hrest
    split at hrest
    · next failure' hpath =>
        obtain rfl := Except.error.inj hrest
        exact .inr ⟨_, hpath⟩
    · rw [hreal.isEndless] at hrest
      cases hrest

theorem HasNoLoops.resolve_ne_linkCircle (h : t.HasNoLoops) (ht : t.IsSound) (hp : p.IsNormal) :
    t.resolve p ≠ .error .linkCircle := by
  intro hresolve
  rcases h.notAPath?_of_resolve ht hp hresolve with hdeep | ⟨text, htext⟩
  · cases hdeep
  · unfold notAPath? at htext
    split at htext
    · cases htext
    · split at htext <;> cases htext

/-- A path is resolved to names of entries. -/
theorem isNormal_of_resolve (ht : t.IsSound) (hp : p.IsNormal) (h : t.resolve p = .ok l) :
    l.toPath.IsNormal := by
  obtain ⟨circular, hnames, -⟩ := resolve_eq_ok_iff.1 h
  have hstraight := isStraight_of_resolveNames ((ht.isReal ht.here).startOf p.root)
    (fun name hname => (hp.names name hname).noSlash) hnames
  exact isNormal_toPath fun name hname => (hstraight.names name hname).1

end BundleAudit.Tree
