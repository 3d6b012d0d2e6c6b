import BundleAudit.Proofs.Baseline
import BundleAudit.Proofs.Command.Session
import BundleAudit.Proofs.Files.Opening
import BundleAudit.Proofs.Files.Sound
import BundleAudit.Proofs.Scan.Wording

/-!
# BundleAudit.Proofs.Command.Check

**How a check ends** follows from its baseline, the modules that are found, and the
findings about them, if the summary of its modules can be drawn (`verdict`). What else is
shown and what is written on the way has no part in it, as long as results can be written
where they are to go (`checkEnds_run`).
-/

namespace BundleAudit

/-- A file that can be opened can be written, and the others can be opened afterwards. -/
theorem Tree.exists_writeInPlace {t : Tree} {path : Text} {rest texts : List Text}
    (h : t.takesFiles (path :: rest) = true)
    (htexts : ∀ text ∈ texts, text.all Code.isScalar = true) :
    ∃ t', t.writeInPlace path texts = (t', none) ∧ t'.takesFiles rest = true := by
  obtain ⟨t', l, hopen, hrest⟩ := exists_openEmpty h
  obtain ⟨bytes, hwrite, -⟩ := Tree.areWrittenAs_flatten htexts t t' path l hopen
  exact ⟨_, hwrite, hrest bytes⟩

namespace Command

variable {e : Environment} {a a' : CheckArguments} {t t' : Tree} {lines : Option (List Text)}
  {modules : List RepositoryModule} {log : Log} {rs : Reports}

theorem Yields.of_get {β : Type} {f : Session → Run β} {result : Except Failure β}
    (h : ∀ console, Yields (f ⟨t, console⟩) t result t') : Yields (get >>= f) t result t' :=
  fun console => h console console

/-! ### Writing results -/

theorem yields_change_of_eq {f : Tree → Tree × Option Failure} (h : f t = (t', none)) :
    Yields (change f) t (.ok ()) t' := by
  refine Yields.of_get fun console => ?_
  dsimp only
  rw [h]
  exact fun _ => ⟨console, rfl⟩

/-- The files that results are written to in a directory. -/
def resultFiles (directory : Path) : List Text :=
  ["findings.jsonl", "summary.json", "run_metadata.json"].map fun name : String =>
    (directory.child name).toText

/-- The directory for the results of a check, if it is given one, can be made where it is not there,
and files can be written in it. -/
def TakesResults (e : Environment) (a : CheckArguments) (t : Tree) : Prop :=
  ∀ argument, a.jsonOut = some argument → argument ≠ [] →
    ∃ directory t', e.expand (Path.ofText argument) = .ok directory ∧
      t.makeDirectories directory = (t', none) ∧ t'.takesFiles (resultFiles directory) = true

/-- Results can be written if no text in them holds a surrogate. What is not a finding is escaped.
-/
theorem exists_yields_writeResults {argument : Text} {directory : Path} {root : Location}
    (hroot : a.scan.rootIn e t = .ok root)
    (hdirectory : e.expand (Path.ofText argument) = .ok directory)
    (hmade : t.makeDirectories directory = (t', none))
    (hfiles : t'.takesFiles (resultFiles directory) = true) (hrs : ∀ r ∈ rs, r.isScalar = true)
    (modules : List RepositoryModule) :
    ∃ t'', Yields (writeResults e a.scan modules rs argument) t (.ok ()) t'' := by
  obtain ⟨t₁, hfindings, hfiles⟩ :=
    Tree.exists_writeInPlace hfiles (Reports.isScalar_of_mem_records hrs)
  obtain ⟨t₂, hsummary, hfiles⟩ := Tree.exists_writeInPlace hfiles
    (List.forall_mem_singleton.2 (Json.isScalar_write (l := .block) (v := rs.summary) (.inl rfl)))
  obtain ⟨t₃, hmetadata, -⟩ := Tree.exists_writeInPlace hfiles
    (List.forall_mem_singleton.2 (Json.isScalar_write (l := .block)
      (v := metadata e a.scan root modules) (.inl rfl)))
  refine ⟨t₃, .bind (yields_tree t) ?_⟩
  rw [hroot]
  exact .bind (yields_pathOf hdirectory t) <| .bind (yields_change_of_eq hmade) <|
    .bind (yields_change_of_eq hfindings) <| .bind (yields_change_of_eq hsummary) <|
      .bind (yields_change_of_eq hmetadata) (yields_say _ t₃)

/-! ### The baseline -/

/-- The lines of the baseline of a check; none if it is given none. -/
def baselineLines (e : Environment) (a : CheckArguments) (t : Tree) :
    Except Failure (Option (List Text)) :=
  match a.baseline with
  | none | some [] => .ok none
  | some argument =>
    (e.expand (Path.ofText argument)).bind fun path => (t.readLines path.toText).map some

theorem expand_eq_error {path : Path} {failure : Failure} (h : e.expand path = .error failure) :
    failure = .noHome := by
  unfold Environment.expand at h
  split at h
  · split at h
    · cases h
    · exact (Except.error.inj h).symm
  · cases h

/-- A baseline is read, or reported if the file system refuses to open it. Any other failure ends
the program. -/
theorem yields_readBaseline {c : Code} {rest : Text} (h : a.baseline = some (c :: rest)) :
    (∃ failure, baselineLines e a t = .error failure ∧ failure.IsSystem ∧
      Yields (readBaseline e (c :: rest)) t (.ok none) t) ∨
    (∃ failure, baselineLines e a t = .error failure ∧ ¬failure.IsSystem ∧
      Yields (readBaseline e (c :: rest)) t (.error failure) t) ∨
    ∃ file ls, baselineLines e a t = .ok (some ls) ∧
      Yields (readBaseline e (c :: rest)) t (.ok (some (Baseline.ofLines file ls).1)) t := by
  have hlines : baselineLines e a t = (e.expand (Path.ofText (c :: rest))).bind fun path =>
      (t.readLines path.toText).map some := by
    rw [baselineLines, h]
  rw [hlines]
  cases hpath : e.expand (Path.ofText (c :: rest)) with
  | error failure =>
      have hpathOf : Yields (pathOf e (c :: rest)) t (.error failure) t := by
        rw [pathOf, hpath]
        exact .throw failure t
      obtain rfl := expand_eq_error hpath
      have hsystem : ¬Failure.noHome.IsSystem := by
        rintro ⟨_, _, _, h⟩
        cases h
      exact .inr (.inl ⟨_, rfl, hsystem, .bind_error hpathOf⟩)
  | ok path =>
      have hstart := fun {result : Except Failure (Option Baseline)} (h : Yields _ t result t) =>
        show Yields (readBaseline e (c :: rest)) t result t from
          .bind (yields_pathOf hpath t) (.bind (yields_tree t) h)
      cases hread : t.readLines path.toText with
      | ok ls =>
          refine .inr (.inr ⟨path.toText, ls, by rw [Except.bind, hread]; rfl, hstart ?_⟩)
          rw [hread]
          exact .bind (yields_sayAll _ t) (.pure _ t)
      | error failure =>
          by_cases hsystem : failure.IsSystem
          · refine .inl ⟨failure, by rw [Except.bind, hread]; rfl, hsystem, hstart ?_⟩
            obtain ⟨cause, at_, target, rfl⟩ := hsystem
            rw [hread]
            exact .bind (yields_say _ t) (.pure _ t)
          · refine .inr (.inl ⟨failure, by rw [Except.bind, hread]; rfl, hsystem, hstart ?_⟩)
            rw [hread]
            cases failure <;> first
              | exact .throw _ t
              | exact absurd (Failure.isSystem_system ..) hsystem

/-! ### The verdict -/

/-- The number of findings in the report on a module. -/
def problemsOf (s : Settings) (t : Tree) (m : RepositoryModule) : Nat :=
  (Scan.reportOn m (ModuleScan.ofModule s t m)).problems

/-- Some module has more problems than the lines of a baseline allow it. -/
def exceeds (s : Settings) (t : Tree) (modules : List RepositoryModule) (ls : List Text) : Bool :=
  modules.any fun m => Baseline.numberIn ls m.identity < (problemsOf s t m : Int)

/-- Some module has a problem. -/
def hasProblems (s : Settings) (t : Tree) (modules : List RepositoryModule) : Bool :=
  modules.any fun m => problemsOf s t m ≠ 0

/-- The rows of the summary of a check of modules, one for each. -/
def summaryRows (s : Settings) (t : Tree) (modules : List RepositoryModule) : List (List Text) :=
  (Scan.ofModules s t modules).reports.ordered.map summaryRow

/-- How a check of modules ends with the lines of a baseline. -/
def judge (e : Environment) (a : CheckArguments) (t : Tree) (lines : Option (List Text))
    (modules : List RepositoryModule) : Except Failure Nat :=
  match e.undrawn? (summaryRows a.scan.settings t modules) with
  | some failure => .error failure
  | none =>
    .ok (if lines.any (exceeds a.scan.settings t modules) ||
      a.failOnProblems && hasProblems a.scan.settings t modules then 1 else 0)

/-- How a check ends. -/
def verdict (e : Environment) (a : CheckArguments) (t : Tree) : Except Failure Nat :=
  match baselineLines e a t with
  | .error (.system _ _ _) => .ok 2
  | .error failure => .error failure
  | .ok lines =>
    (found e a.scan t).bind fun
      | (none, _) => .ok 2
      | (some modules, _) => judge e a t lines modules

theorem verdict_of_refused {failure : Failure} (h : baselineLines e a t = .error failure)
    (hsystem : failure.IsSystem) : verdict e a t = .ok 2 := by
  obtain ⟨cause, at_, target, rfl⟩ := hsystem
  rw [verdict, h]

theorem verdict_of_error {failure : Failure} (h : baselineLines e a t = .error failure)
    (hsystem : ¬failure.IsSystem) : verdict e a t = .error failure := by
  rw [verdict, h]
  cases failure <;> first
    | rfl
    | exact absurd (Failure.isSystem_system ..) hsystem

/-- Modules that are found have their reports, each under its own name. -/
theorem reports_of_found (h : found e a.scan t = .ok (some modules, log)) :
    (Scan.ofModules a.scan.settings t modules).reports =
      modules.map fun m => Scan.reportOn m (ModuleScan.ofModule a.scan.settings t m) := by
  obtain ⟨root, log', -, -, hdiscover, -⟩ := of_found_eq_some h
  have hnodup : (modules.map (·.identity)).Nodup :=
    (RepositoryModule.of_discover_eq_ok hdiscover).1.imp fun hlt => Text.ne_of_lt hlt
  exact Scan.reports_collect (fun m y hy => (ModuleScan.name_ofModule hy).2) hnodup

theorem isScalar_settings (a : ScanArguments) : a.settings.IsScalar where
  formSuffix := show Settings.standard.formSuffix.all Code.isScalar = true by decide
  mandatoryModuleKeys :=
    show ∀ key ∈ Settings.standard.mandatoryModuleKeys, key.all Code.isScalar = true by decide

/-- What is found in modules of a directory tree can be written. -/
theorem isScalar_reports_of_found (ht : t.IsSound)
    (h : found e a.scan t = .ok (some modules, log)) :
    ∀ r ∈ (Scan.ofModules a.scan.settings t modules).reports, r.isScalar = true := by
  obtain ⟨root, log', -, -, hdiscover, -⟩ := of_found_eq_some h
  rw [reports_of_found h]
  refine List.forall_mem_map.2 fun m hm => ?_
  have hfound := (RepositoryModule.of_discover_eq_ok hdiscover).2 m hm
  exact Scan.isScalar_reportOn (isScalar_settings a.scan) ht hfound.isScalar hfound.files_eq_nil

theorem name_reportOn (s : Settings) (t : Tree) (m : RepositoryModule) :
    (Scan.reportOn m (ModuleScan.ofModule s t m)).name = m.identity :=
  Scan.ReportsByIdentity.name_reportOn (fun _ _ hy => (ModuleScan.name_ofModule hy).2) m

theorem isEmpty_excesses (h : found e a.scan t = .ok (some modules, log)) (file : Text)
    (ls : List Text) :
    ((Baseline.ofLines file ls).1.excesses
      (Scan.ofModules a.scan.settings t modules).reports).isEmpty =
      !exceeds a.scan.settings t modules ls := by
  rw [Bool.eq_iff_iff, List.isEmpty_iff, Baseline.excesses_eq_nil_iff, reports_of_found h,
    List.forall_mem_map, exceeds, Bool.not_eq_true', List.any_eq_false]
  refine forall₂_congr fun m _ => ?_
  rw [name_reportOn, Baseline.allowed_ofLines, decide_eq_true_iff, Int.not_lt]
  rfl

theorem decide_total_ne_zero (h : found e a.scan t = .ok (some modules, log)) :
    decide ((Scan.ofModules a.scan.settings t modules).reports.total ≠ 0) =
      hasProblems a.scan.settings t modules := by
  rw [Bool.eq_iff_iff, decide_eq_true_iff, reports_of_found h, Reports.total,
    Reports.foldl_add_eq_sum, Ne, List.sum_eq_zero_iff_forall_eq_nat, List.forall_mem_map,
    List.forall_mem_map]
  simp only [hasProblems, List.any_eq_true, decide_eq_true_iff, not_forall, exists_prop]
  rfl

/-! ### The command -/

theorem yields_checkBaseline (baseline : Option Baseline) (rs : Reports) (t : Tree) :
    Yields (checkBaseline baseline rs) t
      (.ok (baseline.all fun b => (b.excesses rs).isEmpty)) t := by
  cases baseline with
  | none => exact .pure true t
  | some b =>
      refine .bind (yields_sayAll _ t) ?_
      rw [Option.all_some]
      cases hexcesses : (b.excesses rs).isEmpty with
      | false => exact .pure _ t
      | true => exact .bind (yields_say _ t) (.pure _ t)

theorem yields_concludeCheck (rs : Reports) (t : Tree) :
    Yields (concludeCheck rs) t (.ok 0) t := by
  refine Yields.of_get fun console => ?_
  have hdone : Yields (do
      say (.done ("Found " ++ Text.ofNat rs.total ++ " potential problems in " ++
        Text.ofNat rs.length ++ " modules."))
      return 0) t (.ok 0) t := .bind (yields_say _ t) (.pure 0 t)
  dsimp only
  split
  · exact .bind (yields_say _ t) hdone
  · exact hdone

/-- A summary that cannot be drawn ends the command, before any results are written. -/
theorem yields_checkModules_undrawn {failure : Failure}
    (h : found e a.scan t = .ok (some modules, log))
    (hundrawn : e.undrawn? (summaryRows a.scan.settings t modules) = some failure)
    (baseline : Option Baseline) : Yields (checkModules e a baseline) t (.error failure) t :=
  .bind (yields_findModules h) <| .bind (yields_scanModules e a.scan modules t) <|
    .bind (yields_display _ t) (.bind_error (yields_showTable_error hundrawn _ _ t))

/-- Modules are judged after the results are written. -/
theorem exists_yields_checkModules (hout : TakesResults e a t)
    (h : found e a.scan t = .ok (some modules, log))
    (hdrawn : e.undrawn? (summaryRows a.scan.settings t modules) = none)
    (hscalar : ∀ r ∈ (Scan.ofModules a.scan.settings t modules).reports, r.isScalar = true)
    (file : Text) (lines : Option (List Text)) :
    ∃ t', Yields (checkModules e a (lines.map fun ls => (Baseline.ofLines file ls).1)) t
      (.ok (if lines.any (exceeds a.scan.settings t modules) ||
        a.failOnProblems && hasProblems a.scan.settings t modules then 1 else 0)) t' := by
  obtain ⟨root, -, hroot, -⟩ := of_found_eq_some h
  have htotal := decide_total_ne_zero h
  have hexcesses : ((lines.map fun ls => (Baseline.ofLines file ls).1).all fun b =>
      (b.excesses (Scan.ofModules a.scan.settings t modules).reports).isEmpty) =
        !lines.any (exceeds a.scan.settings t modules) := by
    cases lines with
    | none => rfl
    | some ls => exact isEmpty_excesses h file ls
  have hstart := fun {result : Except Failure Nat} {t' : Tree} (hnext : Yields _ t result t') =>
    show Yields (checkModules e a (lines.map fun ls => (Baseline.ofLines file ls).1)) t
      result t' from
      .bind (yields_findModules h) <| .bind (yields_scanModules e a.scan modules t) <|
        .bind (yields_display _ t) <| .bind (yields_showTable hdrawn _ _ t) hnext
  generalize (Scan.ofModules a.scan.settings t modules).reports =
    rs at hscalar htotal hexcesses hstart
  have hjudged : ∀ t', Yields (do
      if !(← checkBaseline (lines.map fun ls => (Baseline.ofLines file ls).1) rs) then return 1
      else if a.failOnProblems && rs.total ≠ 0 then return 1
      else concludeCheck rs) t' (.ok (if lines.any (exceeds a.scan.settings t modules) ||
        a.failOnProblems && hasProblems a.scan.settings t modules then 1 else 0)) t' := by
    intro t'
    refine .bind (yields_checkBaseline _ rs t') ?_
    rw [hexcesses, Bool.not_not, htotal]
    cases lines.any (exceeds a.scan.settings t modules) with
    | true => exact .pure 1 t'
    | false =>
        rw [Bool.false_or]
        cases a.failOnProblems && hasProblems a.scan.settings t modules with
        | true => exact .pure 1 t'
        | false => exact yields_concludeCheck rs t'
  cases hjson : a.jsonOut with
  | none =>
      refine ⟨t, hstart ?_⟩
      rw [hjson]
      exact hjudged t
  | some argument =>
      cases argument with
      | nil =>
          refine ⟨t, hstart ?_⟩
          rw [hjson]
          exact hjudged t
      | cons c rest =>
          obtain ⟨directory, t₁, hdirectory, hmade, hfiles⟩ :=
            hout (c :: rest) hjson (List.cons_ne_nil _ _)
          obtain ⟨t', hresults⟩ :=
            exists_yields_writeResults hroot hdirectory hmade hfiles hscalar modules
          refine ⟨t', hstart ?_⟩
          rw [hjson]
          exact .bind hresults (hjudged t')

/-- The part of a check after its baseline was read. -/
theorem exists_yields_judged (hout : TakesResults e a t)
    (hscalar : ∀ modules log, found e a.scan t = .ok (some modules, log) →
      ∀ r ∈ (Scan.ofModules a.scan.settings t modules).reports, r.isScalar = true)
    (file : Text) (hlines : baselineLines e a t = .ok lines) :
    ∃ t', Yields (checkModules e a (lines.map fun ls => (Baseline.ofLines file ls).1)) t
      (verdict e a t) t' := by
  rw [verdict, hlines]
  cases h : found e a.scan t with
  | error failure => exact ⟨t, .bind_error (yields_findModules_error h)⟩
  | ok p =>
      obtain ⟨modules, log⟩ := p
      cases modules with
      | none => exact ⟨t, .bind (yields_findModules h) (.pure 2 t)⟩
      | some modules =>
          show ∃ t', Yields _ t (judge e a t lines modules) t'
          rw [judge]
          cases hdrawn : e.undrawn? (summaryRows a.scan.settings t modules) with
          | some failure => exact ⟨t, yields_checkModules_undrawn h hdrawn _⟩
          | none =>
              exact exists_yields_checkModules hout h hdrawn (hscalar modules log h) file lines

/-- **A check ends as its verdict says,** as long as its results can be written. -/
theorem exists_yields_check (hout : TakesResults e a t)
    (hscalar : ∀ modules log, found e a.scan t = .ok (some modules, log) →
      ∀ r ∈ (Scan.ofModules a.scan.settings t modules).reports, r.isScalar = true) :
    ∃ t', Yields (check e a) t (verdict e a t) t' := by
  have hwithout : a.baseline = none ∨ a.baseline = some [] →
      ∃ t', Yields (check e a) t (verdict e a t) t' := by
    intro hbaseline
    have hlines : baselineLines e a t = .ok none := by
      rcases hbaseline with h | h <;> rw [baselineLines, h]
    have hcheck : check e a = checkModules e a none := by
      rcases hbaseline with h | h <;> rw [check, h]
    have hjudged := exists_yields_judged hout hscalar [] hlines
    rw [hcheck]
    exact hjudged
  cases hbaseline : a.baseline with
  | none => exact hwithout (.inl hbaseline)
  | some argument =>
      cases argument with
      | nil => exact hwithout (.inr hbaseline)
      | cons c rest =>
          rw [check, hbaseline]
          rcases yields_readBaseline hbaseline with ⟨failure, hlines, hsystem, hread⟩ |
            ⟨failure, hlines, hsystem, hread⟩ | ⟨file, ls, hlines, hread⟩
          · rw [verdict_of_refused hlines hsystem]
            exact ⟨t, .bind hread (.pure 2 t)⟩
          · rw [verdict_of_error hlines hsystem]
            exact ⟨t, .bind_error hread⟩
          · obtain ⟨t', hjudged⟩ := exists_yields_judged hout hscalar file hlines
            exact ⟨t', .bind hread hjudged⟩

/-! ### How a check ends -/

/-- The file system refuses to open the baseline of a check. -/
def BaselineRefused (e : Environment) (a : CheckArguments) (t : Tree) : Prop :=
  ∃ failure, baselineLines e a t = .error failure ∧ failure.IsSystem

/-- The root of a repository is no directory. -/
def RootMissing (e : Environment) (a : ScanArguments) (t : Tree) : Prop :=
  ∃ root, a.rootIn e t = .ok root ∧ t.isDirectory root.toPath.toText = .ok false

/-- The root of a repository is a directory, and these are the modules discovered in it. -/
def Discovers (e : Environment) (a : ScanArguments) (t : Tree) (modules : List RepositoryModule) :
    Prop :=
  ∃ root log, a.rootIn e t = .ok root ∧ t.isDirectory root.toPath.toText = .ok true ∧
    RepositoryModule.discover t root.toPath (splitDirectories a.topDirectories) a.moduleFilter =
      .ok (modules, log)

theorem Discovers.unique {b : ScanArguments} {modules' : List RepositoryModule}
    (h : Discovers e b t modules) (h' : Discovers e b t modules') : modules = modules' := by
  obtain ⟨root, log, hroot, -, hdiscover⟩ := h
  obtain ⟨root', log', hroot', -, hdiscover'⟩ := h'
  obtain rfl := Except.ok.inj (hroot.symm.trans hroot')
  exact (Prod.mk.inj (Except.ok.inj (hdiscover.symm.trans hdiscover'))).1

theorem Discovers.not_rootMissing {b : ScanArguments} (h : Discovers e b t modules) :
    ¬RootMissing e b t := by
  obtain ⟨root, log, hroot, hdirectory, -⟩ := h
  rintro ⟨root', hroot', hmissing⟩
  obtain rfl := Except.ok.inj (hroot.symm.trans hroot')
  cases hdirectory.symm.trans hmissing

theorem found_of_rootMissing {b : ScanArguments} (h : RootMissing e b t) :
    ∃ log, found e b t = .ok (none, log) := by
  obtain ⟨root, hroot, hdirectory⟩ := h
  refine ⟨[.error ("Root folder not found: " ++ root.toPath.toText)], ?_⟩
  rw [found, hroot, Except.bind, modulesIn, hdirectory]
  rfl

theorem found_of_discovers {b : ScanArguments} (h : Discovers e b t modules) :
    ∃ log, found e b t = .ok (if modules.isEmpty then none else some modules, log) := by
  obtain ⟨root, log, hroot, hdirectory, hdiscover⟩ := h
  have hfound : found e b t = if modules.isEmpty then
      .ok (none, log ++ [.error ("No modules found under " ++ root.toPath.toText)])
      else .ok (some modules, log ++ [.info ("Modules: " ++ Text.ofNat modules.length)]) := by
    rw [found, hroot, Except.bind, modulesIn, hdirectory]
    simp only [bind, Except.bind, if_true, hdiscover]
    rfl
  rw [hfound]
  split
  · exact ⟨_, rfl⟩
  · exact ⟨_, rfl⟩

/-- Where a command finds nothing, the root is no directory, or there are no modules in it. -/
theorem of_found_eq_none {b : ScanArguments} (h : found e b t = .ok (none, log)) :
    RootMissing e b t ∨ Discovers e b t [] := by
  obtain ⟨root, hroot, h⟩ := Failure.bind_eq_ok_iff.1 h
  obtain ⟨isDirectory, hdirectory, h⟩ := Failure.bind_eq_ok_iff.1 h
  cases isDirectory with
  | false => exact .inl ⟨root, hroot, hdirectory⟩
  | true =>
      obtain ⟨⟨modules, log'⟩, hdiscover, h⟩ := Failure.bind_eq_ok_iff.1 h
      dsimp only at h
      split at h
      · next hnil =>
          rw [List.isEmpty_iff.1 hnil] at hdiscover
          exact .inr ⟨root, log', hroot, hdirectory, hdiscover⟩
      · cases h

/-- What a check is told that counts for its verdict. -/
def CheckArguments.judged (a : CheckArguments) : CheckArguments :=
  { a with
    scan := { a.scan with threads := 0, verbose := false }
    summaryOnly := false
    jsonOut := none }

theorem verdict_judged (e : Environment) (a : CheckArguments) (t : Tree) :
    verdict e a.judged t = verdict e a t := rfl

/-- The three ways in which a check ends: with a failure before there are modules, with nothing to
check, or with a judgement about modules. -/
theorem verdict_cases (e : Environment) (a : CheckArguments) (t : Tree) :
    (∃ failure, verdict e a t = .error failure ∧ ¬BaselineRefused e a t ∧
      ((∀ lines, baselineLines e a t ≠ .ok lines) ∨
        ¬RootMissing e a.scan t ∧ ∀ modules, ¬Discovers e a.scan t modules)) ∨
    (verdict e a t = .ok 2 ∧ (BaselineRefused e a t ∨
      (∃ lines, baselineLines e a t = .ok lines) ∧
        (RootMissing e a.scan t ∨ Discovers e a.scan t []))) ∨
    ∃ lines modules, baselineLines e a t = .ok lines ∧ Discovers e a.scan t modules ∧
      modules ≠ [] ∧ verdict e a t = judge e a t lines modules := by
  cases hlines : baselineLines e a t with
  | error failure =>
      by_cases hsystem : failure.IsSystem
      · exact .inr (.inl ⟨verdict_of_refused hlines hsystem, .inl ⟨failure, hlines, hsystem⟩⟩)
      · refine .inl ⟨failure, verdict_of_error hlines hsystem, ?_, .inl nofun⟩
        rintro ⟨failure', h, hsystem'⟩
        exact hsystem (Except.error.inj (hlines.symm.trans h) ▸ hsystem')
  | ok lines =>
      cases hfound : found e a.scan t with
      | error failure =>
          refine .inl ⟨failure, ?_, ?_, .inr ⟨fun h => ?_, fun modules h => ?_⟩⟩
          · rw [verdict, hlines, hfound]
            rfl
          · rintro ⟨failure', h, -⟩
            cases hlines.symm.trans h
          · obtain ⟨log, h⟩ := found_of_rootMissing h
            cases hfound.symm.trans h
          · obtain ⟨log, h⟩ := found_of_discovers h
            cases hfound.symm.trans h
      | ok p =>
          obtain ⟨_ | modules, log⟩ := p
          · refine .inr (.inl ⟨?_, .inr ⟨⟨lines, rfl⟩, of_found_eq_none hfound⟩⟩)
            rw [verdict, hlines, hfound]
            rfl
          · obtain ⟨root, log', hroot, hdirectory, hdiscover, hne⟩ := of_found_eq_some hfound
            refine .inr (.inr ⟨lines, modules, rfl, ⟨root, log', hroot, hdirectory, hdiscover⟩,
              hne, ?_⟩)
            rw [verdict, hlines, hfound]
            rfl

/-- How a check ends. -/
structure CheckEnds (e : Environment) (a : CheckArguments) (t : Tree)
    (exit : Except Failure Nat) : Prop where
  /-- There is an exit code unless the baseline cannot be read for another reason than that the file
  system refuses it, or the root cannot be looked at, or the search for modules in it fails, or the
  summary of the modules cannot be drawn. -/
  hasExitCode : (∃ n, exit = .ok n) ↔ BaselineRefused e a t ∨
    (∃ lines, baselineLines e a t = .ok lines) ∧
      (RootMissing e a.scan t ∨ ∃ modules, Discovers e a.scan t modules ∧
        (modules ≠ [] → e.undrawn? (summaryRows a.scan.settings t modules) = none))
  /-- It is 2 if the baseline cannot be opened, the root is no directory, or there is no module, -/
  isTwo : (∃ n, exit = .ok n) →
    (exit = .ok 2 ↔ BaselineRefused e a t ∨ RootMissing e a.scan t ∨ Discovers e a.scan t [])
  /-- and else 1 if a module has more problems than a baseline allows, or any if that is to count,
  -/
  isOne : (∃ n, exit = .ok n) → ∀ lines modules, baselineLines e a t = .ok lines →
    Discovers e a.scan t modules → modules ≠ [] → (exit = .ok 1 ↔
      (∃ ls, lines = some ls ∧ ∃ m ∈ modules,
        Baseline.numberIn ls m.identity < (problemsOf a.scan.settings t m : Int)) ∨
      a.failOnProblems = true ∧ ∃ m ∈ modules, problemsOf a.scan.settings t m ≠ 0)
  /-- and else 0. -/
  isZero : (∃ n, exit = .ok n) → exit ≠ .ok 2 → exit ≠ .ok 1 → exit = .ok 0
  /-- A summary that cannot be drawn ends the program with its failure. -/
  undrawn : ∀ lines modules failure, baselineLines e a t = .ok lines →
    Discovers e a.scan t modules → modules ≠ [] →
      e.undrawn? (summaryRows a.scan.settings t modules) = some failure → exit = .error failure

/-- Without modules there is an exit code only if there is nothing to check. -/
theorem checkEnds_of_error {failure : Failure} (hrefused : ¬BaselineRefused e a t)
    (hnone : (∀ lines, baselineLines e a t ≠ .ok lines) ∨
      ¬RootMissing e a.scan t ∧ ∀ modules, ¬Discovers e a.scan t modules) :
    CheckEnds e a t (.error failure) := by
  have hcode : ¬∃ n, Except.error (α := Nat) failure = .ok n := by simp
  have hnothing : ∀ lines modules, baselineLines e a t = .ok lines →
      ¬Discovers e a.scan t modules := by
    intro lines modules hlines hmodules
    rcases hnone with hnone | ⟨-, hnone⟩
    · exact hnone lines hlines
    · exact hnone modules hmodules
  refine ⟨iff_of_false hcode ?_, fun h => absurd h hcode, fun h => absurd h hcode,
    fun h => absurd h hcode,
    fun lines modules _ hlines hmodules => absurd hmodules (hnothing lines modules hlines)⟩
  intro h
  rcases h with h | ⟨⟨lines, hlines⟩, hmissing | ⟨modules, hmodules, -⟩⟩
  · exact hrefused h
  · rcases hnone with hnone | ⟨hroot, -⟩
    · exact hnone lines hlines
    · exact hroot hmissing
  · exact hnothing lines modules hlines hmodules

/-- There is nothing to check without modules. -/
theorem checkEnds_two (hnothing : BaselineRefused e a t ∨
    (∃ lines, baselineLines e a t = .ok lines) ∧
      (RootMissing e a.scan t ∨ Discovers e a.scan t [])) : CheckEnds e a t (.ok 2) := by
  have hnone : ∀ lines modules, baselineLines e a t = .ok lines → Discovers e a.scan t modules →
      modules = [] := by
    intro lines modules hlines hmodules
    rcases hnothing with ⟨failure, h, -⟩ | ⟨-, h | h⟩
    · cases hlines.symm.trans h
    · exact absurd h hmodules.not_rootMissing
    · exact hmodules.unique h
  refine ⟨iff_of_true ⟨2, rfl⟩ ?_, fun _ => iff_of_true rfl (hnothing.imp_right And.right),
    fun _ lines modules hlines hmodules hne => absurd (hnone lines modules hlines hmodules) hne,
    fun _ hne => absurd rfl hne,
    fun lines modules _ hlines hmodules hne => absurd (hnone lines modules hlines hmodules) hne⟩
  exact hnothing.imp_right fun h => h.imp_right (·.imp_right fun h => ⟨[], h, absurd rfl⟩)

/-- Modules are judged by their problems, if their summary can be drawn. -/
theorem checkEnds_judge (hlines : baselineLines e a t = .ok lines)
    (hmodules : Discovers e a.scan t modules) (hne : modules ≠ []) :
    CheckEnds e a t (judge e a t lines modules) := by
  have hrefused : ¬BaselineRefused e a t := fun ⟨_, h, _⟩ => nomatch hlines.symm.trans h
  have hbad : (lines.any (exceeds a.scan.settings t modules) ||
      a.failOnProblems && hasProblems a.scan.settings t modules) = true ↔
        (∃ ls, lines = some ls ∧ ∃ m ∈ modules,
          Baseline.numberIn ls m.identity < (problemsOf a.scan.settings t m : Int)) ∨
        a.failOnProblems = true ∧ ∃ m ∈ modules, problemsOf a.scan.settings t m ≠ 0 := by
    simp only [exceeds, hasProblems, Bool.or_eq_true, Bool.and_eq_true, Option.any_eq_true,
      List.any_eq_true, decide_eq_true_iff]
  have hcode : (∃ n, judge e a t lines modules = .ok n) ↔
      e.undrawn? (summaryRows a.scan.settings t modules) = none := by
    rw [judge]
    cases e.undrawn? (summaryRows a.scan.settings t modules) <;> simp
  have hexit : (∃ n, judge e a t lines modules = .ok n) → judge e a t lines modules =
      .ok (if lines.any (exceeds a.scan.settings t modules) ||
        a.failOnProblems && hasProblems a.scan.settings t modules then 1 else 0) := by
    intro h
    rw [judge, hcode.1 h]
  constructor
  case hasExitCode =>
      rw [hcode]
      constructor
      · exact fun h => .inr ⟨⟨lines, hlines⟩, .inr ⟨modules, hmodules, fun _ => h⟩⟩
      · intro h
        rcases h with h | ⟨-, h | ⟨modules', hmodules', hdrawn⟩⟩
        · exact absurd h hrefused
        · exact absurd h hmodules.not_rootMissing
        · obtain rfl := hmodules.unique hmodules'
          exact hdrawn hne
  case isTwo =>
      intro h
      rw [hexit h]
      refine iff_of_false (fun htwo => ?_) fun h => ?_
      · have htwo := Except.ok.inj htwo
        split at htwo <;> cases htwo
      · rcases h with h | h | h
        · exact hrefused h
        · exact hmodules.not_rootMissing h
        · exact hne (hmodules.unique h)
  case isOne =>
      intro h lines' modules' hlines' hmodules' _
      obtain rfl := Except.ok.inj (hlines.symm.trans hlines')
      obtain rfl := hmodules.unique hmodules'
      rw [← hbad, hexit h]
      split
      · next hbad => exact iff_of_true rfl hbad
      · next hbad => exact iff_of_false nofun hbad
  case isZero =>
      intro h _ hone
      rw [hexit h] at hone ⊢
      split
      · next hbad => exact absurd (congrArg Except.ok (if_pos hbad)) hone
      · rfl
  case undrawn =>
      intro _ modules' failure _ hmodules' _ hundrawn
      obtain rfl := hmodules.unique hmodules'
      rw [judge, hundrawn]

theorem checkEnds_verdict (e : Environment) (a : CheckArguments) (t : Tree) :
    CheckEnds e a t (verdict e a t) := by
  rcases verdict_cases e a t with ⟨failure, hverdict, hrefused, hnone⟩ | ⟨hverdict, hnothing⟩ |
    ⟨lines, modules, hlines, hmodules, hne, hverdict⟩
  · exact hverdict ▸ checkEnds_of_error hrefused hnone
  · exact hverdict ▸ checkEnds_two hnothing
  · exact hverdict ▸ checkEnds_judge hlines hmodules hne

theorem verdict_eq_of_judged {e' : Environment} (hhomes : e'.homes = e.homes)
    (hundrawn : e'.undrawn? = e.undrawn?) (h : a'.judged = a.judged) (t : Tree) :
    verdict e' a' t = verdict e a t := by
  have hjudge : judge e' = judge e := by
    funext a t lines modules
    rw [judge, judge, hundrawn]
  have hexpand : e'.expand = e.expand := by
    funext path
    rw [Environment.expand, Environment.expand, hhomes]
  rw [← verdict_judged, h, verdict_judged, verdict, verdict, baselineLines,
    baselineLines, found, found,
    ScanArguments.rootIn, ScanArguments.rootIn, hexpand, hjudge]

theorem exit_run_check {words : List Text} (ht : t.IsSound)
    (hwords : Arguments.ofWords e.threads words = .ok (.check a)) (hout : TakesResults e a t) :
    (run e words t).exit = verdict e a t := by
  obtain ⟨t', hyields⟩ := exists_yields_check hout fun modules log h =>
    isScalar_reports_of_found ht h
  exact (run_of_yields hwords hyields).1

/-- **A check ends as its baseline, the modules and their findings say,** if its results can be
written. A check of the same tree that differs in what is shown, in what is written, or in how many
modules are scanned at a time, ends in the same way, where the same tables can be drawn. -/
theorem checkEnds_run {words : List Text} (ht : t.IsSound)
    (hwords : Arguments.ofWords e.threads words = .ok (.check a)) (hout : TakesResults e a t) :
    CheckEnds e a t (run e words t).exit ∧
      ∀ e' words' a', e'.homes = e.homes → e'.undrawn? = e.undrawn? →
        Arguments.ofWords e'.threads words' = .ok (.check a') → a'.judged = a.judged →
          TakesResults e' a' t → (run e' words' t).exit = (run e words t).exit := by
  rw [exit_run_check ht hwords hout]
  refine ⟨checkEnds_verdict e a t, fun e' words' a' hhomes hundrawn hwords' hjudged hout' => ?_⟩
  rw [exit_run_check ht hwords' hout', verdict_eq_of_judged hhomes hundrawn hjudged]

/-! ### A check -/

/-- A repository and a baseline that allows its module no problem. -/
def repositoryAndBaseline : Tree :=
  repositoryWith [([Text.ofString "b.txt"], .ofText "m=0\n")]

/-- The words of a check with that baseline. -/
def checkWords : List Text :=
  ["check", "--root", "r", "--baseline", "b.txt", "--json-out", "o"]

/-- What they tell the command. -/
def checkArguments : CheckArguments :=
  { scan := { root := "r", threads := 1 }, baseline := some "b.txt", jsonOut := some "o" }

/-- The results of that check can be written: the directory is made. -/
theorem takesResults_checkArguments :
    TakesResults plainEnvironment checkArguments repositoryAndBaseline := by
  intro argument hargument _
  obtain rfl := Option.some.inj hargument
  exact ⟨Path.ofText "o", (repositoryAndBaseline.makeDirectories (Path.ofText "o")).1, rfl,
    Prod.ext rfl (by decide +kernel), by decide +kernel⟩

theorem checkEnds_run_sample :
    repositoryAndBaseline.IsSound ∧
      Arguments.ofWords plainEnvironment.threads checkWords = .ok (.check checkArguments) ∧
      TakesResults plainEnvironment checkArguments repositoryAndBaseline ∧
      CheckEnds plainEnvironment checkArguments repositoryAndBaseline
        (run plainEnvironment checkWords repositoryAndBaseline).exit ∧
      (run plainEnvironment checkWords repositoryAndBaseline).exit.toOption = some 1 := by
  have hsound : repositoryAndBaseline.IsSound := by decide +kernel
  have hwords : Arguments.ofWords plainEnvironment.threads checkWords =
      .ok (.check checkArguments) := by decide +kernel
  exact ⟨hsound, hwords, takesResults_checkArguments,
    (checkEnds_run hsound hwords takesResults_checkArguments).1, by decide +kernel⟩

/-- The words of a check of a repository of that name. -/
def overlongWords : List Text := ["check", "--root", Tree.overlongName]

/-- What they tell the command. -/
def overlongArguments : CheckArguments := { scan := { root := Tree.overlongName, threads := 1 } }

/-- A root that is no directory, since its name is too long for one, ends the program with a
failure and without an exit code. -/
theorem overlong_root_has_no_exitCode :
    (repositoryWith []).IsSound ∧
      Arguments.ofWords plainEnvironment.threads overlongWords = .ok (.check overlongArguments) ∧
      (∀ d, (repositoryWith []).place .target Tree.overlongName ≠ .ok (.found d)) ∧
      ∀ n, (run plainEnvironment overlongWords (repositoryWith [])).exit ≠ .ok n := by
  refine ⟨by decide +kernel, by decide +kernel, fun d hd => ?_, fun n hn => ?_⟩
  · have hplace : (repositoryWith []).place .target Tree.overlongName = .error .nameTooLong := by
      decide +kernel
    cases hplace.symm.trans hd
  · have hnone : (run plainEnvironment overlongWords (repositoryWith [])).exit.toOption = none := by
      decide +kernel
    rw [hn] at hnone
    cases hnone

end Command

end BundleAudit
