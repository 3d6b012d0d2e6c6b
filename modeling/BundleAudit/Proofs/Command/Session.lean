import BundleAudit.Command.Program
import BundleAudit.Proofs.Failure
import BundleAudit.Proofs.Module.Discovery
import BundleAudit.Proofs.Scan.Completion

/-!
# BundleAudit.Proofs.Command.Session

**What a part of a command leads to.** No command asks what its console shows, so each
part of one takes a tree to a result and a tree (`Yields`). Parts that come one after
the other go on with the tree that the one before has left.
-/

namespace BundleAudit.Command

variable {α β : Type} {e : Environment} {r : Run α} {f : α → Run β} {t t' t'' : Tree} {a : α}
  {result : Except Failure α} {other : Except Failure β} {failure : Failure}

/-- A part of a command takes a tree to a result and a tree, whatever the console shows. -/
def Yields (r : Run α) (t : Tree) (result : Except Failure α) (t' : Tree) : Prop :=
  ∀ console, ∃ console', r.run ⟨t, console⟩ = (result, ⟨t', console'⟩)

theorem Yields.pure (a : α) (t : Tree) : Yields (pure a) t (.ok a) t := fun console =>
  ⟨console, rfl⟩

theorem Yields.throw (failure : Failure) (t : Tree) :
    Yields (α := α) (throw failure) t (.error failure) t := fun console => ⟨console, rfl⟩

theorem Yields.bind (h : Yields r t (.ok a) t') (hnext : Yields (f a) t' other t'') :
    Yields (r >>= f) t other t'' := by
  intro console
  obtain ⟨console', hfirst⟩ := h console
  obtain ⟨console'', hsecond⟩ := hnext console'
  refine ⟨console'', ?_⟩
  show (ExceptT.bindCont f (r.run ⟨t, console⟩).1) (r.run ⟨t, console⟩).2 = _
  rw [hfirst]
  exact hsecond

theorem Yields.bind_error (h : Yields r t (.error failure) t') :
    Yields (r >>= f) t (.error failure) t' := by
  intro console
  obtain ⟨console', hfirst⟩ := h console
  refine ⟨console', ?_⟩
  show (ExceptT.bindCont f (r.run ⟨t, console⟩).1) (r.run ⟨t, console⟩).2 = _
  rw [hfirst]
  rfl

/-! ### The parts of all commands -/

theorem yields_sayAll (log : Log) (t : Tree) : Yields (sayAll log) t (.ok ()) t := fun console =>
  ⟨console.logAll log, rfl⟩

theorem yields_say (m : Message) (t : Tree) : Yields (say m) t (.ok ()) t := yields_sayAll [m] t

theorem yields_display (f : Console → Console) (t : Tree) : Yields (display f) t (.ok ()) t :=
  fun console => ⟨f console, rfl⟩

/-- A table that can be drawn is shown. -/
theorem yields_showTable {rows : List (List Text)} (h : e.undrawn? rows = none) (title : Text)
    (headers : List Text) (t : Tree) : Yields (showTable e title headers rows) t (.ok ()) t := by
  rw [showTable, h]
  exact yields_display _ t

theorem yields_showTable_error {rows : List (List Text)} (h : e.undrawn? rows = some failure)
    (title : Text) (headers : List Text) (t : Tree) :
    Yields (showTable e title headers rows) t (.error failure) t := by
  rw [showTable, h]
  exact .throw failure t

theorem yields_tree (t : Tree) : Yields tree t (.ok t) t := fun console => ⟨console, rfl⟩

/-- A change without a failure. -/
theorem yields_change (t t' : Tree) : Yields (change fun _ => (t', none)) t (.ok ()) t' :=
  fun console => ⟨console, rfl⟩

theorem yields_pathOf {argument : Text} {path : Path}
    (h : e.expand (Path.ofText argument) = .ok path) (t : Tree) :
    Yields (pathOf e argument) t (.ok path) t := by
  rw [pathOf, h]
  exact .pure path t

theorem isNormal_expand {argument : Text} {path : Path}
    (h : e.expand (Path.ofText argument) = .ok path) : path.IsNormal := by
  unfold Environment.expand at h
  split at h
  · next names hnames =>
      split at h
      · next home _ =>
          refine Except.ok.inj h ▸ Path.isNormal_join (Path.isNormal_ofText home) fun n hn => ?_
          exact (Path.isNormal_ofText argument).names n (hnames ▸ List.mem_cons_of_mem _ hn)
      · cases h
  · exact Except.ok.inj h ▸ Path.isNormal_ofText argument

theorem yields_checkLanguage {language : Text} (h : isLanguage language = true) (t : Tree) :
    Yields (checkLanguage language) t (.ok true) t := by
  rw [checkLanguage, if_pos h]
  exact .pure true t

/-! ### Modules -/

/-- The modules that a command finds, or the failure to find any. -/
def found (e : Environment) (a : ScanArguments) (t : Tree) :
    Except Failure (Option (List RepositoryModule) × Log) :=
  (a.rootIn e t).bind fun root => modulesIn t root a

variable {arguments : ScanArguments} {modules : Option (List RepositoryModule)} {log : Log}

theorem yields_findModules (h : found e arguments t = .ok (modules, log)) :
    Yields (findModules e arguments) t (.ok modules) t := by
  refine .bind (yields_tree t) ?_
  rw [found] at h
  rw [h]
  exact .bind (yields_sayAll log t) (.pure modules t)

theorem yields_findModules_error (h : found e arguments t = .error failure) :
    Yields (findModules e arguments) t (.error failure) t := by
  refine .bind (yields_tree t) ?_
  rw [found] at h
  rw [h]
  exact .throw failure t

theorem yields_scanModules (e : Environment) (arguments : ScanArguments)
    (modules : List RepositoryModule) (t : Tree) :
    Yields (scanModules e arguments modules) t
      (.ok (Scan.ofModules arguments.settings t modules)) t :=
  .bind (yields_tree t) (.bind (yields_sayAll _ t) (.pure _ t))

/-- Modules are found by looking for them below the root of the repository. -/
theorem of_found_eq_some {modules : List RepositoryModule} {log : Log}
    (h : found e arguments t = .ok (some modules, log)) :
    ∃ root log', arguments.rootIn e t = .ok root ∧ t.isDirectory root.toPath.toText = .ok true ∧
      RepositoryModule.discover t root.toPath (splitDirectories arguments.topDirectories)
        arguments.moduleFilter = .ok (modules, log') ∧ modules ≠ [] := by
  obtain ⟨root, hroot, h⟩ := Failure.bind_eq_ok_iff.1 h
  obtain ⟨isDirectory, hdirectory, h⟩ := Failure.bind_eq_ok_iff.1 h
  cases isDirectory with
  | false => cases h
  | true =>
      obtain ⟨⟨modules', log'⟩, hdiscover, h⟩ := Failure.bind_eq_ok_iff.1 h
      dsimp only at h
      split at h
      · cases h
      · next hne =>
          cases h
          exact ⟨root, log', hroot, hdirectory, hdiscover, fun heq => hne (heq ▸ rfl)⟩

/-- A module that was found is that of a directory. -/
theorem exists_isOf_of_found {modules : List RepositoryModule} {log : Log}
    (h : found e arguments t = .ok (some modules, log)) {m : RepositoryModule} (hm : m ∈ modules) :
    ∃ root directory, RepositoryModule.IsOf t root directory m := by
  obtain ⟨root, log', -, -, hdiscover, -⟩ := of_found_eq_some h
  obtain ⟨directory, hfound⟩ := (RepositoryModule.of_discover_eq_ok hdiscover).2 m hm
  exact ⟨_, directory, RepositoryModule.isOf_of_ofDirectory hfound⟩

/-- The complete scans of modules that were found, in the order of the modules. -/
theorem ordered_ofModules {s : Settings} {modules : List RepositoryModule}
    (h : (modules.map (·.identity)).Pairwise fun a b => a.lt b = true) :
    (Scan.ofModules s t modules).ordered =
      modules.filterMap fun m => (ModuleScan.ofModule s t m).2.toOption := by
  rw [Scan.ofModules, Scan.ordered_collect _ (h.imp Text.ne_of_lt) (.refl modules)]
  rw [Text.sortBy_eq_self h]

/-- What is made of the complete scans is made of the modules, one after the other. -/
theorem flatMap_ordered {s : Settings} {modules : List RepositoryModule} {log : Log}
    (h : found e arguments t = .ok (some modules, log)) (f : ModuleScan → List β) :
    (Scan.ofModules s t modules).ordered.flatMap f =
      modules.flatMap fun m => match (ModuleScan.ofModule s t m).2 with
        | .ok x => f x
        | .error _ => [] := by
  obtain ⟨root, log', -, -, hdiscover, -⟩ := of_found_eq_some h
  rw [ordered_ofModules (RepositoryModule.of_discover_eq_ok hdiscover).1]
  clear h hdiscover
  induction modules with
  | nil => rfl
  | cons m rest ih =>
      rw [List.flatMap_cons, List.filterMap_cons, ← ih]
      cases (ModuleScan.ofModule s t m).2 with
      | error failure => rfl
      | ok x => rfl

/-! ### The program -/

theorem run_of_yields {words : List Text} {arguments : Arguments} {exit : Except Failure Nat}
    (harguments : Arguments.ofWords e.threads words = .ok arguments)
    (h : Yields (arguments.run e) t exit t') :
    (run e words t).exit = exit ∧ (run e words t).session.tree = t' := by
  obtain ⟨console, hrun⟩ := h { verbose := arguments.verbose }
  rw [run, harguments]
  dsimp only
  rw [hrun]
  exact ⟨rfl, rfl⟩

/-! ### An environment -/

/-- An environment in which no user has a home directory and all tables can be drawn. -/
def plainEnvironment : Environment where
  homes := []
  threads := 1
  started := []
  finished := []
  arrange := id
  arrange_perm := fun _ => .refl _
  undrawn? := fun _ => none

end BundleAudit.Command
