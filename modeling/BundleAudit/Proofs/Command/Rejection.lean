import BundleAudit.Proofs.Command.Import
import BundleAudit.Proofs.Table.Contents

/-!
# BundleAudit.Proofs.Command.Rejection

**A table is taken whole or not at all.** From rows comes a table that holds what all of
them say, or a failure at the first one with another number of cells. An import reads
all rows before it looks for modules; so where it ends with that failure, nothing has
been written (`isExact_and_run_refused`).
-/

namespace BundleAudit.Command

variable {e : Environment} {a : TransferArguments} {t : Tree} {path : Path}
  {records : List (List Text)}

/-- An import from a table with a bad row ends where the table is read. -/
theorem yields_importTable_refused (hlanguage : isLanguage a.language = true)
    (hpath : e.expand (Path.ofText a.table) = .ok path)
    (hread : t.readTable path.toText = .ok records)
    (hcells : ∃ cells ∈ records, cells.length ≠ 5) : Yields (importTable e a) t (.ok 1) t := by
  obtain ⟨bytes, hbytes, hrecords⟩ := Failure.bind_eq_ok_iff.1 hread
  obtain ⟨f, hrefused⟩ := (Table.isExact path.toText records).refused_iff.2 hcells
  exact yields_importTable_ended hlanguage hpath
    (yields_readTableFile_ended hbytes hrecords hrefused)

/-- **A table is exact, and all or nothing:** rows make up a table that holds what all of them say,
unless one has another number of cells; then an import ends with the exit code 1, and no file is
another than it was. -/
theorem isExact_and_run_refused :
    (∀ source lists, Table.IsExact source lists) ∧
      ∀ (e : Environment) (words : List Text) (t : Tree) (a : TransferArguments) (path : Path)
        (records : List (List Text)),
        Arguments.ofWords e.threads words = .ok (.importTable a) →
        isLanguage a.language = true →
        e.expand (Path.ofText a.table) = .ok path →
        t.readTable path.toText = .ok records →
        (∃ cells ∈ records, cells.length ≠ 5) →
          (run e words t).exit = .ok 1 ∧ (run e words t).session.tree = t := by
  refine ⟨Table.isExact, ?_⟩
  intro e words t a path records hwords hlanguage hpath hread hcells
  exact run_of_yields hwords (yields_importTable_refused hlanguage hpath hread hcells)

/-- A table with an empty line and a row of four cells after one that can be used. -/
def shortRowBytes : Bytes := (Text.ofString "k,x,y,m,\n\nk,x,y,m\n").flatMap Text.utf8Code

theorem isExact_and_run_refused_sample :
    let t := repositoryAndTable shortRowBytes
    Arguments.ofWords plainEnvironment.threads importWords = .ok (.importTable importArguments) ∧
      isLanguage importArguments.language = true ∧
      plainEnvironment.expand (Path.ofText importArguments.table) = .ok (Path.ofText "t.csv") ∧
      t.readTable (Path.ofText "t.csv").toText =
        .ok [["k", "x", "y", "m", []], ["k", "x", "y", "m"]] ∧
      (run plainEnvironment importWords t).exit = .ok 1 ∧
      (run plainEnvironment importWords t).session.tree = t := by
  intro t
  have hwords : Arguments.ofWords plainEnvironment.threads importWords =
      .ok (.importTable importArguments) := by decide +kernel
  have hread : t.readTable (Path.ofText "t.csv").toText =
      .ok [["k", "x", "y", "m", []], ["k", "x", "y", "m"]] :=
    Failure.eq_ok_of_toOption (by decide +kernel)
  exact ⟨hwords, by decide, rfl, hread, isExact_and_run_refused.2 plainEnvironment importWords t
    importArguments (Path.ofText "t.csv") _ hwords (by decide) rfl hread
    ⟨["k", "x", "y", "m"], by decide, by decide⟩⟩

end BundleAudit.Command
