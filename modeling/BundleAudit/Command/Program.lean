import BundleAudit.Command.Check
import BundleAudit.Command.Transfer

/-!
# BundleAudit.Command.Program

**The program:** from its arguments and a file tree to an exit code, what was shown,
and the tree as it is left. A failure that no command expects takes the place of the
exit code.
-/

namespace BundleAudit.Command

/-- Whether the console of a command is verbose. -/
def Arguments.verbose : Arguments → Bool
  | .check a => a.scan.verbose
  | .exportTable a => a.scan.verbose
  | .importTable a => a.scan.verbose

/-- Runs a command. -/
def Arguments.run (e : Environment) : Arguments → Run Nat
  | .check a => Command.check e a
  | .exportTable a => Command.exportTable e a
  | .importTable a => Command.importTable e a

/-- What a run of the program leads to. -/
structure Outcome where
  session : Session
  exit : Except Failure Nat

/-- Runs the program. -/
def run (e : Environment) (words : List Text) (t : Tree) : Outcome :=
  match Arguments.ofWords e.threads words with
  | .error refusal => ⟨⟨t, { verbose := false }⟩, .ok refusal.exitCode⟩
  | .ok a =>
    let (exit, session) := (a.run e).run ⟨t, { verbose := a.verbose }⟩
    ⟨session, exit⟩

end BundleAudit.Command
