import BundleAudit.Failure

/-!
# BundleAudit.Proofs.Failure

**Steps that may fail.** Steps one after the other give a value if each of them does.
-/

namespace BundleAudit.Failure

variable {α β : Type}

/-- Two steps give a value just if the first one does, and the second one with it. -/
theorem bind_eq_ok_iff {x : Except Failure α} {f : α → Except Failure β} {b : β} :
    x >>= f = .ok b ↔ ∃ a, x = .ok a ∧ f a = .ok b := by
  cases x with
  | error failure => exact ⟨nofun, fun ⟨_, h, _⟩ => nomatch h⟩
  | ok a => exact ⟨fun h => ⟨a, rfl, h⟩, fun ⟨_, ha, h⟩ => Except.ok.inj ha ▸ h⟩

theorem map_eq_ok_iff {x : Except Failure α} {f : α → β} {b : β} :
    x.map f = .ok b ↔ ∃ a, x = .ok a ∧ f a = b := by
  cases x with
  | error failure => exact ⟨nofun, fun ⟨_, h, _⟩ => nomatch h⟩
  | ok a => exact ⟨fun h => ⟨a, rfl, Except.ok.inj h⟩, fun ⟨_, ha, h⟩ => by
      rw [← h, Except.ok.inj ha]
      rfl⟩

theorem map_eq_error_iff {x : Except Failure α} {f : α → β} {failure : Failure} :
    x.map f = .error failure ↔ x = .error failure := by
  cases x with
  | error other =>
      exact ⟨fun h => congrArg _ (Except.error.inj h), fun h => congrArg _ (Except.error.inj h)⟩
  | ok a => exact ⟨nofun, nofun⟩

/-- Two steps fail just if the first one does, or the second one after it. -/
theorem bind_eq_error_iff {x : Except Failure α} {f : α → Except Failure β} {failure : Failure} :
    x >>= f = .error failure ↔ x = .error failure ∨ ∃ a, x = .ok a ∧ f a = .error failure := by
  cases x with
  | error other =>
      exact ⟨fun h => .inl (congrArg _ (Except.error.inj h)),
        fun h => h.elim (fun h => congrArg _ (Except.error.inj h)) nofun⟩
  | ok a =>
      exact ⟨fun h => .inr ⟨a, rfl, h⟩,
        fun h => h.elim nofun fun ⟨_, ha, h⟩ => Except.ok.inj ha ▸ h⟩

theorem exists_map_eq_ok_iff {x : Except Failure α} {f : α → β} :
    (∃ b, x.map f = .ok b) ↔ ∃ a, x = .ok a := by
  cases x with
  | error failure => exact ⟨nofun, nofun⟩
  | ok a => exact ⟨fun _ => ⟨a, rfl⟩, fun _ => ⟨_, rfl⟩⟩

theorem toOption_map (f : α → β) (x : Except Failure α) :
    (x.map f).toOption = x.toOption.map f := by
  cases x <;> rfl

/-- The file system refused an operation. -/
def IsSystem (f : Failure) : Prop := ∃ cause path target, f = .system cause path target

theorem isSystem_system (cause : SystemCause) (path : Text) (target : Option Text) :
    (Failure.system cause path target).IsSystem := ⟨cause, path, target, rfl⟩

end BundleAudit.Failure
