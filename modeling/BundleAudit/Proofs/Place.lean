import Mathlib.Data.List.Induction

/-!
# BundleAudit.Proofs.Place

**The places of a list:** each of its items with what stands before and after it. What a
reader knows after its last item is said of places once and for all; that a list is read
from the left then needs only how the places of a list change when one more item comes
(`places_concat`).
-/

namespace BundleAudit

/-- An item of a list, with what stands before it and after it. -/
structure Place (α : Type) where
  before : List α
  item : α
  after : List α

namespace Place

variable {α : Type}

/-- The same place when one more item comes at the end of the list. -/
def extend (a : α) (p : Place α) : Place α := { p with after := p.after ++ [a] }

/-- The same place in a list of other items. -/
def map {β : Type} (f : α → β) (p : Place α) : Place β :=
  ⟨p.before.map f, f p.item, p.after.map f⟩

end Place

variable {α : Type}

/-- The places of a list that follows other items. -/
def placesAfter (before : List α) : List α → List (Place α)
  | [] => []
  | a :: rest => ⟨before, a, rest⟩ :: placesAfter (before ++ [a]) rest

/-- The places of a list, in their order. -/
def places (l : List α) : List (Place α) := placesAfter [] l

theorem placesAfter_concat (before l : List α) (a : α) :
    placesAfter before (l ++ [a]) =
      (placesAfter before l).map (Place.extend a) ++ [⟨before ++ l, a, []⟩] := by
  induction l generalizing before with
  | nil =>
      rw [List.append_nil]
      rfl
  | cons b rest ih =>
      rw [List.cons_append, placesAfter, ih, List.append_cons before b rest]
      rfl

/-- One more item adds one place, and stands after all the others. -/
theorem places_concat (l : List α) (a : α) :
    places (l ++ [a]) = (places l).map (Place.extend a) ++ [⟨l, a, []⟩] :=
  placesAfter_concat [] l a

theorem map_item_placesAfter (before l : List α) : (placesAfter before l).map (·.item) = l := by
  induction l generalizing before with
  | nil => rfl
  | cons a rest ih => rw [placesAfter, List.map_cons, ih]

/-- The items at the places of a list are its items. -/
theorem map_item_places (l : List α) : (places l).map (·.item) = l := map_item_placesAfter [] l

theorem placesAfter_map {β : Type} (f : α → β) (before l : List α) :
    placesAfter (before.map f) (l.map f) = (placesAfter before l).map (Place.map f) := by
  induction l generalizing before with
  | nil => rfl
  | cons a rest ih =>
      have hrest := ih (before ++ [a])
      rw [List.map_append] at hrest
      simp only [List.map_cons, placesAfter, List.map_nil] at hrest ⊢
      rw [hrest]
      rfl

theorem places_map {β : Type} (f : α → β) (l : List α) :
    places (l.map f) = (places l).map (Place.map f) := placesAfter_map f [] l

theorem mem_placesAfter_iff {before l : List α} {p : Place α} :
    p ∈ placesAfter before l ↔ ∃ more, p.before = before ++ more ∧
      l = more ++ p.item :: p.after := by
  induction l generalizing before with
  | nil => simp [placesAfter]
  | cons a rest ih =>
      rw [placesAfter, List.mem_cons, ih]
      constructor
      · rintro (rfl | ⟨more, hbefore, rfl⟩)
        · exact ⟨[], (List.append_nil _).symm, rfl⟩
        · exact ⟨a :: more, by rw [hbefore, List.append_assoc]; rfl, rfl⟩
      · rintro ⟨more, hbefore, hrest⟩
        cases more with
        | nil =>
            obtain ⟨rfl, rfl⟩ := List.cons.inj hrest
            exact .inl (by rw [← List.append_nil before, ← hbefore])
        | cons b more =>
            obtain ⟨rfl, rfl⟩ := List.cons.inj hrest
            exact .inr ⟨more, by rw [hbefore, List.append_assoc]; rfl, rfl⟩

/-- A place is where a list can be cut. -/
theorem mem_places_iff {l : List α} {p : Place α} :
    p ∈ places l ↔ l = p.before ++ p.item :: p.after := by
  rw [places, mem_placesAfter_iff]
  exact ⟨fun ⟨_, hbefore, hl⟩ => by rw [hl, hbefore]; rfl, fun hl => ⟨p.before, rfl, hl⟩⟩

end BundleAudit
