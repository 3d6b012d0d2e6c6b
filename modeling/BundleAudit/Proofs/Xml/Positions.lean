import BundleAudit.Xml.Element
import Mathlib.Data.List.Lex

/-!
# BundleAudit.Proofs.Xml.Positions

**Positions in a tree of elements.** A position says for each step down from the root which of
the elements inside to go to, so it names one element and all the elements around it
(`lineage?`). Positions are compared like words: an element comes before those inside it,
and these before what follows it, which is the order of the document. `positions` lists
them in this order, each once (`pairwise_lt_positions`, `mem_positions_iff`).
-/

namespace BundleAudit.Xml.Element

/-- What holds of an element if it holds of those inside it holds of every element. -/
@[elab_as_elim]
theorem induction_children {P : Element → Prop}
    (h : ∀ name attributes children, (∀ e ∈ children, P e) → P (mk name attributes children)) :
    ∀ e, P e
  | mk name attributes children =>
    h name attributes children fun e _ => induction_children h e

/-- The elements from the root down to the one at a position; none if there is no such position. -/
def lineage? (root : Element) : List Nat → Option (List Element)
  | [] => some [root]
  | i :: p => root.children[i]?.bind fun child => (child.lineage? p).map (root :: ·)

theorem lineage?_cons (root : Element) (i : Nat) (p : List Nat) :
    root.lineage? (i :: p) =
      root.children[i]?.bind fun child => (child.lineage? p).map (root :: ·) := rfl

theorem ne_nil_of_lineage? {root : Element} {p : List Nat} {es : List Element}
    (h : root.lineage? p = some es) : es ≠ [] := by
  cases p with
  | nil =>
      obtain rfl := Option.some.inj h
      simp
  | cons i p =>
      rw [lineage?_cons] at h
      obtain ⟨child, -, h⟩ := Option.bind_eq_some_iff.1 h
      obtain ⟨more, -, rfl⟩ := Option.map_eq_some_iff.1 h
      simp

/-- No element in a tree has more than `depth` elements down to it, itself among them. -/
def IsWithin (depth : Nat) (root : Element) : Prop :=
  ∀ p es, root.lineage? p = some es → es.length ≤ depth

theorem not_isWithin_zero (root : Element) : ¬root.IsWithin 0 := fun h =>
  absurd (h [] [root] rfl) (Nat.not_succ_le_zero 0)

/-- Inside an element there is one level less. -/
theorem isWithin_succ_iff {depth : Nat} {root : Element} :
    root.IsWithin (depth + 1) ↔ ∀ e ∈ root.children, e.IsWithin depth := by
  constructor
  · intro h e he p es hes
    obtain ⟨i, hi⟩ := List.getElem?_of_mem he
    have hlength := h (i :: p) (root :: es) (by rw [lineage?_cons, hi, Option.bind_some, hes]; rfl)
    exact Nat.le_of_succ_le_succ hlength
  · intro h p es hes
    cases p with
    | nil =>
        obtain rfl := Option.some.inj hes
        exact Nat.succ_le_succ (Nat.zero_le depth)
    | cons i p =>
        rw [lineage?_cons] at hes
        obtain ⟨e, he, hes⟩ := Option.bind_eq_some_iff.1 hes
        obtain ⟨more, hmore, rfl⟩ := Option.map_eq_some_iff.1 hes
        exact Nat.succ_le_succ (h e (List.mem_of_getElem? he) p more hmore)

mutual

/-- The positions in an element, in the order of the document. -/
def positions : Element → List (List Nat)
  | mk _ _ children => [] :: positionsFrom 0 children

/-- The positions in elements that stand side by side, the first of them at index `i`. -/
def positionsFrom (i : Nat) : List Element → List (List Nat)
  | [] => []
  | e :: rest => (positions e).map (i :: ·) ++ positionsFrom (i + 1) rest

end

/-- A position in elements side by side is the index of one of them and a position in it. -/
theorem mem_positionsFrom_iff {i : Nat} {es : List Element} {p : List Nat} :
    p ∈ positionsFrom i es ↔ ∃ j e q, es[j]? = some e ∧ q ∈ e.positions ∧ p = (i + j) :: q := by
  induction es generalizing i with
  | nil => simp [positionsFrom]
  | cons e rest ih =>
      rw [positionsFrom, List.mem_append, List.mem_map, ih]
      constructor
      · intro h
        rcases h with ⟨q, hq, rfl⟩ | ⟨j, e', q, he', hq, rfl⟩
        · exact ⟨0, e, q, rfl, hq, rfl⟩
        · exact ⟨j + 1, e', q, he', hq, by rw [Nat.add_assoc, Nat.add_comm 1]⟩
      · intro h
        obtain ⟨j, e', q, he', hq, rfl⟩ := h
        cases j with
        | zero =>
            obtain rfl := Option.some.inj he'
            exact .inl ⟨q, hq, rfl⟩
        | succ j => exact .inr ⟨j, e', q, he', hq, by rw [Nat.add_assoc, Nat.add_comm 1]⟩

/-- A position is listed just if there is an element at it. -/
theorem mem_positions_iff {root : Element} {p : List Nat} :
    p ∈ root.positions ↔ ∃ es, root.lineage? p = some es := by
  induction root using induction_children generalizing p with
  | h name attributes children ih =>
      rw [positions, List.mem_cons, mem_positionsFrom_iff]
      cases p with
      | nil => simp [lineage?]
      | cons i p =>
          rw [lineage?_cons]
          constructor
          · intro h
            obtain ⟨j, e, q, he, hq, heq⟩ := h.resolve_left (List.cons_ne_nil _ _)
            rw [Nat.zero_add] at heq
            obtain ⟨rfl, rfl⟩ := List.cons.inj heq
            obtain ⟨es, hes⟩ := (ih e (List.mem_of_getElem? he)).1 hq
            exact ⟨_, Option.bind_eq_some_iff.2 ⟨e, he, Option.map_eq_some_iff.2 ⟨es, hes, rfl⟩⟩⟩
          · intro h
            obtain ⟨es, hes⟩ := h
            obtain ⟨e, he, hes⟩ := Option.bind_eq_some_iff.1 hes
            obtain ⟨more, hmore, -⟩ := Option.map_eq_some_iff.1 hes
            have hp : p ∈ e.positions := (ih e (List.mem_of_getElem? he)).2 ⟨more, hmore⟩
            exact .inr ⟨i, e, p, he, hp, by rw [Nat.zero_add]⟩

theorem pairwise_lt_positionsFrom {i : Nat} {es : List Element}
    (h : ∀ e ∈ es, e.positions.Pairwise (· < ·)) : (positionsFrom i es).Pairwise (· < ·) := by
  induction es generalizing i with
  | nil => simp [positionsFrom]
  | cons e rest ih =>
      obtain ⟨he, hrest⟩ := List.forall_mem_cons.1 h
      rw [positionsFrom, List.pairwise_append, List.pairwise_map]
      refine ⟨he.imp fun hlt => List.cons_lt_cons_iff.2 (.inr ⟨rfl, hlt⟩), ih hrest, ?_⟩
      -- a smaller index comes first, whatever follows it
      intro p hp q hq
      obtain ⟨p', -, rfl⟩ := List.mem_map.1 hp
      obtain ⟨j, e', q', -, -, rfl⟩ := mem_positionsFrom_iff.1 hq
      exact List.cons_lt_cons_iff.2 (.inl (by omega))

/-- **The positions ascend,** so none is listed twice. -/
theorem pairwise_lt_positions (root : Element) : root.positions.Pairwise (· < ·) := by
  induction root using induction_children with
  | h name attributes children ih =>
      rw [positions, List.pairwise_cons]
      refine ⟨fun p hp => ?_, pairwise_lt_positionsFrom ih⟩
      obtain ⟨j, e, q, -, -, rfl⟩ := mem_positionsFrom_iff.1 hp
      exact List.nil_lt_cons _ _

end BundleAudit.Xml.Element
