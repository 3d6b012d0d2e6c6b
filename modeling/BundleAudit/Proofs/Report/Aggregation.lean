import BundleAudit.Proofs.Report.Collection
import Mathlib.Algebra.BigOperators.Group.List.Basic
import Mathlib.Algebra.GroupWithZero.Nat
import Mathlib.Data.List.Induction

/-!
# BundleAudit.Proofs.Report.Aggregation

**Aggregation loses and invents nothing.** The first report of a name is kept as it is,
and what comes later under this name is appended to it kind by kind (`get?_ofList`). So
of each kind a collection holds what the reports held, and no number depends on the order
in which they came (`aggregates_ofList`).
-/

namespace BundleAudit

/-! ### Merging two reports -/

theorem Finding.Kind.nodup_all : Finding.Kind.all.Nodup := by decide

theorem Finding.Kind.mem_all (k : Finding.Kind) : k ∈ Finding.Kind.all := by
  cases k <;> decide

namespace Report

variable {r q : Report} {name : Text}

/-- Of each kind the findings stay together, in their order. -/
theorem ofKind_byKind (r : Report) (k : Finding.Kind) :
    r.byKind.filter (·.kind = k) = r.ofKind k := by
  have hone : ∀ k', (r.ofKind k').filter (·.kind = k) = if k' = k then r.ofKind k else [] := by
    intro k'
    rw [ofKind, List.filter_filter]
    split
    · next heq =>
        subst heq
        exact List.filter_congr fun f _ => Bool.and_self _
    · next hne =>
        refine List.filter_eq_nil_iff.2 fun f _ hboth => hne ?_
        rw [Bool.and_eq_true, decide_eq_true_eq, decide_eq_true_eq] at hboth
        exact hboth.2.symm.trans hboth.1
  have hall : ∀ ks : List Finding.Kind, ks.Nodup →
      (ks.flatMap r.ofKind).filter (·.kind = k) = if k ∈ ks then r.ofKind k else [] := by
    intro ks hks
    induction ks with
    | nil => rfl
    | cons k' rest ih =>
        obtain ⟨hnew, hrest⟩ := List.nodup_cons.1 hks
        rw [List.flatMap_cons, List.filter_append, hone, ih hrest]
        by_cases heq : k' = k
        · subst heq
          rw [if_pos rfl, if_neg hnew, if_pos List.mem_cons_self, List.append_nil]
        · rw [if_neg heq, List.nil_append]
          simp only [List.mem_cons, Ne.symm heq, false_or]
  rw [byKind, hall _ Finding.Kind.nodup_all, if_pos (Finding.Kind.mem_all k)]

theorem name_merge (r q : Report) : (r.merge q).name = r.name := rfl

theorem ofKind_merge (r q : Report) (k : Finding.Kind) :
    (r.merge q).ofKind k = r.ofKind k ++ q.ofKind k := by
  rw [ofKind, merge, List.filter_append, ofKind_byKind]
  rfl

theorem count_merge (r q : Report) (k : Finding.Kind) :
    (r.merge q).count k = r.count k + q.count k := by
  rw [count, ofKind_merge, List.length_append]
  rfl

theorem fileCount_merge (r q : Report) (k : FileKind) :
    (r.merge q).fileCount k = r.fileCount k + q.fileCount k :=
  List.count_append

/-- The findings are those of all kinds. -/
theorem problems_eq_sum_count (r : Report) :
    r.problems = (Finding.Kind.all.map r.count).sum := by
  have hlist : ∀ fs : List Finding,
      fs.length = (Finding.Kind.all.map fun k => (fs.filter (·.kind = k)).length).sum := by
    intro fs
    induction fs with
    | nil => rfl
    | cons f rest ih =>
        rw [List.length_cons, ih]
        cases hkind : f.kind <;> simp [Finding.Kind.all, List.filter_cons, hkind] <;> omega
  exact hlist r.findings

theorem problems_merge (r q : Report) : (r.merge q).problems = r.problems + q.problems := by
  have hcount : (r.merge q).count = fun k => r.count k + q.count k := funext (count_merge r q)
  rw [problems_eq_sum_count, hcount, List.sum_map_add, problems_eq_sum_count r,
    problems_eq_sum_count q]

/-- Reports merged one after the other into the first of them. -/
def mergeAll? : List Report → Option Report
  | [] => none
  | r :: rest => some (rest.foldl merge r)

theorem mergeAll?_concat (rs : List Report) (r : Report) :
    mergeAll? (rs ++ [r]) = some ((mergeAll? rs).elim r (·.merge r)) := by
  cases rs with
  | nil => rfl
  | cons first rest => rw [List.cons_append, mergeAll?, List.foldl_concat]; rfl

/-- They hold what each of them holds. -/
theorem of_mergeAll?_eq_some {rs : List Report} (h : mergeAll? rs = some r) :
    (∀ k, r.ofKind k = rs.flatMap (·.ofKind k)) ∧
      ∀ k, r.fileCount k = (rs.map (·.fileCount k)).sum := by
  induction rs using List.reverseRecOn generalizing r with
  | nil => cases h
  | append_singleton rs q ih =>
      rw [mergeAll?_concat] at h
      obtain rfl := Option.some.inj h
      cases hrs : mergeAll? rs with
      | none =>
          obtain rfl : rs = [] := by
            cases rs with
            | nil => rfl
            | cons first rest => cases hrs
          simp
      | some p =>
          obtain ⟨hkinds, hfiles⟩ := ih hrs
          refine ⟨fun k => ?_, fun k => ?_⟩
          · rw [Option.elim_some, ofKind_merge, hkinds, List.flatMap_append, List.flatMap_singleton]
          · rw [Option.elim_some, fileCount_merge, hfiles, List.map_append, List.sum_append_nat]
            rfl

end Report

/-! ### Adding reports -/

namespace Reports

variable {rs : Reports} {r : Report} {inputs order order' : List Report}

/-- The collection of reports that are added one after the other. -/
def ofList (inputs : List Report) : Reports := inputs.foldl (fun rs r => rs.add r) []

theorem ofList_concat (inputs : List Report) (r : Report) :
    ofList (inputs ++ [r]) = (ofList inputs).add r := List.foldl_concat _ _ _ _

theorem names_add (rs : Reports) (r : Report) :
    (rs.add r).names = if r.name ∈ rs.names then rs.names else rs.names ++ [r.name] := by
  induction rs with
  | nil => rfl
  | cons first rest ih =>
      by_cases heq : first.name = r.name
      · rw [add, if_pos heq]
        simp [names, heq, Report.name_merge]
      · rw [add, if_neg heq]
        simp only [names] at ih
        by_cases hmem : r.name ∈ rest.map (·.name)
        · simp [names, ih, hmem]
        · simp [names, ih, hmem, Ne.symm heq]

theorem nodup_names_add (h : rs.names.Nodup) (r : Report) : (rs.add r).names.Nodup := by
  rw [names_add]
  split
  · exact h
  · next hnew =>
      refine List.nodup_append.2 ⟨h, List.nodup_singleton _, fun a ha b hb hab => hnew ?_⟩
      exact List.mem_singleton.1 hb ▸ hab ▸ ha

/-- A report is kept under a new name, and merged into the one of a known name. -/
theorem get?_add (rs : Reports) (r : Report) (name : Text) :
    (rs.add r).get? name =
      if r.name = name then some ((rs.get? name).elim r (·.merge r)) else rs.get? name := by
  induction rs with
  | nil => by_cases h : r.name = name <;> simp [add, get?, h]
  | cons first rest ih =>
      simp only [get?] at ih ⊢
      by_cases heq : first.name = r.name
      · rw [add, if_pos heq]
        by_cases hname : r.name = name <;> simp [heq, hname, Report.name_merge]
      · rw [add, if_neg heq]
        by_cases hfirst : first.name = name
        · have hne : r.name ≠ name := fun h => heq (hfirst.trans h.symm)
          simp [hfirst, hne]
        · simp [hfirst, ih]

/-- Numbers that add up where reports are merged add up where they are collected. -/
theorem sum_map_add {f : Report → Nat}
    (hf : ∀ q r : Report, f (q.merge r) = f q + f r) (rs : Reports)
    (r : Report) : ((rs.add r).map f).sum = (rs.map f).sum + f r := by
  induction rs with
  | nil => simp [add]
  | cons first rest ih =>
      rw [add]
      split
      · rw [List.map_cons, List.sum_cons, hf, List.map_cons, List.sum_cons, Nat.add_right_comm]
      · rw [List.map_cons, List.sum_cons, ih, List.map_cons, List.sum_cons, Nat.add_assoc]

/-! ### Collections -/

theorem nodup_names_ofList (inputs : List Report) : (ofList inputs).names.Nodup := by
  induction inputs using List.reverseRecOn with
  | nil => exact List.nodup_nil
  | append_singleton inputs r ih => exact ofList_concat inputs r ▸ nodup_names_add ih r

theorem mem_names_ofList {name : Text} :
    name ∈ (ofList inputs).names ↔ ∃ r ∈ inputs, r.name = name := by
  induction inputs using List.reverseRecOn with
  | nil => exact ⟨nofun, fun ⟨_, h, _⟩ => nomatch h⟩
  | append_singleton inputs r ih =>
      have hnew : (∃ q ∈ inputs ++ [r], q.name = name) ↔
          name ∈ (ofList inputs).names ∨ name = r.name := by
        rw [ih]
        simp only [List.mem_append, List.mem_singleton, or_and_right, exists_or, exists_eq_left,
          eq_comm (a := name)]
      rw [hnew, ofList_concat, names_add]
      split
      · next hmem => exact ⟨.inl, fun h => h.elim id fun heq => heq ▸ hmem⟩
      · rw [List.mem_append, List.mem_singleton]

/-- Under a name there is what was added under this name. -/
theorem get?_ofList (inputs : List Report) (name : Text) :
    (ofList inputs).get? name = Report.mergeAll? (inputs.filter (·.name = name)) := by
  induction inputs using List.reverseRecOn with
  | nil => rfl
  | append_singleton inputs r ih =>
      rw [ofList_concat, get?_add, ih, List.filter_append]
      by_cases h : r.name = name
      · rw [if_pos h, List.filter_singleton, decide_eq_true h, cond_true, Report.mergeAll?_concat]
      · rw [if_neg h, List.filter_singleton, decide_eq_false h, cond_false, List.append_nil]

theorem sum_map_ofList {f : Report → Nat} (hf : ∀ q r : Report, f (q.merge r) = f q + f r)
    (inputs : List Report) : ((ofList inputs).map f).sum = (inputs.map f).sum := by
  induction inputs using List.reverseRecOn with
  | nil => rfl
  | append_singleton inputs r ih =>
      rw [ofList_concat, sum_map_add hf, ih, List.map_append, List.sum_append_nat]
      rfl

theorem foldl_add_eq_sum (f : Report → Nat) (rs : List Report) :
    rs.foldl (fun n r => n + f r) 0 = (rs.map f).sum := by
  rw [List.sum_eq_foldl, List.foldl_map]

/-- Reports count their findings kind by kind. -/
theorem sum_problems (rs : List Report) :
    (rs.map (·.problems)).sum = (Finding.Kind.all.map fun k => (rs.map (·.count k)).sum).sum := by
  induction rs with
  | nil => rfl
  | cons r rest ih =>
      simp only [List.map_cons, List.sum_cons]
      rw [List.sum_map_add, ih, r.problems_eq_sum_count]

/-! ### What a collection holds -/

/-- A collection holds what reports hold, and nothing else. -/
structure Aggregates (inputs : List Report) (rs : Reports) : Prop where
  /-- The names are listed in ascending order, each once. -/
  ascending : rs.ordered.names.Pairwise fun a b => a.lt b = true
  mem_names_iff : ∀ name, name ∈ rs.ordered.names ↔ ∃ r ∈ inputs, r.name = name
  /-- What is listed is found under its name, and nothing else is. -/
  get?_eq_some_iff : ∀ name r, rs.get? name = some r ↔ r ∈ rs.ordered ∧ r.name = name
  /-- Of each kind it has the findings of the reports of its name. -/
  ofKind : ∀ r ∈ rs.ordered, ∀ k,
    (r.ofKind k).Perm ((inputs.filter (·.name = r.name)).flatMap (·.ofKind k))
  fileCount : ∀ r ∈ rs.ordered, ∀ k,
    r.fileCount k = ((inputs.filter (·.name = r.name)).map (·.fileCount k)).sum
  /-- All findings are counted. -/
  countByKind : rs.countByKind = Finding.Kind.all.map fun k => (k, (inputs.map (·.count k)).sum)
  total : rs.total = (inputs.map (·.problems)).sum
  total_eq_sum_countByKind : rs.total = (rs.countByKind.map Prod.snd).sum

theorem mem_ordered : r ∈ rs.ordered ↔ r ∈ rs := (Text.perm_sortBy Report.name rs).mem_iff

theorem aggregates_of_perm (h : order.Perm inputs) : Aggregates inputs (ofList order) := by
  have hnodup := nodup_names_ofList order
  have hget : ∀ name r, (ofList order).get? name = some r ↔
      r ∈ (ofList order).ordered ∧ r.name = name := by
    intro name r
    rw [mem_ordered]
    constructor
    · intro heq
      exact ⟨List.mem_of_find?_eq_some heq, of_decide_eq_true (by simpa using List.find?_some heq)⟩
    · rintro ⟨hr, rfl⟩
      exact get?_eq_some hnodup hr
  have hmerged : ∀ r ∈ (ofList order).ordered,
      (∀ k, r.ofKind k = (order.filter (·.name = r.name)).flatMap (·.ofKind k)) ∧
        ∀ k, r.fileCount k = ((order.filter (·.name = r.name)).map (·.fileCount k)).sum :=
    fun r hr => Report.of_mergeAll?_eq_some
      ((get?_ofList order r.name).symm.trans ((hget r.name r).2 ⟨hr, rfl⟩))
  have hsum : ∀ f : Report → Nat, (∀ q r : Report, f (q.merge r) = f q + f r) →
      (ofList order).foldl (fun n r => n + f r) 0 = (inputs.map f).sum := by
    intro f hf
    rw [foldl_add_eq_sum, sum_map_ofList hf]
    exact (h.map f).sum_nat
  have hcount : (ofList order).countByKind =
      Finding.Kind.all.map fun k => (k, (inputs.map (·.count k)).sum) :=
    List.map_congr_left fun k _ =>
      congrArg (k, ·) (hsum (·.count k) fun q r => Report.count_merge q r k)
  have htotal : (ofList order).total = (inputs.map (·.problems)).sum :=
    hsum (·.problems) Report.problems_merge
  refine ⟨Text.pairwise_lt_sortBy hnodup, fun name => ?_, hget, fun r hr k => ?_, fun r hr k => ?_,
    hcount, htotal, ?_⟩
  · have hnames : (ofList order).ordered.names.Perm (ofList order).names :=
      (Text.perm_sortBy Report.name (ofList order)).map Report.name
    rw [hnames.mem_iff, mem_names_ofList]
    exact exists_congr fun r => and_congr_left' h.mem_iff
  · rw [(hmerged r hr).1 k]
    exact (h.filter _).flatMap_right _
  · rw [(hmerged r hr).2 k]
    exact ((h.filter _).map _).sum_nat
  · rw [htotal, hcount, List.map_map, sum_problems]
    rfl

/-- **Aggregation loses and invents nothing, in any order.** -/
theorem aggregates_ofList (inputs : List Report) :
    (∀ order, order.Perm inputs → Aggregates inputs (ofList order)) ∧
      ∀ order order', order.Perm inputs → order'.Perm inputs →
        (ofList order).ordered.names = (ofList order').ordered.names ∧
          (ofList order).total = (ofList order').total ∧
          (ofList order).countByKind = (ofList order').countByKind := by
  refine ⟨fun order h => aggregates_of_perm h, fun order order' h h' => ?_⟩
  have hall := aggregates_of_perm h
  have hall' := aggregates_of_perm h'
  refine ⟨?_, hall.total.trans hall'.total.symm, hall.countByKind.trans hall'.countByKind.symm⟩
  refine Text.eq_of_pairwise_lt hall.ascending hall'.ascending fun name => ?_
  rw [hall.mem_names_iff, hall'.mem_names_iff]

/-- Three reports, two of them with one name. -/
def sampleReports : List Report :=
  [{ name := "n", findings := [⟨.unreadableFile, "f", 1, "x"⟩, ⟨.missingKey, "g", 2, "k"⟩],
     files := [.source] },
    { name := "m", findings := [⟨.missingKey, "h", 3, "k"⟩] },
    { name := "n", findings := [⟨.missingKey, "i", 4, "l"⟩], files := [.source] }]

theorem aggregates_ofList_sample :
    sampleReports.reverse.Perm sampleReports ∧
      Aggregates sampleReports (ofList sampleReports.reverse) ∧
      (ofList sampleReports).ordered.names = (ofList sampleReports.reverse).ordered.names ∧
      (ofList sampleReports).total = (ofList sampleReports.reverse).total ∧
      (ofList sampleReports).countByKind = (ofList sampleReports.reverse).countByKind := by
  have hperm : sampleReports.reverse.Perm sampleReports := List.reverse_perm _
  obtain ⟨hall, hsame⟩ := aggregates_ofList sampleReports
  exact ⟨hperm, hall _ hperm, hsame _ _ (.refl _) hperm⟩

end Reports

end BundleAudit
