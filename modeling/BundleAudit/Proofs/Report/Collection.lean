import BundleAudit.Proofs.Text.Order
import BundleAudit.Report.Collection

/-!
# BundleAudit.Proofs.Report.Collection

**Reports in the order in which they came.** A report under a new name goes to the end
(`add_of_new`), so reports with distinct names are kept as they are. Nothing that is
asked of such a collection depends on the order in which the reports came
(`Alike.of_perm`).
-/

namespace BundleAudit.Reports

variable {rs qs : Reports} {r : Report}

/-- The names of reports. -/
def names (rs : Reports) : List Text := rs.map (·.name)

theorem add_of_new (h : r.name ∉ rs.names) : rs.add r = rs ++ [r] := by
  induction rs with
  | nil => rfl
  | cons first rest ih =>
      obtain ⟨hne, hrest⟩ := not_or.1 fun h' => h (List.mem_cons.2 h')
      rw [add, if_neg (Ne.symm hne), ih hrest, List.cons_append]

/-- Where names are distinct, a report is found under its name. -/
theorem get?_eq_some (hnames : rs.names.Nodup) (h : r ∈ rs) : rs.get? r.name = some r := by
  have hsome : (rs.get? r.name).isSome = true :=
    List.find?_isSome.2 ⟨r, h, decide_eq_true rfl⟩
  obtain ⟨q, hq⟩ := Option.isSome_iff_exists.1 hsome
  have hname : q.name = r.name := by simpa using List.find?_some hq
  rw [hq, List.inj_on_of_nodup_map hnames (List.mem_of_find?_eq_some hq) h hname]

theorem get?_eq_none {name : Text} (h : name ∉ rs.names) : rs.get? name = none := by
  refine List.find?_eq_none.2 fun r hr hname => h ?_
  exact List.mem_map.2 ⟨r, hr, of_decide_eq_true hname⟩

theorem foldl_add_eq_of_perm (f : Report → Nat) (h : rs.Perm qs) :
    rs.foldl (fun n r => n + f r) 0 = qs.foldl (fun n r => n + f r) 0 :=
  h.foldl_eq' (fun _ _ _ _ _ => Nat.add_right_comm _ _ _) 0

/-- Nothing that is asked of them tells the collections apart. -/
structure Alike (rs qs : Reports) : Prop where
  /-- They hold the same reports. -/
  perm : rs.Perm qs
  get? : ∀ name, rs.get? name = qs.get? name
  ordered : rs.ordered = qs.ordered
  total : rs.total = qs.total
  countByKind : rs.countByKind = qs.countByKind
  summary : rs.summary = qs.summary

/-- The order in which reports with distinct names came is not seen. -/
theorem Alike.of_perm (h : rs.Perm qs) (hnames : rs.names.Nodup) : Alike rs qs := by
  have hnames' : qs.names.Nodup := (h.map _).nodup_iff.1 hnames
  have hordered : rs.ordered = qs.ordered := Text.sortBy_eq_of_perm h hnames
  have htotal : rs.total = qs.total := foldl_add_eq_of_perm (·.problems) h
  have hcount : rs.countByKind = qs.countByKind :=
    List.map_congr_left fun k _ => congrArg (k, ·) (foldl_add_eq_of_perm (·.count k) h)
  refine ⟨h, fun name => ?_, hordered, htotal, hcount, ?_⟩
  · by_cases hname : name ∈ rs.names
    · obtain ⟨r, hr, rfl⟩ := List.mem_map.1 hname
      rw [get?_eq_some hnames hr, get?_eq_some hnames' (h.mem_iff.1 hr)]
    · rw [get?_eq_none hname, get?_eq_none fun h' => hname ((h.map _).mem_iff.2 h')]
  · simp only [Reports.summary, htotal, hcount, hordered]

end BundleAudit.Reports
