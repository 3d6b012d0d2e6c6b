import BundleAudit.Files.Write
import BundleAudit.Proofs.Json.Reading
import BundleAudit.Proofs.Report.Aggregation
import BundleAudit.Report.Collection
import Mathlib.Data.List.TakeWhile

/-!
# BundleAudit.Proofs.Report.Agreement

**All reports of a run say the same.** What a collection of reports holds is one list of
findings (`Reports.listed`): by module, by kind, and as they were added. The lines of the
findings file are read back as this list, the summary counts its members, and the lines
shown about a module are those of its part of the list (`agree_ofList`).

A finding keeps to its line because what is written for it holds no line feed, whatever
its message is.
-/

namespace BundleAudit

/-! ### Texts that can be written -/

/-- Where a file can be opened, texts are written to it without a failure, and it then
holds a text. -/
def Tree.AreWrittenAs (texts : List Text) (text : Text) : Prop :=
  ∀ (t t' : Tree) (path : Text) (l : Location), t.openEmpty path = .ok (t', l) →
    ∃ bytes, t.writeInPlace path texts = (t'.put l (.file bytes), none) ∧
      Text.ofUtf8? bytes = some text

theorem Tree.areWrittenAs_flatten {texts : List Text}
    (h : ∀ text ∈ texts, text.all Code.isScalar = true) :
    Tree.AreWrittenAs texts texts.flatten := by
  intro t t' path l hopen
  have hall : texts.takeWhile (·.all Code.isScalar) = texts := List.takeWhile_eq_self_iff.2 h
  refine ⟨texts.flatMap (·.flatMap Text.utf8Code), ?_, ?_⟩
  · rw [Tree.writeInPlace, hopen]
    simp only [hall, if_pos]
  · have hflat : texts.flatMap (·.flatMap Text.utf8Code) = texts.flatten.flatMap Text.utf8Code := by
      rw [List.flatten_eq_flatMap, List.flatMap_assoc]
      rfl
    have hscalar : texts.flatten.all Code.isScalar = true := by
      rw [List.all_flatten, List.all_eq_true]
      exact h
    rw [hflat, Text.ofUtf8?_flatMap hscalar]

theorem Finding.Kind.isScalar_name (k : Finding.Kind) : k.name.all Code.isScalar = true := by
  cases k <;> decide

theorem FileKind.isScalar_name (k : FileKind) : k.name.all Code.isScalar = true := by
  cases k <;> decide

namespace Report

variable {r q : Report}

/-- Whether the texts of a report hold no surrogates. -/
def isScalar (r : Report) : Bool :=
  r.name.all Code.isScalar &&
    r.findings.all fun f => f.file.all Code.isScalar && f.message.all Code.isScalar

theorem mem_findings_of_mem_byKind {f : Finding} (h : f ∈ r.byKind) : f ∈ r.findings := by
  obtain ⟨k, -, hf⟩ := List.mem_flatMap.1 h
  exact (List.mem_filter.1 hf).1

theorem isScalar_merge (hr : r.isScalar = true) (hq : q.isScalar = true) :
    (r.merge q).isScalar = true := by
  obtain ⟨hname, hfindings⟩ := Bool.and_eq_true_iff.1 hr
  obtain ⟨-, hothers⟩ := Bool.and_eq_true_iff.1 hq
  refine Bool.and_eq_true_iff.2 ⟨hname, ?_⟩
  rw [merge, List.all_append, hfindings, Bool.true_and]
  exact List.all_eq_true.2 fun f hf =>
    List.all_eq_true.1 hothers f (mem_findings_of_mem_byKind hf)

theorem isScalar_texts_summary (h : r.isScalar = true) :
    ∀ t ∈ r.summary.texts, t.all Code.isScalar = true := by
  intro t ht
  simp only [summary, fileSummary, Json.texts, Json.textsOfMembers, Json.mem_textsOfMembers,
    List.mem_map, List.mem_cons, List.mem_append, List.not_mem_nil, or_false, or_assoc] at ht
  rcases ht with rfl | rfl | rfl | rfl | ⟨p, ⟨k, -, rfl⟩, hp⟩ | rfl | ⟨p, ⟨k, -, rfl⟩, hp⟩
  · decide
  · exact (Bool.and_eq_true_iff.1 h).1
  · decide
  · decide
  · rcases hp with rfl | hp
    · exact FileKind.isScalar_name k
    · cases hp
  · decide
  · rcases hp with rfl | hp
    · exact Finding.Kind.isScalar_name k
    · cases hp

theorem length_byKind (r : Report) : r.byKind.length = r.problems := by
  rw [byKind, List.length_flatMap, problems_eq_sum_count]
  rfl

/-- The kinds of which there are findings. -/
def kindsHeld (r : Report) : List Finding.Kind := Finding.Kind.all.filter fun k => r.ofKind k ≠ []

theorem flatMap_renderKind (r : Report) (kinds : List Finding.Kind) :
    kinds.flatMap r.renderKind = (kinds.filter fun k => r.ofKind k ≠ []).flatMap fun k =>
      k.description :: (r.ofKind k).map Finding.render := by
  induction kinds with
  | nil => rfl
  | cons k rest ih =>
      rw [List.flatMap_cons, ih, renderKind]
      cases hk : r.ofKind k with
      | nil => simp [hk]
      | cons f more => simp [hk]

theorem length_flatMap_renderKind (r : Report) (kinds : List Finding.Kind) :
    (kinds.flatMap r.renderKind).length =
      (kinds.filter fun k => r.ofKind k ≠ []).length + (kinds.map r.count).sum := by
  induction kinds with
  | nil => rfl
  | cons k rest ih =>
      rw [List.flatMap_cons, List.length_append, ih, List.map_cons, List.sum_cons,
        renderKind, count]
      cases hk : r.ofKind k with
      | nil => simp [hk]
      | cons f more =>
          simp [hk]
          omega

end Report

namespace Reports

variable {rs : Reports} {r : Report} {inputs : List Report}

theorem isScalar_add (hrs : ∀ q ∈ rs, q.isScalar = true) (hr : r.isScalar = true) :
    ∀ q ∈ rs.add r, q.isScalar = true := by
  induction rs with
  | nil => exact List.forall_mem_singleton.2 hr
  | cons first rest ih =>
      obtain ⟨hfirst, hrest⟩ := List.forall_mem_cons.1 hrs
      rw [add]
      split
      · exact List.forall_mem_cons.2 ⟨Report.isScalar_merge hfirst hr, hrest⟩
      · exact List.forall_mem_cons.2 ⟨hfirst, ih hrest⟩

theorem isScalar_ofList (h : ∀ r ∈ inputs, r.isScalar = true) :
    ∀ r ∈ ofList inputs, r.isScalar = true := by
  induction inputs using List.reverseRecOn with
  | nil => exact nofun
  | append_singleton inputs r ih =>
      rw [List.forall_mem_append, List.forall_mem_singleton] at h
      rw [ofList_concat]
      exact isScalar_add (ih h.1) h.2

/-! ### The list of all findings -/

/-- All findings with the names of their modules: by module, by kind, and as they were added. -/
def listed (rs : Reports) : List (Text × Finding) :=
  rs.ordered.flatMap fun r => r.byKind.map fun f => (r.name, f)

theorem records_eq_map_listed (rs : Reports) :
    rs.records = rs.listed.map fun p => Json.write .line (record p.1 p.2) ++ [Code.lineFeed] := by
  rw [records, listed, List.map_flatMap]
  simp only [List.map_map]
  rfl

theorem sum_map_ordered (f : Report → Nat) (rs : Reports) :
    (rs.ordered.map f).sum = rs.foldl (fun n r => n + f r) 0 := by
  rw [foldl_add_eq_sum]
  exact ((Text.perm_sortBy Report.name rs).map f).sum_nat

theorem length_listed (rs : Reports) : rs.listed.length = rs.total := by
  rw [listed, List.length_flatMap, total, ← sum_map_ordered]
  simp only [List.length_map, Report.length_byKind]

/-- How many of the findings are of a kind. -/
def countOfKind (rs : Reports) (k : Finding.Kind) : Nat := rs.listed.countP fun p => p.2.kind = k

/-- How many of the findings are of a module. -/
def countOfModule (rs : Reports) (name : Text) : Nat := rs.listed.countP fun p => p.1 = name

theorem countByKind_eq (rs : Reports) :
    rs.countByKind = Finding.Kind.all.map fun k => (k, rs.countOfKind k) := by
  refine List.map_congr_left fun k _ => congrArg (k, ·) ?_
  rw [← sum_map_ordered, countOfKind, listed, List.countP_flatMap]
  refine congrArg List.sum (List.map_congr_left fun r _ => ?_)
  rw [Function.comp_apply, List.countP_map, List.countP_eq_length_filter, Report.count,
    ← Report.ofKind_byKind]
  rfl

/-- Where names are distinct, the part of a module is what its report holds. -/
theorem filter_flatMap_of_mem {reports : List Report} (hnames : (reports.map (·.name)).Nodup)
    (hr : r ∈ reports) :
    (reports.flatMap fun q => q.byKind.map fun f => (q.name, f)).filter (·.1 = r.name) =
      r.byKind.map fun f => (r.name, f) := by
  induction reports with
  | nil => cases hr
  | cons q rest ih =>
      obtain ⟨hnew, hrest⟩ := List.nodup_cons.1 hnames
      rw [List.flatMap_cons, List.filter_append]
      rcases List.mem_cons.1 hr with rfl | hr
      · have hfirst : (r.byKind.map fun f => (r.name, f)).filter (·.1 = r.name) =
            r.byKind.map fun f => (r.name, f) := List.filter_eq_self.2 fun p hp => by
          obtain ⟨f, -, rfl⟩ := List.mem_map.1 hp
          exact decide_eq_true rfl
        have hothers : (rest.flatMap fun q => q.byKind.map fun f => (q.name, f)).filter
            (·.1 = r.name) = [] := List.filter_eq_nil_iff.2 fun p hp hname => by
          obtain ⟨q, hq, hp⟩ := List.mem_flatMap.1 hp
          obtain ⟨f, -, rfl⟩ := List.mem_map.1 hp
          exact hnew (List.mem_map.2 ⟨q, hq, of_decide_eq_true hname⟩)
        rw [hfirst, hothers, List.append_nil]
      · have hne : q.name ≠ r.name := fun heq => hnew (List.mem_map.2 ⟨r, hr, heq.symm⟩)
        have hfirst : (q.byKind.map fun f => (q.name, f)).filter (·.1 = r.name) = [] :=
          List.filter_eq_nil_iff.2 fun p hp hname => by
            obtain ⟨f, -, rfl⟩ := List.mem_map.1 hp
            exact hne (of_decide_eq_true hname)
        rw [hfirst, List.nil_append, ih hrest hr]

theorem nodup_names_ordered (h : rs.names.Nodup) : rs.ordered.names.Nodup :=
  ((Text.perm_sortBy Report.name rs).map Report.name).nodup_iff.2 h

theorem countOfModule_eq (h : rs.names.Nodup) (hr : r ∈ rs.ordered) :
    rs.countOfModule r.name = r.problems := by
  rw [countOfModule, List.countP_eq_length_filter, listed,
    filter_flatMap_of_mem (nodup_names_ordered h) hr, List.length_map, Report.length_byKind]

/-- The part of a kind of a module. -/
theorem map_filter_listed (h : rs.names.Nodup) (hr : r ∈ rs.ordered) (k : Finding.Kind) :
    (rs.listed.filter fun p => p.1 = r.name ∧ p.2.kind = k).map Prod.snd = r.ofKind k := by
  have hboth : (rs.listed.filter fun p => p.1 = r.name ∧ p.2.kind = k) =
      (rs.listed.filter (·.1 = r.name)).filter (·.2.kind = k) := by
    rw [List.filter_filter]
    exact List.filter_congr fun p _ => by simp [Bool.and_comm]
  rw [hboth, listed, filter_flatMap_of_mem (nodup_names_ordered h) hr, List.filter_map,
    List.map_map, ← Report.ofKind_byKind]
  exact List.map_id _

/-- What is listed is what was added: of each kind the findings of all reports of a name. -/
theorem listed_ofList (inputs : List Report) :
    (ofList inputs).listed = (ofList inputs).ordered.names.flatMap fun name =>
      Finding.Kind.all.flatMap fun k =>
        ((inputs.filter (·.name = name)).flatMap (·.ofKind k)).map fun f => (name, f) := by
  rw [listed, names, List.flatMap_map]
  refine List.flatMap_congr fun r hr => ?_
  have hmerged := get?_ofList inputs r.name
  rw [get?_eq_some (nodup_names_ofList inputs) (mem_ordered.1 hr)] at hmerged
  rw [Report.byKind, List.map_flatMap]
  exact List.flatMap_congr fun k _ => by rw [(Report.of_mergeAll?_eq_some hmerged.symm).1 k]

/-! ### The records -/

theorem isScalar_of_mem_listed (h : ∀ r ∈ rs, r.isScalar = true) {p : Text × Finding}
    (hp : p ∈ rs.listed) : p.1.all Code.isScalar = true ∧ p.2.file.all Code.isScalar = true ∧
      p.2.message.all Code.isScalar = true := by
  obtain ⟨r, hr, hp⟩ := List.mem_flatMap.1 hp
  obtain ⟨f, hf, rfl⟩ := List.mem_map.1 hp
  obtain ⟨hname, hfindings⟩ := Bool.and_eq_true_iff.1 (h r (mem_ordered.1 hr))
  have hf := List.all_eq_true.1 hfindings f (Report.mem_findings_of_mem_byKind hf)
  exact ⟨hname, Bool.and_eq_true_iff.1 hf⟩

theorem isScalar_texts_record (h : ∀ r ∈ rs, r.isScalar = true) {p : Text × Finding}
    (hp : p ∈ rs.listed) : ∀ t ∈ (record p.1 p.2).texts, t.all Code.isScalar = true := by
  obtain ⟨hname, hfile, hmessage⟩ := isScalar_of_mem_listed h hp
  have hkind := Finding.Kind.isScalar_name p.2.kind
  intro t ht
  simp only [record, Json.texts, Json.textsOfMembers, List.cons_append, List.nil_append,
    List.mem_cons, List.not_mem_nil, or_false] at ht
  rcases ht with rfl | rfl | rfl | rfl | rfl | rfl | rfl | rfl | rfl
  · decide
  · exact hname
  · decide
  · exact hkind
  · decide
  · exact hfile
  · decide
  · decide
  · exact hmessage

theorem isScalar_of_mem_records (h : ∀ r ∈ rs, r.isScalar = true) :
    ∀ text ∈ rs.records, text.all Code.isScalar = true := by
  intro text htext
  rw [records_eq_map_listed] at htext
  obtain ⟨p, hp, rfl⟩ := List.mem_map.1 htext
  rw [List.all_append, Json.isScalar_write (.inr (isScalar_texts_record h hp))]
  rfl

theorem isScalar_texts_summary (h : ∀ r ∈ rs, r.isScalar = true) :
    ∀ t ∈ rs.summary.texts, t.all Code.isScalar = true := by
  intro t ht
  simp only [summary, Json.texts, Json.textsOfMembers, Json.mem_textsOfMembers,
    Json.mem_textsOfItems, List.mem_map, List.mem_cons, List.mem_append, List.not_mem_nil,
    or_false, or_assoc] at ht
  rcases ht with rfl | rfl | ⟨p, ⟨⟨k, n⟩, -, rfl⟩, hp⟩ | rfl | ⟨v, ⟨r, hr, rfl⟩, hv⟩
  · decide
  · decide
  · rcases hp with rfl | hp
    · exact Finding.Kind.isScalar_name k
    · cases hp
  · decide
  · exact Report.isScalar_texts_summary (h r (mem_ordered.1 hr)) t hv

/-! ### Agreement -/

/-- The reports of a collection say the same about the findings that were added. -/
structure Agree (inputs : List Report) (rs : Reports) : Prop where
  /-- Modules come in the ascending order of their names, -/
  ascending : rs.ordered.names.Pairwise fun a b => a.lt b = true
  mem_names_iff : ∀ name, name ∈ rs.ordered.names ↔ ∃ r ∈ inputs, r.name = name
  /-- and of each the findings kind by kind, as they were added. -/
  listed : rs.listed = rs.ordered.names.flatMap fun name => Finding.Kind.all.flatMap fun k =>
    ((inputs.filter (·.name = name)).flatMap (·.ofKind k)).map fun f => (name, f)
  /-- The file of the findings holds as many lines as there are findings, and the lines are
  read back as the findings. -/
  lines : ∃ lines : List Text, Tree.AreWrittenAs rs.records (Text.ofLines lines) ∧
    (∀ line ∈ lines, Code.lineFeed ∉ line) ∧ lines.length = rs.total ∧
    lines.map Json.read? = rs.listed.map fun p => some (record p.1 p.2)
  /-- The file of the summary is read back as the summary, which counts the findings. -/
  summary : ∃ text, Tree.AreWrittenAs [Json.write .block rs.summary] text ∧
    Json.read? text = some rs.summary
  total : rs.summary.member? "total_problems" = some (.number rs.listed.length)
  kinds : rs.summary.member? "kinds" = some (.object
    ((Finding.Kind.all.filter fun k => rs.countOfKind k ≠ 0).map fun k =>
      (k.name, .number (rs.countOfKind k))))
  modules : ∃ modules, rs.summary.member? "modules" = some (.list modules) ∧
    (modules.map (·.member? "module") = rs.ordered.names.map fun name => some (.text name)) ∧
    modules.map (·.member? "problems") =
      rs.ordered.names.map fun name => some (.number (rs.countOfModule name))
  /-- What is shown about a module is its summary, and of each of its kinds the heading and
  the findings. -/
  shown : ∀ r ∈ rs.ordered, r.render true = r.summaryLine :: r.kindsHeld.flatMap fun k =>
    k.description ::
      (rs.listed.filter fun p => p.1 = r.name ∧ p.2.kind = k).map fun p => p.2.render
  length_shown : ∀ r ∈ rs.ordered,
    (r.render true).length = 1 + r.kindsHeld.length + r.problems

theorem agree_ofList (h : ∀ r ∈ inputs, r.isScalar = true) : Agree inputs (ofList inputs) := by
  have hnames := nodup_names_ofList inputs
  have hscalar := isScalar_ofList h
  have hall := aggregates_of_perm (List.Perm.refl inputs)
  generalize hrs : ofList inputs = rs at *
  constructor
  case ascending => exact hall.ascending
  case mem_names_iff => exact hall.mem_names_iff
  case listed => exact hrs ▸ listed_ofList inputs
  case lines =>
      have htexts := fun p hp => isScalar_texts_record hscalar (p := p) hp
      refine ⟨rs.listed.map fun p => Json.write .line (record p.1 p.2), ?_, ?_, ?_, ?_⟩
      · have hflat : Text.ofLines (rs.listed.map fun p => Json.write .line (record p.1 p.2)) =
            rs.records.flatten := by
          rw [records_eq_map_listed, Text.ofLines, List.flatMap_map, List.flatMap_def]
        rw [hflat]
        exact Tree.areWrittenAs_flatten (isScalar_of_mem_records hscalar)
      · intro line hline
        obtain ⟨p, hp, rfl⟩ := List.mem_map.1 hline
        exact Json.lineFeed_not_mem_write _
      · rw [List.length_map, length_listed]
      · rw [List.map_map]
        exact List.map_congr_left fun p hp => Json.read?_write .line (htexts p hp)
  case summary =>
      have htexts := isScalar_texts_summary hscalar
      refine ⟨Json.write .block rs.summary, ?_, Json.read?_write .block htexts⟩
      have hwritten : Tree.AreWrittenAs [Json.write .block rs.summary]
          [Json.write .block rs.summary].flatten :=
        Tree.areWrittenAs_flatten (List.forall_mem_singleton.2 (Json.isScalar_write (.inl rfl)))
      rwa [List.flatten_singleton] at hwritten
  case total =>
      rw [length_listed]
      rfl
  case kinds =>
      have hkinds : (rs.countByKind.filter fun p => p.2 ≠ 0) =
          (Finding.Kind.all.filter fun k => rs.countOfKind k ≠ 0).map fun k =>
            (k, rs.countOfKind k) := by
        rw [countByKind_eq, List.filter_map]
        rfl
      show some (Json.object ((rs.countByKind.filter fun p => p.2 ≠ 0).map _)) = _
      rw [hkinds, List.map_map]
      rfl
  case modules =>
      refine ⟨rs.ordered.map Report.summary, rfl, ?_, ?_⟩
      · rw [names, List.map_map, List.map_map]
        rfl
      · rw [names, List.map_map, List.map_map]
        exact List.map_congr_left fun r hr => by
          rw [Function.comp_apply, Function.comp_apply, countOfModule_eq hnames hr]
          rfl
  case shown =>
      intro r hr
      rw [Report.render, if_pos rfl, Report.flatMap_renderKind]
      refine congrArg (r.summaryLine :: ·) (List.flatMap_congr fun k _ => ?_)
      rw [← map_filter_listed hnames hr k, List.map_map]
      rfl
  case length_shown =>
      intro r _
      rw [Report.render, if_pos rfl, List.length_cons, Report.length_flatMap_renderKind,
        Report.problems_eq_sum_count, Nat.add_comm _ 1, Nat.add_assoc]
      rfl

/-- Two reports on one module and one on another, with texts that need escapes. -/
def escapedReports : List Report :=
  [{ name := "n", findings := [⟨.unreadableFile, "a\"b", 1, "\\ \n \t"⟩] },
    { name := "m", findings := [⟨.missingKey, "c", 3, [0x01, 0x2028, 0x1F600]⟩] },
    { name := "n", findings := [⟨.missingKey, "d", 0, []⟩], files := [.source] }]

theorem agree_ofList_sample :
    (∀ r ∈ escapedReports, r.isScalar = true) ∧ (ofList escapedReports).total = 3 ∧
      Agree escapedReports (ofList escapedReports) :=
  ⟨by decide +kernel, by decide +kernel, agree_ofList (by decide +kernel)⟩

end Reports

end BundleAudit
