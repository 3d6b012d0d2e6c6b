import BundleAudit.Manifest
import BundleAudit.Proofs.KeyedList
import BundleAudit.Proofs.Text.Whole

/-!
# BundleAudit.Proofs.Manifest

**What depends on where the lines of a manifest are wrapped.** A value may go on in further
lines, each of which begins with a space. The lines of one attribute are read as one
assignment (`attributes_wrapped`): what stands in its own line is trimmed, and what
follows is put behind it as it is. So wrapping a value elsewhere leaves all other
attributes, and which attributes there are, as they are.

Blanks at the end of the attribute's own line are lost even where text follows them. So a
value itself stays the same up to its ends just if no such blanks stand between texts
(`Joins`), and what the manifest says about its module stays the same with it, unless
nothing but blanks becomes the value where there was none (`alikeButEnds_wrapped_iff`).
-/

namespace BundleAudit

namespace Text

/-! ### Trimming texts that stand side by side -/

variable {a b c t : Text}

/-- Whether a blank stands at the end. -/
def endsBlank (t : Text) : Bool := t.getLast?.any Code.isBlank

theorem trimLeft_append (a b : Text) :
    trimLeft (a ++ b) = if a.isBlank then trimLeft b else trimLeft a ++ b := by
  induction a with
  | nil => rfl
  | cons c rest ih =>
      unfold trimLeft isBlank at *
      rw [List.cons_append, List.dropWhile_cons, List.dropWhile_cons, List.all_cons]
      cases c.isBlank with
      | true => exact ih
      | false => rfl

theorem trimRight_append (a b : Text) :
    trimRight (a ++ b) = if b.isBlank then trimRight a else a ++ trimRight b := by
  have hreverse : isBlank b.reverse = b.isBlank := List.all_reverse
  have hleft := trimLeft_append b.reverse a.reverse
  rw [hreverse] at hleft
  unfold trimRight dropTrailing
  rw [List.reverse_append]
  unfold trimLeft at hleft
  rw [hleft]
  split
  · rfl
  · rw [List.reverse_append, List.reverse_reverse]

theorem trimRight_eq_nil (h : t.isBlank = true) : t.trimRight = [] := by
  rw [← List.nil_append t, trimRight_append, if_pos h]
  rfl

theorem trim_eq_nil (h : t.isBlank = true) : t.trim = [] := by
  rw [trim, ← List.append_nil t, trimLeft_append, if_pos h]
  rfl

theorem trim_append_of_isBlank (h : b.isBlank = true) (a : Text) : trim (a ++ b) = a.trim := by
  cases ha : a.isBlank with
  | true => rw [trim_eq_nil ha, trim, trimLeft_append, if_pos ha, ← trim, trim_eq_nil h]
  | false =>
      rw [trim, trimLeft_append, if_neg (by simp [ha]), trimRight_append, if_pos h, trim]

theorem trim_append_of_isBlank_left (h : a.isBlank = true) (b : Text) :
    trim (a ++ b) = b.trim := by
  rw [trim, trimLeft_append, if_pos h, trim]

theorem trim_append (ha : a.isBlank = false) (hb : b.isBlank = false) :
    trim (a ++ b) = a.trimLeft ++ b.trimRight := by
  rw [trim, trimLeft_append, if_neg (by simp [ha]), trimRight_append, if_neg (by simp [hb])]

theorem isBlank_append (a b : Text) : isBlank (a ++ b) = (a.isBlank && b.isBlank) := List.all_append

theorem isBlank_trimLeft (t : Text) : isBlank t.trimLeft = t.isBlank := by
  have hcut : t.isBlank = (t.takeWhile Code.isBlank ++ t.trimLeft).all Code.isBlank :=
    congrArg isBlank List.takeWhile_append_dropWhile.symm
  rw [hcut, List.all_append, List.all_takeWhile, Bool.true_and, isBlank]

theorem isBlank_trimRight (t : Text) : isBlank t.trimRight = t.isBlank := by
  have hreverse := isBlank_trimLeft t.reverse
  unfold isBlank trimLeft at hreverse
  rw [List.all_reverse] at hreverse
  rw [isBlank, trimRight, dropTrailing, List.all_reverse, hreverse, isBlank]

theorem isBlank_trim (t : Text) : isBlank t.trim = t.isBlank := by
  rw [trim, isBlank_trimRight, isBlank_trimLeft]

theorem trimLeft_trim (t : Text) : t.trim.trimLeft = t.trim := by
  rcases trim_cases t with h | ⟨c, rest, hc, h⟩
  · rw [h]; rfl
  · rw [h, trimLeft_cons hc]

theorem trimRight_eq_self_iff {t : Text} : t.trimRight = t ↔ t.endsBlank = false := by
  induction t using List.reverseRecOn with
  | nil => exact iff_of_true rfl rfl
  | append_singleton before c _ =>
      rw [trimRight_concat_eq_self_iff, endsBlank, List.getLast?_concat, Option.any_some]

theorem endsBlank_append (a : Text) (hb : b ≠ []) : endsBlank (a ++ b) = b.endsBlank := by
  rw [endsBlank, List.getLast?_append, List.getLast?_eq_some_getLast hb, Option.some_or, endsBlank,
    List.getLast?_eq_some_getLast hb]

theorem ne_nil_of_isBlank_eq_false (h : t.isBlank = false) : t ≠ [] := by
  rintro rfl
  cases h

/-- A blank text ends in a blank unless it is empty. -/
theorem endsBlank_eq_false_iff (h : t.isBlank = true) : t.endsBlank = false ↔ t = [] := by
  rw [← trimRight_eq_self_iff, trimRight_eq_nil h, eq_comm]

theorem endsBlank_trimLeft (h : t.isBlank = false) : t.trimLeft.endsBlank = t.endsBlank := by
  have hne : t.trimLeft ≠ [] := ne_nil_of_isBlank_eq_false (by rw [isBlank_trimLeft, h])
  have hcut : t = t.takeWhile Code.isBlank ++ t.trimLeft := List.takeWhile_append_dropWhile.symm
  rw [← endsBlank_append _ hne, ← hcut]

theorem trim_eq_trimLeft_iff (h : t.isBlank = false) :
    t.trim = t.trimLeft ↔ t.endsBlank = false := by
  rw [trim, trimRight_eq_self_iff, endsBlank_trimLeft h]

/-- Trimming one of two texts gives what trimming the other one gives just if none is trimmed. -/
theorem trimRight_append_eq_iff (ha : a.isBlank = false) (hb : b.isBlank = false) :
    a.trimLeft ++ b.trimRight = a.trim ++ b ↔ a.endsBlank = false ∧ b.endsBlank = false := by
  constructor
  · intro h
    -- the text on the left does not end in a blank
    have hend : b.endsBlank = false := by
      have hne : b.trimRight ≠ [] := ne_nil_of_isBlank_eq_false (by rw [isBlank_trimRight, hb])
      have hlast := congrArg endsBlank h
      rw [endsBlank_append _ hne, endsBlank_append _ (ne_nil_of_isBlank_eq_false hb),
        trimRight_eq_self_iff.1 (trimRight_trimRight b)] at hlast
      exact hlast.symm
    rw [trimRight_eq_self_iff.2 hend] at h
    exact ⟨(trim_eq_trimLeft_iff ha).1 (List.append_cancel_right h).symm, hend⟩
  · rintro ⟨haend, hbend⟩
    rw [trimRight_eq_self_iff.2 hbend, (trim_eq_trimLeft_iff ha).2 haend]

/-- If `b` is put behind `a`, and `c` behind both, no blanks at the end of `a` or of `b` stand
between texts. -/
def Joins (a b c : Text) : Prop :=
  (a.endsBlank = false ∨ a.isBlank = true ∨ b.isBlank = true) ∧
    (b.endsBlank = false ∨ (a.isBlank = true ∧ b.isBlank = true) ∨ c.isBlank = true)

instance (a b c : Text) : Decidable (Joins a b c) := inferInstanceAs (Decidable (_ ∧ _))

/-- Trimming `a` with `b` behind it and trimming `a` alone come to the same, up to the ends of what
is put together, just if no blanks between texts are taken away. -/
theorem trim_trim_append_eq_iff (a b c : Text) :
    trim (trim (a ++ b) ++ c) = trim (a.trim ++ (b ++ c)) ↔ Joins a b c := by
  have hbc : isBlank (b ++ c) = (b.isBlank && c.isBlank) := isBlank_append b c
  cases ha : a.isBlank with
  | true =>
      rw [trim_append_of_isBlank_left ha, trim_eq_nil ha, List.nil_append]
      cases hb : b.isBlank with
      | true =>
          rw [trim_eq_nil hb, trim_append_of_isBlank_left hb]
          simp [Joins, ha, hb]
      | false =>
          cases hc : c.isBlank with
          | true =>
              rw [trim_append_of_isBlank hc, trim_append_of_isBlank hc, trim_trim]
              simp [Joins, ha, hc]
          | false =>
              rw [trim_append ((isBlank_trim b).trans hb) hc, trim_append hb hc, trimLeft_trim,
                List.append_cancel_right_eq, trim_eq_trimLeft_iff hb]
              simp [Joins, ha, hb, hc]
  | false =>
      have hempty : isBlank a.trim = false := (isBlank_trim a).trans ha
      cases hb : b.isBlank with
      | true =>
          rw [trim_append_of_isBlank hb]
          cases hc : c.isBlank with
          | true =>
              rw [trim_append_of_isBlank hc, trim_append_of_isBlank (by rw [hbc, hb, hc]; rfl)]
              simp [Joins, hb, hc]
          | false =>
              rw [trim_append hempty hc, trim_append hempty (by rw [hbc, hb, hc]; rfl),
                trimRight_append, if_neg (by simp [hc]), List.append_cancel_left_eq, eq_comm,
                List.append_left_eq_self, ← endsBlank_eq_false_iff hb]
              simp [Joins, ha, hb, hc]
      | false =>
          have hab : isBlank (trim (a ++ b)) = false := by
            rw [isBlank_trim, isBlank_append, ha, Bool.false_and]
          rw [trim_append hempty (by rw [hbc, hb, Bool.false_and]), trimLeft_trim, trimRight_append]
          cases hc : c.isBlank with
          | true =>
              rw [trim_append_of_isBlank hc, trim_trim, trim_append ha hb, if_pos rfl,
                List.append_cancel_right_eq, eq_comm, trim_eq_trimLeft_iff ha]
              simp [Joins, ha, hb, hc]
          | false =>
              rw [trim_append hab hc, trimLeft_trim, trim_append ha hb, if_neg Bool.false_ne_true,
                ← List.append_assoc, List.append_cancel_right_eq, trimRight_append_eq_iff ha hb]
              simp [Joins, ha, hb, hc]

end Text

namespace Manifest

variable {name first : Text} {pieces before after : List Text}

/-! ### Lines that go on -/

/-- A line that goes on with the value of the line before it. -/
def goesOn (line : Text) : Bool := line.head? == some Code.space

/-- What the first of several lines go on with. -/
def continuation (lines : List Text) : Text := (lines.takeWhile goesOn).flatMap List.tail

/-- The lines after those that go on. -/
def afterContinuation (lines : List Text) : List Text := lines.dropWhile goesOn

/-- The line that names an attribute and begins its value. -/
def headerLine (name value : Text) : Text := name ++ Code.colon :: Code.space :: value

/-- The lines of an attribute whose value is given in pieces, a line for each of them. -/
def wrappedLines (name first : Text) (pieces : List Text) : List Text :=
  headerLine name first :: pieces.map (Code.space :: ·)

theorem readLine_of_goesOn {line : Text} (h : goesOn line = true) (m : KeyedList Text Text)
    (key value : Text) :
    readLine ⟨m.set key value, some key⟩ line = ⟨m.set key (value ++ line.tail), some key⟩ := by
  obtain ⟨more, rfl⟩ := List.head?_eq_some_iff.1 (eq_of_beq h)
  show Reading.mk ((m.set key value).alter key [] (· ++ more)) (some key) = _
  rw [KeyedList.alter, KeyedList.get?_set_self, KeyedList.set_set]
  rfl

/-- Lines that go on put what they hold behind the value. -/
theorem foldl_readLine_goesOn {lines : List Text} (h : ∀ line ∈ lines, goesOn line = true)
    (m : KeyedList Text Text) (key value : Text) :
    lines.foldl readLine ⟨m.set key value, some key⟩ =
      ⟨m.set key (value ++ lines.flatMap List.tail), some key⟩ := by
  induction lines generalizing value with
  | nil => rw [List.foldl_nil, List.flatMap_nil, List.append_nil]
  | cons line rest ih =>
      obtain ⟨hline, hrest⟩ := List.forall_mem_cons.1 h
      rw [List.foldl_cons, readLine_of_goesOn hline, ih hrest, List.flatMap_cons, List.append_assoc]

/-- A line that goes on with nothing is read by itself. -/
theorem readLine_of_not_goesOn {line : Text} {r : Reading}
    (h : goesOn line = false ∨ r.last = none) :
    readLine r line =
      match line.cut? Code.colon with
      | none => { r with last := none }
      | some (name, value) => ⟨r.attributes.set name.trim value.trim, some name.trim⟩ := by
  unfold readLine
  split
  · next hlast =>
      rw [hlast] at h
      rcases h with h | h <;> cases h
  · rfl

/-- A line goes on with the value of the line before it, or is read by itself. -/
theorem readLine_cases (line : Text) (last : Option Text) :
    (∃ name more, last = some name ∧
      ∀ m, readLine ⟨m, last⟩ line = ⟨m.alter name [] (· ++ more), some name⟩) ∨
    (∀ m, readLine ⟨m, last⟩ line = ⟨m, none⟩) ∨
    ∃ name value, ∀ m, readLine ⟨m, last⟩ line = ⟨m.set name value, some name⟩ := by
  by_cases hself : goesOn line = false ∨ last = none
  · right
    cases hcut : line.cut? Code.colon with
    | none => exact .inl fun m => by rw [readLine_of_not_goesOn hself, hcut]
    | some parts => exact .inr ⟨_, _, fun m => by rw [readLine_of_not_goesOn hself, hcut]⟩
  · rw [not_or, Bool.not_eq_false] at hself
    obtain ⟨more, rfl⟩ := List.head?_eq_some_iff.1 (eq_of_beq hself.1)
    obtain ⟨name, rfl⟩ := Option.ne_none_iff_exists'.1 hself.2
    exact .inl ⟨name, more, rfl, fun _ => rfl⟩

theorem readLine_headerLine (hcolon : Code.colon ∉ name) (hspace : name.head? ≠ some Code.space)
    (value : Text) (r : Reading) :
    readLine r (headerLine name value) = ⟨r.attributes.set name.trim value.trim,
      some name.trim⟩ := by
  have hgoes : goesOn (headerLine name value) = false := by
    rw [goesOn, beq_eq_false_iff_ne]
    cases name with
    | nil => exact nofun
    | cons c rest => exact hspace
  rw [readLine_of_not_goesOn (.inl hgoes), headerLine, Text.cut?_append_cons hcolon]
  exact congrArg (Reading.mk · _) (congrArg (r.attributes.set _) rfl)

/-! ### Lines after an attribute -/

/-- The same lines were read from the start and after other attributes. -/
structure ReadsBehind (m : KeyedList Text Text) (s r : Reading) : Prop where
  last : r.last = s.last
  named : ∀ name, s.last = some name → ∃ value, s.attributes.get? name = some value
  /-- What the lines themselves say comes first. -/
  get? (name : Text) : r.attributes.get? name = (s.attributes.get? name).or (m.get? name)

theorem ReadsBehind.set {m : KeyedList Text Text} {s r : Reading} (h : ReadsBehind m s r)
    (name value : Text) :
    ReadsBehind m ⟨s.attributes.set name value, some name⟩
      ⟨r.attributes.set name value, some name⟩ where
  last := rfl
  named other hother := ⟨value, by rw [Option.some.inj hother, KeyedList.get?_set_self]⟩
  get? other := by
    rw [KeyedList.get?_set, KeyedList.get?_set, h.get? other]
    split <;> rfl

theorem ReadsBehind.readLine {m : KeyedList Text Text} {s r : Reading} (h : ReadsBehind m s r)
    (line : Text) : ReadsBehind m (readLine s line) (readLine r line) := by
  obtain ⟨sm, last⟩ := s
  obtain ⟨rm, last'⟩ := r
  obtain rfl : last' = last := h.last
  rcases readLine_cases line last' with ⟨name, more, rfl, hread⟩ | hread | ⟨name, value, hread⟩
  · -- what the line goes on with was named by the lines themselves
    obtain ⟨value, hvalue⟩ := h.named name rfl
    have hvalue' : rm.get? name = some value := by
      rw [h.get? name, hvalue, Option.some_or]
    rw [hread, hread, KeyedList.alter, KeyedList.alter, hvalue, hvalue']
    exact h.set name _
  · rw [hread, hread]
    exact ⟨rfl, nofun, h.get?⟩
  · rw [hread, hread]
    exact h.set name value

/-- What several lines say comes before what was said before them. -/
theorem get?_foldl_readLine (m : KeyedList Text Text) (lines : List Text) (name : Text) :
    (lines.foldl readLine ⟨m, none⟩).attributes.get? name =
      ((attributes lines).get? name).or (m.get? name) := by
  have hbehind : ∀ {s r}, ReadsBehind m s r →
      ReadsBehind m (lines.foldl Manifest.readLine s) (lines.foldl Manifest.readLine r) := by
    induction lines with
    | nil => exact id
    | cons line rest ih => exact fun h => ih (h.readLine line)
  exact (hbehind (s := {}) (r := ⟨m, none⟩) ⟨rfl, nofun, fun _ => rfl⟩).get? name

/-- Which names there are does not depend on values. -/
theorem keys_foldl_readLine (lines : List Text) {m m' : KeyedList Text Text}
    (hkeys : m.keys = m'.keys) (last : Option Text) :
    (lines.foldl readLine ⟨m, last⟩).attributes.keys =
      (lines.foldl readLine ⟨m', last⟩).attributes.keys := by
  induction lines generalizing m m' last with
  | nil => exact hkeys
  | cons line rest ih =>
      have hset : ∀ name value value', (m.set name value).keys = (m'.set name value').keys := by
        intro name value value'
        rw [KeyedList.keys_set, KeyedList.keys_set, hkeys]
      rw [List.foldl_cons, List.foldl_cons]
      rcases readLine_cases line last with ⟨name, more, -, hread⟩ | hread | ⟨name, value, hread⟩
      · rw [hread, hread]
        exact ih (hset _ _ _) _
      · rw [hread, hread]
        exact ih hkeys _
      · rw [hread, hread]
        exact ih (hset _ _ _) _

theorem foldl_readLine_afterContinuation (after : List Text) (r : Reading) :
    ((afterContinuation after).foldl readLine r).attributes =
      ((afterContinuation after).foldl readLine ⟨r.attributes, none⟩).attributes := by
  have hhead := List.head?_dropWhile_not goesOn after
  rw [afterContinuation]
  cases hlines : after.dropWhile goesOn with
  | nil => rfl
  | cons line rest =>
      rw [hlines] at hhead
      rw [List.foldl_cons, List.foldl_cons, readLine_of_not_goesOn (.inl hhead),
        readLine_of_not_goesOn (.inl hhead)]

/-- The lines of an attribute are read as one assignment. -/
theorem attributes_wrapped (hcolon : Code.colon ∉ name) (hspace : name.head? ≠ some Code.space)
    (before after : List Text) (first : Text) (pieces : List Text) :
    attributes (before ++ wrappedLines name first pieces ++ after) =
      ((afterContinuation after).foldl readLine
        ⟨(attributes before).set name.trim
          (first.trim ++ (pieces.flatten ++ continuation after)), none⟩).attributes := by
  have hcut : after = after.takeWhile goesOn ++ afterContinuation after :=
    List.takeWhile_append_dropWhile.symm
  have hgoes : ∀ line ∈ pieces.map (Code.space :: ·) ++ after.takeWhile goesOn,
      goesOn line = true := by
    intro line hline
    rcases List.mem_append.1 hline with hline | hline
    · obtain ⟨piece, -, rfl⟩ := List.mem_map.1 hline
      rfl
    · exact List.all_eq_true.1 List.all_takeWhile line hline
  have htails : (pieces.map (Code.space :: ·) ++ after.takeWhile goesOn).flatMap List.tail =
      pieces.flatten ++ continuation after := by
    rw [List.flatMap_append, List.flatMap_map]
    exact congrArg (· ++ _) List.flatMap_id
  conv_lhs => rw [hcut]
  rw [attributes, wrappedLines, ← List.append_assoc, List.append_assoc before, List.cons_append,
    List.foldl_append, List.foldl_append, List.foldl_cons, readLine_headerLine hcolon hspace,
    foldl_readLine_goesOn hgoes, foldl_readLine_afterContinuation, htails]
  rfl

/-! ### Wrapping -/

/-- Two manifests have the same attributes, but for the value of one. -/
structure AlikeBut (name : Text) (lines lines' : List Text) : Prop where
  keys : (attributes lines).keys = (attributes lines').keys
  others (other : Text) : other ≠ name →
    (attributes lines).get? other = (attributes lines').get? other
  platform : (ofLines lines).isPlatformModule = (ofLines lines').isPlatformModule

/-- The value of one attribute may differ at its ends, and nothing else. -/
structure AlikeButEnds (name : Text) (lines lines' : List Text) : Prop
    extends AlikeBut name lines lines' where
  value : ((attributes lines).get? name).map Text.trim =
    ((attributes lines').get? name).map Text.trim
  manifest : ofLines lines = ofLines lines'

/-- Blanks that stand for no value are not made into one. -/
def KeepsAbsence (name first next more : Text) : Prop :=
  name = catalogName ∨ name = layerName →
    Text.isBlank (first ++ next) = true → more = [] → next = []

/-- What is made of a value that may differ at its ends is the same just if both values are empty or
none is. -/
theorem AlikeBut.map_value?_eq_iff {α : Type} {lines lines' : List Text} {x y : Text}
    (h : AlikeBut name lines lines') (hx : (attributes lines).get? name = some x)
    (hy : (attributes lines').get? name = some y) (htrim : x.trim = y.trim) (used : Text)
    {f : Text → α} (hf : ∀ x y : Text, x.trim = y.trim → f x = f y) :
    (value? used (attributes lines)).map f = (value? used (attributes lines')).map f ↔
      (name = used → (x = [] ↔ y = [])) := by
  by_cases hused : name = used
  · rw [← hused, value?, value?, hx, hy, forall_prop_of_true rfl]
    cases x with
    | nil => cases y <;> simp [Option.filter]
    | cons c rest =>
        cases y with
        | nil => simp [Option.filter]
        | cons d more => simp [Option.filter, hf _ _ htrim]
  · rw [value?, value?, h.others used (Ne.symm hused)]
    exact iff_of_true rfl fun heq => absurd heq hused

theorem AlikeBut.ofLines_eq_iff {lines lines' : List Text} {x y : Text}
    (h : AlikeBut name lines lines') (hx : (attributes lines).get? name = some x)
    (hy : (attributes lines').get? name = some y) (htrim : x.trim = y.trim) :
    ofLines lines = ofLines lines' ↔
      (name = catalogName ∨ name = layerName → (x = [] ↔ y = [])) := by
  have hcatalog := h.map_value?_eq_iff hx hy htrim catalogName
    (f := fun catalog => directoryPart (catalog.trim.replaceCode Code.backslash Code.slash))
    fun x y hxy => by rw [hxy]
  have hlayer := h.map_value?_eq_iff hx hy htrim layerName (f := Text.trim) fun x y hxy => hxy
  rw [or_imp, ← hcatalog, ← hlayer]
  constructor
  · exact fun heq => ⟨congrArg Manifest.catalogPackage heq, congrArg Manifest.layerFile heq⟩
  · rintro ⟨hpackage, hfile⟩
    have hplatform := h.platform
    unfold ofLines ofAttributes at *
    dsimp only at hplatform
    rw [hpackage, hfile, hplatform]

/-- A value that is read in two ways is empty in none or in both, unless blanks are all it has. -/
theorem empty_iff_empty_iff (a b c : Text) :
    (Text.trim (a ++ b) ++ c = [] ↔ a.trim ++ (b ++ c) = []) ↔
      (Text.isBlank (a ++ b) = true → c = [] → b = []) := by
  have hnil : ∀ t : Text, t.trim = [] ↔ t.isBlank = true := fun t =>
    ⟨fun h => by rw [← Text.isBlank_trim, h]; rfl, Text.trim_eq_nil⟩
  rw [List.append_eq_nil_iff, List.append_eq_nil_iff, List.append_eq_nil_iff, hnil, hnil,
    Text.isBlank_append, Bool.and_eq_true]
  constructor
  · exact fun h hblank hc => (h.1 ⟨hblank, hc⟩).2.1
  · refine fun h => ⟨fun ⟨hblank, hc⟩ => ⟨hblank.1, h hblank hc, hc⟩, ?_⟩
    rintro ⟨ha, rfl, hc⟩
    exact ⟨⟨ha, rfl⟩, hc⟩

section

variable (hcolon : Code.colon ∉ name) (hspace : name.head? ≠ some Code.space)
  (before after : List Text) (first : Text) (pieces : List Text)

include hcolon hspace

theorem get?_attributes_wrapped (other : Text) :
    (attributes (before ++ wrappedLines name first pieces ++ after)).get? other =
      ((attributes (afterContinuation after)).get? other).or
        (if other = name.trim then some (first.trim ++ (pieces.flatten ++ continuation after))
          else (attributes before).get? other) := by
  rw [attributes_wrapped hcolon hspace, get?_foldl_readLine, KeyedList.get?_set]

/-- Where a value is wrapped matters to this value only. -/
theorem alikeBut_wrapped :
    AlikeBut name.trim (before ++ wrappedLines name (first ++ pieces.flatten) [] ++ after)
      (before ++ wrappedLines name first pieces ++ after) := by
  have hothers : ∀ other, other ≠ name.trim →
      (attributes (before ++ wrappedLines name (first ++ pieces.flatten) [] ++ after)).get? other =
        (attributes (before ++ wrappedLines name first pieces ++ after)).get? other := by
    intro other hother
    rw [get?_attributes_wrapped hcolon hspace, get?_attributes_wrapped hcolon hspace, if_neg hother,
      if_neg hother]
  refine ⟨?_, hothers, ?_⟩
  · rw [attributes_wrapped hcolon hspace, attributes_wrapped hcolon hspace]
    refine keys_foldl_readLine _ ?_ none
    rw [KeyedList.keys_set, KeyedList.keys_set]
  · show (KeyedList.get? platformName _).isSome = (KeyedList.get? platformName _).isSome
    by_cases hname : platformName = name.trim
    · rw [get?_attributes_wrapped hcolon hspace, get?_attributes_wrapped hcolon hspace,
        if_pos hname, if_pos hname, Option.isSome_or, Option.isSome_or, Option.isSome_some,
        Option.isSome_some]
    · rw [hothers platformName hname]

/-- **Where a value is wrapped does not matter but for its ends just if no blanks between texts
stand where a line ends,** or the attribute is named again later on. -/
theorem alikeButEnds_wrapped_iff :
    AlikeButEnds name.trim (before ++ wrappedLines name (first ++ pieces.flatten) [] ++ after)
        (before ++ wrappedLines name first pieces ++ after) ↔
      name.trim ∈ (attributes (afterContinuation after)).keys ∨
        Text.Joins first pieces.flatten (continuation after) ∧
          KeepsAbsence name.trim first pieces.flatten (continuation after) := by
  have hbut := alikeBut_wrapped hcolon hspace before after first pieces
  have hx := get?_attributes_wrapped hcolon hspace before after
    (first ++ pieces.flatten) [] name.trim
  have hy := get?_attributes_wrapped hcolon hspace before after first pieces name.trim
  rw [if_pos rfl] at hx hy
  rw [List.flatten_nil, List.nil_append] at hx
  cases hlater : (attributes (afterContinuation after)).get? name.trim with
  | some value =>
      rw [hlater, Option.some_or] at hx hy
      have hnamed : name.trim ∈ (attributes (afterContinuation after)).keys :=
        List.mem_map.2 ⟨_, KeyedList.mem_of_get?_eq_some hlater, rfl⟩
      refine iff_of_true ⟨hbut, by rw [hx, hy], ?_⟩ (.inl hnamed)
      exact (hbut.ofLines_eq_iff hx hy rfl).2 fun _ => Iff.rfl
  | none =>
      rw [hlater, Option.none_or] at hx hy
      rw [or_iff_right (KeyedList.not_mem_keys_of_get?_eq_none hlater),
        ← Text.trim_trim_append_eq_iff, KeepsAbsence, ← empty_iff_empty_iff]
      constructor
      · intro halike
        have htrim := halike.value
        rw [hx, hy, Option.map_some, Option.map_some, Option.some_inj] at htrim
        exact ⟨htrim, (hbut.ofLines_eq_iff hx hy htrim).1 halike.manifest⟩
      · rintro ⟨htrim, hempty⟩
        exact ⟨hbut, by rw [hx, hy, Option.map_some, Option.map_some, htrim],
          (hbut.ofLines_eq_iff hx hy htrim).2 hempty⟩

end

/-- A manifest of a platform module with a catalog, up to the line that names the catalog. -/
def platformLines : List Text := ["Manifest-Version: 1.0", "OpenIDE-Module: m"]

theorem alikeButEnds_wrapped_iff_sample :
    Code.colon ∉ catalogName ∧ catalogName.head? ≠ some Code.space ∧
      AlikeButEnds catalogName
        (platformLines ++ wrappedLines catalogName "org/my foo/Bundle.properties " [] ++
          [Text.ofString "Other: x"])
        (platformLines ++
          wrappedLines catalogName "org/my" [" foo/", [], "Bundle.properties "] ++
          [Text.ofString "Other: x"]) :=
  ⟨by decide, by decide,
    (alikeButEnds_wrapped_iff (show Code.colon ∉ catalogName by decide) (by decide) platformLines
      [Text.ofString "Other: x"] "org/my" [" foo/", [], "Bundle.properties "]).2
      (.inr ⟨by decide, fun _ hblank => absurd hblank (by decide)⟩)⟩

/-- A layer whose name is wrapped behind the blank in it is another one. -/
theorem layer_wrapped_behind_blank :
    (ofLines (platformLines ++ wrappedLines layerName "my layer.xml" [])).layerFile =
        some (Text.ofString "my layer.xml") ∧
      (ofLines (platformLines ++ wrappedLines layerName "my " ["layer.xml"])).layerFile =
        some (Text.ofString "mylayer.xml") ∧
      ¬ AlikeButEnds layerName (platformLines ++ wrappedLines layerName "my layer.xml" [])
        (platformLines ++ wrappedLines layerName "my " ["layer.xml"]) := by
  have hwhole : (ofLines (platformLines ++ wrappedLines layerName "my layer.xml" [])).layerFile =
      some (Text.ofString "my layer.xml") := by decide
  have hwrapped :
      (ofLines (platformLines ++ wrappedLines layerName "my " ["layer.xml"])).layerFile =
        some (Text.ofString "mylayer.xml") := by decide
  refine ⟨hwhole, hwrapped, fun halike => ?_⟩
  rw [halike.manifest, hwrapped] at hwhole
  exact absurd hwhole (by decide)

end Manifest

end BundleAudit
