import BundleAudit.Proofs.Token.JavaCut
import BundleAudit.Token.Source
import Mathlib.Data.List.Infix

/-!
# BundleAudit.Proofs.Token.Literals

**A literal is a piece of its source:** no code point comes into a literal that is not in
the text (`mem_of_mem_literal`). The segments of a text with braces and semicolons tile
it. In a text that is read line by line, what begins a line is a prefix of its rest, and
a literal that goes on over several lines is made of pieces of each.
-/

namespace BundleAudit.Token

/-! ### Line ends -/

theorem mem_of_mem_normalizeNewlines {t : Text} {c : Code} (h : c ∈ t.normalizeNewlines) :
    c ∈ t ∨ c = Code.lineFeed := by
  fun_induction Text.normalizeNewlines t with
  | case1 => cases h
  | case2 rest ih =>
      rcases List.mem_cons.1 h with rfl | h
      · exact .inr rfl
      · exact (ih h).imp_left fun h => List.mem_cons_of_mem _ (List.mem_cons_of_mem _ h)
  | case3 d rest _ ih =>
      rcases List.mem_cons.1 h with rfl | h
      · split
        · exact .inr rfl
        · exact .inl List.mem_cons_self
      · exact (ih h).imp_left (List.mem_cons_of_mem _)

/-! ### Java -/

namespace Java

/-- The code points of a token stand in the text, but for line ends. -/
theorem mem_of_mem_text {t : Text} {k : Token} (h : k ∈ tokens t) {c : Code} (hc : c ∈ k.text) :
    c ∈ t ∨ c = Code.lineFeed := by
  obtain ⟨before, s, after, hsegments, rfl⟩ := exists_segment_of_mem_ofSegments h
  refine mem_of_mem_normalizeNewlines ?_
  rw [← flatMap_text_segments t.normalizeNewlines, hsegments]
  exact List.mem_flatMap.2 ⟨s, List.mem_append_right _ List.mem_cons_self, hc⟩

end Java

/-! ### Lines and indentation -/

namespace Indented

variable {t text body start : Text} {q : Code} {long closed : Bool}

theorem isPrefix_opening? (h : opening? t = some (start, q)) : start <+: t := by
  obtain ⟨n, -, hn⟩ := List.exists_of_findSome?_eq_some h
  dsimp only at hn
  split at hn
  · next c rest hdrop =>
      split at hn
      · obtain ⟨rfl, -⟩ := Prod.mk.inj (Option.some.inj hn)
        refine ⟨rest, ?_⟩
        rw [List.append_assoc, List.singleton_append, ← hdrop, List.take_append_drop]
      · cases hn
  · cases hn

/-- What follows a prefix goes on with it. -/
theorem isPrefix_append (hstart : start <+: t) (hbody : body <+: t.drop start.length) :
    start ++ body <+: t := by
  obtain ⟨rest, rfl⟩ := hstart
  rw [List.drop_left] at hbody
  exact (List.prefix_append_right_inj start).2 hbody

theorem isPrefix_longOpening? (h : longOpening? t = some (start, q)) : start <+: t := by
  obtain ⟨⟨letters, q'⟩, hopening, h⟩ := Option.bind_eq_some_iff.1 h
  obtain ⟨_, hguard, h⟩ := Option.bind_eq_some_iff.1 h
  obtain ⟨rfl, rfl⟩ := Prod.mk.inj (Option.some.inj h)
  refine isPrefix_append (isPrefix_opening? hopening) ?_
  rw [guard] at hguard
  split at hguard
  · next hquotes => exact List.isPrefixOf_iff_prefix.1 hquotes
  · cases hguard

theorem isPrefix_shortBody? (h : shortBody? q t = some (body, closed)) : body <+: t := by
  fun_induction shortBody? q t generalizing body closed with
  | case1 => cases h
  | case2 rest =>
      obtain ⟨rfl, -⟩ := Prod.mk.inj (Option.some.inj h)
      exact ⟨rest, rfl⟩
  | case3 rest =>
      obtain ⟨rfl, -⟩ := Prod.mk.inj (Option.some.inj h)
      exact ⟨rest, rfl⟩
  | case4 => cases h
  | case5 d rest _ _ ih =>
      obtain ⟨⟨more, closed'⟩, hmore, h⟩ := Option.map_eq_some_iff.1 h
      obtain ⟨rfl, -⟩ := Prod.mk.inj h
      exact List.cons_prefix_cons.2 ⟨rfl, List.cons_prefix_cons.2 ⟨rfl, ih hmore⟩⟩
  | case6 rest =>
      obtain ⟨rfl, -⟩ := Prod.mk.inj (Option.some.inj h)
      exact ⟨rest, rfl⟩
  | case7 => cases h
  | case8 c rest _ _ _ _ _ _ ih =>
      obtain ⟨⟨more, closed'⟩, hmore, h⟩ := Option.map_eq_some_iff.1 h
      obtain ⟨rfl, -⟩ := Prod.mk.inj h
      exact List.cons_prefix_cons.2 ⟨rfl, ih hmore⟩

theorem isPrefix_short? {lexeme : Lexeme} (h : short? t = some (lexeme, text)) : text <+: t := by
  obtain ⟨⟨start, q⟩, hopening, h⟩ := Option.bind_eq_some_iff.1 h
  obtain ⟨⟨body, closed⟩, hbody, h⟩ := Option.bind_eq_some_iff.1 h
  obtain ⟨-, rfl⟩ := Prod.mk.inj (Option.some.inj h)
  exact isPrefix_append (isPrefix_opening? hopening) (isPrefix_shortBody? hbody)

theorem isPrefix_closing? (h : closing? q long t = some body) : body <+: t := by
  fun_induction closing? q long t generalizing body with
  | case1 => cases h
  | case2 => cases h
  | case3 => cases h
  | case4 d rest _ ih =>
      obtain ⟨more, hmore, rfl⟩ := Option.map_eq_some_iff.1 h
      exact List.cons_prefix_cons.2 ⟨rfl, List.cons_prefix_cons.2 ⟨rfl, ih hmore⟩⟩
  | case5 c rest _ _ hclosing =>
      obtain rfl := Option.some.inj h
      obtain rfl : c = q := by simp_all
      exact ⟨rest, rfl⟩
  | case6 c rest _ _ _ hclosing =>
      obtain rfl := Option.some.inj h
      obtain ⟨hc, hquotes⟩ := Bool.and_eq_true_iff.1 hclosing
      obtain rfl := of_decide_eq_true hc
      exact List.cons_prefix_cons.2 ⟨rfl, List.isPrefixOf_iff_prefix.1 hquotes⟩
  | case7 c rest _ _ _ _ ih =>
      obtain ⟨more, hmore, rfl⟩ := Option.map_eq_some_iff.1 h
      exact List.cons_prefix_cons.2 ⟨rfl, ih hmore⟩

/-- A lexeme is that of a literal, or of its beginning. -/
def Lexeme.IsLiteral : Lexeme → Prop
  | .string | .openString _ | .longOpening _ => True
  | _ => False

theorem isPrefix_lexeme? {lexeme : Lexeme} (h : lexeme? t = some (lexeme, text))
    (hliteral : lexeme.IsLiteral) : text <+: t := by
  -- only two of the forms are literals
  have hnot : ∀ {m : Option Text} {f : Text → Lexeme × Text}, (∀ x, ¬(f x).1.IsLiteral) →
      m.map f = some (lexeme, text) → text <+: t := by
    intro m f hf h
    obtain ⟨x, -, h⟩ := Option.map_eq_some_iff.1 h
    have hx := hf x
    rw [h] at hx
    exact absurd hliteral hx
  have hor : ∀ {x y : Option (Lexeme × Text)}, (x <|> y) = some (lexeme, text) →
      x = some (lexeme, text) ∨ y = some (lexeme, text) := by
    intro x y h
    cases x with
    | none => exact .inr h
    | some first => exact .inl h
  unfold lexeme? at h
  rcases hor h with h | h
  · split at h
    · exact hnot (fun _ => id) h
    · exact absurd hliteral ((Prod.mk.inj (Option.some.inj h)).1 ▸ id)
    · cases h
  rcases hor h with h | h
  · obtain ⟨⟨start, q⟩, hopening, h⟩ := Option.map_eq_some_iff.1 h
    obtain ⟨-, rfl⟩ := Prod.mk.inj h
    exact isPrefix_longOpening? hopening
  rcases hor h with h | h
  · exact hnot (fun _ => id) h
  rcases hor h with h | h
  · exact hnot (fun _ => id) h
  rcases hor h with h | h
  · exact hnot (fun _ => id) h
  rcases hor h with h | h
  · exact isPrefix_short? h
  · split at h
    · cases h
    · exact absurd hliteral ((Prod.mk.inj (Option.some.inj h)).1 ▸ id)

/-! ### Lines -/

variable {line : Nat} {s : State} {P : Code → Prop}

/-- What a scan leads to: its literals, and the one that is still open, consist of code points that
have a property. -/
structure Holds (P : Code → Prop) (r : List Token × State) : Prop where
  literals : ∀ k ∈ r.1, k.kind = .string → ∀ c ∈ k.text, P c
  opened : ∀ l ∈ r.2.literal, ∀ c ∈ l.text, P c

theorem Holds.cons {r : List Token × State} {k : Token} (hr : Holds P r)
    (hk : k.kind = .string → ∀ c ∈ k.text, P c) : Holds P (k :: r.1, r.2) :=
  ⟨List.forall_mem_cons.2 ⟨hk, hr.literals⟩, hr.opened⟩

theorem kind_ofWord_ne (word : Text) (line : Nat) : (ofWord word line).kind ≠ .string := by
  unfold ofWord Kind.ofWord
  split
  · split
    · split <;> nofun
    · nofun
  · nofun

theorem kind_ofOperator_ne (op : Text) (line : Nat) : (ofOperator op line).kind ≠ .string := by
  unfold ofOperator
  dsimp only
  split <;> nofun

/-- The lexeme at the beginning of the rest of a line, and what follows it. -/
theorem of_lexeme? {c : Code} {body : Text} {lexeme : Lexeme} (ht : ∀ d ∈ t, P d)
    (hrest : t.dropWhile isInlineBlank = c :: body)
    (h : lexeme? (c :: body) = some (lexeme, text)) :
    (lexeme.IsLiteral → ∀ d ∈ text, P d) ∧ ∀ d ∈ body.drop (text.length - 1), P d := by
  have hbody : ∀ d ∈ c :: body, P d := fun d hd =>
    ht d ((List.dropWhile_sublist _).subset (hrest ▸ hd))
  exact ⟨fun hliteral d hd => hbody d ((isPrefix_lexeme? h hliteral).subset hd),
    fun d hd => hbody d (List.mem_cons_of_mem _ (List.mem_of_mem_drop hd))⟩

theorem holds_scanLine (ht : ∀ c ∈ t, P c) (hs : ∀ l ∈ s.literal, ∀ c ∈ l.text, P c) :
    Holds P (scanLine line s t) := by
  fun_induction scanLine line s t with
  | case1 s t _ => exact ⟨nofun, hs⟩
  | case2 s t c body _ emit _ ih =>
      exact (ih (fun d hd => ht d (List.mem_of_mem_drop hd)) hs).cons nofun
  | case3 s t c body hrest text rest hlexeme ih => exact ih (of_lexeme? ht hrest hlexeme).2 hs
  | case4 s t c body hrest text rest hlexeme ih => exact ih (of_lexeme? ht hrest hlexeme).2 hs
  | case5 s t c body hrest emit text rest hlexeme ih =>
      exact (ih (of_lexeme? ht hrest hlexeme).2 hs).cons nofun
  | case6 s t c body hrest emit text rest hlexeme ih =>
      exact (ih (of_lexeme? ht hrest hlexeme).2 hs).cons nofun
  | case7 s t c body hrest emit text rest hlexeme ih =>
      exact (ih (of_lexeme? ht hrest hlexeme).2 hs).cons fun h => absurd h (kind_ofWord_ne _ _)
  | case8 s t c body hrest emit text rest hlexeme ih =>
      exact (ih (of_lexeme? ht hrest hlexeme).2 hs).cons fun h => absurd h (kind_ofOperator_ne _ _)
  | case9 s t c body hrest emit text rest hlexeme ih =>
      obtain ⟨htext, hafter⟩ := of_lexeme? ht hrest hlexeme
      exact (ih hafter hs).cons fun _ => htext trivial
  | case10 s t c body hrest text rest q hlexeme =>
      obtain ⟨htext, hafter⟩ := of_lexeme? ht hrest hlexeme
      exact ⟨nofun, fun l hl => Option.some.inj hl ▸ List.forall_mem_append.2
        ⟨htext trivial, hafter⟩⟩
  | case11 s t c body hrest emit text rest q inner hclosing hlexeme ih =>
      obtain ⟨htext, hafter⟩ := of_lexeme? ht hrest hlexeme
      refine (ih (fun d hd => hafter d (List.mem_of_mem_drop hd)) hs).cons fun _ => ?_
      exact List.forall_mem_append.2
        ⟨htext trivial, fun d hd => hafter d ((isPrefix_closing? hclosing).subset hd)⟩
  | case12 s t c body hrest text rest q _ hlexeme =>
      obtain ⟨htext, hafter⟩ := of_lexeme? ht hrest hlexeme
      exact ⟨nofun, fun l hl => Option.some.inj hl ▸ List.forall_mem_append.2
        ⟨htext trivial, hafter⟩⟩

theorem holds_scanLines {lines : List Text} (hlines : ∀ t ∈ lines, ∀ c ∈ t, P c)
    (hs : ∀ l ∈ s.literal, ∀ c ∈ l.text, P c) :
    ∀ k ∈ scanLines line s lines, k.kind = .string → ∀ c ∈ k.text, P c := by
  induction lines generalizing line s with
  | nil =>
      rw [scanLines]
      split
      · exact List.forall_mem_singleton.2 nofun
      · exact nofun
  | cons t rest ih =>
      obtain ⟨ht, hrest⟩ := List.forall_mem_cons.1 hlines
      -- the tokens of a line, and those of the lines after it
      have hgo : ∀ {s : State} {t : Text}, (∀ l ∈ s.literal, ∀ c ∈ l.text, P c) → (∀ c ∈ t, P c) →
          ∀ k ∈ (scanLine line s t).1 ++ scanLines (line + 1) (scanLine line s t).2 rest,
            k.kind = .string → ∀ c ∈ k.text, P c := by
        intro s t hs ht
        have hline : Holds P (scanLine line s t) := holds_scanLine ht hs
        exact List.forall_mem_append.2 ⟨hline.literals, ih hrest hline.opened⟩
      rw [scanLines]
      dsimp only
      split
      · next literal hliteral =>
          have hopened := hs literal hliteral
          split
          · next inner hclosing =>
              refine List.forall_mem_cons.2 ⟨fun _ => List.forall_mem_append.2
                ⟨hopened, fun c hc => ht c ((isPrefix_closing? hclosing).subset hc)⟩, ?_⟩
              exact hgo nofun fun c hc => ht c (List.mem_of_mem_drop hc)
          · split
            · exact List.forall_mem_cons.2 ⟨nofun, ih hrest nofun⟩
            · refine ih hrest fun l hl => ?_
              exact Option.some.inj hl ▸ List.forall_mem_append.2 ⟨hopened, ht⟩
      · split
        · split
          · exact List.forall_mem_singleton.2 nofun
          · split
            · exact List.forall_mem_cons.2 ⟨nofun, ih hrest hs⟩
            · split
              · exact ih hrest hs
              · split
                · exact nofun
                · exact hgo hs fun c hc => ht c ((List.dropWhile_sublist _).subset hc)
        · exact hgo hs ht

theorem mem_of_mem_linesOf {part : Text} (h : part ∈ linesOf t) : ∀ c ∈ part, c ∈ t := by
  induction t generalizing part with
  | nil => cases h
  | cons d rest ih =>
      rw [linesOf] at h
      split at h
      · rcases List.mem_cons.1 h with rfl | h
        · exact List.forall_mem_singleton.2 List.mem_cons_self
        · exact fun c hc => List.mem_cons_of_mem _ (ih h c hc)
      · cases hlines : linesOf rest with
        | nil =>
            rw [hlines] at h
            exact List.mem_singleton.1 h ▸ List.forall_mem_singleton.2 List.mem_cons_self
        | cons first more =>
            rw [hlines] at h ih
            rcases List.mem_cons.1 h with rfl | h
            · exact List.forall_mem_cons.2 ⟨List.mem_cons_self,
                fun c hc => List.mem_cons_of_mem _ (ih List.mem_cons_self c hc)⟩
            · exact fun c hc => List.mem_cons_of_mem _ (ih (List.mem_cons_of_mem _ h) c hc)

/-- The code points of a literal stand in the text. -/
theorem mem_of_mem_literal {k : Token} (h : k ∈ tokens t) (hk : k.kind = .string) :
    ∀ c ∈ k.text, c ∈ t := by
  have hstart : ∀ l ∈ State.start.literal, ∀ c ∈ l.text, c ∈ t := fun l hl => by cases hl
  exact holds_scanLines (P := (· ∈ t)) (fun _ h => mem_of_mem_linesOf h) hstart k h hk

end Indented

/-- **A literal is made of its source:** its code points stand there, but for line ends. -/
theorem mem_of_mem_literal {path text : Text} {ks : List Token} (hks : ofSource path text = .ok ks)
    {k : Token} (h : k ∈ ks) (hk : k.kind = .string) {c : Code} (hc : c ∈ k.text) :
    c ∈ text ∨ c = Code.lineFeed := by
  unfold ofSource at hks
  cases hsource : Source.ofPath path with
  | error failure =>
      rw [hsource] at hks
      cases hks
  | ok source =>
      rw [hsource] at hks
      obtain rfl := Except.ok.inj hks
      cases source with
      | java => exact Java.mem_of_mem_text h hc
      | indented => exact .inl (Indented.mem_of_mem_literal h hk c hc)

end BundleAudit.Token
