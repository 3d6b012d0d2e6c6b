import BundleAudit.Xml.Document

/-!
# BundleAudit.Proofs.Xml.Charset

**Documents that declare a character set.** A document in units of one byte is read in the
set that it declares, whatever follows the declaration; so it is none if no set has the
name, or the set needs several bytes for a character (`ofBytes_of_unknown`,
`ofBytes_of_multiByte`).
-/

namespace BundleAudit

/-! ### Fixed texts -/

theorem Text.ofString_append (a b : String) :
    Text.ofString (a ++ b) = Text.ofString a ++ Text.ofString b := by
  simp [Text.ofString, String.toList_append]

theorem Text.ofString_ofList (cs : List Char) :
    Text.ofString (String.ofList cs) = cs.map Char.toNat := by
  simp [Text.ofString]

namespace Xml

namespace Charset

theorem replaceCode_of_not_mem {old new : Code} {t : Text} (h : old ∉ t) :
    t.replaceCode old new = t := by
  unfold Text.replaceCode
  refine (List.map_congr_left fun c hc => if_neg ?_).trans (List.map_id t)
  rintro rfl
  exact h hc

/-- A name without a dot is looked for as it is. -/
theorem named_eq_holds {name : Text} (hname : normalize name = name) (hdot : Code.dot ∉ name)
    (names : String) : named name names = holds names name := by
  simp only [named, hname, replaceCode_of_not_mem hdot]
  cases holds names name <;> rfl

/-- A name that stands in no list of names is that of no character set. -/
theorem ofName?_eq_none {name : Text} (hname : normalize name = name) (hdot : Code.dot ∉ name)
    (hnames : ∀ names ∈ [asciiNames, latinNames, multiByteNames, foreignNames],
      holds names name = false)
    (htables : ∀ p ∈ tables, holds p.1 name = false) : ofName? name = none := by
  simp only [List.forall_mem_cons] at hnames
  obtain ⟨hascii, hlatin, hmulti, hforeign, -⟩ := hnames
  have hfind : tables.find? (fun p => holds p.1 name) = none :=
    List.find?_eq_none.2 fun p hp => by simp [htables p hp]
  simp only [ofName?, named_eq_holds hname hdot, hascii, hlatin, hmulti, hforeign,
    Bool.false_eq_true, if_false]
  exact Option.map_eq_none_iff.2 hfind

/-- A name among those of sets whose characters may take several bytes, and in no earlier list. -/
theorem ofName?_eq_multiByte {name : Text} (hname : normalize name = name)
    (hascii : ∀ names ∈ [asciiNames, latinNames], holds names name = false)
    (hdot : Code.dot ∉ name) (hmulti : holds multiByteNames name = true) :
    ofName? name = some .multiByte := by
  simp only [List.forall_mem_cons] at hascii
  obtain ⟨hascii, hlatin, -⟩ := hascii
  simp only [ofName?, named_eq_holds hname hdot, hascii, hlatin, hmulti, Bool.false_eq_true,
    if_false, if_true]

end Charset

/-- A name in small letters that is none of UTF-8 and UTF-16. -/
structure IsForeignName (name : Text) : Prop where
  lower : (name.map fun c => if c.isAsciiUpper then c + 0x20 else c) = name
  notUtf : name ∉ ["utf-8", "utf-16", "utf-16le", "utf-16be"].map Text.ofString

/-- A document in units of one byte declares a character set. -/
def Declares (bytes : Bytes) (name : Text) : Prop :=
  ∃ body d rest, Units.ofBytes bytes = (.bytes, body) ∧
    declarationOf? (ofUtf8 body) = some (d, rest) ∧ d.charset = some name

variable {bytes : Bytes} {name : Text}

theorem Declares.of_map (hunits : Units.ofBytes bytes = (.bytes, bytes))
    (h : (declarationOf? (ofUtf8 bytes)).map (·.1.charset) = some (some name)) :
    Declares bytes name := by
  obtain ⟨⟨d, rest⟩, hdeclaration, hname⟩ := Option.map_eq_some_iff.1 h
  exact ⟨bytes, d, rest, hunits, hdeclaration, hname⟩

theorem IsForeignName.isOther (h : IsForeignName name) : name ≠ Text.ofString "utf-8" ∧
    (["utf-16", "utf-16le", "utf-16be"].map Text.ofString).elem name = false := by
  have hutf := h.notUtf
  rw [List.map_cons, List.mem_cons, not_or] at hutf
  exact ⟨hutf.1, by simpa using hutf.2⟩

/-- What is not there in the declared character set is no document. -/
theorem ofBytes_of_declares {fault : Fault} (h : Declares bytes name)
    (hrest : ∀ body length rest, restInCharset .bytes body length rest name = .error fault) :
    Element.ofBytes bytes = .error fault := by
  obtain ⟨body, d, rest, hunits, hdeclaration, hname⟩ := h
  rw [Element.ofBytes, hunits]
  simp only [hdeclaration, hname, hrest]
  rfl

/-- A document in a character set that is not known is none. -/
theorem ofBytes_of_unknown (hname : IsForeignName name) (hset : Charset.ofName? name = none)
    (h : Declares bytes name) : Element.ofBytes bytes = .error (restInCharset.unknown name) := by
  refine ofBytes_of_declares h fun body length rest => ?_
  obtain ⟨hutf, hwide⟩ := hname.isOther
  simp only [restInCharset, hname.lower, if_neg hutf, hwide, hset, Bool.false_eq_true, if_false]

/-- A document in a character set that needs several bytes for a character is none. -/
theorem ofBytes_of_multiByte (hname : IsForeignName name)
    (hset : Charset.ofName? name = some .multiByte) (h : Declares bytes name) :
    Element.ofBytes bytes = .error .multiByteCharset := by
  refine ofBytes_of_declares h fun body length rest => ?_
  obtain ⟨hutf, hwide⟩ := hname.isOther
  simp only [restInCharset, hname.lower, if_neg hutf, hwide, hset, Bool.false_eq_true, if_false]

end Xml

end BundleAudit
