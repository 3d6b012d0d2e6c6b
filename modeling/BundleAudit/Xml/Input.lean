import BundleAudit.Text.Encoding
import BundleAudit.Xml.Character

/-!
# BundleAudit.Xml.Input

**The characters of the bytes of a document.** The first bytes tell whether units have
one byte or two: a byte order mark says so, and without one a zero among the first two
bytes. Units of one byte are UTF-8 until the document declares something else. What is
no character becomes `invalidCode`, which has no place in any document.
-/

namespace BundleAudit.Xml

/-- The units in which a document is written. -/
inductive Units
  | bytes
  | pairs (order : Text.ByteOrder)
  deriving DecidableEq, Repr

/-- The units of a document, and its bytes without a byte order mark. -/
def Units.ofBytes : Bytes → Units × Bytes
  | 0xFE :: 0xFF :: rest => (.pairs .highFirst, rest)
  | 0xFF :: 0xFE :: rest => (.pairs .lowFirst, rest)
  | 0xEF :: 0xBB :: 0xBF :: rest => (.bytes, rest)
  | 0 :: rest => (.pairs .highFirst, 0 :: rest)
  | a :: 0 :: rest => (.pairs .lowFirst, a :: 0 :: rest)
  | rest => (.bytes, rest)

/-- The characters of a document in UTF-8. -/
def ofUtf8 (bytes : Bytes) : Text := (Text.decodeUtf8 bytes).map (·.getD invalidCode)

/-- The characters of a document in units of two bytes. The first half of a surrogate pair takes the
next unit for its second half, whatever it is. -/
def ofPairs (order : Text.ByteOrder) : Bytes → Text
  | [] => []
  | [_] => [invalidCode]
  | a :: b :: rest =>
    let u := Text.unit order a b
    if Code.isHighSurrogate u then
      match rest with
      | c :: d :: rest =>
        (0x10000 + u % 0x400 * 0x400 + Text.unit order c d % 0x400) :: ofPairs order rest
      | _ => [invalidCode]
    else (if Code.isLowSurrogate u then invalidCode else u) :: ofPairs order rest

/-- The characters of a document in which each byte is one: below `0x80` as in ASCII, and from there
on as a table says, in which the replacement character stands for nothing. -/
def ofTable (upper : Text) (bytes : Bytes) : Text :=
  let upper := upper.toArray
  bytes.map fun b =>
    if b.toNat < 0x80 then b.toNat
    else
      let c := upper.getD (b.toNat - 0x80) Code.replacement
      if c = Code.replacement then invalidCode else c

end BundleAudit.Xml
