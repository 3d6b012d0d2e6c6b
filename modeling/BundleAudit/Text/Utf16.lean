import BundleAudit.Text.Utf8

/-!
# BundleAudit.Text.Utf16

**UTF-16** in either order of bytes. A surrogate that is no half of a pair is a failure,
and so is a single byte at the end, which counts as one with a first half before it.
-/

namespace BundleAudit.Text

/-- The order of the two bytes of a unit. -/
inductive ByteOrder
  | lowFirst
  | highFirst
  deriving DecidableEq, Repr

/-- The unit of two bytes. -/
def unit (order : ByteOrder) (a b : UInt8) : Nat :=
  match order with
  | .lowFirst => b.toNat * 0x100 + a.toNat
  | .highFirst => a.toNat * 0x100 + b.toNat

/-- The two bytes of a unit. -/
def unitBytes (order : ByteOrder) (n : Nat) : Bytes :=
  match order with
  | .lowFirst => [.ofNat (n % 0x100), .ofNat (n / 0x100)]
  | .highFirst => [.ofNat (n / 0x100), .ofNat (n % 0x100)]

/-- The units of a code point: a surrogate pair above `0xFFFF`, and else itself. -/
def utf16Units (c : Code) : List Nat :=
  if c < 0x10000 then [c]
  else [0xD800 + (c - 0x10000) / 0x400, 0xDC00 + (c - 0x10000) % 0x400]

/-- The bytes of a text. -/
def toUtf16 (order : ByteOrder) (t : Text) : Bytes :=
  t.flatMap fun c => (utf16Units c).flatMap (unitBytes order)

/-- The code point whose first unit is `u`, and how many of the bytes after that unit belong to
it; `none` for a surrogate without its other half. -/
def firstUtf16 (order : ByteOrder) (u : Nat) (rest : Bytes) : Option Code × Nat :=
  if Code.isHighSurrogate u then
    match rest with
    | a :: b :: _ =>
      let v := unit order a b
      if Code.isLowSurrogate v then (some (Code.ofSurrogates u v), 2) else (none, 0)
    | [_] => (none, 1)
    | [] => (none, 0)
  else (if Code.isLowSurrogate u then none else some u, 0)

/-- The code points that bytes stand for; `none` for what stands for none. -/
def decodeUtf16 (order : ByteOrder) : Bytes → List (Option Code)
  | [] => []
  | [_] => [none]
  | a :: b :: rest =>
    let first := firstUtf16 order (unit order a b) rest
    first.1 :: decodeUtf16 order (rest.drop first.2)
  termination_by bytes => bytes.length
  decreasing_by
    simp only [List.length_drop, List.length_cons]
    omega

end BundleAudit.Text
