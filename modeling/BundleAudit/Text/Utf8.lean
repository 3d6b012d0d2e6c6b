import BundleAudit.Text.Basic

/-!
# BundleAudit.Text.Utf8

**UTF-8.** Texts without surrogates can be written, and what was written is read back.
Reading takes any bytes: each longest beginning of a sequence that cannot go on is one
failure, and stands as `none` between the code points.
-/

namespace BundleAudit

/-- The bytes of a file. -/
abbrev Bytes := List UInt8

namespace Text

/-! ### Writing -/

/-- The bytes of one code point. -/
def utf8Code (c : Code) : Bytes :=
  if c < 0x80 then [.ofNat c]
  else if c < 0x800 then [.ofNat (0xC0 + c / 0x40), .ofNat (0x80 + c % 0x40)]
  else if c < 0x10000 then
    [.ofNat (0xE0 + c / 0x1000), .ofNat (0x80 + c / 0x40 % 0x40), .ofNat (0x80 + c % 0x40)]
  else
    [.ofNat (0xF0 + c / 0x40000), .ofNat (0x80 + c / 0x1000 % 0x40),
      .ofNat (0x80 + c / 0x40 % 0x40), .ofNat (0x80 + c % 0x40)]

/-- The bytes of a text; none if it holds a surrogate. -/
def toUtf8? (t : Text) : Option Bytes :=
  if t.all Code.isScalar then some (t.flatMap utf8Code) else none

/-! ### Reading -/

/-- A byte that goes on with a sequence. -/
def isContinuation (b : UInt8) : Bool := decide (0x80 ≤ b.toNat ∧ b.toNat ≤ 0xBF)

/-- A byte that may follow the first byte of a sequence of three: no shorter sequence would do, and
the code point is no surrogate. -/
def isSecondOfThree (first second : UInt8) : Bool :=
  isContinuation second && (first != 0xE0 || decide (0xA0 ≤ second.toNat))
    && (first != 0xED || decide (second.toNat ≤ 0x9F))

/-- A byte that may follow the first byte of a sequence of four: no shorter sequence would do, and
the code point is in range. -/
def isSecondOfFour (first second : UInt8) : Bool :=
  isContinuation second && (first != 0xF0 || decide (0x90 ≤ second.toNat))
    && (first != 0xF4 || decide (second.toNat ≤ 0x8F))

/-- The value of the low six bits that a byte after the first carries. -/
def lowSix (b : UInt8) : Nat := b.toNat - 0x80

/-- The code point of the sequence that begins with `a`, and how many bytes after `a` belong to it;
`none` for a sequence that cannot go on, or does not. -/
def firstUtf8 (a : UInt8) (rest : Bytes) : Option Code × Nat :=
  if a.toNat < 0x80 then (some a.toNat, 0)
  else if 0xC2 ≤ a.toNat ∧ a.toNat ≤ 0xDF then
    match rest with
    | b :: _ =>
      if isContinuation b then (some ((a.toNat - 0xC0) * 0x40 + lowSix b), 1) else (none, 0)
    | [] => (none, 0)
  else if 0xE0 ≤ a.toNat ∧ a.toNat ≤ 0xEF then
    match rest with
    | b :: c :: _ =>
      if isSecondOfThree a b then
        if isContinuation c then
          (some ((a.toNat - 0xE0) * 0x1000 + lowSix b * 0x40 + lowSix c), 2)
        else (none, 1)
      else (none, 0)
    | [b] => (none, if isSecondOfThree a b then 1 else 0)
    | [] => (none, 0)
  else if 0xF0 ≤ a.toNat ∧ a.toNat ≤ 0xF4 then
    match rest with
    | b :: c :: d :: _ =>
      if isSecondOfFour a b then
        if isContinuation c then
          if isContinuation d then
            (some ((a.toNat - 0xF0) * 0x40000 + lowSix b * 0x1000 + lowSix c * 0x40 + lowSix d), 3)
          else (none, 2)
        else (none, 1)
      else (none, 0)
    | [b, c] => (none, if isSecondOfFour a b then if isContinuation c then 2 else 1 else 0)
    | [b] => (none, if isSecondOfFour a b then 1 else 0)
    | [] => (none, 0)
  else (none, 0)

/-- The code points that bytes stand for; `none` for what stands for none. -/
def decodeUtf8 : Bytes → List (Option Code)
  | [] => []
  | a :: rest =>
    let first := firstUtf8 a rest
    first.1 :: decodeUtf8 (rest.drop first.2)
  termination_by bytes => bytes.length
  decreasing_by
    simp only [List.length_drop, List.length_cons]
    omega

/-- The code points read, with the replacement character for each failure. -/
def withReplacement (codes : List (Option Code)) : Text := codes.map (·.getD Code.replacement)

/-- The text that bytes stand for; none if there is a failure. -/
def ofUtf8? (bytes : Bytes) : Option Text := (decodeUtf8 bytes).mapM id

end Text

end BundleAudit
