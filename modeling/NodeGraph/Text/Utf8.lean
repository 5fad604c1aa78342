/-!
# UTF-8, with the place of the first fault

A byte sequence is read one character at a time. `head` looks at the front of
the input and says one of three things: a character and what follows it, a
malformed start together with how many of its bytes are at fault, or a start
that is sound so far but cut off by the end of the input. `decode` repeats
`head` and keeps count of the bytes already read, so a fault carries the index
at which its character begins.

The length of a malformed start is the number of bytes up to, and not
including, the first one that cannot belong to any character with that
beginning (at least one): overlong forms, surrogates and values above
`0x10FFFF` are already refused at the second byte.
-/

namespace NodeGraph.Utf8

/-- Why a byte sequence is no text. -/
inductive Fault where
  /-- The `length` bytes from `index` on start no character. -/
  | invalid (index length : Nat)
  /-- The input ends inside the character that starts at `index`. -/
  | incomplete (index : Nat)
deriving DecidableEq, Repr

/-- The wording of a fault; the count of bytes is not inflected. -/
def Fault.message : Fault → String
  | .invalid index length => s!"invalid utf-8 sequence of {length} bytes from index {index}"
  | .incomplete index => s!"incomplete utf-8 byte sequence from index {index}"

/-- The bytes of a text, character by character. -/
def encode (s : String) : List UInt8 := s.toList.flatMap String.utf8EncodeChar

/-- A byte that continues a character. -/
def isTail (b : UInt8) : Bool := 0x80 ≤ b && b < 0xC0

/-- Whether `b` may stand right after the lead byte `a` of a longer character:
it continues a character, and it makes the result neither overlong, nor a
surrogate, nor too large. -/
def mayFollow (a b : UInt8) : Bool :=
  if a = 0xE0 then 0xA0 ≤ b && b < 0xC0
  else if a = 0xED then 0x80 ≤ b && b < 0xA0
  else if a = 0xF0 then 0x90 ≤ b && b < 0xC0
  else if a = 0xF4 then 0x80 ≤ b && b < 0x90
  else isTail b

/-- The six payload bits of a continuing byte. -/
def tailBits (b : UInt8) : Nat := b.toNat - 0x80

/-- The character written as two bytes. -/
def ofTwo (a b : UInt8) : Char :=
  Char.ofNat ((a.toNat - 0xC0) * 0x40 + tailBits b)

/-- The character written as three bytes. -/
def ofThree (a b c : UInt8) : Char :=
  Char.ofNat ((a.toNat - 0xE0) * 0x1000 + tailBits b * 0x40 + tailBits c)

/-- The character written as four bytes. -/
def ofFour (a b c d : UInt8) : Char :=
  Char.ofNat ((a.toNat - 0xF0) * 0x40000 + tailBits b * 0x1000 + tailBits c * 0x40 + tailBits d)

/-- What stands at the front of the input. -/
inductive Head where
  /-- A character, and the bytes after it. -/
  | char (c : Char) (rest : List UInt8)
  /-- That many bytes start no character. -/
  | malformed (length : Nat)
  /-- The input ends inside a character. -/
  | cut
deriving DecidableEq, Repr

/-- The last two bytes of a character of four. -/
def headFour (a b : UInt8) : List UInt8 → Head
  | [] => .cut
  | c :: bs =>
    if isTail c then
      match bs with
      | [] => .cut
      | d :: bs => if isTail d then .char (ofFour a b c d) bs else .malformed 3
    else .malformed 2

/-- The last byte of a character of three. -/
def headThree (a b : UInt8) : List UInt8 → Head
  | [] => .cut
  | c :: bs => if isTail c then .char (ofThree a b c) bs else .malformed 2

/-- A character whose lead byte `a` asks for more bytes. -/
def headLong (a : UInt8) : List UInt8 → Head
  | [] => .cut
  | b :: bs =>
    if mayFollow a b then
      if a < 0xE0 then .char (ofTwo a b) bs
      else if a < 0xF0 then headThree a b bs
      else headFour a b bs
    else .malformed 1

/-- The first character of the input. -/
def head : List UInt8 → Head
  | [] => .cut
  | a :: bs =>
    if a < 0x80 then .char (Char.ofNat a.toNat) bs
    else if a < 0xC2 || 0xF5 ≤ a then .malformed 1
    else headLong a bs

theorem length_lt_of_headThree {a b : UInt8} {bs rest : List UInt8} {c : Char}
    (h : headThree a b bs = .char c rest) : rest.length < bs.length := by
  cases bs with
  | nil => simp [headThree] at h
  | cons x xs =>
    by_cases hx : isTail x
    · simp only [headThree, hx, if_true, Head.char.injEq] at h
      simp [← h.2]
    · simp [headThree, hx] at h

theorem length_lt_of_headFour {a b : UInt8} {bs rest : List UInt8} {c : Char}
    (h : headFour a b bs = .char c rest) : rest.length < bs.length := by
  match bs with
  | [] => simp [headFour] at h
  | [x] => by_cases hx : isTail x <;> simp [headFour, hx] at h
  | x :: y :: ys =>
    by_cases hx : isTail x <;> by_cases hy : isTail y
    · simp only [headFour, hx, hy, if_true, Head.char.injEq] at h
      simp only [← h.2, List.length_cons]
      omega
    all_goals simp [headFour, hx, hy] at h

theorem length_lt_of_headLong {a : UInt8} {bs rest : List UInt8} {c : Char}
    (h : headLong a bs = .char c rest) : rest.length < bs.length := by
  cases bs with
  | nil => simp [headLong] at h
  | cons b bs =>
    simp only [headLong] at h
    split at h
    · split at h
      · simp only [Head.char.injEq] at h
        simp [← h.2]
      · split at h
        · exact Nat.lt_succ_of_lt (length_lt_of_headThree h)
        · exact Nat.lt_succ_of_lt (length_lt_of_headFour h)
    · simp at h

/-- A character takes at least one byte off the input. -/
theorem length_lt_of_head {bs rest : List UInt8} {c : Char}
    (h : head bs = .char c rest) : rest.length < bs.length := by
  cases bs with
  | nil => simp [head] at h
  | cons a bs =>
    simp only [head] at h
    split at h
    · simp only [Head.char.injEq] at h
      simp [← h.2]
    · split at h
      · simp at h
      · exact Nat.lt_succ_of_lt (length_lt_of_headLong h)

/-- The characters of the input, `index` bytes having been read before it. -/
def decodeFrom (index : Nat) (bs : List UInt8) : Except Fault (List Char) :=
  if bs.isEmpty then .ok []
  else
    match _h : head bs with
    | .char c rest =>
      match decodeFrom (index + c.utf8Size) rest with
      | .ok cs => .ok (c :: cs)
      | .error e => .error e
    | .malformed length => .error (.invalid index length)
    | .cut => .error (.incomplete index)
termination_by bs.length
decreasing_by exact length_lt_of_head _h

/-- The text that a byte sequence writes, or the first fault in it. -/
def decode (bs : List UInt8) : Except Fault String :=
  (decodeFrom 0 bs).map String.ofList

end NodeGraph.Utf8
