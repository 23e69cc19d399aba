import LineShell.Text

/-!
# UTF-8 that loses nothing

`decode` turns any bytes into text: a well-formed sequence becomes its code point, and a byte that
starts none becomes a code point of its own, `0xDC00` above the byte.  These escapes are lone
surrogates, which well-formed UTF-8 never encodes, so `encode` can tell them apart and gives the
very bytes back.

Well-formed is meant strictly: no overlong form, no encoded surrogate, nothing above `0x10FFFF`.
-/

namespace LineShell.Text.Utf8

/-- The bytes that may follow in a longer sequence. -/
def isContinuation (b : UInt8) : Bool := 0x80 ≤ b && b ≤ 0xBF

def low6 (b : UInt8) : Nat := b.toNat % 0x40

/-- The code points that have an encoding of their own and may stand in a sequence of `least` and
more. -/
def scalar? (least : Nat) (n : Nat) : Option CodePoint :=
  if h : n < 0x110000 then
    if n < least || isSurrogate ⟨n, h⟩ then none else some ⟨n, h⟩
  else none

/-- The well-formed sequence at the front of some bytes: its code point and its length. -/
def sequence? : Bytes → Option (CodePoint × Nat)
  | [] => none
  | a :: rest =>
    if a < 0x80 then some (Fin.ofNat 0x110000 a.toNat, 1)
    else if a < 0xC0 then none
    else if a < 0xE0 then
      match rest with
      | b :: _ =>
        if isContinuation b then
          (scalar? 0x80 (a.toNat % 0x20 * 0x40 + low6 b)).map (·, 2)
        else none
      | _ => none
    else if a < 0xF0 then
      match rest with
      | b :: c :: _ =>
        if isContinuation b && isContinuation c then
          (scalar? 0x800 ((a.toNat % 0x10 * 0x40 + low6 b) * 0x40 + low6 c)).map (·, 3)
        else none
      | _ => none
    else if a < 0xF8 then
      match rest with
      | b :: c :: d :: _ =>
        if isContinuation b && isContinuation c && isContinuation d then
          (scalar? 0x10000
            (((a.toNat % 0x08 * 0x40 + low6 b) * 0x40 + low6 c) * 0x40 + low6 d)).map (·, 4)
        else none
      | _ => none
    else none

/-- The code point that carries a byte which starts no well-formed sequence. -/
def escape (b : UInt8) : CodePoint := Fin.ofNat 0x110000 (0xDC00 + b.toNat)

def isEscape (c : CodePoint) : Bool := 0xDC80 ≤ c.val && c.val ≤ 0xDCFF

/-- Reads the sequence at the front, or carries its first byte, and goes on behind it.  `skip`
counts the bytes still owed to the sequence that was read last. -/
def decodeFrom : (skip : Nat) → Bytes → Text
  | _, [] => []
  | skip + 1, _ :: rest => decodeFrom skip rest
  | 0, b :: rest =>
    match sequence? (b :: rest) with
    | some (c, length) => c :: decodeFrom (length - 1) rest
    | none => escape b :: decodeFrom 0 rest

def decode (bytes : Bytes) : Text := decodeFrom 0 bytes

def decodeStrict? (bytes : Bytes) : Option Text :=
  let text := decode bytes
  if text.any isEscape then none else some text

/-- The bytes of one code point; a lone surrogate that carries no byte has none. -/
def encodePoint? (c : CodePoint) : Option Bytes :=
  let n := c.val
  if n < 0x80 then some [UInt8.ofNat n]
  else if n < 0x800 then some [UInt8.ofNat (0xC0 + n / 0x40), UInt8.ofNat (0x80 + n % 0x40)]
  else if isEscape c then some [UInt8.ofNat (n - 0xDC00)]
  else if isSurrogate c then none
  else if n < 0x10000 then
    some [UInt8.ofNat (0xE0 + n / 0x1000), UInt8.ofNat (0x80 + n / 0x40 % 0x40),
      UInt8.ofNat (0x80 + n % 0x40)]
  else
    some [UInt8.ofNat (0xF0 + n / 0x40000), UInt8.ofNat (0x80 + n / 0x1000 % 0x40),
      UInt8.ofNat (0x80 + n / 0x40 % 0x40), UInt8.ofNat (0x80 + n % 0x40)]

def encode? : Text → Option Bytes
  | [] => some []
  | c :: rest => do
    let bytes ← encodePoint? c
    let more ← encode? rest
    return bytes ++ more

def isEncodable (t : Text) : Bool := t.all fun c => isEscape c || !isSurrogate c

end LineShell.Text.Utf8
