import LineShell.Config.Json.Number

/-!
# Strings in JSON text

A string stands between double quotes and holds no control characters.  A backslash and what is
behind it stand for a quote, a backslash, a slash, a control character, or the code point of four
hexadecimal digits; two of these that are the halves of a surrogate pair stand for one code point.
-/

namespace LineShell.Config.Json

def hexDigit? (c : CodePoint) : Option Nat :=
  let n := c.val
  if isDigit c then some (n - 0x30)
  else if 0x61 ≤ n && n ≤ 0x66 then some (n - 0x57)
  else if 0x41 ≤ n && n ≤ 0x46 then some (n - 0x37)
  else none

def hex4? (a b c d : CodePoint) : Option CodePoint :=
  match hexDigit? a, hexDigit? b, hexDigit? c, hexDigit? d with
  | some a, some b, some c, some d => some (Fin.ofNat 0x110000 (((a * 16 + b) * 16 + c) * 16 + d))
  | _, _, _, _ => none

def escapes : List (CodePoint × CodePoint) :=
  [(0x22, 0x22), (0x5C, 0x5C), (0x2F, 0x2F), (0x62, 0x08), (0x66, 0x0C), (0x6E, 0x0A),
    (0x72, 0x0D), (0x74, 0x09)]

/-- The code points of a string up to its closing quote, and the rest.  `opening` is what was left
of the text at the opening quote.  A number of a code point needs something behind it. -/
def stringBody (opening : Nat) : Text → Except Error (Text × Text)
  | [] => .error (.of .unterminatedString opening)
  | c :: rest =>
    if c = 0x22 then .ok ([], rest)
    else if c = 0x5C then
      match rest with
      | [] => .error (.of .unterminatedString opening)
      | e :: after =>
        if e = 0x75 then
          match after with
          | h₁ :: h₂ :: h₃ :: h₄ :: next :: more =>
            match hex4? h₁ h₂ h₃ h₄ with
            | some point => (stringBody opening (next :: more)).map fun (t, r) => (point :: t, r)
            -- the error is at the letter, not at the backslash
            | none => .error (.of .badCodePoint rest.length)
          | _ => .error (.of .badCodePoint rest.length)
        else
          match escapes.lookup e with
          | some point => (stringBody opening after).map fun (t, r) => (point :: t, r)
          | none => .error (.of .badEscape (rest.length + 1))
    else if c.val < 0x20 then .error (.of .controlCharacter (rest.length + 1))
    else (stringBody opening rest).map fun (t, r) => (c :: t, r)
termination_by s => s.length

theorem length_lt_of_map_cons {c : CodePoint} {x : Except Error (Text × Text)} {t r : Text}
    {n : Nat} (h : (x.map fun (t, r) => (c :: t, r)) = .ok (t, r))
    (hx : ∀ {t r : Text}, x = .ok (t, r) → r.length < n) : r.length < n := by
  cases x with
  | error e => simp [Except.map] at h
  | ok p =>
      obtain ⟨t', r'⟩ := p
      simp only [Except.map, Except.ok.injEq, Prod.mk.injEq] at h
      obtain ⟨-, rfl⟩ := h
      exact hx rfl

theorem length_lt_of_stringBody {opening : Nat} {s t r : Text}
    (h : stringBody opening s = .ok (t, r)) : r.length < s.length := by
  fun_induction stringBody opening s generalizing t r with
  | case1 | case3 | case5 | case6 | case8 | case9 => cases h
  | case2 rest =>
      obtain ⟨-, rfl⟩ : [] = t ∧ rest = r := by simpa using h
      simp
  | case4 h₁ h₂ h₃ h₄ next more point hpoint hquote ih =>
      have := length_lt_of_map_cons h ih
      simp only [List.length_cons] at this ⊢
      omega
  | case7 e after he point hpoint hquote ih =>
      have := length_lt_of_map_cons h ih
      simp only [List.length_cons] at this ⊢
      omega
  | case10 c rest hquote hback hcontrol ih =>
      have := length_lt_of_map_cons h ih
      simp only [List.length_cons] at this ⊢
      omega

/-- The first halves of surrogate pairs; the second ones are `isLow`. -/
def isHigh (c : CodePoint) : Bool := 0xD800 ≤ c.val && c.val ≤ 0xDBFF

def isLow (c : CodePoint) : Bool := 0xDC00 ≤ c.val && c.val ≤ 0xDFFF

/-- The text with each surrogate pair as the one code point it stands for. -/
def joinPairs : Text → Text
  | [] => []
  | [c] => [c]
  | a :: b :: rest =>
    if isHigh a && isLow b then
      Fin.ofNat 0x110000 (0x10000 + (a.val - 0xD800) * 0x400 + (b.val - 0xDC00)) :: joinPairs rest
    else a :: joinPairs (b :: rest)

/-- The string whose opening quote was left behind. -/
def string (s : Text) : Except Error (Parsed Text s) :=
  match h : stringBody (s.length + 1) s with
  | .ok (t, rest) => .ok ⟨joinPairs t, rest, length_lt_of_stringBody h⟩
  | .error e => .error e

end LineShell.Config.Json
