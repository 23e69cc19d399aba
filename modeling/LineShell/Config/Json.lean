import LineShell.Config.Json.Quoted

/-!
# JSON text

Reading a value from JSON text.  Besides the standard the words `NaN`, `Infinity` and `-Infinity`
are numbers, and half of a surrogate pair may stand alone in a string.  Of two members with one name
the last one counts.

The readers of lists and objects call each other; what makes them end is that each leaves a shorter
text than it was given.
-/

namespace LineShell.Config.Json

def words : List (Text × Value) :=
  [("null", .null), ("true", .bool true), ("false", .bool false), ("NaN", .float .nan),
    ("Infinity", .float (.infinite false)), ("-Infinity", .float (.infinite true))]

def stripWord? (word : Text) (s : Text) : Option Text :=
  if word.isPrefixOf s then some (s.drop word.length) else none

def word? (s : Text) : Option (Parsed Value s) :=
  words.findSome? fun (word, v) =>
    match stripWord? word s with
    | none => none
    | some rest => if h : rest.length < s.length then some ⟨v, rest, h⟩ else none

mutual

/-- The value at the front of a text without blanks before it.  There is room for so many containers
inside each other. -/
def value (room : Nat) (s : Text) : Except Error (Parsed Value s) :=
  match s with
  | [] => .error (.of .expectingValue 0)
  | c :: rest =>
    if c = 0x22 then
      match string rest with
      | .ok p => .ok ⟨.text p.result, p.rest, by have := p.shorter; simp; omega⟩
      | .error e => .error e
    else if c = 0x7B then
      if room = 0 then .error ⟨.tooDeep .object, rest.length⟩
      else
        match members (room - 1) rest with
        | .ok p => .ok ⟨.dict (Fields.ofPairs p.result), p.rest, by have := p.shorter; simp; omega⟩
        | .error e => .error e
    else if c = 0x5B then
      if room = 0 then .error ⟨.tooDeep .list, rest.length⟩
      else
        match items (room - 1) rest with
        | .ok p => .ok ⟨.list p.result, p.rest, by have := p.shorter; simp; omega⟩
        | .error e => .error e
    else
      match word? (c :: rest) with
      | some p => .ok p
      | none => number (c :: rest)
termination_by 3 * s.length
decreasing_by all_goals simp; omega

def items (room : Nat) (s : Text) : Except Error (Parsed (List Value) s) :=
  have hs := length_skipBlanks_le s
  match h : skipBlanks s with
  | [] => .error (.of .expectingValue 0)
  | c :: rest =>
    if c = 0x5D then .ok ⟨[], rest, by rw [h] at hs; simp at hs; omega⟩
    else
      match moreItems room (c :: rest) with
      | .ok p => .ok ⟨p.result, p.rest, by have := p.shorter; rw [h] at hs; omega⟩
      | .error e => .error e
termination_by 3 * s.length + 2
decreasing_by
  rw [h] at hs
  simp at hs ⊢
  omega

/-- One item or more, up to the closing bracket. -/
def moreItems (room : Nat) (s : Text) : Except Error (Parsed (List Value) s) :=
  match value room s with
  | .error e => .error e
  | .ok p =>
    have hp := p.shorter
    have hs := length_skipBlanks_le p.rest
    match h : skipBlanks p.rest with
    | [] => .error (.of .expectingComma 0)
    | c :: rest =>
      if c = 0x5D then .ok ⟨[p.result], rest, by rw [h] at hs; simp at hs; omega⟩
      else if c = 0x2C then
        have hr := length_skipBlanks_le rest
        match moreItems room (skipBlanks rest) with
        | .ok q =>
          .ok ⟨p.result :: q.result, q.rest, by
            have := q.shorter; rw [h] at hs; simp at hs; omega⟩
        | .error e => .error e
      else .error (.of .expectingComma (rest.length + 1))
termination_by 3 * s.length + 1
decreasing_by
  · omega
  · rw [h] at hs
    simp at hs ⊢
    omega

def members (room : Nat) (s : Text) : Except Error (Parsed (List (Text × Value)) s) :=
  have hs := length_skipBlanks_le s
  match h : skipBlanks s with
  | [] => .error (.of .expectingName 0)
  | c :: rest =>
    if c = 0x7D then .ok ⟨[], rest, by rw [h] at hs; simp at hs; omega⟩
    else
      match moreMembers room (c :: rest) with
      | .ok p => .ok ⟨p.result, p.rest, by have := p.shorter; rw [h] at hs; omega⟩
      | .error e => .error e
termination_by 3 * s.length + 2
decreasing_by
  rw [h] at hs
  simp at hs ⊢
  omega

def moreMembers (room : Nat) (s : Text) : Except Error (Parsed (List (Text × Value)) s) :=
  match expect 0x22 .expectingName s with
  | .error e => .error e
  | .ok quote =>
    match string quote.rest with
    | .error e => .error e
    | .ok name =>
      match expect 0x3A .expectingColon (skipBlanks name.rest) with
      | .error e => .error e
      | .ok colon =>
        have h₁ := quote.shorter
        have h₂ := name.shorter
        have h₃ := length_skipBlanks_le name.rest
        have h₄ := colon.shorter
        have h₅ := length_skipBlanks_le colon.rest
        match value room (skipBlanks colon.rest) with
        | .error e => .error e
        | .ok p =>
          have hp := p.shorter
          have hs := length_skipBlanks_le p.rest
          match h : skipBlanks p.rest with
          | [] => .error (.of .expectingComma 0)
          | c :: rest =>
            if c = 0x7D then
              .ok ⟨[(name.result, p.result)], rest, by rw [h] at hs; simp at hs; omega⟩
            else if c = 0x2C then
              have hr := length_skipBlanks_le rest
              match moreMembers room (skipBlanks rest) with
              | .ok q =>
                .ok ⟨(name.result, p.result) :: q.result, q.rest, by
                  have := q.shorter; rw [h] at hs; simp at hs; omega⟩
              | .error e => .error e
            else .error (.of .expectingComma (rest.length + 1))
termination_by 3 * s.length + 1
decreasing_by
  · omega
  · rw [h] at hs
    simp at hs ⊢
    omega

end

def parse (room : Nat) (s : Text) : Except Error Value :=
  -- only in front of the whole text; inside it the mark is an ordinary code point
  if s.head? = some 0xFEFF then .error (.of .byteOrderMark s.length)
  else
    match value room (skipBlanks s) with
    | .error e => .error e
    | .ok p =>
      match skipBlanks p.rest with
      | [] => .ok p.result
      | rest => .error (.of .extraData rest.length)

end LineShell.Config.Json
