import LineShell.Double
import LineShell.Text

/-!
# Values

A `Value` is what a configuration file may hold and what a log record may carry along: null, a
truth value, an integer, a floating-point number, text, a list, or a dictionary whose keys keep
their order.

A setting is used as the value it is.  Questions about a value that make no sense for its kind
(comparing text with a number, say) have no answer; the caller turns that into a failure.
-/

namespace LineShell

/-- A value of a configuration file or a log record. -/
inductive Value where
  | null
  | bool (b : Bool)
  | int (n : Int)
  | float (x : Double)
  | text (t : Text)
  | list (items : List Value)
  | dict (entries : List (Text × Value))
  deriving Inhabited

/-- Named values in order; no name occurs twice. -/
abbrev Fields := List (Text × Value)

namespace Value

/-- Null, false, zero and anything empty are not truthy; all else is. -/
def isTruthy : Value → Bool
  | null => false
  | bool b => b
  | int n => n != 0
  | float x => !x.isZero
  | text t => !t.isEmpty
  | list items => !items.isEmpty
  | dict entries => !entries.isEmpty

/-- The integer of a value.  A truth value counts as zero or one, a floating-point number does not
count. -/
def toInt? : Value → Option Int
  | bool b => some (if b then 1 else 0)
  | int n => some n
  | _ => none

/-- Whether a value is smaller than an integer.  A truth value counts as zero or one. -/
def ltInt? : Value → Int → Option Bool
  | bool b, n => some (decide ((if b then 1 else 0 : Int) < n))
  | int m, n => some (decide (m < n))
  | float x, n => some (x.ltInt n)
  | _, _ => none

def leInt? : Value → Int → Option Bool
  | bool b, n => some (decide ((if b then 1 else 0 : Int) ≤ n))
  | int m, n => some (decide (m ≤ n))
  | float x, n => some (x.leInt n)
  | _, _ => none

/-- The number of code points, items or entries of a value that has any. -/
def length? : Value → Option Nat
  | text t => some t.length
  | list items => some items.length
  | dict entries => some entries.length
  | _ => none

/-- Whether a value can be looked for among keys: lists and dictionaries cannot. -/
def canBeKey : Value → Bool
  | list _ => false
  | dict _ => false
  | _ => true

/-- Whether two values are the same number.  A truth value counts as zero or one. -/
def equalNumbers : Value → Value → Bool
  | float x, float y => x.equals y
  | float x, v => v.toInt?.any x.equalsInt
  | v, float y => v.toInt?.any y.equalsInt
  | v, w => v.toInt?.isSome && v.toInt? == w.toInt?

mutual

/-- Whether two values are equal: numbers by what they stand for, lists item by item, and
dictionaries entry by entry, in whatever order the entries are. -/
def equals : Value → Value → Bool
  | null, null => true
  | text t, text u => t == u
  | list items, list others => equalItems items others
  | dict entries, dict others => entries.length == others.length && hasEntries others entries
  | v, w => equalNumbers v w

def equalItems : List Value → List Value → Bool
  | [], [] => true
  | v :: rest, w :: others => equals v w && equalItems rest others
  | _, _ => false

def hasEntries (others : List (Text × Value)) : List (Text × Value) → Bool
  | [] => true
  | (key, v) :: rest =>
    (match others.lookup key with
      | some w => equals v w
      | none => false) && hasEntries others rest

end

/-! ## Sameness

Equal values need not be the same: one stands for true as well, and the order of entries does not count. -/

mutual

def same : Value → Value → Bool
  | null, null => true
  | bool b, bool c => b == c
  | int m, int n => m == n
  | float x, float y => x == y
  | text t, text u => t == u
  | list items, list others => sameItems items others
  | dict entries, dict others => sameEntries entries others
  | _, _ => false

def sameItems : List Value → List Value → Bool
  | [], [] => true
  | v :: rest, w :: others => same v w && sameItems rest others
  | _, _ => false

def sameEntries : List (Text × Value) → List (Text × Value) → Bool
  | [], [] => true
  | (key, v) :: rest, (other, w) :: others => key == other && same v w && sameEntries rest others
  | _, _ => false

end

mutual

theorem same_iff : ∀ (v w : Value), same v w = true ↔ v = w
  | list items, w => by cases w <;> simp [same, sameItems_iff items]
  | dict entries, w => by cases w <;> simp [same, sameEntries_iff entries]
  | null, w | bool _, w | int _, w | float _, w | text _, w => by cases w <;> simp [same]

theorem sameItems_iff : ∀ items others : List Value, sameItems items others = true ↔ items = others
  | [], others => by cases others <;> simp [sameItems]
  | v :: rest, others => by
      cases others <;> simp [sameItems, same_iff v, sameItems_iff rest]

theorem sameEntries_iff : ∀ entries others : List (Text × Value),
    sameEntries entries others = true ↔ entries = others
  | [], others => by cases others <;> simp [sameEntries]
  | (key, v) :: rest, others => by
      cases others <;> simp [sameEntries, same_iff v, sameEntries_iff rest, Prod.ext_iff]

end

instance : DecidableEq Value := fun _ _ => decidable_of_iff _ (same_iff _ _)

end Value

namespace Fields

def get? (fields : Fields) (name : Text) : Option Value := fields.lookup name

/-- Puts a value under a name: in place of the one that is there, or else at the end. -/
def insert (fields : Fields) (name : Text) (v : Value) : Fields :=
  match fields with
  | [] => [(name, v)]
  | (key, old) :: rest =>
    if key = name then (key, v) :: rest else (key, old) :: insert rest name v

/-- The fields of a list of pairs, in which the last value of a name wins and the first place. -/
def ofPairs (pairs : List (Text × Value)) : Fields :=
  pairs.foldl (fun fields (name, v) => insert fields name v) []

end Fields

end LineShell
