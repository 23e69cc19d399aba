import LineShell.Log.Record

/-!
# Recent records

The most recent records in memory, up to a number of them, and looking through them by level and
subsystem.  What is asked for are values of any kind: a filter is compared with what was kept, and
only a number of records has to be a number.
-/

namespace LineShell.Log

structure Kept where
  /-- Seconds since the beginning of 1970. -/
  created : Double
  level : Text
  message : Text
  subsystem : Value
  pid : Value
  context : Value

/-- What is kept of a record. -/
def Kept.ofRecord (r : Record) : Kept where
  created := r.created
  level := Level.nameOf r.level
  message := r.message
  subsystem := r.subsystem.getD .null
  pid := r.pid.getD .null
  context := r.context.getD (.dict [])

/-- A kept record as named values, without its moment. -/
def Kept.toFields (k : Kept) : Fields :=
  [("level", .text k.level), ("message", .text k.message), ("subsystem", k.subsystem),
    ("pid", k.pid), ("context", k.context)]

/-- The last `n` items.  Zero stands for all of them, and a number below zero for all but so many
at the front. -/
def lastOf {α : Type} (n : Int) (items : List α) : List α :=
  if 0 < n then items.drop (items.length - n.toNat) else items.drop (-n).toNat

/-- As many of the last items as a value asks for, which has to be an integer. -/
def lastAsked {α : Type} (count : Value) (items : List α) : Except Failure (List α) :=
  match count.toInt? with
  | some n => .ok (lastOf n items)
  | none => .error .wrongKind

/-- Whether a value is what a filter asks for.  A filter that is not truthy asks for nothing. -/
def passes (filter v : Value) : Bool := !filter.isTruthy || v.equals filter

structure Recent where
  /-- The number of records that are kept. -/
  limit : Value := .int 1000
  kept : List Kept := []

namespace Recent

/-- Drops the oldest records when there are more than the limit, which has to be a number.  If it is
not, all of them stay. -/
def trim (b : Recent) : Except Failure Unit × Recent :=
  match b.limit.ltInt? b.kept.length with
  | none => (.error .wrongKind, b)
  | some false => (.ok (), b)
  | some true =>
    match lastAsked b.limit b.kept with
    | .ok last => (.ok (), { b with kept := last })
    | .error e => (.error e, b)

def add (b : Recent) (r : Record) : Except Failure Unit × Recent :=
  { b with kept := b.kept ++ [Kept.ofRecord r] }.trim

/-- Adds records one after another, up to one that fails. -/
def addAll (b : Recent) : List Record → Except Failure Unit × Recent
  | [] => (.ok (), b)
  | r :: rest =>
    match b.add r with
    | (.ok (), after) => after.addAll rest
    | (.error e, after) => (.error e, after)

def usualCount : Value := .int 100

def get (b : Recent) (level subsystem count : Value) : Except Failure (List Kept) :=
  lastAsked count
    ((b.kept.filter fun k => passes level (.text k.level)).filter fun k =>
      passes subsystem k.subsystem)

def clear (b : Recent) : Recent := { b with kept := [] }

end Recent

end LineShell.Log
