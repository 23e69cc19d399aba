import LineShell.Proofs.Program.Ensures
import LineShell.Shell

/-!
# What a lookup finds

Looking up a name asks the services which paths name files.  Where the answers are those of a fixed
set of files, the path that is found is a function of that set, the working directory and the search
path (`Lookup.pathWhere`), and asking is all that happens (`ensures_resolve`).
-/

namespace LineShell

open Program LineShell.Action

namespace Lookup

/-- The path of a name where it is known which paths name files. -/
def pathWhere (isFile : Text → Bool) (name pwd searchPath : Text) : Text :=
  resolve (m := Id) isFile name pwd searchPath

variable {World : Type} {answer : (c : ServiceCall) → World → Answer World ServiceCall.Reply c}
  {I : Assertion Session World ServiceCall.Reply}
  {fails : Failure → Assertion Session World ServiceCall.Reply} {isFile : Text → Bool}

theorem ensures_firstFound
    (hask : ∀ path, Ensures answer I (Child.isFile path)
      (fun found past s w => found = isFile path ∧ I past s w) fails Never)
    (name : Text) (directories : List Text) :
    Ensures answer I (firstFound Child.isFile name directories)
      (fun found past s w => found = firstFound (m := Id) isFile name directories ∧ I past s w)
      fails Never := by
  induction directories with
  | nil => exact Ensures.done fun _ _ _ h => ⟨rfl, h⟩
  | cons directory rest ih =>
      refine Ensures.bind (hask (join directory name)) fun found => ?_
      refine Ensures.and_pre fun hfound => ?_
      have hfirst : firstFound (m := Id) isFile name (directory :: rest) =
          if isFile (join directory name) then some (join directory name)
          else firstFound (m := Id) isFile name rest := rfl
      rw [hfirst, ← hfound]
      cases found with
      | true => exact Ensures.done fun _ _ _ h => ⟨rfl, h⟩
      | false => exact ih

/-- A lookup finds the path that it should, or it fails as one of its questions does. -/
theorem ensures_resolve
    (hask : ∀ path, Ensures answer I (Child.isFile path)
      (fun found past s w => found = isFile path ∧ I past s w) fails Never)
    (name pwd searchPath : Text) :
    Ensures answer I (resolve Child.isFile name pwd searchPath)
      (fun path past s w => path = pathWhere isFile name pwd searchPath ∧ I past s w) fails Never := by
  have hpath : pathWhere isFile name pwd searchPath =
      if isAbsolute name then name
      else (firstFound (m := Id) isFile name (directories searchPath)).getD (join pwd name) := by
    rw [pathWhere, resolve]
    cases isAbsolute name with
    | true => rfl
    | false =>
        change (match firstFound (m := Id) isFile name (directories searchPath) with
          | some path => path
          | none => join pwd name) = _
        cases firstFound (m := Id) isFile name (directories searchPath) <;> rfl
  rw [hpath, resolve]
  cases isAbsolute name with
  | true => exact Ensures.done fun _ _ _ h => ⟨rfl, h⟩
  | false =>
      refine Ensures.bind (ensures_firstFound hask name (directories searchPath)) fun found => ?_
      refine Ensures.and_pre fun hfound => ?_
      rw [← hfound]
      cases found <;> exact Ensures.done fun _ _ _ h => ⟨rfl, h⟩

end Lookup

end LineShell
