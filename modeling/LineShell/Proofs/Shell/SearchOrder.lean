import LineShell.Proofs.Program.Run
import LineShell.Proofs.Text.Separators
import LineShell.Services.InMemory
import LineShell.Shell.Child

/-!
# The order of a lookup

A name is looked for in one directory of the search path after another.  `Lookup.FirstOf` says what
going through the candidates has to come to: the path is the first that exists, or else the fallback,
and asked about are the candidates up to the one that was found, and no others.

Who is asked does not matter for it.  `Lookup.recording` is a predicate that keeps what it is asked
about, and services that answer by the same predicate (`Lookup.AnsweredBy`) are asked the same
questions; `Lookup.run_firstFound` goes through the directories with both of them.

The main result is `Lookup.resolve_looksNoFurther`.  That the pieces of a search path are what it is made
of is `Lookup.directories_spec`.
-/

namespace LineShell

open Program

namespace Lookup

/-- What going through candidates comes to, and the paths that are asked about on the way. -/
inductive FirstOf (isFile : Text → Bool) (fallback : Text) :
    (candidates : List Text) → (path : Text) → (asked : List Text) → Prop
  /-- One that exists is behind others that do not: nothing behind it is asked about. -/
  | found {before after : List Text} {candidate : Text} (hbefore : ∀ path ∈ before, isFile path = false)
      (hthere : isFile candidate = true) :
      FirstOf isFile fallback (before ++ candidate :: after) candidate (before ++ [candidate])
  /-- None exists: the fallback is not asked about. -/
  | nowhere {candidates : List Text} (h : ∀ path ∈ candidates, isFile path = false) :
      FirstOf isFile fallback candidates fallback candidates

variable {isFile : Text → Bool} {fallback : Text}

/-- A candidate that does not exist is asked about and passed over. -/
theorem FirstOf.pass {candidates asked : List Text} {candidate path : Text}
    (hmissing : isFile candidate = false) (h : FirstOf isFile fallback candidates path asked) :
    FirstOf isFile fallback (candidate :: candidates) path (candidate :: asked) := by
  cases h with
  | @found before after _ hbefore hthere =>
      exact @FirstOf.found _ _ (candidate :: before) after _
        (List.forall_mem_cons.mpr ⟨hmissing, hbefore⟩) hthere
  | nowhere h => exact .nowhere (List.forall_mem_cons.mpr ⟨hmissing, h⟩)

/-- Where going through candidates ends is one of them, or the fallback. -/
theorem FirstOf.mem {candidates asked : List Text} {path : Text}
    (h : FirstOf isFile fallback candidates path asked) : path = fallback ∨ path ∈ candidates := by
  cases h with
  | found => exact .inr (by simp)
  | nowhere => exact .inl rfl

/-! ## Who is asked -/

/-- An existence predicate that keeps the paths it is asked about, in order. -/
def recording (isFile : Text → Bool) (path : Text) : StateM (List Text) Bool := do
  modify (· ++ [path])
  return isFile path

/-- Whether a path names a file is answered by a predicate, and nothing else is done about it. -/
def AnsweredBy {World : Type} (isFile : Text → Bool)
    (answer : (c : ServiceCall) → World → Answer World ServiceCall.Reply c) (w : World) : Prop :=
  ∀ path, answer (.fileExists path) w = ⟨.ok (isFile path), w, []⟩

/-- A question to such services. -/
def question (isFile : Text → Bool) (path : Text) : Event ServiceCall.Reply :=
  .called (.fileExists path) (.ok (isFile path))

theorem run_isFile {World : Type} {answer : (c : ServiceCall) → World → Answer World ServiceCall.Reply c}
    {w : World} (h : AnsweredBy isFile answer w) (path : Text) (s : Session) :
    (Child.isFile path).run answer s w = ⟨.returned (isFile path), s, w, [question isFile path]⟩ := by
  rw [Child.isFile, Action.ask, run_request, h]
  rfl

/-- Going through the directories asks about the name in each of them, up to the first that has it, and
the services are asked just what a predicate in their place is. -/
theorem run_firstFound (isFile : Text → Bool) (name fallback : Text) (directories past : List Text) :
    ∃ found asked, (firstFound (recording isFile) name directories).run past = (found, past ++ asked) ∧
      FirstOf isFile fallback (directories.map (join · name)) (found.getD fallback) asked ∧
      ∀ (World : Type) (answer : (c : ServiceCall) → World → Answer World ServiceCall.Reply c)
        (s : Session) (w : World), AnsweredBy isFile answer w →
          (firstFound Child.isFile name directories).run answer s w =
            ⟨.returned found, s, w, asked.map (question isFile)⟩ := by
  induction directories generalizing past with
  | nil =>
      refine ⟨none, [], ?_, .nowhere nofun, fun _ _ _ _ _ => rfl⟩
      rw [List.append_nil]
      rfl
  | cons directory rest ih =>
      -- the question comes first, and its answer says whether to go on
      have hrecord : (firstFound (recording isFile) name (directory :: rest)).run past =
          (if isFile (join directory name) then pure (some (join directory name))
            else firstFound (recording isFile) name rest).run (past ++ [join directory name]) := rfl
      have hservices : firstFound Child.isFile name (directory :: rest) =
          (Child.isFile (join directory name)).bind fun found =>
            if found then done (some (join directory name)) else firstFound Child.isFile name rest := by
        simp only [firstFound, bind_eq_bind]
        congr 1
      rw [hrecord, hservices]
      cases hthere : isFile (join directory name) with
      | true =>
          refine ⟨_, _, rfl, @FirstOf.found _ _ [] _ _ nofun hthere, fun World answer s w h => ?_⟩
          rw [run_bind, run_isFile h, hthere]
          rfl
      | false =>
          obtain ⟨found, asked, hrun, hfirst, hasked⟩ := ih (past ++ [join directory name])
          refine ⟨found, join directory name :: asked, ?_, hfirst.pass hthere,
            fun World answer s w h => ?_⟩
          · rw [if_neg Bool.false_ne_true, hrun, ← List.append_cons]
          · rw [run_bind, run_isFile h, hthere]
            simp only [Outcome.andThen, Bool.false_eq_true, if_false, hasked World answer s w h]
            rfl

theorem isAbsolute_join {directory : Text} (name : Text)
    (h : directory ≠ [] → isAbsolute directory = true) : isAbsolute (join directory name) = true := by
  cases directory with
  | nil => rfl
  | cons first rest => exact h (List.cons_ne_nil first rest)

/-! ## The pieces of a search path -/

/-- The pieces of a search path are what its delimiters leave, empty pieces included. -/
theorem directories_spec (searchPath : Text) :
    Text.intercalate [delimiter] (directories searchPath) = searchPath ∧
      (∀ piece ∈ directories searchPath, delimiter ∉ piece) ∧
      (directories searchPath = [] ↔ searchPath = []) := by
  cases searchPath with
  | nil => exact ⟨rfl, nofun, iff_of_true rfl rfl⟩
  | cons first rest =>
      have hpieces : directories (first :: rest) = Text.splitOn delimiter (first :: rest) := rfl
      rw [hpieces]
      refine ⟨Text.intercalate_splitOn delimiter _, fun piece hpiece hmem => ?_, ?_⟩
      · rw [Text.splitOn_eq] at hpiece
        exact (Text.mem_of_mem_splitOn hpiece hmem).2 rfl
      · simp [Text.splitOn_ne_nil]

/-! ## Looking up -/

/-- What a lookup comes to and the paths it asks about on the way; the services are asked just what a
predicate in their place is. -/
theorem run_resolve (isFile : Text → Bool) (name pwd searchPath : Text) :
    ∃ path asked, (resolve (recording isFile) name pwd searchPath).run [] = (path, asked) ∧
      (if isAbsolute name then (path, asked) = (name, [])
        else FirstOf isFile (join pwd name) ((directories searchPath).map (join · name)) path asked) ∧
      ∀ (World : Type) (answer : (c : ServiceCall) → World → Answer World ServiceCall.Reply c)
        (s : Session) (w : World), AnsweredBy isFile answer w →
          (resolve Child.isFile name pwd searchPath).run answer s w =
            ⟨.returned path, s, w, asked.map (question isFile)⟩ := by
  cases hname : isAbsolute name with
  | true =>
      refine ⟨name, [], ?_, rfl, fun _ _ _ _ _ => ?_⟩ <;>
      · simp only [resolve, hname]
        rfl
  | false =>
      obtain ⟨found, asked, hrun, hfirst, hasked⟩ :=
        run_firstFound isFile name (join pwd name) (directories searchPath) []
      refine ⟨found.getD (join pwd name), asked, ?_, hfirst, fun World answer s w h => ?_⟩
      · simp only [resolve, hname, Bool.false_eq_true, if_false, StateT.run_bind, hrun]
        cases found <;> rfl
      · simp only [resolve, hname, Bool.false_eq_true, if_false, bind_eq_bind, run_bind,
          hasked World answer s w h, Outcome.andThen]
        cases found <;> simp

/-- A lookup takes the first candidate that exists and looks no further: a name that starts at the root
is the path, without any question; any other name is asked about in the pieces of the search path in
order, up to the first that has it, and falls back to the working directory, which is not asked about.
From a working directory and pieces that start at the root the path does, too.  The shell asks the
services in just this way. -/
theorem resolve_looksNoFurther (isFile : Text → Bool) (name pwd searchPath : Text) :
    let pieces := directories searchPath
    let looked := (resolve (recording isFile) name pwd searchPath).run []
    (Text.intercalate [delimiter] pieces = searchPath ∧ (∀ piece ∈ pieces, delimiter ∉ piece) ∧
      (pieces = [] ↔ searchPath = [])) ∧
    (if isAbsolute name then looked = (name, [])
      else FirstOf isFile (join pwd name) (pieces.map (join · name)) looked.1 looked.2) ∧
    (isAbsolute pwd → (∀ piece ∈ pieces, piece ≠ [] → isAbsolute piece) → isAbsolute looked.1) ∧
    ∀ (World : Type) (answer : (c : ServiceCall) → World → Answer World ServiceCall.Reply c)
      (s : Session) (w : World), AnsweredBy isFile answer w →
        (resolve Child.isFile name pwd searchPath).run answer s w =
          ⟨.returned looked.1, s, w, looked.2.map (question isFile)⟩ := by
  intro pieces looked
  refine ⟨directories_spec searchPath, ?_⟩
  obtain ⟨path, asked, hlooked, hplace, hservices⟩ := run_resolve isFile name pwd searchPath
  rw [show looked = (path, asked) from hlooked]
  refine ⟨hplace, fun hpwd hpieces => ?_, hservices⟩
  split at hplace
  next hname =>
    cases hplace
    exact hname
  next =>
    -- what was found is in a piece or in the working directory, and all of those start at the root
    rcases hplace.mem with heq | hmem
    · rw [heq]
      exact isAbsolute_join name fun _ => hpwd
    · obtain ⟨piece, hpiece, heq⟩ := List.mem_map.mp hmem
      rw [← heq]
      exact isAbsolute_join name (hpieces piece hpiece)

/-- An empty piece of the search path stands for the root, and a name that is found there is not asked
about in the piece behind it. -/
theorem resolve_looksNoFurther_of_emptyPiece :
    let isFile : Text → Bool := fun path => path == "/ls" || path == "/usr/bin/ls"
    let searchPath : Text := "/bin::/usr/bin"
    let w := InMemory.create [("/ls", []), ("/usr/bin/ls", [])] [] "/home" searchPath [] [] [] false
      false []
    let looked := (resolve (recording isFile) "ls" "/home" searchPath).run []
    looked = (("/ls", ["/bin/ls", "/ls"]) : Text × List Text) ∧ isAbsolute looked.1 ∧
      (resolve Child.isFile "ls" "/home" searchPath).run InMemory.answer .unstarted w =
        ⟨.returned "/ls", .unstarted, w,
          [.called (.fileExists "/bin/ls") (.ok false), .called (.fileExists "/ls") (.ok true)]⟩ := by
  intro isFile searchPath w looked
  obtain ⟨-, -, habsolute, hservices⟩ := resolve_looksNoFurther isFile "ls" "/home" searchPath
  have hanswered : AnsweredBy isFile InMemory.answer w := by
    intro path
    have hfile : (w.files.lookup path).isSome = isFile path := by
      simp only [w, InMemory.create, List.lookup_cons, List.lookup_nil, isFile]
      cases path == ("/ls" : Text) <;> cases path == ("/usr/bin/ls" : Text) <;> rfl
    rw [← hfile]
    rfl
  exact ⟨rfl, habsolute rfl (by decide), hservices InMemory InMemory.answer .unstarted w hanswered⟩

end Lookup

end LineShell
