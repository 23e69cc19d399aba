import LineShell.Proofs.Program.Footprint

/-!
# Taking and giving back

Some events take a thing and some give one back.  A `Custody` tells which they are, and which events
are bare: they have to find nothing held.  In a run that is in order what was given back is, one by
one, what was taken, but for one thing at most that is still held (`Custody.Orderly`).

`Custody.At held` is what holds between two steps of such a run.  What takes nothing and gives nothing
back keeps it (`Custody.ensures_aside`), and a single event moves it (`Custody.At.concat`).  Where
nothing is held at the end, each thing was given back before the next bare event
(`Custody.At.given_back`).
-/

namespace LineShell

open Program

variable {σ Call World : Type} {Reply : Call → Type} {α : Type}

/-- What events take and give back, and which of them have to find nothing held. -/
structure Custody {Call : Type} (Reply : Call → Type) where
  taken? : Event Reply → Option Int
  given? : Event Reply → Option Int
  bare : Event Reply → Prop

namespace Custody

variable (k : Custody Reply)

/-- What was taken, in order. -/
def taken (events : List (Event Reply)) : List Int := events.filterMap k.taken?

/-- What was given back, in order. -/
def given (events : List (Event Reply)) : List Int := events.filterMap k.given?

/-- What was given back is what was taken, but for what is still held. -/
def Owing (held : Option Int) (past : List (Event Reply)) : Prop :=
  k.taken past = k.given past ++ held.toList

/-- One thing at most was held at any time, and none when a bare event came. -/
structure Orderly (past : List (Event Reply)) : Prop where
  single : ∀ before after, past = before ++ after → ∃ held, k.Owing held before
  bare : ∀ before e after, past = before ++ e :: after → k.bare e → k.Owing none before

/-- A run was in order so far, and one thing or none is held. -/
structure At (held : Option Int) (past : List (Event Reply)) : Prop where
  orderly : k.Orderly past
  owing : k.Owing held past

/-- An event that has nothing to do with the custody. -/
structure Aside (e : Event Reply) : Prop where
  taken : k.taken? e = none
  given : k.given? e = none
  bare : ¬k.bare e

variable {k} {held left : Option Int} {past before after : List (Event Reply)} {e : Event Reply}
  {r : Int}

theorem taken_append (past more : List (Event Reply)) :
    k.taken (past ++ more) = k.taken past ++ k.taken more := List.filterMap_append

theorem given_append (past more : List (Event Reply)) :
    k.given (past ++ more) = k.given past ++ k.given more := List.filterMap_append

theorem taken_cons_of_some (h : k.taken? e = some r) : k.taken (e :: after) = r :: k.taken after :=
  List.filterMap_cons_some h

theorem given_cons_of_none (h : k.given? e = none) : k.given (e :: after) = k.given after :=
  List.filterMap_cons_none h

theorem at_nil : k.At none [] where
  orderly :=
    { single := fun before after h => by
        obtain ⟨rfl, -⟩ := List.append_eq_nil_iff.mp h.symm
        exact ⟨none, rfl⟩
      bare := fun before e after h => by simp at h }
  owing := rfl

/-- One more event: what it takes is owed from now on, and what it gives back is owed no more. -/
theorem At.concat (hbare : k.bare e → held = none)
    (hbalance : held.toList ++ k.taken [e] = k.given [e] ++ left.toList) (h : k.At held past) :
    k.At left (past ++ [e]) := by
  have howing : k.Owing left (past ++ [e]) :=
    calc k.taken (past ++ [e])
        = k.given past ++ (held.toList ++ k.taken [e]) := by
          rw [taken_append, h.owing, List.append_assoc]
      _ = k.given past ++ (k.given [e] ++ left.toList) := by rw [hbalance]
      _ = k.given (past ++ [e]) ++ left.toList := by rw [given_append, List.append_assoc]
  refine ⟨⟨fun before after hsplit => ?_, fun before x after hsplit hx => ?_⟩, howing⟩
  · -- a proper part of the run was over before, and the whole of it owes what is left
    rcases List.eq_nil_or_concat after with rfl | ⟨rest, last, rfl⟩
    · rw [List.append_nil] at hsplit
      exact ⟨left, hsplit ▸ howing⟩
    · rw [List.concat_eq_append, ← List.append_assoc] at hsplit
      exact h.orderly.single before rest (List.append_inj' hsplit rfl).1
  · rcases concat_eq_append_cons hsplit with ⟨-, rfl, rfl⟩ | ⟨rest, -, hpast⟩
    · rw [← hbare hx]
      exact h.owing
    · exact h.orderly.bare before x rest hpast hx

theorem At.aside (he : k.Aside e) (h : k.At held past) : k.At held (past ++ [e]) := by
  have htaken : k.taken [e] = [] := List.filterMap_cons_none he.taken
  have hgiven : k.given [e] = [] := List.filterMap_cons_none he.given
  refine h.concat (fun hbare => absurd hbare he.bare) ?_
  rw [htaken, hgiven, List.append_nil, List.nil_append]

/-- An event that takes something, when nothing is held. -/
theorem At.take (htaken : k.taken? e = some r) (hgiven : k.given? e = none) (h : k.At none past) :
    k.At (some r) (past ++ [e]) := by
  refine h.concat (fun _ => rfl) ?_
  rw [taken_cons_of_some htaken, given_cons_of_none hgiven]
  rfl

/-- An event that gives back what is held. -/
theorem At.give (hbare : ¬k.bare e) (htaken : k.taken? e = none) (hgiven : k.given? e = some r)
    (h : k.At (some r) past) : k.At none (past ++ [e]) := by
  refine h.concat (fun hx => absurd hx hbare) ?_
  rw [taken, List.filterMap_cons_none htaken, given, List.filterMap_cons_some hgiven]
  rfl

/-- A bare event that takes nothing, when nothing is held. -/
theorem At.miss (htaken : k.taken? e = none) (hgiven : k.given? e = none) (h : k.At none past) :
    k.At none (past ++ [e]) := by
  refine h.concat (fun _ => rfl) ?_
  rw [taken, List.filterMap_cons_none htaken, given_cons_of_none hgiven]
  rfl

/-- What has nothing to do with the custody leaves it as it is. -/
theorem ensures_aside {answer : (c : Call) → World → Answer World Reply c} {S : Scope σ Call}
    {p : Program σ Reply α} (hp : p.Footprint S) (hinner : ∀ c w, (answer c w).inner = [])
    (hcalls : ∀ c, S.calls c → ∀ outcome, k.Aside (.called c outcome))
    (hnotes : ∀ entry, k.Aside (.logged entry)) :
    Ensures answer (fun past _ _ => k.At held past) p (fun _ past _ _ => k.At held past)
      (fun _ past _ _ => k.At held past) (fun past _ _ => S.stops ∧ k.At held past) := by
  refine hp.ensures (fun c hc past s w h => ?_) (fun _ _ _ _ _ h => h)
    (fun entry _ past s w h => h.aside (hnotes entry)) fun hstops _ _ _ h => ⟨hstops, h⟩
  rw [hinner]
  exact h.aside (hcalls c hc _)

/-! ## Giving back -/

/-- What was given back first of all that is left stands where nothing was given back before. -/
theorem exists_given {events : List (Event Reply)} {rest : List Int}
    (h : k.given events = r :: rest) :
    ∃ middle e more, events = middle ++ e :: more ∧ k.given? e = some r ∧ k.given middle = [] ∧
      k.given more = rest := by
  obtain ⟨middle, e, more, rfl, hmiddle, he, hmore⟩ := List.filterMap_eq_cons_iff.mp h
  exact ⟨middle, e, more, rfl, he, List.filterMap_eq_nil_iff.mpr hmiddle, hmore⟩

/-- Where nothing is held at the end, what was taken was given back, and until then nothing bare was
seen and nothing else was given back. -/
theorem At.given_back (hbare : k.bare e) (htaken : k.taken? e = some r) (hgiven : k.given? e = none)
    (hsplit : past = before ++ e :: after) (h : k.At none past) :
    ∃ middle g rest, after = middle ++ g :: rest ∧ k.given? g = some r ∧ k.given middle = [] ∧
      (∀ x ∈ middle, ¬k.bare x) ∧ k.given rest = k.taken after := by
  have hbefore : k.taken before = k.given before ++ [] := h.orderly.bare before e after hsplit hbare
  have hafter : k.given after = r :: k.taken after := by
    have howing : k.taken past = k.given past ++ [] := h.owing
    rw [hsplit, taken_append, given_append, taken_cons_of_some htaken, given_cons_of_none hgiven,
      List.append_nil, hbefore, List.append_nil] at howing
    exact (List.append_cancel_left howing).symm
  obtain ⟨middle, g, rest, rfl, hg, hmiddle, hrest⟩ := exists_given hafter
  refine ⟨middle, g, rest, rfl, hg, hmiddle, fun x hx hbarex => ?_, hrest⟩
  -- a bare event in between would have found something held
  obtain ⟨first, last, rfl⟩ := List.append_of_mem hx
  have hfirst : k.given first = [] := by
    rw [given_append] at hmiddle
    exact (List.append_eq_nil_iff.mp hmiddle).1
  have hfound : k.taken (before ++ e :: first) = k.given (before ++ e :: first) ++ [] := by
    refine h.orderly.bare _ x (last ++ g :: rest) ?_ hbarex
    rw [hsplit]
    simp
  rw [taken_append, given_append, taken_cons_of_some htaken, given_cons_of_none hgiven, hfirst,
    List.append_nil, hbefore, List.append_nil] at hfound
  simp at hfound

/-- What is given back was taken before. -/
theorem Orderly.mem_taken (htaken : k.taken? e = none) (hgiven : k.given? e = some r)
    (hsplit : past = before ++ e :: after) (h : k.Orderly past) : r ∈ k.taken before := by
  obtain ⟨held, howing⟩ := h.single (before ++ [e]) after (by rw [hsplit, List.append_cons])
  have hbefore : k.taken before = k.given before ++ [r] ++ held.toList := by
    have hnone : k.taken [e] = [] := List.filterMap_cons_none htaken
    have hone : k.given [e] = [r] := List.filterMap_cons_some hgiven
    rw [Owing, taken_append, given_append, hnone, hone, List.append_nil] at howing
    exact howing
  rw [hbefore]
  apply List.mem_append_left
  apply List.mem_append_right
  exact List.mem_singleton.mpr rfl

end Custody

end LineShell
