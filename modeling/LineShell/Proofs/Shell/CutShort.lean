import LineShell.Proofs.Program.Alike
import LineShell.Proofs.Shell.Descriptors
import LineShell.Proofs.Shell.Resumption

/-!
# Sources that are cut short

Two worlds may differ in the content of one source, which in the second of them is cut short.  A run can
tell them apart only where it reads beyond the cut, or opens the file of the source under another
descriptor (`Event.BeforeCut`): until then each call is answered alike (`InMemory.CutTo.serve`), so both runs go
through the same points (`InMemory.CutTo.passes`).

A world with a single fault is, until a call is hit by it, the world without any
(`Passes.calm_of_unhit`).

A source is standard input or the file of a script (`Source`).  In a run that opens it just once it has one
descriptor, so the world in which it is cut (`InMemory.cutShort`) is one of those (`Started.cutTo`).
-/

namespace LineShell

open Program LineShell.Action

/-! ## Lines within the cut -/

namespace InMemory

theorem firstLine_take {source : Bytes} {n : Nat} (h : (firstLine source).length ≤ n) :
    firstLine (source.take n) = firstLine source := by
  induction source generalizing n with
  | nil => rw [List.take_nil]
  | cons byte rest ih =>
      cases n with
      | zero =>
          rw [firstLine] at h
          split at h <;> cases h
      | succ n =>
          rw [List.take_succ_cons, firstLine, firstLine]
          split
          · rfl
          · next hbyte =>
              rw [firstLine, if_neg hbyte, List.length_cons] at h
              rw [ih (Nat.le_of_succ_le_succ h)]

/-- A line that ends before the cut is read as it was. -/
theorem lineAt_take {content : Bytes} {offset capacity : Int} {n : Nat}
    (h : offset.toNat + (lineAt content offset capacity).length ≤ n) :
    lineAt (content.take n) offset capacity = lineAt content offset capacity := by
  rw [lineAt, List.drop_take, List.take_take, Nat.min_comm, ← List.take_take]
  exact firstLine_take (by rw [lineAt] at h; omega)

/-- There is nothing behind the cut. -/
theorem lineAt_take_toNat (content : Bytes) (offset capacity : Int) :
    lineAt (content.take offset.toNat) offset capacity = [] := by
  rw [lineAt, List.drop_eq_nil_of_le (List.length_take_le _ _), List.take_nil]
  rfl

end InMemory

/-- An event that is the same when a source is cut: the file of the source is opened under its descriptor
alone, and nothing is read from behind the cut. -/
def Event.BeforeCut (path : Option Text) (fd : Int) (n : Nat) : Event ServiceCall.Reply → Prop
  | .called (.openReadOnly p) (.ok g) => some p = path ↔ g = fd
  | .called (.readLine g offset _) (.ok line) => g = fd → offset.toNat + line.length ≤ n
  | _ => True

namespace InMemory

/-- The second world is the first one with a source cut: the file of a script, if it is one, and what is
behind its descriptor. -/
structure CutTo (path : Option Text) (fd : Int) (n : Nat) (w v : InMemory) : Prop where
  rest : v = { w with files := v.files, sources := v.sources }
  files : ∀ p, v.files.lookup p =
    (w.files.lookup p).map fun content => if some p = path then content.take n else content
  sources : ∀ g, v.sources.lookup g =
    (w.sources.lookup g).map fun content => if g = fd then content.take n else content

variable {path : Option Text} {fd : Int} {n : Nat} {w v : InMemory}

/-- A call is answered alike when what is seen of it is the same. -/
theorem CutTo.serve (h : CutTo path fd n w v) {c : ServiceCall}
    (hc : (Event.called c (w.serve c).1).BeforeCut path fd n) :
    (v.serve c).1 = (w.serve c).1 ∧ CutTo path fd n (w.serve c).2 (v.serve c).2 := by
  obtain ⟨hrest, hfiles, hsources⟩ := h
  revert hrest hfiles hsources
  generalize v.files = files
  generalize v.sources = sources
  rintro rfl hfiles hsources
  cases c with
  | readLine g offset capacity =>
      simp only [InMemory.serve] at hc ⊢
      rw [hsources]
      cases hsource : w.sources.lookup g with
      | none => exact ⟨rfl, rfl, hfiles, hsources⟩
      | some content =>
          rw [hsource] at hc
          cases hcapacity : capacity.toInt? with
          | none => exact ⟨rfl, rfl, hfiles, hsources⟩
          | some size =>
              rw [hcapacity] at hc
              refine ⟨?_, rfl, hfiles, hsources⟩
              dsimp only [Option.map_some]
              split
              -- of the cut source the read keeps in front of the cut, where it is the same
              · next hg => rw [lineAt_take (hc hg)]
              · rfl
  | openReadOnly p =>
      simp only [InMemory.serve] at hc ⊢
      rw [hfiles]
      cases hfile : w.files.lookup p with
      | none => exact ⟨rfl, rfl, hfiles, hsources⟩
      | some content =>
          rw [hfile] at hc
          refine ⟨rfl, rfl, hfiles, fun g => ?_⟩
          dsimp only [Option.map_some]
          rw [List.lookup_cons, List.lookup_cons, hsources]
          -- the file becomes the cut source if it is the path and gets the descriptor
          by_cases hg : g = w.nextFd
          · subst hg
            rw [beq_self_eq_true]
            dsimp only [Option.map_some]
            have hsame : some p = path ↔ w.nextFd = fd := hc
            simp only [hsame]
          · rw [beq_false_of_ne hg]
  | fileExists p =>
      simp only [InMemory.serve, hfiles, Option.isSome_map]
      exact ⟨trivial, rfl, hfiles, hsources⟩
  | close g =>
      refine ⟨rfl, rfl, hfiles, fun g' => ?_⟩
      simp only [InMemory.serve]
      rw [lookup_filter_key (· != g), lookup_filter_key (· != g), hsources]
      split <;> rfl
  | _ =>
      simp only [InMemory.serve]
      repeat' split
      all_goals exact ⟨by trivial, rfl, hfiles, hsources⟩

end InMemory

/-! ## Runs side by side -/

section Passages

variable {α : Type} {x y : Point Session InMemory ServiceCall.Reply α}
  {past : List (Event ServiceCall.Reply)}

/-- On the way of a run faults only ever get fewer. -/
theorem Passes.length_faults_le (h : Passes InMemory.answer x past y) :
    y.world.faults.length ≤ x.world.faults.length :=
  h.kept (P := fun _ w => w.faults.length ≤ x.world.faults.length)
    (fun c _ w hw => Nat.le_trans (InMemory.length_faults_answer_le c w) hw) (fun _ _ _ => id) (Nat.le_refl _)

/-- Where nothing goes wrong and nothing that is seen is behind the cut, the run in the second world goes
through the same points. -/
theorem InMemory.CutTo.passes {path : Option Text} {fd : Int} {n : Nat}
    (hpass : Passes InMemory.answer x past y) (hfaults : x.world.faults = [])
    (hpast : ∀ e ∈ past, e.BeforeCut path fd n) {v : InMemory} (h : CutTo path fd n x.world v) :
    ∃ v', CutTo path fd n y.world v' ∧
      Passes InMemory.answer ⟨x.rest, x.state, v⟩ past ⟨y.rest, y.state, v'⟩ := by
  refine hpass.alike (A := CutTo path fd n) (fun before c next t u v after hbefore _ hall hv => ?_) h
  have hfewer := hbefore.length_faults_le
  rw [hfaults] at hfewer
  have hu : u.faults = [] := List.eq_nil_of_length_eq_zero (Nat.le_zero.mp hfewer)
  have hv' : v.faults = [] := by
    rw [hv.rest]
    exact hu
  have hseen : (Event.called c (u.serve c).1).BeforeCut path fd n := by
    refine hpast _ ?_
    rw [hall, InMemory.answer_of_faults_nil hu, List.append_assoc]
    exact List.mem_append_right _ List.mem_cons_self
  obtain ⟨houtcome, hworld⟩ := hv.serve hseen
  rw [InMemory.answer_of_faults_nil hu, InMemory.answer_of_faults_nil hv']
  exact ⟨houtcome, rfl, hworld⟩

/-- A call that no fault hits is answered as it is without faults. -/
theorem InMemory.answer_calm_of_miss {c : ServiceCall} {w : InMemory}
    (h : Fault.hit? w.faults c.name = none) :
    answer c w.calm = ⟨(answer c w).outcome, (answer c w).world.calm, []⟩ := by
  have hready := serve_calm c (w.ready c.name)
  change w.calm.serve c = _ at hready
  rw [answer_miss h, answer_of_faults_nil rfl, hready]

/-- As long as the one fault is still to come, the run is the one without it. -/
theorem Passes.calm_of_unhit (h : Passes InMemory.answer x past y) (hone : x.world.faults.length ≤ 1)
    (hleft : y.world.faults ≠ []) :
    Passes InMemory.answer ⟨x.rest, x.state, x.world.calm⟩ past ⟨y.rest, y.state, y.world.calm⟩ := by
  suffices hboth : ∃ v, v = y.world.calm ∧
      Passes InMemory.answer ⟨x.rest, x.state, x.world.calm⟩ past ⟨y.rest, y.state, v⟩ by
    obtain ⟨_, rfl, hcalm⟩ := hboth
    exact hcalm
  refine h.alike (A := fun u v => v = u.calm) (fun before c next t u v after hbefore hafter _ hv => ?_) rfl
  subst hv
  cases hhit : Fault.hit? u.faults c.name with
  | some e =>
      -- the fault would have been used up
      have hfewer := hbefore.length_faults_le
      have hless := Fault.length_advance_lt hhit
      have hstill := hafter.length_faults_le
      have hpos := List.length_pos_iff.mpr hleft
      rw [InMemory.answer_hit hhit] at hstill
      change y.world.faults.length ≤ (Fault.advance u.faults c.name).length at hstill
      dsimp only at hfewer
      omega
  | none =>
      rw [InMemory.answer_calm_of_miss hhit]
      exact ⟨rfl, (InMemory.answer_inner c u).symm, rfl⟩

end Passages

/-! ## Sources that were opened once -/

/-- Two members that come to the same, which is found once at most, are the same. -/
theorem eq_of_count_le_one {α β : Type} [BEq β] [LawfulBEq β] {f : α → Option β} {members : List α} {x y : α}
    {b : β} (hcount : (members.filterMap f).count b ≤ 1) (hx : x ∈ members) (hy : y ∈ members)
    (hfx : f x = some b) (hfy : f y = some b) : x = y := by
  obtain ⟨first, last, rfl⟩ := List.append_of_mem hx
  rw [List.filterMap_append, List.filterMap_cons_some hfx, List.count_append, List.count_cons_self]
    at hcount
  have hnone : ∀ {part : List α}, (part.filterMap f).count b = 0 → y ∉ part := fun hzero hmem =>
    List.count_eq_zero.mp hzero (List.mem_filterMap.mpr ⟨y, hmem, hfy⟩)
  rcases List.mem_append.mp hy with hfirst | hrest
  · exact absurd hfirst (hnone (by omega))
  · rcases List.mem_cons.mp hrest with rfl | hlast
    · rfl
    · exact absurd hlast (hnone (by omega))

/-- Where lines are read from: standard input, or the file of a script. -/
inductive Source where
  | input
  | script (path : Text)

namespace Source

/-- The file of a source. -/
def path? : Source → Option Text
  | input => none
  | script path => some path

/-- In a run that showed some events a source is read from a descriptor. -/
def ReadAs (fd : Int) (events : List (Event ServiceCall.Reply)) : Source → Prop
  | input => fd = standardInput
  | script path => .called (.openReadOnly path) (.ok fd) ∈ events

/-- A script was opened just once in a run; standard input is open from the start. -/
def OpenedOnce (events : List (Event ServiceCall.Reply)) : Source → Prop
  | input => True
  | script path => (openings events).count path = 1

/-- The file of a source that was opened once is opened under its descriptor alone. -/
theorem OpenedOnce.opened_iff {source : Source} {events past : List (Event ServiceCall.Reply)} {fd : Int}
    (honce : source.OpenedOnce events) (hfd : source.ReadAs fd past) (hpast : past ⊆ events)
    (hnodup : (descriptorsOpened events).Nodup) (hinput : standardInput ∉ descriptorsOpened events)
    {path : Text} {g : Int} (hopened : .called (.openReadOnly path) (.ok g) ∈ events) :
    some path = source.path? ↔ g = fd := by
  cases source with
  | input =>
      refine iff_of_false nofun fun heq => hinput ?_
      cases hfd
      exact List.mem_filterMap.mpr ⟨_, hopened, congrArg some heq⟩
  | script own =>
      have hown := hpast hfd
      -- either the file or the descriptor tells which opening it was
      have hpaths : (openings events).count own ≤ 1 := Nat.le_of_eq honce
      have hdescriptors : (descriptorsOpened events).count g ≤ 1 := List.nodup_iff_count.mp hnodup g
      constructor
      · intro heq
        cases heq
        have hsame := eq_of_count_le_one hpaths hopened hown rfl rfl
        cases hsame
        rfl
      · rintro rfl
        have hsame := eq_of_count_le_one hdescriptors hopened hown rfl rfl
        cases hsame
        rfl

end Source

/-! ## The read that fails -/

namespace InMemory

variable {fd offset n : Int} {capacity : Value} {w : InMemory}

/-- When there is a line to be read, or the end, reading fails by the one fault that was left. -/
theorem answer_readLine_hit {e : Failure} (hone : w.faults.length ≤ 1)
    (hopen : (w.sources.lookup fd).isSome) (hsize : capacity.toInt? = some n)
    (h : (answer (.readLine fd offset capacity) w).outcome = .error e) :
    w.faults ≠ [] ∧ answer (.readLine fd offset capacity) w = ⟨.error e, w.calm, []⟩ := by
  cases hhit : Fault.hit? w.faults (ServiceCall.readLine fd offset capacity).name with
  | none =>
      obtain ⟨content, hcontent⟩ := Option.isSome_iff_exists.mp hopen
      have hready : (w.ready (ServiceCall.readLine fd offset capacity).name).sources.lookup fd =
          some content := hcontent
      rw [answer_miss hhit] at h
      simp only [serve, hready, hsize] at h
      cases h
  | some e' =>
      have hless := Fault.length_advance_lt hhit
      have hnone : Fault.advance w.faults (ServiceCall.readLine fd offset capacity).name = [] :=
        List.eq_nil_of_length_eq_zero (by omega)
      rw [answer_hit hhit] at h ⊢
      cases h
      refine ⟨List.length_pos_iff.mp (by omega), ?_⟩
      rw [ready, hnone, InMemory.calm]

/-- At the cut the source is at its end. -/
theorem CutTo.answer_readLine_cut {path : Option Text} {v : InMemory} (h : CutTo path fd offset.toNat w v)
    (hfaults : w.faults = []) (hopen : (w.sources.lookup fd).isSome) (hsize : capacity.toInt? = some n) :
    answer (.readLine fd offset capacity) v = ⟨.ok [], v, []⟩ := by
  obtain ⟨content, hcontent⟩ := Option.isSome_iff_exists.mp hopen
  have hv : v.faults = [] := by
    rw [h.rest]
    exact hfaults
  have hcut : v.sources.lookup fd = some (content.take offset.toNat) := by
    rw [h.sources, hcontent, Option.map_some, if_pos rfl]
  rw [answer_of_faults_nil hv]
  simp only [InMemory.serve, hcut, hsize, lineAt_take_toNat]

end InMemory

/-! ## Cutting a source -/

namespace InMemory

/-- Standard input is open, and every descriptor that is in use was given out. -/
structure Started (w : InMemory) : Prop where
  input : (w.sources.lookup standardInput).isSome
  given : ∀ source ∈ w.sources, source.1 < w.nextFd

/-- Every world is started as it is created. -/
theorem started_create (files : List (Text × Bytes)) (dirs : List Text) (pwd path : Text) (stdin : Bytes)
    (forks : List Int) (waits : List WaitOutcome) (execReturns exitReturns : Bool)
    (faults : List (Fault ServiceCall.Name)) :
    (create files dirs pwd path stdin forks waits execReturns exitReturns faults).Started where
  input := rfl
  given := by
    intro source hsource
    rw [List.mem_singleton.mp hsource]
    exact (by decide : standardInput < 3)

theorem Started.calm {w : InMemory} (h : w.Started) : w.calm.Started := ⟨h.input, h.given⟩

theorem Started.beyondInput {w : InMemory} (h : w.Started) : standardInput < w.nextFd := by
  obtain ⟨content, hcontent⟩ := Option.isSome_iff_exists.mp h.input
  obtain ⟨before, after, hsources, -⟩ := List.lookup_eq_some_iff.mp hcontent
  exact h.given (standardInput, content) (hsources ▸ List.mem_append_right _ List.mem_cons_self)

/-- Nothing is behind a descriptor that is still to be given out. -/
theorem Started.lookup_of_le {w : InMemory} (h : w.Started) {fd : Int} (hfd : w.nextFd ≤ fd) :
    w.sources.lookup fd = none := by
  refine List.lookup_eq_none_iff.mpr fun source hsource => bne_iff_ne.mpr ?_
  rintro rfl
  exact absurd (h.given source hsource) (Int.not_lt.mpr hfd)

/-- The world with a source cut to its first bytes. -/
def cutShort (w : InMemory) (n : Nat) : Source → InMemory
  | .input =>
    { w with sources := w.sources.map fun source =>
        (source.1, if source.1 = standardInput then source.2.take n else source.2) }
  | .script path =>
    { w with files := w.files.map fun file =>
        (file.1, if file.1 = path then file.2.take n else file.2) }

end InMemory

/-- Descriptors count up from the first one. -/
theorem Passes.nextFd_le_opened {α : Type} {x y : Point Session InMemory ServiceCall.Reply α}
    {past : List (Event ServiceCall.Reply)} (hpass : Passes InMemory.answer x past y) {path : Text} {fd : Int}
    (hopened : .called (.openReadOnly path) (.ok fd) ∈ past) : x.world.nextFd ≤ fd := by
  have hkept := hpass.kept
    (P := fun past v => x.world.nextFd ≤ v.nextFd ∧ ∀ fd ∈ descriptorsOpened past, x.world.nextFd ≤ fd)
    (fun c past v h => ?_) (fun entry past v h => ?_) ⟨Int.le_refl _, nofun⟩
  · exact hkept.2 fd (List.mem_filterMap.mpr ⟨_, hopened, rfl⟩)
  · refine ⟨Int.le_trans h.1 (InMemory.nextFd_le_answer c v), fun fd hfd => ?_⟩
    rw [InMemory.answer_inner, descriptorsOpened_append, List.mem_append] at hfd
    refine hfd.elim (h.2 fd) fun hnow => ?_
    cases c with
    | openReadOnly path =>
        cases houtcome : (InMemory.answer (.openReadOnly path) v).outcome with
        | error e =>
            rw [houtcome] at hnow
            cases hnow
        | ok g =>
            rw [houtcome] at hnow
            obtain rfl := List.mem_singleton.mp hnow
            exact Int.le_trans h.1 (Int.le_of_eq (InMemory.answer_openReadOnly_ok houtcome).symm)
    | _ => cases hnow
  · refine ⟨h.1, fun fd hfd => h.2 fd ?_⟩
    rw [descriptorsOpened_append] at hfd
    exact (List.mem_append.mp hfd).resolve_right List.not_mem_nil

/-- The world with a source cut is cut in what was opened as the source. -/
theorem InMemory.Started.cutTo {w : InMemory} (h : w.Started) {α : Type} {p : Action α} {s : Session}
    {past : List (Event ServiceCall.Reply)} {y : Point Session InMemory ServiceCall.Reply α}
    (hpass : Passes InMemory.answer ⟨p, s, w⟩ past y) {source : Source} {fd : Int}
    (hfd : source.ReadAs fd past) (n : Nat) :
    CutTo source.path? fd n w (w.cutShort n source) := by
  cases source with
  | input =>
      obtain rfl : fd = standardInput := hfd
      refine ⟨rfl, fun p => ?_, fun g => ?_⟩
      · simp [cutShort, Source.path?]
      · exact lookup_map_entry
          (fun g (content : Bytes) => if g = standardInput then content.take n else content) w.sources g
  | script path =>
      refine ⟨rfl, fun p => ?_, fun g => ?_⟩
      · simp only [Source.path?, Option.some.injEq]
        exact lookup_map_entry
          (fun p (content : Bytes) => if p = path then content.take n else content) w.files p
      · by_cases hg : g = fd
        · rw [hg, cutShort, h.lookup_of_le (hpass.nextFd_le_opened hfd)]
          rfl
        · simp [cutShort, hg]

end LineShell
