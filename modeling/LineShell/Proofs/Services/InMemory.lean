import LineShell.Proofs.Line.Pieces

/-!
# Answers of the services in memory

An answer of a world in memory comes from a fault or from carrying out the call (`answer_cases`).
Each kind of call changes one part of the world at most; what a call cannot change is listed here
part by part.  Faults only ever get fewer, and the one that a call hits is gone.
-/

namespace LineShell

namespace Fault

variable {Name : Type} [DecidableEq Name]

theorem length_advance_le (faults : List (Fault Name)) (call : Name) :
    (advance faults call).length ≤ faults.length := List.length_filterMap_le _ _

/-- A fault that was hit does not come again. -/
theorem length_advance_lt {faults : List (Fault Name)} {call : Name} {e : Failure}
    (h : hit? faults call = some e) : (advance faults call).length < faults.length := by
  induction faults with
  | nil => cases h
  | cons f rest ih =>
      have hrest := length_advance_le rest call
      by_cases hcall : f.call = call
      · -- a fault for this call is used up now, or it counts down and a later one is hit
        by_cases hnow : f.countdown ≤ 1
        · rw [advance, List.filterMap_cons, if_pos hcall, if_pos hnow, List.length_cons]
          exact Nat.lt_succ_of_le hrest
        · have hlater := ih (by simpa [hit?, List.find?_cons, hcall, show f.countdown ≠ 1 by omega]
            using h)
          rw [advance, List.filterMap_cons, if_pos hcall, if_neg hnow]
          exact Nat.succ_lt_succ hlater
      · have hlater := ih (by simpa [hit?, List.find?_cons, hcall] using h)
        rw [advance, List.filterMap_cons, if_neg hcall]
        exact Nat.succ_lt_succ hlater

end Fault

/-- Entries that are taken out by their keys leave the others alone. -/
theorem lookup_filter_key {Key Entry : Type} [BEq Key] [LawfulBEq Key] (keep : Key → Bool)
    (entries : List (Key × Entry)) (key : Key) :
    (entries.filter fun entry => keep entry.1).lookup key =
      if keep key then entries.lookup key else none := by
  induction entries with
  | nil => simp
  | cons entry rest ih =>
      rw [List.filter_cons, List.lookup_cons]
      by_cases hkey : key = entry.1
      · rw [hkey, beq_self_eq_true]
        cases hkeep : keep entry.1 with
        | true => rw [if_pos rfl, List.lookup_cons, beq_self_eq_true, if_pos rfl]
        | false => rw [if_neg nofun, if_neg nofun, ← hkey, ih, hkey, hkeep, if_neg nofun]
      · have hne : (key == entry.1) = false := beq_eq_false_iff_ne.mpr hkey
        rw [hne, ← ih]
        split
        · rw [List.lookup_cons, hne]
        · rfl

/-- Entries that are changed each by itself are found where they were. -/
theorem lookup_map_entry {Key Entry Entry' : Type} [BEq Key] [LawfulBEq Key] (f : Key → Entry → Entry')
    (entries : List (Key × Entry)) (key : Key) :
    (entries.map fun entry => (entry.1, f entry.1 entry.2)).lookup key =
      (entries.lookup key).map (f key) := by
  induction entries with
  | nil => rfl
  | cons entry rest ih =>
      rw [List.map_cons, List.lookup_cons, List.lookup_cons]
      cases hkey : key == entry.1 with
      | true => rw [eq_of_beq hkey]; rfl
      | false => exact ih

namespace InMemory

/-- A world in which a call to a service is about to be carried out. -/
def ready (w : InMemory) (call : ServiceCall.Name) : InMemory :=
  { w with faults := Fault.advance w.faults call }

theorem answer_hit {c : ServiceCall} {w : InMemory} {e : Failure}
    (h : Fault.hit? w.faults c.name = some e) : answer c w = ⟨.error e, w.ready c.name, []⟩ := by
  simp only [answer, h, ready]

theorem answer_miss {c : ServiceCall} {w : InMemory} (h : Fault.hit? w.faults c.name = none) :
    answer c w = ⟨((w.ready c.name).serve c).1, ((w.ready c.name).serve c).2, []⟩ := by
  simp only [answer, h, ready]

/-- A call hits a fault, or it is carried out. -/
theorem answer_cases (c : ServiceCall) (w : InMemory) :
    (∃ e, answer c w = ⟨.error e, w.ready c.name, []⟩) ∨
      answer c w = ⟨((w.ready c.name).serve c).1, ((w.ready c.name).serve c).2, []⟩ := by
  cases h : Fault.hit? w.faults c.name with
  | some e => exact .inl ⟨e, answer_hit h⟩
  | none => exact .inr (answer_miss h)

@[simp] theorem answer_inner (c : ServiceCall) (w : InMemory) : (answer c w).inner = [] := by
  rcases answer_cases c w with ⟨e, h⟩ | h <;> rw [h]

/-- No call is interrupted of itself. -/
theorem serve_ne_interrupt (c : ServiceCall) (w : InMemory) : (w.serve c).1 ≠ .error .interrupt := by
  cases c <;> simp only [serve] <;> (repeat' split) <;> exact nofun

/-- A call that is interrupted hits a fault, and nothing else is changed by it. -/
theorem answer_interrupted {c : ServiceCall} {w : InMemory}
    (h : (answer c w).outcome = .error .interrupt) :
    answer c w = ⟨.error .interrupt, w.ready c.name, []⟩ ∧
      (w.ready c.name).faults.length < w.faults.length := by
  cases hhit : Fault.hit? w.faults c.name with
  | none =>
      rw [answer_miss hhit] at h
      exact absurd h (serve_ne_interrupt c _)
  | some e =>
      rw [answer_hit hhit] at h ⊢
      cases h
      exact ⟨rfl, Fault.length_advance_lt hhit⟩

/-- What does not depend on the faults and is kept by carrying out a call is kept by its answer. -/
theorem answer_keeps {P : InMemory → Prop} {c : ServiceCall} {w : InMemory}
    (hserve : ∀ v, P v → P (v.serve c).2) (hready : P w → P (w.ready c.name)) (h : P w) :
    P (answer c w).world := by
  rcases answer_cases c w with ⟨e, hc⟩ | hc <;> rw [hc]
  · exact hready h
  · exact hserve _ (hready h)

theorem serve_exitReturns (c : ServiceCall) (w : InMemory) :
    (w.serve c).2.exitReturns = w.exitReturns := by
  cases c <;> simp only [serve] <;> (try split) <;> rfl

theorem answer_exitReturns (c : ServiceCall) (w : InMemory) :
    (answer c w).world.exitReturns = w.exitReturns :=
  answer_keeps (P := fun v => v.exitReturns = w.exitReturns)
    (fun v h => (serve_exitReturns c v).trans h) (fun h => h) rfl

/-- Only opening and closing change which sources there are. -/
theorem serve_sources {c : ServiceCall} (hopen : c.name ≠ .openReadOnly) (hclose : c.name ≠ .close)
    (w : InMemory) : (w.serve c).2.sources = w.sources := by
  cases c with
  | openReadOnly path => exact absurd rfl hopen
  | close fd => exact absurd rfl hclose
  | _ => simp only [serve] <;> (try split) <;> rfl

theorem answer_sources {c : ServiceCall} (hopen : c.name ≠ .openReadOnly)
    (hclose : c.name ≠ .close) (w : InMemory) : (answer c w).world.sources = w.sources :=
  answer_keeps (P := fun v => v.sources = w.sources)
    (fun v h => (serve_sources hopen hclose v).trans h) (fun h => h) rfl

theorem serve_files (c : ServiceCall) (w : InMemory) : (w.serve c).2.files = w.files := by
  cases c <;> simp only [serve] <;> (try split) <;> rfl

theorem answer_files (c : ServiceCall) (w : InMemory) : (answer c w).world.files = w.files :=
  answer_keeps (P := fun v => v.files = w.files) (fun v h => (serve_files c v).trans h) (fun h => h)
    rfl

theorem serve_dirs (c : ServiceCall) (w : InMemory) : (w.serve c).2.dirs = w.dirs := by
  cases c <;> simp only [serve] <;> (try split) <;> rfl

theorem serve_path (c : ServiceCall) (w : InMemory) : (w.serve c).2.path = w.path := by
  cases c <;> simp only [serve] <;> (try split) <;> rfl

/-- Only setting the working directory changes it. -/
theorem serve_pwd {c : ServiceCall} (h : c.name ≠ .setPwd) (w : InMemory) :
    (w.serve c).2.pwd = w.pwd := by
  cases c with
  | setPwd path => exact absurd rfl h
  | _ => simp only [serve] <;> (try split) <;> rfl

theorem answer_pwd {c : ServiceCall} (h : c.name ≠ .setPwd) (w : InMemory) :
    (answer c w).world.pwd = w.pwd :=
  answer_keeps (P := fun v => v.pwd = w.pwd) (fun v hv => (serve_pwd h v).trans hv) (fun h => h) rfl

/-- Setting the working directory sets it or changes nothing. -/
theorem answer_setPwd (path : Text) (w : InMemory) :
    ((answer (.setPwd path) w).outcome = .ok () ∧ (answer (.setPwd path) w).world.pwd = path) ∨
      ∃ e, (answer (.setPwd path) w).outcome = .error e ∧
        (answer (.setPwd path) w).world.pwd = w.pwd := by
  rcases answer_cases (.setPwd path) w with ⟨e, h⟩ | h <;> rw [h]
  · exact .inr ⟨e, rfl, rfl⟩
  · simp only [serve]
    split
    · exact .inl ⟨rfl, rfl⟩
    · exact .inr ⟨_, rfl, rfl⟩

theorem serve_faults (c : ServiceCall) (w : InMemory) : (w.serve c).2.faults = w.faults := by
  cases c <;> simp only [serve] <;> (try split) <;> rfl

theorem length_faults_answer_le (c : ServiceCall) (w : InMemory) :
    (answer c w).world.faults.length ≤ w.faults.length := by
  have hready := Fault.length_advance_le w.faults c.name
  rcases answer_cases c w with ⟨e, h⟩ | h <;> rw [h]
  · exact hready
  · rw [serve_faults]
    exact hready

/-- Descriptors are only ever given out. -/
theorem nextFd_le_serve (c : ServiceCall) (w : InMemory) : w.nextFd ≤ (w.serve c).2.nextFd := by
  cases c with
  | openReadOnly path =>
      simp only [serve]
      split
      · exact Int.le_of_lt (Int.lt_succ _)
      · exact Int.le_refl _
  | _ =>
      simp only [serve]
      (try split) <;> exact Int.le_refl _

theorem nextFd_le_answer (c : ServiceCall) (w : InMemory) : w.nextFd ≤ (answer c w).world.nextFd :=
  answer_keeps (P := fun v => w.nextFd ≤ v.nextFd)
    (fun v h => Int.le_trans h (nextFd_le_serve c v)) (fun h => h) (Int.le_refl _)

/-- Without faults every call is carried out. -/
theorem answer_of_faults_nil {w : InMemory} (h : w.faults = []) (c : ServiceCall) :
    answer c w = ⟨(w.serve c).1, (w.serve c).2, []⟩ := by
  have hready : w.ready c.name = w := by
    cases w
    cases h
    rfl
  rw [answer_miss (by rw [h]; rfl), hready]

/-- A file that was opened is behind the descriptor that was next. -/
theorem answer_openReadOnly_ok {path : Text} {w : InMemory} {fd : Int}
    (h : (answer (.openReadOnly path) w).outcome = .ok fd) : fd = w.nextFd := by
  rcases answer_cases (.openReadOnly path) w with ⟨e, hc⟩ | hc <;> rw [hc] at h
  · cases h
  · simp only [serve] at h
    split at h
    · exact (Except.ok.inj h).symm
    · cases h

theorem answer_openReadOnly_next {path : Text} {w : InMemory} {fd : Int}
    (h : (answer (.openReadOnly path) w).outcome = .ok fd) :
    fd = w.nextFd ∧ w.nextFd < (answer (.openReadOnly path) w).world.nextFd := by
  refine ⟨answer_openReadOnly_ok h, ?_⟩
  rcases answer_cases (.openReadOnly path) w with ⟨e, hc⟩ | hc <;> rw [hc] at h ⊢
  · cases h
  · simp only [serve] at h ⊢
    split at h
    · exact Int.lt_succ _
    · cases h

/-- A file that was opened is there to be read, and it was there before. -/
theorem answer_openReadOnly_content {path : Text} {w : InMemory} {fd : Int}
    (h : (answer (.openReadOnly path) w).outcome = .ok fd) :
    ∃ content, w.files.lookup path = some content ∧
      (answer (.openReadOnly path) w).world.sources = (fd, content) :: w.sources := by
  rcases answer_cases (.openReadOnly path) w with ⟨e, hc⟩ | hc <;> rw [hc] at h ⊢
  · cases h
  · simp only [serve] at h ⊢
    split at h
    · next content hcontent =>
        exact ⟨content, hcontent, by rw [← Except.ok.inj h]; rfl⟩
    · cases h

/-- Closing a descriptor leaves what is behind the others. -/
theorem lookup_answer_close {fd other : Int} (hother : other ≠ fd) (w : InMemory) :
    (answer (.close fd) w).world.sources.lookup other = w.sources.lookup other := by
  rcases answer_cases (.close fd) w with ⟨e, hc⟩ | hc <;> rw [hc]
  · rfl
  · have hkept := lookup_filter_key (· != fd) w.sources other
    rwa [bne_iff_ne.mpr hother, if_pos rfl] at hkept

/-! ## The longest source -/

theorem le_foldl_max (lengths : List Nat) (least : Nat) :
    least ≤ lengths.foldl max least ∧ ∀ n ∈ lengths, n ≤ lengths.foldl max least := by
  induction lengths generalizing least with
  | nil => exact ⟨Nat.le_refl _, nofun⟩
  | cons length rest ih =>
      obtain ⟨hleast, hrest⟩ := ih (max least length)
      refine ⟨Nat.le_trans (Nat.le_max_left _ _) hleast, fun n hn => ?_⟩
      rcases List.mem_cons.mp hn with rfl | hn
      · exact Nat.le_trans (Nat.le_max_right _ _) hleast
      · exact hrest n hn

theorem foldl_max_le_iff {lengths : List Nat} {least n : Nat} :
    lengths.foldl max least ≤ n ↔ least ≤ n ∧ ∀ length ∈ lengths, length ≤ n := by
  induction lengths generalizing least with
  | nil => simp
  | cons length rest ih =>
      rw [List.foldl_cons, ih, Nat.max_le, List.forall_mem_cons, and_assoc]

theorem length_mem_of_lookup {Key : Type} [BEq Key] [LawfulBEq Key] {contents : List (Key × Bytes)}
    {key : Key} {content : Bytes} (h : contents.lookup key = some content) :
    content.length ∈ contents.map (·.2.length) := by
  obtain ⟨before, after, rfl, -⟩ := List.lookup_eq_some_iff.mp h
  exact List.mem_map_of_mem (List.mem_append_right before List.mem_cons_self)

theorem length_file_le {w : InMemory} {path : Text} {content : Bytes}
    (h : w.files.lookup path = some content) : content.length ≤ w.longestSource :=
  (le_foldl_max _ 0).2 _ (List.mem_append_right _ (length_mem_of_lookup h))

theorem length_source_le {w : InMemory} {fd : Int} {content : Bytes}
    (h : w.sources.lookup fd = some content) : content.length ≤ w.longestSource :=
  (le_foldl_max _ 0).2 _ (List.mem_append_left _ (length_mem_of_lookup h))

theorem longestSource_le_iff {w : InMemory} {n : Nat} :
    w.longestSource ≤ n ↔
      (∀ source ∈ w.sources, source.2.length ≤ n) ∧ ∀ file ∈ w.files, file.2.length ≤ n := by
  rw [longestSource, foldl_max_le_iff]
  simp only [Nat.zero_le, true_and, List.forall_mem_append, List.forall_mem_map]

/-- A source that is opened was a file before, so none gets longer. -/
theorem longestSource_serve_le (c : ServiceCall) (w : InMemory) :
    (w.serve c).2.longestSource ≤ w.longestSource := by
  obtain ⟨hsources, hfiles⟩ := longestSource_le_iff.mp (Nat.le_refl w.longestSource)
  refine longestSource_le_iff.mpr ⟨?_, by rwa [serve_files]⟩
  cases c with
  | openReadOnly path =>
      simp only [serve]
      split
      · next content hcontent =>
          exact List.forall_mem_cons.mpr ⟨length_file_le hcontent, hsources⟩
      · exact hsources
  | close fd => exact fun source h => hsources source (List.mem_filter.mp h).1
  | _ =>
      simp only [serve]
      (try split) <;> exact hsources

theorem longestSource_answer_le (c : ServiceCall) (w : InMemory) :
    (answer c w).world.longestSource ≤ w.longestSource :=
  answer_keeps (P := fun v => v.longestSource ≤ w.longestSource)
    (fun v h => Nat.le_trans (longestSource_serve_le c v) h) (fun h => h) (Nat.le_refl _)

/-! ## Reading -/

variable {w : InMemory} {fd offset n : Int} {source : Bytes} {size : Value}

/-- What a read of an open source answers: the line at the offset, or a fault. -/
theorem answer_readLine (hsource : w.sources.lookup fd = some source)
    (hsize : size.toInt? = some n) :
    (answer (.readLine fd offset size) w).outcome = .ok (lineAt source offset n) ∨
      ∃ e, (answer (.readLine fd offset size) w).outcome = .error e ∧
        (answer (.readLine fd offset size) w).world.faults.length < w.faults.length := by
  cases hhit : Fault.hit? w.faults (ServiceCall.readLine fd offset size).name with
  | some e =>
      rw [answer_hit hhit]
      exact .inr ⟨e, rfl, Fault.length_advance_lt hhit⟩
  | none =>
      rw [answer_miss hhit]
      have hready : (w.ready (ServiceCall.readLine fd offset size).name).sources.lookup fd =
          some source := hsource
      left
      simp only [serve, hready, hsize]

/-- A line that is read fits. -/
theorem length_le_of_answer_readLine {line : Bytes} (hsize : size.toInt? = some n)
    (h : (answer (.readLine fd offset size) w).outcome = .ok line) : line.length ≤ n.toNat := by
  rcases answer_cases (.readLine fd offset size) w with ⟨e, hc⟩ | hc <;> rw [hc] at h
  · cases h
  · simp only [serve, hsize] at h
    cases hsource : (w.ready .readLine).sources.lookup fd with
    | none =>
        rw [ServiceCall.name, hsource] at h
        cases h
    | some source =>
        rw [ServiceCall.name, hsource] at h
        rw [← Except.ok.inj h]
        exact length_lineAt_le

end InMemory

end LineShell
