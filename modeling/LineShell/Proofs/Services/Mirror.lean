import LineShell.Proofs.Services.HostRun

/-!
# A host that mirrors a world in memory

A host `Mirror`s a world in memory when a shell finds the same in both: the same files and directories,
the same working directory and search path, the same sources, and the same children.  What it may
differ in is of no concern to the shell: whether standard input can seek, how many bytes a write takes,
who handles interrupts, and how children end.

The mirror is kept when the same happens on both sides: a source is read, a script is opened or closed,
a directory is entered, a child is made or waited for.  A world in memory has a host that mirrors it
(`InMemory.mirror_asHost`).
-/

namespace LineShell

open Program

/-- A host in which a shell finds what it finds in a world in memory. -/
structure Mirror (m : InMemory) (h : OsWorld) : Prop where
  quiet : m.faults = []
  hostQuiet : h.faults = []
  files : ∀ path, h.files.lookup path = m.files.lookup path
  /-- Each directory is known by the path that it is entered by. -/
  dirs : ∀ path, h.dirs.lookup path = if m.dirs.contains path then some path else none
  apart : ∀ path, m.dirs.contains path = true → m.files.lookup path = none
  denied : h.denied = []
  path : (h.environment.lookup Host.pathVariable).getD [] = m.path
  cwd : h.cwd = m.pwd
  here : h.cwdGone = false
  sources : ∀ fd, (h.sources.lookup fd).map (·.content) = m.sources.lookup fd
  nextFd : h.nextFd = m.nextFd
  /-- Scripts are read through descriptors of their own. -/
  beyondInput : standardInput < m.nextFd
  forks : h.forks = m.forks
  waits : ∀ e ∈ h.waits, ∃ child status, e = .status child status ∧ Host.Final status
  execFails : m.execReturns = false
  hostExecFails : Host.FromExec h.execError
  exitEnds : m.exitReturns = false
  takes : h.writeMax ≠ some 0

namespace OsWorld

variable {environment : Environment} {name other value : Text}

theorem lookup_setVariable_self :
    (setVariable environment name value).lookup name = some value := by
  induction environment with
  | nil => exact List.lookup_cons_self ..
  | cons entry rest ih =>
      unfold setVariable
      by_cases hname : entry.1 = name
      · rw [if_pos hname, hname]
        exact List.lookup_cons_self ..
      · have hne : (name == entry.1) = false := by simp [Ne.symm hname]
        rw [if_neg hname, List.lookup_cons, hne]
        exact ih

theorem lookup_setVariable_ne (h : other ≠ name) :
    (setVariable environment name value).lookup other = environment.lookup other := by
  induction environment with
  | nil =>
      have hne : (other == name) = false := by simp [h]
      rw [setVariable, List.lookup_cons, hne]
  | cons entry rest ih =>
      unfold setVariable
      by_cases hname : entry.1 = name
      · have hne : (other == entry.1) = false := by simp [hname, h]
        rw [if_pos hname, List.lookup_cons, List.lookup_cons, hne]
      · rw [if_neg hname, List.lookup_cons, List.lookup_cons, ih]

end OsWorld

namespace Mirror

variable {m : InMemory} {h v : OsWorld} {fd : Int} {content : Bytes} {path : Text}

theorem isSome_dirs (hm : Mirror m h) (path : Text) :
    (h.dirs.lookup path).isSome = m.dirs.contains path := by
  rw [hm.dirs]
  cases m.dirs.contains path <;> rfl

theorem not_denied (hm : Mirror m h) (path : Text) : h.denied.contains path = false := by
  rw [hm.denied]
  rfl

/-- A source of the one is a source of the other, read up to some place. -/
theorem source (hm : Mirror m h) {position : Int}
    (hsource : h.sources.lookup fd = some ⟨content, position⟩) :
    m.sources.lookup fd = some content := by
  rw [← hm.sources, hsource]
  rfl

/-! ## What keeps the mirror -/

theorem moved (hm : Mirror m h) {position place : Int}
    (hsource : h.sources.lookup fd = some ⟨content, position⟩)
    (hmoved : OsWorld.Moved fd ⟨content, place⟩ h v) : Mirror m v := by
  have hsources : ∀ g, (v.sources.lookup g).map (·.content) = m.sources.lookup g := by
    intro g
    by_cases hg : g = fd
    · rw [hg, hmoved.here, hm.source hsource]
      rfl
    · rw [hmoved.elsewhere g hg, hm.sources]
  rw [hmoved.rest]
  exact { hm with sources := hsources }

theorem opened (hm : Mirror m h) (content : Bytes) :
    Mirror { m with sources := (m.nextFd, content) :: m.sources, nextFd := m.nextFd + 1 }
      (Host.opened h content) := by
  have hsources : ∀ fd, ((Host.opened h content).sources.lookup fd).map (·.content) =
      List.lookup fd ((m.nextFd, content) :: m.sources) := by
    intro fd
    rw [Host.opened, List.lookup_cons, List.lookup_cons, hm.nextFd]
    cases fd == m.nextFd with
    | true => rfl
    | false => exact hm.sources fd
  have hnext : (Host.opened h content).nextFd = m.nextFd + 1 := by
    rw [Host.opened, hm.nextFd]
  have hbeyond : standardInput < m.nextFd + 1 := Int.lt_trans hm.beyondInput (Int.lt_succ _)
  exact { hm with sources := hsources, nextFd := hnext, beyondInput := hbeyond }

theorem closed (hm : Mirror m h) (fd : Int) :
    Mirror { m with sources := m.sources.filter (·.1 != fd) }
      { h with sources := h.sources.filter (·.1 != fd) } := by
  have hsources : ∀ g, ((h.sources.filter (·.1 != fd)).lookup g).map (·.content) =
      (m.sources.filter (·.1 != fd)).lookup g := by
    intro g
    rw [lookup_filter_key (· != fd), lookup_filter_key (· != fd), ← hm.sources]
    split <;> rfl
  exact { hm with sources := hsources }

theorem entered (hm : Mirror m h) (path : Text) :
    Mirror { m with pwd := path } (Host.entered h path path) := by
  have hother : Host.pathVariable ≠ Host.pwdVariable := by decide
  have hpath : ((Host.entered h path path).environment.lookup Host.pathVariable).getD [] = m.path := by
    rw [Host.entered, OsWorld.lookup_setVariable_ne hother, hm.path]
  exact { hm with path := hpath, cwd := rfl, here := rfl }

theorem forked (hm : Mirror m h) :
    Mirror { m with forks := m.forks.tail, forked := m.forked + 1 }
      { h with forks := h.forks.tail } := by
  have hforks : h.forks.tail = m.forks.tail := by rw [hm.forks]
  exact { hm with forks := hforks }

theorem waited (hm : Mirror m h) {waits : List WaitEvent} (hwaits : waits ⊆ h.waits)
    (handler : Handler) :
    Mirror { m with waits := m.waits.tail } { h with waits := waits, handler := handler } :=
  { hm with waits := fun e he => hm.waits e (hwaits he) }

end Mirror

/-! ## Hosts that mirror -/

/-- A host that is set up like a world in memory: each source is at its start. -/
def InMemory.asHost (m : InMemory) (stdinPipe : Bool) (writeMax : Option Nat)
    (waits : List WaitEvent) : OsWorld where
  files := m.files
  dirs := m.dirs.map fun path => (path, path)
  denied := []
  environment := [(Host.pathVariable, m.path)]
  cwd := m.pwd
  cwdGone := false
  sources := m.sources.map fun source => (source.1, ⟨source.2, 0⟩)
  stdinPipe := stdinPipe
  writeMax := writeMax
  nextFd := m.nextFd
  forks := m.forks
  waits := waits
  execError := OsWorld.noSuchFile
  handler := .default
  mainThread := true
  clock := 0
  faults := []

theorem lookup_map_self {Key : Type} [BEq Key] [LawfulBEq Key] (keys : List Key) (key : Key) :
    (keys.map fun key => (key, key)).lookup key = if keys.contains key then some key else none := by
  induction keys with
  | nil => rfl
  | cons first rest ih =>
      rw [List.map_cons, List.lookup_cons, List.contains_cons]
      cases hkey : key == first with
      | true => rw [eq_of_beq hkey]; rfl
      | false => exact ih

theorem InMemory.lookup_sources_asHost (m : InMemory) (stdinPipe : Bool) (writeMax : Option Nat)
    (waits : List WaitEvent) (fd : Int) :
    (m.asHost stdinPipe writeMax waits).sources.lookup fd =
      (m.sources.lookup fd).map fun content => ⟨content, 0⟩ :=
  lookup_map_entry (fun _ (content : Bytes) => (⟨content, 0⟩ : OpenSource)) m.sources fd

/-- A world in memory without faults has hosts that mirror it. -/
theorem InMemory.mirror_asHost {m : InMemory} {stdinPipe : Bool} {writeMax : Option Nat}
    {waits : List WaitEvent} (hquiet : m.faults = [])
    (hapart : ∀ path ∈ m.dirs, m.files.lookup path = none) (hbeyond : standardInput < m.nextFd)
    (hexec : m.execReturns = false) (hexit : m.exitReturns = false) (htakes : writeMax ≠ some 0)
    (hwaits : ∀ e ∈ waits, ∃ child status, e = .status child status ∧ Host.Final status) :
    Mirror m (m.asHost stdinPipe writeMax waits) where
  quiet := hquiet
  hostQuiet := rfl
  files _ := rfl
  dirs := lookup_map_self m.dirs
  apart path hpath := hapart path (List.contains_iff_mem.mp hpath)
  denied := rfl
  path := by rw [asHost, List.lookup_cons_self, Option.getD_some]
  cwd := rfl
  here := rfl
  sources fd := by
    rw [m.lookup_sources_asHost]
    cases m.sources.lookup fd <;> rfl
  nextFd := rfl
  beyondInput := hbeyond
  forks := rfl
  waits := hwaits
  execFails := hexec
  hostExecFails := .inl ⟨_, _, rfl⟩
  exitEnds := hexit
  takes := htakes

end LineShell
