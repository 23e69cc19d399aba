import LineShell.Proofs.Shell.Tour

/-!
# Runs that nothing cuts short

Without faults only two things keep a run from going through all of its input: a line that ends it, and
a child that goes on as another run.  A run that meets neither opens every script in its turn, where
the lookup says, and reads standard input to its end.

The loop over the lines of a source comes first, with a round for each byte that is left, then the
scripts one after another, and then the run.

The main result is `run_endsAtExit`, with what `LineShell.Proofs.Shell.Exit` says of the other runs.
-/

namespace LineShell

open Program LineShell.Action

namespace Tour

variable {r : Tour} {cwd : Text} {count offset : Nat} {fd : Int} {content : Bytes}
  {past : List (Event ServiceCall.Reply)} {s t : Session} {w v : InMemory}

/-! ## Lines -/

/-- Reading on brings the next bytes of the source. -/
theorem Calm.readLine {line : Bytes} {n : Int} (hline : line = InMemory.lineAt content offset n)
    {size : Value} (h : r.Calm cwd count fd content offset past s w) :
    r.Calm cwd count fd content (offset + line.length)
      (past ++ [.called (.readLine fd offset size) (.ok line)]) s w := by
  have hread : bytesRead standardInput [.called (.readLine fd offset size) (.ok line)] =
      if fd = standardInput then line else [] := List.append_nil _
  refine { h with
    published := h.published_concat rfl
    turns := h.turns_concat rfl
    opened := h.opened.concat rfl
    read := ?_ }
  rw [bytesRead_append, h.read, hread]
  by_cases hfd : fd = standardInput
  · have hcontent : content = r.input := by
      have hsource := h.source
      rw [hfd, h.input] at hsource
      exact (Option.some.inj hsource).symm
    rw [if_pos hfd, if_pos hfd, if_pos hfd, ← hcontent, hline]
    exact InMemory.take_append_lineAt content offset n
  · rw [if_neg hfd, if_neg hfd, if_neg hfd]
    rfl

/-- The end of the source was read. -/
def EndRead (fd : Int) (content : Bytes) (past : List (Event ServiceCall.Reply)) : Prop :=
  ∃ size, .called (.readLine fd content.length size) (.ok []) ∈ past

/-- A line that was read is a last one or the next one, and it is read at the end only that there is
none. -/
theorem ensures_readLine (shell : Shell) (hbuffer : r.buffer.Sized) (interactive : Bool)
    (hinside : offset ≤ content.length) :
    Ensures InMemory.answer (r.Calm cwd count fd content offset)
      (Shell.readLine interactive fd offset)
      (fun reading past s w =>
        match reading with
        | .exhausted => offset = content.length ∧ EndRead fd content past ∧
            r.Calm cwd count fd content offset past s w
        | .interrupted => False
        | .line line => (line ≠ [] ∧ line.length ≤ r.buffer.capacity ∧
            offset + line.length ≤ content.length) ∧ (shell.EndsRun line → Astray shell past) ∧
              r.Calm cwd count fd content (offset + line.length) past s w)
      (fun _ => Never) Never := by
  have hpos : (0 : Int) < r.buffer.capacity := Int.natCast_pos.mpr hbuffer.pos
  refine Ensures.state_bind fun s => ?_
  have hread : Ensures InMemory.answer
      (fun past t w => t = s ∧ r.Calm cwd count fd content offset past t w)
      (ask (.readLine fd offset s.line.size))
      (fun (line : Bytes) past t w => line = InMemory.lineAt content offset r.buffer.capacity ∧
        .called (.readLine fd offset s.line.size) (.ok line) ∈ past ∧
        r.Calm cwd count fd content (offset + line.length) past t w) (fun _ => Never) Never := by
    rintro past t w ⟨rfl, hcalm⟩
    have hsize : t.line.size.toInt? = some (r.buffer.capacity : Int) := by
      rw [hcalm.buffer.size, hbuffer.size]
    have hserve : ∀ {past s w}, r.Calm cwd count fd content offset past s w →
        w.serve (.readLine fd offset t.line.size) =
          (.ok (InMemory.lineAt content offset r.buffer.capacity), w) := fun h => by
      simp only [InMemory.serve, h.source, hsize]
    refine ensures_request (fun past s w line h hline => ?_) (fun past s w e h he => ?_) past t w hcalm
    · rw [hserve h] at hline ⊢
      have hline := (Except.ok.inj hline).symm
      exact ⟨hline, by simp, h.readLine hline⟩
    · rw [hserve h] at he
      cases he
  refine Ensures.bind hread.attempt fun outcome => ?_
  cases outcome with
  | error e => exact fun past s w h => h.elim
  | ok line =>
      cases line with
      | nil =>
          refine Ensures.done fun past t w h => ?_
          obtain ⟨hline, hmem, hcalm⟩ := h
          have hend := (InMemory.lineAt_eq_nil_iff hpos).mp hline.symm
          rw [Int.toNat_natCast, List.drop_eq_nil_iff] at hend
          have hoffset : offset = content.length := Nat.le_antisymm hinside hend
          -- the end was read, and not only reached
          exact ⟨hoffset, ⟨_, hoffset ▸ hmem⟩, hcalm⟩
      | cons byte rest =>
          refine Ensures.done fun past t w h => ?_
          obtain ⟨hline, hmem, hcalm⟩ := h
          refine ⟨⟨List.cons_ne_nil _ _, ?_, ?_⟩, fun hends => ?_, hcalm⟩
          · rw [hline]
            exact InMemory.length_lineAt_le
          · rw [hline]
            exact InMemory.add_length_lineAt_le hinside
          · exact ⟨_, hmem, .inl ⟨fd, offset, _, _, rfl, hends⟩⟩

theorem ensures_tokenize {shell : Shell} (hmarker : shell.marker.val < 256) {line : Bytes}
    (hfit : line.length ≤ r.buffer.capacity) :
    Ensures InMemory.answer (r.Calm cwd count fd content offset) (shell.tokenize line)
      (fun tokens past s w => tokens = Line.tokens (UInt8.ofNat shell.marker.val) line ∧
        r.Calm cwd count fd content offset past s w) (fun _ => Never) Never := by
  refine Shell.ensures_tokens hmarker (fun past s w h => ?_) fun past s w loaded h hsame => ?_
  · rw [h.buffer.capacity]
    exact hfit
  · exact { h with buffer := h.buffer.trans hsame }

/-- A line that is no last one is followed by the next one. -/
theorem ensures_runLine {shell : Shell} (hhome : ∃ path, shell.home = .text path) (interactive : Bool)
    {line : Bytes} (hne : line ≠ []) (hfit : line.length ≤ r.buffer.capacity) :
    EnsuresUnless InMemory.answer (Astray shell)
      (fun past s w => (shell.EndsRun line → Astray shell past) ∧
        r.Calm cwd count fd content offset past s w)
      (shell.runLine (Builtin.dispatch shell.home) interactive line)
      (fun next past s w => next = .goOn ∧ ∃ cwd, r.Calm cwd count fd content offset past s w)
      (fun _ => Never) Never := by
  by_cases hends : shell.EndsRun line
  · exact Ensures.weaken (EnsuresUnless.seen (lasting_astray shell)) fun _ _ _ h => h.1 hends
  -- with a marker that is no byte each line is a last one
  have hmarker : shell.marker.val < 256 := by
    refine Decidable.byContradiction fun hmarker => hends ?_
    rwa [Shell.EndsRun, if_neg hmarker]
  rw [Shell.EndsRun, if_pos hmarker, ← Builtin.ofName?_tokens] at hends
  refine Ensures.weaken ?_ fun _ _ _ h => h.2
  refine EnsuresUnless.bind (lasting_astray shell) (.of_ensures (ensures_tokenize hmarker hfit))
    fun tokens => Ensures.and_pre fun htokens => ?_
  subst htokens
  refine EnsuresUnless.bind (lasting_astray shell) (.of_ensures (ensures_dispatch hhome hends))
    fun verdict => Ensures.and_pre fun hverdict => Ensures.exists_pre fun cwd => ?_
  cases verdict with
  | exit => exact absurd rfl hverdict
  | handled => exact EnsuresUnless.done fun _ _ _ h => ⟨rfl, cwd, h⟩
  | notBuiltin =>
      refine EnsuresUnless.bind (lasting_astray shell) (ensures_runInChild shell _) fun made =>
        Ensures.and_pre fun hmade => ?_
      subst hmade
      exact EnsuresUnless.done fun _ _ _ h => ⟨rfl, cwd, h⟩

/-! ## Sources -/

theorem ensures_announce {shell : Shell} (hprompt : ∃ suffix, shell.promptSuffix = .text suffix)
    (interactive : Bool) :
    Ensures InMemory.answer (r.Calm cwd count fd content offset) (shell.announce interactive)
      (fun _ => r.Calm cwd count fd content offset) (fun _ => Never) Never := by
  obtain ⟨suffix, hsuffix⟩ := hprompt
  cases interactive with
  | false => exact Ensures.done fun _ _ _ h => h
  | true =>
      refine Ensures.state_bind fun s => Ensures.weaken ?_ fun _ _ _ h => h.2
      rw [hsuffix]
      exact ensures_print _

/-- With a round for each byte that is left and one more, a source is read to its end. -/
theorem ensures_runFrom {shell : Shell} (hbuffer : r.buffer.Sized)
    (hprompt : ∃ suffix, shell.promptSuffix = .text suffix)
    (hhome : ∃ path, shell.home = .text path) (interactive : Bool) (rounds : Nat)
    (hrounds : content.length - offset < rounds) (hinside : offset ≤ content.length) :
    EnsuresUnless InMemory.answer (Astray shell)
      (fun past s w => ∃ cwd, r.Calm cwd count fd content offset past s w)
      (shell.runFrom (Builtin.dispatch shell.home) fd interactive rounds offset)
      (fun goOn past s w => goOn = true ∧ EndRead fd content past ∧
        ∃ cwd, r.Calm cwd count fd content content.length past s w)
      (fun _ => Never) Never := by
  have hseen := lasting_astray shell
  -- each round takes a line of one byte at least, so the bytes that are left bound the rounds
  induction rounds generalizing offset with
  | zero => omega
  | succ rounds ih =>
      refine Ensures.exists_pre fun cwd => ?_
      refine EnsuresUnless.bind hseen (.of_ensures (ensures_announce hprompt interactive)) fun _ => ?_
      refine EnsuresUnless.bind hseen
        (.of_ensures (ensures_readLine shell hbuffer interactive hinside)) fun reading => ?_
      cases reading with
      | exhausted =>
          refine EnsuresUnless.done fun past s w h => ?_
          obtain ⟨rfl, hend, hcalm⟩ := h
          exact ⟨rfl, hend, cwd, hcalm⟩
      | interrupted => exact fun past s w h => h.elim
      | line line =>
          refine Ensures.and_pre fun ⟨hne, hfit, hnext⟩ => ?_
          have hlength : 0 < line.length := List.length_pos_iff.mpr hne
          refine EnsuresUnless.bind hseen (ensures_runLine hhome interactive hne hfit) fun next =>
            Ensures.and_pre fun hgoOn => ?_
          subst hgoOn
          have hrest := @ih (offset + line.length) (by omega) hnext
          rwa [Int.natCast_add] at hrest

/-! ## Scripts -/

theorem OpenedInTurn.opening {script path : Text} {outcome : Except Failure Int}
    (hscript : r.scripts[(openings past).length]? = some script)
    (hpath : path = Lookup.pathWhere r.isFile script (lastPwd r.cwd past) r.searchPath)
    (houtcome : (∃ fd, outcome = .ok fd) ↔ r.isFile path = true) (h : r.OpenedInTurn past) :
    r.OpenedInTurn (past ++ [.called (.openReadOnly path) outcome]) := by
  intro before path' outcome' after hsplit
  rcases concat_eq_append_cons hsplit with ⟨-, rfl, heq⟩ | ⟨rest, -, hpast⟩
  · cases heq
    exact ⟨script, hscript, hpath, houtcome⟩
  · exact h before path' outcome' rest hpast

/-- A file is opened under a descriptor that is not that of standard input. -/
theorem Calm.opening (content : Bytes) (h : r.Calm cwd count standardInput r.input 0 past s w) :
    r.Calm cwd count w.nextFd content 0 past s
      { w with sources := (w.nextFd, content) :: w.sources, nextFd := w.nextFd + 1 } where
  buffer := h.buffer
  nextFd := Int.lt_trans h.nextFd (Int.lt_succ _)
  faults := h.faults
  files := h.files
  searchPath := h.searchPath
  input := by
    rw [List.lookup_cons, beq_false_of_ne (Int.ne_of_lt h.nextFd)]
    exact h.input
  source := List.lookup_cons_self
  place := h.place
  published := h.published
  turns := h.turns
  opened := h.opened
  read := by
    rw [if_neg (Int.ne_of_gt h.nextFd)]
    exact h.read

/-- The script whose turn it is is opened when there is such a file, and it is passed over when there
is none. -/
theorem ensures_openScript {script path : Text} (hscript : r.scripts[count]? = some script)
    (hpath : path = Lookup.pathWhere r.isFile script cwd r.searchPath) :
    Ensures InMemory.answer (r.Calm cwd count standardInput r.input 0) (Shell.openScript path)
      (fun opened past s w =>
        match opened with
        | none => r.Calm cwd (count + 1) standardInput r.input 0 past s w
        | some fd => fd ≠ standardInput ∧ ∃ content, r.files.lookup path = some content ∧
            r.Calm cwd (count + 1) fd content 0 past s w)
      (fun _ => Never) Never := by
  have hopen : Ensures InMemory.answer (r.Calm cwd count standardInput r.input 0)
      (ask (.openReadOnly path))
      (fun (fd : Int) past s w => fd ≠ standardInput ∧ ∃ content, r.files.lookup path = some content ∧
        r.Calm cwd (count + 1) fd content 0 past s w)
      (fun e past s w => e = .fileNotFound path [] ∧
        r.Calm cwd (count + 1) standardInput r.input 0 past s w) Never := by
    have hfile : r.isFile path = (r.files.lookup path).isSome := rfl
    -- whether there is a file decides whether it is opened, and that is all
    have hopened : ∀ {past s w} {outcome : Except Failure Int},
        r.Calm cwd count standardInput r.input 0 past s w →
        ((∃ fd, outcome = .ok fd) ↔ r.isFile path = true) →
        r.Calm cwd (count + 1) standardInput r.input 0
          (past ++ [.called (.openReadOnly path) outcome]) s w := by
      intro past s w outcome h houtcome
      refine { h with
        published := h.published_concat rfl
        turns := ?_
        opened := ?_
        read := h.read_concat rfl }
      · rw [openings_append, List.length_append, h.turns]
        rfl
      · rw [← h.turns] at hscript
        rw [← h.published] at hpath
        exact h.opened.opening hscript hpath houtcome
    refine ensures_request (fun past s w fd h hreply => ?_) fun past s w e h he => ?_
    · have hlookup : w.files.lookup path = r.files.lookup path := by rw [h.files]
      simp only [InMemory.serve, hlookup] at hreply ⊢
      cases hcontent : r.files.lookup path with
      | none =>
          rw [hcontent] at hreply
          cases hreply
      | some content =>
          rw [hcontent] at hreply
          cases hreply
          have hcalm : r.Calm cwd (count + 1) standardInput r.input 0
              (past ++ [.called (.openReadOnly path) (.ok w.nextFd)]) s w :=
            hopened h ⟨fun _ => hfile ▸ hcontent ▸ rfl, fun _ => ⟨_, rfl⟩⟩
          refine ⟨Int.ne_of_gt h.nextFd, content, rfl, ?_⟩
          exact hcalm.opening content
    · have hlookup : w.files.lookup path = r.files.lookup path := by rw [h.files]
      simp only [InMemory.serve, hlookup] at he ⊢
      cases hcontent : r.files.lookup path with
      | some content =>
          rw [hcontent] at he
          cases he
      | none =>
          rw [hcontent] at he
          cases he
          refine ⟨rfl, hopened h ⟨?_, fun hsome => ?_⟩⟩
          · rintro ⟨fd, hfd⟩
            cases hfd
          · rw [hfile, hcontent] at hsome
            cases hsome
  refine Ensures.bind hopen.attempt fun outcome => ?_
  cases outcome with
  | ok fd => exact Ensures.done fun _ _ _ h => h
  | error e =>
      refine Ensures.and_pre fun he => ?_
      subst he
      exact Ensures.bind (ensures_log _) fun _ => Ensures.done fun _ _ _ h => h

/-- After a script standard input is the source that is left. -/
theorem ensures_close (hfd : fd ≠ standardInput) :
    Ensures InMemory.answer (r.Calm cwd count fd content offset) (ask (.close fd))
      (fun _ => r.Calm cwd count standardInput r.input 0) (fun _ => Never) Never := by
  refine ensures_request (fun past s w _ h _ => ?_) fun past s w e h he => ?_
  · have hinput : (w.sources.filter (·.1 != fd)).lookup standardInput = some r.input := by
      rw [lookup_filter_key (· != fd), if_pos (bne_iff_ne.mpr (Ne.symm hfd)), h.input]
    -- What was read of standard input so far is nothing: the bytes came from the script.
    refine { h with
      input := hinput
      source := hinput
      published := h.published_concat rfl
      turns := h.turns_concat rfl
      opened := h.opened.concat rfl
      read := ?_ }
    rw [bytesRead_append, h.read, if_neg hfd]
    rfl
  · cases he

/-- A script whose turn it is is run to its end. -/
theorem ensures_runScript {shell : Shell} (hbuffer : r.buffer.Sized)
    (hprompt : ∃ suffix, shell.promptSuffix = .text suffix)
    (hhome : ∃ path, shell.home = .text path) {rounds : Nat}
    (hrounds : ∀ path content, r.files.lookup path = some content → content.length < rounds)
    {script : Text} (hscript : r.scripts[count]? = some script) :
    EnsuresUnless InMemory.answer (Astray shell) (r.Calm cwd count standardInput r.input 0)
      (shell.runScript rounds script)
      (fun goOn past s w => goOn = true ∧
        ∃ cwd, r.Calm cwd (count + 1) standardInput r.input 0 past s w) (fun _ => Never) Never := by
  have hseen := lasting_astray shell
  have hfile : ∀ path, Ensures InMemory.answer (r.Calm cwd count standardInput r.input 0)
      (Child.isFile path)
      (fun found past s w => found = r.isFile path ∧
        r.Calm cwd count standardInput r.input 0 past s w) (fun _ => Never) Never := fun path =>
    (ensures_ask (c := .fileExists path) (R := fun (found : Bool) => found = r.isFile path) rfl
      fun w hfiles _ => ⟨_, rfl, by rw [hfiles]; rfl⟩).mono_returns fun _ _ _ _ h => ⟨h.1.1, h.2⟩
  refine ensures_state_bind fun s hcwd => ?_
  refine EnsuresUnless.bind hseen (.of_ensures (ensures_ask (c := .getPath)
    (R := fun (path : Text) => path = r.searchPath) rfl fun _ _ hpath => ⟨_, rfl, hpath⟩))
    fun searchPath => ?_
  refine Ensures.weaken ?_ fun _ _ _ h => And.intro h.1.1 h.2
  -- from here on the lookup is that of the tour
  refine Ensures.and_pre fun hsearchPath => ?_
  subst hsearchPath hcwd
  refine EnsuresUnless.bind hseen (.of_ensures (Lookup.ensures_resolve hfile script s.cwd r.searchPath))
    fun path => Ensures.and_pre fun hpath => ?_
  refine EnsuresUnless.bind hseen (.of_ensures (ensures_openScript hscript hpath)) fun opened => ?_
  cases opened with
  | none => exact EnsuresUnless.done fun _ _ _ h => ⟨rfl, s.cwd, h⟩
  | some fd =>
      refine Ensures.and_pre fun hfd => Ensures.exists_pre fun content => ?_
      refine Ensures.and_pre fun hcontent => ?_
      refine EnsuresUnless.bind hseen (.of_ensures (ensures_log _)) fun _ => ?_
      refine EnsuresUnless.andFinally hseen ((ensures_runFrom hbuffer hprompt hhome false rounds
        (by have := hrounds path content hcontent; omega) (Nat.zero_le _)).mono
        (fun _ _ _ h => ⟨_, h⟩) (fun _ _ _ _ h => h) fun _ _ _ _ h => h) (fun goOn => ?_)
        fun e past s w h => h.elim
      refine Ensures.and_pre fun hgoOn => Ensures.weaken ?_ fun _ _ _ h => h.2
      refine Ensures.exists_pre fun cwd => EnsuresUnless.of_ensures ?_
      exact (ensures_close hfd).mono_returns fun _ _ _ _ h => ⟨hgoOn, cwd, h⟩

theorem ensures_runScripts {shell : Shell} (hbuffer : r.buffer.Sized)
    (hprompt : ∃ suffix, shell.promptSuffix = .text suffix)
    (hhome : ∃ path, shell.home = .text path) {rounds : Nat}
    (hrounds : ∀ path content, r.files.lookup path = some content → content.length < rounds)
    {rest : List Text} (hrest : r.scripts.drop count = rest) (hcount : count ≤ r.scripts.length) :
    EnsuresUnless InMemory.answer (Astray shell)
      (fun past s w => ∃ cwd, r.Calm cwd count standardInput r.input 0 past s w)
      (shell.runScripts rounds rest)
      (fun goOn past s w => goOn = true ∧
        ∃ cwd, r.Calm cwd r.scripts.length standardInput r.input 0 past s w)
      (fun _ => Never) Never := by
  induction rest generalizing count with
  | nil =>
      have hall : count = r.scripts.length := Nat.le_antisymm hcount (List.drop_eq_nil_iff.mp hrest)
      exact EnsuresUnless.done fun _ _ _ h => ⟨rfl, hall ▸ h⟩
  | cons script rest ih =>
      have hscript : r.scripts[count]? = some script := by
        rw [← List.head?_drop, hrest, List.head?_cons]
      have hmore : r.scripts.drop (count + 1) = rest := by
        rw [← List.drop_drop, hrest, List.drop_one, List.tail_cons]
      have hlt : count < r.scripts.length := (List.getElem?_eq_some_iff.mp hscript).1
      refine Ensures.exists_pre fun cwd => ?_
      refine EnsuresUnless.bind (lasting_astray shell)
        (ensures_runScript hbuffer hprompt hhome hrounds hscript) fun goOn => ?_
      refine Ensures.and_pre fun hgoOn => ?_
      subst hgoOn
      exact ih hmore hlt

/-- All that a run that nothing cuts short does with its input. -/
structure Completed (r : Tour) (o : Outcome Session InMemory ServiceCall.Reply Int) : Prop where
  ending : o.ending = .returned 0
  opened : r.OpenedInTurn o.events
  turns : (openings o.events).length = r.scripts.length
  read : bytesRead standardInput o.events = r.input
  endRead : EndRead standardInput r.input o.events

theorem ensures_run {shell : Shell} (hbuffer : r.buffer.Sized)
    (hprompt : ∃ suffix, shell.promptSuffix = .text suffix)
    (hhome : ∃ path, shell.home = .text path) {rounds : Nat}
    (hfiles : ∀ path content, r.files.lookup path = some content → content.length < rounds)
    (hinput : r.input.length < rounds) :
    EnsuresUnless InMemory.answer (Astray shell) (r.Calm cwd 0 standardInput r.input 0)
      (shell.run rounds r.scripts)
      (fun status past s w => status = 0 ∧ EndRead standardInput r.input past ∧
        ∃ cwd, r.Calm cwd r.scripts.length standardInput r.input r.input.length past s w)
      (fun _ => Never) Never := by
  have hseen := lasting_astray shell
  refine EnsuresUnless.bind hseen (.of_ensures ensures_publishCwd) fun _ => ?_
  refine EnsuresUnless.orElse (m := fun _ => Never) hseen ?_ fun e past s w h => h.elim
  refine EnsuresUnless.bind hseen ((ensures_runScripts hbuffer hprompt hhome hfiles List.drop_zero
    (Nat.zero_le _)).mono (fun _ _ _ h => ⟨cwd, h⟩) (fun _ _ _ _ h => h) fun _ _ _ _ h => h)
    fun goOn => Ensures.and_pre fun hgoOn => ?_
  subst hgoOn
  refine EnsuresUnless.bind hseen (ensures_runFrom hbuffer hprompt hhome true rounds
    (by omega) (Nat.zero_le _)) fun _ => ?_
  exact EnsuresUnless.done fun _ _ _ h => ⟨rfl, h.2⟩

end Tour

namespace Shell

/-- A line that ends the run ends it whatever else happens, and without faults nothing else but a
child does: a run that reads no such line goes through all of its input. -/
theorem run_endsAtExit (shell : Shell) {memory : Nat} {size : Value} {buffer : LineBuffer}
    (hsize : LineBuffer.ofSetting memory size = .ok buffer) {s : Session} (hs : buffer.SameSize s.line)
    {w : InMemory} (hfd : standardInput < w.nextFd) {input : Bytes}
    (hinput : w.sources.lookup standardInput = some input) (scripts : List Text) (rounds : Nat) :
    let o := (shell.run rounds scripts).run InMemory.answer s w
    (∀ before fd offset size line after,
      o.events = before ++ .called (.readLine fd offset size) (.ok line) :: after →
        shell.EndsRun line → shell.EndedBy fd after o.ending) ∧
    (w.faults = [] → (∃ suffix, shell.promptSuffix = .text suffix) →
      (∃ path, shell.home = .text path) → w.longestSource < rounds →
      (∀ line ∈ chunks o.events, ¬shell.EndsRun line) → 0 ∉ forkReplies o.events →
        Tour.Completed ⟨buffer, s.cwd, scripts, w.files, w.path, input⟩ o) := by
  intro o
  have hbuffer := LineBuffer.sized_of_setting hsize
  refine ⟨fun before fd offset size line after hsplit hends =>
    run_endedBy hbuffer hs hfd rounds scripts hsplit hends, ?_⟩
  intro hfaults hprompt hhome hrounds hlines hforks
  let r : Tour := ⟨buffer, s.cwd, scripts, w.files, w.path, input⟩
  have hcalm : r.Calm s.cwd 0 standardInput r.input 0 [] s w :=
    ⟨hs, hfd, hfaults, rfl, rfl, hinput, hinput, rfl, rfl, rfl, fun _ _ _ _ h => by simp at h, rfl⟩
  have hfiles : ∀ path content, r.files.lookup path = some content → content.length < rounds :=
    fun path content h => Nat.lt_of_le_of_lt (InMemory.length_file_le h) hrounds
  have hlength : r.input.length < rounds :=
    Nat.lt_of_le_of_lt (InMemory.length_source_le hinput) hrounds
  have hrun := Tour.ensures_run (r := r) hbuffer hprompt hhome hfiles hlength [] s w hcalm
  -- neither of the two things was seen in this run
  have hfound : ¬Tour.Astray shell o.events := by
    rintro ⟨e, he, ⟨fd, offset, size, line, rfl, hends⟩ | rfl⟩
    · cases line with
      | nil => exact not_endsRun_nil hends
      | cons byte rest => exact hlines _ (List.mem_filterMap.mpr ⟨_, he, rfl⟩) hends
    · exact hforks (List.mem_filterMap.mpr ⟨_, he, rfl⟩)
  change o.ending.choose _ _ _ o.events o.state o.world at hrun
  cases hend : o.ending with
  | returned status =>
      rw [hend] at hrun
      obtain ⟨rfl, hendRead, cwd, hdone⟩ := hrun.resolve_left hfound
      refine ⟨hend, hdone.opened, hdone.turns, ?_, hendRead⟩
      exact hdone.read.trans (List.take_length)
  | failed e =>
      rw [hend] at hrun
      exact (hrun.resolve_left hfound).elim
  | outOfRounds =>
      rw [hend] at hrun
      exact (hrun.resolve_left hfound).elim

/-- A world with two scripts: one goes home, the other one ends the run. -/
def twoScripts : InMemory :=
  .create [("/bin/go", [0x63, 0x64, 0x0A]), ("/bin/end", [0x65, 0x78, 0x69, 0x74, 0x0A])] [] "/" "/bin"
    [] [] [] false false []

/-- The script that ends the run is closed and that is all; the one that goes home is passed. -/
theorem run_endsAtExit_of_twoScripts :
    let ends := (Shell.default.run 8 ["end"]).run InMemory.answer (.default "/") twoScripts
    let goes := (Shell.default.run 8 ["go"]).run InMemory.answer (.default "/") twoScripts
    Shell.default.EndedBy 3 [.called (.close 3) (.ok ())] ends.ending ∧
      Tour.Completed ⟨.empty 256, "/", ["go"], twoScripts.files, "/bin", []⟩ goes := by
  intro ends goes
  have hsize : LineBuffer.ofSetting 1024 (.int 256) = .ok (.empty 256) := rfl
  have hfd : standardInput < twoScripts.nextFd := by decide
  have hinput : twoScripts.sources.lookup standardInput = some [] := rfl
  have hends := run_endsAtExit Shell.default hsize (s := .default "/") (LineBuffer.SameSize.refl _) hfd
    hinput ["end"] 8
  have hgoes := run_endsAtExit Shell.default hsize (s := .default "/") (LineBuffer.SameSize.refl _) hfd
    hinput ["go"] 8
  constructor
  · have hsplit : ends.events = ends.events.take 5 ++
        .called (.readLine 3 0 (.int 256)) (.ok [0x65, 0x78, 0x69, 0x74, 0x0A]) ::
          [.called (.close 3) (.ok ())] := rfl
    exact hends.1 _ 3 0 (.int 256) _ _ hsplit (by decide)
  · have hlines : chunks goes.events = [[0x63, 0x64, 0x0A]] := rfl
    have hforks : forkReplies goes.events = [] := rfl
    refine hgoes.2 rfl ⟨_, rfl⟩ ⟨_, rfl⟩ (by decide) ?_ ?_
    · change ∀ line ∈ chunks goes.events, _
      rw [hlines]
      decide
    · change (0 : Int) ∉ forkReplies goes.events
      rw [hforks]
      decide

end Shell

end LineShell
