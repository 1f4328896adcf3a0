import DebugConsole.Proofs.Channel.Consistency

set_option autoImplicit false

/-!
# What the frames still to come cover

A debugger takes the texts that are written and owes a frame for each.  What is pending is covered
as long as there is a frame or an untaken text for every place: `Channel.Covered`.  A frame gives up
one place, and a command brings one text and one place, so little can uncover a place: one reserved
without a frame to come, or a text that is refused after the frame of another has gone to its place.
Once everything is printed and no write is under way, nothing covered is left pending.
-/

namespace DebugConsole.Channel

variable {ch ch' : Channel} {numbers taken : List CommandId} {id next : CommandId} {frames : Nat}

/-! ## Texts -/

/-- The commands whose write has not ended, and those that wait. -/
def unwritten (ch : Channel) : List CommandId :=
  ch.writers.map (·.command.id) ++ ch.backlog.map Command.id

/-- The commands whose text the debugger has not taken. -/
def untaken (ch : Channel) (taken : List CommandId) : List CommandId :=
  ch.unwritten.filter fun id => !taken.contains id

namespace Consistent

/-- If a number retires, what waits goes on to be written. -/
theorem unwritten_retire (h : ch.Consistent numbers) (id : CommandId) (o : Outcome) :
    (ch.retire id o).unwritten = ch.unwritten := by
  by_cases hf : ch.inFlight = some id
  · cases hb : ch.backlog with
    | nil =>
      rw [retire_of_backlog_nil o hf hb]
      rfl
    | cons c rest =>
      rw [retire_of_backlog_cons o (h.isClosed_of_inFlight hf) hf hb]
      simp [unwritten, hb]
  · rw [retire_of_not_inFlight o hf]
    rfl

/-- A command that is submitted comes last. -/
theorem unwritten_submit {c : Command} {t : Ticket} (h : ch.Consistent numbers)
    (hs : ch.submit c = .ok (t, ch')) : ch'.unwritten = ch.unwritten ++ [c.id] := by
  obtain ⟨-, -, rfl⟩ := submit_eq_ok_iff.1 hs
  split
  · simp [unwritten, Channel.reserving]
  · rename_i hf
    have hb : ch.backlog = [] := h.idle (by simpa using hf)
    simp [unwritten, Channel.reserving, Channel.startWrite, hb]

/-- A write that has ended takes its own command along and no other. -/
theorem unwritten_without {w : Writer} (h : ch.Consistent numbers) (hw : w ∈ ch.writers) :
    (ch.without w.serial).unwritten = ch.unwritten.erase w.command.id := by
  have hnodup := (List.nodup_append.1 h.once).1
  have hfilter : (ch.writers.filter fun v => !(v.serial == w.serial)) =
      ch.writers.filter fun v => v.command.id != w.command.id := by
    refine List.filter_congr fun v hv => ?_
    by_cases heq : v = w
    · simp [heq]
    · have hserial : v.serial ≠ w.serial := fun hs =>
        heq (List.inj_on_of_nodup_map h.serials hv hw hs)
      have hid : v.command.id ≠ w.command.id := fun hs =>
        heq (List.inj_on_of_nodup_map hnodup hv hw hs)
      rw [beq_false_of_ne hserial, bne_iff_ne.2 hid]
      rfl
  have hmem : w.command.id ∈ ch.writers.map (·.command.id) := List.mem_map_of_mem hw
  rw [unwritten, unwritten, List.erase_append_left _ hmem, hnodup.erase_eq_filter,
    Channel.without, hfilter, List.filter_map]
  rfl

theorem nodup_untaken (h : ch.Consistent numbers) : (ch.untaken taken).Nodup := h.once.filter _

theorem untaken_without {w : Writer} (h : ch.Consistent numbers) (hw : w ∈ ch.writers) :
    (ch.without w.serial).untaken taken = (ch.untaken taken).erase w.command.id := by
  have hnodup : ch.unwritten.Nodup := h.once
  rw [h.nodup_untaken.erase_eq_filter, untaken, untaken, h.unwritten_without hw,
    hnodup.erase_eq_filter, List.filter_filter, List.filter_filter]
  exact List.filter_congr fun _ _ => Bool.and_comm ..

/-- A text that is taken is not to be taken any more. -/
theorem untaken_append (h : ch.Consistent numbers) (id : CommandId) :
    ch.untaken (taken ++ [id]) = (ch.untaken taken).erase id := by
  rw [h.nodup_untaken.erase_eq_filter, untaken, untaken, List.filter_filter]
  refine List.filter_congr fun a _ => ?_
  by_cases heq : a = id <;> simp [heq]

end Consistent

theorem mem_untaken {w : Writer} (hw : w ∈ ch.writers) (hnew : w.command.id ∉ taken) :
    w.command.id ∈ ch.untaken taken := by
  have hunwritten : w.command.id ∈ ch.unwritten :=
    List.mem_append_left _ (List.mem_map_of_mem hw)
  simp [untaken, hunwritten, hnew]

@[simp] theorem unwritten_beginWrite (ch : Channel) (serial : Nat) (now : Float) :
    (ch.beginWrite serial now).unwritten = ch.unwritten := by
  cases hw : ch.writers.find? fun v => v.serial == serial && !v.hasBegun with
  | none => rw [beginWrite_of_find?_eq_none now hw]
  | some w =>
    rw [beginWrite_of_find? now hw]
    simp [unwritten, Function.comp_def]

/-! ## Numbers -/

/-- Numbers given out before `next` was. -/
def Earlier (numbers : List CommandId) (next : CommandId) : Prop := ∀ id ∈ numbers, id < next

namespace Earlier

theorem notMem (h : Earlier numbers next) : next ∉ numbers := fun hid => Int.lt_irrefl _ (h _ hid)

theorem mono {next' : CommandId} (h : Earlier numbers next) (hnext : next ≤ next') :
    Earlier numbers next' := fun id hid => Int.lt_of_lt_of_le (h id hid) hnext

theorem succ (h : Earlier numbers next) : Earlier numbers (next + 1) :=
  h.mono (Int.le_of_lt (Int.lt_succ next))

theorem append (h : Earlier numbers next) : Earlier (numbers ++ [next]) (next + 1) := by
  intro id hid
  rcases List.mem_append.1 hid with hid | hid
  · exact h.succ id hid
  · rw [List.mem_singleton.1 hid]
    exact Int.lt_succ next

end Earlier

/-! ## Places -/

/-- Every pending place is covered by a frame still to come or by a text still to be taken.  Numbers
from `next` on are new. -/
structure Covered (ch : Channel) (frames : Nat) (taken : List CommandId) (next : CommandId) :
    Prop where
  isOpen : ch.isClosed = false
  books : ∃ numbers, ch.Consistent numbers ∧ Earlier numbers next
  known : Earlier taken next
  covers : ch.pending.length ≤ frames + (ch.untaken taken).length

namespace Covered

theorem mono {frames' : Nat} {next' : CommandId} (h : ch.Covered frames taken next)
    (hframes : frames ≤ frames') (hnext : next ≤ next') : ch.Covered frames' taken next' where
  isOpen := h.isOpen
  books := by
    obtain ⟨numbers, hc, hearlier⟩ := h.books
    exact ⟨numbers, hc, hearlier.mono hnext⟩
  known := h.known.mono hnext
  covers := by
    have := h.covers
    omega

/-- A change that leaves the places and the texts as they are. -/
theorem still (h : ch.Covered frames taken next)
    (hbooks : ∀ numbers, ch.Consistent numbers → ch'.Consistent numbers)
    (hclosed : ch'.isClosed = ch.isClosed) (hpending : ch'.pending = ch.pending)
    (hunwritten : ch'.unwritten = ch.unwritten) : ch'.Covered frames taken next where
  isOpen := hclosed.trans h.isOpen
  books := by
    obtain ⟨numbers, hc, hearlier⟩ := h.books
    exact ⟨numbers, hbooks numbers hc, hearlier⟩
  known := h.known
  covers := by
    rw [hpending, untaken, hunwritten]
    exact h.covers

/-! ## Submitting and signalling -/

theorem cancel (h : ch.Covered frames taken next) (t : Ticket) :
    (ch.cancel t).Covered frames taken next := by
  rw [Channel.cancel, settle_eq]
  exact h.still (fun _ hc => hc.withOutcomes (Outcome.length_settled ..)) rfl rfl rfl

theorem submit {text : String} {t : Ticket} (h : ch.Covered frames taken next)
    (hs : ch.submit ⟨next, text⟩ = .ok (t, ch')) : ch'.Covered frames taken (next + 1) := by
  obtain ⟨numbers, hc, hearlier⟩ := h.books
  obtain ⟨hopen, -, hch⟩ := submit_eq_ok_iff.1 hs
  refine ⟨?_, ⟨_, hc.submit hearlier.notMem hs, hearlier.append⟩, h.known.succ, ?_⟩
  · rw [hch]
    split <;> exact hopen
  · have hcovers := h.covers
    have hone : [next].filter (fun id => !taken.contains id) = [next] := by simp [h.known.notMem]
    rw [pending_submit hs, untaken, hc.unwritten_submit hs, List.filter_append, hone]
    simp only [List.length_append, List.length_singleton]
    rw [untaken] at hcovers
    omega

/-- A signal keeps its place exactly if it is delivered. -/
theorem pending_signal (hc : ch.isClosed = false) (hid : id ∉ ch.pending) (name : String)
    (now : Float) {fault : Option Fault} (hfault : ∀ f, fault = some f → failsSignal f = true) :
    (ch.signal id name now fault).2.pending =
      if fault.isNone then ch.pending ++ [id] else ch.pending := by
  cases fault with
  | none =>
    rw [signal_none_eq_submitted_iff.2 ⟨hc, rfl, rfl⟩]
    rfl
  | some f =>
    have hsignal : ch.signal id name now (some f) = (.submitted ch.outcomes.length, _) :=
      signal_some_eq_submitted_iff.2 ⟨hfault f rfl, hc, rfl, rfl⟩
    rw [hsignal]
    exact pending_signal_some hid hsignal

/-- A signal that is delivered gets a frame; one that is not gives its place back. -/
theorem signal {fault : Option Fault} (h : ch.Covered frames taken next) (name : String)
    (now : Float) (hfault : ∀ f, fault = some f → failsSignal f = true) :
    (ch.signal next name now fault).2.Covered (if fault.isNone then frames + 1 else frames) taken
      (next + 1) := by
  obtain ⟨numbers, hc, hearlier⟩ := h.books
  have hnew : next ∉ numbers := hearlier.notMem
  have hpending : next ∉ ch.pending := fun hmem => hnew (hc.mem_of_mem_pending hmem)
  obtain ⟨hclosed, -, hbacklog, hwriters⟩ := flight_signal h.isOpen next name now fault
  have hc' := hc.signalled h.isOpen hnew name now fault
  refine ⟨hclosed.trans h.isOpen, ⟨_, hc', hearlier.append⟩, h.known.succ, ?_⟩
  have hcovers := h.covers
  have hunwritten : (ch.signal next name now fault).2.unwritten = ch.unwritten := by
    rw [unwritten, hwriters, hbacklog]
    rfl
  rw [pending_signal h.isOpen hpending name now hfault, untaken, hunwritten]
  rw [untaken] at hcovers
  split
  · simp only [List.length_append, List.length_singleton]
    omega
  · exact hcovers

/-! ## Frames -/

theorem retire {frames' : Nat} (h : ch.Covered frames taken next)
    (hid : id ∉ ch.backlog.map Command.id) (o : Outcome)
    (hcovers : (ch.pending.erase id).length ≤ frames' + (ch.untaken taken).length) :
    (ch.retire id o).Covered frames' taken next := by
  obtain ⟨numbers, hc, hearlier⟩ := h.books
  refine ⟨by simpa using h.isOpen, ⟨_, hc.retire hid o, hearlier⟩, h.known, ?_⟩
  rwa [pending_retire, untaken, hc.unwritten_retire]

theorem emit (h : ch.Covered frames taken next) (lines : List String) (now : Float) :
    (ch.emit lines now).Covered (frames - 1) taken next := by
  obtain ⟨numbers, hc, hearlier⟩ := h.books
  have hcovers := h.covers
  cases hp : ch.pending with
  | nil =>
    rw [emit_of_pending_nil lines now hp]
    exact ⟨h.isOpen, ⟨numbers, { hc with }, hearlier⟩, h.known, by simp [hp]⟩
  | cons id rest =>
    rw [emit_of_pending_cons lines now hp]
    refine h.retire (hc.notMem_backlog_of_pending_cons hp) _ ?_
    rw [hp, List.length_cons] at hcovers
    rw [hp, List.erase_cons_head]
    omega

/-- Output arrives: as many places are given up as it completes frames. -/
theorem feed (h : ch.Covered frames taken next) (chunk : String) (now : Float) :
    (ch.feed chunk now).Covered (frames - (ch.takeFrames chunk).1.length) taken next := by
  have hemits : ∀ (printed : List (List String)) (frames : Nat) (ch : Channel),
      ch.Covered frames taken next →
        (printed.foldl (fun ch lines => ch.emit lines now) ch).Covered (frames - printed.length)
          taken next := by
    intro printed
    induction printed with
    | nil => exact fun _ _ h => h
    | cons lines printed ih =>
      intro frames ch h
      rw [List.foldl_cons, List.length_cons, Nat.add_comm, Nat.sub_add_eq]
      exact ih _ _ (h.emit lines now)
  exact hemits _ _ _ (h.still (fun _ hc => { hc with }) rfl rfl rfl)

/-! ## Writing -/

theorem beginWrite (h : ch.Covered frames taken next) (serial : Nat) (now : Float) :
    (ch.beginWrite serial now).Covered frames taken next := by
  have hclosed : (ch.beginWrite serial now).isClosed = ch.isClosed := by
    unfold Channel.beginWrite
    split <;> rfl
  exact h.still (fun _ hc => hc.beginWrite serial now) hclosed (pending_beginWrite ..)
    (unwritten_beginWrite ..)

theorem take {w : Writer} (h : ch.Covered frames taken next) (hw : w ∈ ch.writers)
    (hnew : w.command.id ∉ taken) :
    ch.Covered (frames + 1) (taken ++ [w.command.id]) next := by
  obtain ⟨numbers, hc, hearlier⟩ := h.books
  refine ⟨h.isOpen, h.books, ?_, ?_⟩
  · intro id hid
    rcases List.mem_append.1 hid with hid | hid
    · exact h.known id hid
    · rw [List.mem_singleton.1 hid]
      exact hearlier _ (hc.writing w hw)
  · have hcovers := h.covers
    have hmem := mem_untaken hw hnew
    have hpos := List.length_pos_of_mem hmem
    rw [hc.untaken_append, List.length_erase_of_mem hmem]
    omega

theorem endWrite {w : Writer} (h : ch.Covered frames taken next) (hw : w ∈ ch.writers)
    (hknown : w.command.id ∈ taken) : (ch.endWrite w.serial none).Covered frames taken next := by
  obtain ⟨numbers, hc, hearlier⟩ := h.books
  have hnot : w.command.id ∉ ch.untaken taken := by simp [untaken, hknown]
  rw [endWrite_of_find? none (hc.find?_serial hw)]
  refine ⟨h.isOpen, ⟨numbers, hc.without _, hearlier⟩, h.known, ?_⟩
  rw [hc.untaken_without hw, List.erase_of_not_mem hnot]
  exact h.covers

/-- The debugger refuses a text whose place no frame has gone to. -/
theorem refuse {w : Writer} {fault : Fault} (h : ch.Covered frames taken next)
    (hw : w ∈ ch.writers) (hfault : failsCommand fault = true) (hnew : w.command.id ∉ taken)
    (hplace : w.command.id ∈ ch.pending) :
    (ch.endWrite w.serial (some fault)).Covered frames taken next := by
  obtain ⟨numbers, hc, hearlier⟩ := h.books
  have hcovers := h.covers
  have hmem := mem_untaken hw hnew
  have hpos := List.length_pos_of_mem hmem
  have huntaken : ((ch.without w.serial).untaken taken).length + 1 = (ch.untaken taken).length := by
    rw [hc.untaken_without hw, List.length_erase_of_mem hmem]
    omega
  -- without the text there is a frame missing, until its command gives its place up
  have hwithout : (ch.without w.serial).Covered (frames + 1) taken next :=
    ⟨h.isOpen, ⟨numbers, hc.without _, hearlier⟩, h.known, by
      change ch.pending.length ≤ _
      omega⟩
  rw [endWrite_of_find? (some fault) (hc.find?_serial hw)]
  dsimp only
  rw [if_pos hfault]
  refine hwithout.retire (hc.notMem_backlog_of_mem_writers hw) _ ?_
  change (ch.pending.erase w.command.id).length ≤ _
  rw [List.length_erase_of_mem hplace]
  omega

/-! ## Nothing owed -/

/-- When no frame is to come and no write is under way, nothing is pending. -/
theorem pending_eq_nil (h : ch.Covered 0 taken next) (hwriters : ch.writers = []) :
    ch.pending = [] := by
  obtain ⟨numbers, hc, -⟩ := h.books
  have hcovers := h.covers
  have huntaken : (ch.untaken taken).length ≤ ch.backlog.length := by
    have hfilter := List.length_filter_le (fun id => !taken.contains id) ch.unwritten
    simpa [untaken, unwritten, hwriters] using hfilter
  have hline := hc.line.length_le
  cases hf : ch.inFlight with
  | none =>
    rw [hc.idle hf, List.length_nil] at huntaken
    exact List.length_eq_zero_iff.1 (by omega)
  | some id =>
    -- what waits is pending, and so is what it waits for
    rw [Channel.line, hf] at hline
    simp only [Option.toList_some, List.length_append, List.length_singleton,
      List.length_map] at hline
    omega

/-- When nothing is pending, the next command is written at once, and the next frame is the answer
to it. -/
theorem answers_next (h : ch.Covered frames taken next) (hp : ch.pending = []) (text : String) :
    ∃ t ch', ch.submit ⟨next, text⟩ = .ok (t, ch') ∧ ch'.inFlight = some next ∧
      ∀ lines now, (ch'.emit lines now).outcome t = .answered (ch'.reply next lines now) := by
  obtain ⟨numbers, hc, hearlier⟩ := h.books
  have hflight : ch.inFlight = none := by
    cases hf : ch.inFlight with
    | none => rfl
    | some id => simpa [hp] using hc.mem_pending_of_inFlight hf
  have hsubmit : ch.submit ⟨next, text⟩ =
      .ok (ch.outcomes.length, (ch.reserving next).startWrite ⟨next, text⟩) :=
    submit_eq_ok_iff.2 ⟨h.isOpen, rfl, by simp [hflight]⟩
  refine ⟨_, _, hsubmit, rfl, fun lines now => ?_⟩
  have hpending : ((ch.reserving next).startWrite ⟨next, text⟩).pending = [next] := by
    rw [pending_submit hsubmit, hp, List.nil_append]
  have hticket : ((ch.reserving next).startWrite ⟨next, text⟩).registered.lookup next =
      some ch.outcomes.length :=
    lookup_assign_of_notMem _ (hc.notMem_registered hearlier.notMem)
  have hwaiting : ((ch.reserving next).startWrite ⟨next, text⟩).outcomes[ch.outcomes.length]? =
      some .waiting := by
    simp [startWrite, reserving]
  exact outcome_emit hpending hticket hwaiting lines now

end Covered

end DebugConsole.Channel
