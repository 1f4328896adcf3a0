import DebugConsole.Process.Handle
import DebugConsole.Proofs.Channel.Completion

set_option autoImplicit false

/-!
# Writes that fail

When a write fails, that should concern its command alone: whoever waits for it is told, and the next
command takes the flight up (`Isolates`).  This is so exactly if the channel expects the fault, which is one
of transport or of the runtime (`isolates_failWrite_iff`).  A text that the encoding of the process cannot
express is refused with a fault of another family: nobody is told, and the flight goes on until a frame
comes or the channel is closed (`Stalled.steps`).

A command that has been dealt with before its write fails is the one exception: then there is nobody left to
be told, whatever the fault.
-/

namespace DebugConsole

/-! ## What a process refuses -/

/-- The only fault of encoding is that a text cannot be expressed. -/
theorem Encoding.kind_of_encode_eq_error {e : Encoding} {text : String} {fault : Fault}
    (h : e.encode text = .error fault) : fault.kind = .encoding := by
  unfold encode at h
  split at h
  · cases h
  · dsimp only at h
    split at h
    · cases h
    · cases h
      rfl

theorem Channel.failsCommand_eq_true_iff {fault : Fault} :
    failsCommand fault = true ↔ fault.family = .transport ∨ fault.family = .runtime := by
  simp [failsCommand]

/-- Of the faults with which a handle refuses a text, a channel expects exactly those of a process
that has no input. -/
theorem ProcessHandle.failsCommand_iff {p : ProcessHandle} {text : String} {fault : Fault}
    (h : p.writeBytes text = .error fault) :
    Channel.failsCommand fault = true ↔ p.hasStdin = false := by
  unfold writeBytes at h
  cases hp : p.hasStdin with
  | false =>
    simp only [hp] at h
    cases h
    exact iff_of_true rfl rfl
  | true =>
    simp only [hp] at h
    have hkind := Encoding.kind_of_encode_eq_error h
    simp [Channel.failsCommand, Fault.family, hkind, FaultKind.family]

/-! ## What becomes of the tickets -/

namespace Channel

variable {ch : Channel} {id : CommandId} {t : Ticket} {o : Outcome}

/-- Whoever waits for a number that retires is told. -/
theorem outcome_retire_of_waiting (hticket : ch.registered.lookup id = some t)
    (hwaiting : ch.outcome t = .waiting) : (ch.retire id o).outcome t = o := by
  have hwaits := outcome_eq_waiting_iff.1 hwaiting
  rw [outcome, outcomes_retire, outcomesAfter, hticket]
  dsimp only
  rw [Outcome.settled_of_waiting o hwaits, List.getD_eq_getElem?_getD,
    List.getElem?_set_self (List.getElem?_eq_some_iff.1 hwaits).1]
  rfl

/-- Nothing becomes of any other ticket, nor of one that does not wait. -/
theorem outcome_retire_of_not_waiting
    (h : ch.registered.lookup id ≠ some t ∨ ch.outcome t ≠ .waiting) :
    (ch.retire id o).outcome t = ch.outcome t := by
  rw [outcome, outcomes_retire, outcomesAfter, outcome]
  cases hl : ch.registered.lookup id with
  | none => rfl
  | some u =>
    dsimp only
    by_cases htu : t = u
    · subst htu
      have hdone := h.resolve_left fun hne => hne hl
      rw [Outcome.settled_of_not_waiting o (mt outcome_eq_waiting_iff.2 hdone)]
    · rw [List.getD_eq_getElem?_getD, Outcome.settled_getElem?_of_ne o htu,
        ← List.getD_eq_getElem?_getD]

/-- The end of a write does not change the flight of another command. -/
theorem Consistent.flight_endWrite {numbers : List CommandId} {w : Writer}
    (h : ch.Consistent numbers) (hw : w ∈ ch.writers) (hflight : ch.inFlight ≠ some w.command.id)
    (fault : Option Fault) :
    (ch.endWrite w.serial fault).inFlight = ch.inFlight ∧
      (ch.endWrite w.serial fault).backlog = ch.backlog ∧
      (ch.endWrite w.serial fault).writers ⊆ ch.writers := by
  have hflight' : (ch.without w.serial).inFlight ≠ some w.command.id := hflight
  rcases h.endWrite_cases hw fault with heq | ⟨f, -, heq⟩
  · rw [heq]
    exact ⟨rfl, rfl, List.filter_subset_self _⟩
  · rw [heq, retire_of_not_inFlight _ hflight']
    exact ⟨rfl, rfl, List.filter_subset_self _⟩

end Channel

namespace Chronicle

variable {mayPrint : Chronicle → Prop} {prompt : String} {d d' : Chronicle} {c : Command}
  {w : Writer} {fault : Fault}

/-! ## What a failed write should do -/

/-- The fault of a write has become of its command alone, and the channel goes on. -/
structure Isolates (d d' : Chronicle) (c : Command) (fault : Fault) : Prop where
  /-- whoever waits for the command is told -/
  told : ∀ t, d.submitted[t]? = some c.id → d.channel.outcome t = .waiting →
    d'.channel.outcome t = .failed (.unwritten fault.message)
  /-- nothing becomes of the other tickets, nor of one that is settled or was given up -/
  others : ∀ t, d.submitted[t]? ≠ some c.id ∨ d.channel.outcome t ≠ .waiting →
    d'.channel.outcome t = d.channel.outcome t
  /-- the command is not owed a frame any more, and everything else that was still is -/
  pending : d'.channel.pending = d.channel.pending.filter fun id => id != c.id
  /-- the next command takes the flight up, and its text is about to be handed to the process -/
  next : c.id ∈ d.channel.pending → ∀ n rest, d.channel.backlog = n :: rest →
    d'.channel.inFlight = some n.id ∧ d'.channel.backlog = rest ∧
      d'.channel.writeText? d.channel.writes = some (n.text ++ Channel.lineEnd)
  /-- with nothing waiting, nothing is in flight -/
  free : c.id ∈ d.channel.pending → d.channel.backlog = [] → d'.channel.inFlight = none
  isClosed : d'.channel.isClosed = d.channel.isClosed

/-- The chronicle once a write has failed. -/
def failWrite (d : Chronicle) (w : Writer) (fault : Fault) : Chronicle :=
  { d with channel := d.channel.endWrite w.serial (some fault) }

/-- A fault that the channel expects retires the command. -/
theorem Faithful.channel_failWrite_of_failsCommand (h : d.Faithful) (hw : w ∈ d.channel.writers)
    (hf : Channel.failsCommand fault = true) :
    (d.failWrite w fault).channel =
      (d.channel.without w.serial).retire w.command.id (.failed (.unwritten fault.message)) := by
  rw [failWrite, Channel.endWrite_of_find? _ (h.consistent.find?_serial hw)]
  exact if_pos hf

/-- Any other fault leaves everything but the write as it is. -/
theorem Faithful.channel_failWrite_of_not_failsCommand (h : d.Faithful)
    (hw : w ∈ d.channel.writers) (hf : Channel.failsCommand fault = false) :
    (d.failWrite w fault).channel = d.channel.without w.serial := by
  rw [failWrite, Channel.endWrite_of_find? _ (h.consistent.find?_serial hw)]
  exact if_neg (by simp [hf])

/-- As long as a ticket waits, it is registered for its number. -/
theorem Reachable.lookup_of_waiting {t : Ticket} {id : CommandId}
    (h : Reachable mayPrint prompt d) (hid : d.submitted[t]? = some id)
    (hwaiting : d.channel.outcome t = .waiting) : d.channel.registered.lookup id = some t := by
  have hpending := (h.waiting_iff hid (by simp [hwaiting])).1 hwaiting
  exact h.faithful.consistent.lookup_of_mem_pending hpending hid

/-- The next command takes the flight up once the command of a write has retired. -/
theorem Faithful.next_failWrite {n : Command} {rest : List Command} (h : d.Faithful)
    (hw : w ∈ d.channel.writers) (hf : Channel.failsCommand fault = true)
    (hp : w.command.id ∈ d.channel.pending) (hb : d.channel.backlog = n :: rest) :
    (d.failWrite w fault).channel.inFlight = some n.id ∧
      (d.failWrite w fault).channel.backlog = rest ∧
      (d.failWrite w fault).channel.writeText? d.channel.writes =
        some (n.text ++ Channel.lineEnd) := by
  have hflight : (d.channel.without w.serial).inFlight = some w.command.id :=
    h.inFlight_of_mem_writers hw hp
  have hopen : (d.channel.without w.serial).isClosed = false := h.consistent.isClosed_of_inFlight hflight
  have hbacklog : (d.channel.without w.serial).backlog = n :: rest := hb
  have hretire := h.channel_failWrite_of_failsCommand hw hf
  rw [Channel.retire_of_backlog_cons _ hopen hflight hbacklog] at hretire
  have hnew : ⟨d.channel.writes, n, false⟩ ∈ (d.failWrite w fault).channel.writers := by
    rw [hretire]
    exact List.mem_append_right _ (List.mem_singleton.2 rfl)
  have hfound := (h.consistent.endWrite w.serial (some fault)).find?_unbegun hnew rfl
  refine ⟨by rw [hretire], by rw [hretire], ?_⟩
  exact congrArg (Option.map fun v : Writer => v.command.text ++ Channel.lineEnd) hfound

/-- A fault that the channel expects is isolated. -/
theorem Reachable.isolates_failWrite (h : Reachable mayPrint prompt d)
    (hw : w ∈ d.channel.writers) (hf : Channel.failsCommand fault = true) :
    d.Isolates (d.failWrite w fault) w.command fault := by
  have hs := h.faithful
  have hchannel := hs.channel_failWrite_of_failsCommand hw hf
  refine ⟨fun t hid hwaiting => ?_, fun t ht => ?_, ?_,
    fun hp n rest hb => hs.next_failWrite hw hf hp hb, fun hp hb => ?_, ?_⟩
  · rw [hchannel]
    exact Channel.outcome_retire_of_waiting (h.lookup_of_waiting hid hwaiting) hwaiting
  · rw [hchannel]
    refine Channel.outcome_retire_of_not_waiting (ht.imp_left fun hne hticket => hne ?_)
    exact hs.consistent.owner _ (mem_of_lookup hticket)
  · rw [hchannel, Channel.pending_retire]
    exact hs.consistent.unique.erase_eq_filter _
  · have hflight : (d.channel.without w.serial).inFlight = some w.command.id :=
      hs.inFlight_of_mem_writers hw hp
    have hbacklog : (d.channel.without w.serial).backlog = [] := hb
    rw [hchannel, Channel.retire_of_backlog_nil _ hflight hbacklog]
  · rw [hchannel]
    exact Channel.isClosed_retire _ _

/-- Nor is there anything to isolate when the command has been dealt with before. -/
theorem Reachable.isolates_of_notMem_pending (h : Reachable mayPrint prompt d)
    (hw : w ∈ d.channel.writers) (hf : Channel.failsCommand fault = false)
    (hp : w.command.id ∉ d.channel.pending) :
    d.Isolates (d.failWrite w fault) w.command fault := by
  have hchannel := h.faithful.channel_failWrite_of_not_failsCommand hw hf
  refine ⟨fun t hid hwaiting => ?_, fun t ht => ?_, ?_, fun hp' => absurd hp' hp,
    fun hp' => absurd hp' hp, ?_⟩
  · exact absurd ((h.waiting_iff hid (by simp [hwaiting])).1 hwaiting) hp
  · rw [hchannel]
    rfl
  · rw [hchannel]
    refine (List.filter_eq_self.2 fun id hid => bne_iff_ne.2 ?_).symm
    rintro rfl
    exact hp hid
  · rw [hchannel]
    rfl

/-- A fault that the channel does not expect is not isolated: the command is still owed a frame. -/
theorem Faithful.not_isolates (h : d.Faithful) (hw : w ∈ d.channel.writers)
    (hf : Channel.failsCommand fault = false) (hp : w.command.id ∈ d.channel.pending) :
    ¬d.Isolates (d.failWrite w fault) w.command fault := by
  intro hisolates
  have hpending := hisolates.pending
  rw [h.channel_failWrite_of_not_failsCommand hw hf] at hpending
  have hmem : w.command.id ∈ d.channel.pending.filter fun id => id != w.command.id :=
    hpending ▸ hp
  simp at hmem

/-! ## A flight that does not end -/

/-- What is in flight is not being written, and some commands wait behind it. -/
structure Stalled (d : Chronicle) (id : CommandId) (waiting : List Command) : Prop where
  flying : d.channel.inFlight = some id
  waits : waiting <+: d.channel.backlog
  unwritten : ∀ w ∈ d.channel.writers, w.command.id ≠ id

/-- The flight has not changed, nor what waits, and there is no new write. -/
theorem Stalled.still {id : CommandId} {waiting : List Command} (h : d.Stalled id waiting)
    (hflight : d'.channel.inFlight = d.channel.inFlight)
    (hbacklog : d'.channel.backlog = d.channel.backlog)
    (hwriters : d'.channel.writers ⊆ d.channel.writers) : d'.Stalled id waiting where
  flying := by rw [hflight]; exact h.flying
  waits := by rw [hbacklog]; exact h.waits
  unwritten := fun w hw => h.unwritten w (hwriters hw)

/-- Nothing but a frame ends a stalled flight, short of closing the channel. -/
theorem Stalled.step {id : CommandId} {waiting : List Command} (h : d.Stalled id waiting)
    (hs : d.Faithful) (s : Step (fun _ => False) d d') :
    d'.channel.isClosed = true ∨ d'.Stalled id waiting := by
  cases s with
  | submit new submits =>
    obtain ⟨-, -, rfl⟩ := Channel.submit_eq_ok_iff.1 submits
    rw [if_pos (by rw [h.flying]; rfl)]
    exact Or.inr ⟨h.flying, h.waits.trans (List.prefix_append _ _), h.unwritten⟩
  | @signal id name now fault isOpen new =>
    obtain ⟨-, hflight, hbacklog, hwriters⟩ := Channel.flight_signal isOpen id name now fault
    exact Or.inr (h.still hflight hbacklog fun w hw => hwriters ▸ hw)
  | cancel t =>
    refine Or.inr (h.still ?_ ?_ ?_) <;> rw [Channel.cancel, Channel.settle_eq]
    exact List.Subset.refl _
  | @beginWrite w now writing unbegun =>
    have hbegun := Channel.beginWrite_of_find? now (hs.consistent.find?_unbegun writing unbegun)
    refine Or.inr ⟨by rw [hbegun]; exact h.flying, by rw [hbegun]; exact h.waits, fun v hv => ?_⟩
    rw [hbegun] at hv
    obtain ⟨u, hu, rfl⟩ := List.mem_map.1 hv
    rw [Writer.command_marked]
    exact h.unwritten u hu
  | @endWrite w fault writing begun =>
    have hother : d.channel.inFlight ≠ some w.command.id := by
      rw [h.flying]
      exact fun heq => h.unwritten w writing (Option.some.inj heq).symm
    obtain ⟨hflight, hbacklog, hwriters⟩ := hs.consistent.flight_endWrite writing hother fault
    exact Or.inr (h.still hflight hbacklog hwriters)
  | buffer b => exact Or.inr (h.still rfl rfl (List.Subset.refl _))
  | emit lines now may => exact may.elim
  | close fault => exact Or.inl rfl
  | endOutput => exact Or.inl rfl
  | failOutput cause => exact Or.inl rfl

/-- In no run without frames the flight ends, short of closing the channel. -/
theorem Stalled.steps {id : CommandId} {waiting : List Command} (h : d.Stalled id waiting)
    (hs : d.Faithful) (steps : Relation.ReflTransGen (Step fun _ => False) d d') :
    d'.Faithful ∧ (d'.channel.isClosed = true ∨ d'.Stalled id waiting) := by
  induction steps with
  | refl => exact ⟨hs, Or.inr h⟩
  | tail _ s ih =>
    obtain ⟨hs, hclosed | hstalled⟩ := ih
    · exact ⟨hs.step s, Or.inl (s.isClosed hclosed)⟩
    · exact ⟨hs.step s, hstalled.step hs s⟩

/-- A write that fails with a fault that the channel does not expect leaves the flight stalled. -/
theorem Faithful.stalled_failWrite (h : d.Faithful) (hw : w ∈ d.channel.writers)
    (hf : Channel.failsCommand fault = false) (hp : w.command.id ∈ d.channel.pending) :
    (d.failWrite w fault).Stalled w.command.id d.channel.backlog := by
  have hchannel := h.channel_failWrite_of_not_failsCommand hw hf
  refine ⟨?_, ?_, fun v hv heq => ?_⟩
  · rw [hchannel]
    exact h.inFlight_of_mem_writers hw hp
  · rw [hchannel]
    exact List.prefix_refl _
  · rw [hchannel] at hv
    exact h.consistent.ne_of_mem_without hw hv heq

/-! ## Exactly when -/

/-- A failed write concerns its command alone exactly if the fault is one of transport or of the
runtime, or the command has been dealt with before.  So when a handle refuses a text, it does
exactly if the process has no input.  After any other fault the flight does not end in any run
without frames, and what waited behind it goes on waiting, until the channel is closed. -/
theorem isolates_failWrite_iff (h : Reachable mayPrint prompt d) (hw : w ∈ d.channel.writers)
    (hb : w.hasBegun = true) :
    (∀ fault, d.Isolates (d.failWrite w fault) w.command fault ↔
      (fault.family = .transport ∨ fault.family = .runtime) ∨
        w.command.id ∉ d.channel.pending) ∧
    (∀ (p : ProcessHandle) (fault : Fault),
      p.writeBytes (w.command.text ++ Channel.lineEnd) = .error fault →
        (d.Isolates (d.failWrite w fault) w.command fault ↔
          p.hasStdin = false ∨ w.command.id ∉ d.channel.pending)) ∧
    ∀ fault, ¬(fault.family = .transport ∨ fault.family = .runtime) →
      w.command.id ∈ d.channel.pending →
        ∀ d', Relation.ReflTransGen (Step fun _ => False) (d.failWrite w fault) d' →
          d'.channel.isClosed = false → d'.Stalled w.command.id d.channel.backlog := by
  have hs := h.faithful
  have hiff : ∀ fault, d.Isolates (d.failWrite w fault) w.command fault ↔
      Channel.failsCommand fault = true ∨ w.command.id ∉ d.channel.pending := by
    intro fault
    cases hf : Channel.failsCommand fault with
    | true => exact iff_of_true (h.isolates_failWrite hw hf) (Or.inl rfl)
    | false =>
      by_cases hp : w.command.id ∈ d.channel.pending
      · exact iff_of_false (hs.not_isolates hw hf hp) (by simp [hp])
      · exact iff_of_true (h.isolates_of_notMem_pending hw hf hp) (Or.inr hp)
  refine ⟨fun fault => ?_, fun p fault hrefuses => ?_, fun fault hf hp d' steps hopen => ?_⟩
  · rw [hiff, Channel.failsCommand_eq_true_iff]
  · rw [hiff, p.failsCommand_iff hrefuses]
  · rw [← Channel.failsCommand_eq_true_iff, Bool.not_eq_true] at hf
    have hfailed : (d.failWrite w fault).Faithful :=
      (h.next (.endWrite (some fault) hw hb)).faithful
    rcases ((hs.stalled_failWrite hw hf hp).steps hfailed steps).2 with hclosed | hstalled
    · rw [hopen] at hclosed
      cases hclosed
    · exact hstalled

/-- The pipe breaks under the first command: the second is written. -/
theorem isolates_broken_pipe : ∃ d w, Reachable (fun _ => True) "(gdb)" d ∧
    w ∈ d.channel.writers ∧ d.channel.pending = [0, 1] ∧
    (d.failWrite w ⟨.brokenPipe, "broken pipe"⟩).channel.pending = [1] ∧
    d.Isolates (d.failWrite w ⟨.brokenPipe, "broken pipe"⟩) w.command
      ⟨.brokenPipe, "broken pipe"⟩ := by
  have h : Reachable (fun _ => True) "(gdb)" (start "(gdb)") := .start
  have h := h.next (.submit (c := ⟨0, "run"⟩) (by decide) rfl)
  have h := h.next (.submit (c := ⟨1, "where"⟩) (by decide) rfl)
  have h := h.next (.beginWrite (w := ⟨0, ⟨0, "run"⟩, false⟩) 1.0 (by decide) rfl)
  exact ⟨_, ⟨0, ⟨0, "run"⟩, true⟩, h, by decide, rfl, rfl,
    ((isolates_failWrite_iff h (by decide) rfl).1 _).2 (Or.inl (Or.inl rfl))⟩

/-- The encoding of the process cannot express the first command: nobody is told, and the second is
not written. -/
theorem inexpressible_text_stalls : ∃ d w fault, Reachable (fun _ => True) "(gdb)" d ∧
    w ∈ d.channel.writers ∧ w.command = ⟨0, "print é"⟩ ∧
    (ProcessHandle.create .ascii true [.stdout] none).writeBytes
      (w.command.text ++ Channel.lineEnd) = .error fault ∧
    (d.failWrite w fault).channel.outcome 0 = .waiting ∧
    (d.failWrite w fault).channel.pending = [0, 1] ∧
    (d.failWrite w fault).channel.writers = [] ∧
    ¬d.Isolates (d.failWrite w fault) w.command fault := by
  have h : Reachable (fun _ => True) "(gdb)" (start "(gdb)") := .start
  have h := h.next (.submit (c := ⟨0, "print é"⟩) (by decide) rfl)
  have h := h.next (.submit (c := ⟨1, "where"⟩) (by decide) rfl)
  have h := h.next (.beginWrite (w := ⟨0, ⟨0, "print é"⟩, false⟩) 1.0 (by decide) rfl)
  refine ⟨_, ⟨0, ⟨0, "print é"⟩, true⟩, ⟨.encoding, _⟩, h, by decide, rfl, rfl, rfl, rfl, rfl, ?_⟩
  exact h.faithful.not_isolates (by decide) rfl (by decide)

end Chronicle

end DebugConsole
