import DebugConsole.Channel.Submission
import Mathlib.Data.List.Nodup

set_option autoImplicit false

/-!
# What the operations of a channel do

Each operation of a channel as one equation.  Settling changes the outcomes alone (`settle_eq`).  A
frame for the oldest number and a failed write end in the same way: what becomes of the number is
decided, and if it was in flight the next command takes the flight up.  That is `retire`; the
invariants of a channel are proved about `retire`, once for both.
-/

namespace DebugConsole

/-! ## Entries -/

theorem nodup_append_singleton {α : Type} {l : List α} {a : α} (h : l.Nodup) (ha : a ∉ l) :
    (l ++ [a]).Nodup := by
  simpa using h.concat ha

section Entries

variable {α β : Type} [BEq α]

theorem keys_unassign (entries : List (α × β)) (key : α) :
    (unassign entries key).map Prod.fst = (entries.map Prod.fst).filter fun k => !(k == key) := by
  simp [unassign, List.filter_map, Function.comp_def]

variable [LawfulBEq α]

theorem assign_of_notMem {entries : List (α × β)} {key : α} (value : β)
    (h : key ∉ entries.map Prod.fst) : assign entries key value = entries ++ [(key, value)] := by
  have hnone : (entries.any fun e => e.1 == key) = false := by
    rw [List.any_eq_false]
    intro e he hkey
    exact h (List.mem_map.2 ⟨e, he, by simpa using hkey⟩)
  simp [assign, hnone]

theorem lookup_assign_of_notMem {entries : List (α × β)} {key : α} (value : β)
    (h : key ∉ entries.map Prod.fst) : (assign entries key value).lookup key = some value := by
  have hnone : entries.lookup key = none := by
    rw [List.lookup_eq_none_iff]
    intro e he
    refine bne_iff_ne.2 fun heq => h ?_
    rw [heq]
    exact List.mem_map_of_mem he
  rw [assign_of_notMem value h, List.lookup_append, hnone]
  simp

theorem mem_unassign {entries : List (α × β)} {key : α} {e : α × β} :
    e ∈ unassign entries key ↔ e ∈ entries ∧ e.1 ≠ key := by
  simp [unassign]

theorem mem_of_lookup {entries : List (α × β)} {key : α} {value : β}
    (h : entries.lookup key = some value) : (key, value) ∈ entries := by
  obtain ⟨before, after, rfl, -⟩ := List.lookup_eq_some_iff.1 h
  simp

theorem exists_lookup {entries : List (α × β)} {key : α} (h : key ∈ entries.map Prod.fst) :
    ∃ value, entries.lookup key = some value := by
  cases hl : entries.lookup key with
  | some value => exact ⟨value, rfl⟩
  | none =>
    rw [List.lookup_eq_none_iff] at hl
    obtain ⟨e, he, rfl⟩ := List.mem_map.1 h
    simpa using hl e he

theorem lookup_unassign_of_ne {entries : List (α × β)}
    {a b : α} (hne : b ≠ a) : (unassign entries a).lookup b = entries.lookup b := by
  induction entries with
  | nil => rfl
  | cons e entries ih =>
    obtain ⟨key, value⟩ := e
    unfold unassign at ih ⊢
    by_cases hkey : key = a
    · subst hkey
      simpa [List.lookup_cons, beq_false_of_ne hne] using ih
    · simp [List.lookup_cons, hkey, ih]

end Entries

/-! ## Writers -/

namespace Writer

/-- A write once the text of the write with a serial has been handed to the process. -/
def marked (serial : Nat) (w : Writer) : Writer :=
  if w.serial == serial then { w with hasBegun := true } else w

@[simp] theorem serial_marked (serial : Nat) (w : Writer) :
    (w.marked serial).serial = w.serial := by
  unfold marked
  split <;> rfl

@[simp] theorem command_marked (serial : Nat) (w : Writer) :
    (w.marked serial).command = w.command := by
  unfold marked
  split <;> rfl

end Writer

/-! ## Outcomes -/

namespace Outcome

/-- Outcomes once a ticket is settled: what is settled already stays. -/
def settled (outcomes : List Outcome) (t : Ticket) (o : Outcome) : List Outcome :=
  match outcomes[t]? with
  | some .waiting => outcomes.set t o
  | _ => outcomes

theorem settled_of_waiting {outcomes : List Outcome} {t : Ticket} (o : Outcome)
    (h : outcomes[t]? = some .waiting) : settled outcomes t o = outcomes.set t o := by
  simp [settled, h]

theorem settled_of_not_waiting {outcomes : List Outcome} {t : Ticket} (o : Outcome)
    (h : outcomes[t]? ≠ some .waiting) : settled outcomes t o = outcomes := by
  unfold settled
  split
  · exact absurd ‹_› h
  · rfl

@[simp] theorem length_settled (outcomes : List Outcome) (t : Ticket) (o : Outcome) :
    (settled outcomes t o).length = outcomes.length := by
  unfold settled
  split <;> simp

theorem settled_getElem?_of_ne {outcomes : List Outcome} {t u : Ticket} (o : Outcome) (h : u ≠ t) :
    (settled outcomes t o)[u]? = outcomes[u]? := by
  unfold settled
  split
  · simp [Ne.symm h]
  · rfl

/-- What a ticket shows after settling was there before, or is what it was settled with. -/
theorem of_settled_getElem? {outcomes : List Outcome} {t u : Ticket} {o r : Outcome}
    (h : (settled outcomes t o)[u]? = some r) :
    outcomes[u]? = some r ∨ (u = t ∧ outcomes[t]? = some .waiting ∧ r = o) := by
  by_cases hu : u = t
  · subst hu
    by_cases hw : outcomes[u]? = some .waiting
    · right
      rw [settled_of_waiting o hw] at h
      have hlt : u < outcomes.length := (List.getElem?_eq_some_iff.1 hw).1
      rw [List.getElem?_set_self hlt] at h
      exact ⟨rfl, hw, (Option.some.inj h).symm⟩
    · left
      rwa [settled_of_not_waiting o hw] at h
  · left
    rwa [settled_getElem?_of_ne o hu] at h

end Outcome

namespace Channel

theorem outcome_eq_answered_iff {ch : Channel} {t : Ticket} {f : Frame} :
    ch.outcome t = .answered f ↔ ch.outcomes[t]? = some (.answered f) := by
  unfold outcome
  rw [List.getD_eq_getElem?_getD]
  cases h : ch.outcomes[t]? <;> simp

theorem outcome_eq_waiting_iff {ch : Channel} {t : Ticket} :
    ch.outcome t = .waiting ↔ ch.outcomes[t]? = some .waiting := by
  unfold outcome
  rw [List.getD_eq_getElem?_getD]
  cases h : ch.outcomes[t]? <;> simp

/-- Settling a ticket changes the outcomes alone. -/
theorem settle_eq (ch : Channel) (t : Ticket) (o : Outcome) :
    ch.settle t o = { ch with outcomes := Outcome.settled ch.outcomes t o } := by
  unfold settle Outcome.settled
  split <;> simp_all

/-- What is in flight and what waits behind it. -/
def line (ch : Channel) : List CommandId := ch.inFlight.toList ++ ch.backlog.map Command.id

/-! ## Deciding what becomes of a number -/

/-- The outcomes once what becomes of a number is decided. -/
def outcomesAfter (ch : Channel) (id : CommandId) (o : Outcome) : List Outcome :=
  match ch.registered.lookup id with
  | some t => Outcome.settled ch.outcomes t o
  | none => ch.outcomes

/-- What becomes of a number is decided: nothing is owed to it any more, and if it was in flight
the next command takes the flight up. -/
def retire (ch : Channel) (id : CommandId) (o : Outcome) : Channel :=
  let ch := { ch.forget id with outcomes := ch.outcomesAfter id o }
  if ch.inFlight == some id then ch.flushNext else ch

@[simp] theorem length_outcomesAfter (ch : Channel) (id : CommandId) (o : Outcome) :
    (ch.outcomesAfter id o).length = ch.outcomes.length := by
  unfold outcomesAfter
  split <;> simp

/-- A number that is not in flight retires without a change to the flight. -/
theorem retire_of_not_inFlight {ch : Channel} {id : CommandId} (o : Outcome)
    (h : ch.inFlight ≠ some id) :
    ch.retire id o = { ch.forget id with outcomes := ch.outcomesAfter id o } := by
  simp [retire, forget, h]

/-- The number in flight retires and nothing waits: nothing is in flight any more. -/
theorem retire_of_backlog_nil {ch : Channel} {id : CommandId} (o : Outcome)
    (h : ch.inFlight = some id) (hb : ch.backlog = []) :
    ch.retire id o =
      { ch.forget id with outcomes := ch.outcomesAfter id o, inFlight := none } := by
  simp [retire, forget, flushNext, h, hb]

/-- The number in flight retires and the next command takes the flight up. -/
theorem retire_of_backlog_cons {ch : Channel} {id : CommandId} {c : Command} {rest : List Command}
    (o : Outcome) (hc : ch.isClosed = false) (h : ch.inFlight = some id)
    (hb : ch.backlog = c :: rest) :
    ch.retire id o =
      { ch.forget id with
        outcomes := ch.outcomesAfter id o
        backlog := rest
        inFlight := some c.id
        writers := ch.writers ++ [⟨ch.writes, c, false⟩]
        writes := ch.writes + 1 } := by
  simp [retire, forget, flushNext, startWrite, h, hb, hc]

theorem line_retire_of_not_inFlight {ch : Channel} {id : CommandId} (o : Outcome)
    (h : ch.inFlight ≠ some id) : (ch.retire id o).line = ch.line := by
  rw [retire_of_not_inFlight o h]
  rfl

/-- The number in flight leaves the line to what waits. -/
theorem line_retire_of_inFlight {ch : Channel} {id : CommandId} (o : Outcome)
    (hc : ch.isClosed = false) (h : ch.inFlight = some id) :
    (ch.retire id o).line = ch.backlog.map Command.id := by
  cases hb : ch.backlog with
  | nil =>
    rw [retire_of_backlog_nil o h hb]
    simp [line, forget, hb]
  | cons c rest =>
    rw [retire_of_backlog_cons o hc h hb]
    simp [line]

@[simp] theorem pending_retire {ch : Channel} (id : CommandId) (o : Outcome) :
    (ch.retire id o).pending = ch.pending.erase id := by
  unfold retire flushNext startWrite forget
  grind

@[simp] theorem registered_retire {ch : Channel} (id : CommandId) (o : Outcome) :
    (ch.retire id o).registered = unassign ch.registered id := by
  unfold retire flushNext startWrite forget
  grind

@[simp] theorem startedAt_retire {ch : Channel} (id : CommandId) (o : Outcome) :
    (ch.retire id o).startedAt = unassign ch.startedAt id := by
  unfold retire flushNext startWrite forget
  grind

@[simp] theorem outcomes_retire {ch : Channel} (id : CommandId) (o : Outcome) :
    (ch.retire id o).outcomes = ch.outcomesAfter id o := by
  unfold retire flushNext startWrite forget
  grind

@[simp] theorem isClosed_retire {ch : Channel} (id : CommandId) (o : Outcome) :
    (ch.retire id o).isClosed = ch.isClosed := by
  unfold retire flushNext startWrite forget
  grind

@[simp] theorem unsolicited_retire {ch : Channel} (id : CommandId) (o : Outcome) :
    (ch.retire id o).unsolicited = ch.unsolicited := by
  unfold retire flushNext startWrite forget
  grind

@[simp] theorem buffer_retire {ch : Channel} (id : CommandId) (o : Outcome) :
    (ch.retire id o).buffer = ch.buffer := by
  unfold retire flushNext startWrite forget
  grind

@[simp] theorem prompt_retire {ch : Channel} (id : CommandId) (o : Outcome) :
    (ch.retire id o).prompt = ch.prompt := by
  unfold retire flushNext startWrite forget
  grind

/-- Leaving out what retires, the line stays as it is. -/
theorem filter_line_retire {ch : Channel} {id : CommandId} {p : CommandId → Bool} (o : Outcome)
    (hc : ch.isClosed = false) (hid : p id = false) :
    (ch.retire id o).line.filter p = ch.line.filter p := by
  by_cases hf : ch.inFlight = some id
  · rw [line_retire_of_inFlight o hc hf, line, hf]
    simp [hid]
  · rw [line_retire_of_not_inFlight o hf]

theorem inFlight_retire_of_not_inFlight {ch : Channel} {id : CommandId} (o : Outcome)
    (h : ch.inFlight ≠ some id) : (ch.retire id o).inFlight = ch.inFlight := by
  rw [retire_of_not_inFlight o h]
  rfl

theorem backlog_retire_subset (ch : Channel) (id : CommandId) (o : Outcome) :
    (ch.retire id o).backlog ⊆ ch.backlog := by
  intro c hc
  unfold retire flushNext startWrite forget at hc
  grind

theorem writers_retire_of_not_inFlight {ch : Channel} {id : CommandId} (o : Outcome)
    (h : ch.inFlight ≠ some id) : (ch.retire id o).writers = ch.writers := by
  rw [retire_of_not_inFlight o h]
  rfl

/-- A write that was not there before is that of a command that waited and is in flight now. -/
theorem mem_writers_retire {ch : Channel} {id : CommandId} {o : Outcome} {w : Writer}
    (h : w ∈ (ch.retire id o).writers) :
    w ∈ ch.writers ∨
      (w.command ∈ ch.backlog ∧ (ch.retire id o).inFlight = some w.command.id) := by
  unfold retire flushNext startWrite forget at h ⊢
  grind

theorem writers_retire_prefix (ch : Channel) (id : CommandId) (o : Outcome) :
    ch.writers <+: (ch.retire id o).writers := by
  unfold retire flushNext startWrite forget
  grind

/-- Whatever takes the flight up is written by a write that has not begun. -/
theorem exists_writer_of_inFlight_retire {ch : Channel} {id a : CommandId} {o : Outcome}
    (hc : ch.isClosed = false) (h : ch.inFlight = some id)
    (ha : (ch.retire id o).inFlight = some a) :
    ∃ w ∈ (ch.retire id o).writers, w.command.id = a ∧ w.hasBegun = false := by
  cases hb : ch.backlog with
  | nil =>
    rw [retire_of_backlog_nil o h hb] at ha
    cases ha
  | cons c rest =>
    rw [retire_of_backlog_cons o hc h hb] at ha ⊢
    refine ⟨⟨ch.writes, c, false⟩, by simp, Option.some.inj ha, rfl⟩

/-! ## Frames and failed writes -/

/-- A frame that answers nothing waits to be taken. -/
theorem emit_of_pending_nil {ch : Channel} (lines : List String) (now : Float)
    (h : ch.pending = []) :
    ch.emit lines now =
      { ch with unsolicited := ch.unsolicited ++ [⟨lines, Frame.unsolicited, none⟩] } := by
  simp [emit, h]

/-- The frame that answers a number: with the time since its text was written, if it was. -/
def reply (ch : Channel) (id : CommandId) (lines : List String) (now : Float) : Frame :=
  ⟨lines, id, (ch.startedAt.lookup id).map fun t => now - t⟩

@[simp] theorem id_reply (ch : Channel) (id : CommandId) (lines : List String) (now : Float) :
    (ch.reply id lines now).id = id := rfl

/-- A frame answers the oldest number. -/
theorem emit_of_pending_cons {ch : Channel} {id : CommandId} {rest : List CommandId}
    (lines : List String) (now : Float) (h : ch.pending = id :: rest) :
    ch.emit lines now = ch.retire id (.answered (ch.reply id lines now)) := by
  have hrest : ch.pending.erase id = rest := by rw [h, List.erase_cons_head]
  unfold emit retire outcomesAfter
  simp only [h]
  cases hl : ch.registered.lookup id with
  | none => simp [forget, hrest]
  | some t => simp [forget, hrest, settle_eq, reply]

/-- A failed write settles its command. -/
theorem failWrite_eq (ch : Channel) (c : Command) (fault : Fault) :
    ch.failWrite c fault = ch.retire c.id (.failed (.unwritten fault.message)) := by
  unfold failWrite retire outcomesAfter
  cases ch.registered.lookup c.id with
  | none => simp [forget]
  | some t => simp [forget, settle_eq]

/-- The frame that comes with some lines: for the oldest number, if anything is pending. -/
def nextFrame (ch : Channel) (lines : List String) (now : Float) : Frame :=
  match ch.pending with
  | [] => ⟨lines, Frame.unsolicited, none⟩
  | id :: _ => ch.reply id lines now

theorem nextFrame_of_pending_cons {ch : Channel} {id : CommandId} {rest : List CommandId}
    (lines : List String) (now : Float) (h : ch.pending = id :: rest) :
    ch.nextFrame lines now = ch.reply id lines now := by
  rw [nextFrame, h]

/-- The oldest frame that answers nothing is taken. -/
theorem takeUnsolicited_eq_some_iff {ch ch' : Channel} {f : Frame} :
    ch.takeUnsolicited = some (f, ch') ↔
      ∃ rest, ch.unsolicited = f :: rest ∧ ch' = { ch with unsolicited := rest } := by
  unfold takeUnsolicited
  cases ch.unsolicited <;> grind

/-! ## Submitting and signalling -/

/-- A channel once a place is reserved for a number. -/
def reserving (ch : Channel) (id : CommandId) : Channel :=
  { ch with
    outcomes := ch.outcomes ++ [.waiting]
    registered := assign ch.registered id ch.outcomes.length
    pending := ch.pending ++ [id] }

/-- A command is submitted exactly in an open channel: it takes the flight up or waits. -/
theorem submit_eq_ok_iff {ch ch' : Channel} {c : Command} {t : Ticket} :
    ch.submit c = .ok (t, ch') ↔
      ch.isClosed = false ∧ t = ch.outcomes.length ∧
        ch' = if ch.inFlight.isSome then { ch.reserving c.id with backlog := ch.backlog ++ [c] }
          else (ch.reserving c.id).startWrite c := by
  unfold submit reserve reserving
  cases ch.isClosed
  · cases h : ch.inFlight <;> simp [eq_comm]
  · simp

theorem pending_submit {ch ch' : Channel} {c : Command} {t : Ticket}
    (h : ch.submit c = .ok (t, ch')) : ch'.pending = ch.pending ++ [c.id] := by
  obtain ⟨-, -, rfl⟩ := submit_eq_ok_iff.1 h
  split <;> rfl

theorem line_submit {ch ch' : Channel} {c : Command} {t : Ticket}
    (hidle : ch.inFlight = none → ch.backlog = []) (h : ch.submit c = .ok (t, ch')) :
    ch'.line = ch.line ++ [c.id] := by
  obtain ⟨-, -, rfl⟩ := submit_eq_ok_iff.1 h
  cases hf : ch.inFlight with
  | some a => simp [line, reserving, hf]
  | none => simp [line, reserving, startWrite, hf, hidle hf]

/-- A signal that the process takes reserves a place. -/
theorem signal_none_eq_submitted_iff {ch ch' : Channel} {id : CommandId} {name : String}
    {now : Float} {t : Ticket} :
    ch.signal id name now none = (.submitted t, ch') ↔
      ch.isClosed = false ∧ t = ch.outcomes.length ∧
        ch' = { ch.reserving id with startedAt := assign ch.startedAt id now } := by
  unfold signal reserve reserving
  cases ch.isClosed <;> simp [eq_comm]

/-- A signal that is not delivered gives its place back. -/
theorem signal_some_eq_submitted_iff {ch ch' : Channel} {id : CommandId} {name : String}
    {now : Float} {t : Ticket} {fault : Fault} :
    ch.signal id name now (some fault) = (.submitted t, ch') ↔
      failsSignal fault = true ∧ ch.isClosed = false ∧ t = ch.outcomes.length ∧
        ch' = { { ch.reserving id with startedAt := assign ch.startedAt id now }.forget id with
          outcomes := Outcome.settled (ch.outcomes ++ [.waiting]) ch.outcomes.length
            (.failed (.unwritten (signalMessage name fault))) } := by
  unfold signal reserve reserving forget
  cases ch.isClosed
  · by_cases hf : failsSignal fault = true
    · simp [hf, settle_eq, eq_comm]
    · simp [hf]
  · simp

/-- A signal that is not delivered retires as soon as its place is reserved. -/
theorem signal_some_eq_retire {ch ch' : Channel} {id : CommandId} {name : String} {now : Float}
    {t : Ticket} {fault : Fault} (hid : id ∉ ch.registered.map Prod.fst)
    (hflight : ch.inFlight ≠ some id)
    (h : ch.signal id name now (some fault) = (.submitted t, ch')) :
    ch' = retire { ch.reserving id with startedAt := assign ch.startedAt id now } id
      (.failed (.unwritten (signalMessage name fault))) := by
  have hflight' : inFlight { ch.reserving id with startedAt := assign ch.startedAt id now } ≠
      some id := hflight
  obtain ⟨-, -, -, rfl⟩ := signal_some_eq_submitted_iff.1 h
  rw [retire_of_not_inFlight _ hflight', outcomesAfter]
  simp only [reserving, lookup_assign_of_notMem _ hid]

/-- In an open channel a signal keeps its place, unless it gives the place back because it is not
delivered. -/
theorem signal_cases {ch : Channel} (hc : ch.isClosed = false) (id : CommandId) (name : String)
    (now : Float) (fault : Option Fault) :
    (ch.signal id name now fault).2 =
        { ch.reserving id with startedAt := assign ch.startedAt id now } ∨
      ∃ t f, fault = some f ∧
        ch.signal id name now (some f) = (.submitted t, (ch.signal id name now fault).2) := by
  cases fault with
  | none =>
    left
    rw [signal_none_eq_submitted_iff.2 ⟨hc, rfl, rfl⟩]
  | some f =>
    by_cases hf : failsSignal f = true
    · right
      refine ⟨ch.outcomes.length, f, rfl, Prod.ext ?_ rfl⟩
      simp [signal, reserve, hc, hf]
    · left
      simp [signal, reserve, reserving, hc, hf]

/-- A signal closes nothing and changes neither what is in flight nor what waits nor the writes. -/
theorem flight_signal {ch : Channel} (hc : ch.isClosed = false) (id : CommandId) (name : String)
    (now : Float) (fault : Option Fault) :
    (ch.signal id name now fault).2.isClosed = ch.isClosed ∧
      (ch.signal id name now fault).2.inFlight = ch.inFlight ∧
      (ch.signal id name now fault).2.backlog = ch.backlog ∧
      (ch.signal id name now fault).2.writers = ch.writers := by
  rcases signal_cases hc id name now fault with heq | ⟨t, f, rfl, heq⟩
  · rw [heq]
    exact ⟨rfl, rfl, rfl, rfl⟩
  · obtain ⟨-, -, -, hch⟩ := signal_some_eq_submitted_iff.1 heq
    rw [hch]
    exact ⟨rfl, rfl, rfl, rfl⟩

theorem pending_signal_some {ch ch' : Channel} {id : CommandId} {name : String} {now : Float}
    {t : Ticket} {fault : Fault} (hid : id ∉ ch.pending)
    (h : ch.signal id name now (some fault) = (.submitted t, ch')) : ch'.pending = ch.pending := by
  obtain ⟨-, -, -, rfl⟩ := signal_some_eq_submitted_iff.1 h
  simp [forget, reserving, List.erase_append_right, hid]

/-! ## Writing -/

/-- The text of a write is handed to the process once. -/
theorem beginWrite_of_find? {ch : Channel} {serial : Nat} {w : Writer} (now : Float)
    (h : (ch.writers.find? fun v => v.serial == serial && !v.hasBegun) = some w) :
    ch.beginWrite serial now =
      { ch with
        startedAt := assign ch.startedAt w.command.id now
        writers := ch.writers.map (Writer.marked serial) } := by
  unfold beginWrite
  rw [h]
  rfl

theorem beginWrite_of_find?_eq_none {ch : Channel} {serial : Nat} (now : Float)
    (h : (ch.writers.find? fun v => v.serial == serial && !v.hasBegun) = none) :
    ch.beginWrite serial now = ch := by
  unfold beginWrite
  rw [h]

@[simp] theorem pending_beginWrite (ch : Channel) (serial : Nat) (now : Float) :
    (ch.beginWrite serial now).pending = ch.pending := by
  unfold beginWrite
  split <;> rfl

@[simp] theorem outcome_beginWrite (ch : Channel) (serial : Nat) (now : Float) (t : Ticket) :
    (ch.beginWrite serial now).outcome t = ch.outcome t := by
  unfold beginWrite
  split <;> rfl

/-- A channel without the write with a serial, if nothing else becomes of it. -/
def without (ch : Channel) (serial : Nat) : Channel :=
  { ch with writers := ch.writers.filter fun v => !(v.serial == serial) }

theorem mem_writers_without {ch : Channel} {serial : Nat} {w : Writer} :
    w ∈ (ch.without serial).writers ↔ w ∈ ch.writers ∧ w.serial ≠ serial := by
  simp [without]

/-- How a write ends: if its command fails, that is what becomes of the command. -/
theorem endWrite_of_find? {ch : Channel} {serial : Nat} {w : Writer} (fault : Option Fault)
    (h : (ch.writers.find? fun v => v.serial == serial) = some w) :
    ch.endWrite serial fault =
      match fault with
      | some f =>
        if failsCommand f then
          (ch.without serial).retire w.command.id (.failed (.unwritten f.message))
        else ch.without serial
      | none => ch.without serial := by
  unfold endWrite
  rw [h]
  cases fault with
  | none => rfl
  | some f => simp only [failWrite_eq, without]

/-- When a write ends, either nothing else happens, or its command fails. -/
theorem endWrite_cases (ch : Channel) (serial : Nat) (fault : Option Fault) :
    ch.endWrite serial fault = ch.without serial ∨
      ∃ w ∈ ch.writers, w.serial = serial ∧ ∃ f, fault = some f ∧
        ch.endWrite serial fault =
          (ch.without serial).retire w.command.id (.failed (.unwritten f.message)) := by
  cases hw : ch.writers.find? fun w => w.serial == serial with
  | none =>
    left
    have hnone : (ch.writers.filter fun v => !(v.serial == serial)) = ch.writers :=
      List.filter_eq_self.2 fun v hv => by simpa using List.find?_eq_none.1 hw v hv
    rw [without, hnone, endWrite, hw]
  | some w =>
    rw [endWrite_of_find? fault hw]
    cases fault with
    | none => exact Or.inl rfl
    | some f =>
      dsimp only
      split
      · have hserial : w.serial = serial := by simpa using List.find?_some hw
        exact Or.inr ⟨w, List.mem_of_find?_eq_some hw, hserial, f, rfl, rfl⟩
      · exact Or.inl rfl

@[simp] theorem isClosed_endWrite (ch : Channel) (serial : Nat) (fault : Option Fault) :
    (ch.endWrite serial fault).isClosed = ch.isClosed := by
  rcases ch.endWrite_cases serial fault with heq | ⟨w, -, -, f, -, heq⟩
  · rw [heq]
    rfl
  · rw [heq, isClosed_retire]
    rfl

theorem backlog_endWrite_subset (ch : Channel) (serial : Nat) (fault : Option Fault) :
    (ch.endWrite serial fault).backlog ⊆ ch.backlog := by
  rcases ch.endWrite_cases serial fault with heq | ⟨w, -, -, f, -, heq⟩
  · rw [heq]
    exact List.Subset.refl _
  · rw [heq]
    exact backlog_retire_subset (ch.without serial) _ _

/-! ## Closing -/

/-- Closing settles what waits and empties the channel. -/
theorem close_eq (ch : Channel) (fault : ChannelFault) :
    ch.close fault =
      { ch with
        outcomes := ch.registered.foldl
          (fun os e => Outcome.settled os e.2 (.failed fault)) ch.outcomes
        isClosed := true
        registered := []
        pending := []
        backlog := []
        startedAt := []
        inFlight := none } := by
  have hfold : ∀ (entries : List (CommandId × Ticket)) (ch : Channel),
      entries.foldl (fun ch e => ch.settle e.2 (.failed fault)) ch =
        { ch with
          outcomes := entries.foldl
            (fun os e => Outcome.settled os e.2 (.failed fault)) ch.outcomes } := by
    intro entries
    induction entries with
    | nil => intro ch; rfl
    | cons e entries ih =>
      intro ch
      rw [List.foldl_cons, ih, settle_eq, List.foldl_cons]
  unfold close
  rw [hfold]

/-! ## Answers -/

theorem answered_of_cancel {ch : Channel} {t u : Ticket} {f : Frame}
    (h : (ch.cancel u).outcome t = .answered f) : ch.outcome t = .answered f := by
  rw [outcome_eq_answered_iff] at h ⊢
  rw [cancel, settle_eq] at h
  rcases Outcome.of_settled_getElem? h with h | ⟨-, -, heq⟩
  · exact h
  · cases heq

theorem answered_of_append_waiting {outcomes : List Outcome} {t : Ticket} {f : Frame}
    (h : (outcomes ++ [.waiting])[t]? = some (.answered f)) : outcomes[t]? = some (.answered f) := by
  grind

theorem answered_of_submit {ch ch' : Channel} {c : Command} {t u : Ticket} {f : Frame}
    (hs : ch.submit c = .ok (u, ch')) (h : ch'.outcome t = .answered f) :
    ch.outcome t = .answered f := by
  obtain ⟨-, -, rfl⟩ := submit_eq_ok_iff.1 hs
  rw [outcome_eq_answered_iff] at h ⊢
  split at h <;> exact answered_of_append_waiting h

theorem answered_of_signal_none {ch ch' : Channel} {id : CommandId} {name : String} {now : Float}
    {t u : Ticket} {f : Frame} (hs : ch.signal id name now none = (.submitted u, ch'))
    (h : ch'.outcome t = .answered f) : ch.outcome t = .answered f := by
  obtain ⟨-, -, rfl⟩ := signal_none_eq_submitted_iff.1 hs
  rw [outcome_eq_answered_iff] at h ⊢
  exact answered_of_append_waiting h

theorem answered_of_signal_some {ch ch' : Channel} {id : CommandId} {name : String} {now : Float}
    {t u : Ticket} {fault : Fault} {f : Frame}
    (hs : ch.signal id name now (some fault) = (.submitted u, ch'))
    (h : ch'.outcome t = .answered f) : ch.outcome t = .answered f := by
  obtain ⟨-, -, -, rfl⟩ := signal_some_eq_submitted_iff.1 hs
  rw [outcome_eq_answered_iff] at h ⊢
  rcases Outcome.of_settled_getElem? h with h | ⟨-, -, heq⟩
  · exact answered_of_append_waiting h
  · cases heq

theorem answered_of_signal {ch : Channel} {id : CommandId} {name : String} {now : Float}
    {t : Ticket} {fault : Option Fault} {f : Frame} (hc : ch.isClosed = false)
    (h : (ch.signal id name now fault).2.outcome t = .answered f) : ch.outcome t = .answered f := by
  rcases signal_cases hc id name now fault with heq | ⟨u, g, rfl, heq⟩
  · rw [heq, outcome_eq_answered_iff] at h
    rw [outcome_eq_answered_iff]
    exact answered_of_append_waiting h
  · exact answered_of_signal_some heq h

/-- A ticket is answered as something retires only if it is the ticket of what retires, and waits. -/
theorem answered_of_retire {ch : Channel} {id : CommandId} {o : Outcome} {t : Ticket} {f : Frame}
    (h : (ch.retire id o).outcome t = .answered f) :
    ch.outcome t = .answered f ∨
      (ch.registered.lookup id = some t ∧ ch.outcomes[t]? = some .waiting ∧ o = .answered f) := by
  rw [outcome_eq_answered_iff, outcomes_retire, outcomesAfter] at h
  rw [outcome_eq_answered_iff]
  cases hl : ch.registered.lookup id with
  | none =>
    rw [hl] at h
    exact Or.inl h
  | some u =>
    rw [hl] at h
    rcases Outcome.of_settled_getElem? h with h | ⟨rfl, hwaiting, heq⟩
    · exact Or.inl h
    · exact Or.inr ⟨rfl, hwaiting, heq.symm⟩

theorem answered_of_endWrite {ch : Channel} {serial : Nat} {fault : Option Fault} {t : Ticket}
    {f : Frame} (h : (ch.endWrite serial fault).outcome t = .answered f) :
    ch.outcome t = .answered f := by
  rcases ch.endWrite_cases serial fault with heq | ⟨w, -, -, g, -, heq⟩
  · rw [heq] at h
    exact h
  · rw [heq] at h
    rcases answered_of_retire h with hold | ⟨-, -, hfailed⟩
    · exact hold
    · cases hfailed

theorem answered_of_close {ch : Channel} {fault : ChannelFault} {t : Ticket} {f : Frame}
    (h : (ch.close fault).outcome t = .answered f) : ch.outcome t = .answered f := by
  have hfold : ∀ (entries : List (CommandId × Ticket)) (outcomes : List Outcome),
      (entries.foldl (fun os e => Outcome.settled os e.2 (.failed fault)) outcomes)[t]? =
        some (.answered f) → outcomes[t]? = some (.answered f) := by
    intro entries
    induction entries with
    | nil => exact fun _ h => h
    | cons e entries ih =>
      intro outcomes h
      rcases Outcome.of_settled_getElem? (ih _ h) with h | ⟨-, -, heq⟩
      · exact h
      · cases heq
  rw [outcome_eq_answered_iff, close_eq] at h
  rw [outcome_eq_answered_iff]
  exact hfold _ _ h

end Channel

end DebugConsole
