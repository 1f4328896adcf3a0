import DebugConsole.Proofs.Channel.Operations
import Mathlib.Data.List.Basic

set_option autoImplicit false

/-!
# The books of a channel

A channel keeps its numbers in five places: what is pending, whose ticket each pending number is,
what is in flight, what waits, and the writes that have not ended.  `Channel.Consistent` says how
they fit together when no number is used twice, and every operation keeps it, whatever the process
does and in whatever order.
-/

namespace DebugConsole.Channel

/-- The books of a channel fit together, where `numbers` lists what was reserved: the place of each
number is its ticket. -/
structure Consistent (ch : Channel) (numbers : List CommandId) : Prop where
  tickets : ch.outcomes.length = numbers.length
  distinct : numbers.Nodup
  /-- exactly what is pending has a ticket that can be settled -/
  keys : ch.registered.map Prod.fst = ch.pending
  owner : ∀ e ∈ ch.registered, numbers[e.2]? = some e.1
  unique : ch.pending.Nodup
  /-- what is in flight and what waits is pending, in this order -/
  line : ch.line.Sublist ch.pending
  idle : ch.inFlight = none → ch.backlog = []
  shut : ch.isClosed = true → ch.pending = []
  serials : (ch.writers.map Writer.serial).Nodup
  earlier : ∀ w ∈ ch.writers, w.serial < ch.writes
  writing : ∀ w ∈ ch.writers, w.command.id ∈ numbers
  /-- no command is written twice -/
  once : (ch.writers.map (·.command.id) ++ ch.backlog.map Command.id).Nodup

namespace Consistent

variable {ch ch' : Channel} {numbers : List CommandId} {id : CommandId}

/-! ## What it says -/

/-- A pending number has a ticket of its own. -/
theorem exists_ticket (h : ch.Consistent numbers) (hid : id ∈ ch.pending) :
    ∃ t, ch.registered.lookup id = some t ∧ numbers[t]? = some id := by
  rw [← h.keys] at hid
  obtain ⟨t, ht⟩ := exists_lookup hid
  exact ⟨t, ht, h.owner _ (mem_of_lookup ht)⟩

theorem lookup_of_mem_pending {t : Ticket} (h : ch.Consistent numbers) (hid : id ∈ ch.pending)
    (ht : numbers[t]? = some id) : ch.registered.lookup id = some t := by
  obtain ⟨u, hticket, hu⟩ := h.exists_ticket hid
  have htu : t = u := (List.getElem?_inj (List.getElem?_eq_some_iff.1 ht).1 h.distinct).1
    (ht.trans hu.symm)
  rw [htu, hticket]

theorem mem_of_mem_pending (h : ch.Consistent numbers) (hid : id ∈ ch.pending) : id ∈ numbers := by
  obtain ⟨t, -, ht⟩ := h.exists_ticket hid
  exact List.mem_of_getElem? ht

theorem notMem_registered (h : ch.Consistent numbers) (hid : id ∉ numbers) :
    id ∉ ch.registered.map Prod.fst := by
  rw [h.keys]
  exact fun hp => hid (h.mem_of_mem_pending hp)

theorem mem_pending_of_inFlight (h : ch.Consistent numbers) (hid : ch.inFlight = some id) :
    id ∈ ch.pending :=
  h.line.subset (by simp [Channel.line, hid])

theorem mem_pending_of_mem_backlog (h : ch.Consistent numbers)
    (hid : id ∈ ch.backlog.map Command.id) : id ∈ ch.pending :=
  h.line.subset (List.mem_append_right _ hid)

theorem isClosed_of_inFlight (h : ch.Consistent numbers) (hid : ch.inFlight = some id) :
    ch.isClosed = false := by
  cases hc : ch.isClosed with
  | false => rfl
  | true => simpa [h.shut hc] using h.mem_pending_of_inFlight hid

theorem notMem_backlog_of_inFlight (h : ch.Consistent numbers) (hid : ch.inFlight = some id) :
    id ∉ ch.backlog.map Command.id := by
  have hnodup := h.line.nodup h.unique
  rw [Channel.line, hid] at hnodup
  exact (List.nodup_cons.1 hnodup).1

/-- The oldest pending number does not wait: what is in flight stands before all that waits. -/
theorem notMem_backlog_of_pending_cons {rest : List CommandId} (h : ch.Consistent numbers)
    (hp : ch.pending = id :: rest) : id ∉ ch.backlog.map Command.id := by
  intro hid
  cases hf : ch.inFlight with
  | none => simp [h.idle hf] at hid
  | some a =>
    have hline := h.line
    have hunique := h.unique
    rw [Channel.line, hf, hp] at hline
    rw [hp] at hunique
    by_cases ha : a = id
    · exact h.notMem_backlog_of_inFlight (ha ▸ hf) hid
    · -- something else leads the line, so all of it stands behind `id`
      have hrest : (a :: ch.backlog.map Command.id).Sublist rest := by
        rcases List.sublist_cons_iff.1 hline with hrest | ⟨r, heq, -⟩
        · exact hrest
        · exact absurd (List.cons.inj heq).1 ha
      exact (List.nodup_cons.1 hunique).1 (hrest.subset (List.mem_cons_of_mem _ hid))

/-- A command whose write has not ended does not wait. -/
theorem notMem_backlog_of_mem_writers {w : Writer} (h : ch.Consistent numbers)
    (hw : w ∈ ch.writers) : w.command.id ∉ ch.backlog.map Command.id := by
  intro hid
  exact (List.nodup_append.1 h.once).2.2 _ (List.mem_map_of_mem hw) _ hid rfl

theorem find?_serial {w : Writer} (h : ch.Consistent numbers) (hw : w ∈ ch.writers) :
    (ch.writers.find? fun v => v.serial == w.serial) = some w := by
  cases hf : ch.writers.find? fun v => v.serial == w.serial with
  | none =>
    rw [List.find?_eq_none] at hf
    simpa using hf w hw
  | some v =>
    have hserial : v.serial = w.serial := by simpa using List.find?_some hf
    rw [List.inj_on_of_nodup_map h.serials (List.mem_of_find?_eq_some hf) hw hserial]

/-- When a write ends, either nothing else happens, or its own command fails. -/
theorem endWrite_cases {w : Writer} (h : ch.Consistent numbers) (hw : w ∈ ch.writers)
    (fault : Option Fault) :
    ch.endWrite w.serial fault = ch.without w.serial ∨
      ∃ f, fault = some f ∧ ch.endWrite w.serial fault =
        (ch.without w.serial).retire w.command.id (.failed (.unwritten f.message)) := by
  rcases ch.endWrite_cases w.serial fault with heq | ⟨v, hv, hserial, hfails⟩
  · exact Or.inl heq
  · rw [List.inj_on_of_nodup_map h.serials hv hw hserial] at hfails
    exact Or.inr hfails

/-- A write that has not begun is found by its serial. -/
theorem find?_unbegun {w : Writer} (h : ch.Consistent numbers) (hw : w ∈ ch.writers)
    (hb : w.hasBegun = false) :
    (ch.writers.find? fun v => v.serial == w.serial && !v.hasBegun) = some w := by
  cases hf : ch.writers.find? fun v => v.serial == w.serial && !v.hasBegun with
  | none =>
    rw [List.find?_eq_none] at hf
    simpa [hb] using hf w hw
  | some v =>
    have hserial := List.find?_some hf
    simp only [Bool.and_eq_true, beq_iff_eq] at hserial
    rw [List.inj_on_of_nodup_map h.serials (List.mem_of_find?_eq_some hf) hw hserial.1]

theorem mem_writers_beginWrite {w : Writer} (h : ch.Consistent numbers)
    (hw : w ∈ ch.writers) (hb : w.hasBegun = false) (now : Float) :
    { w with hasBegun := true } ∈ (ch.beginWrite w.serial now).writers := by
  rw [beginWrite_of_find? now (h.find?_unbegun hw hb)]
  refine List.mem_map.2 ⟨w, hw, ?_⟩
  simp [Writer.marked]

/-! ## Every operation keeps it -/

theorem create (prompt : String) : (Channel.create prompt).Consistent [] := by
  constructor <;> simp [Channel.create, Channel.line]

theorem withOutcomes {outcomes : List Outcome} (h : ch.Consistent numbers)
    (hlen : outcomes.length = ch.outcomes.length) :
    { ch with outcomes }.Consistent numbers :=
  { h with tickets := hlen.trans h.tickets }

theorem cancel (h : ch.Consistent numbers) (t : Ticket) : (ch.cancel t).Consistent numbers := by
  rw [Channel.cancel, settle_eq]
  exact h.withOutcomes (by simp)

theorem reserving (h : ch.Consistent numbers) (hc : ch.isClosed = false) (hid : id ∉ numbers) :
    (ch.reserving id).Consistent (numbers ++ [id]) := by
  have hpending : id ∉ ch.pending := fun hp => hid (h.mem_of_mem_pending hp)
  have hregistered : assign ch.registered id ch.outcomes.length =
      ch.registered ++ [(id, ch.outcomes.length)] :=
    assign_of_notMem _ (h.notMem_registered hid)
  refine { h with
    tickets := by simp [Channel.reserving, h.tickets]
    distinct := nodup_append_singleton h.distinct hid
    keys := by simp [Channel.reserving, hregistered, h.keys]
    owner := ?_
    unique := nodup_append_singleton h.unique hpending
    line := h.line.trans (List.sublist_append_left _ _)
    shut := by simp [Channel.reserving, hc]
    writing := fun w hw => List.mem_append_left _ (h.writing w hw) }
  intro e he
  simp only [Channel.reserving, hregistered, List.mem_append, List.mem_singleton] at he
  rcases he with he | rfl
  · have ht := h.owner e he
    rwa [List.getElem?_append_left (List.getElem?_eq_some_iff.1 ht).1]
  · simp [h.tickets]

theorem startWrite {c : Command} (rest : List Command) (h : ch.Consistent numbers)
    (hc : ch.isClosed = false) (hpending : (c.id :: rest.map Command.id).Sublist ch.pending)
    (honce : (ch.writers.map (·.command.id) ++ c.id :: rest.map Command.id).Nodup) :
    ({ ch with backlog := rest }.startWrite c).Consistent numbers := by
  refine { h with
    line := hpending
    idle := by simp [Channel.startWrite]
    shut := by simp [Channel.startWrite, hc]
    serials := ?_
    earlier := ?_
    writing := ?_
    once := by simpa [Channel.startWrite] using honce }
  · have hnew : ch.writes ∉ ch.writers.map Writer.serial := by
      intro hs
      obtain ⟨w, hw, heq⟩ := List.mem_map.1 hs
      exact absurd (h.earlier w hw) (by omega)
    simp only [Channel.startWrite, List.map_append, List.map_cons, List.map_nil]
    exact nodup_append_singleton h.serials hnew
  · intro w hw
    simp only [Channel.startWrite, List.mem_append, List.mem_singleton] at hw ⊢
    rcases hw with hw | rfl
    · have := h.earlier w hw
      omega
    · simp
  · intro w hw
    simp only [Channel.startWrite, List.mem_append, List.mem_singleton] at hw
    rcases hw with hw | rfl
    · exact h.writing w hw
    · exact h.mem_of_mem_pending (hpending.subset (by simp))

theorem submit {c : Command} {t : Ticket} (h : ch.Consistent numbers) (hid : c.id ∉ numbers)
    (hs : ch.submit c = .ok (t, ch')) : ch'.Consistent (numbers ++ [c.id]) := by
  obtain ⟨hc, -, rfl⟩ := submit_eq_ok_iff.1 hs
  have hr := h.reserving hc hid
  have hwriters : c.id ∉ ch.writers.map (·.command.id) := by
    intro hw
    obtain ⟨w, hw, heq⟩ := List.mem_map.1 hw
    exact hid (heq ▸ h.writing w hw)
  have hbacklog : c.id ∉ ch.backlog.map Command.id := fun hb =>
    hid (h.mem_of_mem_pending (h.mem_pending_of_mem_backlog hb))
  split
  · rename_i hf
    refine { hr with line := ?_, idle := ?_, once := ?_ }
    · simpa [Channel.reserving, Channel.line] using h.line.append_right [c.id]
    · intro hn
      simp [Channel.reserving] at hn
      simp [hn] at hf
    · have honce := h.once
      simp only [Channel.reserving, List.map_append, List.map_cons, List.map_nil]
      rw [← List.append_assoc]
      exact nodup_append_singleton honce (by simp [hwriters, hbacklog])
  · rename_i hf
    have hn : ch.inFlight = none := by simpa using hf
    have hstart := hr.startWrite (c := c) [] hc (by simp [Channel.reserving]) (by
      have honce := h.once
      rw [h.idle hn, List.map_nil, List.append_nil] at honce
      exact nodup_append_singleton honce hwriters)
    simpa only [Channel.reserving, h.idle hn] using hstart

theorem signal {name : String} {now : Float} {t : Ticket} (h : ch.Consistent numbers)
    (hid : id ∉ numbers) (hs : ch.signal id name now none = (.submitted t, ch')) :
    ch'.Consistent (numbers ++ [id]) := by
  obtain ⟨hc, -, rfl⟩ := signal_none_eq_submitted_iff.1 hs
  exact { h.reserving hc hid with }

theorem signalFailed {name : String} {now : Float} {t : Ticket} {fault : Fault}
    (h : ch.Consistent numbers) (hid : id ∉ numbers)
    (hs : ch.signal id name now (some fault) = (.submitted t, ch')) :
    ch'.Consistent (numbers ++ [id]) := by
  obtain ⟨-, hc, -, rfl⟩ := signal_some_eq_submitted_iff.1 hs
  have hr := h.reserving hc hid
  have hpending : id ∉ ch.pending := fun hp => hid (h.mem_of_mem_pending hp)
  -- the place is given back, so what is pending is as before
  have hback : (ch.pending ++ [id]).erase id = ch.pending := by
    simp [List.erase_append_right, hpending]
  exact { hr with
    tickets := by simp [h.tickets]
    keys := by
      simp only [forget, Channel.reserving, keys_unassign]
      rw [hback, ← h.keys]
      have hkey : id ∉ ch.registered.map Prod.fst := by rwa [h.keys]
      rw [assign_of_notMem _ hkey]
      simp only [List.map_append, List.map_cons, List.map_nil, List.filter_append]
      rw [List.filter_eq_self.2 (by grind)]
      simp
    owner := fun e he => hr.owner e (mem_unassign.1 he).1
    unique := by simpa [forget, Channel.reserving, hback] using h.unique
    line := by simpa [forget, Channel.reserving, Channel.line, hback] using h.line
    shut := by simp [forget, Channel.reserving, hc] }

/-- A signal with a new number is submitted, whatever the process answers. -/
theorem signalled (h : ch.Consistent numbers) (hc : ch.isClosed = false) (hid : id ∉ numbers)
    (name : String) (now : Float) (fault : Option Fault) :
    (ch.signal id name now fault).2.Consistent (numbers ++ [id]) := by
  rcases signal_cases hc id name now fault with heq | ⟨t, f, rfl, heq⟩
  · rw [heq]
    exact { h.reserving hc hid with }
  · exact h.signalFailed hid heq

theorem retire (h : ch.Consistent numbers) (hid : id ∉ ch.backlog.map Command.id) (o : Outcome) :
    (ch.retire id o).Consistent numbers := by
  have hkeys : (unassign ch.registered id).map Prod.fst = ch.pending.erase id := by
    rw [keys_unassign, h.keys, h.unique.erase_eq_filter]
    rfl
  have howner : ∀ e ∈ unassign ch.registered id, numbers[e.2]? = some e.1 := fun e he =>
    h.owner e (mem_unassign.1 he).1
  have htickets : (ch.outcomesAfter id o).length = numbers.length := by simp [h.tickets]
  have hunique : (ch.pending.erase id).Nodup := h.unique.erase id
  have hline := h.line.erase id
  by_cases hf : ch.inFlight = some id
  · have hc := h.isClosed_of_inFlight hf
    have hwaiting : (ch.backlog.map Command.id).Sublist (ch.pending.erase id) := by
      simpa [Channel.line, hf] using hline
    -- the flight is over and nothing waits, for the moment
    have hover : Consistent { ch.forget id with
        outcomes := ch.outcomesAfter id o, backlog := [], inFlight := none } numbers :=
      { h with
        tickets := htickets
        keys := hkeys
        owner := howner
        unique := hunique
        line := by simp [Channel.line]
        idle := fun _ => rfl
        shut := by simp [forget, hc]
        once := by simpa [forget] using (List.nodup_append.1 h.once).1 }
    cases hb : ch.backlog with
    | nil =>
      rw [retire_of_backlog_nil o hf hb]
      simpa only [forget, hb] using hover
    | cons c rest =>
      rw [retire_of_backlog_cons o hc hf hb]
      have honce := h.once
      rw [hb, List.map_cons] at hwaiting honce
      exact hover.startWrite rest hc hwaiting honce
  · rw [retire_of_not_inFlight o hf]
    have hnotMem : id ∉ ch.line := by
      simp only [Channel.line, List.mem_append, Option.mem_toList, not_or]
      exact ⟨hf, hid⟩
    exact { h with
      tickets := htickets
      keys := hkeys
      owner := howner
      unique := hunique
      line := by rwa [List.erase_of_not_mem hnotMem] at hline
      shut := fun hc => by simp [forget, h.shut hc] }

theorem emit (h : ch.Consistent numbers) (lines : List String) (now : Float) :
    (ch.emit lines now).Consistent numbers := by
  cases hp : ch.pending with
  | nil =>
    rw [emit_of_pending_nil lines now hp]
    exact { h with }
  | cons id rest =>
    rw [emit_of_pending_cons lines now hp]
    exact h.retire (h.notMem_backlog_of_pending_cons hp) _

theorem beginWrite (h : ch.Consistent numbers) (serial : Nat) (now : Float) :
    (ch.beginWrite serial now).Consistent numbers := by
  cases hw : ch.writers.find? fun v => v.serial == serial && !v.hasBegun with
  | none => rwa [beginWrite_of_find?_eq_none now hw]
  | some w =>
    rw [beginWrite_of_find? now hw]
    exact { h with
      serials := by simpa [Function.comp_def] using h.serials
      earlier := by simpa using h.earlier
      writing := by simpa using h.writing
      once := by simpa [Function.comp_def] using h.once }

theorem without (h : ch.Consistent numbers) (serial : Nat) :
    (ch.without serial).Consistent numbers :=
  { h with
    serials := (h.serials.sublist (List.filter_sublist.map _))
    earlier := fun w hw => h.earlier w (List.mem_of_mem_filter hw)
    writing := fun w hw => h.writing w (List.mem_of_mem_filter hw)
    once := h.once.sublist ((List.filter_sublist.map _).append_right _) }

/-- No other write is about the command of a write that is over. -/
theorem ne_of_mem_without {v w : Writer} (h : ch.Consistent numbers) (hw : w ∈ ch.writers)
    (hv : v ∈ (ch.without w.serial).writers) : v.command.id ≠ w.command.id := by
  intro heq
  obtain ⟨hv, hserial⟩ := mem_writers_without.1 hv
  have hnodup := (List.nodup_append.1 h.once).1
  exact hserial (congrArg Writer.serial (List.inj_on_of_nodup_map hnodup hv hw heq))

theorem endWrite (h : ch.Consistent numbers) (serial : Nat) (fault : Option Fault) :
    (ch.endWrite serial fault).Consistent numbers := by
  rcases ch.endWrite_cases serial fault with heq | ⟨w, hw, -, f, -, heq⟩
  · rw [heq]
    exact h.without serial
  · rw [heq]
    exact (h.without serial).retire (h.notMem_backlog_of_mem_writers hw) _

theorem close (h : ch.Consistent numbers) (fault : ChannelFault) :
    (ch.close fault).Consistent numbers := by
  have hlen : ∀ (entries : List (CommandId × Ticket)) (outcomes : List Outcome),
      (entries.foldl (fun os e => Outcome.settled os e.2 (.failed fault)) outcomes).length =
        outcomes.length := by
    intro entries
    induction entries with
    | nil => intro outcomes; rfl
    | cons e entries ih => intro outcomes; rw [List.foldl_cons, ih, Outcome.length_settled]
  rw [close_eq]
  exact { h with
    tickets := (hlen _ _).trans h.tickets
    keys := rfl
    owner := by simp
    unique := List.nodup_nil
    line := List.Sublist.refl _
    idle := fun _ => rfl
    shut := fun _ => rfl
    once := by simpa using (List.nodup_append.1 h.once).1 }

end Consistent

/-! ## Waiting -/

section Waiting

variable {ch : Channel} {numbers : List CommandId}

/-- Whoever submitted a number still waits for its answer. -/
def Waits (ch : Channel) (id : CommandId) : Prop :=
  ∃ t, ch.registered.lookup id = some t ∧ ch.outcomes[t]? = some .waiting

theorem Waits.retire {a b : CommandId} (h : ch.Waits b) (hc : ch.Consistent numbers) (hne : b ≠ a)
    (o : Outcome) : (ch.retire a o).Waits b := by
  obtain ⟨t, hticket, hwaiting⟩ := h
  refine ⟨t, ?_, ?_⟩
  · rw [registered_retire, lookup_unassign_of_ne hne]
    exact hticket
  · rw [outcomes_retire, outcomesAfter]
    cases hl : ch.registered.lookup a with
    | none => exact hwaiting
    | some u =>
      -- the ticket of the other number is not this one's
      have htu : t ≠ u := by
        rintro rfl
        have ha := hc.owner _ (mem_of_lookup hl)
        have hb := hc.owner _ (mem_of_lookup hticket)
        rw [ha] at hb
        exact hne (Option.some.inj hb).symm
      rw [Outcome.settled_getElem?_of_ne o htu]
      exact hwaiting

/-- Whoever has just submitted a number waits. -/
theorem Consistent.waits_reserving {id : CommandId} (h : ch.Consistent numbers)
    (hnew : id ∉ numbers) : (ch.reserving id).Waits id :=
  ⟨ch.outcomes.length, lookup_assign_of_notMem _ (h.notMem_registered hnew),
    by simp [Channel.reserving]⟩

theorem Waits.submit {c : Command} {ch' : Channel} {t : Ticket} {id : CommandId} (h : ch.Waits id)
    (hc : ch.Consistent numbers) (hnew : c.id ∉ numbers) (hs : ch.submit c = .ok (t, ch')) :
    ch'.Waits id := by
  obtain ⟨u, hticket, hwaiting⟩ := h
  have hkeys := hc.notMem_registered hnew
  have hlookup : (assign ch.registered c.id ch.outcomes.length).lookup id = some u := by
    rw [assign_of_notMem _ hkeys, List.lookup_append, hticket]
    rfl
  have houtcome : (ch.outcomes ++ [.waiting])[u]? = some .waiting := by
    rw [List.getElem?_append_left (List.getElem?_eq_some_iff.1 hwaiting).1]
    exact hwaiting
  obtain ⟨-, -, rfl⟩ := submit_eq_ok_iff.1 hs
  split <;> exact ⟨u, hlookup, houtcome⟩

theorem Waits.beginWrite {id : CommandId} (h : ch.Waits id) (serial : Nat) (now : Float) :
    (ch.beginWrite serial now).Waits id := by
  unfold Channel.beginWrite
  split <;> exact h

/-- The next frame settles the ticket of whoever has waited longest. -/
theorem outcome_emit {id : CommandId} {rest : List CommandId} {t : Ticket}
    (hp : ch.pending = id :: rest) (hticket : ch.registered.lookup id = some t)
    (hwaiting : ch.outcomes[t]? = some .waiting) (lines : List String) (now : Float) :
    (ch.emit lines now).outcome t = .answered (ch.reply id lines now) := by
  rw [emit_of_pending_cons _ _ hp, outcome_eq_answered_iff, outcomes_retire, outcomesAfter, hticket]
  dsimp only
  rw [Outcome.settled_of_waiting _ hwaiting]
  exact List.getElem?_set_self (List.getElem?_eq_some_iff.1 hwaiting).1

/-- The next frame answers whoever has waited longest. -/
theorem Waits.answered {id : CommandId} {rest : List CommandId} (h : ch.Waits id)
    (hp : ch.pending = id :: rest) (lines : List String) (now : Float) :
    ∃ t, (ch.emit lines now).outcome t = .answered (ch.reply id lines now) := by
  obtain ⟨t, hticket, hwaiting⟩ := h
  exact ⟨t, outcome_emit hp hticket hwaiting lines now⟩

end Waiting

end DebugConsole.Channel
