import DebugConsole.Proofs.Channel.Delivery

set_option autoImplicit false

/-!
# Commands that nobody waits for any more

A command may be over before its text is handed to the process: its ticket is settled, or its submitter has
given up.  A command that is settled while it waits behind another one is never handed over
(`Reachable.gone`).  Giving up is different: the place in the line stays, so that later frames still find
their commands.  What becomes of the tickets has no influence on what the channel does (`Step.follows`), and
so everything goes on as if nobody had given up.

`Lasts` is what a relation between outcomes must bear for two channels to go on side by side; equal outcomes
but for those given up (`Kept`) bear it, and so does having as many of them.  What follows for every run is
`givesUpQuietly_of_reachable`.
-/

namespace DebugConsole

/-! ## Outcomes that differ -/

namespace Outcome

/-- What the tickets would show if nobody had given up: the same, but for those given up. -/
structure Kept (outcomes kept : List Outcome) : Prop where
  length : outcomes.length = kept.length
  patient : ∀ t : Ticket, kept[t]? ≠ some .cancelled
  agree : ∀ t : Ticket, outcomes[t]? = kept[t]? ∨ outcomes[t]? = some .cancelled

/-- A relation between outcomes that lasts: whatever is submitted, settled or given up, the other
side can follow. -/
structure Lasts (R : List Outcome → List Outcome → Prop) : Prop where
  length : ∀ {as bs}, R as bs → as.length = bs.length
  append : ∀ {as bs}, R as bs → R (as ++ [.waiting]) (bs ++ [.waiting])
  settled : ∀ {as bs} t {o}, o ≠ .cancelled → R as bs → R (settled as t o) (settled bs t o)
  cancelled : ∀ {as bs} t, R as bs →
    R (Outcome.settled as t .cancelled) bs ∨
      R (Outcome.settled as t .cancelled) (Outcome.settled bs t .cancelled)

/-- Answers and faults give nobody up. -/
theorem settled_ne_cancelled {outcomes : List Outcome} {o : Outcome} (t : Ticket)
    (ho : o ≠ .cancelled) (h : ∀ u : Ticket, outcomes[u]? ≠ some .cancelled) (u : Ticket) :
    (settled outcomes t o)[u]? ≠ some .cancelled := by
  intro hu
  rcases of_settled_getElem? hu with hold | ⟨-, -, heq⟩
  · exact h u hold
  · exact ho heq.symm

/-- A ticket that waits on both sides shows the same on both sides once it is settled. -/
theorem Kept.settled {outcomes kept : List Outcome} {o : Outcome} (t : Ticket)
    (ho : o ≠ .cancelled) (h : Kept outcomes kept) :
    Kept (settled outcomes t o) (settled kept t o) where
  length := by rw [length_settled, length_settled, h.length]
  patient := settled_ne_cancelled t ho h.patient
  agree := by
    intro u
    by_cases hu : u = t
    · subst hu
      rcases h.agree u with hsame | hcancelled
      · left
        by_cases hwaiting : outcomes[u]? = some .waiting
        · rw [settled_of_waiting o hwaiting, settled_of_waiting o (hsame ▸ hwaiting)]
          have hlt := (List.getElem?_eq_some_iff.1 hwaiting).1
          rw [List.getElem?_set_self hlt, List.getElem?_set_self (h.length ▸ hlt)]
        · rw [settled_of_not_waiting o hwaiting, settled_of_not_waiting o (hsame ▸ hwaiting)]
          exact hsame
      · right
        rwa [settled_of_not_waiting o (by simp [hcancelled])]
    · rw [settled_getElem?_of_ne o hu, settled_getElem?_of_ne o hu]
      exact h.agree u

/-- Whoever gives up leaves what would have become of the ticket as it is. -/
theorem Kept.cancelled {outcomes kept : List Outcome} (t : Ticket) (h : Kept outcomes kept) :
    Kept (Outcome.settled outcomes t .cancelled) kept where
  length := by rw [length_settled, h.length]
  patient := h.patient
  agree := by
    intro u
    by_cases hu : u = t
    · subst hu
      by_cases hwaiting : outcomes[u]? = some .waiting
      · right
        rw [settled_of_waiting _ hwaiting]
        exact List.getElem?_set_self (List.getElem?_eq_some_iff.1 hwaiting).1
      · rw [settled_of_not_waiting _ hwaiting]
        exact h.agree u
    · rw [settled_getElem?_of_ne _ hu]
      exact h.agree u

theorem Kept.append {outcomes kept : List Outcome} (h : Kept outcomes kept) :
    Kept (outcomes ++ [.waiting]) (kept ++ [.waiting]) where
  length := by simp [h.length]
  patient := by
    intro t ht
    have := h.patient t
    grind
  agree := by
    intro t
    have := h.length
    have := h.agree t
    grind

theorem lasts_kept : Lasts Kept where
  length := Kept.length
  append := Kept.append
  settled := fun t _ ho h => h.settled t ho
  cancelled := fun t h => Or.inl (h.cancelled t)

/-- As many tickets on both sides: they may show anything. -/
theorem lasts_length : Lasts fun as bs => as.length = bs.length where
  length := id
  append := by
    intro as bs h
    simp [h]
  settled := by
    intro as bs t o _ h
    simp [h]
  cancelled := by
    intro as bs t h
    simp [h]

theorem Lasts.foldl_settled {R : List Outcome → List Outcome → Prop} {as bs : List Outcome}
    {o : Outcome} (hR : Lasts R) (ho : o ≠ .cancelled) (entries : List (CommandId × Ticket))
    (h : R as bs) :
    R (entries.foldl (fun os e => Outcome.settled os e.2 o) as)
      (entries.foldl (fun os e => Outcome.settled os e.2 o) bs) := by
  induction entries generalizing as bs with
  | nil => exact h
  | cons e entries ih => exact ih (hR.settled e.2 ho h)

end Outcome

/-! ## The tickets have no influence -/

namespace Channel

open Outcome

variable {R : List Outcome → List Outcome → Prop} {ch : Channel} {outcomes : List Outcome}

/-- A channel whose tickets show something else. -/
def withOutcomes (ch : Channel) (outcomes : List Outcome) : Channel := { ch with outcomes }

@[simp] theorem outcomes_withOutcomes (ch : Channel) (outcomes : List Outcome) :
    (ch.withOutcomes outcomes).outcomes = outcomes := rfl

/-- What becomes of a channel, and of the same channel with other tickets: again the same but for the
tickets. -/
def Follows (R : List Outcome → List Outcome → Prop) (after after' : Channel) : Prop :=
  ∃ outcomes, after' = after.withOutcomes outcomes ∧ R after.outcomes outcomes

theorem Follows.retire {id : CommandId} {o : Outcome} (hR : Lasts R) (ho : o ≠ .cancelled)
    (h : R ch.outcomes outcomes) :
    Follows R (ch.retire id o) ((ch.withOutcomes outcomes).retire id o) := by
  refine ⟨(ch.withOutcomes outcomes).outcomesAfter id o, ?_, ?_⟩
  · unfold Channel.retire flushNext startWrite forget withOutcomes
    grind
  · rw [outcomes_retire]
    unfold outcomesAfter
    simp only [withOutcomes]
    split
    · exact hR.settled _ ho h
    · exact h

theorem reserving_withOutcomes (h : ch.outcomes.length = outcomes.length) (id : CommandId) :
    (ch.withOutcomes outcomes).reserving id =
      (ch.reserving id).withOutcomes (outcomes ++ [.waiting]) := by
  simp only [reserving, withOutcomes, h]

theorem Follows.submit {ch' : Channel} {c : Command} {t : Ticket} (hR : Lasts R)
    (h : R ch.outcomes outcomes) (hs : ch.submit c = .ok (t, ch')) :
    ∃ ch₂, (ch.withOutcomes outcomes).submit c = .ok (t, ch₂) ∧ Follows R ch' ch₂ := by
  obtain ⟨hopen, ht, rfl⟩ := submit_eq_ok_iff.1 hs
  refine ⟨_, submit_eq_ok_iff.2 ⟨hopen, ht.trans (hR.length h), rfl⟩, outcomes ++ [.waiting],
    ?_, ?_⟩
  · rw [reserving_withOutcomes (hR.length h)]
    have hflight : (ch.withOutcomes outcomes).inFlight = ch.inFlight := rfl
    rw [hflight]
    split <;> rfl
  · split <;> exact hR.append h

theorem Follows.signal (hR : Lasts R) (h : R ch.outcomes outcomes) (hc : ch.isClosed = false)
    (id : CommandId) (name : String) (now : Float) (fault : Option Fault) :
    Follows R (ch.signal id name now fault).2
      ((ch.withOutcomes outcomes).signal id name now fault).2 := by
  have hlen := hR.length h
  have hc' : (ch.withOutcomes outcomes).isClosed = false := hc
  have hkeeps : Follows R { ch.reserving id with startedAt := assign ch.startedAt id now }
      { (ch.withOutcomes outcomes).reserving id with startedAt := assign ch.startedAt id now } :=
    ⟨outcomes ++ [Outcome.waiting], by rw [reserving_withOutcomes hlen]; rfl, hR.append h⟩
  cases fault with
  | none =>
    rw [signal_none_eq_submitted_iff.2 ⟨hc, rfl, rfl⟩,
      signal_none_eq_submitted_iff.2 ⟨hc', rfl, rfl⟩]
    exact hkeeps
  | some f =>
    by_cases hf : failsSignal f = true
    · rw [signal_some_eq_submitted_iff.2 ⟨hf, hc, rfl, rfl⟩,
        signal_some_eq_submitted_iff.2 ⟨hf, hc', rfl, rfl⟩,
        reserving_withOutcomes hlen]
      refine ⟨_, rfl, ?_⟩
      rw [outcomes_withOutcomes, ← hlen]
      exact hR.settled _ nofun (hR.append h)
    · have hsignal : ∀ ch : Channel, ch.isClosed = false → (ch.signal id name now (some f)).2 =
          { ch.reserving id with startedAt := assign ch.startedAt id now } := by
        intro ch hc
        simp [Channel.signal, reserve, reserving, hc, hf]
      rw [hsignal ch hc, hsignal _ hc']
      exact hkeeps

theorem Follows.beginWrite (h : R ch.outcomes outcomes) (serial : Nat) (now : Float) :
    Follows R (ch.beginWrite serial now) ((ch.withOutcomes outcomes).beginWrite serial now) := by
  refine ⟨outcomes, ?_, ?_⟩
  · unfold Channel.beginWrite withOutcomes
    dsimp only
    split <;> rfl
  · unfold Channel.beginWrite
    split <;> exact h

theorem Follows.endWrite (hR : Lasts R) (h : R ch.outcomes outcomes) (serial : Nat)
    (fault : Option Fault) :
    Follows R (ch.endWrite serial fault)
      ((ch.withOutcomes outcomes).endWrite serial fault) := by
  have hended : Follows R (ch.without serial) ((ch.withOutcomes outcomes).without serial) :=
    ⟨outcomes, rfl, h⟩
  cases hw : ch.writers.find? fun w => w.serial == serial with
  | none =>
    unfold Channel.endWrite
    rw [hw, show (ch.withOutcomes outcomes).writers = ch.writers from rfl, hw]
    exact ⟨outcomes, rfl, h⟩
  | some w =>
    have hw' : ((ch.withOutcomes outcomes).writers.find? fun w => w.serial == serial) = some w := hw
    have h' : R (ch.without serial).outcomes outcomes := h
    rw [endWrite_of_find? fault hw, endWrite_of_find? fault hw']
    split
    · split
      · exact .retire hR (fun heq => by cases heq) h'
      · exact hended
    · exact hended

theorem Follows.emit (hR : Lasts R) (h : R ch.outcomes outcomes) (lines : List String)
    (now : Float) :
    Follows R (ch.emit lines now) ((ch.withOutcomes outcomes).emit lines now) := by
  cases hp : ch.pending with
  | nil =>
    have hp' : (ch.withOutcomes outcomes).pending = [] := hp
    rw [emit_of_pending_nil lines now hp, emit_of_pending_nil lines now hp']
    exact ⟨outcomes, rfl, h⟩
  | cons id rest =>
    have hp' : (ch.withOutcomes outcomes).pending = id :: rest := hp
    rw [emit_of_pending_cons lines now hp, emit_of_pending_cons lines now hp']
    exact .retire hR (fun heq => by cases heq) h

theorem Follows.close (hR : Lasts R) (h : R ch.outcomes outcomes) (fault : ChannelFault) :
    Follows R (ch.close fault) ((ch.withOutcomes outcomes).close fault) := by
  rw [close_eq, close_eq]
  exact ⟨_, rfl, hR.foldl_settled (fun heq => by cases heq) _ h⟩

theorem Follows.endOutput (hR : Lasts R) (h : R ch.outcomes outcomes) :
    Follows R ch.endOutput (ch.withOutcomes outcomes).endOutput := by
  have hempty : R ({ ch with buffer := .empty } : Channel).outcomes outcomes := h
  obtain ⟨outcomes', heq, hlasts⟩ := Follows.close hR hempty .exited
  exact ⟨outcomes', congrArg (fun ch => { ch with reader := .ended }) heq, hlasts⟩

theorem Follows.failOutput (hR : Lasts R) (h : R ch.outcomes outcomes) (cause : String) :
    Follows R (ch.failOutput cause) ((ch.withOutcomes outcomes).failOutput cause) := by
  obtain ⟨outcomes', heq, hlasts⟩ := Follows.close hR h (.unreadable cause)
  exact ⟨outcomes', congrArg (fun ch => { ch with reader := .ended }) heq, hlasts⟩

/-- A write that was not there before a frame is that of a command that waited. -/
theorem mem_writers_emit {lines : List String} {now : Float} {w : Writer}
    (h : w ∈ (ch.emit lines now).writers) : w ∈ ch.writers ∨ w.command ∈ ch.backlog := by
  cases hp : ch.pending with
  | nil =>
    rw [emit_of_pending_nil lines now hp] at h
    exact Or.inl h
  | cons id rest =>
    rw [emit_of_pending_cons lines now hp] at h
    exact (mem_writers_retire h).imp_right And.left

/-- A write that was not there before the end of another is that of a command that waited. -/
theorem mem_writers_endWrite {serial : Nat} {fault : Option Fault} {w : Writer}
    (h : w ∈ (ch.endWrite serial fault).writers) : w ∈ ch.writers ∨ w.command ∈ ch.backlog := by
  rcases ch.endWrite_cases serial fault with heq | ⟨v, -, -, f, -, heq⟩
  · rw [heq] at h
    exact Or.inl (mem_writers_without.1 h).1
  · rw [heq] at h
    rcases mem_writers_retire h with hold | ⟨hwaits, -⟩
    · exact Or.inl (mem_writers_without.1 hold).1
    · exact Or.inr hwaits

end Channel

namespace Chronicle

open Happening Outcome

variable {mayPrint : Chronicle → Prop} {prompt : String} {d d' : Chronicle}
  {R : List Outcome → List Outcome → Prop} {outcomes : List Outcome}

/-- A chronicle whose tickets show something else. -/
def withOutcomes (d : Chronicle) (outcomes : List Outcome) : Chronicle :=
  { d with channel := d.channel.withOutcomes outcomes }

theorem follows_of_step {ch ch' : Channel} {submitted : List CommandId} {history : List Happening}
    (s : Step (fun _ => True) (d.withOutcomes outcomes) ⟨ch', submitted, history⟩)
    (h : Channel.Follows R ch ch') :
    ∃ outcomes', Relation.ReflTransGen (Step fun _ => True) (d.withOutcomes outcomes)
      (Chronicle.withOutcomes ⟨ch, submitted, history⟩ outcomes') ∧ R ch.outcomes outcomes' := by
  obtain ⟨outcomes', rfl, hlasts⟩ := h
  exact ⟨outcomes', .single s, hlasts⟩

/-- Whatever happens next happens also if the tickets show something else. -/
theorem Step.follows (hR : Lasts R) (s : Step (fun _ => True) d d')
    (h : R d.channel.outcomes outcomes) :
    ∃ outcomes', Relation.ReflTransGen (Step fun _ => True) (d.withOutcomes outcomes)
      (d'.withOutcomes outcomes') ∧ R d'.channel.outcomes outcomes' := by
  cases s with
  | submit new submits =>
    obtain ⟨ch, hsubmits, hfollows⟩ := Channel.Follows.submit hR h submits
    exact follows_of_step (.submit new hsubmits) hfollows
  | signal name now fault isOpen new =>
    exact follows_of_step (.signal name now fault isOpen new) (.signal hR h isOpen _ name now fault)
  | cancel t =>
    rw [Channel.cancel, Channel.settle_eq]
    rcases hR.cancelled t h with hsame | hboth
    · exact ⟨outcomes, .refl, hsame⟩
    · refine follows_of_step (.cancel t) ⟨settled outcomes t .cancelled, ?_, hboth⟩
      rw [Channel.cancel, Channel.settle_eq]
      rfl
  | beginWrite now writing unbegun =>
    exact follows_of_step (.beginWrite now writing unbegun) (.beginWrite h _ now)
  | endWrite fault writing begun =>
    exact follows_of_step (.endWrite fault writing begun) (.endWrite hR h _ fault)
  | buffer b => exact follows_of_step (.buffer b) ⟨outcomes, rfl, h⟩
  | emit lines now may => exact follows_of_step (.emit lines now may) (.emit hR h lines now)
  | close fault => exact follows_of_step (.close fault) (.close hR h fault)
  | endOutput => exact follows_of_step .endOutput (.endOutput hR h)
  | failOutput cause => exact follows_of_step (.failOutput cause) (.failOutput hR h cause)

/-- Whatever happens later happens also if the tickets show something else. -/
theorem follows_of_steps (hR : Lasts R) (h : R d.channel.outcomes outcomes)
    (steps : Relation.ReflTransGen (Step fun _ => True) d d') :
    ∃ outcomes', Relation.ReflTransGen (Step fun _ => True) (d.withOutcomes outcomes)
      (d'.withOutcomes outcomes') ∧ R d'.channel.outcomes outcomes' := by
  induction steps with
  | refl => exact ⟨outcomes, .refl, h⟩
  | tail _ s ih =>
    obtain ⟨before, hsteps, hbefore⟩ := ih
    obtain ⟨after, hnext, hafter⟩ := s.follows hR hbefore
    exact ⟨after, hsteps.trans hnext, hafter⟩

/-! ## Never to be handed over -/

/-- The text of a number has not been handed over, no write of it is under way, and it does not
wait. -/
structure Gone (d : Chronicle) (id : CommandId) : Prop where
  known : id ∈ d.submitted
  unhanded : id ∉ handedIds d.history
  unwritten : ∀ w ∈ d.channel.writers, w.command.id ≠ id
  absent : ∀ c ∈ d.channel.backlog, c.id ≠ id

/-- A write that was not there before is that of a new command or of one that waited. -/
theorem Step.mem_writers {w : Writer} (s : Step mayPrint d d') (hw : w ∈ d'.channel.writers) :
    (∃ v ∈ d.channel.writers, v.command = w.command) ∨ w.command ∈ d.channel.backlog ∨
      w.command.id ∉ d.submitted := by
  have hold : w ∈ d.channel.writers → ∃ v ∈ d.channel.writers, v.command = w.command :=
    fun hw => ⟨w, hw, rfl⟩
  cases s with
  | submit new submits =>
    obtain ⟨-, -, rfl⟩ := Channel.submit_eq_ok_iff.1 submits
    split at hw
    · exact Or.inl (hold hw)
    · rcases List.mem_append.1 hw with hw | hw
      · exact Or.inl (hold hw)
      · rw [List.mem_singleton.1 hw]
        exact Or.inr (Or.inr new)
  | @signal id name now fault isOpen new =>
    rw [(Channel.flight_signal isOpen id name now fault).2.2.2] at hw
    exact Or.inl (hold hw)
  | cancel t =>
    rw [Channel.cancel, Channel.settle_eq] at hw
    exact Or.inl (hold hw)
  | beginWrite now writing unbegun =>
    unfold Channel.beginWrite at hw
    split at hw
    · exact Or.inl (hold hw)
    · obtain ⟨v, hv, rfl⟩ := List.mem_map.1 hw
      exact Or.inl ⟨v, hv, by split <;> rfl⟩
  | endWrite fault writing begun =>
    exact (Channel.mem_writers_endWrite hw).imp hold Or.inl
  | buffer b => exact Or.inl (hold hw)
  | emit lines now may => exact (Channel.mem_writers_emit hw).imp hold Or.inl
  | close fault => exact Or.inl (hold (by rwa [Channel.close_eq] at hw))
  | endOutput => exact Or.inl (hold (by rwa [Channel.endOutput, Channel.close_eq] at hw))
  | failOutput cause => exact Or.inl (hold (by rwa [Channel.failOutput, Channel.close_eq] at hw))

/-- Only the text of a write that is under way is handed over. -/
theorem Step.handedIds (s : Step mayPrint d d') :
    handedIds d'.history = handedIds d.history ∨
      ∃ w ∈ d.channel.writers,
        handedIds d'.history = handedIds d.history ++ [w.command.id] := by
  cases s with
  | submit new submits => exact Or.inl (by simp)
  | signal name now fault isOpen new => exact Or.inl (by simp)
  | @beginWrite w now writing unbegun => exact Or.inr ⟨w, writing, by simp⟩
  | emit lines now may => exact Or.inl (by simp)
  | _ => exact Or.inl rfl

theorem Gone.step {id : CommandId} (h : d.Gone id) (s : Step mayPrint d d') : d'.Gone id := by
  obtain ⟨hsubmitted, hbacklog⟩ := s.submitted_and_backlog
  refine ⟨hsubmitted h.known, ?_, ?_, ?_⟩
  · rcases s.handedIds with heq | ⟨w, hw, heq⟩
    · rw [heq]
      exact h.unhanded
    · rw [heq, List.mem_append, List.mem_singleton, not_or]
      exact ⟨h.unhanded, fun hid => h.unwritten w hw hid.symm⟩
  · rintro w hw rfl
    rcases s.mem_writers hw with ⟨v, hv, heq⟩ | hwaits | hnew
    · exact h.unwritten v hv (by rw [heq])
    · exact h.absent _ hwaits rfl
    · exact hnew h.known
  · rintro c hc rfl
    rcases hbacklog c hc with hold | hnew
    · exact h.absent c hold rfl
    · exact hnew h.known

theorem Gone.steps {id : CommandId} (h : d.Gone id)
    (steps : Relation.ReflTransGen (Step mayPrint) d d') : d'.Gone id := by
  induction steps with
  | refl => exact h
  | tail _ s ih => exact ih.step s

/-- A command is gone once it is settled while no write of it is under way, unless its submitter has
given up. -/
theorem Reachable.gone {t : Ticket} {id : CommandId} (h : Reachable mayPrint prompt d)
    (hid : d.submitted[t]? = some id) (hdone : (d.channel.outcome t).isDone = true)
    (hkept : d.channel.outcome t ≠ .cancelled) (hunhanded : id ∉ handedIds d.history)
    (hunwritten : ∀ w ∈ d.channel.writers, w.command.id ≠ id) : d.Gone id := by
  have hpending : id ∉ d.channel.pending := by
    rw [← h.waiting_iff hid hkept]
    exact isDone_iff_ne_waiting.1 hdone
  refine ⟨List.mem_of_getElem? hid, hunhanded, hunwritten, ?_⟩
  rintro c hc rfl
  exact hpending (h.faithful.consistent.mem_pending_of_mem_backlog (List.mem_map_of_mem hc))

/-! ## In every run -/

/-- How commands end that are over before their text is handed over. -/
structure GivesUpQuietly (prompt : String) (d : Chronicle) : Prop where
  /-- a command that is settled while no write of it is under way is never handed over, unless its
  submitter has given up -/
  completed : ∀ t id, d.submitted[t]? = some id → (d.channel.outcome t).isDone = true →
    d.channel.outcome t ≠ .cancelled → id ∉ handedIds d.history →
    (∀ w ∈ d.channel.writers, w.command.id ≠ id) →
    ∀ d', Relation.ReflTransGen (Step fun _ => True) d d' → id ∉ handedIds d'.history
  /-- all that has happened can happen when nobody gives up, and then everybody else is told the
  same -/
  kept : ∃ outcomes, Reachable (fun _ => True) prompt (d.withOutcomes outcomes) ∧
    Kept d.channel.outcomes outcomes
  /-- whoever gives up now prevents nothing of what can happen later -/
  unhindered : ∀ t d', Relation.ReflTransGen (Step fun _ => True) d d' →
    ∃ outcomes, Relation.ReflTransGen (Step fun _ => True)
      { d with channel := d.channel.cancel t } (d'.withOutcomes outcomes)

/-- In every run a command that is settled while it waits is never handed over, and whoever gives up
changes nothing: neither what is handed over, nor when, nor what the others are told. -/
theorem givesUpQuietly_of_reachable (h : Reachable (fun _ => True) prompt d) :
    d.GivesUpQuietly prompt where
  completed := fun t id hid hdone hkept hunhanded hunwritten d' steps =>
    ((h.gone hid hdone hkept hunhanded hunwritten).steps steps).unhanded
  kept := by
    have hstart : Kept (start prompt).channel.outcomes [] :=
      ⟨rfl, by simp, fun _ => Or.inl rfl⟩
    exact follows_of_steps lasts_kept hstart h
  unhindered := by
    intro t d' steps
    have hlength : d.channel.outcomes.length =
        (settled d.channel.outcomes t .cancelled).length := by
      rw [length_settled]
    obtain ⟨outcomes, hsteps, -⟩ := follows_of_steps lasts_length hlength steps
    refine ⟨outcomes, ?_⟩
    rw [Channel.cancel, Channel.settle_eq]
    exact hsteps

/-- A command that waits behind another is given up and, when the other has been answered, handed
over all the same. -/
theorem given_up_yet_handed : ∃ d d', Reachable (fun _ => True) "(gdb)" d ∧
    Relation.ReflTransGen (Step fun _ => True) d d' ∧ d.submitted = [0, 1] ∧
    commandIds d.history = [0, 1] ∧ d.channel.outcome 1 = .cancelled ∧
    handedIds d.history = [0] ∧ handedIds d'.history = [0, 1] := by
  have h : Reachable (fun _ => True) "(gdb)" (start "(gdb)") := .start
  have h := h.next (.submit (c := ⟨0, "next"⟩) (by decide) rfl)
  have h := h.next (.submit (c := ⟨1, "continue"⟩) (by decide) rfl)
  have h := h.next (.beginWrite (w := ⟨0, ⟨0, "next"⟩, false⟩) 1.0 (by decide) rfl)
  have h := h.next (.cancel 1)
  refine ⟨_, _, h, .tail (.single (.emit ["stopped"] 2.0 trivial))
    (.beginWrite (w := ⟨1, ⟨1, "continue"⟩, false⟩) 3.0 (by decide) rfl), rfl, rfl, rfl, rfl, rfl⟩

/-- One command has been written and given up, one waits and is given up, and closing settles a
third. -/
theorem givesUpQuietly_after_close : ∃ d, Reachable (fun _ => True) "(gdb)" d ∧
    d.submitted = [0, 1, 2] ∧ handedIds d.history = [0] ∧ d.channel.outcome 0 = .cancelled ∧
    d.channel.outcome 1 = .cancelled ∧ d.channel.outcome 2 = .failed .killed ∧
    d.GivesUpQuietly "(gdb)" := by
  have h : Reachable (fun _ => True) "(gdb)" (start "(gdb)") := .start
  have h := h.next (.submit (c := ⟨0, "next"⟩) (by decide) rfl)
  have h := h.next (.submit (c := ⟨1, "continue"⟩) (by decide) rfl)
  have h := h.next (.submit (c := ⟨2, "where"⟩) (by decide) rfl)
  have h := h.next (.beginWrite (w := ⟨0, ⟨0, "next"⟩, false⟩) 1.0 (by decide) rfl)
  have h := h.next (.cancel 0)
  have h := h.next (.cancel 1)
  have h := h.next (.close .killed)
  exact ⟨_, h, rfl, rfl, rfl, rfl, rfl, givesUpQuietly_of_reachable h⟩

end Chronicle

end DebugConsole
