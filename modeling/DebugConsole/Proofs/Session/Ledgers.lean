import DebugConsole.Proofs.Channel.Completion
import DebugConsole.Proofs.Channel.Quiet
import DebugConsole.Proofs.Session.Lifecycle

set_option autoImplicit false

/-!
# The books of a session's channels

A session numbers its commands and signals without a gap, and every one that a channel takes gets a
ticket of its own.  Whatever callers, debuggers and transports do, in every session that can be reached
the books of each channel fit together: whoever waits is registered, a frame that answers a ticket
carries the ticket's number, and what has become of a ticket stays.
-/

namespace DebugConsole

namespace Channel

open Outcome

variable {ch ch' : Channel} {next : CommandId} {numbers : List CommandId}

/-- The books of a channel that has been given `numbers`, all below the `next` one. -/
structure Booked (next : CommandId) (numbers : List CommandId) (ch : Channel) : Prop where
  consistent : ch.Consistent numbers
  owing : ch.Owing
  earlier : ∀ id ∈ numbers, id < next
  own : ∀ t f, ch.outcome t = .answered f → numbers[t]? = some f.id

namespace Booked

theorem create (prompt : String) : (Channel.create prompt).startReader.Booked next [] where
  consistent := { Consistent.create prompt with }
  owing := { Owing.create prompt with }
  earlier := fun _ hid => absurd hid List.not_mem_nil
  own := fun _ _ hf => nomatch hf

theorem notMem (h : ch.Booked next numbers) : next ∉ numbers :=
  fun hid => Int.lt_irrefl _ (h.earlier next hid)

theorem later (h : ch.Booked next numbers) : ch.Booked (next + 1) numbers :=
  { h with earlier := fun id hid => Int.lt_trans (h.earlier id hid) (Int.lt_succ next) }

/-- Tickets may come to be answered whose number is registered. -/
theorem own_of_registered (h : ch.Booked next numbers)
    (hanswered : ∀ t f, ch'.outcome t = .answered f →
      ch.outcome t = .answered f ∨ (f.id, t) ∈ ch.registered) (t : Ticket) (f : Frame)
    (hf : ch'.outcome t = .answered f) : numbers[t]? = some f.id :=
  (hanswered t f hf).elim (h.own t f) fun hregistered => h.consistent.owner _ hregistered

theorem give (h : ch.Booked next numbers) (hconsistent : ch'.Consistent (numbers ++ [next]))
    (howing : ch'.Owing)
    (hanswered : ∀ t f, ch'.outcome t = .answered f → ch.outcome t = .answered f) :
    ch'.Booked (next + 1) (numbers ++ [next]) where
  consistent := hconsistent
  owing := howing
  earlier := by
    intro id hid
    rcases List.mem_append.1 hid with hid | hid
    · exact h.later.earlier id hid
    · rw [List.mem_singleton.1 hid]
      exact Int.lt_succ next
  own := by
    intro t f hf
    have hnumber := h.own t f (hanswered t f hf)
    rwa [List.getElem?_append_left (List.getElem?_eq_some_iff.1 hnumber).1]

theorem cancel (h : ch.Booked next numbers) (t : Ticket) : (ch.cancel t).Booked next numbers where
  consistent := h.consistent.cancel t
  owing := h.owing.cancel t
  earlier := h.earlier
  own := fun u f hf => h.own u f (answered_of_cancel hf)

theorem close (h : ch.Booked next numbers) (fault : ChannelFault) :
    (ch.close fault).Booked next numbers where
  consistent := h.consistent.close fault
  owing := h.owing.close fault
  earlier := h.earlier
  own := fun t f hf => h.own t f (answered_of_close hf)

theorem feed (h : ch.Booked next numbers) (chunk : String) (now : Float) :
    (ch.feed chunk now).Booked next numbers := by
  have hframes : ∀ (frames : List (List String)) (ch : Channel), ch.Consistent numbers → ch.Owing →
      (ch.emitAll frames now).Consistent numbers ∧ (ch.emitAll frames now).Owing := by
    intro frames
    induction frames with
    | nil => exact fun ch hconsistent howing => ⟨hconsistent, howing⟩
    | cons lines frames ih =>
      exact fun ch hconsistent howing =>
        ih _ (hconsistent.emit lines now) (howing.emit hconsistent lines now)
  have hread : ch.feed chunk now = (ch.takeFrames chunk).2.emitAll _ now := feed_of_frames now rfl
  obtain ⟨hconsistent, howing⟩ := hframes (ch.takeFrames chunk).1 (ch.takeFrames chunk).2
    { h.consistent with } { h.owing with }
  rw [← hread] at hconsistent howing
  exact ⟨hconsistent, howing, h.earlier, h.own_of_registered fun _ _ => answered_of_feed⟩

/-- Whatever a debugger and its transport do, the books fit together. -/
theorem react (h : ch.Booked next numbers) (now : Float) (event : Event) :
    (ch.react now event).Booked next numbers := by
  cases event with
  | writeBegins serial =>
    refine ⟨h.consistent.beginWrite serial now, h.owing.beginWrite serial now, h.earlier, ?_⟩
    have hsame : (ch.beginWrite serial now).outcomes = ch.outcomes := by
      unfold beginWrite
      split <;> rfl
    intro t f hf
    refine h.own t f ?_
    rw [← hf]
    show ch.outcomes.getD t .cancelled = (ch.beginWrite serial now).outcomes.getD t .cancelled
    rw [hsame]
  | writeEnds serial fault =>
    exact ⟨h.consistent.endWrite serial fault, h.owing.endWrite h.consistent serial fault, h.earlier,
      fun t f hf => h.own t f (answered_of_endWrite hf)⟩
  | prints chunk => exact h.feed chunk now
  | outputEnds =>
    have hread : Booked next numbers { ch with buffer := .empty } :=
      ⟨{ h.consistent with }, { h.owing with }, h.earlier, h.own⟩
    have hclosed := hread.close .exited
    exact ⟨{ hclosed.consistent with }, { hclosed.owing with }, h.earlier, hclosed.own⟩
  | outputFails cause =>
    have hclosed := h.close (.unreadable cause)
    exact ⟨{ hclosed.consistent with }, { hclosed.owing with }, h.earlier, hclosed.own⟩

end Booked

/-- What is settled stays, whatever a debugger and its transport do. -/
theorem keeps_react (ch : Channel) (now : Float) (event : Event) :
    Keeps ch.outcomes (ch.react now event).outcomes := by
  cases event with
  | writeBegins serial => exact ch.keeps_beginWrite serial now
  | writeEnds serial fault => exact ch.keeps_endWrite serial fault
  | prints chunk =>
    have hframes : ∀ (frames : List (List String)) (ch : Channel),
        Keeps ch.outcomes (ch.emitAll frames now).outcomes := by
      intro frames
      induction frames with
      | nil => exact fun ch => .refl _
      | cons lines frames ih => exact fun ch => (ch.keeps_emit lines now).trans (ih _)
    exact hframes _ (ch.takeFrames chunk).2
  | outputEnds => exact keeps_close { ch with buffer := .empty } .exited
  | outputFails cause => exact ch.keeps_close (.unreadable cause)

/-- The books of a channel go on: what is settled stays, and numbers are added at the end. -/
structure Continues (x y : CommandId × Channel) : Prop where
  keeps : Keeps x.2.outcomes y.2.outcomes
  booked : ∀ numbers, x.2.Booked x.1 numbers → ∃ more, y.2.Booked y.1 (numbers ++ more)

namespace Continues

theorem refl (x : CommandId × Channel) : Continues x x :=
  ⟨.refl _, fun numbers h => ⟨[], (List.append_nil numbers).symm ▸ h⟩⟩

theorem trans {x y z : CommandId × Channel} (h : Continues x y) (h' : Continues y z) :
    Continues x z where
  keeps := h.keeps.trans h'.keeps
  booked := by
    intro numbers hx
    obtain ⟨more, hy⟩ := h.booked numbers hx
    obtain ⟨more', hz⟩ := h'.booked _ hy
    exact ⟨more ++ more', List.append_assoc numbers more more' ▸ hz⟩

theorem of_booked {n m : CommandId} (hkeeps : Keeps ch.outcomes ch'.outcomes)
    (hbooked : ∀ numbers, ch.Booked n numbers → ch'.Booked m numbers) :
    Continues (n, ch) (m, ch') :=
  ⟨hkeeps, fun numbers h => ⟨[], (List.append_nil numbers).symm ▸ hbooked numbers h⟩⟩

theorem submit {n : CommandId} {text : String} {t : Ticket} (hs : ch.submit ⟨n, text⟩ = .ok (t, ch')) :
    Continues (n, ch) (n + 1, ch') where
  keeps := keeps_submit hs
  booked := fun _ h => ⟨[n], h.give (h.consistent.submit h.notMem hs)
    (h.owing.submit h.consistent h.notMem hs) fun _ _ => answered_of_submit hs⟩

theorem signal (n : CommandId) (ch : Channel) (name : String) (now : Float) (fault : Option Fault) :
    Continues (n, ch) (n + 1, (ch.signal n name now fault).2) := by
  cases hc : ch.isClosed with
  | true =>
    rw [signal_of_isClosed hc]
    exact of_booked (.refl _) fun _ h => h.later
  | false =>
    exact ⟨keeps_signal hc n name now fault, fun numbers h => ⟨[n],
      h.give (h.consistent.signalled hc h.notMem name now fault)
        (h.owing.signalled h.consistent hc h.notMem name now fault) fun _ _ => answered_of_signal hc⟩⟩

end Continues

end Channel

namespace Session

open Channel

variable {s s' : Session} {env : Surroundings} {e : Event} {j k : LaunchId} {ch : Channel} {t : Ticket}
  {o : Outcome} {events : List (Surroundings × Event)}

/-- The books of a debugger's channel go on, whatever a session does. -/
def bookkeeping (env : Surroundings) (j : LaunchId) : Dealing env j where
  rel := Continues
  refl := Continues.refl
  trans h h' := h.trans h'
  number _ _ := .of_booked (.refl _) fun _ h => h.later
  submit hs := .submit hs
  signal n ch name := .signal n ch name env.now (env.signalFault j name)
  cancel _ ch t := by
    refine .of_booked ?_ fun _ h => h.cancel t
    rw [Channel.cancel, settle_eq]
    exact Outcome.keeps_settled _ _ _
  close _ ch := .of_booked (ch.keeps_close .killed) fun _ h => h.close .killed
  stopReader _ _ := .of_booked (.refl _) fun _ h =>
    ⟨{ h.consistent with }, { h.owing with }, h.earlier, h.own⟩

theorem reads_bookkeeping : (bookkeeping env j).Reads := fun _ _ _ _ =>
  .of_booked (.refl _) fun _ h => ⟨{ h.consistent with }, { h.owing with }, h.earlier, h.own⟩

/-- Whatever happens, the books of a debugger that has been launched go on. -/
theorem continues_step (env : Surroundings) (e : Event) (hch : s.channels[k]? = some ch) :
    ∃ ch', (s.step env e).channels[k]? = some ch' ∧
      Continues (s.nextId, ch) ((s.step env e).nextId, ch') := by
  have hlt := (List.getElem?_eq_some_iff.1 hch).1
  have hdeals : Deals (bookkeeping env k) _ s (s.step env e) :=
    .step_of_reacts hlt reads_bookkeeping fun event _ _ ch =>
      .of_booked (ch.keeps_react env.now event) fun _ h => h.react env.now event
  exact hdeals.channel ch hch

/-- If the books of all debuggers' channels fit together, they do so after every step. -/
theorem exists_booked_after
    (h : ∀ {k : LaunchId} {ch : Channel}, s.channels[k]? = some ch → ∃ numbers, ch.Booked s.nextId numbers)
    (env : Surroundings) (e : Event) (hch : (s.after env e).channels[k]? = some ch) :
    ∃ numbers, ch.Booked (s.after env e).nextId numbers := by
  have hlt : k < (s.after env e).channels.length := (List.getElem?_eq_some_iff.1 hch).1
  by_cases hold : k < s.channels.length
  · obtain ⟨numbers, hbooked⟩ := h (List.getElem?_eq_getElem hold)
    obtain ⟨ch', hch', hcontinues⟩ := continues_step (s := { s with outbox := [] }) env e
      (List.getElem?_eq_getElem hold)
    obtain ⟨more, hmore⟩ := hcontinues.booked numbers hbooked
    obtain rfl : ch' = ch := Option.some.inj (hch'.symm.trans hch)
    exact ⟨_, hmore⟩
  · rcases launches_cases env { s with outbox := [] } e with hsame | ⟨c, -, -, -, hstep⟩
    · exact absurd (hsame ▸ hlt) hold
    · -- the debugger has come up just now
      have hafter : s.after env e = launched { s with outbox := [] } c.id true := hstep
      obtain ⟨s', hdeals, htraffic, -⟩ :=
        Deals.launched_own { s with outbox := [] } c.id (bookkeeping env s.channels.length)
      obtain ⟨hnumber, hchannels⟩ := Prod.mk.inj htraffic
      have hnew : (entered { s with outbox := [] }).channels[s.channels.length]? =
          some (Channel.create s.settings.prompt).startReader := by
        simp [entered]
      obtain ⟨ch', hch', hcontinues⟩ := hdeals.channel _ hnew
      obtain ⟨numbers, hbooked⟩ := hcontinues.booked [] (.create s.settings.prompt)
      obtain rfl : k = s.channels.length := by
        have hlength : (launched { s with outbox := [] } c.id true).channels.length =
            s.channels.length + 1 := by
          rw [(Onward.launched { s with outbox := [] } c.id).launches]
          simp [entered]
        rw [hafter, hlength] at hlt
        exact Nat.le_antisymm (Nat.le_of_lt_succ hlt) (Nat.le_of_not_lt hold)
      rw [hafter, hchannels, hch'] at hch
      rw [hafter, hnumber, ← Option.some.inj hch]
      exact ⟨_, hbooked⟩

/-- In every session that can be reached, the books of all debuggers' channels fit together. -/
theorem Reached.booked (h : s.Reached) (hch : s.channels[k]? = some ch) :
    ∃ numbers, ch.Booked s.nextId numbers := by
  induction h generalizing k ch with
  | create => cases hch
  | after _ env e ih => exact exists_booked_after ih env e hch
  | subscribe _ _ ih | unsubscribe _ _ ih => exact ih hch

/-! ## What is settled stays -/

/-- A ticket of a debugger has been settled in the given way. -/
structure Settled (s : Session) (k : LaunchId) (t : Ticket) (o : Outcome) : Prop where
  outcome : ∃ ch, s.channels[k]? = some ch ∧ ch.outcomes[t]? = some o
  isDone : o.isDone = true

namespace Settled

theorem outcomeOf (h : s.Settled k t o) : s.outcomeOf k t = o := by
  obtain ⟨ch, hch, ho⟩ := h.outcome
  rw [Session.outcomeOf, hch]
  show ch.outcomes.getD t .cancelled = o
  rw [List.getD_eq_getElem?_getD, ho, Option.getD_some]

theorem after (h : s.Settled k t o) (env : Surroundings) (e : Event) :
    (s.after env e).Settled k t o := by
  obtain ⟨ch, hch, ho⟩ := h.outcome
  obtain ⟨ch', hch', hcontinues⟩ :=
    continues_step (s := { s with outbox := [] }) env e hch
  exact ⟨⟨ch', hch', hcontinues.keeps t o ho h.isDone⟩, h.isDone⟩

theorem afterAll (h : s.Settled k t o) (events : List (Surroundings × Event)) :
    (s.afterAll events).Settled k t o := by
  induction events generalizing s with
  | nil => exact h
  | cons e events ih => exact ih (h.after e.1 e.2)

end Settled

end Session

end DebugConsole
