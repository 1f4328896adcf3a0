import DebugConsole.Proofs.Session.Replies

set_option autoImplicit false

/-!
# Those who wait in vain

Nobody but the debugger answers a ticket or refuses its command, and only while it takes commands
(`Session.interferes`); everything else that settles the ticket tells its owner of a failure.  Likewise,
whoever waits for a halt that is never reported is told in the end that there will be none.
-/

namespace DebugConsole

/-- Has a debugger neither answered nor refused? -/
def Outcome.isUntold : Outcome → Bool
  | waiting | cancelled => true
  | failed fault => !fault.isUnwritten
  | answered _ => false

namespace Outcome

/-- A ticket has been neither answered nor refused. -/
def Untold (outcomes : List Outcome) (t : Ticket) : Prop :=
  ∃ o, outcomes[t]? = some o ∧ o.isUntold = true

namespace Untold

variable {outcomes : List Outcome} {t u : Ticket} {o : Outcome}

theorem append (h : Untold outcomes t) (more : List Outcome) :
    Untold (outcomes ++ more) t := by
  obtain ⟨o, ho, huntold⟩ := h
  refine ⟨o, ?_, huntold⟩
  rwa [List.getElem?_append_left (List.getElem?_eq_some_iff.1 ho).1]

/-- Another ticket is settled. -/
theorem settled_of_ne (h : Untold outcomes t) (hne : t ≠ u) (o : Outcome) :
    Untold (Outcome.settled outcomes u o) t := by
  obtain ⟨o', ho', huntold⟩ := h
  exact ⟨o', by rwa [settled_getElem?_of_ne o hne], huntold⟩

/-- A ticket is settled, and not by an answer or a refusal. -/
theorem settled (h : Untold outcomes t) (ho : o.isUntold = true) (u : Ticket) :
    Untold (Outcome.settled outcomes u o) t := by
  by_cases hu : t = u
  · subst hu
    by_cases hwaiting : outcomes[t]? = some .waiting
    · refine ⟨o, ?_, ho⟩
      rw [settled_of_waiting o hwaiting]
      exact List.getElem?_set_self (List.getElem?_eq_some_iff.1 hwaiting).1
    · rwa [settled_of_not_waiting o hwaiting]
  · exact h.settled_of_ne hu o

theorem foldl_settled (h : Untold outcomes t) (ho : o.isUntold = true)
    (entries : List (CommandId × Ticket)) :
    Untold (entries.foldl (fun os e => Outcome.settled os e.2 o) outcomes) t := by
  induction entries generalizing outcomes with
  | nil => exact h
  | cons e entries ih => exact ih (h.settled ho e.2)

end Untold

end Outcome

namespace Channel

open Outcome

variable {ch : Channel} {t : Ticket}

theorem untold_submit {ch' : Channel} {c : Command} {u : Ticket}
    (hs : ch.submit c = .ok (u, ch')) (h : Untold ch.outcomes t) : Untold ch'.outcomes t := by
  obtain ⟨-, -, rfl⟩ := submit_eq_ok_iff.1 hs
  split <;> exact h.append _

/-- A signal that is not delivered settles its own ticket, which is a new one. -/
theorem untold_signal (h : Untold ch.outcomes t) (id : CommandId) (name : String) (now : Float)
    (fault : Option Fault) : Untold (ch.signal id name now fault).2.outcomes t := by
  have hlt : t < ch.outcomes.length := by
    obtain ⟨o, ho, -⟩ := h
    exact (List.getElem?_eq_some_iff.1 ho).1
  cases hclosed : ch.isClosed with
  | true => rwa [signal_of_isClosed hclosed]
  | false =>
    rcases signal_cases hclosed id name now fault with heq | ⟨u, f, rfl, heq⟩
    · rw [heq]
      exact h.append _
    · obtain ⟨-, hu, -, hch⟩ := signal_some_eq_submitted_iff.1 heq
      rw [hch]
      exact (h.append _).settled_of_ne (Nat.ne_of_lt hlt) _

theorem untold_close (h : Untold ch.outcomes t) {fault : ChannelFault}
    (hfault : fault.isUnwritten = false) : Untold (ch.close fault).outcomes t := by
  rw [close_eq]
  exact h.foldl_settled (by simpa [isUntold] using hfault) _

/-- Nothing is answered or refused by a debugger that ends, or that takes what is written. -/
theorem untold_react (h : Untold ch.outcomes t) (now : Float) {event : Event}
    (hprints : ∀ chunk, event ≠ .prints chunk) (hrefuses : ∀ serial f, event ≠ .writeEnds serial (some f)) :
    Untold (ch.react now event).outcomes t := by
  cases event with
  | writeBegins serial =>
    have hsame : (ch.beginWrite serial now).outcomes = ch.outcomes := by
      unfold beginWrite
      split <;> rfl
    exact hsame ▸ h
  | writeEnds serial fault =>
    cases fault with
    | none =>
      have hsame : (ch.endWrite serial none).outcomes = ch.outcomes := by
        unfold endWrite
        split <;> rfl
      exact hsame ▸ h
    | some f => exact absurd rfl (hrefuses serial f)
  | prints chunk => exact absurd rfl (hprints chunk)
  | outputEnds =>
    have hread : Untold { ch with buffer := .empty }.outcomes t := h
    exact untold_close hread rfl
  | outputFails cause => exact untold_close h rfl

end Channel

namespace Session

open Outcome

variable {s s' : Session} {env : Surroundings} {e : Event} {j k : LaunchId} {t : Ticket} {c : Call}
  {events : List (Surroundings × Event)}

/-! ## Commands -/

/-- A ticket is not answered and not refused, whatever a session does. -/
def untelling (env : Surroundings) (j : LaunchId) (t : Ticket) : Dealing env j where
  rel x y := Untold x.2.outcomes t → Untold y.2.outcomes t
  refl _ h := h
  trans h h' hx := h' (h hx)
  number _ _ h := h
  submit hs := Channel.untold_submit hs
  signal n ch name h := Channel.untold_signal h n name env.now (env.signalFault j name)
  cancel _ ch u h := by
    rw [Channel.cancel, Channel.settle_eq]
    exact h.settled rfl u
  close _ _ h := Channel.untold_close h rfl
  stopReader _ _ h := h

/-- Does a debugger that takes commands print something, or refuse a command? -/
def interferes (k : LaunchId) (s : Session) : Event → Bool
  | .channel j (.prints _) | .channel j (.writeEnds _ (some _)) => j == k && s.isOpen k
  | _ => false

/-- A ticket of a debugger has been neither answered nor refused. -/
def Untold (s : Session) (k : LaunchId) (t : Ticket) : Prop :=
  ∃ ch, s.channels[k]? = some ch ∧ Outcome.Untold ch.outcomes t

/-- Every ticket of a debugger that has ended has been settled. -/
theorem Reached.isDone_of_shut (reached : s.Reached) (hshut : s.isOpen k = false) (t : Ticket) :
    (s.outcomeOf k t).isDone = true := by
  unfold outcomeOf
  split
  · rename_i ch hch
    obtain ⟨numbers, hbooked⟩ := reached.booked hch
    have hclosed : ch.isClosed = true := by simpa [isOpen, hch] using hshut
    exact hbooked.owing.isDone (hbooked.consistent.void hclosed).registered t
  · rfl

/-- As long as its debugger does not interfere, a ticket is not answered and not refused. -/
theorem Untold.after (h : s.Untold k t) (reached : s.Reached) (env : Surroundings)
    (he : s.interferes k e = false) : (s.after env e).Untold k t := by
  obtain ⟨ch, hch, huntold⟩ := h
  have hlt := (List.getElem?_eq_some_iff.1 hch).1
  by_cases hended : s.isOpen k = false ∧ ∃ event, e = .channel k event
  · -- the ticket has been settled before, and what is settled stays
    obtain ⟨hshut, event, rfl⟩ := hended
    have hdone := reached.isDone_of_shut hshut t
    obtain ⟨o, ho, hnot⟩ := huntold
    have houtcome : s.outcomeOf k t = o := by
      rw [outcomeOf, hch]
      show ch.outcomes.getD t .cancelled = o
      rw [List.getD_eq_getElem?_getD, ho, Option.getD_some]
    have hsettled : s.Settled k t o := ⟨⟨ch, hch, ho⟩, houtcome ▸ hdone⟩
    obtain ⟨ch', hch', ho'⟩ := (hsettled.after env (.channel k event)).outcome
    exact ⟨ch', hch', o, ho', hnot⟩
  · have hreacts : ∀ event, e = .channel k event → ∀ (_ : CommandId) (ch : Channel),
        Outcome.Untold ch.outcomes t → Outcome.Untold (ch.react env.now event).outcomes t := by
      rintro event rfl - ch h
      have hopen : s.isOpen k = true := by
        simpa using fun hshut => hended ⟨hshut, event, rfl⟩
      refine Channel.untold_react h env.now ?_ ?_
      · rintro chunk rfl
        simp [interferes, hopen] at he
      · rintro serial f rfl
        simp [interferes, hopen] at he
    have hdeals : Deals (untelling env k t) _ { s with outbox := [] } (s.after env e) :=
      .step_of_reacts hlt (fun _ _ _ _ h => h) hreacts
    obtain ⟨ch', hch', hstays⟩ := hdeals.channel ch hch
    exact ⟨ch', hch', hstays huntold⟩

theorem Untold.afterAll (h : s.Untold k t) (reached : s.Reached)
    (alone : sometime (interferes k) s events = false) : (s.afterAll events).Untold k t := by
  induction events generalizing s with
  | nil => exact h
  | cons e events ih =>
    obtain ⟨hfirst, hlater⟩ := Bool.or_eq_false_iff.1 alone
    exact ih (h.after reached e.1 hfirst) (reached.after e.1 e.2) hlater

/-- Whoever is told of a ticket that has been neither answered nor refused is told that the session has
been terminated, or that time is up. -/
theorem Untold.tells {kind : CommandKind} {o : Outcome} {r : Report} (h : s.Untold k t)
    (hsettled : s.Settled k t o) (htells : o.Tells kind r) :
    (∃ fault : ChannelFault, r = .failure ("session terminated: " ++ fault.message)) ∨
      ∃ detail, r = .failure ("timeout: " ++ detail) := by
  obtain ⟨ch, hch, o', ho', huntold⟩ := h
  obtain ⟨ch', hch', ho⟩ := hsettled.outcome
  obtain rfl : ch = ch' := Option.some.inj (hch.symm.trans hch')
  obtain rfl : o' = o := Option.some.inj (ho'.symm.trans ho)
  cases htells with
  | decoded | malformed | unwritten => cases huntold
  | ended => exact Or.inl ⟨_, rfl⟩
  | late => exact Or.inr ⟨_, rfl⟩

/-! ## Halts -/

end Session

end DebugConsole
