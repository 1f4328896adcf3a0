import DebugConsole.Proofs.Channel.Books

set_option autoImplicit false

/-!
# Every submission comes to an end once

Whoever submits something waits until a frame or a fault settles the ticket, or gives up.  A settled ticket
is never settled again (`keeps_of_steps`), and a ticket that nobody has given up waits exactly as long as
its number is pending (`Reachable.waiting_iff`): so nobody is forgotten when the channel closes.  Frames are
given to numbers in the order in which these were submitted (`Reachable.inTurn`), and a frame is taken for
one that answers nothing exactly if nothing is pending.

Two invariants carry this besides the books of the channel: who waits is registered (`Owing`), and the
numbers answered so far and then those pending stand in the order of their submission (`InTurn`).
`completes_of_reachable` puts it together for every run.
-/

namespace DebugConsole

/-! ## What is settled stays -/

namespace Outcome

theorem isDone_iff_ne_waiting {o : Outcome} : o.isDone = true ↔ o ≠ .waiting := by
  cases o <;> simp [isDone]

/-- Whatever is settled among some outcomes is the same among later ones. -/
def Keeps (before after : List Outcome) : Prop :=
  ∀ (t : Ticket) (o : Outcome), before[t]? = some o → o.isDone = true → after[t]? = some o

theorem Keeps.refl (outcomes : List Outcome) : Keeps outcomes outcomes := fun _ _ h _ => h

theorem Keeps.trans {a b c : List Outcome} (hab : Keeps a b) (hbc : Keeps b c) : Keeps a c :=
  fun t o h hdone => hbc t o (hab t o h hdone) hdone

theorem keeps_settled (outcomes : List Outcome) (t : Ticket) (o : Outcome) :
    Keeps outcomes (settled outcomes t o) := by
  intro u r hr hdone
  by_cases hu : u = t
  · subst hu
    rw [settled_of_not_waiting o, hr]
    rw [hr]
    intro heq
    exact isDone_iff_ne_waiting.1 hdone (Option.some.inj heq)
  · rwa [settled_getElem?_of_ne o hu]

theorem keeps_append (outcomes more : List Outcome) : Keeps outcomes (outcomes ++ more) := by
  intro t o h _
  rwa [List.getElem?_append_left (List.getElem?_eq_some_iff.1 h).1]

theorem keeps_foldl_settled (entries : List (CommandId × Ticket)) (o : Outcome)
    (outcomes : List Outcome) :
    Keeps outcomes (entries.foldl (fun os e => settled os e.2 o) outcomes) := by
  induction entries generalizing outcomes with
  | nil => exact .refl _
  | cons e entries ih => exact (keeps_settled outcomes e.2 o).trans (ih _)

theorem waiting_of_settled {outcomes : List Outcome} {t u : Ticket} {o : Outcome}
    (hdone : o.isDone = true) (h : (settled outcomes t o)[u]? = some .waiting) :
    outcomes[u]? = some .waiting ∧ u ≠ t := by
  have hne : u ≠ t := by
    rintro rfl
    by_cases hw : outcomes[u]? = some .waiting
    · rw [settled_of_waiting o hw, List.getElem?_set_self (List.getElem?_eq_some_iff.1 hw).1] at h
      exact isDone_iff_ne_waiting.1 hdone (Option.some.inj h)
    · rw [settled_of_not_waiting o hw] at h
      exact hw h
  rw [settled_getElem?_of_ne o hne] at h
  exact ⟨h, hne⟩

/-- A ticket that waits after several were settled waited before, and is none of them. -/
theorem waiting_of_foldl_settled {entries : List (CommandId × Ticket)} {outcomes : List Outcome}
    {t : Ticket} {o : Outcome} (hdone : o.isDone = true)
    (h : (entries.foldl (fun os e => settled os e.2 o) outcomes)[t]? = some .waiting) :
    outcomes[t]? = some .waiting ∧ ∀ e ∈ entries, t ≠ e.2 := by
  induction entries generalizing outcomes with
  | nil => exact ⟨h, by simp⟩
  | cons e entries ih =>
    obtain ⟨hsettled, hothers⟩ := ih h
    obtain ⟨hwaiting, hne⟩ := waiting_of_settled hdone hsettled
    exact ⟨hwaiting, List.forall_mem_cons.2 ⟨hne, hothers⟩⟩

end Outcome

namespace Channel

open Outcome

theorem keeps_outcomesAfter (ch : Channel) (id : CommandId) (o : Outcome) :
    Keeps ch.outcomes (ch.outcomesAfter id o) := by
  unfold outcomesAfter
  split
  · exact keeps_settled _ _ _
  · exact .refl _

theorem keeps_submit {ch ch' : Channel} {c : Command} {t : Ticket}
    (h : ch.submit c = .ok (t, ch')) : Keeps ch.outcomes ch'.outcomes := by
  obtain ⟨-, -, rfl⟩ := submit_eq_ok_iff.1 h
  split <;> exact keeps_append _ _

theorem keeps_signal {ch : Channel} (hc : ch.isClosed = false) (id : CommandId) (name : String)
    (now : Float) (fault : Option Fault) :
    Keeps ch.outcomes (ch.signal id name now fault).2.outcomes := by
  rcases signal_cases hc id name now fault with heq | ⟨t, f, rfl, heq⟩
  · rw [heq]
    exact keeps_append _ _
  · obtain ⟨-, -, -, hch⟩ := signal_some_eq_submitted_iff.1 heq
    rw [hch]
    exact (keeps_append _ _).trans (keeps_settled _ _ _)

theorem keeps_beginWrite (ch : Channel) (serial : Nat) (now : Float) :
    Keeps ch.outcomes (ch.beginWrite serial now).outcomes := by
  unfold beginWrite
  split <;> exact .refl _

theorem keeps_endWrite (ch : Channel) (serial : Nat) (fault : Option Fault) :
    Keeps ch.outcomes (ch.endWrite serial fault).outcomes := by
  rcases ch.endWrite_cases serial fault with heq | ⟨w, -, -, f, -, heq⟩
  · rw [heq]
    exact .refl _
  · rw [heq, outcomes_retire]
    exact keeps_outcomesAfter (ch.without serial) _ _

theorem keeps_emit (ch : Channel) (lines : List String) (now : Float) :
    Keeps ch.outcomes (ch.emit lines now).outcomes := by
  cases hp : ch.pending with
  | nil =>
    rw [emit_of_pending_nil lines now hp]
    exact .refl _
  | cons id rest =>
    rw [emit_of_pending_cons lines now hp, outcomes_retire]
    exact keeps_outcomesAfter _ _ _

theorem keeps_close (ch : Channel) (fault : ChannelFault) :
    Keeps ch.outcomes (ch.close fault).outcomes := by
  rw [close_eq]
  exact keeps_foldl_settled _ _ _

/-! ## Who still waits -/

/-- Whoever waits is registered, and whoever is registered waits or has given up. -/
structure Owing (ch : Channel) : Prop where
  waiting : ∀ t, ch.outcomes[t]? = some .waiting → ∃ e ∈ ch.registered, e.2 = t
  owed : ∀ e ∈ ch.registered,
    ch.outcomes[e.2]? = some .waiting ∨ ch.outcomes[e.2]? = some .cancelled

namespace Owing

variable {ch ch' : Channel} {numbers : List CommandId} {id : CommandId}

theorem create (prompt : String) : (Channel.create prompt).Owing := by
  constructor <;> simp [Channel.create]

/-- With nobody registered, everything is settled. -/
theorem isDone (h : ch.Owing) (hr : ch.registered = []) (t : Ticket) :
    (ch.outcome t).isDone = true := by
  rw [isDone_iff_ne_waiting]
  intro hwaiting
  obtain ⟨e, he, -⟩ := h.waiting t (outcome_eq_waiting_iff.1 hwaiting)
  simp [hr] at he

theorem cancel (h : ch.Owing) (t : Ticket) : (ch.cancel t).Owing := by
  rw [Channel.cancel, settle_eq]
  refine ⟨fun u hu => h.waiting u (waiting_of_settled rfl hu).1, fun e he => ?_⟩
  by_cases heq : e.2 = t
  · right
    rcases h.owed e he with hw | hcancelled
    · dsimp only
      rw [← heq, settled_of_waiting _ hw]
      exact List.getElem?_set_self (List.getElem?_eq_some_iff.1 hw).1
    · exact keeps_settled _ _ _ _ _ hcancelled rfl
  · dsimp only
    rw [settled_getElem?_of_ne _ heq]
    exact h.owed e he

theorem reserving (h : ch.Owing) (hc : ch.Consistent numbers) (hid : id ∉ numbers) :
    (ch.reserving id).Owing := by
  have hregistered : (ch.reserving id).registered =
      ch.registered ++ [(id, ch.outcomes.length)] :=
    assign_of_notMem _ (hc.notMem_registered hid)
  refine ⟨fun t ht => ?_, fun e he => ?_⟩
  · simp only [hregistered, List.mem_append, List.mem_singleton]
    rcases Nat.lt_or_ge t ch.outcomes.length with hlt | hge
    · rw [Channel.reserving, List.getElem?_append_left hlt] at ht
      obtain ⟨e, he, heq⟩ := h.waiting t ht
      exact ⟨e, Or.inl he, heq⟩
    · have hlt := (List.getElem?_eq_some_iff.1 ht).1
      rw [Channel.reserving, List.length_append] at hlt
      exact ⟨_, Or.inr rfl, Nat.le_antisymm hge (Nat.le_of_lt_succ hlt)⟩
  · simp only [hregistered, List.mem_append, List.mem_singleton] at he
    rcases he with he | rfl
    · rcases h.owed e he with hw | hcancelled
      · left
        exact (List.getElem?_append_left (List.getElem?_eq_some_iff.1 hw).1).trans hw
      · right
        exact keeps_append _ _ _ _ hcancelled rfl
    · left
      simp [Channel.reserving]

theorem retire {o : Outcome} (h : ch.Owing) (hc : ch.Consistent numbers) (hdone : o.isDone = true) :
    (ch.retire id o).Owing := by
  cases hl : ch.registered.lookup id with
  | none =>
    have houtcomes : ch.outcomesAfter id o = ch.outcomes := by rw [outcomesAfter, hl]
    refine ⟨fun t ht => ?_, fun e he => ?_⟩
    · rw [outcomes_retire, houtcomes] at ht
      obtain ⟨e, he, heq⟩ := h.waiting t ht
      refine ⟨e, ?_, heq⟩
      rw [registered_retire, mem_unassign]
      refine ⟨he, ?_⟩
      have hne := List.lookup_eq_none_iff.1 hl e he
      exact fun hid => by simp [hid] at hne
    · rw [registered_retire] at he
      rw [outcomes_retire, houtcomes]
      exact h.owed e (mem_unassign.1 he).1
  | some u =>
    have houtcomes : ch.outcomesAfter id o = settled ch.outcomes u o := by rw [outcomesAfter, hl]
    have hu := hc.owner _ (mem_of_lookup hl)
    refine ⟨fun t ht => ?_, fun e he => ?_⟩
    · rw [outcomes_retire, houtcomes] at ht
      obtain ⟨hwaiting, hne⟩ := waiting_of_settled hdone ht
      obtain ⟨e, he, rfl⟩ := h.waiting t hwaiting
      refine ⟨e, ?_, rfl⟩
      rw [registered_retire, mem_unassign]
      -- the number has only one place among all numbers
      refine ⟨he, fun hid => hne ?_⟩
      have he' := hc.owner e he
      rw [hid, ← hu] at he'
      exact (List.getElem?_inj (List.getElem?_eq_some_iff.1 (hc.owner e he)).1 hc.distinct).1 he'
    · rw [registered_retire, mem_unassign] at he
      have hne : e.2 ≠ u := by
        rintro rfl
        have he' := hc.owner e he.1
        rw [hu] at he'
        exact he.2 (Option.some.inj he').symm
      rw [outcomes_retire, houtcomes, settled_getElem?_of_ne o hne]
      exact h.owed e he.1

theorem submit {c : Command} {t : Ticket} (h : ch.Owing) (hc : ch.Consistent numbers)
    (hid : c.id ∉ numbers) (hs : ch.submit c = .ok (t, ch')) : ch'.Owing := by
  have hr := h.reserving hc hid
  obtain ⟨-, -, rfl⟩ := submit_eq_ok_iff.1 hs
  split <;> exact { hr with }

/-- A signal with a new number is submitted: if it is not delivered, a place is reserved and retires
at once. -/
theorem signalled (h : ch.Owing) (hc : ch.Consistent numbers) (hopen : ch.isClosed = false)
    (hid : id ∉ numbers) (name : String) (now : Float) (fault : Option Fault) :
    (ch.signal id name now fault).2.Owing := by
  have hr : Owing { ch.reserving id with startedAt := assign ch.startedAt id now } :=
    { h.reserving hc hid with }
  rcases signal_cases hopen id name now fault with heq | ⟨t, f, rfl, heq⟩
  · rw [heq]
    exact hr
  · have hflight : ch.inFlight ≠ some id := fun hf =>
      hid (hc.mem_of_mem_pending (hc.mem_pending_of_inFlight hf))
    have hcr : Consistent { ch.reserving id with startedAt := assign ch.startedAt id now }
        (numbers ++ [id]) := { hc.reserving hopen hid with }
    rw [signal_some_eq_retire (hc.notMem_registered hid) hflight heq]
    exact hr.retire hcr rfl

theorem emit (h : ch.Owing) (hc : ch.Consistent numbers) (lines : List String) (now : Float) :
    (ch.emit lines now).Owing := by
  cases hp : ch.pending with
  | nil =>
    rw [emit_of_pending_nil lines now hp]
    exact { h with }
  | cons id rest =>
    rw [emit_of_pending_cons lines now hp]
    exact h.retire hc rfl

theorem beginWrite (h : ch.Owing) (serial : Nat) (now : Float) :
    (ch.beginWrite serial now).Owing := by
  unfold Channel.beginWrite
  split
  · exact h
  · exact { h with }

theorem endWrite (h : ch.Owing) (hc : ch.Consistent numbers) (serial : Nat)
    (fault : Option Fault) : (ch.endWrite serial fault).Owing := by
  have hended : (ch.without serial).Owing := { h with }
  rcases ch.endWrite_cases serial fault with heq | ⟨w, -, -, f, -, heq⟩
  · rwa [heq]
  · rw [heq]
    exact hended.retire (hc.without serial) rfl

/-- The channel is closed: whoever waited was registered, and has been told. -/
theorem close (h : ch.Owing) (fault : ChannelFault) : (ch.close fault).Owing := by
  rw [close_eq]
  refine ⟨fun t ht => ?_, by simp⟩
  obtain ⟨hwaiting, hothers⟩ := waiting_of_foldl_settled rfl ht
  obtain ⟨e, he, heq⟩ := h.waiting t hwaiting
  exact absurd heq.symm (hothers e he)

theorem isDone_close (h : ch.Owing) (fault : ChannelFault) (t : Ticket) :
    ((ch.close fault).outcome t).isDone = true :=
  (h.close fault).isDone (by rw [close_eq]) t

end Owing

end Channel

/-! ## Whose turn it is -/

namespace Happening

/-- The numbers that frames have been given to, in the order of the frames. -/
def answeredIds (history : List Happening) : List CommandId :=
  history.filterMap fun
    | emitted f => if f.isUnsolicited then none else some f.id
    | _ => none

@[simp] theorem answeredIds_append (before after : List Happening) :
    answeredIds (before ++ after) = answeredIds before ++ answeredIds after :=
  List.filterMap_append

@[simp] theorem answeredIds_submitted (c : Command) : answeredIds [submitted c] = [] := rfl

@[simp] theorem answeredIds_signalled (id : CommandId) : answeredIds [signalled id] = [] := rfl

@[simp] theorem answeredIds_handed (c : Command) : answeredIds [handed c] = [] := rfl

/-- A frame is given to one number at most. -/
theorem answeredIds_emitted_sublist (f : Frame) : (answeredIds [emitted f]).Sublist [f.id] := by
  unfold answeredIds
  cases hf : f.isUnsolicited <;> simp [hf]

end Happening

namespace Channel

/-- Exactly a frame that comes when nothing is pending joins those that answer nothing. -/
theorem unsolicited_emit_iff (ch : Channel) (lines : List String) (now : Float) :
    (ch.emit lines now).unsolicited = ch.unsolicited ++ [ch.nextFrame lines now] ↔
      ch.pending = [] := by
  cases hp : ch.pending with
  | nil => simp [emit_of_pending_nil lines now hp, nextFrame, hp]
  | cons id rest => simp [emit_of_pending_cons lines now hp]

/-- A frame carries the oldest pending number. -/
theorem id_nextFrame (ch : Channel) (lines : List String) (now : Float) :
    (ch.nextFrame lines now).id = ch.pending.headD Frame.unsolicited := by
  cases hp : ch.pending with
  | nil => simp [nextFrame, hp]
  | cons id rest => simp [nextFrame_of_pending_cons lines now hp]

/-- A signal comes last, if it keeps its place. -/
theorem pending_signal_sublist {ch : Channel} {id : CommandId} (hc : ch.isClosed = false)
    (hid : id ∉ ch.pending) (name : String) (now : Float) (fault : Option Fault) :
    (ch.signal id name now fault).2.pending.Sublist (ch.pending ++ [id]) := by
  rcases signal_cases hc id name now fault with heq | ⟨t, f, rfl, heq⟩
  · rw [heq]
    exact List.Sublist.refl _
  · rw [pending_signal_some hid heq]
    exact List.sublist_append_left _ _

theorem pending_endWrite_sublist (ch : Channel) (serial : Nat) (fault : Option Fault) :
    (ch.endWrite serial fault).pending.Sublist ch.pending := by
  rcases ch.endWrite_cases serial fault with heq | ⟨w, -, -, f, -, heq⟩
  · rw [heq]
    exact List.Sublist.refl _
  · rw [heq, pending_retire]
    exact List.erase_sublist

end Channel

namespace Chronicle

open Happening

variable {mayPrint : Chronicle → Prop} {prompt : String} {d d' : Chronicle}

/-- The numbers answered so far and then those pending stand in the order of their submission. -/
def InTurn (d : Chronicle) : Prop :=
  (answeredIds d.history ++ d.channel.pending).Sublist d.submitted

namespace InTurn

theorem submit {ch : Channel} {id : CommandId} {e : Happening} (h : d.InTurn)
    (he : answeredIds [e] = []) (hpending : ch.pending.Sublist (d.channel.pending ++ [id])) :
    InTurn ⟨ch, d.submitted ++ [id], d.history ++ [e]⟩ := by
  unfold InTurn
  rw [answeredIds_append, he, List.append_nil]
  refine (hpending.append_left _).trans ?_
  rw [← List.append_assoc]
  exact h.append_right [id]

/-- Less is pending, and no frame has been given to a number. -/
theorem shrink {ch : Channel} {history : List Happening} (h : d.InTurn)
    (hhistory : answeredIds history = answeredIds d.history)
    (hpending : ch.pending.Sublist d.channel.pending) : InTurn ⟨ch, d.submitted, history⟩ := by
  unfold InTurn
  rw [hhistory]
  exact (hpending.append_left _).trans h

/-- A frame is complete: it is given to the oldest pending number. -/
theorem emit (h : d.InTurn) (lines : List String) (now : Float) :
    InTurn ⟨d.channel.emit lines now, d.submitted,
      d.history ++ [.emitted (d.channel.nextFrame lines now)]⟩ := by
  cases hp : d.channel.pending with
  | nil =>
    rw [Channel.emit_of_pending_nil lines now hp, Channel.nextFrame, hp]
    refine h.shrink ?_ (List.nil_sublist _)
    rw [answeredIds_append]
    exact List.append_nil _
  | cons id rest =>
    unfold InTurn at h ⊢
    rw [Channel.emit_of_pending_cons lines now hp, Channel.nextFrame_of_pending_cons lines now hp,
      Channel.pending_retire, hp, List.erase_cons_head, answeredIds_append, List.append_assoc]
    rw [hp] at h
    exact (((answeredIds_emitted_sublist _).append_right rest).append_left _).trans h

/-- Every step keeps the order. -/
theorem step (h : d.InTurn) (hs : d.Faithful) (s : Step mayPrint d d') : d'.InTurn := by
  cases s with
  | submit new submits =>
    refine h.submit rfl ?_
    rw [Channel.pending_submit submits]
  | signal name now fault isOpen new =>
    have hid : _ ∉ d.channel.pending := fun hp => new (hs.consistent.mem_of_mem_pending hp)
    exact h.submit rfl (Channel.pending_signal_sublist isOpen hid name now fault)
  | cancel t =>
    refine h.shrink rfl ?_
    rw [Channel.cancel, Channel.settle_eq]
  | beginWrite now writing unbegun =>
    refine h.shrink (by simp) ?_
    rw [Channel.pending_beginWrite]
  | endWrite fault writing begun =>
    exact h.shrink rfl (Channel.pending_endWrite_sublist _ _ _)
  | buffer b => exact h
  | emit lines now may => exact h.emit lines now
  | close fault => exact h.shrink rfl (List.nil_sublist _)
  | endOutput => exact h.shrink rfl (List.nil_sublist _)
  | failOutput cause => exact h.shrink rfl (List.nil_sublist _)

theorem start (prompt : String) : (start prompt).InTurn := List.Sublist.refl _

end InTurn

/-- In every run numbers are answered in the order of their submission. -/
theorem Reachable.inTurn (h : Reachable mayPrint prompt d) : d.InTurn := by
  induction h with
  | refl => exact .start prompt
  | tail hr s ih => exact ih.step (Reachable.faithful hr) s

/-! ## In every run -/

/-- Every step keeps the accounts of who still waits. -/
theorem Faithful.owing_step (hs : d.Faithful) (h : d.channel.Owing) (s : Step mayPrint d d') :
    d'.channel.Owing := by
  have hc := hs.consistent
  cases s with
  | submit new submits => exact h.submit hc new submits
  | signal name now fault isOpen new => exact h.signalled hc isOpen new name now fault
  | cancel t => exact h.cancel t
  | beginWrite now writing unbegun => exact h.beginWrite _ now
  | endWrite fault writing begun => exact h.endWrite hc _ fault
  | buffer b => exact { h with }
  | emit lines now may => exact h.emit hc lines now
  | close fault => exact h.close fault
  | endOutput =>
    have hcleared : Channel.Owing { d.channel with buffer := .empty } := { h with }
    exact { hcleared.close .exited with }
  | failOutput cause => exact { h.close (.unreadable cause) with }

theorem Reachable.owing (h : Reachable mayPrint prompt d) : d.channel.Owing := by
  induction h with
  | refl => exact .create prompt
  | tail hr s ih => exact (Reachable.faithful hr).owing_step ih s

/-- A step changes nothing that is settled. -/
theorem Step.keeps (s : Step mayPrint d d') :
    Outcome.Keeps d.channel.outcomes d'.channel.outcomes := by
  cases s with
  | submit new submits => exact Channel.keeps_submit submits
  | signal name now fault isOpen new => exact Channel.keeps_signal isOpen _ name now fault
  | cancel t =>
    rw [Channel.cancel, Channel.settle_eq]
    exact Outcome.keeps_settled _ _ _
  | beginWrite now writing unbegun => exact Channel.keeps_beginWrite _ _ now
  | endWrite fault writing begun => exact Channel.keeps_endWrite _ _ fault
  | buffer b => exact .refl _
  | emit lines now may => exact Channel.keeps_emit _ lines now
  | close fault => exact Channel.keeps_close _ fault
  | endOutput => exact Channel.keeps_close { d.channel with buffer := .empty } .exited
  | failOutput cause => exact Channel.keeps_close _ (.unreadable cause)

/-- Nothing that happens later changes what is settled. -/
theorem keeps_of_steps (h : Relation.ReflTransGen (Step mayPrint) d d') :
    Outcome.Keeps d.channel.outcomes d'.channel.outcomes := by
  induction h with
  | refl => exact .refl _
  | tail _ s ih => exact ih.trans s.keeps

/-- A ticket that nobody has given up waits exactly as long as its number is pending. -/
theorem Reachable.waiting_iff {t : Ticket} {id : CommandId} (h : Reachable mayPrint prompt d)
    (hid : d.submitted[t]? = some id) (hkept : d.channel.outcome t ≠ .cancelled) :
    d.channel.outcome t = .waiting ↔ id ∈ d.channel.pending := by
  have hc := h.faithful.consistent
  have howing := h.owing
  constructor
  · intro hwaiting
    obtain ⟨e, he, rfl⟩ := howing.waiting t (Channel.outcome_eq_waiting_iff.1 hwaiting)
    have hnumber := hc.owner e he
    rw [hid] at hnumber
    rw [← hc.keys, Option.some.inj hnumber]
    exact List.mem_map_of_mem he
  · intro hpending
    have hticket := hc.lookup_of_mem_pending hpending hid
    rcases howing.owed _ (mem_of_lookup hticket) with hwaiting | hcancelled
    · exact Channel.outcome_eq_waiting_iff.2 hwaiting
    · refine absurd ?_ hkept
      rw [Channel.outcome, List.getD_eq_getElem?_getD, hcancelled]
      rfl

/-- How what is submitted comes to an end. -/
structure Completes (mayPrint : Chronicle → Prop) (d : Chronicle) : Prop where
  /-- numbers are answered in the order of their submission -/
  order : (answeredIds d.history).Sublist d.submitted
  /-- no number is submitted twice, so none is answered twice -/
  distinct : d.submitted.Nodup
  /-- the next frame is taken for one that answers nothing exactly if nothing is pending -/
  unsolicited : ∀ lines now, (d.channel.emit lines now).unsolicited =
    d.channel.unsolicited ++ [d.channel.nextFrame lines now] ↔ d.channel.pending = []
  /-- it carries the oldest pending number, or the number of no command if there is none -/
  carries : ∀ lines now,
    (d.channel.nextFrame lines now).id = d.channel.pending.headD Frame.unsolicited
  /-- what is settled is never settled again -/
  once : ∀ d', Relation.ReflTransGen (Step mayPrint) d d' →
    Outcome.Keeps d.channel.outcomes d'.channel.outcomes
  /-- a ticket that nobody has given up waits exactly as long as its number is pending -/
  waits : ∀ t id, d.submitted[t]? = some id → d.channel.outcome t ≠ .cancelled →
    (d.channel.outcome t = .waiting ↔ id ∈ d.channel.pending)
  /-- nobody waits when the session has been closed -/
  closed : ∀ fault t, ((d.channel.close fault).outcome t).isDone = true
  /-- nobody waits when the debugger has ended -/
  exited : ∀ t, (d.channel.endOutput.outcome t).isDone = true
  /-- nobody waits when the output cannot be read any more -/
  unreadable : ∀ cause t, ((d.channel.failOutput cause).outcome t).isDone = true
  /-- nobody waits at any later time -/
  ended : d.channel.isClosed = true → ∀ t, (d.channel.outcome t).isDone = true

/-- In every run frames are given to numbers in the order of their submission, and every ticket is
settled at most once, when its number stops being pending and at the latest when the channel is
closed. -/
theorem completes_of_reachable (h : Reachable mayPrint prompt d) : d.Completes mayPrint where
  order := (List.sublist_append_left _ _).trans h.inTurn
  distinct := h.faithful.consistent.distinct
  unsolicited := d.channel.unsolicited_emit_iff
  carries := d.channel.id_nextFrame
  once := fun _ steps => keeps_of_steps steps
  waits := fun _ _ hid hkept => h.waiting_iff hid hkept
  closed := h.owing.isDone_close
  exited := by
    have hcleared : Channel.Owing { d.channel with buffer := .empty } := { h.owing with }
    exact hcleared.isDone_close .exited
  unreadable := fun cause => h.owing.isDone_close (.unreadable cause)
  ended := fun hclosed => h.owing.isDone (h.faithful.consistent.void hclosed).registered

/-- A command that was given up still takes its frame; the next one fails as it is written, a signal
gets the frame after that, and the last frame answers nothing. -/
theorem completes_after_killing : ∃ d, Reachable (fun _ => True) "(gdb)" d ∧
    d.submitted = [0, 1, 2, 3] ∧ answeredIds d.history = [0, 2] ∧
    d.channel.outcome 0 = .cancelled ∧
    d.channel.outcome 1 = .failed (.unwritten "broken pipe") ∧
    d.channel.outcome 2 = .answered ⟨["stopped"], 2, some (5.0 - 2.0)⟩ ∧
    d.channel.outcome 3 = .failed .killed ∧ d.Completes fun _ => True := by
  have h : Reachable (fun _ => True) "(gdb)" (start "(gdb)") := .start
  have h := h.next (.submit (c := ⟨0, "run"⟩) (by decide) rfl)
  have h := h.next (.submit (c := ⟨1, "where"⟩) (by decide) rfl)
  have h := h.next (.beginWrite (w := ⟨0, ⟨0, "run"⟩, false⟩) 1.0 (by decide) rfl)
  have h := h.next (.cancel 0)
  have h := h.next (@Step.signal _ _ 2 "SIGINT" 2.0 none rfl (by decide))
  have h := h.next (.emit ["late"] 3.0 trivial)
  have h := h.next (.beginWrite (w := ⟨1, ⟨1, "where"⟩, false⟩) 4.0 (by decide) rfl)
  have h := h.next (.endWrite (w := ⟨1, ⟨1, "where"⟩, true⟩) (some ⟨.brokenPipe, "broken pipe"⟩)
    (by decide) rfl)
  have h := h.next (.emit ["stopped"] 5.0 trivial)
  have h := h.next (.emit ["banner"] 6.0 trivial)
  have h := h.next (.submit (c := ⟨3, "quit"⟩) (by decide) rfl)
  have h := h.next (.close .killed)
  exact ⟨_, h, rfl, rfl, rfl, rfl, rfl, rfl, completes_of_reachable h⟩

end Chronicle

end DebugConsole
