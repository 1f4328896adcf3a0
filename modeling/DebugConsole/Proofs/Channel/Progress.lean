import DebugConsole.Proofs.Channel.Completion

set_option autoImplicit false

/-!
# The only command of a channel

While a single command is owed an answer, the first frame answers it and every later one answers
nothing.  `Channel.Tracks` says how far the command has come, and `unread` what the debugger has
printed that nobody has read: the answer, if there is one, and the frames that answer nothing.  As long
as the command is not lost, no frame is lost on the way and none is read twice.
-/

namespace DebugConsole

/-- How far a command has come. -/
inductive Progress where
  /-- it is owed an answer -/
  | owed
  | answered (frame : Frame)
  /-- it gets no answer -/
  | lost
  /-- its submitter has read what has become of it -/
  | read

namespace Progress

/-- The answer that the submitter has not read. -/
def answer : Progress → List (List String)
  | answered f => [f.lines]
  | _ => []

end Progress

theorem lookup_assign {α β : Type} [BEq α] [LawfulBEq α] (entries : List (α × β)) (key : α)
    (value : β) : (assign entries key value).lookup key = some value := by
  by_cases h : key ∈ entries.map Prod.fst
  · have hany : (entries.any fun e => e.1 == key) = true := by
      obtain ⟨e, he, rfl⟩ := List.mem_map.1 h
      exact List.any_eq_true.2 ⟨e, he, beq_self_eq_true _⟩
    rw [assign, if_pos hany]
    clear hany
    induction entries with
    | nil => cases h
    | cons e entries ih =>
      by_cases hkey : e.1 = key
      · simp [hkey]
      · obtain ⟨k, v⟩ := e
        have hrest : key ∈ entries.map Prod.fst := by simpa [Ne.symm hkey] using h
        simpa [hkey, List.lookup_cons, beq_false_of_ne (Ne.symm hkey)] using ih hrest
  · exact lookup_assign_of_notMem value h

theorem Outcome.length_foldl_settled (entries : List (CommandId × Ticket)) (o : Outcome)
    (outcomes : List Outcome) :
    (entries.foldl (fun os e => settled os e.2 o) outcomes).length = outcomes.length := by
  induction entries generalizing outcomes with
  | nil => rfl
  | cons e entries ih => rw [List.foldl_cons, ih, length_settled]

namespace Channel

variable {ch : Channel} {cid : CommandId} {t : Ticket} {p : Progress}

/-- At most one command is owed an answer, and it has come so far. -/
def Tracks (ch : Channel) (cid : CommandId) (t : Ticket) : Progress → Prop
  | .owed => ch.pending = [cid] ∧ ch.registered.lookup cid = some t ∧
      ch.outcomes[t]? = some .waiting
  | .answered f => ch.pending = [] ∧ ch.outcomes[t]? = some (.answered f)
  | .lost => ∃ o, ch.outcomes[t]? = some o ∧ o.isDone = true ∧ ∀ f, o ≠ .answered f
  | .read => ch.pending = []

/-- What the debugger has printed that nobody has read. -/
def unread (ch : Channel) (p : Progress) : List (List String) :=
  p.answer ++ ch.unsolicited.map Frame.lines

/-- The frames that an event completes. -/
def framesBy (ch : Channel) : Event → List (List String)
  | .prints chunk => (ch.takeFrames chunk).1
  | _ => []

/-- After a change of its channel the command has come further, by the frames that came; what is lost
is lost for good. -/
structure Furthers (ch ch' : Channel) (cid : CommandId) (t : Ticket) (p p' : Progress)
    (frames : List (List String)) : Prop where
  tracks : ch'.Tracks cid t p'
  unread : p' ≠ .lost → (ch'.unread p').Perm (ch.unread p ++ frames)
  lost : p = .lost → p' = .lost
  read : p' = .read ↔ p = .read

theorem Tracks.congr {ch' : Channel} (h : ch.Tracks cid t p) (hpending : ch'.pending = ch.pending)
    (hregistered : ch'.registered = ch.registered) (houtcomes : ch'.outcomes = ch.outcomes) :
    ch'.Tracks cid t p := by
  unfold Tracks at h ⊢
  rwa [hpending, hregistered, houtcomes]

/-- A command that is not owed an answer any more stays as it is if nothing becomes pending. -/
theorem Tracks.keeps {ch' : Channel} (h : ch.Tracks cid t p) (hp : p ≠ .owed)
    (hpending : ch.pending = [] → ch'.pending = [])
    (hkeeps : Outcome.Keeps ch.outcomes ch'.outcomes) : ch'.Tracks cid t p := by
  cases p with
  | owed => exact absurd rfl hp
  | answered f => exact ⟨hpending h.1, hkeeps t _ h.2 rfl⟩
  | lost =>
    obtain ⟨o, ho, hdone, hunanswered⟩ := h
    exact ⟨o, hkeeps t o ho hdone, hdone, hunanswered⟩
  | read => exact hpending h

/-- A ticket that has waited and does not wait any more is lost, unless it has been answered. -/
theorem tracks_lost {ch' : Channel} (hwaiting : ch.outcomes[t]? = some .waiting)
    (hlength : ch'.outcomes.length = ch.outcomes.length)
    (hnot : ch'.outcomes[t]? ≠ some .waiting)
    (hanswered : ∀ f, ch'.outcome t = .answered f → ch.outcome t = .answered f) :
    ch'.Tracks cid t .lost := by
  have hlt : t < ch'.outcomes.length := by
    rw [hlength]
    exact (List.getElem?_eq_some_iff.1 hwaiting).1
  refine ⟨ch'.outcomes[t], List.getElem?_eq_getElem hlt, ?_, fun f hf => ?_⟩
  · rw [Outcome.isDone_iff_ne_waiting]
    exact fun heq => hnot (by rw [List.getElem?_eq_getElem hlt, heq])
  · have hold := hanswered f (outcome_eq_answered_iff.2 (by rw [List.getElem?_eq_getElem hlt, hf]))
    rw [outcome_eq_answered_iff, hwaiting] at hold
    cases hold

namespace Furthers

theorem still {ch' : Channel} (h : ch'.Tracks cid t p)
    (hunsolicited : ch'.unsolicited = ch.unsolicited) : Furthers ch ch' cid t p p [] where
  tracks := h
  unread := fun _ => by rw [Channel.unread, Channel.unread, hunsolicited, List.append_nil]
  lost := id
  read := Iff.rfl

theorem loses {ch' : Channel} {frames : List (List String)} (hp : p ≠ .read)
    (h : ch'.Tracks cid t .lost) : Furthers ch ch' cid t p .lost frames where
  tracks := h
  unread := fun hlost => absurd rfl hlost
  lost := fun _ => rfl
  read := iff_of_false (by simp) hp

theorem trans {ch' ch'' : Channel} {p' p'' : Progress} {frames frames' : List (List String)}
    (h : Furthers ch ch' cid t p p' frames) (h' : Furthers ch' ch'' cid t p' p'' frames') :
    Furthers ch ch'' cid t p p'' (frames ++ frames') where
  tracks := h'.tracks
  unread := by
    intro hlost
    rw [← List.append_assoc]
    exact (h'.unread hlost).trans ((h.unread fun hp' => hlost (h'.lost hp')).append_right _)
  lost := fun hp => h'.lost (h.lost hp)
  read := h'.read.trans h.read

end Furthers

/-! ## What becomes of the command -/

namespace Tracks

theorem submit {c : Command} {ch' : Channel} (hpending : ch.pending = [])
    (h : ch.submit c = .ok (t, ch')) :
    ch'.Tracks c.id t .owed ∧ ch'.unsolicited = ch.unsolicited := by
  obtain ⟨-, rfl, rfl⟩ := submit_eq_ok_iff.1 h
  have hreserving : (ch.reserving c.id).Tracks c.id ch.outcomes.length .owed :=
    ⟨by simp [reserving, hpending], lookup_assign _ _ _, by simp [reserving]⟩
  split
  · exact ⟨hreserving.congr rfl rfl rfl, rfl⟩
  · exact ⟨hreserving.congr rfl rfl rfl, rfl⟩

/-- The submitter gives up: unless it has been decided, the command is lost. -/
theorem cancel (h : ch.Tracks cid t p) (hp : p ≠ .read) (hdone : (ch.outcome t).isDone = false) :
    Furthers ch (ch.cancel t) cid t p .lost [] := by
  refine .loses hp ?_
  have hundecided : ∀ {o : Outcome}, ch.outcomes[t]? = some o → o.isDone = false := by
    intro o ho
    rwa [outcome, List.getD_eq_getElem?_getD, ho] at hdone
  cases p with
  | owed =>
    have hlt := (List.getElem?_eq_some_iff.1 h.2.2).1
    refine ⟨.cancelled, ?_, rfl, by simp⟩
    rw [Channel.cancel, settle_eq]
    dsimp only
    rw [Outcome.settled_of_waiting _ h.2.2, List.getElem?_set_self hlt]
  | answered f => cases hundecided h.2
  | lost =>
    obtain ⟨o, ho, hsettled, -⟩ := h
    rw [hundecided ho] at hsettled
    cases hsettled
  | read => exact absurd rfl hp

theorem emit (h : ch.Tracks cid t p) (lines : List String) (now : Float) :
    ∃ p', Furthers ch (ch.emit lines now) cid t p p' [lines] := by
  have hunsolicited : ∀ p : Progress, ch.pending = [] → ch.Tracks cid t p →
      Furthers ch (ch.emit lines now) cid t p p [lines] := by
    intro p hp htracks
    rw [emit_of_pending_nil lines now hp]
    exact ⟨htracks.congr rfl rfl rfl, fun _ => by simp [unread], id, Iff.rfl⟩
  cases p with
  | owed =>
    obtain ⟨hpending, hlookup, hwaiting⟩ := h
    have hlt := (List.getElem?_eq_some_iff.1 hwaiting).1
    rw [emit_of_pending_cons lines now hpending]
    refine ⟨.answered (ch.reply cid lines now), ⟨by simp [hpending], ?_⟩, fun _ => ?_, by simp,
      by simp⟩
    · rw [outcomes_retire, outcomesAfter, hlookup]
      dsimp only
      rw [Outcome.settled_of_waiting _ hwaiting, List.getElem?_set_self hlt]
    · rw [unread, unread, unsolicited_retire]
      exact List.perm_append_comm
  | answered f => exact ⟨.answered f, hunsolicited _ h.1 h⟩
  | lost =>
    obtain ⟨o, ho, hdone, hunanswered⟩ := h
    exact ⟨.lost, .loses (by simp) ⟨o, keeps_emit ch lines now t o ho hdone, hdone, hunanswered⟩⟩
  | read => exact ⟨.read, hunsolicited _ h h⟩

theorem foldl_emit (h : ch.Tracks cid t p) (now : Float) (frames : List (List String)) :
    ∃ p', Furthers ch (frames.foldl (fun ch lines => ch.emit lines now) ch) cid t p p' frames := by
  induction frames generalizing ch p with
  | nil => exact ⟨p, .still h rfl⟩
  | cons lines frames ih =>
    obtain ⟨p', hemit⟩ := h.emit lines now
    obtain ⟨p'', hrest⟩ := ih hemit.tracks
    exact ⟨p'', hemit.trans hrest⟩

/-- Something retires without an answer: either it is the command, or the command is owed its answer
still. -/
theorem retire (h : ch.Tracks cid t p) (id : CommandId) (fault : ChannelFault) :
    ∃ p', Furthers ch (ch.retire id (.failed fault)) cid t p p' [] := by
  cases p with
  | answered f | lost | read =>
    refine ⟨_, .still (h.keeps (by simp) (fun hp => by simp [hp]) ?_) (unsolicited_retire _ _)⟩
    rw [outcomes_retire]
    exact keeps_outcomesAfter _ _ _
  | owed =>
    obtain ⟨hpending, hlookup, hwaiting⟩ := h
    have hlt := (List.getElem?_eq_some_iff.1 hwaiting).1
    by_cases hstill : (ch.retire id (.failed fault)).outcomes[t]? = some .waiting
    · have hne : cid ≠ id := by
        rintro rfl
        rw [outcomes_retire, outcomesAfter, hlookup] at hstill
        dsimp only at hstill
        rw [Outcome.settled_of_waiting _ hwaiting, List.getElem?_set_self hlt] at hstill
        cases hstill
      refine ⟨.owed, .still ⟨?_, ?_, hstill⟩ (unsolicited_retire _ _)⟩
      · rw [pending_retire, hpending]
        simp [hne]
      · rw [registered_retire, lookup_unassign_of_ne hne, hlookup]
    · refine ⟨.lost, .loses (by simp) (tracks_lost hwaiting (by simp) hstill fun f hf => ?_)⟩
      exact (answered_of_retire hf).resolve_right fun hfailed => by cases hfailed.2.2

theorem close (h : ch.Tracks cid t p) (fault : ChannelFault) :
    ∃ p', Furthers ch (ch.close fault) cid t p p' [] := by
  have hunsolicited : (ch.close fault).unsolicited = ch.unsolicited := by rw [close_eq]
  cases p with
  | answered f | lost | read =>
    exact ⟨_, .still (h.keeps (by simp) (fun _ => by rw [close_eq]) (keeps_close ch fault))
      hunsolicited⟩
  | owed =>
    obtain ⟨hpending, hlookup, hwaiting⟩ := h
    refine ⟨.lost, .loses (by simp) (tracks_lost hwaiting ?_ (fun hstill => ?_) fun f =>
      answered_of_close)⟩
    · rw [close_eq]
      exact Outcome.length_foldl_settled _ _ _
    · rw [close_eq] at hstill
      obtain ⟨-, hothers⟩ := Outcome.waiting_of_foldl_settled rfl hstill
      exact hothers _ (mem_of_lookup hlookup) rfl

/-- The end of a write changes nothing for the command, unless it fails the command. -/
theorem endWrite (h : ch.Tracks cid t p) (serial : Nat) (fault : Option Fault) :
    ∃ p', Furthers ch (ch.endWrite serial fault) cid t p p' [] := by
  have hwithout : (ch.without serial).Tracks cid t p := h.congr rfl rfl rfl
  rcases ch.endWrite_cases serial fault with heq | ⟨w, -, -, f, -, heq⟩
  · rw [heq]
    exact ⟨p, .still hwithout rfl⟩
  · rw [heq]
    obtain ⟨p', hfurthers⟩ := hwithout.retire w.command.id (.unwritten f.message)
    exact ⟨p', { hfurthers with }⟩

/-- Whatever the debugger and its transport do, the command comes further by the frames that come. -/
theorem react (h : ch.Tracks cid t p) (now : Float) (e : Event) :
    ∃ p', Furthers ch (ch.react now e) cid t p p' (ch.framesBy e) := by
  cases e with
  | writeBegins serial =>
    refine ⟨p, .still (h.congr (pending_beginWrite _ _ _) ?_ ?_) ?_⟩ <;>
      unfold Channel.react beginWrite <;> dsimp only <;> split <;> rfl
  | writeEnds serial fault => exact h.endWrite serial fault
  | prints chunk =>
    have htaken : (ch.takeFrames chunk).2.Tracks cid t p := h.congr rfl rfl rfl
    obtain ⟨p', hfurthers⟩ := htaken.foldl_emit now (ch.takeFrames chunk).1
    exact ⟨p', { hfurthers with }⟩
  | outputEnds =>
    have hbuffer : Tracks { ch with buffer := .empty } cid t p := h.congr rfl rfl rfl
    obtain ⟨p', hclosed⟩ := hbuffer.close .exited
    exact ⟨p', { hclosed with tracks := hclosed.tracks.congr rfl rfl rfl }⟩
  | outputFails cause =>
    obtain ⟨p', hclosed⟩ := h.close (.unreadable cause)
    exact ⟨p', { hclosed with tracks := hclosed.tracks.congr rfl rfl rfl }⟩

end Tracks

end Channel

end DebugConsole
