import DebugConsole.Proofs.Channel.Quiet
import DebugConsole.Proofs.Session.Dealings

set_option autoImplicit false

/-!
# What a debugger prints before its first prompt

A debugger prints a banner and its first prompt, and then one frame for every text that it takes.  The start
that has launched it waits for the banner as for any frame that answers nothing; but commands can be given
as soon as the debugger has been launched, and a frame that arrives while a number is pending answers that
number.  So the banner reaches the start, and every command gets its own answer, exactly if nothing is
pending with the debugger as long as it has not printed its banner (`greets_iff`).

`Tuned` is the invariant: the channel is in step with what has been printed but for the banner, and the
banner has come as far as its `Phase` says.  If something is pending before the banner has been printed, the
next output can send a frame to the wrong place (`Tuned.exists_misled`), which is the other half of the
equivalence.
-/

namespace DebugConsole

namespace Channel

/-! ## What a session leaves in step -/

variable {reads : Prop} {x y z : CommandId × Channel}

/-- The next number and a channel become others: whatever was in step stays so, nothing is answered, and
the frames that answer nothing stay unless they are read. -/
structure Leads (reads : Prop) (x y : CommandId × Channel) : Prop where
  buffer : y.2.buffer = x.2.buffer
  prompt : y.2.prompt = x.2.prompt
  shut : x.2.isClosed = true → y.2.isClosed = true
  unsolicited : reads ∨ y.2.unsolicited = x.2.unsolicited
  answered : ∀ t f, y.2.outcome t = .answered f → x.2.outcome t = .answered f
  attuned : ∀ {numbers owed printed}, x.2.Attuned x.1 numbers owed printed →
    ∃ numbers', numbers <+: numbers' ∧ y.2.Attuned y.1 numbers' owed printed

namespace Leads

theorem refl (x : CommandId × Channel) : Leads reads x x where
  buffer := rfl
  prompt := rfl
  shut h := h
  unsolicited := Or.inr rfl
  answered _ _ h := h
  attuned h := ⟨_, List.prefix_refl _, h⟩

theorem trans (h : Leads reads x y) (h' : Leads reads y z) : Leads reads x z where
  buffer := h'.buffer.trans h.buffer
  prompt := h'.prompt.trans h.prompt
  shut hshut := h'.shut (h.shut hshut)
  unsolicited := by
    rcases h.unsolicited with hreads | hsame
    · exact Or.inl hreads
    · exact h'.unsolicited.imp_right fun hsame' => hsame'.trans hsame
  answered t f hf := h.answered t f (h'.answered t f hf)
  attuned hattuned := by
    obtain ⟨numbers', hprefix, hattuned'⟩ := h.attuned hattuned
    obtain ⟨numbers'', hprefix', hattuned''⟩ := h'.attuned hattuned'
    exact ⟨numbers'', hprefix.trans hprefix', hattuned''⟩

end Leads

/-- Giving a command answers nothing. -/
theorem leads_submit {n : CommandId} {ch ch' : Channel} {text : String} {t : Ticket}
    (h : ch.submit ⟨n, text⟩ = .ok (t, ch')) : Leads reads (n, ch) (n + 1, ch') := by
  have hsame : ch'.buffer = ch.buffer ∧ ch'.prompt = ch.prompt ∧ ch'.unsolicited = ch.unsolicited := by
    obtain ⟨-, -, rfl⟩ := submit_eq_ok_iff.1 h
    split <;> exact ⟨rfl, rfl, rfl⟩
  exact {
    buffer := hsame.1
    prompt := hsame.2.1
    shut := fun hshut => (isClosed_submit h).trans hshut
    unsolicited := Or.inr hsame.2.2
    answered := fun _ _ hf => answered_of_submit h hf
    attuned := fun hattuned => ⟨_, List.prefix_append _ _, hattuned.submit h⟩ }

/-- A signal that is not delivered answers nothing. -/
theorem leads_signal {n : CommandId} {ch : Channel} {name : String} {now : Float} {fault : Fault}
    (hfails : failsSignal fault = true) :
    Leads reads (n, ch) (n + 1, (ch.signal n name now (some fault)).2) := by
  cases hclosed : ch.isClosed with
  | true =>
    rw [signal_of_isClosed hclosed]
    exact { Leads.refl (n, ch) with attuned := fun h => ⟨_, List.prefix_refl _, h.number⟩ }
  | false =>
    have submits : ch.signal n name now (some fault) = (.submitted ch.outcomes.length, _) :=
      signal_some_eq_submitted_iff.2 ⟨hfails, hclosed, rfl, rfl⟩
    exact {
      buffer := by rw [submits]; rfl
      prompt := by rw [submits]; rfl
      shut := fun hshut => (ch.isClosed_signal n name now _).trans hshut
      unsolicited := by rw [submits]; exact Or.inr rfl
      answered := fun _ _ hf => answered_of_signal hclosed hf
      attuned := fun h => h.signal hfails }

end Channel

/-- Every signal to a debugger fails. -/
def Surroundings.Mutes (env : Surroundings) (j : LaunchId) : Prop :=
  ∀ name, ∃ fault, env.signalFault j name = some fault ∧ Channel.failsSignal fault = true

namespace Session

variable {s : Session} {env : Surroundings} {e : Event} {j : LaunchId}

/-- No signal reaches a debugger: the same would happen if every signal to it failed. -/
def Unsignalled (s : Session) (env : Surroundings) (e : Event) (j : LaunchId) : Prop :=
  ∃ muted : Surroundings, muted.Mutes j ∧ s.after muted e = s.after env e

/-- A time at which no debugger can be signalled. -/
def mute (now : Float) : Surroundings := ⟨now, fun _ _ => some ⟨.brokenPipe, ""⟩⟩

theorem mutes_mute (now : Float) (j : LaunchId) : (mute now).Mutes j := fun _ => ⟨_, rfl, rfl⟩

theorem unsignalled_of_mute (now : Float) (h : s.after (mute now) e = s.after env e) :
    s.Unsignalled env e j := ⟨mute now, mutes_mute now j, h⟩

/-- If every signal to a debugger fails, whatever a session does leaves its channel in step. -/
def inStep (hmutes : env.Mutes j) (reads : Prop) : Dealing env j where
  rel := Channel.Leads reads
  refl := .refl
  trans := .trans
  number _ ch := { Channel.Leads.refl (_, ch) with
    attuned := fun h => ⟨_, List.prefix_refl _, h.number⟩ }
  submit := Channel.leads_submit
  signal n ch name := by
    obtain ⟨fault, hfault, hfails⟩ := hmutes name
    rw [hfault]
    exact Channel.leads_signal hfails
  cancel n ch t := by
    have hsame : ch.cancel t = { ch with outcomes := Outcome.settled ch.outcomes t .cancelled } :=
      ch.settle_eq t .cancelled
    exact {
      buffer := by rw [hsame]
      prompt := by rw [hsame]
      shut := fun hshut => (ch.isClosed_cancel t).trans hshut
      unsolicited := by rw [hsame]; exact Or.inr rfl
      answered := fun _ _ hf => Channel.answered_of_cancel hf
      attuned := fun h => ⟨_, List.prefix_refl _, h.cancel t⟩ }
  close n ch := by
    have hsame := ch.close_eq .killed
    exact {
      buffer := by rw [hsame]
      prompt := by rw [hsame]
      shut := fun _ => rfl
      unsolicited := by rw [hsame]; exact Or.inr rfl
      answered := fun _ _ hf => Channel.answered_of_close hf
      attuned := fun h => ⟨_, List.prefix_refl _, h.close .killed⟩ }
  stopReader _ ch := { Channel.Leads.refl (_, ch) with
    attuned := fun h => ⟨_, List.prefix_refl _, h.withReader ch.buffer .absent ch.unsolicited⟩ }

theorem reads_inStep (hmutes : env.Mutes j) {reads : Prop} (h : reads) :
    (inStep hmutes reads).Reads := by
  intro n ch rest _
  have hsame : Channel.Leads reads (n, ch) (n, ch) := .refl _
  exact { hsame with
    unsolicited := Or.inl h
    attuned := fun hattuned =>
      ⟨_, List.prefix_refl _, hattuned.withReader ch.buffer ch.reader rest⟩ }

/-- The start that takes a frame for its debugger's banner was waiting for it, and does not any more. -/
theorem taken_of_greeting? (env : Surroundings) {f : Frame} (h : s.greeting? j e = some f) :
    ∃ c ∈ s.calls, c.stage = .awaitingBanner j ∧
      (∃ ch rest, s.channels[j]? = some ch ∧ ch.unsolicited = f :: rest) ∧
        ∀ d ∈ (s.step env e).calls, d.id ≠ c.id := by
  unfold greeting? at h
  split at h
  · rename_i k hresumes
    split at h
    · rename_i hk
      subst hk
      obtain ⟨⟨banner, ch'⟩, hgreeted, rfl⟩ := Option.map_eq_some_iff.1 h
      obtain ⟨ch, hch, htaken⟩ := Option.bind_eq_some_iff.1 hgreeted
      obtain ⟨rest, hunsolicited, -⟩ := Channel.takeUnsolicited_eq_some_iff.1 htaken
      have hgone : ∀ id, s.step env e = s.proceed env id (.awaitingBanner k) →
          ∀ d ∈ (s.step env e).calls, d.id ≠ id := by
        intro id hstep d hd hid
        dsimp only [Session.proceed] at hstep
        rw [hgreeted] at hstep
        rw [hstep] at hd
        exact notMem_answer _ _ _ (hid ▸ List.mem_map_of_mem hd)
      cases e with
      | proceeds id wait =>
        have hstage : s.stageIn? id wait = some (.awaitingBanner k) := hresumes
        obtain ⟨c, hc, rfl, hwaits⟩ := exists_call_of_stageIn? hstage
        refine ⟨c, hc, hwaits, ⟨ch, rest, hch, hunsolicited⟩, hgone c.id ?_⟩
        dsimp only [Session.step]
        rw [hstage]
      | timesOut id wait =>
        have hstage : s.stageIn? id wait = some (.awaitingBanner k) := hresumes
        obtain ⟨c, hc, rfl, hwaits⟩ := exists_call_of_stageIn? hstage
        refine ⟨c, hc, hwaits, ⟨ch, rest, hch, hunsolicited⟩, hgone c.id ?_⟩
        dsimp only [Session.step]
        rw [hstage]
        exact if_pos (by simp [hch, hunsolicited])
      | _ => cases hresumes
    · cases h
  · cases h

end Session

/-! ## A session and its debugger -/

/-- A session, a debugger that it has launched, and what has passed between them. -/
structure Opening where
  session : Session
  launch : LaunchId
  /-- the numbers that tickets of the debugger have been kept for -/
  tickets : List (CommandId × Ticket)
  /-- what the debugger is still to print, oldest first -/
  owed : List Answer
  /-- what it has printed, oldest first -/
  printed : List Answer
  /-- what starts have taken for its banner -/
  taken : List Frame

namespace Opening

variable {may : Opening → Surroundings → Session.Event → Prop} {x x' : Opening}
  {lines : List String} {numbers : List CommandId} {owed printed : List Answer}

/-- The debugger's channel. -/
def channel (x : Opening) : Channel := x.session.channels[x.launch]?.getD (.create "")

/-- What the debugger has received, after the banner that nobody has asked for. -/
def received (x : Opening) : List CommandId := (x.printed ++ x.owed).map Answer.id

/-- A banner answers no number. -/
def banner (lines : List String) : Answer := ⟨Frame.unsolicited, lines⟩

/-- The frame of a banner. -/
def bannerFrame (lines : List String) : Frame := ⟨lines, Frame.unsolicited, none⟩

/-- The opening after something has happened to the session. -/
def after (x : Opening) (env : Surroundings) (e : Session.Event) : Opening :=
  let s := x.session.after env e
  { x with
    session := s
    tickets := x.tickets ++ { x with session := s }.channel.registered
    taken := x.taken ++ (x.session.greeting? x.launch e).toList }

/-- The next debugger that a session launches will owe its banner. -/
def next (s : Session) (launch : LaunchId) (lines : List String) : Opening :=
  ⟨s, launch, [], [banner lines], [], []⟩

/-- A start has just launched the debugger. -/
def start (s : Session) (env : Surroundings) (id : CallId) (lines : List String) : Opening :=
  (next s s.channels.length lines).after env (.launched id true)

/-- A chunk of output arrives, which completes the frames of what is owed next. -/
def print (x : Opening) (env : Surroundings) (chunk : String) : Opening :=
  let frames := (x.channel.takeFrames chunk).1
  { x.after env (.channel x.launch (.prints chunk)) with
    owed := x.owed.drop frames.length
    printed := x.printed ++ x.owed.take frames.length }

/-- What has been printed of the banner so far can be gone on with. -/
def CanGreet (x : Opening) : Prop :=
  x.printed = [] → ∀ a ∈ x.owed.head?, ∃ chunk, (x.channel.takeFrames chunk).1 = [a.lines]

/-- What can happen.  Callers and the world outside do as they may, but no signal reaches the debugger;
the debugger prints its banner and then, for every text that it takes, one frame, in the order of the
texts and in chunks cut anywhere. -/
inductive Step (may : Opening → Surroundings → Session.Event → Prop) : Opening → Opening → Prop
  | goesOn {x : Opening} {env : Surroundings} {e : Session.Event}
      (apart : ∀ event, e ≠ .channel x.launch event)
      (unsignalled : x.session.Unsignalled env e x.launch) (allowed : may x env e) :
      Step may x (x.after env e)
  | beginWrite {x : Opening} (env : Surroundings) (serial : Nat) :
      Step may x (x.after env (.channel x.launch (.writeBegins serial)))
  | receive {x : Opening} {w : Writer} (lines : List String) (writing : w ∈ x.channel.writers)
      (begun : w.hasBegun = true) (new : w.command.id ∉ x.received) :
      Step may x { x with owed := x.owed ++ [⟨w.command.id, lines⟩] }
  | endWrite {x : Opening} {w : Writer} (env : Surroundings) (writing : w ∈ x.channel.writers)
      (begun : w.hasBegun = true) (known : w.command.id ∈ x.received) :
      Step may x (x.after env (.channel x.launch (.writeEnds w.serial none)))
  | refuse {x : Opening} {w : Writer} (env : Surroundings) (fault : Fault)
      (writing : w ∈ x.channel.writers) (begun : w.hasBegun = true)
      (unknown : w.command.id ∉ x.received) :
      Step may x (x.after env (.channel x.launch (.writeEnds w.serial (some fault))))
  | print {x : Opening} (env : Surroundings) (chunk : String)
      (due : (x.channel.takeFrames chunk).1 <+: x.owed.map Answer.lines)
      (canGreet : (x.print env chunk).CanGreet) : Step may x (x.print env chunk)
  | endOutput {x : Opening} (env : Surroundings) :
      Step may x (x.after env (.channel x.launch .outputEnds))
  | failOutput {x : Opening} (env : Surroundings) (cause : String) :
      Step may x (x.after env (.channel x.launch (.outputFails cause)))

/-- What can come about once the debugger has been launched. -/
def Reachable (may : Opening → Surroundings → Session.Event → Prop) (x₀ x : Opening) : Prop :=
  Relation.ReflTransGen (Step may) x₀ x

/-- Everything goes to where it belongs: a number that is answered is answered with what the debugger has
printed for it, what a start takes for the banner is the banner, and once the banner has been printed it
is there to be taken. -/
structure Greets (lines : List String) (x : Opening) : Prop where
  own : ∀ t f, x.channel.outcome t = .answered f →
    (∀ id, (id, t) ∈ x.tickets ↔ id = f.id) ∧ ⟨f.id, f.lines⟩ ∈ x.printed
  banner : ∀ f ∈ x.taken, f = bannerFrame lines
  waits : x.printed ≠ [] → x.taken = [] → bannerFrame lines ∈ x.channel.unsolicited

/-! ## The debugger's channel -/

theorem getElem?_channel (h : x.launch < x.session.channels.length) :
    x.session.channels[x.launch]? = some x.channel := by
  rw [channel, List.getElem?_eq_getElem h]
  rfl

theorem channel_of_getElem? {ch : Channel} (h : x.session.channels[x.launch]? = some ch) :
    x.channel = ch := by
  rw [channel, h]
  rfl

/-- Whatever the debugger does changes its channel, and nothing else that matters. -/
theorem after_channel (x : Opening) (env : Surroundings) (event : Channel.Event)
    (h : x.launch < x.session.channels.length) :
    (x.after env (.channel x.launch event)).channel = x.channel.react env.now event ∧
      (x.after env (.channel x.launch event)).session.channels.length = x.session.channels.length ∧
      (x.after env (.channel x.launch event)).session.nextId = x.session.nextId ∧
      (x.after env (.channel x.launch event)).session.calls = x.session.calls ∧
      (x.after env (.channel x.launch event)).session.watched = x.session.watched ∧
      (x.after env (.channel x.launch event)).taken = x.taken := by
  have hsame := { x.session with outbox := [] }.step_channel env x.launch event
  obtain ⟨hchannels, -, hnumber, hcalls⟩ := hsame
  have hhold := { x.session with outbox := [] }.hold_channel env x.launch event
  refine ⟨channel_of_getElem? ?_, ?_, hnumber, hcalls, ?_, List.append_nil _⟩
  · refine (congrArg (·[x.launch]?) hchannels).trans ?_
    rw [List.getElem?_modify_eq, getElem?_channel h]
    rfl
  · exact (congrArg List.length hchannels).trans (List.length_modify ..)
  · exact congrArg (fun hold => hold.2.2) hhold

/-! ## What every step keeps -/

/-- How far the banner has come; all else that is owed or has been printed are answers. -/
inductive Phase (lines : List String) (owed printed : List Answer) (x : Opening) : Prop
  | unprinted (hprinted : x.printed = []) (hanswers : printed = [])
      (howed : x.owed = banner lines :: owed) (htaken : x.taken = [])
      (hquiet : x.channel.unsolicited = []) (canGreet : x.channel.isClosed = false → x.CanGreet)
  | untaken (hprinted : x.printed = banner lines :: printed) (howed : x.owed = owed)
      (htaken : x.taken = []) (hfirst : x.channel.unsolicited.head? = some (bannerFrame lines))
  | taken (hprinted : x.printed = banner lines :: printed) (howed : x.owed = owed)
      (htaken : x.taken = [bannerFrame lines])

/-- The debugger's channel is in step with what the debugger has printed but for its banner, and at most
one start waits for that, until it has been taken. -/
structure Tuned (lines : List String) (numbers : List CommandId) (owed printed : List Answer)
    (x : Opening) : Prop where
  launched : x.launch < x.session.channels.length
  attuned : x.channel.Attuned x.session.nextId numbers owed printed
  tickets : ∀ e ∈ x.tickets, numbers[e.2]? = some e.1
  registered : x.channel.registered ⊆ x.tickets
  answered : ∀ t f, x.channel.outcome t = .answered f → (f.id, t) ∈ x.tickets
  starter : ∃ id, ∀ c ∈ x.session.calls, c.stage = .awaitingBanner x.launch →
    c.id = id ∧ x.taken = []
  watched : x.launch ∈ x.session.watched → x.taken ≠ []
  phase : Phase lines owed printed x

/-- What is printed has been printed for a number, but for the banner. -/
theorem Tuned.printed_subset (h : x.Tuned lines numbers owed printed) : printed ⊆ x.printed := by
  intro a ha
  cases h.phase with
  | unprinted _ hanswers =>
    rw [hanswers] at ha
    cases ha
  | untaken hprinted | taken hprinted =>
    rw [hprinted]
    exact List.mem_cons_of_mem _ ha

/-- What is received is what the banner does not count for. -/
theorem Tuned.mem_received (h : x.Tuned lines numbers owed printed) {id : CommandId} (hid : 0 ≤ id) :
    id ∈ x.received ↔ id ∈ (printed ++ owed).map Answer.id := by
  have hne : id ≠ (banner lines).id := by
    rintro rfl
    exact absurd hid (show ¬(0 : Int) ≤ -1 by decide)
  have hreceived : x.received = (banner lines).id :: (printed ++ owed).map Answer.id := by
    unfold received
    cases h.phase with
    | unprinted hprinted hanswers howed => rw [hprinted, hanswers, howed]; rfl
    | untaken hprinted howed | taken hprinted howed => rw [hprinted, howed]; rfl
  rw [hreceived, List.mem_cons, or_iff_right hne]

/-- So everything goes to where it belongs. -/
theorem Tuned.greets (h : x.Tuned lines numbers owed printed) : x.Greets lines where
  own := by
    intro t f hf
    obtain ⟨hnumber, hmem⟩ := h.attuned.aligned.own t f hf
    refine ⟨fun id => ⟨fun hid => ?_, fun hid => hid ▸ h.answered t f hf⟩, h.printed_subset hmem⟩
    exact Option.some.inj ((h.tickets _ hid).symm.trans hnumber)
  banner := by
    intro f hf
    cases h.phase with
    | unprinted _ _ _ htaken | untaken _ _ htaken =>
      rw [htaken] at hf
      cases hf
    | taken _ _ htaken =>
      rw [htaken] at hf
      exact List.mem_singleton.1 hf
  waits := by
    intro hne htaken
    cases h.phase with
    | unprinted hprinted => exact absurd hprinted hne
    | untaken _ _ _ hfirst => exact List.mem_of_mem_head? hfirst
    | taken _ _ htaken' =>
      rw [htaken'] at htaken
      cases htaken

/-! ### Steps -/

/-- The banner has come as far as before. -/
theorem Phase.keep (h : Phase lines owed printed x) (hprinted : x'.printed = x.printed)
    (howed : x'.owed = x.owed) (htaken : x'.taken = x.taken)
    (hunsolicited : x.taken = [] → x'.channel.unsolicited = x.channel.unsolicited)
    (hreader : x'.channel.isClosed = false → x.channel.isClosed = false ∧
      x'.channel.buffer = x.channel.buffer ∧ x'.channel.prompt = x.channel.prompt) :
    Phase lines owed printed x' := by
  cases h with
  | unprinted hunprinted hanswers hbanner hnobody hquiet hgreet =>
    refine .unprinted (hprinted.trans hunprinted) hanswers (howed.trans hbanner)
      (htaken.trans hnobody) ((hunsolicited hnobody).trans hquiet) fun hopen => ?_
    obtain ⟨hopen, hbuffer, hprompt⟩ := hreader hopen
    unfold CanGreet Channel.takeFrames
    rw [howed, hbuffer, hprompt]
    exact fun _ => hgreet hopen hunprinted
  | untaken hbefore hanswers hnobody hfirst =>
    exact .untaken (hprinted.trans hbefore) (howed.trans hanswers) (htaken.trans hnobody)
      (hunsolicited hnobody ▸ hfirst)
  | taken hbefore hanswers hsome =>
    exact .taken (hprinted.trans hbefore) (howed.trans hanswers) (htaken.trans hsome)

namespace Tuned

/-- The debugger does something, and its channel stays in step. -/
theorem react {owed' printed' o p : List Answer} (h : x.Tuned lines numbers owed printed)
    (env : Surroundings) {event : Channel.Event}
    (hattuned : (x.channel.react env.now event).Attuned x.session.nextId numbers owed' printed')
    (hanswered : ∀ t f, (x.channel.react env.now event).outcome t = .answered f →
      x.channel.outcome t = .answered f ∨ (f.id, t) ∈ x.channel.registered)
    (hphase : Phase lines owed' printed'
      { x.after env (.channel x.launch event) with owed := o, printed := p }) :
    Tuned lines numbers owed' printed'
      { x.after env (.channel x.launch event) with owed := o, printed := p } := by
  obtain ⟨hchannel, hlength, hnumber, hcalls, hwatched, htaken⟩ :=
    x.after_channel env event h.launched
  have htickets : (x.after env (.channel x.launch event)).tickets =
      x.tickets ++ (x.channel.react env.now event).registered := by
    rw [← hchannel]
    rfl
  refine {
    launched := hlength.symm ▸ h.launched
    attuned := ?_
    tickets := fun e he => ?_
    registered := List.subset_append_right _ _
    answered := fun t f hf => ?_
    starter := ?_
    watched := fun hmem => htaken.symm ▸ h.watched (hwatched ▸ hmem)
    phase := hphase }
  · rw [← hchannel, ← hnumber] at hattuned
    exact hattuned
  · rw [htickets] at he
    rcases List.mem_append.1 he with he | he
    · exact h.tickets e he
    · exact hattuned.consistent.owner e he
  · have hf : (x.channel.react env.now event).outcome t = .answered f := hchannel ▸ hf
    rw [htickets]
    apply List.mem_append_left
    exact (hanswered t f hf).elim (h.answered t f) fun hmem => h.registered hmem
  · obtain ⟨id, hid⟩ := h.starter
    rw [hcalls, htaken]
    exact ⟨id, hid⟩

/-- The debugger does something that is no printing. -/
theorem react_silently (h : x.Tuned lines numbers owed printed) (env : Surroundings)
    {event : Channel.Event}
    (hattuned : (x.channel.react env.now event).Attuned x.session.nextId numbers owed printed)
    (hanswered : ∀ t f, (x.channel.react env.now event).outcome t = .answered f →
      x.channel.outcome t = .answered f)
    (hunsolicited : (x.channel.react env.now event).unsolicited = x.channel.unsolicited)
    (hreader : (x.channel.react env.now event).isClosed = false → x.channel.isClosed = false ∧
      (x.channel.react env.now event).buffer = x.channel.buffer ∧
        (x.channel.react env.now event).prompt = x.channel.prompt) :
    Tuned lines numbers owed printed (x.after env (.channel x.launch event)) := by
  obtain ⟨hchannel, -, -, -, -, htaken⟩ := x.after_channel env event h.launched
  rw [← hchannel] at hunsolicited hreader
  exact h.react env hattuned (fun t f hf => Or.inl (hanswered t f hf))
    (h.phase.keep rfl rfl htaken (fun _ => hunsolicited) hreader)

theorem beginWrite (h : x.Tuned lines numbers owed printed) (env : Surroundings) (serial : Nat) :
    Tuned lines numbers owed printed (x.after env (.channel x.launch (.writeBegins serial))) := by
  have hsame : (x.channel.beginWrite serial env.now).buffer = x.channel.buffer ∧
      (x.channel.beginWrite serial env.now).prompt = x.channel.prompt ∧
      (x.channel.beginWrite serial env.now).unsolicited = x.channel.unsolicited := by
    unfold Channel.beginWrite
    split <;> exact ⟨rfl, rfl, rfl⟩
  refine h.react_silently env (h.attuned.beginWrite serial env.now) (fun t f hf => ?_) hsame.2.2
    fun hopen => ⟨(x.channel.isClosed_beginWrite serial env.now).symm.trans hopen, hsame.1, hsame.2.1⟩
  exact (x.channel.outcome_beginWrite serial env.now t).symm.trans hf

theorem endWrite {serial : Nat} {fault : Option Fault} (h : x.Tuned lines numbers owed printed)
    (env : Surroundings)
    (hattuned : (x.channel.endWrite serial fault).Attuned x.session.nextId numbers owed printed) :
    Tuned lines numbers owed printed (x.after env (.channel x.launch (.writeEnds serial fault))) := by
  have hsame : (x.channel.endWrite serial fault).buffer = x.channel.buffer ∧
      (x.channel.endWrite serial fault).prompt = x.channel.prompt ∧
      (x.channel.endWrite serial fault).unsolicited = x.channel.unsolicited := by
    rcases x.channel.endWrite_cases serial fault with heq | ⟨w, -, -, f, -, heq⟩
    · rw [heq]
      exact ⟨rfl, rfl, rfl⟩
    · rw [heq]
      exact ⟨Channel.buffer_retire _ _, Channel.prompt_retire _ _, Channel.unsolicited_retire _ _⟩
  exact h.react_silently env hattuned (fun _ _ hf => Channel.answered_of_endWrite hf) hsame.2.2
    fun hopen => ⟨(x.channel.isClosed_endWrite serial fault).symm.trans hopen, hsame.1, hsame.2.1⟩

theorem receive {w : Writer} (lines' : List String) (h : x.Tuned lines numbers owed printed)
    (writing : w ∈ x.channel.writers) (begun : w.hasBegun = true)
    (new : w.command.id ∉ x.received) :
    Tuned lines numbers (owed ++ [⟨w.command.id, lines'⟩]) printed
      { x with owed := x.owed ++ [⟨w.command.id, lines'⟩] } := by
  have hgiven := h.attuned.given _ (h.attuned.consistent.writing w writing)
  have hnew : w.command.id ∉ (printed ++ owed).map Answer.id := mt (h.mem_received hgiven.1).2 new
  have hlater : ∀ {before}, x.owed = before →
      x.owed ++ [Answer.mk w.command.id lines'] = before ++ [Answer.mk w.command.id lines'] :=
    fun heq => by rw [heq]
  refine { h with attuned := h.attuned.receive lines' writing begun hnew, phase := ?_ }
  cases h.phase with
  | unprinted hprinted hanswers howed htaken hquiet hgreet =>
    refine .unprinted hprinted hanswers (hlater howed) htaken hquiet fun hopen _ => ?_
    have hhead : (x.owed ++ [Answer.mk w.command.id lines']).head? = x.owed.head? := by
      rw [howed]
      rfl
    exact hhead ▸ hgreet hopen hprinted
  | untaken hprinted howed htaken hfirst =>
    exact .untaken hprinted (hlater howed) htaken hfirst
  | taken hprinted howed htaken => exact .taken hprinted (hlater howed) htaken

theorem endOutput (h : x.Tuned lines numbers owed printed) (env : Surroundings) :
    Tuned lines numbers owed printed (x.after env (.channel x.launch .outputEnds)) := by
  refine h.react_silently env h.attuned.endOutput (fun t f hf => ?_) ?_ nofun
  · have hclosed : ({ x.channel with buffer := .empty }.close .exited).outcome t = .answered f := hf
    have hold : ({ x.channel with buffer := .empty } : Channel).outcome t = .answered f :=
      Channel.answered_of_close hclosed
    exact hold
  · rw [Channel.react, Channel.endOutput, Channel.close_eq]

theorem failOutput (h : x.Tuned lines numbers owed printed) (env : Surroundings) (cause : String) :
    Tuned lines numbers owed printed (x.after env (.channel x.launch (.outputFails cause))) := by
  refine h.react_silently env (h.attuned.failOutput cause) (fun t f hf => ?_) ?_ nofun
  · exact Channel.answered_of_close hf
  · rw [Channel.react, Channel.failOutput, Channel.close_eq]

/-- The debugger prints, and its banner has been printed. -/
theorem print_answers {chunk : String} (h : x.Tuned lines numbers owed printed) (env : Surroundings)
    (due : (x.channel.takeFrames chunk).1 <+: x.owed.map Answer.lines)
    (hprinted : x.printed = banner lines :: printed) (howed : x.owed = owed) :
    ∃ owed' printed', (x.print env chunk).Tuned lines numbers owed' printed' := by
  obtain rfl := howed
  obtain ⟨hchannel, -, -, -, -, htaken⟩ := x.after_channel env (.prints chunk) h.launched
  have hprinted' : (x.print env chunk).printed = banner lines :: (printed ++ _) :=
    congrArg (· ++ x.owed.take (x.channel.takeFrames chunk).1.length) hprinted
  refine ⟨_, _, h.react env (h.attuned.feed env.now due) (fun _ _ => Channel.answered_of_feed) ?_⟩
  cases h.phase with
  | unprinted hunprinted =>
    rw [hprinted] at hunprinted
    cases hunprinted
  | untaken _ _ hnobody hfirst =>
    refine .untaken hprinted' rfl (htaken.trans hnobody) ?_
    obtain ⟨rest, hrest⟩ := List.head?_eq_some_iff.1 hfirst
    obtain ⟨more, hmore⟩ := x.channel.unsolicited_prefix_feed chunk env.now
    refine List.head?_eq_some_iff.2 ⟨rest ++ more, ?_⟩
    rw [hrest] at hmore
    exact (congrArg Channel.unsolicited hchannel).trans hmore.symm
  | taken _ _ hsome => exact .taken hprinted' rfl (htaken.trans hsome)

/-- The debugger prints, but not yet all of its banner. -/
theorem print_nothing {chunk : String} (h : x.Tuned lines numbers owed printed) (env : Surroundings)
    (canGreet : (x.print env chunk).CanGreet) (hprinted : x.printed = [])
    (hnone : (x.channel.takeFrames chunk).1 = []) :
    (x.print env chunk).Tuned lines numbers owed printed := by
  obtain ⟨hchannel, -, -, -, -, htaken⟩ := x.after_channel env (.prints chunk) h.launched
  have hread : x.channel.react env.now (.prints chunk) = (x.channel.takeFrames chunk).2 :=
    Channel.feed_of_frames env.now hnone
  have hattuned : (x.channel.react env.now (.prints chunk)).Attuned x.session.nextId numbers owed
      printed := by
    rw [hread]
    exact h.attuned.withReader _ x.channel.reader x.channel.unsolicited
  refine h.react env hattuned (fun _ _ => Channel.answered_of_feed) ?_
  cases h.phase with
  | unprinted _ hnothing howed hnobody hquiet =>
    refine .unprinted ?_ hnothing ?_ (htaken.trans hnobody) ?_ fun _ => canGreet
    · simp [hnone, hprinted]
    · simp [hnone, howed]
    · exact (congrArg Channel.unsolicited (hchannel.trans hread)).trans hquiet
  | untaken hbefore | taken hbefore =>
    rw [hprinted] at hbefore
    cases hbefore

/-- The debugger prints its banner, and nothing is pending. -/
theorem print_banner {chunk : String} {first : List String} {more : List (List String)}
    (h : x.Tuned lines numbers owed printed) (env : Surroundings)
    (due : (x.channel.takeFrames chunk).1 <+: x.owed.map Answer.lines) (hprinted : x.printed = [])
    (hframes : (x.channel.takeFrames chunk).1 = first :: more) (hpending : x.channel.pending = []) :
    ∃ owed' printed', (x.print env chunk).Tuned lines numbers owed' printed' := by
  obtain ⟨hchannel, -, -, -, -, htaken⟩ := x.after_channel env (.prints chunk) h.launched
  cases h.phase with
  | unprinted _ hnothing howed hnobody hquiet =>
    rw [howed, hframes] at due
    obtain ⟨hfirst, hmore⟩ := List.cons_prefix_cons.1 due
    obtain rfl : first = lines := hfirst
    obtain ⟨hattuned, hprefix⟩ := h.attuned.feed_unsolicited env.now hframes hpending hmore
    rw [hquiet] at hprefix
    obtain ⟨rest, hrest⟩ := hprefix
    refine ⟨_, _, h.react env hattuned (fun _ _ => Channel.answered_of_feed)
      (.untaken ?_ ?_ (htaken.trans hnobody) (List.head?_eq_some_iff.2 ⟨rest, ?_⟩))⟩
    · simp [hframes, hprinted, hnothing, howed]
    · simp [hframes, howed]
    · exact (congrArg Channel.unsolicited hchannel).trans hrest.symm
  | untaken hbefore | taken hbefore =>
    rw [hprinted] at hbefore
    cases hbefore

theorem print {chunk : String} (h : x.Tuned lines numbers owed printed) (env : Surroundings)
    (due : (x.channel.takeFrames chunk).1 <+: x.owed.map Answer.lines)
    (canGreet : (x.print env chunk).CanGreet)
    (hnone : x.printed = [] → x.channel.pending = []) :
    ∃ owed' printed', (x.print env chunk).Tuned lines numbers owed' printed' := by
  cases h.phase with
  | untaken hprinted howed | taken hprinted howed =>
    exact h.print_answers env due hprinted howed
  | unprinted hprinted =>
    cases hframes : (x.channel.takeFrames chunk).1 with
    | nil => exact ⟨owed, printed, h.print_nothing env canGreet hprinted hframes⟩
    | cons first more => exact h.print_banner env due hprinted hframes (hnone hprinted)

/-- Something is done to the debugger's channel, which stays in step. -/
theorem leads {reads : Prop} {ch : Channel} (h : x.Tuned lines numbers owed printed)
    (hlaunch : x'.launch = x.launch) (htickets : x'.tickets = x.tickets ++ x'.channel.registered)
    (hch : x'.session.channels[x.launch]? = some ch)
    (hleads : Channel.Leads reads (x.session.nextId, x.channel) (x'.session.nextId, ch))
    (starter : ∃ id, ∀ c ∈ x'.session.calls, c.stage = .awaitingBanner x.launch →
      c.id = id ∧ x'.taken = [])
    (watched : x.launch ∈ x'.session.watched → x'.taken ≠ []) (phase : Phase lines owed printed x') :
    ∃ numbers', x'.Tuned lines numbers' owed printed := by
  rw [← hlaunch] at hch starter watched
  obtain rfl : x'.channel = ch := channel_of_getElem? hch
  obtain ⟨numbers', ⟨given, rfl⟩, hattuned⟩ := hleads.attuned h.attuned
  refine ⟨_, {
    launched := (List.getElem?_eq_some_iff.1 hch).1
    attuned := hattuned
    tickets := fun e he => ?_
    registered := htickets ▸ List.subset_append_right _ _
    answered := fun t f hf => ?_
    starter := starter
    watched := watched
    phase := phase }⟩
  · rw [htickets] at he
    rcases List.mem_append.1 he with he | he
    · have hticket := h.tickets e he
      rw [List.getElem?_append_left (List.getElem?_eq_some_iff.1 hticket).1, hticket]
    · exact hattuned.consistent.owner e he
  · rw [htickets]
    exact List.mem_append_left _ (h.answered t f (hleads.answered t f hf))

/-- What callers and the world outside do, if every signal to the debugger fails. -/
theorem deals {env : Surroundings} {e : Session.Event} (h : x.Tuned lines numbers owed printed)
    (apart : ∀ event, e ≠ .channel x.launch event) (mutes : env.Mutes x.launch) :
    Session.Deals (Session.inStep mutes
        (x.launch ∈ x.session.watched ∨ (x.session.greeting? x.launch e).isSome))
      (x.session.greeting? x.launch e).isSome { x.session with outbox := [] }
      (x.after env e).session := by
  rw [← Session.greeting?_clear]
  exact .step apart (fun _ _ _ => Nat.ne_of_lt h.launched) (Session.reads_inStep mutes)

/-- They go on, and nobody takes the banner. -/
theorem goesOn_unread {env : Surroundings} {e : Session.Event}
    (h : x.Tuned lines numbers owed printed) (apart : ∀ event, e ≠ .channel x.launch event)
    (mutes : env.Mutes x.launch) (hnone : x.session.greeting? x.launch e = none) :
    ∃ numbers', (x.after env e).Tuned lines numbers' owed printed := by
  have hdeals := h.deals apart mutes
  rw [hnone] at hdeals
  obtain ⟨ch, hch, hleads⟩ := hdeals.channel x.channel (getElem?_channel h.launched)
  have hchannel : (x.after env e).channel = ch := channel_of_getElem? hch
  have htaken : (x.after env e).taken = x.taken := by
    rw [after, hnone]
    exact List.append_nil _
  obtain ⟨id, hstarter⟩ := h.starter
  refine h.leads rfl rfl hch hleads ⟨id, fun c hc hstage => ?_⟩ (fun hmem => ?_) ?_
  · rw [htaken]
    exact hstarter c (hdeals.awaiting c hc hstage) hstage
  · rw [htaken]
    exact h.watched ((hdeals.watched hmem).resolve_right nofun)
  · refine h.phase.keep rfl rfl htaken (fun hnobody => ?_) fun hopen => ?_
    · rw [hchannel]
      refine hleads.unsolicited.resolve_left ?_
      rintro (hmem | hsome)
      · exact h.watched hmem hnobody
      · cases hsome
    · rw [hchannel] at hopen ⊢
      refine ⟨?_, hleads.buffer, hleads.prompt⟩
      by_contra hshut
      rw [hleads.shut (by simpa using hshut)] at hopen
      cases hopen

/-- They go on, and the start takes the banner. -/
theorem goesOn_read {env : Surroundings} {e : Session.Event} {f : Frame}
    (h : x.Tuned lines numbers owed printed) (apart : ∀ event, e ≠ .channel x.launch event)
    (mutes : env.Mutes x.launch) (hsome : x.session.greeting? x.launch e = some f) :
    ∃ numbers', (x.after env e).Tuned lines numbers' owed printed := by
  have hdeals := h.deals apart mutes
  obtain ⟨ch, hch, hleads⟩ := hdeals.channel x.channel (getElem?_channel h.launched)
  have hcleared := (x.session.greeting?_clear x.launch e).trans hsome
  obtain ⟨c, hc, hstage, ⟨ch₀, rest, hch₀, hfirst⟩, hgone⟩ :=
    Session.taken_of_greeting? env hcleared
  obtain rfl : x.channel = ch₀ := channel_of_getElem? hch₀
  obtain ⟨id, hstarter⟩ := h.starter
  obtain ⟨rfl, hnobody⟩ := hstarter c hc hstage
  have htaken : (x.after env e).taken = [f] := by
    rw [after, hsome, hnobody]
    rfl
  refine h.leads rfl rfl hch hleads ⟨c.id, fun d hd hwaits => ?_⟩ (fun _ => ?_) ?_
  · have hown := (hstarter d (hdeals.awaiting d hd hwaits) hwaits).1
    exact absurd hown (hgone d hd)
  · rw [htaken]
    exact List.cons_ne_nil _ _
  · cases h.phase with
    | unprinted _ _ _ _ hquiet => simp [hfirst] at hquiet
    | untaken hprinted howed _ hbanner =>
      rw [hfirst] at hbanner
      obtain rfl : f = bannerFrame lines := Option.some.inj hbanner
      exact .taken hprinted howed htaken
    | taken _ _ htaken' => simp [hnobody] at htaken'

/-- Callers and the world outside do something. -/
theorem goesOn {env : Surroundings} {e : Session.Event} (h : x.Tuned lines numbers owed printed)
    (apart : ∀ event, e ≠ .channel x.launch event)
    (unsignalled : x.session.Unsignalled env e x.launch) :
    ∃ numbers', (x.after env e).Tuned lines numbers' owed printed := by
  obtain ⟨muted, mutes, hsame⟩ := unsignalled
  have hafter : x.after muted e = x.after env e := by rw [after, hsame, after]
  rw [← hafter]
  cases hgreets : x.session.greeting? x.launch e with
  | none => exact h.goesOn_unread apart mutes hgreets
  | some f => exact h.goesOn_read apart mutes hgreets

/-- A debugger that has just been launched owes its banner, and nothing else. -/
theorem start {s : Session} {id : CallId} (env : Surroundings) (hs : s.Grounded)
    (launching : s.stage? id = some .launching)
    (printable : ∃ chunk, ((Channel.create s.settings.prompt).takeFrames chunk).1 = [lines]) :
    ∃ numbers, (start s env id lines).Tuned lines numbers [] [] := by
  let cleared := { s with outbox := [] }
  let entered := next cleared.entered s.channels.length lines
  have hchannel : entered.channel = (Channel.create s.settings.prompt).startReader :=
    channel_of_getElem? List.getElem?_concat_length
  have hentered : entered.Tuned lines [] [] [] := by
    refine {
      launched := by simp [entered, next, cleared, Session.entered]
      attuned := ?_
      tickets := fun _ he => absurd he List.not_mem_nil
      registered := ?_
      answered := ?_
      starter := ⟨id, fun c hc hstage => absurd (hs.awaiting c hc _ hstage) (Nat.lt_irrefl _)⟩
      watched := fun hmem => absurd (hs.watched _ hmem) (Nat.lt_irrefl _)
      phase := .unprinted rfl rfl rfl rfl ?_ fun _ _ => ?_ }
    · rw [hchannel]
      exact (Channel.Attuned.create s.settings.prompt hs.positive).withReader .empty .running []
    · rw [hchannel]
      exact List.Subset.refl _
    · rw [hchannel]
      intro t f hf
      cases hf
    · rw [hchannel]
      rfl
    · rintro a ⟨rfl⟩
      rw [hchannel]
      exact printable
  have hstart : (Opening.start s env id lines).session = cleared.launched id true := by
    have hstage : cleared.stage? id = some .launching := launching
    show cleared.step env (.launched id true) = _
    rw [Session.step, hstage]
  -- nothing is signalled, so the surroundings do not matter
  obtain ⟨s', hdeals, htraffic, hwatched, hcalls⟩ := Session.Deals.launched_own cleared id
    (Session.inStep (Session.mutes_mute env.now s.channels.length) False)
  obtain ⟨ch, hch, hleads⟩ := hdeals.channel _ (getElem?_channel hentered.launched)
  obtain ⟨hnumber, hchannels⟩ := Prod.mk.inj htraffic
  rw [← hnumber] at hleads
  rw [← hchannels, ← hstart] at hch
  have hlater : (Opening.start s env id lines).channel = ch := channel_of_getElem? hch
  refine hentered.leads rfl rfl hch (hstart ▸ hleads) ⟨id, fun c hc hstage => ?_⟩ (fun hmem => ?_) ?_
  · rw [hstart] at hc
    refine ⟨(hcalls c hc).resolve_left fun hc => ?_, rfl⟩
    exact Nat.lt_irrefl _ (hs.awaiting c (hdeals.awaiting c hc hstage) _ hstage)
  · rw [hstart, hwatched] at hmem
    exact absurd (hs.watched _ ((hdeals.watched hmem).resolve_right not_false)) (Nat.lt_irrefl _)
  · refine hentered.phase.keep rfl rfl rfl (fun _ => ?_) fun hopen => ?_
    · rw [hlater]
      exact hleads.unsolicited.resolve_left not_false
    · rw [hlater]
      exact ⟨by rw [hchannel]; rfl, hleads.buffer, hleads.prompt⟩

/-- Every step keeps what is in step, if nothing is pending before the banner has been printed. -/
theorem step (h : x.Tuned lines numbers owed printed) (hstep : Step may x x')
    (hnone : x.printed = [] → x.channel.pending = []) :
    ∃ numbers' owed' printed', x'.Tuned lines numbers' owed' printed' := by
  have hreceived : ∀ {w}, w ∈ x.channel.writers →
      (w.command.id ∈ x.received ↔ w.command.id ∈ (printed ++ owed).map Answer.id) := fun hw =>
    h.mem_received (h.attuned.given _ (h.attuned.consistent.writing _ hw)).1
  cases hstep with
  | goesOn apart unsignalled =>
    obtain ⟨numbers', h'⟩ := h.goesOn apart unsignalled
    exact ⟨_, _, _, h'⟩
  | beginWrite env serial => exact ⟨_, _, _, h.beginWrite env serial⟩
  | receive lines' writing begun new => exact ⟨_, _, _, h.receive lines' writing begun new⟩
  | endWrite env writing begun known =>
    exact ⟨_, _, _, h.endWrite env (h.attuned.endWrite writing begun ((hreceived writing).1 known))⟩
  | refuse env fault writing begun unknown =>
    have hunknown := mt (hreceived writing).2 unknown
    exact ⟨_, _, _, h.endWrite env (h.attuned.refuse fault writing begun hunknown)⟩
  | print env chunk due canGreet =>
    obtain ⟨owed', printed', h'⟩ := h.print env due canGreet hnone
    exact ⟨_, _, _, h'⟩
  | endOutput env => exact ⟨_, _, _, h.endOutput env⟩
  | failOutput env cause => exact ⟨_, _, _, h.failOutput env cause⟩

/-- If anything is pending when the banner is printed, the banner goes astray. -/
theorem exists_misled (h : x.Tuned lines numbers owed printed) (hprinted : x.printed = [])
    (hpending : x.channel.pending ≠ []) : ∃ x', Step may x x' ∧ ¬x'.Greets lines := by
  let env := Session.calm 0
  have hopen : x.channel.isClosed = false := by
    by_contra hclosed
    exact hpending (h.attuned.consistent.shut (by simpa using hclosed))
  cases h.phase with
  | untaken hbefore | taken hbefore =>
    rw [hprinted] at hbefore
    cases hbefore
  | unprinted _ _ howed hnobody hquiet canGreet =>
    obtain ⟨chunk, hchunk⟩ := canGreet hopen hprinted (banner lines) (by rw [howed]; rfl)
    have hchunk : (x.channel.takeFrames chunk).1 = [lines] := hchunk
    have hafter : (x.print env chunk).printed = [banner lines] := by
      simp [Opening.print, hchunk, hprinted, howed]
    refine ⟨x.print env chunk, .print _ _ ?_ ?_, fun hgreets => ?_⟩
    · rw [hchunk, howed]
      exact List.cons_prefix_cons.2 ⟨rfl, List.nil_prefix⟩
    · intro hunprinted
      rw [hafter] at hunprinted
      cases hunprinted
    · obtain ⟨hchannel, -, -, -, -, htaken⟩ := x.after_channel env (.prints chunk) h.launched
      have hmem := hgreets.waits (by rw [hafter]; nofun) (htaken.trans hnobody)
      have hreact : x.channel.react env.now (.prints chunk) =
          (x.channel.takeFrames chunk).2.emit lines env.now :=
        Channel.feed_of_frames env.now hchunk
      have hlost : (x.print env chunk).channel.unsolicited = x.channel.unsolicited := by
        refine (congrArg Channel.unsolicited (hchannel.trans hreact)).trans ?_
        exact Channel.unsolicited_emit lines env.now hpending
      rw [hlost, hquiet] at hmem
      cases hmem

end Tuned

/-! ## When the banner reaches its start -/

/-- What can come about is in step, if whatever is in step lets nothing be pending before the banner has
been printed. -/
theorem Reachable.tuned {x₀ : Opening} (h : Reachable may x₀ x)
    (hstart : ∃ numbers owed printed, x₀.Tuned lines numbers owed printed)
    (hnone : ∀ {y numbers owed printed}, Reachable may x₀ y → y.Tuned lines numbers owed printed →
      y.printed = [] → y.channel.pending = []) :
    ∃ numbers owed printed, x.Tuned lines numbers owed printed := by
  induction h with
  | refl => exact hstart
  | tail hbefore hstep ih =>
    obtain ⟨_, _, _, htuned⟩ := ih
    exact htuned.step hstep (hnone hbefore htuned)

/-- Whatever callers and the world outside may do: that everything always goes to where it belongs, the
banner to the start that waits for it and its own answer to every command, is the same as that nothing is
ever pending with the debugger before it has printed its banner. -/
theorem greets_iff {s : Session} {id : CallId} (env : Surroundings) (reached : s.Reached)
    (launching : s.stage? id = some .launching)
    (printable : ∃ chunk, ((Channel.create s.settings.prompt).takeFrames chunk).1 = [lines]) :
    (∀ x, Reachable may (start s env id lines) x → x.Greets lines) ↔
      ∀ x, Reachable may (start s env id lines) x → x.printed = [] → x.channel.pending = [] := by
  have hstart : ∃ numbers owed printed,
      (start s env id lines).Tuned lines numbers owed printed := by
    obtain ⟨numbers, htuned⟩ := Tuned.start env reached.grounded launching printable
    exact ⟨numbers, [], [], htuned⟩
  constructor
  · intro hgreets
    have hnone : ∀ {y numbers owed printed}, Reachable may (start s env id lines) y →
        y.Tuned lines numbers owed printed → y.printed = [] → y.channel.pending = [] := by
      intro y numbers owed printed hreach htuned hprinted
      by_contra hpending
      obtain ⟨y', hstep, hastray⟩ : ∃ y', Step may y y' ∧ ¬y'.Greets lines :=
        htuned.exists_misled hprinted hpending
      exact hastray (hgreets y' (hreach.tail hstep))
    intro x hreach
    obtain ⟨_, _, _, htuned⟩ := hreach.tuned hstart hnone
    exact hnone hreach htuned
  · intro hnone x hreach
    obtain ⟨_, _, _, htuned⟩ := hreach.tuned hstart fun hreach _ => hnone _ hreach
    exact htuned.greets

/-! ## A command that comes too early -/

/-- Callers and the world outside may do anything. -/
def anything : Opening → Surroundings → Session.Event → Prop := fun _ _ _ => True

/-- A session that launches its debugger. -/
def launching : Session :=
  (Session.create Settings.default none).after (Session.calm 0) (.call 0 (.start (some "gdb") [] none))

/-- Its debugger has been launched. -/
def launched : Opening := start launching (Session.calm 0) 0 ["GNU gdb"]

/-- Another caller has given a command. -/
def asked : Opening := launched.after (Session.calm 0) (.call 1 (.send "show version" .custom .log))

/-- Its text is being handed to the debugger. -/
def asking : Opening := asked.after (Session.calm 0) (.channel 0 (.writeBegins 0))

/-- The debugger owes the answer after its banner. -/
def heard : Opening := { asking with owed := asking.owed ++ [⟨0, ["GNU gdb (GDB) 12.1"]⟩] }

/-- The debugger has taken the text. -/
def written : Opening := heard.after (Session.calm 0) (.channel 0 (.writeEnds 0 none))

/-- It prints its banner. -/
def greeted : Opening := written.print (Session.calm 0) "GNU gdb\n(gdb) "

/-- It prints its answer. -/
def answered : Opening := greeted.print (Session.calm 1) "GNU gdb (GDB) 12.1\n(gdb) "

/-- The start goes on. -/
def astray : Opening := answered.after (Session.calm 1) (.proceeds 0 1)

theorem reachable_astray : Reachable anything launched astray := by
  have hasked : Step anything launched asked :=
    .goesOn nofun (Session.unsignalled_of_mute 0 rfl) trivial
  have hasking : Step anything asked asking := .beginWrite _ 0
  have hheard : Step anything asking heard :=
    .receive (w := ⟨0, ⟨0, "show version"⟩, true⟩) _ (by decide +kernel) rfl (by decide +kernel)
  have hwritten : Step anything heard written :=
    .endWrite (w := ⟨0, ⟨0, "show version"⟩, true⟩) _ (by decide +kernel) rfl (by decide +kernel)
  have hgreeted : Step anything written greeted :=
    .print _ _ (by decide +kernel) fun h => absurd h (by decide +kernel)
  have hanswered : Step anything greeted answered :=
    .print _ _ (by decide +kernel) fun h => absurd h (by decide +kernel)
  have hastray : Step anything answered astray :=
    .goesOn nofun (Session.unsignalled_of_mute 1 rfl) trivial
  exact Relation.ReflTransGen.single hasked |>.tail hasking |>.tail hheard |>.tail hwritten
    |>.tail hgreeted |>.tail hanswered |>.tail hastray

/-- The command is answered with the banner, and the start takes the command's answer for it. -/
theorem banner_answers_command :
    Reachable anything (start launching (Session.calm 0) 0 ["GNU gdb"]) astray ∧
      (astray.channel.outcome 0 matches .answered ⟨["GNU gdb"], 0, _⟩) ∧
      astray.taken.map Frame.lines = [["GNU gdb (GDB) 12.1"]] ∧ ¬astray.Greets ["GNU gdb"] := by
  have htaken : astray.taken.map Frame.lines = [["GNU gdb (GDB) 12.1"]] := by decide +kernel
  refine ⟨reachable_astray, by decide +kernel, htaken, fun hgreets => ?_⟩
  obtain ⟨f, hf, hlines⟩ : ∃ f ∈ astray.taken, f.lines = ["GNU gdb (GDB) 12.1"] :=
    List.mem_map.1 (htaken ▸ List.mem_singleton_self _)
  rw [hgreets.banner f hf] at hlines
  exact absurd hlines (by decide)

/-- Something is pending before the banner has been printed. -/
theorem greets_iff_launching :
    ¬∀ x, Reachable anything (start launching (Session.calm 0) 0 ["GNU gdb"]) x → x.Greets ["GNU gdb"] := by
  have reached : launching.Reached := (Session.Reached.create _ _).after _ _
  have printable : ∃ chunk,
      ((Channel.create launching.settings.prompt).takeFrames chunk).1 = [["GNU gdb"]] :=
    ⟨"GNU gdb\n(gdb) ", by decide +kernel⟩
  rw [greets_iff (Session.calm 0) reached rfl printable]
  intro hnone
  have hreach : Reachable anything launched asked :=
    .single (.goesOn nofun (Session.unsignalled_of_mute 0 rfl) trivial)
  exact absurd (hnone asked hreach (by decide +kernel)) (by decide +kernel)

end Opening

end DebugConsole
