import DebugConsole.Proofs.Session.Turns

set_option autoImplicit false

/-!
# Sequences of commands

Connecting, loading and disconnecting give the commands of a toolchain one after another, up to the first
that fails, and the ones that a caller has added only if none has failed, whatever becomes of those.
Nothing is given before the connection is prepared, and nothing at all if that has failed.
-/

namespace DebugConsole

/-- What an operation ends with when its sequence of commands has ended. -/
def Goal.result (ok : Bool) : Goal → Result
  | connect executable => .connected ok executable
  | disconnect => .disconnected ok
  | load => .loaded ok

namespace Session

variable {s s' : Session} {env : Surroundings} {e : Event} {id : CallId} {goal : Goal}
  {required optional : List Issue} {rounds : List Round} {next : Next} {given : List Command}
  {answers : List (Except SessionFault Result)} {events : List (Surroundings × Event)}

/-! ## Where the rounds of a sequence lead to -/

/-- The next command of a sequence, or its end. -/
def Next.sequence (goal : Goal) (required optional : List Issue) : Next :=
  match required, optional with
  | i :: required, optional => .issue i (.sequence goal true required optional)
  | [], i :: optional => .issue i (.sequence goal false [] optional)
  | [], [] => .finish (goal.result true)

theorem snd_finishGoal (s : Session) (goal : Goal) (ok : Bool) :
    (s.finishGoal goal ok).2 = .finish (goal.result ok) := by
  cases goal <;> rfl

theorem snd_nextOfSequence (s : Session) (goal : Goal) (required optional : List Issue) :
    (s.nextOfSequence goal required optional).2 = .sequence goal required optional := by
  cases required with
  | cons i required => rfl
  | nil =>
    cases optional with
    | cons i optional => rfl
    | nil => exact s.snd_finishGoal goal true

/-- A command that must succeed and fails ends its sequence; otherwise the sequence goes on. -/
theorem snd_advancePlan_sequence (s : Session) (kind : CommandKind) (goal : Goal) (mustSucceed : Bool)
    (required optional : List Issue) (r : Report) :
    (s.advancePlan kind (.sequence goal mustSucceed required optional) r).2 =
      if mustSucceed && !r.isOk then .finish (goal.result false)
      else .sequence goal required optional := by
  unfold advancePlan
  dsimp only
  split
  · exact s.snd_finishGoal goal false
  · exact s.snd_nextOfSequence goal required optional

/-- The rounds of a sequence, and what comes next.  The commands that must succeed are given in order, up to
the first that fails; once all have succeeded the others are given in order, whatever becomes of them. -/
inductive Ran (goal : Goal) (required optional : List Issue) : List Round → Next → Prop
  /-- the next command must succeed too -/
  | requires {must : List Round} {i : Issue} {rest : List Issue}
      (inOrder : required = must.map Round.issue ++ i :: rest)
      (succeeded : ∀ x ∈ must, x.report.isOk = true) :
      Ran goal required optional must (.issue i (.sequence goal true rest optional))
  /-- a command that must succeed has failed -/
  | fails {must : List Round} {last : Round} {rest : List Issue}
      (inOrder : required = must.map Round.issue ++ last.issue :: rest)
      (succeeded : ∀ x ∈ must, x.report.isOk = true) (failed : last.report.isOk = false) :
      Ran goal required optional (must ++ [last]) (.finish (goal.result false))
  /-- all commands that must succeed have, and there is another one -/
  | goesOn {must may : List Round} {i : Issue} {rest : List Issue} (done : required = must.map Round.issue)
      (inOrder : optional = may.map Round.issue ++ i :: rest)
      (succeeded : ∀ x ∈ must, x.report.isOk = true) :
      Ran goal required optional (must ++ may) (.issue i (.sequence goal false [] rest))
  /-- there are no more commands -/
  | completes {must may : List Round} (done : required = must.map Round.issue)
      (inOrder : optional = may.map Round.issue) (succeeded : ∀ x ∈ must, x.report.isOk = true) :
      Ran goal required optional (must ++ may) (.finish (goal.result true))

namespace Ran

variable {must may : List Round} {x : Round} {rest : List Issue}

/-- All commands that must succeed have. -/
theorem of_succeeded (done : required = must.map Round.issue) (inOrder : optional = may.map Round.issue ++ rest)
    (succeeded : ∀ y ∈ must, y.report.isOk = true) :
    Ran goal required optional (must ++ may) (.sequence goal [] rest) := by
  cases rest with
  | cons i rest => exact .goesOn done inOrder succeeded
  | nil => exact .completes done (inOrder.trans (List.append_nil _)) succeeded

/-- All commands so far have succeeded. -/
theorem of_inOrder (inOrder : required = must.map Round.issue ++ rest)
    (succeeded : ∀ y ∈ must, y.report.isOk = true) :
    Ran goal required optional must (.sequence goal rest optional) := by
  cases rest with
  | cons i rest => exact .requires inOrder succeeded
  | nil =>
    have hoptional : Ran goal required optional (must ++ []) (.sequence goal [] optional) :=
      .of_succeeded (inOrder.trans (List.append_nil _)) rfl succeeded
    rwa [List.append_nil] at hoptional

end Ran

/-- Whatever the rounds of a sequence are, they are given as they must be. -/
theorem Next.Leads.ran (h : (Next.sequence goal required optional).Leads rounds next) :
    Ran goal required optional rounds next := by
  have hsnoc : ∀ (rounds : List Round) (x : Round) (rest : List Issue),
      rounds.map Round.issue ++ x.issue :: rest = (rounds ++ [x]).map Round.issue ++ rest := by
    intro rounds x rest
    rw [List.map_append, List.append_assoc]
    rfl
  induction h with
  | start => exact .of_inOrder (List.nil_append _).symm fun y hy => absurd hy List.not_mem_nil
  | @told rounds plan x s before ih =>
    generalize hi : x.issue = i at ih
    cases ih with
    | requires inOrder succeeded =>
      rw [snd_advancePlan_sequence]
      cases hok : x.report.isOk with
      | false => exact .fails (hi ▸ inOrder) succeeded hok
      | true =>
        rw [← hi, hsnoc] at inOrder
        refine .of_inOrder inOrder fun y hy => ?_
        rcases List.mem_append.1 hy with hy | hy
        · exact succeeded y hy
        · rwa [List.mem_singleton.1 hy]
    | goesOn done inOrder succeeded =>
      rw [snd_advancePlan_sequence, List.append_assoc]
      rw [← hi, hsnoc] at inOrder
      exact .of_succeeded done inOrder succeeded

/-- A sequence of commands that are no signals. -/
theorem isPlain_sequence (h : ∀ i ∈ required ++ optional, i.bySignal = false) :
    (Next.sequence goal required optional).IsPlain := by
  intro rounds i plan leads
  cases leads.ran with
  | requires inOrder => exact h i (by simp [inOrder])
  | goesOn done inOrder => exact h i (by simp [inOrder])

/-! ## Operations that give a sequence -/

/-- An operation begins to give a sequence of commands. -/
def sequence (s : Session) (env : Surroundings) (id : CallId) (goal : Goal)
    (required optional : List Issue) : Session :=
  (s.nextOfSequence goal required optional).1.continuePlan env id
    (s.nextOfSequence goal required optional).2

/-- Whatever commands a toolchain has for a goal, and whatever the caller adds, they are given as they must
be in every run of a session that stays open. -/
theorem fulfils_of_sequence (sound : s.Sound) (hrunning : s.isRunning = true) (env : Surroundings)
    (unanswered : s.answersIn id = []) (plain : ∀ i ∈ required ++ optional, i.bySignal = false)
    (stays : (s.sequence env id goal required optional).StaysOpen events)
    (others : ∀ e ∈ events, e.2.asksFor id = false) :
    ((s.sequence env id goal required optional).afterAll events).Fulfils id (Ran goal required optional)
      ((s.sequence env id goal required optional).givenFrom s.nextId ++
        (s.sequence env id goal required optional).gives id events)
      ((s.sequence env id goal required optional).answersIn id ++
        (s.sequence env id goal required optional).answersTo id events) := by
  have hplain : (Next.sequence goal required optional).IsPlain := isPlain_sequence plain
  have hinward : Inward s (s.nextOfSequence goal required optional).1 := .nextOfSequence
  have hspares : Spares id s (s.nextOfSequence goal required optional).1 := .of_inward hinward
  obtain ⟨k, ch, numbers, hopen⟩ := sound.exists_open hrunning
  have hfirst : (s.sequence env id goal required optional).Sound :=
    (sound.of_inward hinward).continuePlan env id fun _ _ => Acts.within_nextOfSequence
  rw [sequence] at hfirst stays ⊢
  rw [snd_nextOfSequence] at hfirst stays ⊢
  have hbegins := stands_continuePlan (hopen.of_inward hinward) env (hspares.answersIn unanswered) hplain
    .start fun x hx => absurd hx List.not_mem_nil
  rw [hinward.nextId] at hbegins
  exact (hbegins.afterAll hfirst stays hplain others).fulfils (hfirst.afterAll events) hplain env
    fun _ _ leads => leads.ran

/-- So they are when the sequence begins in a step. -/
theorem fulfils_of_after (sound : s.Sound) (hrunning : s.isRunning = true) (own : e.caller? = some id)
    (hinward : Inward { s with outbox := [] } s')
    (hafter : s.after env e = s'.sequence env id goal required optional)
    (plain : ∀ i ∈ required ++ optional, i.bySignal = false)
    (stays : (s.after env e).StaysOpen events)
    (others : ∀ e ∈ events, e.2.asksFor id = false) :
    ((s.after env e).afterAll events).Fulfils id (Ran goal required optional)
      (s.gives id ((env, e) :: events)) (s.answersTo id ((env, e) :: events)) := by
  have hplain : (Next.sequence goal required optional).IsPlain := isPlain_sequence plain
  rw [sequence, snd_nextOfSequence] at hafter
  have hbegins := Stands.of_continuePlan sound hrunning hplain own (hinward.trans .nextOfSequence) hafter
    .start fun x hx => absurd hx List.not_mem_nil
  exact (hbegins.afterAll (sound.after env e) stays hplain others).fulfils
    ((sound.after env e).afterAll events) hplain env fun _ _ leads => leads.ran

end Session

end DebugConsole
