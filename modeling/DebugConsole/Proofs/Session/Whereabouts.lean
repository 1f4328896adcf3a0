import DebugConsole.Proofs.Session.Upkeep

set_option autoImplicit false

/-!
# Where a breakpoint number is

A number that the debugger has confirmed for a file is carried along by the operation that sets the
breakpoint, and on the table once that has ended.  Another operation for the file carries it along, to
have it deleted, and forgets it as soon as its delete command has ended, in whatever way.
`Session.Passage` says what one step does with a number, as long as the session is not disconnected:
the number stays in one place, and it is lost if a delete command for it ends, or if an operation that
has set breakpoints of its file ends while it is on the table.
-/

namespace DebugConsole

/-! ## Numbers and their texts -/

section Entries

variable {α β : Type} [BEq α] [LawfulBEq α]

/-- A key that was removed is not found. -/
theorem lookup_unassign (entries : List (α × β)) (key : α) :
    (unassign entries key).lookup key = none := by
  rw [List.lookup_eq_none_iff]
  intro e he
  simpa using Ne.symm (mem_unassign.1 he).2

/-- Setting a key leaves what the others are looked up as. -/
theorem lookup_assign_of_ne {entries : List (α × β)} {a b : α} (value : β) (hne : b ≠ a) :
    (assign entries a value).lookup b = entries.lookup b := by
  have hmap : (entries.map fun e => if e.1 == a then (a, value) else e).lookup b =
      entries.lookup b := by
    induction entries with
    | nil => rfl
    | cons e entries ih =>
      obtain ⟨key, v⟩ := e
      by_cases hkey : key = a
      · subst hkey
        simpa [List.lookup_cons, beq_false_of_ne hne] using ih
      · simp [List.lookup_cons, hkey, ih]
  unfold assign
  split
  · exact hmap
  · simp [List.lookup_append, List.lookup_cons, beq_false_of_ne hne]

end Entries

/-- The digits of a number are no blanks, and there are some. -/
theorem toList_decimal (n : Nat) : (Numeral.decimal (n : Int)).toList = Nat.toDigits 10 n := by
  show (Nat.repr n).toList = _
  exact Nat.toList_repr

/-- The text of a delete command tells which numbers it names. -/
theorem removalText_injective {numbers numbers' : List Nat}
    (h : removalText (numbers.map Int.ofNat) = removalText (numbers'.map Int.ofNat)) :
    numbers = numbers' := by
  let digits : List Nat → List (List Char) := List.map (Nat.toDigits 10)
  have htoList : ∀ numbers : List Nat,
      (" ".intercalate ((numbers.map Int.ofNat).map Numeral.decimal)).toList =
        [' '].intercalate (digits numbers) := by
    intro numbers
    rw [String.toList_intercalate]
    congr 1
    simp [digits, Function.comp_def, toList_decimal]
  have hnoBlank : ∀ (numbers : List Nat), ∀ l ∈ digits numbers, ' ' ∉ l := by
    intro numbers l hl hblank
    obtain ⟨n, -, rfl⟩ := List.mem_map.1 hl
    have hdigit := Nat.isDigit_of_mem_toDigits (by decide) (by decide) hblank
    revert hdigit
    decide
  have hread : ∀ (numbers : List Nat), numbers ≠ [] →
      ([' '].intercalate (digits numbers)).splitOn ' ' = digits numbers := fun numbers hne =>
    List.splitOn_intercalate ' ' (hnoBlank numbers) (by simpa [digits] using hne)
  have hsame : [' '].intercalate (digits numbers) = [' '].intercalate (digits numbers') := by
    unfold removalText at h
    rw [← htoList, ← htoList, (String.append_right_inj _).1 h]
  have hsome : ∀ numbers : List Nat, [' '].intercalate (digits numbers) = [] → numbers = [] := by
    intro numbers hnil
    by_contra hne
    have hdigits := hread numbers hne
    rw [hnil] at hdigits
    obtain ⟨n, rest, rfl⟩ := List.exists_cons_of_ne_nil hne
    exact Nat.toDigits_ne_nil (List.cons.inj hdigits.symm).1
  by_cases hnil : numbers = []
  · subst hnil
    exact (hsome numbers' hsame.symm).symm
  · have hnil' : numbers' ≠ [] := by
      rintro rfl
      exact hnil (hsome numbers hsame)
    have hdigits : digits numbers = digits numbers' := by
      rw [← hread numbers hnil, ← hread numbers' hnil', hsame]
    refine List.map_injective_iff.2 (fun a b hab => ?_) hdigits
    rw [← Nat.ofDigitChars_ten_toDigits (n := a), ← Nat.ofDigitChars_ten_toDigits (n := b), hab]

theorem names_removalText {numbers : List Nat} {n : Nat} :
    Names (removalText (numbers.map Int.ofNat)) n ↔ n ∈ numbers := by
  constructor
  · rintro ⟨numbers', htext, hn⟩
    rwa [removalText_injective htext]
  · exact fun hn => ⟨numbers, rfl, hn⟩

/-- The numbers that a table holds for a file. -/
def numbersIn (table : List (String × List Nat)) (file : String) : List Nat :=
  (table.lookup file).getD []

section NumbersIn

variable {table : List (String × List Nat)} {a b : String} {numbers : List Nat}

@[simp] theorem numbersIn_unassign : numbersIn (unassign table a) a = [] := by
  rw [numbersIn, lookup_unassign, Option.getD_none]

theorem numbersIn_unassign_of_ne (hne : b ≠ a) :
    numbersIn (unassign table a) b = numbersIn table b := by
  rw [numbersIn, lookup_unassign_of_ne hne, numbersIn]

@[simp] theorem numbersIn_assign : numbersIn (assign table a numbers) a = numbers := by
  rw [numbersIn, lookup_assign, Option.getD_some]

theorem numbersIn_assign_of_ne (hne : b ≠ a) :
    numbersIn (assign table a numbers) b = numbersIn table b := by
  rw [numbersIn, lookup_assign_of_ne _ hne, numbersIn]

end NumbersIn

namespace Stage

/-- The file whose breakpoints an operation sets. -/
def file? : Stage → Option String
  | .awaitingReply _ _ _ (.clear file _) | .awaitingReply _ _ _ (.place file ..) => some file
  | _ => none

/-- Does an operation carry a number of a file along, to have it deleted or to keep it? -/
def Carries (file : String) (n : Nat) : Stage → Prop
  | .awaitingReply _ _ i (.clear f _) => f = file ∧ Names i.text n
  | .awaitingReply _ _ _ (.place f _ confirmed _) => f = file ∧ n ∈ confirmed.map (·.number)
  | _ => False

theorem Carries.file?_eq {file : String} {n : Nat} {stage : Stage} (h : stage.Carries file n) :
    stage.file? = some file := by
  unfold Carries at h
  split at h
  · rw [← h.1]
    rfl
  · rw [← h.1]
    rfl
  · exact h.elim

end Stage

namespace Session

variable {s s' : Session} {env : Surroundings} {e : Event} {id : CallId} {k : LaunchId}
  {own : List Call} {table table' : List (String × List Nat)} {file f : String}
  {confirmed : List Breakpoint} {n : Nat} {events : List (Surroundings × Event)}

/-! ## Where a number is -/

/-- Does the operation with a number carry a breakpoint's number along? -/
def Carrying (s : Session) (id : CallId) (file : String) (n : Nat) : Prop :=
  ∃ c ∈ s.calls, c.id = id ∧ c.stage.Carries file n

/-- A number is on the table, or an operation carries it along. -/
def Retains (s : Session) (file : String) (n : Nat) : Prop :=
  n ∈ s.breakpointNumbers file ∨ ∃ id, s.Carrying id file n

/-- Does an operation end in a step that has set the breakpoints of a file? -/
def Returns (s s' : Session) (file : String) : Prop :=
  ∃ c ∈ s.calls, c.stage.file? = some file ∧ c.id ∉ s'.calls.map Call.id

/-- Does an operation that has set the breakpoints of a file end while a number is on the table? -/
def Overwrites (s s' : Session) (file : String) (n : Nat) : Prop :=
  n ∈ s.breakpointNumbers file ∧ Returns s s' file

/-- No delete command ends in a step that covers a number. -/
def Undeleted (s : Session) (e : Event) (file : String) (n : Nat) : Prop :=
  ∀ d, s.deletion? e = some d → ¬d.Covers file n

/-- What the step of an operation that sets breakpoints does with a number that is not confirmed in
it. -/
inductive Passage (s s' : Session) (e : Event) (id : CallId) (file : String) (n : Nat) : Prop
  | stays (carried : s'.Carrying id file n ↔ s.Carrying id file n)
      (listed : n ∈ s'.breakpointNumbers file ↔ n ∈ s.breakpointNumbers file)
      (undeleted : s.Undeleted e file n) (returns : ¬Returns s s' file)
  /-- it is taken off the table, to be deleted -/
  | taken (new : ¬s.Carrying id file n)
      (carried : s'.Carrying id file n ↔ n ∈ s.breakpointNumbers file)
      (listed : n ∉ s'.breakpointNumbers file) (undeleted : s.Undeleted e file n)
      (returns : ¬Returns s s' file)
  /-- it is taken off the table, and no debugger is there to delete it -/
  | refused (new : ¬s.Carrying id file n) (carried : ¬s'.Carrying id file n)
      (listed : n ∉ s'.breakpointNumbers file) (returns : ¬Returns s s' file)
      (undeleted : s.Undeleted e file n ↔ n ∉ s.breakpointNumbers file)
  /-- the command that was to delete it has ended -/
  | deleted (carried : ¬s'.Carrying id file n)
      (listed : n ∈ s'.breakpointNumbers file ↔
        n ∈ s.breakpointNumbers file ∧ ¬Returns s s' file)
      (undeleted : s.Undeleted e file n ↔ ¬s.Carrying id file n)
  /-- it is put on the table in place of what is there -/
  | kept (carried : ¬s'.Carrying id file n)
      (listed : n ∈ s'.breakpointNumbers file ↔ s.Carrying id file n)
      (undeleted : s.Undeleted e file n) (returns : Returns s s' file)

theorem undeleted_of_none (h : s.deletion? e = none) : s.Undeleted e file n := by
  intro d hd
  rw [h] at hd
  cases hd

/-- A delete command for the numbers of a file covers those of no other. -/
theorem undeleted_of_ne {text : String} {ok : Bool} (h : s.deletion? e = some ⟨some f, text, ok⟩)
    (hne : f ≠ file) : s.Undeleted e file n := by
  intro d hd
  rw [h] at hd
  cases hd
  rintro (hnone | ⟨hsame, -⟩)
  · cases hnone
  · exact hne (Option.some.inj hsame)

/-- A delete command for the numbers of a file covers those that it names. -/
theorem undeleted_iff {text : String} {ok : Bool} (h : s.deletion? e = some ⟨some file, text, ok⟩) :
    s.Undeleted e file n ↔ ¬Names text n := by
  constructor
  · exact fun hundeleted hnames => hundeleted _ h (Or.inr ⟨rfl, hnames⟩)
  · intro hnames d hd
    rw [h] at hd
    cases hd
    rintro (hnone | ⟨-, hnamed⟩)
    · cases hnone
    · exact hnames hnamed

theorem Placed.of_ne (h : Placed k table f confirmed own table') (hne : f ≠ file) :
    numbersIn table' file = numbersIn table file ∧ ∀ c ∈ own, ¬c.stage.Carries file n := by
  cases h with
  | waits stage =>
    refine ⟨rfl, fun c hc hcarries => hne ?_⟩
    rw [List.mem_singleton.1 hc, stage] at hcarries
    exact hcarries.1
  | ends => exact ⟨numbersIn_assign_of_ne hne.symm, fun _ hc => absurd hc List.not_mem_nil⟩

/-- The numbers that were confirmed are carried along by the operation, or on the table once it has
ended. -/
theorem Placed.cases (h : Placed k table file confirmed own table') (n : Nat) :
    (table' = table ∧ ∃ c, own = [c] ∧
        (c.stage.Carries file n ↔ n ∈ confirmed.map (·.number))) ∨
      (own = [] ∧ numbersIn table' file = confirmed.map (·.number)) := by
  cases h with
  | @waits c _ _ _ _ stage =>
    refine Or.inl ⟨rfl, c, rfl, ?_⟩
    rw [stage]
    exact ⟨And.right, fun hn => ⟨rfl, hn⟩⟩
  | ends => exact Or.inr ⟨rfl, numbersIn_assign⟩

namespace Goes

/-- The other operations carry what they have carried. -/
theorem carrying_of_ne (h : Goes id s s' own table) {j : CallId} (hne : j ≠ id) :
    s'.Carrying j file n ↔ s.Carrying j file n := by
  unfold Carrying
  rw [h.calls]
  constructor
  · rintro ⟨c, hc, hid, hcarries⟩
    rcases List.mem_append.1 hc with hc | hc
    · exact ⟨c, (List.mem_filter.1 hc).1, hid, hcarries⟩
    · exact absurd (hid.symm.trans (h.ids c hc)) hne
  · rintro ⟨c, hc, hid, hcarries⟩
    refine ⟨c, List.mem_append_left _ (List.mem_filter.2 ⟨hc, ?_⟩), hid, hcarries⟩
    simpa [hid] using hne

theorem carrying_iff (h : Goes id s s' own table) :
    s'.Carrying id file n ↔ ∃ c ∈ own, c.stage.Carries file n := by
  unfold Carrying
  rw [h.calls]
  constructor
  · rintro ⟨c, hc, hid, hcarries⟩
    rcases List.mem_append.1 hc with hc | hc
    · simp [hid] at hc
    · exact ⟨c, hc, hcarries⟩
  · rintro ⟨c, hc, hcarries⟩
    exact ⟨c, List.mem_append_right _ hc, h.ids c hc, hcarries⟩

theorem mem_numbers_iff (h : Goes id s s' own table) :
    n ∈ s'.breakpointNumbers file ↔ n ∈ numbersIn table file := by
  rw [← h.kept]
  rfl

/-- Only the operation itself may end. -/
theorem returns_iff (h : Goes id s s' own table) :
    Returns s s' file ↔ own = [] ∧ ∃ c ∈ s.calls, c.id = id ∧ c.stage.file? = some file := by
  constructor
  · rintro ⟨c, hc, hfile, hgone⟩
    rw [h.calls, List.map_append, List.mem_append, not_or] at hgone
    have hid : c.id = id := by
      by_contra hne
      exact hgone.1 (List.mem_map_of_mem (List.mem_filter.2 ⟨hc, by simpa using hne⟩))
    refine ⟨List.eq_nil_iff_forall_not_mem.2 fun d hd => hgone.2 ?_, c, hc, hid, hfile⟩
    rw [hid, ← h.ids d hd]
    exact List.mem_map_of_mem hd
  · rintro ⟨rfl, c, hc, rfl, hfile⟩
    refine ⟨c, hc, hfile, ?_⟩
    rw [h.calls, List.append_nil]
    simp

/-- An operation that has nothing to do with a number leaves it where it is. -/
theorem passes (h : Goes id s s' own table) (hbefore : ¬s.Carrying id file n)
    (hafter : ∀ c ∈ own, ¬c.stage.Carries file n)
    (hlisted : numbersIn table file = s.breakpointNumbers file) (hundeleted : s.Undeleted e file n)
    (hreturns : ¬Returns s s' file) : Passage s s' e id file n := by
  refine .stays (iff_of_false ?_ hbefore) ?_ hundeleted hreturns
  · rw [h.carrying_iff]
    exact fun ⟨c, hc, hcarries⟩ => hafter c hc hcarries
  · rw [h.mem_numbers_iff, hlisted]

end Goes

namespace Upkeep

/-- An operation is found by its number. -/
theorem carrying_iff (h : Upkeep k s) {c : Call} (hc : c ∈ s.calls) :
    s.Carrying c.id file n ↔ c.stage.Carries file n := by
  constructor
  · rintro ⟨d, hd, hid, hcarries⟩
    rwa [List.inj_on_of_nodup_map h.nodup hd hc hid] at hcarries
  · exact fun hcarries => ⟨c, hc, rfl, hcarries⟩

theorem returns_iff (h : Upkeep k s) {c : Call} (hc : c ∈ s.calls) (hgoes : Goes c.id s s' own table) :
    Returns s s' file ↔ own = [] ∧ c.stage.file? = some file := by
  rw [hgoes.returns_iff]
  refine and_congr_right fun _ => ⟨?_, fun hfile => ⟨c, hc, rfl, hfile⟩⟩
  rintro ⟨d, hd, hid, hfile⟩
  rwa [List.inj_on_of_nodup_map h.nodup hd hc hid] at hfile

/-- An operation that is asked for carries nothing yet. -/
theorem not_carrying_of_new {requests : List BreakpointRequest}
    (he : s.isUpkeep (.call id (.setBreakpoints f requests)) = true) (file : String) (n : Nat) :
    ¬s.Carrying id file n ∧ ∀ c ∈ s.calls, c.id ≠ id := by
  have hnew : ∀ c ∈ s.calls, c.id ≠ id := by
    intro c hc
    have hnone : s.call? id = none := Option.isNone_iff_eq_none.1 he
    simpa using List.find?_eq_none.1 hnone c hc
  exact ⟨fun ⟨c, hc, hid, _⟩ => hnew c hc hid, hnew⟩

/-- What becomes of a number when the delete command of some file has ended. -/
theorem passage_cleared (h : Upkeep k s) {c : Call} {t : Ticket} {i : Issue}
    {requests : List BreakpointRequest} {ok : Bool} (hc : c ∈ s.calls)
    (hstage : c.stage = .awaitingReply k t i (.clear f requests))
    (hgoes : Goes c.id s s' own table) (hplaced : Placed k s.breakpoints f [] own table)
    (hdeletes : s.deletion? e = some ⟨some f, i.text, ok⟩) : Passage s s' e c.id file n := by
  have hcarried : s.Carrying c.id file n ↔ f = file ∧ Names i.text n := by
    rw [h.carrying_iff hc, hstage]
    rfl
  have hreturns : Returns s s' file ↔ own = [] ∧ f = file := by
    rw [h.returns_iff hc hgoes, hstage]
    exact and_congr_right fun _ => Option.some_inj
  by_cases hf : f = file
  · subst hf
    have hundeleted : s.Undeleted e f n ↔ ¬s.Carrying c.id f n := by
      rw [undeleted_iff hdeletes, hcarried, and_iff_right rfl]
    rcases hplaced.cases n with ⟨rfl, c', rfl, hcarries⟩ | ⟨rfl, hlisted⟩
    · refine .deleted (by simp [hgoes.carrying_iff, hcarries]) ?_ hundeleted
      rw [hgoes.mem_numbers_iff, hreturns]
      simp [breakpointNumbers, numbersIn]
    · refine .deleted (by simp [hgoes.carrying_iff]) ?_ hundeleted
      rw [hgoes.mem_numbers_iff, hlisted, hreturns]
      simp
  · obtain ⟨hlisted, hcarries⟩ := hplaced.of_ne (n := n) hf
    exact hgoes.passes (fun hboth => hf (hcarried.1 hboth).1) hcarries hlisted
      (undeleted_of_ne hdeletes hf) fun hreturned => hf (hreturns.1 hreturned).2

/-- What becomes of a number when setting a breakpoint in some file has ended. -/
theorem passage_placed (h : Upkeep k s) {c : Call} {t : Ticket} {i : Issue}
    {condition : Option String} {rest : List BreakpointRequest} {new : Option Breakpoint}
    (hc : c ∈ s.calls) (hstage : c.stage = .awaitingReply k t i (.place f condition confirmed rest))
    (hgoes : Goes c.id s s' own table)
    (hplaced : Placed k s.breakpoints f (confirmed ++ new.toList) own table)
    (hother : f = file → ∀ b, new = some b → b.number ≠ n) (hdeletes : s.deletion? e = none) :
    Passage s s' e c.id file n := by
  have hcarried : s.Carrying c.id file n ↔ f = file ∧ n ∈ confirmed.map (·.number) := by
    rw [h.carrying_iff hc, hstage]
    rfl
  have hreturns : Returns s s' file ↔ own = [] ∧ f = file := by
    rw [h.returns_iff hc hgoes, hstage]
    exact and_congr_right fun _ => Option.some_inj
  have hundeleted : s.Undeleted e file n := undeleted_of_none hdeletes
  by_cases hf : f = file
  · subst hf
    have hconfirmed : n ∈ (confirmed ++ new.toList).map (·.number) ↔ s.Carrying c.id f n := by
      rw [hcarried, and_iff_right rfl, List.map_append, List.mem_append, or_iff_left]
      intro hnew
      obtain ⟨b, hb, hn⟩ := List.mem_map.1 hnew
      exact hother rfl b (Option.mem_toList.1 hb) hn
    rcases hplaced.cases n with ⟨rfl, c', rfl, hcarries⟩ | ⟨rfl, hlisted⟩
    · refine .stays ?_ hgoes.mem_numbers_iff hundeleted fun hreturned =>
        absurd (hreturns.1 hreturned).1 (List.cons_ne_nil _ _)
      rw [hgoes.carrying_iff, ← hconfirmed, ← hcarries]
      simp
    · refine .kept (by simp [hgoes.carrying_iff]) ?_ hundeleted (hreturns.2 ⟨rfl, rfl⟩)
      rw [hgoes.mem_numbers_iff, hlisted, hconfirmed]
  · obtain ⟨hlisted, hcarries⟩ := hplaced.of_ne (n := n) hf
    exact hgoes.passes (fun hboth => hf (hcarried.1 hboth).1) hcarries hlisted hundeleted
      fun hreturned => hf (hreturns.1 hreturned).2

/-- A number that is not confirmed in a step is moved by one operation at most. -/
theorem passage (h : Upkeep k s) (hchange : Change k s s' e) (he : s.isUpkeep e = true)
    (hstays : ∀ id, e ≠ .call id .disconnect) (hsets : ∀ c ∈ s.calls, c.stage.file?.isSome)
    (hassigns : s.assignment? e ≠ some ⟨file, n, k⟩) :
    ∃ id, (∀ j, j ≠ id → (s'.Carrying j file n ↔ s.Carrying j file n)) ∧
      Passage s s' e id file n := by
  cases hchange with
  | rests current launches calls kept assigns deletes =>
    have hsame : ∀ j, s'.Carrying j file n ↔ s.Carrying j file n := by
      intro j
      rw [Carrying, Carrying, calls]
    refine ⟨0, fun j _ => hsame j, .stays (hsame 0) ?_ (undeleted_of_none deletes) ?_⟩
    · rw [breakpointNumbers, breakpointNumbers, kept]
    · rintro ⟨c, hc, -, hgone⟩
      exact hgone (calls ▸ List.mem_map_of_mem hc)
  | @clears id f requests c t i goes stage text deletes =>
    obtain ⟨hnew, -⟩ := not_carrying_of_new he file n
    have hreturns : ¬Returns s s' file := fun hreturns =>
      absurd (goes.returns_iff.1 hreturns).1 (List.cons_ne_nil _ _)
    have hcarries : c.stage.Carries file n ↔ f = file ∧ n ∈ s.breakpointNumbers f := by
      rw [stage, ← names_removalText, ← text]
      rfl
    refine ⟨id, fun j hne => goes.carrying_of_ne hne, ?_⟩
    by_cases hf : f = file
    · subst hf
      refine .taken hnew ?_ ?_ (undeleted_of_none deletes) hreturns
      · simp [goes.carrying_iff, hcarries]
      · simp [goes.mem_numbers_iff]
    · refine goes.passes hnew (fun c' hc' => ?_) (numbersIn_unassign_of_ne (Ne.symm hf))
        (undeleted_of_none deletes) hreturns
      rw [List.mem_singleton.1 hc', hcarries]
      exact fun hboth => hf hboth.1
  | @sets id f requests own table goes placed deletes =>
    obtain ⟨hnew, hunused⟩ := not_carrying_of_new he file n
    have hreturns : ¬Returns s s' file := by
      rw [goes.returns_iff]
      exact fun ⟨_, c, hc, hid, _⟩ => hunused c hc hid
    refine ⟨id, fun j hne => goes.carrying_of_ne hne, ?_⟩
    by_cases hf : f = file
    · subst hf
      have hgone : ¬s'.Carrying id f n ∧ n ∉ s'.breakpointNumbers f := by
        rw [goes.carrying_iff, goes.mem_numbers_iff]
        rcases placed.cases n with ⟨rfl, c, rfl, hcarries⟩ | ⟨rfl, hlisted⟩
        · simp [hcarries]
        · simp [hlisted]
      rcases deletes with ⟨hnone, hdeletes⟩ | hdeletes
      · exact .stays (iff_of_false hgone.1 hnew) (iff_of_false hgone.2 (by simp [hnone]))
          (undeleted_of_none hdeletes) hreturns
      · refine .refused hnew hgone.1 hgone.2 hreturns ?_
        rw [undeleted_iff hdeletes, names_removalText]
    · obtain ⟨hlisted, hcarries⟩ := placed.of_ne (n := n) hf
      refine goes.passes hnew hcarries (hlisted.trans (numbersIn_unassign_of_ne (Ne.symm hf))) ?_
        hreturns
      exact deletes.elim (fun hdeletes => undeleted_of_none hdeletes.2) fun hdeletes =>
        undeleted_of_ne hdeletes hf
  | cleared mem stage goes placed _ deletes =>
    obtain ⟨ok, hdeletes⟩ := deletes
    exact ⟨_, fun j hne => goes.carrying_of_ne hne, h.passage_cleared mem stage goes placed hdeletes⟩
  | placed mem stage goes new placed assigns deletes =>
    refine ⟨_, fun j hne => goes.carrying_of_ne hne,
      h.passage_placed mem stage goes placed ?_ deletes⟩
    rintro rfl b rfl rfl
    exact hassigns assigns
  | leaves | gone => exact absurd rfl (hstays _)
  | leaving mem stage | left mem stage =>
    have hsome := hsets _ mem
    rw [stage] at hsome
    cases hsome

end Upkeep

/-! ## One number in one place -/

/-- A number is carried along by one operation at most, and by none while it is on the table. -/
structure Sole (s : Session) (file : String) (n : Nat) : Prop where
  apart : n ∈ s.breakpointNumbers file → ∀ id, ¬s.Carrying id file n
  one : ∀ i j, s.Carrying i file n → s.Carrying j file n → i = j

theorem Sole.of_not_retains (h : ¬s.Retains file n) : s.Sole file n where
  apart := fun hlisted => absurd (Or.inl hlisted) h
  one := fun i _ hcarried => absurd (Or.inr ⟨i, hcarried⟩) h

/-- A number stays in one place. -/
theorem Passage.sole (h : Passage s s' e id file n) (hsole : s.Sole file n)
    (hothers : ∀ j, j ≠ id → (s'.Carrying j file n ↔ s.Carrying j file n)) : s'.Sole file n := by
  have hother : ∀ {j}, ¬s'.Carrying id file n → s'.Carrying j file n → s.Carrying j file n := by
    intro j hnot hcarried
    refine (hothers j ?_).1 hcarried
    rintro rfl
    exact hnot hcarried
  cases h with
  | stays carried listed =>
    have hsame : ∀ j, s'.Carrying j file n ↔ s.Carrying j file n := by
      intro j
      by_cases hj : j = id
      · exact hj ▸ carried
      · exact hothers j hj
    exact ⟨fun h j hc => hsole.apart (listed.1 h) j ((hsame j).1 hc),
      fun i j hi hj => hsole.one i j ((hsame i).1 hi) ((hsame j).1 hj)⟩
  | taken new carried listed =>
    refine ⟨fun h => absurd h listed, fun i j hi hj => ?_⟩
    by_cases hlisted : n ∈ s.breakpointNumbers file
    · have hid : ∀ j, s'.Carrying j file n → j = id := by
        intro j hcarried
        by_contra hne
        exact hsole.apart hlisted j ((hothers j hne).1 hcarried)
      rw [hid i hi, hid j hj]
    · have hnot := fun hcarried => hlisted (carried.1 hcarried)
      exact hsole.one i j (hother hnot hi) (hother hnot hj)
  | refused new carried listed =>
    exact ⟨fun h => absurd h listed, fun i j hi hj => hsole.one i j (hother carried hi) (hother carried hj)⟩
  | deleted carried listed =>
    exact ⟨fun h j hj => hsole.apart (listed.1 h).1 j (hother carried hj),
      fun i j hi hj => hsole.one i j (hother carried hi) (hother carried hj)⟩
  | kept carried listed =>
    refine ⟨fun h j hj => carried ?_, fun i j hi hj => hsole.one i j (hother carried hi) (hother carried hj)⟩
    rwa [← hsole.one j id (hother carried hj) (listed.1 h)]

/-- A number is lost when a delete command for it has ended, or when another operation that has set
breakpoints of its file ends while it is on the table. -/
theorem Passage.retains_iff (h : Passage s s' e id file n) (hsole : s.Sole file n)
    (hothers : ∀ j, j ≠ id → (s'.Carrying j file n ↔ s.Carrying j file n)) :
    s'.Retains file n ↔ s.Retains file n ∧ s.Undeleted e file n ∧ ¬Overwrites s s' file n := by
  have hsplit : ∀ s : Session, (∃ j, s.Carrying j file n) ↔
      s.Carrying id file n ∨ ∃ j, j ≠ id ∧ s.Carrying j file n := by
    intro s
    constructor
    · rintro ⟨j, hj⟩
      by_cases hne : j = id
      · exact Or.inl (hne ▸ hj)
      · exact Or.inr ⟨j, hne, hj⟩
    · rintro (hj | ⟨j, -, hj⟩)
      · exact ⟨id, hj⟩
      · exact ⟨j, hj⟩
  have hrest : (∃ j, j ≠ id ∧ s'.Carrying j file n) ↔ ∃ j, j ≠ id ∧ s.Carrying j file n :=
    exists_congr fun j => and_congr_right (hothers j)
  have happart : n ∈ s.breakpointNumbers file → ¬s.Carrying id file n ∧
      ¬∃ j, j ≠ id ∧ s.Carrying j file n := fun hlisted =>
    ⟨hsole.apart hlisted id, fun ⟨j, _, hj⟩ => hsole.apart hlisted j hj⟩
  have hone : s.Carrying id file n → ¬∃ j, j ≠ id ∧ s.Carrying j file n :=
    fun hid ⟨j, hne, hj⟩ => hne (hsole.one j id hj hid)
  unfold Retains Overwrites
  rw [hsplit, hsplit, hrest]
  generalize (∃ j, j ≠ id ∧ s.Carrying j file n) = elsewhere at *
  cases h with
  | stays carried listed undeleted returns => simp [carried, listed, undeleted, returns]
  | taken new carried listed undeleted returns => simp [new, carried, listed, undeleted, returns]
  | refused new carried listed returns undeleted =>
    simp only [new, carried, listed, returns, undeleted]
    tauto
  | deleted carried listed undeleted =>
    simp only [carried, listed, undeleted]
    tauto
  | kept carried listed undeleted returns =>
    simp only [carried, listed, undeleted, returns]
    tauto

/-- A number that is confirmed is carried along by its operation, or kept as that ends. -/
theorem Change.confirms (hchange : Change k s s' e) (hassigns : s.assignment? e = some ⟨file, n, k⟩) :
    ∃ c ∈ s.calls, ∃ own table confirmed, Goes c.id s s' own table ∧
      Placed k s.breakpoints file confirmed own table ∧ n ∈ confirmed.map (·.number) := by
  have hnothing : s.assignment? e ≠ none := by simp [hassigns]
  cases hchange with
  | rests _ _ _ _ assigns | cleared _ _ _ _ assigns | leaving _ _ _ _ _ _ assigns
  | left _ _ _ assigns => exact absurd assigns hnothing
  | clears | sets | leaves | gone => exact absurd rfl hnothing
  | placed mem stage goes new placed assigns =>
    rw [hassigns] at assigns
    obtain ⟨b, rfl, hb⟩ := Option.map_eq_some_iff.1 assigns.symm
    cases hb
    exact ⟨_, mem, _, _, _, goes, placed, by simp⟩

/-- A number that is confirmed is in one place, if it was in none. -/
theorem Change.retains (hchange : Change k s s' e)
    (hassigns : s.assignment? e = some ⟨file, n, k⟩) :
    s'.Retains file n ∧ (¬s.Retains file n → s'.Sole file n) := by
  obtain ⟨c, -, own, table, confirmed, hgoes, hplaced, hn⟩ := hchange.confirms hassigns
  have hothers : ¬s.Retains file n → ∀ j, s'.Carrying j file n → j = c.id := by
    intro hnot j hcarried
    by_contra hne
    exact hnot (Or.inr ⟨j, (hgoes.carrying_of_ne hne).1 hcarried⟩)
  rcases hplaced.cases n with ⟨rfl, c', rfl, hcarries⟩ | ⟨rfl, hlisted⟩
  · refine ⟨Or.inr ⟨c.id, hgoes.carrying_iff.2 ⟨c', List.mem_singleton_self _, hcarries.2 hn⟩⟩,
      fun hnot => ⟨fun hlisted => ?_, fun i j hi hj => ?_⟩⟩
    · exact absurd (Or.inl (hgoes.mem_numbers_iff.1 hlisted)) hnot
    · rw [hothers hnot i hi, hothers hnot j hj]
  · refine ⟨Or.inl (hgoes.mem_numbers_iff.2 (hlisted ▸ hn)), fun hnot => ?_⟩
    have hnone : ∀ j, ¬s'.Carrying j file n := by
      intro j hcarried
      obtain rfl := hothers hnot j hcarried
      obtain ⟨d, hd, -⟩ := hgoes.carrying_iff.1 hcarried
      cases hd
    exact ⟨fun _ => hnone, fun i _ hi => absurd hi (hnone i)⟩

end Session

end DebugConsole
