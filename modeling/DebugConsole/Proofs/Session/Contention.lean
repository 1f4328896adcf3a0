import DebugConsole.Proofs.Session.Retention

set_option autoImplicit false

/-!
# Operations that set the breakpoints of one file at the same time

Operations that set breakpoints may overlap in any way.  A number that has been confirmed is then in one
place, carried along by an operation or on the table, until a delete command for it has ended; or it is
lost: an operation puts its own numbers in place of what is on the table when it ends, also those that
another operation has put there after it had looked (`Overwritten`).  There is no other way to lose one
(`listed_or_covered_iff`).

Nothing is said about how many operations deal with the file at a time.  What each of them does to the one
number is enough, whatever the others carry.
-/

namespace DebugConsole

namespace Session

variable {s s' : Session} {env : Surroundings} {e : Event} {id : CallId} {k : LaunchId}
  {file : String} {n : Nat} {events : List (Surroundings × Event)}

/-- Is nothing asked for but to set the breakpoints of a file, under a number of its own? -/
def isSetting (s : Session) (e : Event) : Bool :=
  s.isUpkeep e &&
    match e with
    | .call _ .disconnect => false
    | _ => true

/-- Does an operation that has set the breakpoints of a file end in a run while a number is on the
table? -/
def Overwritten (file : String) (n : Nat) : Session → List (Surroundings × Event) → Prop
  | _, [] => False
  | s, e :: events =>
    Overwrites s (s.after e.1 e.2) file n ∨ Overwritten file n (s.after e.1 e.2) events

/-! ## Steps -/

/-- In a session that holds its debugger, every operation in progress sets the breakpoints of a file. -/
structure Setting (k : LaunchId) (s : Session) : Prop extends Upkeep k s where
  files : ∀ c ∈ s.calls, c.stage.file?.isSome

/-- Nothing is lost of a number that is in no place. -/
theorem Passage.undeleted_of_not_retains (h : Passage s s' e id file n) (hnot : ¬s.Retains file n) :
    s.Undeleted e file n := by
  have hlisted : n ∉ s.breakpointNumbers file := fun hlisted => hnot (Or.inl hlisted)
  have hcarried : ¬s.Carrying id file n := fun hcarried => hnot (Or.inr ⟨id, hcarried⟩)
  cases h with
  | stays _ _ undeleted | taken _ _ _ undeleted | kept _ _ undeleted => exact undeleted
  | refused _ _ _ _ undeleted => exact undeleted.2 hlisted
  | deleted _ _ undeleted => exact undeleted.2 hcarried

/-- A number that is overwritten is not deleted in the same step. -/
theorem Passage.undeleted_of_overwrites (h : Passage s s' e id file n) (hsole : s.Sole file n)
    (hoverwrites : Overwrites s s' file n) : s.Undeleted e file n := by
  obtain ⟨hlisted, hreturns⟩ := hoverwrites
  cases h with
  | stays _ _ undeleted | taken _ _ _ undeleted | kept _ _ undeleted => exact undeleted
  | refused _ _ _ returns => exact absurd hreturns returns
  | deleted _ _ undeleted => exact undeleted.2 (hsole.apart hlisted id)

namespace Setting

theorem change (h : Setting k s) (hchange : Change k s s' e) (he : s.isSetting e = true)
    (hupkeep : Upkeep k s') : Setting k s' := by
  refine ⟨hupkeep, ?_⟩
  have hgoes : ∀ {id own table}, Goes id s s' own table → (∀ c ∈ own, c.stage.file?.isSome) →
      ∀ c ∈ s'.calls, c.stage.file?.isSome := by
    intro id own table hgoes hown c hc
    rw [hgoes.calls] at hc
    exact (List.mem_append.1 hc).elim (fun hc => h.files c (List.mem_filter.1 hc).1) (hown c)
  have hplaced : ∀ {f confirmed own base table}, Placed k base f confirmed own table →
      ∀ c ∈ own, c.stage.file?.isSome := by
    intro f confirmed own base table hplaced
    cases hplaced with
    | waits stage =>
      intro c hc
      rw [List.mem_singleton.1 hc, stage]
      rfl
    | ends => exact fun _ hc => absurd hc List.not_mem_nil
  cases hchange with
  | rests current launches calls => exact calls ▸ h.files
  | clears goes stage =>
    refine hgoes goes fun c hc => ?_
    rw [List.mem_singleton.1 hc, stage]
    rfl
  | sets goes placed => exact hgoes goes (hplaced placed)
  | cleared _ _ goes placed => exact hgoes goes (hplaced placed)
  | placed _ _ goes _ placed => exact hgoes goes (hplaced placed)
  | leaves | gone => exact absurd (Bool.and_eq_true_iff.1 he).2 Bool.false_ne_true
  | leaving mem stage | left mem stage =>
    have hsome := h.files _ mem
    rw [stage] at hsome
    cases hsome

theorem after (h : Setting k s) (env : Surroundings) (he : s.isSetting e = true) :
    Setting k (s.after env e) ∧ Change k s (s.after env e) e := by
  obtain ⟨hupkeep, hchange⟩ := h.toUpkeep.after env (Bool.and_eq_true_iff.1 he).1
  exact ⟨h.change hchange he hupkeep, hchange⟩

theorem afterAll (h : Setting k s) (hrun : throughout isSetting s events = true) :
    Setting k (s.afterAll events) := by
  induction events generalizing s with
  | nil => exact h
  | cons e events ih =>
    obtain ⟨he, hrest⟩ := Bool.and_eq_true_iff.1 hrun
    exact ih (h.after e.1 he).1 hrest

/-- What one step does with a number that is not confirmed in it. -/
theorem passage (h : Setting k s) (hchange : Change k s s' e) (he : s.isSetting e = true)
    (hassigns : s.assignment? e ≠ some ⟨file, n, k⟩) :
    ∃ id, (∀ j, j ≠ id → (s'.Carrying j file n ↔ s.Carrying j file n)) ∧
      Passage s s' e id file n := by
  obtain ⟨hupkeep, hstays⟩ := Bool.and_eq_true_iff.1 he
  refine h.toUpkeep.passage hchange hupkeep ?_ h.files hassigns
  rintro id rfl
  cases hstays

/-! ## Runs -/

/-- A number that is in no place and is not confirmed is not listed, deleted or overwritten. -/
theorem nothing_of_not_retains (h : Setting k s) (hrun : throughout isSetting s events = true)
    (hassigns : ⟨file, n, k⟩ ∉ s.assignments events) (hnot : ¬s.Retains file n) :
    ¬(s.afterAll events).Retains file n ∧ (∀ d ∈ s.deletions events, ¬d.Covers file n) ∧
      ¬Overwritten file n s events := by
  induction events generalizing s with
  | nil => exact ⟨hnot, fun d hd => absurd hd List.not_mem_nil, id⟩
  | cons e events ih =>
    obtain ⟨he, hrest⟩ := Bool.and_eq_true_iff.1 hrun
    obtain ⟨hsetting, hchange⟩ := h.after e.1 he
    rw [assignments, List.mem_append, not_or, Option.mem_toList] at hassigns
    obtain ⟨id, hothers, hpassage⟩ := h.passage hchange he hassigns.1
    have hnot' : ¬(s.after e.1 e.2).Retains file n := fun hretains =>
      hnot ((hpassage.retains_iff (.of_not_retains hnot) hothers).1 hretains).1
    obtain ⟨hend, hdeletions, hoverwritten⟩ := ih hsetting hrest hassigns.2 hnot'
    refine ⟨hend, fun d hd => ?_, ?_⟩
    · rcases List.mem_append.1 hd with hd | hd
      · exact hpassage.undeleted_of_not_retains hnot d (Option.mem_toList.1 hd)
      · exact hdeletions d hd
    · rintro (⟨hlisted, -⟩ | hlater)
      · exact hnot (Or.inl hlisted)
      · exact hoverwritten hlater

/-- A number that is in one place stays there until it is deleted, or it is overwritten. -/
theorem retains_or_covered_iff (h : Setting k s) (hrun : throughout isSetting s events = true)
    (hassigns : ⟨file, n, k⟩ ∉ s.assignments events) (hsole : s.Sole file n)
    (hretains : s.Retains file n) :
    ((s.afterAll events).Retains file n ∨ ∃ d ∈ s.deletions events, d.Covers file n) ↔
      ¬Overwritten file n s events := by
  induction events generalizing s with
  | nil => exact iff_of_true (Or.inl hretains) id
  | cons e events ih =>
    obtain ⟨he, hrest⟩ := Bool.and_eq_true_iff.1 hrun
    obtain ⟨hsetting, hchange⟩ := h.after e.1 he
    rw [assignments, List.mem_append, not_or, Option.mem_toList] at hassigns
    obtain ⟨id, hothers, hpassage⟩ := h.passage hchange he hassigns.1
    have hstep := hpassage.retains_iff hsole hothers
    have hnothing := hsetting.nothing_of_not_retains hrest hassigns.2
    by_cases hoverwrites : Overwrites s (s.after e.1 e.2) file n
    · have hundeleted := hpassage.undeleted_of_overwrites hsole hoverwrites
      obtain ⟨hend, hdeletions, -⟩ := hnothing fun hretained => (hstep.1 hretained).2.2 hoverwrites
      refine iff_of_false ?_ fun hnot => hnot (Or.inl hoverwrites)
      rintro (hretained | ⟨d, hd, hcovers⟩)
      · exact hend hretained
      · rcases List.mem_append.1 hd with hd | hd
        · exact hundeleted d (Option.mem_toList.1 hd) hcovers
        · exact hdeletions d hd hcovers
    · have hsplit : ¬Overwritten file n s (e :: events) ↔
          ¬Overwritten file n (s.after e.1 e.2) events := not_congr (or_iff_right hoverwrites)
      rw [hsplit]
      by_cases hundeleted : s.Undeleted e.2 file n
      · rw [← ih hsetting hrest hassigns.2 (hpassage.sole hsole hothers)
          (hstep.2 ⟨hretains, hundeleted, hoverwrites⟩)]
        refine or_congr_right ⟨?_, ?_⟩
        · rintro ⟨d, hd, hcovers⟩
          rcases List.mem_append.1 hd with hd | hd
          · exact absurd hcovers (hundeleted d (Option.mem_toList.1 hd))
          · exact ⟨d, hd, hcovers⟩
        · rintro ⟨d, hd, hcovers⟩
          exact ⟨d, List.mem_append_right _ hd, hcovers⟩
      · obtain ⟨-, -, hoverwritten⟩ := hnothing fun hretained => hundeleted (hstep.1 hretained).2.1
        refine iff_of_true (Or.inr ?_) hoverwritten
        unfold Undeleted at hundeleted
        push Not at hundeleted
        obtain ⟨d, hd, hcovers⟩ := hundeleted
        exact ⟨d, List.mem_append_left _ (Option.mem_toList.2 hd), hcovers⟩

end Setting

/-- In every run of operations that set breakpoints, interleaved in any way, on a debugger that may
answer, fail or end in any way: a number that it confirms for a file once is listed for the file at the
end, or a delete command for it has ended, exactly if no operation that has set breakpoints of the file
has ended while the number was on the table. -/
theorem listed_or_covered_iff {before later : List (Surroundings × Event)} {e : Surroundings × Event}
    (holds : s.Holds k) (idle : s.calls = []) (unlisted : n ∉ s.breakpointNumbers file)
    (setting : throughout isSetting s (before ++ e :: later))
    (ends : (s.afterAll (before ++ e :: later)).calls = [])
    (confirms : (s.afterAll before).assignment? e.2 = some ⟨file, n, k⟩)
    (first : ⟨file, n, k⟩ ∉ s.assignments before)
    (last : ⟨file, n, k⟩ ∉ (s.afterAll (before ++ [e])).assignments later) :
    (n ∈ (s.afterAll (before ++ e :: later)).breakpointNumbers file ∨
        ∃ d ∈ (s.afterAll (before ++ [e])).deletions later, d.Covers file n) ↔
      ¬Overwritten file n (s.afterAll (before ++ [e])) later := by
  have hstart : Setting k s := ⟨⟨holds, by simp [idle], by simp [idle]⟩, by simp [idle]⟩
  have hretains : ∀ {s : Session}, s.calls = [] →
      (s.Retains file n ↔ n ∈ s.breakpointNumbers file) := by
    intro s hidle
    simp [Retains, Carrying, hidle]
  obtain ⟨hbefore, hrest⟩ := throughout_append.1 setting
  obtain ⟨he, hlater⟩ := Bool.and_eq_true_iff.1 hrest
  have hnew : ¬(s.afterAll before).Retains file n :=
    (hstart.nothing_of_not_retains hbefore first (by rwa [hretains idle])).1
  obtain ⟨hsetting, hchange⟩ := (hstart.afterAll hbefore).after e.1 he
  obtain ⟨hretained, hsole⟩ := hchange.retains confirms
  have hafter : s.afterAll (before ++ [e]) = (s.afterAll before).after e.1 e.2 := afterAll_append ..
  rw [afterAll_append_cons] at ends ⊢
  rw [← hretains ends]
  rw [hafter] at last ⊢
  exact hsetting.retains_or_covered_iff hlater last (hsole hnew) hretained

/-! ## Two operations for one file -/

/-- Breakpoints are set in line 10 and in line 20 of `a.c` at the same time, and the debugger confirms
both. -/
def contending : List (Surroundings × Event) :=
  [(calm 1.0, .call 1 (.setBreakpoints "a.c" [⟨10, none, none⟩])),
    (calm 1.0, .channel 0 (.writeBegins 0)),
    (calm 1.0, .channel 0 (.writeEnds 0 none)),
    (calm 1.0, .call 2 (.setBreakpoints "a.c" [⟨20, none, none⟩])),
    (calm 2.0, .channel 0 (.prints "Breakpoint 1 at 0x8080: file a.c, line 10.\n(gdb) ")),
    (calm 2.0, .proceeds 1 2),
    (calm 2.0, .channel 0 (.writeBegins 1)),
    (calm 2.0, .channel 0 (.writeEnds 1 none)),
    (calm 3.0, .channel 0 (.prints "Breakpoint 2 at 0x8090: file a.c, line 20.\n(gdb) ")),
    (calm 3.0, .proceeds 2 3)]

/-- Both operations have ended and nothing has been deleted, but the breakpoint of the first one is not
listed: the second one had looked at the table before. -/
theorem second_overwrites_first :
    throughout isSetting prompted contending ∧ (prompted.afterAll contending).calls = [] ∧
      prompted.assignments contending = [⟨"a.c", 1, 0⟩, ⟨"a.c", 2, 0⟩] ∧
      prompted.deletions contending = [] ∧
      (prompted.afterAll contending).breakpointNumbers "a.c" = [2] := by
  decide +kernel

/-- The number of the first operation was on the table when the second one has ended. -/
theorem listed_or_covered_iff_contending :
    Overwritten "a.c" 1 (prompted.afterAll (contending.take 6)) (contending.drop 6) := by
  obtain ⟨hcurrent, hlaunched, hidle, hunlisted⟩ : prompted.current = some 0 ∧
      0 < prompted.channels.length ∧ prompted.calls = [] ∧
        1 ∉ prompted.breakpointNumbers "a.c" := by
    decide +kernel
  have holds : prompted.Holds 0 := ⟨hcurrent, _, List.getElem?_eq_getElem hlaunched⟩
  have hrun : throughout isSetting prompted
        (contending.take 5 ++ (calm 2.0, .proceeds 1 2) :: contending.drop 6) ∧
      (prompted.afterAll
        (contending.take 5 ++ (calm 2.0, .proceeds 1 2) :: contending.drop 6)).calls = [] ∧
      (prompted.afterAll (contending.take 5)).assignment? (.proceeds 1 2) =
        some ⟨"a.c", 1, 0⟩ ∧
      ⟨"a.c", 1, 0⟩ ∉ prompted.assignments (contending.take 5) ∧
      ⟨"a.c", 1, 0⟩ ∉ (prompted.afterAll (contending.take 5 ++
        [(calm 2.0, .proceeds 1 2)])).assignments (contending.drop 6) ∧
      1 ∉ (prompted.afterAll (contending.take 5 ++
        (calm 2.0, .proceeds 1 2) :: contending.drop 6)).breakpointNumbers "a.c" ∧
      (prompted.afterAll (contending.take 5 ++
        [(calm 2.0, .proceeds 1 2)])).deletions (contending.drop 6) = [] := by
    decide +kernel
  obtain ⟨hsetting, hends, confirms, first, last, hlost, hdeletions⟩ := hrun
  have hkept := listed_or_covered_iff holds hidle hunlisted hsetting hends confirms first last
  rw [hdeletions] at hkept
  by_contra hfree
  rcases hkept.2 hfree with hlisted | ⟨d, hd, -⟩
  · exact hlost hlisted
  · cases hd

end Session

end DebugConsole
