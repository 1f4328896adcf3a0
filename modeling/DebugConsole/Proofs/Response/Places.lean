import DebugConsole.Proofs.Text.Blanks
import DebugConsole.Proofs.Variable.Expansion
import DebugConsole.Proofs.Variable.Printed
import DebugConsole.Response.Grammar
import Mathlib.Data.Bool.AllAny

set_option autoImplicit false

/-!
# The place of a stop and the place of a frame

A frame of the call stack and a stop show the same text: a function, its parameters and its place (`Call`).
The stack grammar takes the last `) at ` for the mark of the place.  The stop grammar takes the first ` at `
that stands behind a word, and so it reads another place if the parameters hold one.  The two agree on the
file just if no word of the parameters is followed by such a mark (`read_stop_iff_of_read_stack`).

Behind the words of a breakpoint's line the function follows a word itself, so there it must not be called
`at` either.
-/

namespace DebugConsole.Grammar

open Printed (Digits)
open Text (after? isBlank isDecimal run run? startsWith trimLeft)

variable {c : Char} {mark word path path' digits s rest tail : List Char} {head : FrameHead}

/-! ## Places -/

theorem isOneLine_append (s rest : List Char) :
    isOneLine (s ++ rest) = (isOneLine s && isOneLine rest) :=
  List.all_append

theorem isOneLine_of_not_blank (h : ∀ c ∈ s, isBlank c = false) : isOneLine s = true := by
  rw [isOneLine, List.all_eq_true]
  intro c hc
  rw [bne_iff_ne]
  rintro rfl
  cases h '\n' hc

/-- Read from its end, a place is cut at its last colon. -/
theorem run_reverse_place (path : List Char) (h : ∀ c ∈ digits, isDecimal c = true) :
    run isDecimal (path ++ ':' :: digits).reverse = (digits.reverse, ':' :: path.reverse) := by
  have hreverse : (path ++ ':' :: digits).reverse = digits.reverse ++ ':' :: path.reverse := by simp
  have hall : ∀ c ∈ digits.reverse, isDecimal c = true := fun c hc => h c (List.mem_reverse.1 hc)
  rw [hreverse, Text.run_append_of_all hall]
  rintro c ⟨⟩
  decide

/-- The last colon is where it is. -/
theorem place_inj {line : List Char} (h : ∀ c ∈ digits, isDecimal c = true)
    (h' : ∀ c ∈ line, isDecimal c = true) (heq : path ++ ':' :: digits = path' ++ ':' :: line) :
    path = path' ∧ digits = line := by
  have hrun := congrArg (fun s => run isDecimal s.reverse) heq
  simp only [run_reverse_place path h, run_reverse_place path' h', Prod.mk.injEq, List.cons.injEq,
    List.reverse_inj, true_and] at hrun
  exact hrun.symm

theorem pathAndLine?_append (line : Digits) (hne : path ≠ []) (hone : isOneLine path = true) :
    pathAndLine? (path ++ ':' :: line.chars) = some (path, line.chars) := by
  have hreverse : isOneLine path.reverse = true := by rwa [isOneLine, List.all_reverse]
  unfold pathAndLine?
  rw [run_reverse_place path line.all]
  simp [line.nonempty, hne, hreverse]

theorem pathAndLine?_sound (h : pathAndLine? s = some (path, digits)) :
    s = path ++ ':' :: digits ∧ path ≠ [] ∧ ∀ c ∈ digits, isDecimal c = true := by
  have happend := Text.run_append isDecimal s.reverse
  unfold pathAndLine? at h
  dsimp only at h
  split at h
  · next rest hrest =>
    split at h
    · cases h
    · next hnone =>
      simp only [Bool.or_eq_true, not_or] at hnone
      obtain ⟨rfl, rfl⟩ := Prod.mk.inj (Option.some.inj h)
      rw [hrest] at happend
      refine ⟨?_, ?_, ?_⟩
      · simpa using congrArg List.reverse happend.symm
      · simpa using hnone.1.2
      · exact fun c hc => Text.mem_run (List.mem_reverse.1 hc)
  · cases h

/-! ## Marks of places -/

/-- Does ` at ` follow a character of the text that is not blank? -/
def marksPlace : List Char → Bool
  | [] => false
  | c :: rest => (!isBlank c && startsWith " at ".toList rest) || marksPlace rest

/-- A mark ends before a character that is not part of it. -/
theorem after?_append_of_notMem (h : c ∉ mark) (s rest : List Char) :
    after? mark (s ++ c :: rest) = (after? mark s).map (· ++ c :: rest) := by
  induction mark generalizing s with
  | nil => rfl
  | cons m mark ih =>
    obtain ⟨hm, hmark⟩ := not_or.1 (mt List.mem_cons.2 h)
    cases s with
    | nil => simp [after?, Ne.symm hm]
    | cons d s =>
      rw [List.cons_append, after?, after?]
      split
      · exact ih hmark s
      · rfl

/-- Before a place, the stop grammar reads a place in any case: the one that is there, unless it finds
another mark of a place before it. -/
theorem stopPlace?_append (s : List Char) {file : List Char} (line : Digits)
    (hs : isOneLine s = true) (hne : file ≠ []) (hfile : isOneLine file = true) :
    ∃ path, stopPlace? (s ++ ')' :: (" at ".toList ++ (file ++ ':' :: line.chars))) =
        some (path, line.chars) ∧ (path = file ↔ marksPlace s = false) := by
  induction s with
  | nil =>
    have hplace := pathAndLine?_append line hne hfile
    refine ⟨file, ?_, by simp [marksPlace]⟩
    have hafter : after? " at ".toList (" at ".toList ++ (file ++ ':' :: line.chars)) =
        some (file ++ ':' :: line.chars) := Text.after?_eq_some_iff.2 rfl
    have hblank : isBlank ')' = false := by decide
    rw [List.nil_append, stopPlace?, hafter, Option.bind_some, hplace, hblank]
    rfl
  | cons c s ih =>
    rw [isOneLine, List.all_cons, Bool.and_eq_true] at hs
    have hclose : ')' ∉ " at ".toList := by decide
    have hafter := after?_append_of_notMem hclose s (" at ".toList ++ (file ++ ':' :: line.chars))
    rw [List.cons_append, stopPlace?, hafter, marksPlace, startsWith]
    cases hblank : isBlank c with
    | true => simpa using ih hs.2
    | false =>
      cases hmark : after? " at ".toList s with
      | none => simpa using ih hs.2
      | some rest =>
        -- an earlier mark: its path holds the true one
        have hrest : isOneLine rest = true := by
          rw [Text.after?_eq_some_iff.1 hmark, ← isOneLine, isOneLine_append, Bool.and_eq_true] at hs
          exact hs.2.2
        have hone : isOneLine (rest ++ ')' :: (" at ".toList ++ file)) = true := by
          rw [isOneLine_append, hrest, ← List.cons_append, isOneLine_append, hfile]
          rfl
        have hplace := pathAndLine?_append line
          (List.append_ne_nil_of_right_ne_nil rest (List.cons_ne_nil _ _)) hone
        rw [List.append_assoc, List.cons_append, List.append_assoc] at hplace
        refine ⟨rest ++ ')' :: (" at ".toList ++ file), ?_, ?_⟩
        · rw [Option.map_some, Option.bind_some, hplace]
          rfl
        · have hlength : rest ++ ')' :: (" at ".toList ++ file) ≠ file := by
            intro heq
            have := congrArg List.length heq
            simp only [List.length_append, List.length_cons] at this
            omega
          rw [eq_false hlength, Option.isSome_some]
          simp

/-- A word marks a place only if it is followed by one. -/
theorem marksPlace_word (h : ∀ c ∈ word, isBlank c = false) (hne : word ≠ []) (rest : List Char) :
    marksPlace (word ++ ' ' :: rest) = (startsWith "at ".toList rest || marksPlace rest) := by
  have hspace : isBlank ' ' = true := by decide
  induction word with
  | nil => exact absurd rfl hne
  | cons c word ih =>
    have hc : isBlank c = false := h c List.mem_cons_self
    rw [List.cons_append, marksPlace, hc, Bool.not_false, Bool.true_and]
    cases word with
    | nil =>
      rw [List.nil_append, marksPlace, hspace, Bool.not_true, Bool.false_and, Bool.false_or]
      rfl
    | cons d word =>
      have hd : isBlank d = false := h d (List.mem_cons_of_mem _ List.mem_cons_self)
      have hne : (' ' == d) = false := by
        rw [beq_eq_false_iff_ne]
        rintro rfl
        rw [hspace] at hd
        cases hd
      have hstart : startsWith " at ".toList (d :: word ++ ' ' :: rest) = false := by
        rw [startsWith, List.cons_append]
        simp [after?, hne]
      rw [hstart, Bool.false_or]
      exact ih (fun e he => h e (List.mem_cons_of_mem _ he)) (List.cons_ne_nil d word)

/-- Words end at their first blank. -/
theorem startsWith_word (h : ∀ c ∈ word, isBlank c = false) (hmark : ∀ c ∈ mark, isBlank c = false)
    (rest : List Char) : startsWith (mark ++ [' ']) (word ++ ' ' :: rest) = (word == mark) := by
  have hspace : isBlank ' ' = true := by decide
  induction mark generalizing word with
  | nil =>
    cases word with
    | nil => rfl
    | cons c word =>
      have hc : ' ' ≠ c := by
        rintro rfl
        cases hspace.symm.trans (h ' ' List.mem_cons_self)
      simp [startsWith, after?, hc]
  | cons m mark ih =>
    have hm : isBlank m = false := hmark m List.mem_cons_self
    cases word with
    | nil =>
      have hne : m ≠ ' ' := by
        rintro rfl
        cases hspace.symm.trans hm
      simp [startsWith, after?, hne]
    | cons c word =>
      have hrest := ih (fun d hd => h d (List.mem_cons_of_mem _ hd))
        (fun d hd => hmark d (List.mem_cons_of_mem _ hd))
      rw [startsWith] at hrest
      rw [startsWith, List.cons_append, List.cons_append, after?]
      by_cases hcm : m = c
      · subst hcm
        simp [hrest]
      · simp [hcm, Ne.symm hcm]

/-! ## Printed calls -/

/-- A function that is shown with its parameters and its place. -/
structure Call where
  name : List Char
  unbroken : ∀ c ∈ name, isBlank c = false
  params : List Char
  file : List Char
  line : Digits

namespace Call

/-- What stands before the parenthesis that closes the parameters. -/
def opening (call : Call) : List Char := call.name ++ ' ' :: '(' :: call.params

/-- The call as it is printed where the target halted. -/
def text (call : Call) : List Char :=
  call.opening ++ ')' :: (" at ".toList ++ (call.file ++ ':' :: call.line.chars))

/-- The first word of the line that is printed where the target hit a breakpoint. -/
def hitWord : List Char := "Breakpoint".toList

/-- What is printed before a call where the target hit a breakpoint. -/
def hitLead (hit : Digits) : List Char := hitWord ++ ' ' :: (hit.chars ++ [',', ' '])

/-- The call as it is printed where the target hit a breakpoint. -/
def hitText (hit : Digits) (call : Call) : List Char := hitLead hit ++ call.text

/-- The call as the innermost frame of the call stack. -/
def frameText (call : Call) : List Char := "#0  ".toList ++ call.text

end Call

theorem marksPlace_params (params : List Char) :
    startsWith "at ".toList ('(' :: params) = false := rfl

theorem Call.marksPlace_opening (call : Call) :
    marksPlace call.opening = marksPlace ('(' :: call.params) := by
  have hspace : isBlank ' ' = true := by decide
  by_cases hne : call.name = []
  · rw [opening, hne, List.nil_append, marksPlace, hspace]
    rfl
  · rw [opening, marksPlace_word call.unbroken hne, marksPlace_params, Bool.false_or]

/-- What a breakpoint's line says before a call marks a place only if the function is called `at`. -/
theorem Call.marksPlace_hit (hit : Digits) (call : Call) :
    marksPlace (hitLead hit ++ call.opening) =
      (call.name == "at".toList || marksPlace ('(' :: call.params)) := by
  have hwords : hitLead hit ++ call.opening =
      hitWord ++ ' ' :: ((hit.chars ++ [',']) ++ ' ' :: call.opening) := by
    simp only [hitLead, List.append_assoc, List.cons_append, List.nil_append]
  have hnumber : ∀ c ∈ hit.chars ++ [','], isBlank c = false := by
    rw [List.forall_mem_append, List.forall_mem_singleton]
    exact ⟨fun c hc => Text.isBlank_of_isDecimal (hit.all c hc), by decide⟩
  have hdigit : startsWith "at ".toList ((hit.chars ++ [',']) ++ ' ' :: call.opening) = false := by
    obtain ⟨d, ds, hd⟩ := List.exists_cons_of_ne_nil hit.nonempty
    have hdecimal : isDecimal d = true := hit.all d (by rw [hd]; exact List.mem_cons_self)
    have ha : ('a' == d) = false := by
      rw [beq_eq_false_iff_ne]
      rintro rfl
      cases hdecimal
    rw [hd]
    simp [startsWith, after?, ha]
  have hat : ∀ c ∈ "at".toList, isBlank c = false := List.all_iff_forall_prop.1 (by decide)
  have hname : startsWith "at ".toList call.opening = (call.name == "at".toList) :=
    startsWith_word call.unbroken hat _
  have hword : ∀ c ∈ hitWord, isBlank c = false := List.all_iff_forall_prop.1 (by decide)
  rw [hwords, marksPlace_word hword (by decide), hdigit, Bool.false_or, marksPlace_word hnumber (by simp),
    hname, call.marksPlace_opening]

/-! ## The two grammars -/

theorem isOneLine_of_run? {p : Char → Bool} {start : List Char} (hp : p '\n' = false)
    (h : run? p s = some (start, rest)) : isOneLine start = true := by
  rw [isOneLine, List.all_eq_true]
  intro c hc
  rw [bne_iff_ne]
  rintro rfl
  cases hp.symm.trans (Text.mem_of_run? h hc)

/-- What is taken off before a function's name holds no line end. -/
theorem frameAddress_append (s : List Char) :
    ∃ front, s = front ++ (frameAddress s).2 ∧ isOneLine front = true := by
  unfold frameAddress
  split
  · next digits rest hrun =>
    obtain ⟨marked, hmark, hdigits⟩ := Option.bind_eq_some_iff.1 hrun
    split
    · next rest' hin =>
      refine ⟨['0', 'x'] ++ (digits ++ " in ".toList), ?_, ?_⟩
      · rw [Text.after?_eq_some_iff.1 hmark, Text.run?_append hdigits, Text.after?_eq_some_iff.1 hin]
        simp only [List.append_assoc]
      · rw [isOneLine_append, isOneLine_append, isOneLine_of_run? (by decide) hdigits]
        rfl
    · exact ⟨[], rfl, rfl⟩
  · exact ⟨[], rfl, rfl⟩

/-- What is read of the innermost frame's line before its parameters holds no line end, unless among the
blanks before it. -/
theorem trimLeft_of_frameHead? (h : frameHead? ("#0  ".toList ++ s) = some head) :
    ∃ front, trimLeft s = front ++ head.tail ∧ isOneLine front = true := by
  have hlevel : (after? ['#'] ("#0  ".toList ++ s)).bind (run? isDecimal) =
      some (['0'], ' ' :: ' ' :: s) := rfl
  have hblanks : run? isBlank (' ' :: ' ' :: s) =
      some (' ' :: ' ' :: s.takeWhile isBlank, trimLeft s) := rfl
  unfold frameHead? at h
  rw [hlevel, Option.bind_eq_bind, Option.bind_some] at h
  simp only [hblanks, Option.bind_eq_bind, Option.bind_some] at h
  obtain ⟨⟨name, rest⟩, hname, h⟩ := Option.bind_eq_some_iff.1 h
  obtain ⟨tail, htail, h⟩ := Option.bind_eq_some_iff.1 h
  obtain ⟨front, hfront, hone⟩ := frameAddress_append (trimLeft s)
  obtain rfl : rest = " (".toList ++ tail := Text.after?_eq_some_iff.1 htail
  cases h
  refine ⟨front ++ (name ++ " (".toList), ?_, ?_⟩
  · refine hfront.trans ?_
    rw [Text.run?_append hname]
    simp only [List.append_assoc]
  · rw [isOneLine_append, hone, isOneLine_append, isOneLine_of_run? (by decide) hname]
    rfl

/-- A frame with a source place was printed with it at the end of its line. -/
theorem placedTail?_of_readFrame {frame : StackFrame} {file : String} {n : Nat}
    (h : readFrame s = .ok (some frame)) (hfile : frame.file = some file) (hline : frame.line = some n) :
    ∃ head params path digits, frameHead? s = some head ∧
      placedTail? head.tail = some (params, path, digits) ∧ String.ofList path = file ∧
      number digits = .ok n := by
  unfold readFrame at h
  split at h
  · cases h
  · next head hhead =>
    split at h
    · next params path digits hplaced =>
      obtain ⟨level, -, h⟩ := Malformed.exists_of_bind h
      obtain ⟨line, hdigits, h⟩ := Malformed.exists_of_bind h
      cases h
      cases hfile
      cases hline
      exact ⟨head, params, path, digits, hhead, hplaced, rfl, hdigits⟩
    · split at h
      · obtain ⟨level, -, h⟩ := Malformed.exists_of_bind h
        cases h
        cases hfile
      · cases h

theorem placedTail?_sound {params : List Char} (h : placedTail? tail = some (params, path, digits)) :
    isOneLine tail = true ∧ path ≠ [] ∧ (∀ c ∈ digits, isDecimal c = true) ∧
      ∃ front, tail = front ++ path ++ ':' :: digits := by
  unfold placedTail? at h
  split at h
  · next hone =>
    obtain ⟨rest, htail, hrest⟩ := Text.lastCut?_sound h
    obtain ⟨rfl, hne, hall⟩ := pathAndLine?_sound hrest
    exact ⟨hone, hne, hall, params ++ ") at ".toList, by rw [htail, List.append_assoc _ path]⟩
  · cases h

/-- A call that starts with a blank starts with one only. -/
theorem Call.isOneLine_text (call : Call) (h : isOneLine (trimLeft call.text) = true) :
    isOneLine call.text = true := by
  by_cases hne : call.name = []
  · have htext : call.text = ' ' :: '(' :: (call.params ++
        ')' :: (" at ".toList ++ (call.file ++ ':' :: call.line.chars))) := by
      rw [text, opening, hne]
      rfl
    rw [htext] at h ⊢
    exact h
  · obtain ⟨c, name, hname⟩ := List.exists_cons_of_ne_nil hne
    have hc : isBlank c = false := call.unbroken c (by rw [hname]; exact List.mem_cons_self)
    have htrim : trimLeft call.text = call.text := by
      refine Text.trimLeft_eq_self ?_
      rw [text, opening, hname]
      rintro c ⟨⟩
      exact hc
    rwa [htrim] at h

/-- A call that the stack grammar reads the place of is one line and has a file, and its line is a number. -/
theorem Call.sound {call : Call} {frame : StackFrame} {n : Nat}
    (h : readFrame call.frameText = .ok (some frame))
    (hfile : frame.file = some (String.ofList call.file)) (hline : frame.line = some n) :
    isOneLine call.opening = true ∧ call.file ≠ [] ∧ isOneLine call.file = true ∧
      number call.line.chars = .ok n := by
  obtain ⟨head, params, path, digits, hhead, hplaced, hpath, hnumber⟩ :=
    placedTail?_of_readFrame h hfile hline
  obtain ⟨before, htrim, hbefore⟩ := trimLeft_of_frameHead? hhead
  obtain ⟨htail, hne, hdigits, front, hfront⟩ := placedTail?_sound hplaced
  obtain ⟨blanks, hblanks, -⟩ := Text.trimLeft_split call.text
  have hone : isOneLine call.text = true := by
    refine call.isOneLine_text ?_
    rw [htrim, isOneLine_append, hbefore, htail]
    rfl
  have hplace : (blanks ++ (before ++ (front ++ path))) ++ ':' :: digits =
      (call.opening ++ ')' :: (" at ".toList ++ call.file)) ++ ':' :: call.line.chars := by
    rw [htrim, hfront, Call.text] at hblanks
    simpa using hblanks.symm
  obtain ⟨-, rfl⟩ := place_inj hdigits call.line.all hplace
  have hlines := List.all_eq_true.1 hone
  refine ⟨List.all_eq_true.2 fun c hc => hlines c ?_, ?_, List.all_eq_true.2 fun c hc => hlines c ?_,
    hnumber⟩
  · exact List.mem_append_left _ hc
  · rwa [← String.ofList_injective hpath]
  · simp [Call.text, hc]

/-- A halt is read from every line that ends in a call with a place. -/
theorem Call.read_stop (lead : List Char) {call : Call} {n : Nat} (hlead : isOneLine lead = true)
    (hopening : isOneLine call.opening = true) (hne : call.file ≠ [])
    (hfile : isOneLine call.file = true) (hline : number call.line.chars = .ok n) :
    ∃ file, stop.read (String.ofList (lead ++ call.text)) = .ok (some (.stop ⟨some file, some n⟩)) ∧
      (file = String.ofList call.file ↔ marksPlace (lead ++ call.opening) = false) := by
  have hone : isOneLine (lead ++ call.opening) = true := by
    rw [isOneLine_append, hlead, hopening]
    rfl
  obtain ⟨path, hpath, hiff⟩ := stopPlace?_append (lead ++ call.opening) call.line hone hne hfile
  rw [List.append_assoc] at hpath
  refine ⟨String.ofList path, ?_, ?_⟩
  · rw [read, String.toList_ofList, readStop, Call.text, hpath]
    simp only [hline]
    rfl
  · rw [String.ofList_inj, hiff]

/-- Where the stack grammar reads the place of a call, the stop grammar reads the same line, and the same
file just if no word of the parameters is followed by ` at `; behind the words of a breakpoint's line, the
function must not be called `at` either. -/
theorem read_stop_iff_of_read_stack (call : Call) (hit : Digits) {frame : StackFrame} {n : Nat}
    (hframe : stack.read (String.ofList call.frameText) = .ok (some (.frame frame)))
    (hfile : frame.file = some (String.ofList call.file)) (hline : frame.line = some n) :
    (∃ file, stop.read (String.ofList call.text) = .ok (some (.stop ⟨some file, some n⟩)) ∧
        (file = String.ofList call.file ↔ marksPlace ('(' :: call.params) = false)) ∧
      ∃ file, stop.read (String.ofList (call.hitText hit)) = .ok (some (.stop ⟨some file, some n⟩)) ∧
        (file = String.ofList call.file ↔
          call.name ≠ "at".toList ∧ marksPlace ('(' :: call.params) = false) := by
  have hread : readFrame call.frameText = .ok (some frame) := by
    rw [read, String.toList_ofList] at hframe
    obtain ⟨read, hread, hsome⟩ := Malformed.exists_of_map hframe
    obtain ⟨_, rfl, heq⟩ := Option.map_eq_some_iff.1 hsome
    cases heq
    exact hread
  obtain ⟨hopening, hne, hone, hnumber⟩ := Call.sound hread hfile hline
  constructor
  · obtain ⟨file, hstop, hiff⟩ := Call.read_stop [] rfl hopening hne hone hnumber
    rw [List.nil_append, call.marksPlace_opening] at hiff
    exact ⟨file, hstop, hiff⟩
  · have hlead : isOneLine (Call.hitLead hit) = true := by
      have hdigits : isOneLine hit.chars = true :=
        isOneLine_of_not_blank fun c hc => Text.isBlank_of_isDecimal (hit.all c hc)
      have hword : isOneLine Call.hitWord = true := by decide
      have hend : isOneLine [',', ' '] = true := by decide
      rw [Call.hitLead, isOneLine_append, hword, ← List.singleton_append, isOneLine_append,
        isOneLine_append, hdigits, hend]
      rfl
    obtain ⟨file, hstop, hiff⟩ := Call.read_stop _ hlead hopening hne hone hnumber
    rw [call.marksPlace_hit, Bool.or_eq_false_iff, beq_eq_false_iff_ne] at hiff
    exact ⟨file, hstop, hiff⟩

/-- A quoted parameter, without a mark of a place. -/
theorem read_stop_iff_of_read_stack_quoted :
    let call : Call := {
      name := "main".toList
      unbroken := List.all_iff_forall_prop.1 (by decide)
      params := "s=0x81 \"look\"".toList
      file := "main.c".toList
      line := ⟨['1', '2'], by decide, List.all_eq_true.1 (by decide)⟩ }
    let hit : Digits := ⟨['1'], by decide, List.forall_mem_singleton.2 rfl⟩
    let frame : StackFrame := {
      level := 0
      function := "main (s=0x81 \"look\")"
      address := none
      file := some "main.c"
      fileName := some "main.c"
      line := some 12
      params := Variable.decodeParameters call.params }
    stack.read (String.ofList call.frameText) = .ok (some (.frame frame)) ∧
      frame.file = some (String.ofList call.file) ∧ frame.line = some 12 ∧
      (∃ file, stop.read (String.ofList call.text) = .ok (some (.stop ⟨some file, some 12⟩)) ∧
        (file = String.ofList call.file ↔ marksPlace ('(' :: call.params) = false)) ∧
      ∃ file, stop.read (String.ofList (call.hitText hit)) = .ok (some (.stop ⟨some file, some 12⟩)) ∧
        (file = String.ofList call.file ↔
          call.name ≠ "at".toList ∧ marksPlace ('(' :: call.params) = false) := by
  intro call hit frame
  have hread : stack.read (String.ofList call.frameText) = .ok (some (.frame frame)) := by
    rw [read, String.toList_ofList]
    rfl
  exact ⟨hread, rfl, rfl, read_stop_iff_of_read_stack call hit hread rfl rfl⟩

/-- A word in a quoted parameter is taken for the mark of the place. -/
theorem quoted_word_moves_place :
    (∃ frame, stack.read "#0  main (s=0x8100 \"look at me\") at main.c:12" = .ok (some (.frame frame)) ∧
      frame.file = some "main.c" ∧ frame.line = some 12) ∧
    stop.read "main (s=0x8100 \"look at me\") at main.c:12" =
      .ok (some (.stop ⟨some "me\") at main.c", some 12⟩)) ∧
    stop.read "Breakpoint 1, main (s=0x8100 \"look at me\") at main.c:12" =
      .ok (some (.stop ⟨some "me\") at main.c", some 12⟩)) :=
  ⟨⟨_, rfl, rfl, rfl⟩, rfl, rfl⟩

end DebugConsole.Grammar
