import DebugConsole.Process.Encoding
import Mathlib.Data.List.TakeWhile

set_option autoImplicit false

/-!
# Decoding at once

The decoder of a stream keeps what it has read of a character between two reads.  Here the text of
the whole bytes is defined without it: from the left, each maximal part that begins a character is
one character if it is all of it, and one replacement otherwise.  The decoder gives that text,
wherever the bytes are cut (`Decoder.run_append`).
-/

namespace DebugConsole

namespace Utf8

/-- The bounds of the bytes behind the first two of a character. -/
def later : Nat × Nat := (0x80, 0xBF)

/-- The well-formed characters: the bounds of the first byte, and those of each byte behind it. -/
def wellFormed : List ((Nat × Nat) × List (Nat × Nat)) :=
  [((0x00, 0x7F), []),
   ((0xC2, 0xDF), [later]),
   ((0xE0, 0xE0), [(0xA0, 0xBF), later]),
   ((0xE1, 0xEC), [later, later]),
   ((0xED, 0xED), [(0x80, 0x9F), later]),
   ((0xEE, 0xEF), [later, later]),
   ((0xF0, 0xF0), [(0x90, 0xBF), later, later]),
   ((0xF1, 0xF3), [later, later, later]),
   ((0xF4, 0xF4), [(0x80, 0x8F), later, later])]

/-- The bounds of the bytes that follow a first byte; none where it begins no character. -/
def following? (b : Nat) : Option (List (Nat × Nat)) :=
  (wellFormed.find? fun row => decide (row.1.1 ≤ b ∧ b ≤ row.1.2)).map (·.2)

/-- What a first byte says by its size alone, given how many bytes follow it. -/
def marker : Nat → Nat
  | 0 => 0x00
  | 1 => 0xC0
  | 2 => 0xE0
  | _ => 0xF0

/-- How many bytes, one after another, are within their bounds. -/
def fitting : List (Nat × Nat) → List Nat → Nat
  | (low, high) :: bounds, b :: rest => if low ≤ b ∧ b ≤ high then fitting bounds rest + 1 else 0
  | _, _ => 0

/-- The character of a payload and the bytes behind it. -/
def combined (payload : Nat) (bytes : List Nat) : Char :=
  Char.ofNat (bytes.foldl (fun value b => value * 64 + (b - 0x80)) payload)

/-- What a payload becomes with the bytes behind it: a replacement, unless they are all within their
bounds. -/
def character (payload : Nat) (bounds : List (Nat × Nat)) (bytes : List Nat) : Char :=
  if fitting bounds bytes = bounds.length then combined payload (bytes.take bounds.length)
  else Decoder.replacement

/-- The text of bytes. -/
def text : List Nat → List Char
  | [] => []
  | b :: rest =>
    match following? b with
    | none => Decoder.replacement :: text rest
    | some bounds =>
      character (b - marker bounds.length) bounds rest :: text (rest.drop (fitting bounds rest))
termination_by bytes => bytes.length
decreasing_by
  · exact Nat.lt_succ_self rest.length
  · rw [List.length_drop, List.length_cons]
    exact Nat.lt_succ_of_le (Nat.sub_le _ _)

end Utf8

namespace Decoder

open Utf8 (later following? marker fitting combined character)

/-- What the table says of the first byte of a character. -/
theorem first_eq : ∀ b < 256, first b =
    match following? b with
    | none => ([replacement], .ground)
    | some [] => ([Char.ofNat b], .ground)
    | some ((low, high) :: bounds) =>
      ([], .inside bounds.length low high (b - marker (bounds.length + 1))) := by
  decide +kernel

/-- Behind its second byte a character has no bounds of its own. -/
theorem following?_later {b : Nat} {bounds : List (Nat × Nat)} (h : following? b = some bounds) :
    bounds.tail = List.replicate bounds.tail.length later := by
  obtain ⟨row, hrow, rfl⟩ : ∃ row ∈ Utf8.wellFormed, row.2 = bounds := by
    simp only [following?, Option.map_eq_some_iff] at h
    obtain ⟨row, hfind, rfl⟩ := h
    exact ⟨row, List.mem_of_find?_eq_some hfind, rfl⟩
  clear h
  revert row
  decide

/-- The text of bytes behind what a decoder has read. -/
def resumed : Decoder → List Nat → List Char
  | .ground, bytes => Utf8.text bytes
  | .surrogate, bytes => replacement :: replacement :: Utf8.text bytes
  | .inside missing low high value, bytes =>
    let bounds := (low, high) :: List.replicate missing later
    character value bounds bytes :: Utf8.text (bytes.drop (fitting bounds bytes))

theorem resumed_nil (s : Decoder) : s.resumed [] = s.finish := by
  cases s <;> simp [resumed, finish, Utf8.text, character, fitting]

theorem character_nil (payload : Nat) (bytes : List Nat) :
    character payload [] bytes = Char.ofNat payload := by
  simp [character, fitting, combined]

/-- The first byte of a character. -/
theorem resumed_first {b : Nat} (hb : b < 256) (rest : List Nat) :
    (first b).1 ++ (first b).2.resumed rest = Utf8.text (b :: rest) := by
  rw [Utf8.text, first_eq b hb]
  cases h : following? b with
  | none => rfl
  | some bounds =>
    cases bounds with
    | nil => simp [character_nil, marker, fitting, resumed]
    | cons bound bounds =>
      have hlater := following?_later h
      simp only [List.tail_cons] at hlater
      simp only [resumed, List.nil_append, List.length_cons, ← hlater]

/-- A byte that makes a surrogate begins no character. -/
theorem following?_of_surrogate {b : Nat} (low : 0xA0 ≤ b) (high : b ≤ 0xBF) :
    following? b = none := by
  have : ∀ b < 0xC0, 0xA0 ≤ b → following? b = none := by
    decide +kernel
  exact this b (by omega) low

/-- A byte within the bounds of the next one. -/
theorem resumed_within {missing low high value b : Nat} (h : low ≤ b ∧ b ≤ high)
    (rest : List Nat) :
    (stepUtf8 (.inside missing low high value) b).1 ++
        (stepUtf8 (.inside missing low high value) b).2.resumed rest =
      resumed (.inside missing low high value) (b :: rest) := by
  cases missing with
  | zero => simp [stepUtf8, h, resumed, character, fitting, combined]
  | succ missing => simp [stepUtf8, h, resumed, character, fitting, combined, List.replicate_succ,
      later]

/-- A byte that is not within the bounds of the next one. -/
theorem resumed_beyond {missing low high value b : Nat} (hb : b < 256)
    (h : ¬(low ≤ b ∧ b ≤ high)) (rest : List Nat) :
    (stepUtf8 (.inside missing low high value) b).1 ++
        (stepUtf8 (.inside missing low high value) b).2.resumed rest =
      resumed (.inside missing low high value) (b :: rest) := by
  have broken : resumed (.inside missing low high value) (b :: rest) =
      replacement :: Utf8.text (b :: rest) := by
    simp [resumed, character, fitting, h]
  rw [broken]
  by_cases hs : completesSurrogate missing high b = true
  · have bounds : 0xA0 ≤ b ∧ b ≤ 0xBF := by
      simp only [completesSurrogate, Bool.and_eq_true, decide_eq_true_eq] at hs
      exact ⟨hs.1.2, hs.2⟩
    simp [stepUtf8, h, hs, resumed, Utf8.text, following?_of_surrogate bounds.1 bounds.2]
  · simp [stepUtf8, h, hs, resumed_first hb]

/-- One byte. -/
theorem resumed_step (s : Decoder) {b : Nat} (hb : b < 256) (rest : List Nat) :
    (stepUtf8 s b).1 ++ (stepUtf8 s b).2.resumed rest = s.resumed (b :: rest) := by
  cases s with
  | ground => exact resumed_first hb rest
  | surrogate => simp [stepUtf8, resumed, ← resumed_first hb rest]
  | inside missing low high value =>
    by_cases h : low ≤ b ∧ b ≤ high
    · exact resumed_within h rest
    · exact resumed_beyond hb h rest

/-- All bytes. -/
theorem run_resumed (s : Decoder) (bytes : List UInt8) :
    (run .utf8 s bytes).1 ++ (run .utf8 s bytes).2.finish = s.resumed (bytes.map (·.toNat)) := by
  -- For every state at once: what a state has read is carried in `resumed`.
  induction bytes generalizing s with
  | nil => simp [run, resumed_nil]
  | cons b bytes ih =>
    calc (run .utf8 s (b :: bytes)).1 ++ (run .utf8 s (b :: bytes)).2.finish
        = (stepUtf8 s b.toNat).1 ++ (stepUtf8 s b.toNat).2.resumed (bytes.map (·.toNat)) := by
          rw [← ih]
          simp [run, step]
      _ = s.resumed ((b :: bytes).map (·.toNat)) := resumed_step s b.toNat_lt _

end Decoder

/-- What a decoder gives of bytes, over all their reads and their end, is their text. -/
theorem Encoding.decode_utf8 (bytes : List UInt8) :
    Encoding.utf8.decode bytes = Utf8.text (bytes.map (·.toNat)) :=
  Decoder.run_resumed .ground bytes

end DebugConsole
