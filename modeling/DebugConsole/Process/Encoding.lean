import DebugConsole.Process.Fault
import DebugConsole.Text.Quoted

set_option autoImplicit false

/-!
# Text and bytes

A process reads and writes bytes.  Its output is decoded byte by byte by an automaton, so that where
the output is cut makes no difference: the state after two pieces is the state after their
concatenation.  Ill-formed input never fails; every maximal ill-formed part becomes one replacement
character.  Text that the encoding cannot express is refused as a whole.
-/

namespace DebugConsole

/-- The encodings of a process's text. -/
inductive Encoding where
  | utf8
  | ascii
  | latin1
  deriving DecidableEq, Repr

/-- The state between two bytes. -/
inductive Decoder where
  /-- between two characters -/
  | ground
  /-- inside a character of which `missing + 1` bytes are to come, the next of them between `low`
  and `high` -/
  | inside (missing low high value : Nat)
  /-- behind the first two bytes of a surrogate, which are ill-formed whatever follows; that shows
  only when something does -/
  | surrogate
  deriving DecidableEq, Repr

namespace Decoder

/-- What stands for input that is ill-formed. -/
def replacement : Char := '\uFFFD'

/-- The state behind the first byte of a longer character.  The second byte is limited where the
character would otherwise be too small for its length, a surrogate, or beyond the last code point.
-/
def lead? (b : Nat) : Option Decoder :=
  if b < 0xC2 then none
  else if b < 0xE0 then some (.inside 0 0x80 0xBF (b - 0xC0))
  else if b < 0xF0 then
    some (.inside 1 (if b == 0xE0 then 0xA0 else 0x80) (if b == 0xED then 0x9F else 0xBF)
      (b - 0xE0))
  else if b < 0xF5 then
    some (.inside 2 (if b == 0xF0 then 0x90 else 0x80) (if b == 0xF4 then 0x8F else 0xBF)
      (b - 0xF0))
  else none

/-- Reads the first byte of a character. -/
def first (b : Nat) : List Char × Decoder :=
  if b < 0x80 then ([Char.ofNat b], .ground)
  else match lead? b with
    | some s => ([], s)
    | none => ([replacement], .ground)

/-- Does the byte, read where the second byte of a character is due, make it a surrogate? -/
def completesSurrogate (missing high b : Nat) : Bool :=
  missing == 1 && high == 0x9F && decide (0xA0 ≤ b) && decide (b ≤ 0xBF)

/-- Reads one byte of UTF-8. -/
def stepUtf8 : Decoder → Nat → List Char × Decoder
  | .ground, b => first b
  | .surrogate, b =>
    let (out, s) := first b
    (replacement :: replacement :: out, s)
  | .inside missing low high value, b =>
    if low ≤ b ∧ b ≤ high then
      let value := value * 64 + (b - 0x80)
      match missing with
      | 0 => ([Char.ofNat value], .ground)
      | m + 1 => ([], .inside m 0x80 0xBF value)
    else if completesSurrogate missing high b then ([], .surrogate)
    else
      let (out, s) := first b
      (replacement :: out, s)

/-- Reads one byte. -/
def step (e : Encoding) (s : Decoder) (b : UInt8) : List Char × Decoder :=
  match e with
  | .utf8 => stepUtf8 s b.toNat
  | .ascii => ([if b.toNat < 0x80 then Char.ofNat b.toNat else replacement], .ground)
  | .latin1 => ([Char.ofNat b.toNat], .ground)

/-- Reads bytes. -/
def run (e : Encoding) (s : Decoder) : List UInt8 → List Char × Decoder
  | [] => ([], s)
  | b :: rest =>
    let (out, s) := step e s b
    let (more, s) := run e s rest
    (out ++ more, s)

/-- What the end of the input leaves of a character that was begun. -/
def finish : Decoder → List Char
  | .ground => []
  | .inside .. => [replacement]
  | .surrogate => [replacement, replacement]

/-- Cutting the input makes no difference. -/
theorem run_append (e : Encoding) (s : Decoder) (a b : List UInt8) :
    run e s (a ++ b) = ((run e s a).1 ++ (run e (run e s a).2 b).1, (run e (run e s a).2 b).2) := by
  induction a generalizing s with
  | nil => simp [run]
  | cons x a ih => simp [run, ih]

end Decoder

namespace Encoding

/-- The whole text that bytes stand for. -/
def decode (e : Encoding) (bytes : List UInt8) : List Char :=
  let (out, s) := Decoder.run e .ground bytes
  out ++ s.finish

/-- The code points that an encoding can express, if not all; they are the first ones. -/
def limit? : Encoding → Option Nat
  | utf8 => none
  | ascii => some 128
  | latin1 => some 256

/-- The encoding's name in messages. -/
def word : Encoding → String
  | utf8 => "utf-8"
  | ascii => "ascii"
  | latin1 => "latin-1"

/-- The encoding with a name. -/
def ofWord? (w : String) : Option Encoding := [utf8, ascii, latin1].find? fun e => e.word == w

/-- The wording of a refusal: from place `start` on, the given characters cannot be expressed. -/
def refusal (e : Encoding) (limit start : Nat) (culprits : List Char) : String :=
  let what := match culprits with
    | [c] =>
      "character '" ++ String.ofList (Text.codeEscape c) ++ "' in position " ++ toString start
    | _ =>
      "characters in position " ++ toString start ++ "-" ++ toString (start + culprits.length - 1)
  "'" ++ e.word ++ "' codec can't encode " ++ what ++ ": ordinal not in range("
    ++ toString limit ++ ")"

/-- The bytes of a text. -/
def encode (e : Encoding) (text : String) : Except Fault (List UInt8) :=
  match e.limit? with
  | none => .ok text.toUTF8.toList
  | some limit =>
    let fits (c : Char) := decide (c.toNat < limit)
    let start := text.toList.takeWhile fits
    match text.toList.dropWhile fits with
    | [] => .ok (text.toList.map fun c => c.toNat.toUInt8)
    | rest =>
      .error ⟨.encoding, e.refusal limit start.length (rest.takeWhile fun c => !fits c)⟩

end Encoding

end DebugConsole
