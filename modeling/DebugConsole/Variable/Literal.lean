import DebugConsole.Text.Cut
import DebugConsole.Text.Word
import DebugConsole.Variable.Basic
import DebugConsole.Variable.CharArray
import DebugConsole.Variable.Segments

set_option autoImplicit false

/-!
# Literals

The first look at a printed value.  An integer may be followed by the character it stands for; a
value that the debugger shortened to `<repeats N times>` is kept as printed, alone or as the only
segment of an aggregate; a quotation is a string, or the bytes of a character array if something in
it is escaped; braces hold an aggregate whose inside is still to be read.
-/

namespace DebugConsole

/-- What a printed value is at first sight. -/
inductive Literal where
  | scalar (kind : ScalarKind) (text : List Char)
  /-- a character array, by the value of each character -/
  | bytes (values : List Nat)
  /-- an aggregate, by the text between its braces -/
  | braces (body : List Char)
  deriving DecidableEq, Repr

namespace Literal

/-- A text without the minus sign that it may start with. -/
def dropMinus : List Char → List Char
  | '-' :: rest => rest
  | rest => rest

/-- Reads a hexadecimal number behind its mark: the digits and the rest. -/
def hexRun? (s : List Char) : Option (List Char × List Char) :=
  (Text.after? ['0', 'x'] s).bind (Text.run? Text.isHex)

/-- Is the text the inside and the end of a character literal? -/
def isCharLiteralTail : List Char → Bool
  | [] => false
  | ['\''] => true
  | '\\' :: c :: rest => c != '\n' && isCharLiteralTail rest
  | c :: rest => c != '\'' && c != '\\' && isCharLiteralTail rest

/-- Is the text empty, or a character literal behind one space? -/
def isIntegerTail : List Char → Bool
  | [] => true
  | ' ' :: '\'' :: rest => isCharLiteralTail rest
  | _ => false

/-- The number of an integer, without the character literal that may follow it. -/
def integer? (text : List Char) : Option (List Char) :=
  let magnitude := dropMinus text
  let digits := (hexRun? magnitude).orElse fun _ => Text.run? Text.isDecimal magnitude
  digits.bind fun (_, rest) =>
    if isIntegerTail rest then some (text.take (text.length - rest.length)) else none

/-- Reads a power of ten; what comes back is the rest. -/
def powerRun? : List Char → Option (List Char)
  | c :: rest =>
    if c == 'e' || c == 'E' then
      let unsigned := match rest with
        | '-' :: r => r
        | '+' :: r => r
        | r => r
      (Text.run? Text.isDecimal unsigned).map (·.2)
    else none
  | [] => none

/-- The letters that may mark the type of a floating-point number. -/
def isTypeLetter (c : Char) : Bool := ['u', 'f', 'l', 'd', 'U', 'F', 'L', 'D'].contains c

/-- Is there nothing left but a type letter, if anything? -/
def isFloatTail : List Char → Bool
  | [] => true
  | [c] => isTypeLetter c
  | _ => false

/-- Is the text a not-a-number with or without its payload? -/
def isNan (s : List Char) : Bool :=
  match Text.after? ['n', 'a', 'n'] s with
  | none => false
  | some [] => true
  | some ('(' :: rest) => (hexRun? rest).any fun (_, tail) => tail == [')']
  | some _ => false

/-- Is the text a decimal with a fraction, a power of ten or both? -/
def isReal (s : List Char) : Bool :=
  match Text.run? Text.isDecimal s with
  | none => false
  | some (_, '.' :: rest) =>
    (Text.run? Text.isDecimal rest).any fun (_, tail) =>
      isFloatTail ((powerRun? tail).getD tail)
  | some (_, rest) => (powerRun? rest).any isFloatTail

/-- Is the text a floating-point number? -/
def isFloat (text : List Char) : Bool :=
  let magnitude := dropMinus text
  isReal magnitude || magnitude == ['i', 'n', 'f'] || isNan magnitude

/-- Does the text end, behind something, in the debugger's note on how often it repeats? -/
def isRepeat (s : List Char) : Bool :=
  match Text.before? s " times>".toList with
  | none => false
  | some counted =>
    let (digits, start) := Text.run Text.isDecimal counted.reverse
    !digits.isEmpty &&
      (Text.before? start.reverse " <repeats ".toList).any fun value => !value.isEmpty

/-- The same, where one line feed may follow the note. -/
def isRepeatBody (s : List Char) : Bool :=
  isRepeat s || (Text.before? s ['\n']).any isRepeat

/-- The inside of a text between braces. -/
def braces? : List Char → Option (List Char)
  | '{' :: rest => Text.before? rest ['}']
  | _ => none

/-- Is the text an aggregate that holds nothing but one repeated value? -/
def isRepeatedAggregate (text : List Char) : Except Malformed Bool :=
  match braces? text with
  | none => .ok false
  | some body =>
    if isRepeatBody body then (Segments.split body).map fun parts => parts.length == 1
    else .ok false

/-- Reads the inside of a quotation up to the mark that ends both it and the text. -/
def quotedTail? : List Char → Option (List Char)
  | [] => none
  | ['"'] => some []
  | '\\' :: c :: rest => (quotedTail? rest).map fun inside => '\\' :: c :: inside
  | c :: rest => if c == '"' || c == '\\' then none else (quotedTail? rest).map (c :: ·)

/-- The inside of a text that is one quotation. -/
def quotation? : List Char → Option (List Char)
  | '"' :: rest => quotedTail? rest
  | _ => none

/-- What the inside of a quotation stands for. -/
def ofQuotation (inside : List Char) : Except Malformed Literal :=
  if CharArray.hasEscape inside then
    (CharArray.decode (String.ofList inside)).map bytes
  else .ok (.scalar .string inside)

/-- What a printed value is; the text has no blanks at its ends. -/
def classify (text : List Char) : Except Malformed Literal :=
  match integer? text with
  | some number => .ok (.scalar .integer number)
  | none =>
    if isFloat text then .ok (.scalar .float text)
    else if isRepeat text then .ok (.scalar .raw text)
    else do
      if ← isRepeatedAggregate text then return .scalar .raw text
      match quotation? text with
      | some inside => ofQuotation inside
      | none =>
        match braces? text with
        | some body => return .braces body
        | none => return .scalar .raw text

/-- The inside of braces is two characters shorter. -/
theorem length_of_braces? {text body : List Char} (h : braces? text = some body) :
    text.length = body.length + 2 := by
  unfold braces? at h
  split at h
  · have := Text.before?_eq_some_iff.1 h
    simp [this]
  · simp at h

/-- An aggregate's inside comes from the text between its braces. -/
theorem braces?_of_classify {text body : List Char} (h : classify text = .ok (.braces body)) :
    braces? text = some body := by
  unfold classify at h
  split at h
  · simp at h
  · split at h
    · simp at h
    · split at h
      · simp at h
      · cases hr : isRepeatedAggregate text with
        | error e => rw [hr] at h; simp [bind, Except.bind] at h
        | ok b =>
          rw [hr] at h
          cases b with
          | true => simp [bind, Except.bind, pure, Except.pure] at h
          | false =>
            simp only [bind, Except.bind, Bool.false_eq_true, if_false] at h
            split at h
            · rename_i inside _
              unfold ofQuotation at h
              split at h
              · cases hd : CharArray.decode (String.ofList inside) with
                | error e => rw [hd] at h; simp [Except.map] at h
                | ok v => rw [hd] at h; simp [Except.map] at h
              · simp at h
            · split at h
              · rename_i hb
                simp only [pure, Except.pure, Except.ok.injEq, Literal.braces.injEq] at h
                rw [← h]; exact hb
              · simp [pure, Except.pure] at h

end Literal

end DebugConsole
