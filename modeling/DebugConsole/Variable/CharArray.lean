import DebugConsole.Variable.Malformed

set_option autoImplicit false

/-!
# Character arrays

A character array is printed as a quotation.  Bytes that have no glyph of their own are escaped:
seven of them, the two quotes, the question mark and the backslash by a letter, the others by three
octal digits.  `decode` gives the value of each character of the inside of such a quotation.
-/

namespace DebugConsole.CharArray

/-- The value of a letter escape. -/
def letterValue? : Char → Option Nat
  | 'a' => some 7
  | 'b' => some 8
  | 't' => some 9
  | 'n' => some 10
  | 'v' => some 11
  | 'f' => some 12
  | 'r' => some 13
  | '\\' => some 92
  | '\'' => some 39
  | '"' => some 34
  | '?' => some 63
  | _ => none

/-- The value of the three octal digits that a text starts with. -/
def octalTriple? : List Char → Option Nat
  | a :: b :: c :: _ => do
    return (← Text.octalValue? a) * 64 + (← Text.octalValue? b) * 8 + (← Text.octalValue? c)
  | _ => none

/-- Is there an escape that `decode` would expand, anywhere in the text? -/
def hasEscape : List Char → Bool
  | [] => false
  | c :: rest =>
    (c == '\\' && ((octalTriple? rest).isSome ||
      match rest with
      | [] => false
      | e :: _ => (letterValue? e).isSome)) || hasEscape rest

/-- Decodes the characters after the first `skip` ones, which belong to an escape already read. -/
def decodeFrom (body : String) (skip : Nat) : List Char → Except Malformed (List Nat)
  | [] => .ok []
  | c :: rest =>
    match skip with
    | more + 1 => decodeFrom body more rest
    | 0 =>
      if c != '\\' then (decodeFrom body 0 rest).map (c.toNat :: ·)
      else match octalTriple? rest with
        | some v => (decodeFrom body 3 rest).map (v :: ·)
        | none =>
          match rest with
          | [] => .error (.danglingEscape body)
          | e :: _ =>
            match letterValue? e with
            | none => .error (.unknownEscape e body)
            | some v => (decodeFrom body 1 rest).map (v :: ·)

/-- The value of each character of the inside of a quotation, escapes expanded. -/
def decode (body : String) : Except Malformed (List Nat) := decodeFrom body 0 body.toList

@[simp] theorem decodeFrom_nil (body : String) (skip : Nat) :
    decodeFrom body skip [] = .ok [] := rfl

end DebugConsole.CharArray
