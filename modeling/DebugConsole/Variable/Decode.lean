import DebugConsole.Variable.Literal

set_option autoImplicit false

/-!
# Decoding a printed value

A value is decoded from the outside inwards: the inside of an aggregate is cut into segments, every
segment is classified, and the aggregates among them wait as `Draft`s until they are opened
themselves, the last one first.  The aggregates that are open stand on an explicit stack, so a value
may be nested to any depth.

Opening an aggregate replaces a text by texts that are together shorter by its braces, which is why
the expansion ends: `Draft.weight` bounds the steps that a draft still needs.
-/

namespace DebugConsole

/-- A member that has been classified: decoded, or an aggregate whose inside is still text. -/
inductive Draft where
  | ready (v : Variable)
  | unopened (name : String) (body : List Char)

/-- An aggregate that is being decoded from its last member to its first. -/
structure OpenAggregate where
  name : String
  shape : Shape
  /-- the members still to be decoded, the last one first -/
  waiting : List Draft
  /-- the decoded members behind them, in order -/
  decoded : List Variable

namespace Draft

/-- The decoded characters of a character array, named by their places. -/
def byteMembers (values : List Nat) : List Variable :=
  (values.zipIdx).map fun (v, i) => .scalar (toString i) .integer (toString v)

/-- A classified value under its name. -/
def ofLiteral (name : String) : Literal → Draft
  | .scalar kind text => .ready (.scalar name kind (String.ofList text))
  | .bytes values => .ready (.aggregate name .array (byteMembers values))
  | .braces body => .unopened name body

/-- Classifies a value and gives it its name. -/
def ofText (name : String) (text : List Char) : Except Malformed Draft :=
  (Literal.classify (Text.trim text)).map (ofLiteral name)

/-- Reads the name that a member is printed with, and what follows the name. -/
def memberName? : List Char → Option (List Char × List Char)
  | '[' :: rest =>
    match Text.run? Text.isDecimal rest with
    | some (digits, ']' :: tail) => some ('[' :: digits ++ [']'], tail)
    | _ => none
  | '<' :: rest =>
    match Text.run? (fun c => c != '<' && c != '>' && c != '=') rest with
    | some (inside, '>' :: tail) => some ('<' :: inside ++ ['>'], tail)
    | _ => none
  | s => Text.run? Text.isName s

/-- Takes a segment of the form `name = value` apart. -/
def member? (segment : List Char) : Option (String × List Char) :=
  match memberName? segment with
  | none => none
  | some (name, tail) =>
    match Text.trimLeft tail with
    | '=' :: value => if value.isEmpty then none else some (String.ofList name, value)
    | _ => none

/-- The name and the value of the segment at a place. -/
def nameAndValue (place : Nat) (segment : List Char) : String × List Char :=
  (member? segment).getD (toString place, segment)

/-- Classifies the segments from the given place onwards. -/
def ofSegments (place : Nat) : List (List Char) → Except Malformed (List Draft)
  | [] => .ok []
  | segment :: rest => do
    let (name, value) := nameAndValue place segment
    let d ← ofText name value
    let ds ← ofSegments (place + 1) rest
    return d :: ds

/-- The shape of an aggregate with these segments. -/
def shapeOf (segments : List (List Char)) : Shape :=
  if segments.all fun s => (member? s).isSome then .object else .array

/-- Opens an aggregate: its inside is cut and every segment classified. -/
def openBody (name : String) (body : List Char) : Except Malformed OpenAggregate := do
  let segments ← Segments.split body
  let drafts ← ofSegments 0 segments
  return ⟨name, shapeOf segments, drafts.reverse, []⟩

/-- A bound on the steps that a draft still needs. -/
def weight : Draft → Nat
  | ready _ => 1
  | unopened _ body => 3 * body.length + 3

/-- A bound on the steps that all the drafts still need. -/
def weights : List Draft → Nat
  | [] => 0
  | d :: ds => d.weight + weights ds

@[simp] theorem weights_nil : weights [] = 0 := rfl

@[simp] theorem weights_cons (d : Draft) (ds : List Draft) :
    weights (d :: ds) = d.weight + weights ds := rfl

theorem weights_append (ds es : List Draft) : weights (ds ++ es) = weights ds + weights es := by
  induction ds with
  | nil => simp
  | cons d ds ih => simp only [List.cons_append, weights_cons, ih, Nat.add_assoc]

theorem weights_reverse (ds : List Draft) : weights ds.reverse = weights ds := by
  induction ds with
  | nil => rfl
  | cons d ds ih => simp [weights_append, ih, Nat.add_comm]

/-- A draft needs no more steps than three for each character of its text. -/
theorem weight_ofText_le {name : String} {text : List Char} {d : Draft}
    (hn : text ≠ []) (h : ofText name text = .ok d) : d.weight ≤ 3 * text.length := by
  have hpos : 0 < text.length := List.length_pos_iff.2 hn
  unfold ofText at h
  cases hc : Literal.classify (Text.trim text) with
  | error e => rw [hc] at h; simp [Except.map] at h
  | ok l =>
    rw [hc] at h
    simp only [Except.map, Except.ok.injEq] at h
    subst h
    cases l with
    | scalar kind t => simp only [ofLiteral, weight]; omega
    | bytes vs => simp only [ofLiteral, weight]; omega
    | braces body =>
      have hb := Literal.length_of_braces? (Literal.braces?_of_classify hc)
      have ht := Segments.length_trim_le text
      simp only [ofLiteral, weight]
      omega

theorem memberName?_append {s name tail : List Char} (h : memberName? s = some (name, tail)) :
    s = name ++ tail := by
  unfold memberName? at h
  split at h
  · split at h
    · rename_i hr
      simp only [Option.some.injEq, Prod.mk.injEq] at h
      obtain ⟨rfl, rfl⟩ := h
      simp [Text.run?_append hr]
    · simp at h
  · split at h
    · rename_i hr
      simp only [Option.some.injEq, Prod.mk.injEq] at h
      obtain ⟨rfl, rfl⟩ := h
      simp [Text.run?_append hr]
    · simp at h
  · exact Text.run?_append h

/-- A member's value is a part of its segment, and not an empty one. -/
theorem member?_value {segment value : List Char} {name : String}
    (h : member? segment = some (name, value)) :
    value ≠ [] ∧ value.length ≤ segment.length := by
  unfold member? at h
  split at h
  · simp at h
  · rename_i n tail hn
    have hs := memberName?_append hn
    obtain ⟨blanks, hb, _⟩ := Text.trimLeft_split tail
    split at h
    · rename_i v hv
      split at h
      · simp at h
      · rename_i he
        simp only [Option.some.injEq, Prod.mk.injEq] at h
        obtain ⟨_, rfl⟩ := h
        refine ⟨by simpa using he, ?_⟩
        rw [hv] at hb
        have e := congrArg List.length hs
        have e' := congrArg List.length hb
        simp only [List.length_append, List.length_cons] at e e'
        omega
    · simp at h

theorem nameAndValue_value (place : Nat) {segment : List Char} (hn : segment ≠ []) :
    (nameAndValue place segment).2 ≠ [] ∧
      (nameAndValue place segment).2.length ≤ segment.length := by
  unfold nameAndValue
  cases hm : member? segment with
  | none => exact ⟨hn, Nat.le_refl _⟩
  | some r =>
    obtain ⟨name, value⟩ := r
    exact member?_value hm

theorem weights_ofSegments_le {place : Nat} {segments : List (List Char)} {ds : List Draft}
    (hn : ∀ s ∈ segments, s ≠ []) (h : ofSegments place segments = .ok ds) :
    weights ds ≤ 3 * Segments.size segments := by
  induction segments generalizing place ds with
  | nil => simp only [ofSegments, Except.ok.injEq] at h; subst h; simp
  | cons s rest ih =>
    simp only [ofSegments] at h
    cases hd : ofText (nameAndValue place s).1 (nameAndValue place s).2 with
    | error e => rw [hd] at h; simp [bind, Except.bind] at h
    | ok d =>
      cases hr : ofSegments (place + 1) rest with
      | error e => rw [hd, hr] at h; simp [bind, Except.bind] at h
      | ok ds' =>
        rw [hd, hr] at h
        simp only [bind, Except.bind, pure, Except.pure, Except.ok.injEq] at h
        subst h
        have hv := nameAndValue_value place (hn s (by simp))
        have h1 := weight_ofText_le hv.1 hd
        have h2 := ih (fun t ht => hn t (by simp [ht])) hr
        simp only [weights_cons, Segments.size_cons]
        omega

/-- The members of an opened aggregate need no more steps than three for each character of its
inside. -/
theorem weights_openBody_le {name : String} {body : List Char} {a : OpenAggregate}
    (h : openBody name body = .ok a) : weights a.waiting ≤ 3 * body.length := by
  unfold openBody at h
  cases hs : Segments.split body with
  | error e => rw [hs] at h; simp [bind, Except.bind] at h
  | ok segments =>
    cases hd : ofSegments 0 segments with
    | error e => rw [hs] at h; simp [bind, Except.bind, hd] at h
    | ok ds =>
      rw [hs] at h
      simp only [bind, Except.bind, hd, pure, Except.pure, Except.ok.injEq] at h
      subst h
      have h1 := weights_ofSegments_le (fun s hs' => Segments.ne_nil_of_mem_split hs hs') hd
      have h2 := Segments.size_split_le hs
      simp only [weights_reverse]
      omega

end Draft

namespace OpenAggregate

/-- The variable that an aggregate without waiting members is. -/
def close (a : OpenAggregate) : Variable := .aggregate a.name a.shape a.decoded

/-- The aggregate with one more member decoded. -/
def decode (a : OpenAggregate) (v : Variable) : OpenAggregate :=
  { a with decoded := v :: a.decoded }

/-- A bound on the steps that an open aggregate still needs. -/
def weight (a : OpenAggregate) : Nat := Draft.weights a.waiting + 1

/-- A bound on the steps that a stack of open aggregates still needs. -/
def weights : List OpenAggregate → Nat
  | [] => 0
  | a :: stack => a.weight + weights stack

@[simp] theorem weights_cons (a : OpenAggregate) (stack : List OpenAggregate) :
    weights (a :: stack) = a.weight + weights stack := rfl

@[simp] theorem weight_decode (a : OpenAggregate) (v : Variable) : (a.decode v).weight = a.weight :=
  rfl

/-- Decodes the innermost open aggregate `a` and then those around it. -/
def expand (a : OpenAggregate) (outer : List OpenAggregate) : Except Malformed Variable :=
  match _hw : a.waiting with
  | [] =>
    match outer with
    | [] => .ok a.close
    | b :: outer => expand (b.decode a.close) outer
  | .ready v :: waiting => expand { a with waiting, decoded := v :: a.decoded } outer
  | .unopened name body :: waiting =>
    match _ho : Draft.openBody name body with
    | .error e => .error e
    | .ok inner => expand inner ({ a with waiting } :: outer)
termination_by weights (a :: outer)
decreasing_by
  · simp only [weights_cons, weight_decode]
    have : 0 < a.weight := Nat.succ_pos _
    omega
  · simp only [weights_cons, weight, _hw, Draft.weights_cons, Draft.weight]
    omega
  · have := Draft.weights_openBody_le _ho
    simp only [weights_cons, weight, _hw, Draft.weights_cons, Draft.weight]
    omega

end OpenAggregate

namespace Variable

/-- Decodes the value that was printed for a name. -/
def decode (name : String) (text : List Char) : Except Malformed Variable := do
  match ← Draft.ofText name text with
  | .ready v => return v
  | .unopened name body => (← Draft.openBody name body).expand []

/-- Decodes the parameters of a call as printed between its parentheses. -/
def decodeParameters (params : List Char) : Option (List Variable) :=
  if Text.allBlank params then some []
  else match decode "params" ('{' :: params ++ ['}']) with
    | .ok v => some v.members
    | .error _ => none

end Variable

end DebugConsole
