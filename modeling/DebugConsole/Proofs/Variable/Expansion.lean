import DebugConsole.Variable.Decode

set_option autoImplicit false

/-!
# Decoding by recursion

What a text stands for can be said by recursion on the text: an aggregate's inside is cut into segments, and
each segment's value is decoded by itself (`Variable.build`).  Decoding with a stack of open aggregates
(`OpenAggregate.expand`) takes the members in another order, and so it may come upon another malformed value
first, but what it returns does not depend on the order: a stack stands for what becomes of its drafts, one
by one (`surround`).  A tree built from a text has no more nodes than the text has characters, and one.
`decode_eq_build` says both.
-/

namespace DebugConsole

open Segments (size size_cons)

/-! ## Decoding in two steps -/

namespace Malformed

variable {α β : Type} {x : Except Malformed α} {b : β}

theorem toOption_bind (x : Except Malformed α) (f : α → Except Malformed β) :
    (x >>= f).toOption = x.toOption.bind fun a => (f a).toOption := by
  cases x <;> rfl

theorem exists_of_bind {f : α → Except Malformed β} (h : x.bind f = .ok b) :
    ∃ a, x = .ok a ∧ f a = .ok b := by
  cases x with
  | error e => cases h
  | ok a => exact ⟨a, rfl, h⟩

theorem exists_of_map {f : α → β} (h : x.map f = .ok b) : ∃ a, x = .ok a ∧ f a = b := by
  cases x with
  | error e => cases h
  | ok a => exact ⟨a, rfl, Except.ok.inj h⟩

end Malformed

/-! ## The sizes of segments -/

namespace Segments

variable {body : String} {s : Scanner} {segment rest : List Char} {parts : List (List Char)}

/-- Cutting a text loses as many commas as it makes further segments. -/
theorem size_add_length_of_cutFrom (h : cutFrom body s segment rest = .ok parts) :
    size parts + parts.length = segment.length + rest.length + 1 := by
  induction rest generalizing s segment parts with
  | nil =>
    rw [cutFrom] at h
    split at h
    · cases h
      simp
    · cases h
  | cons c rest ih =>
    rw [cutFrom] at h
    split at h
    · obtain ⟨ps, hps, rfl⟩ := Malformed.exists_of_map h
      have := ih hps
      simp only [size_cons, List.length_cons, List.length_reverse, List.length_nil] at this ⊢
      omega
    · split at h
      · cases h
      · have := ih h
        simp only [List.length_cons] at this ⊢
        omega

theorem size_add_length_trim_le (parts : List (List Char)) :
    size ((parts.map Text.trim).filter fun part => !part.isEmpty) +
        ((parts.map Text.trim).filter fun part => !part.isEmpty).length ≤
      size parts + parts.length := by
  induction parts with
  | nil => simp
  | cons p parts ih =>
    have hp := length_trim_le p
    simp only [List.map_cons, List.filter_cons]
    split <;> simp only [size_cons, List.length_cons] <;> omega

/-- The segments of a text, with a comma between any two of them, are no longer than the text. -/
theorem size_add_length_of_split {body : List Char} (h : split body = .ok parts) :
    size parts + parts.length ≤ body.length + 1 := by
  obtain ⟨cut, hcut, rfl⟩ := Malformed.exists_of_map h
  have hsize := size_add_length_of_cutFrom hcut
  simp only [List.length_nil] at hsize
  refine Nat.le_trans (size_add_length_trim_le cut) ?_
  omega

end Segments

theorem Literal.length_of_classify {text body : List Char}
    (h : Literal.classify (Text.trim text) = .ok (.braces body)) : body.length + 2 ≤ text.length := by
  have hbody := Literal.length_of_braces? (Literal.braces?_of_classify h)
  have htrim := Segments.length_trim_le text
  omega

/-- A member's value is what its segment ends in. -/
theorem Draft.nameAndValue_suffix (place : Nat) (segment : List Char) :
    (Draft.nameAndValue place segment).2 <:+ segment := by
  unfold Draft.nameAndValue
  cases hmember : Draft.member? segment with
  | none => exact List.suffix_refl segment
  | some member =>
    unfold Draft.member? at hmember
    split at hmember
    · cases hmember
    · next name tail hname =>
      obtain ⟨blanks, hblanks, -⟩ := Text.trimLeft_split tail
      split at hmember
      · next value hvalue =>
        split at hmember
        · cases hmember
        · cases hmember
          refine ⟨name ++ (blanks ++ ['=']), ?_⟩
          rw [Draft.memberName?_append hname, hblanks, hvalue]
          simp
      · cases hmember

theorem Draft.length_nameAndValue_le (place : Nat) (segment : List Char) :
    (Draft.nameAndValue place segment).2.length ≤ segment.length :=
  (Draft.nameAndValue_suffix place segment).length_le

/-! ## Decoding by recursion -/

namespace Variable

mutual

/-- The variable that a text stands for, by recursion on the text. -/
def build (name : String) (text : List Char) : Except Malformed Variable :=
  match _hliteral : Literal.classify (Text.trim text) with
  | .error e => .error e
  | .ok (.scalar kind text) => .ok (.scalar name kind (String.ofList text))
  | .ok (.bytes values) => .ok (.aggregate name .array (Draft.byteMembers values))
  | .ok (.braces body) =>
    match _hsplit : Segments.split body with
    | .error e => .error e
    | .ok segments =>
      (buildAll 0 segments).map
        (.aggregate name (if ∃ s ∈ segments, Draft.member? s = none then .array else .object))
termination_by 2 * text.length
decreasing_by
  have hlength := Segments.size_add_length_of_split _hsplit
  have hbody := Literal.length_of_classify _hliteral
  omega

/-- The variables that the segments from the given place onwards stand for. -/
def buildAll (place : Nat) : List (List Char) → Except Malformed (List Variable)
  | [] => .ok []
  | segment :: rest => do
    let v ← build (Draft.nameAndValue place segment).1 (Draft.nameAndValue place segment).2
    let vs ← buildAll (place + 1) rest
    return v :: vs
termination_by segments => 2 * size segments + segments.length
decreasing_by
  · have := Draft.length_nameAndValue_le place segment
    simp only [size_cons, List.length_cons]
    omega
  · simp only [size_cons, List.length_cons]
    omega

end

end Variable

/-! ## What becomes of drafts -/

namespace Draft

/-- The variable that a draft becomes. -/
def settle : Draft → Option Variable
  | ready v => some v
  | unopened name body =>
    (Segments.split body).toOption.bind fun segments =>
      (Variable.buildAll 0 segments).toOption.map (.aggregate name (shapeOf segments))

theorem shapeOf_eq (segments : List (List Char)) :
    (if ∃ s ∈ segments, member? s = none then .array else .object) = shapeOf segments := by
  have hiff : (∃ s ∈ segments, member? s = none) ↔
      ¬ (segments.all fun s => (member? s).isSome) = true := by
    simp
  unfold shapeOf
  by_cases h : ∃ s ∈ segments, member? s = none
  · rw [if_pos h, if_neg (hiff.1 h)]
  · rw [if_neg h, if_pos (Decidable.not_not.1 (mt hiff.2 h))]

end Draft

namespace Variable

theorem build_eq (name : String) (text : List Char) :
    build name text =
      match Literal.classify (Text.trim text) with
      | .error e => .error e
      | .ok (.scalar kind text) => .ok (.scalar name kind (String.ofList text))
      | .ok (.bytes values) => .ok (.aggregate name .array (Draft.byteMembers values))
      | .ok (.braces body) => (Segments.split body).bind fun segments =>
          (buildAll 0 segments).map (.aggregate name (Draft.shapeOf segments)) := by
  rw [build.eq_def]
  split
  · next e hliteral => rw [hliteral]
  · next kind text hliteral => rw [hliteral]
  · next values hliteral => rw [hliteral]
  · next body hliteral =>
    rw [hliteral]
    dsimp only
    split
    · next e hsplit =>
      rw [hsplit]
      rfl
    · next segments hsplit =>
      rw [hsplit, Draft.shapeOf_eq]
      rfl

theorem build_of_split {name : String} {text body : List Char} {segments : List (List Char)}
    (hliteral : Literal.classify (Text.trim text) = .ok (.braces body))
    (hsplit : Segments.split body = .ok segments) :
    build name text = (buildAll 0 segments).map (.aggregate name (Draft.shapeOf segments)) := by
  rw [build_eq, hliteral]
  dsimp only
  rw [hsplit]
  rfl

theorem name_of_build {name : String} {text : List Char} {v : Variable}
    (h : build name text = .ok v) : v.name = name := by
  rw [build_eq] at h
  split at h
  · cases h
  · cases h
    rfl
  · cases h
    rfl
  · obtain ⟨segments, -, h⟩ := Malformed.exists_of_bind h
    obtain ⟨vs, -, rfl⟩ := Malformed.exists_of_map h
    rfl

/-- The blanks around a text do not count. -/
theorem build_congr (name : String) {text text' : List Char} (h : Text.trim text = Text.trim text') :
    build name text = build name text' := by
  rw [build_eq, build_eq, h]

theorem buildAll_cons (place : Nat) (segment : List Char) (rest : List (List Char)) :
    buildAll place (segment :: rest) =
      (build (Draft.nameAndValue place segment).1 (Draft.nameAndValue place segment).2).bind fun v =>
        (buildAll (place + 1) rest).map (v :: ·) := by
  rw [buildAll.eq_def]
  rfl

/-- A text stands for what becomes of its draft. -/
theorem toOption_build (name : String) (text : List Char) :
    (build name text).toOption = (Draft.ofText name text).toOption.bind Draft.settle := by
  rw [build_eq, Draft.ofText]
  cases Literal.classify (Text.trim text) with
  | error e => rfl
  | ok literal =>
    cases literal with
    | scalar kind text => rfl
    | bytes values => rfl
    | braces body =>
      change (Segments.split body >>= _).toOption = Draft.settle (.unopened name body)
      rw [Malformed.toOption_bind, Draft.settle]
      congr 1
      funext segments
      cases buildAll 0 segments <;> rfl

theorem toOption_buildAll (place : Nat) (segments : List (List Char)) :
    (buildAll place segments).toOption =
      (Draft.ofSegments place segments).toOption.bind fun ds => ds.mapM Draft.settle := by
  induction segments generalizing place with
  | nil =>
    rw [buildAll.eq_def]
    rfl
  | cons segment rest ih =>
    have hbuild := toOption_build (Draft.nameAndValue place segment).1 (Draft.nameAndValue place segment).2
    have hrest := ih (place + 1)
    rw [buildAll.eq_def, Draft.ofSegments]
    simp only [Malformed.toOption_bind, hbuild, hrest]
    cases (Draft.ofText (Draft.nameAndValue place segment).1
      (Draft.nameAndValue place segment).2).toOption with
    | none => rfl
    | some d =>
      cases (Draft.ofSegments (place + 1) rest).toOption with
      | none => simp
      | some ds =>
        exact (List.mapM_cons (f := Draft.settle)).symm

end Variable

/-! ## What becomes of a stack -/

namespace OpenAggregate

/-- The variable that an open aggregate becomes. -/
def finish (a : OpenAggregate) : Option Variable :=
  (a.waiting.reverse.mapM Draft.settle).map fun vs => .aggregate a.name a.shape (vs ++ a.decoded)

/-- The variable that a stack of open aggregates becomes when the one inside it is decoded. -/
def surround : List OpenAggregate → Variable → Option Variable
  | [], v => some v
  | b :: outer, v => (b.decode v).finish.bind (surround outer)

theorem finish_of_nil {a : OpenAggregate} (h : a.waiting = []) : a.finish = some a.close := by
  rw [finish, h]
  rfl

/-- The member that is taken next comes behind those that wait. -/
theorem finish_of_cons {a : OpenAggregate} {d : Draft} {waiting : List Draft}
    (h : a.waiting = d :: waiting) :
    a.finish = d.settle.bind fun v =>
      finish { a with waiting, decoded := v :: a.decoded } := by
  rw [finish, h, List.reverse_cons, List.mapM_append, List.mapM_cons]
  simp only [finish]
  cases waiting.reverse.mapM Draft.settle <;> cases d.settle <;> simp

theorem settle_unopened (name : String) (body : List Char) :
    Draft.settle (.unopened name body) = (Draft.openBody name body).toOption.bind finish := by
  rw [Draft.settle, Draft.openBody]
  cases Segments.split body with
  | error e => rfl
  | ok segments =>
    change (Variable.buildAll 0 segments).toOption.map _ = _
    rw [Variable.toOption_buildAll]
    cases hds : Draft.ofSegments 0 segments with
    | error e =>
      simp [hds, bind, Except.bind, Except.toOption]
    | ok ds =>
      simp [hds, bind, Except.bind, Except.toOption, finish, pure, Except.pure]

/-- A stack of open aggregates becomes what it stands for, in whatever order its drafts are opened. -/
theorem toOption_expand (a : OpenAggregate) (outer : List OpenAggregate) :
    (expand a outer).toOption = a.finish.bind (surround outer) := by
  fun_induction expand a outer with
  | case1 a hwaiting =>
    rw [finish_of_nil hwaiting]
    rfl
  | case2 a hwaiting b outer ih =>
    rw [ih, finish_of_nil hwaiting]
    rfl
  | case3 a outer v waiting hwaiting ih =>
    rw [ih, finish_of_cons hwaiting]
    rfl
  | case4 a outer name body waiting hwaiting e hopen =>
    rw [finish_of_cons hwaiting, settle_unopened, hopen]
    rfl
  | case5 a outer name body waiting hwaiting inner hopen ih =>
    rw [ih, finish_of_cons hwaiting, settle_unopened, hopen]
    exact (Option.bind_assoc ..).symm

end OpenAggregate

namespace Variable

theorem toOption_decode (name : String) (text : List Char) :
    (decode name text).toOption = (build name text).toOption := by
  rw [toOption_build, decode, Malformed.toOption_bind]
  cases (Draft.ofText name text).toOption with
  | none => rfl
  | some d =>
    cases d with
    | ready v => rfl
    | unopened name body =>
      rw [Option.bind_some, Option.bind_some, OpenAggregate.settle_unopened]
      change (Draft.openBody name body >>= _).toOption = _
      rw [Malformed.toOption_bind]
      congr 1
      funext a
      rw [OpenAggregate.toOption_expand]
      cases a.finish <;> rfl

theorem decode_of_build {name : String} {text : List Char} {v : Variable}
    (h : build name text = .ok v) : decode name text = .ok v := by
  have hoption := toOption_decode name text
  rw [h] at hoption
  cases hdecode : decode name text with
  | error e =>
    rw [hdecode] at hoption
    cases hoption
  | ok w =>
    rw [hdecode] at hoption
    rw [Option.some.inj hoption]

end Variable

/-! ## Literals -/

theorem Literal.eq_of_quotedTail? {s inside : List Char} (h : Literal.quotedTail? s = some inside) :
    s = inside ++ ['"'] := by
  fun_induction Literal.quotedTail? s generalizing inside with
  | case1 => cases h
  | case2 =>
    cases h
    rfl
  | case3 c rest ih =>
    obtain ⟨tail, htail, rfl⟩ := Option.map_eq_some_iff.1 h
    rw [ih htail, List.cons_append, List.cons_append]
  | case4 => cases h
  | case5 c rest hend hescape hmark ih =>
    obtain ⟨tail, htail, rfl⟩ := Option.map_eq_some_iff.1 h
    rw [ih htail, List.cons_append]

theorem Literal.eq_of_quotation? {s inside : List Char} (h : Literal.quotation? s = some inside) :
    s = '"' :: (inside ++ ['"']) := by
  unfold Literal.quotation? at h
  split at h
  · rw [Literal.eq_of_quotedTail? h]
  · cases h

theorem Literal.prefix_of_integer? {text number : List Char} (h : Literal.integer? text = some number) :
    number <+: text := by
  obtain ⟨⟨digits, rest⟩, -, htail⟩ := Option.bind_eq_some_iff.1 h
  dsimp only at htail
  split at htail
  · cases htail
    exact List.take_prefix _ _
  · cases htail

/-- What is neither a scalar, whose text is a piece of what is printed, nor an aggregate is a quotation. -/
theorem Literal.cases_of_classify {text : List Char} {literal : Literal}
    (h : Literal.classify text = .ok literal) :
    (∃ kind piece, piece <:+: text ∧ literal = .scalar kind piece) ∨
      (∃ inside, Literal.quotation? text = some inside ∧ Literal.ofQuotation inside = .ok literal) ∨
        ∃ body, literal = .braces body := by
  unfold Literal.classify at h
  split at h
  · next number hnumber =>
    exact .inl ⟨_, _, (Literal.prefix_of_integer? hnumber).isInfix, (Except.ok.inj h).symm⟩
  · split at h
    · exact .inl ⟨_, _, List.infix_refl text, (Except.ok.inj h).symm⟩
    · split at h
      · exact .inl ⟨_, _, List.infix_refl text, (Except.ok.inj h).symm⟩
      · obtain ⟨isRepeated, -, h⟩ := Malformed.exists_of_bind h
        split at h
        · exact .inl ⟨_, _, List.infix_refl text, (Except.ok.inj h).symm⟩
        · split at h
          · next inside hinside => exact .inr (.inl ⟨inside, hinside, h⟩)
          · split at h
            · exact .inr (.inr ⟨_, (Except.ok.inj h).symm⟩)
            · exact .inl ⟨_, _, List.infix_refl text, (Except.ok.inj h).symm⟩

/-- An array of bytes is printed as a quotation. -/
theorem Literal.exists_quotation_of_bytes {text : List Char} {values : List Nat}
    (h : Literal.classify text = .ok (.bytes values)) : ∃ inside, text = '"' :: (inside ++ ['"']) ∧
      CharArray.decode (String.ofList inside) = .ok values := by
  obtain ⟨_, _, -, hl⟩ | ⟨inside, hinside, hbytes⟩ | ⟨_, hl⟩ := Literal.cases_of_classify h
  · cases hl
  · refine ⟨inside, Literal.eq_of_quotation? hinside, ?_⟩
    unfold Literal.ofQuotation at hbytes
    split at hbytes
    · obtain ⟨vs, hvs, heq⟩ := Malformed.exists_of_map hbytes
      rwa [← Literal.bytes.inj heq]
    · cases hbytes
  · cases hl

/-! ## The number of nodes -/

theorem CharArray.length_of_map_cons {decoded : Except Malformed (List Nat)} {v n : Nat} {values : List Nat}
    (hdecoded : ∀ {vs}, decoded = .ok vs → vs.length ≤ n) (h : decoded.map (v :: ·) = .ok values) :
    values.length ≤ n + 1 := by
  obtain ⟨vs, hvs, rfl⟩ := Malformed.exists_of_map h
  exact Nat.succ_le_succ (hdecoded hvs)

theorem CharArray.length_of_decodeFrom {body : String} {skip : Nat} {s : List Char} {values : List Nat}
    (h : CharArray.decodeFrom body skip s = .ok values) : values.length ≤ s.length := by
  fun_induction CharArray.decodeFrom body skip s generalizing values with
  | case1 =>
    cases h
    exact Nat.le_refl 0
  | case2 c rest more ih => exact Nat.le_succ_of_le (ih h)
  | case3 c rest hplain ih => exact length_of_map_cons ih h
  | case4 c rest hescape v hoctal ih => exact length_of_map_cons ih h
  | case5 | case6 => cases h
  | case7 c e rest hescape hoctal v hletter ih => exact length_of_map_cons ih h

/-- An array has no more bytes than the text between its quotes has characters. -/
theorem Literal.length_of_classify_bytes {text : List Char} {values : List Nat}
    (h : Literal.classify (Text.trim text) = .ok (.bytes values)) : values.length + 2 ≤ text.length := by
  have htrim := Segments.length_trim_le text
  obtain ⟨inside, htext, hdecoded⟩ := Literal.exists_quotation_of_bytes h
  have hvalues := CharArray.length_of_decodeFrom hdecoded
  rw [String.toList_ofList] at hvalues
  rw [htext, List.length_cons, List.length_append, List.length_singleton] at htrim
  omega

namespace Variable

theorem countAll_byteMembers (values : List Nat) : countAll (Draft.byteMembers values) = values.length := by
  have hscalars : ∀ vs : List Variable, (∀ v ∈ vs, v.count = 1) → countAll vs = vs.length := by
    intro vs h
    induction vs with
    | nil => rfl
    | cons v vs ih =>
      rw [countAll, h v List.mem_cons_self, ih fun w hw => h w (List.mem_cons_of_mem _ hw),
        List.length_cons, Nat.add_comm]
  rw [hscalars, Draft.byteMembers, List.length_map, List.length_zipIdx]
  intro v hv
  obtain ⟨_, -, rfl⟩ := List.mem_map.1 hv
  rfl

/-- A tree has no more nodes than its text has characters, and one. -/
theorem count_build_le (name : String) (text : List Char) :
    ∀ v, build name text = .ok v → v.count ≤ text.length + 1 := by
  refine (build.mutual_induct (fun name text => ∀ v, build name text = .ok v → v.count ≤ text.length + 1)
    (fun place segments => ∀ vs, buildAll place segments = .ok vs →
      countAll vs ≤ size segments + segments.length) ?_ ?_ ?_ ?_ ?_ ?_ ?_).1 name text
  · intro name text e hliteral v hv
    rw [build_eq, hliteral] at hv
    cases hv
  · intro name text kind _ hliteral v hv
    rw [build_eq, hliteral] at hv
    cases hv
    exact Nat.le_add_left 1 _
  · intro name text values hliteral v hv
    have hlength := Literal.length_of_classify_bytes hliteral
    rw [build_eq, hliteral] at hv
    cases hv
    rw [count, countAll_byteMembers]
    omega
  · intro name text body hliteral e hsplit v hv
    rw [build_eq, hliteral] at hv
    dsimp only at hv
    rw [hsplit] at hv
    cases hv
  · intro name text body hliteral segments hsplit ih v hv
    have hbody := Literal.length_of_classify hliteral
    have hsegments := Segments.size_add_length_of_split hsplit
    rw [build_of_split hliteral hsplit] at hv
    obtain ⟨vs, hvs, rfl⟩ := Malformed.exists_of_map hv
    have hcounts := ih vs hvs
    rw [count]
    omega
  · intro place vs hvs
    rw [buildAll.eq_def] at hvs
    cases hvs
    exact Nat.zero_le _
  · intro place segment rest ih ihrest vs hvs
    have hlength := Draft.length_nameAndValue_le place segment
    rw [buildAll_cons] at hvs
    obtain ⟨v, hv, hvs⟩ := Malformed.exists_of_bind hvs
    obtain ⟨ws, hws, rfl⟩ := Malformed.exists_of_map hvs
    have hcount := ih v hv
    have hcounts := ihrest ws hws
    rw [countAll, size_cons, List.length_cons]
    omega

/-- A text is decoded to the variable that it stands for by recursion, which has no more nodes than the text
has characters, and one; or it is malformed in both ways. -/
theorem decode_eq_build (name : String) (text : List Char) :
    (∃ v, decode name text = .ok v ∧ build name text = .ok v ∧ v.count ≤ text.length + 1) ∨
      (∃ e, decode name text = .error e) ∧ ∃ e, build name text = .error e := by
  have hoption := toOption_decode name text
  cases hdecode : decode name text with
  | error e =>
    cases hbuild : build name text with
    | error e' => exact .inr ⟨⟨e, rfl⟩, ⟨e', rfl⟩⟩
    | ok v =>
      rw [hdecode, hbuild] at hoption
      cases hoption
  | ok v =>
    cases hbuild : build name text with
    | error e =>
      rw [hdecode, hbuild] at hoption
      cases hoption
    | ok w =>
      rw [hdecode, hbuild] at hoption
      cases hoption
      exact .inl ⟨v, rfl, rfl, count_build_le name text v hbuild⟩

end Variable

end DebugConsole
