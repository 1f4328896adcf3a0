import DebugConsole.Proofs.Variable.Members

set_option autoImplicit false

/-!
# The nodes of a decoded tree

A node is found by its path: the place of a member, the place of one of that member's members, and so on.
The same path leads to the piece of the text that the node is decoded from (`Variable.textAt?`), and to what
the piece is: a leaf, the characters of a string or the segments between two braces (`Variable.originAt?`).
So whatever text is decoded, each node can be held against what is printed for it: its members against the
segments, and the text of a leaf against the whole (`isWellFormed_of_decode`).

Only the characters of a string have no piece of their own.
-/

namespace DebugConsole

/-! ## Pieces of the text -/

namespace Segments

variable {body : String} {s : Scanner} {segment rest : List Char} {parts : List (List Char)}

theorem infix_of_cutFrom (h : cutFrom body s segment rest = .ok parts) :
    ∀ p ∈ parts, p <:+: segment.reverse ++ rest := by
  induction rest generalizing s segment parts with
  | nil =>
    rw [cutFrom] at h
    split at h
    · cases h
      exact List.forall_mem_singleton.2 (List.prefix_append _ []).isInfix
    · cases h
  | cons c rest ih =>
    rw [cutFrom] at h
    split at h
    · obtain ⟨ps, hps, rfl⟩ := Malformed.exists_of_map h
      refine List.forall_mem_cons.2 ⟨(List.prefix_append _ _).isInfix, fun p hp => ?_⟩
      exact (ih hps p hp).trans ⟨segment.reverse ++ [c], [], by simp⟩
    · split at h
      · cases h
      · have hinfix := ih h
        rwa [List.reverse_cons, List.append_assoc] at hinfix

theorem infix_of_split {body : List Char} (h : split body = .ok parts) : ∀ p ∈ parts, p <:+: body := by
  obtain ⟨cut, hcut, rfl⟩ := Malformed.exists_of_map h
  intro p hp
  obtain ⟨q, hq, rfl⟩ := List.mem_map.1 (List.mem_filter.1 hp).1
  exact (Text.trim_infix q).trans (infix_of_cutFrom hcut q hq)

end Segments

namespace Literal

theorem eq_of_braces? {s body : List Char} (h : braces? s = some body) : s = '{' :: (body ++ ['}']) := by
  unfold braces? at h
  split at h
  · rw [Text.before?_eq_some_iff.1 h]
  · cases h

/-- The text of a scalar is a piece of what is printed. -/
theorem infix_of_classify {text piece : List Char} {kind : ScalarKind}
    (h : classify text = .ok (.scalar kind piece)) : piece <:+: text := by
  obtain ⟨_, _, hpiece, hl⟩ | ⟨inside, hinside, hquoted⟩ | ⟨_, hl⟩ := cases_of_classify h
  · cases hl
    exact hpiece
  · unfold ofQuotation at hquoted
    split at hquoted
    · obtain ⟨values, -, hvalues⟩ := Malformed.exists_of_map hquoted
      cases hvalues
    · cases hquoted
      rw [eq_of_quotation? hinside]
      exact ⟨['"'], ['"'], by simp⟩
  · cases hl

end Literal

namespace Variable

open Draft (member? nameAndValue)

variable {name : String} {text piece : List Char} {path : List Nat} {place : Nat}
  {segments : List (List Char)} {values : List Nat} {v w m : Variable} {vs : List Variable}

/-! ## Nodes -/

/-- What a variable is: a scalar of a kind or an aggregate of a shape. -/
inductive Kind where
  | scalar (kind : ScalarKind)
  | aggregate (shape : Shape)
  deriving DecidableEq, Repr

def kind : Variable → Kind
  | .scalar _ kind _ => .scalar kind
  | .aggregate _ shape _ => .aggregate shape

/-- The list of members that an aggregate holds; a scalar holds a text instead. -/
def memberList? : Variable → Option (List Variable)
  | .scalar .. => none
  | .aggregate _ _ members => some members

/-- The node at a path: the place of a member, then the place of one of its members, and so on. -/
def at? (v : Variable) : List Nat → Option Variable
  | [] => some v
  | place :: path => v.members[place]?.bind fun m => m.at? path

theorem isSome_memberList?_iff (w : Variable) :
    w.memberList?.isSome = true ↔ w.kind = .aggregate .array ∨ w.kind = .aggregate .object := by
  cases w with
  | scalar name kind text => simp [memberList?, Variable.kind]
  | aggregate name shape members => cases shape <;> simp [memberList?, Variable.kind]

/-! ## What a node is made of -/

/-- What a text is decoded from. -/
inductive Origin where
  /-- a piece of it, which is kept -/
  | leaf (piece : List Char)
  /-- the characters of a string -/
  | characters (values : List Nat)
  /-- the segments between two braces -/
  | segments (segments : List (List Char))
  deriving DecidableEq, Repr

def origin? (text : List Char) : Option Origin :=
  match Literal.classify (Text.trim text) with
  | .ok (.scalar _ piece) => some (.leaf piece)
  | .ok (.bytes values) => some (.characters values)
  | .ok (.braces body) => (Segments.split body).toOption.map .segments
  | .error _ => none

/-- The text of the node at a path; the characters of a string have none of their own. -/
def textAt? (text : List Char) : List Nat → Option (List Char)
  | [] => some text
  | place :: path =>
    match origin? text with
    | some (.segments segments) =>
      segments[place]?.bind fun segment => textAt? (nameAndValue place segment).2 path
    | _ => none

/-- What the node at a path is made of. -/
def originAt? (text : List Char) (path : List Nat) : Option Origin := (textAt? text path).bind origin?

/-- The variables that are made of something. -/
inductive MadeOf (name : String) : Origin → Variable → Prop
  | leaf (kind : ScalarKind) (piece : List Char) :
      MadeOf name (.leaf piece) (.scalar name kind (String.ofList piece))
  | characters (values : List Nat) :
      MadeOf name (.characters values) (.aggregate name .array (Draft.byteMembers values))
  | segments {segments : List (List Char)} {vs : List Variable} (h : buildAll 0 segments = .ok vs) :
      MadeOf name (.segments segments) (.aggregate name (Draft.shapeOf segments) vs)

theorem exists_origin (h : build name text = .ok v) :
    ∃ origin, origin? text = some origin ∧ MadeOf name origin v := by
  rw [build_eq] at h
  unfold origin?
  cases hliteral : Literal.classify (Text.trim text) with
  | error e =>
    rw [hliteral] at h
    cases h
  | ok literal =>
    rw [hliteral] at h
    cases literal with
    | scalar kind piece =>
      cases h
      exact ⟨_, rfl, .leaf kind piece⟩
    | bytes values =>
      cases h
      exact ⟨_, rfl, .characters values⟩
    | braces body =>
      obtain ⟨segments, hsplit, h⟩ := Malformed.exists_of_bind h
      obtain ⟨vs, hvs, rfl⟩ := Malformed.exists_of_map h
      refine ⟨.segments segments, ?_, .segments hvs⟩
      dsimp only
      rw [hsplit]
      rfl

theorem cases_of_origin? {origin : Origin} (h : origin? text = some origin) :
    (∃ kind piece, Literal.classify (Text.trim text) = .ok (.scalar kind piece) ∧ origin = .leaf piece) ∨
      (∃ values, Literal.classify (Text.trim text) = .ok (.bytes values) ∧ origin = .characters values) ∨
        ∃ body segments, Literal.classify (Text.trim text) = .ok (.braces body) ∧
          Segments.split body = .ok segments ∧ origin = .segments segments := by
  unfold origin? at h
  split at h
  · next hliteral => exact .inl ⟨_, _, hliteral, (Option.some.inj h).symm⟩
  · next hliteral => exact .inr (.inl ⟨_, hliteral, (Option.some.inj h).symm⟩)
  · next hliteral =>
    obtain ⟨segments, hsplit, horigin⟩ := Option.map_eq_some_iff.1 h
    exact .inr (.inr ⟨_, segments, hliteral, Malformed.toOption_eq_some_iff.1 hsplit, horigin.symm⟩)
  · cases h

theorem infix_of_leaf (h : origin? text = some (.leaf piece)) : piece <:+: text := by
  obtain ⟨_, _, hliteral, heq⟩ | ⟨_, -, heq⟩ | ⟨_, _, -, -, heq⟩ := cases_of_origin? h
  · cases heq
    exact (Literal.infix_of_classify hliteral).trans (Text.trim_infix text)
  · cases heq
  · cases heq

theorem infix_of_segments (h : origin? text = some (.segments segments)) : ∀ s ∈ segments, s <:+: text := by
  obtain ⟨_, _, -, heq⟩ | ⟨_, -, heq⟩ | ⟨body, _, hliteral, hsplit, heq⟩ := cases_of_origin? h
  · cases heq
  · cases heq
  · cases heq
    have htrim := Literal.eq_of_braces? (Literal.braces?_of_classify hliteral)
    have hbody : body <:+: Text.trim text := ⟨['{'], ['}'], by simp [htrim]⟩
    exact fun s hs => ((Segments.infix_of_split hsplit s hs).trans hbody).trans (Text.trim_infix text)

theorem textAt?_cons (h : origin? text = some (.segments segments)) (place : Nat) (path : List Nat) :
    textAt? text (place :: path) =
      segments[place]?.bind fun segment => textAt? (nameAndValue place segment).2 path := by
  rw [textAt?, h]

/-- What a node is decoded from is a piece of the text. -/
theorem infix_of_textAt? (h : textAt? text path = some piece) : piece <:+: text := by
  induction path generalizing text with
  | nil =>
    cases h
    exact List.infix_refl _
  | cons place path ih =>
    rw [textAt?] at h
    split at h
    · next segments hsegments =>
      obtain ⟨segment, hsegment, h⟩ := Option.bind_eq_some_iff.1 h
      have hinfix := infix_of_segments hsegments segment (List.mem_of_getElem? hsegment)
      exact ((ih h).trans (Draft.nameAndValue_suffix place segment).isInfix).trans hinfix
    · cases h

/-! ## Members -/

theorem getElem?_byteMembers (h : (Draft.byteMembers values)[place]? = some m) :
    ∃ value, values[place]? = some value ∧ m = .scalar (toString place) .integer (toString value) := by
  rw [Draft.byteMembers, List.getElem?_map, List.getElem?_zipIdx, Option.map_map] at h
  obtain ⟨value, hvalue, rfl⟩ := Option.map_eq_some_iff.1 h
  exact ⟨value, hvalue, by simp⟩

/-- Each member is decoded from the segment at its place. -/
theorem getElem?_of_buildAll {start : Nat} (h : buildAll start segments = .ok vs)
    (hm : vs[place]? = some m) : ∃ segment, segments[place]? = some segment ∧
      build (nameAndValue (start + place) segment).1 (nameAndValue (start + place) segment).2 = .ok m := by
  induction segments generalizing start vs place with
  | nil =>
    rw [buildAll.eq_def] at h
    cases h
    cases hm
  | cons segment rest ih =>
    rw [buildAll_cons] at h
    obtain ⟨first, hfirst, h⟩ := Malformed.exists_of_bind h
    obtain ⟨ws, hws, rfl⟩ := Malformed.exists_of_map h
    cases place with
    | zero =>
      cases hm
      exact ⟨segment, rfl, hfirst⟩
    | succ place =>
      obtain ⟨segment', hsegment, hbuild⟩ := ih hws hm
      rw [Nat.add_right_comm] at hbuild
      exact ⟨segment', hsegment, hbuild⟩

/-- There is a member for each segment. -/
theorem exists_of_buildAll {segment : List Char} (h : buildAll 0 segments = .ok vs)
    (hsegment : segments[place]? = some segment) : ∃ m, vs[place]? = some m := by
  have hlength : vs.length = segments.length := by
    rw [← length_memberNames 0 segments, ← names_of_buildAll h, List.length_map]
  have hplace : place < segments.length := (List.getElem?_eq_some_iff.1 hsegment).1
  exact ⟨_, List.getElem?_eq_getElem (hlength ▸ hplace)⟩

/-- A node is decoded from its own text, or it is a character of a string. -/
theorem at?_cases (h : build name text = .ok v) (hw : v.at? path = some w) :
    (∃ piece, textAt? text path = some piece ∧ build w.name piece = .ok w) ∨
      originAt? text path = none ∧ ∃ string place values value, path = string ++ [place] ∧
        originAt? text string = some (.characters values) ∧ values[place]? = some value ∧
        w = .scalar (toString place) .integer (toString value) := by
  induction path generalizing name text v with
  | nil =>
    cases hw
    exact .inl ⟨text, rfl, by rwa [name_of_build h]⟩
  | cons place path ih =>
    obtain ⟨m, hm, hnode⟩ := Option.bind_eq_some_iff.1 hw
    obtain ⟨origin, horigin, hmade⟩ := exists_origin h
    cases hmade with
    | leaf kind piece => cases hm
    | characters values =>
      obtain ⟨value, hvalue, rfl⟩ := getElem?_byteMembers hm
      cases path with
      | nil =>
        cases hnode
        refine .inr ⟨?_, [], place, values, value, rfl, horigin, hvalue, rfl⟩
        rw [originAt?, textAt?, horigin]
        rfl
      | cons place' path => cases hnode
    | @segments segments vs hvs =>
      obtain ⟨segment, hsegment, hbuild⟩ := getElem?_of_buildAll hvs hm
      rw [Nat.zero_add] at hbuild
      have htext : ∀ path, textAt? text (place :: path) = textAt? (nameAndValue place segment).2 path :=
        fun path => by rw [textAt?_cons horigin, hsegment, Option.bind_some]
      obtain ⟨piece, hpiece, hbuilt⟩ | ⟨hnone, string, place', values, value, rfl, hvalues, hrest⟩ :=
        ih hbuild hnode
      · exact .inl ⟨piece, by rw [htext, hpiece], hbuilt⟩
      · refine .inr ⟨?_, place :: string, place', values, value, rfl, ?_, hrest⟩
        · rwa [originAt?, htext]
        · rwa [originAt?, htext]

/-! ## Well-formed trees -/

/-- What is true of the node `w` at a path, in a tree that is decoded from a text. -/
structure IsWellFormed (text : List Char) (path : List Nat) (w : Variable) : Prop where
  /-- arrays and objects hold members, and nothing else does -/
  listed : w.memberList?.isSome = true ↔ w.kind = .aggregate .array ∨ w.kind = .aggregate .object
  /-- members stand between braces or are the characters of a string -/
  printed : w.memberList?.isSome = true →
    (∃ segments, originAt? text path = some (.segments segments)) ∨
      ∃ values, originAt? text path = some (.characters values)
  /-- every member of an object is printed with its name -/
  named : ∀ segments, originAt? text path = some (.segments segments) → w.kind = .aggregate .object →
    ∀ (place : Nat) (m : Variable), w.members[place]? = some m →
      ∃ segment value, segments[place]? = some segment ∧ member? segment = some (m.name, value)
  /-- some member of an array is printed without a name, and named by its place -/
  placed : ∀ segments, originAt? text path = some (.segments segments) → w.kind = .aggregate .array →
    ∃ (place : Nat) (m : Variable) (segment : List Char), w.members[place]? = some m ∧
      m.name = toString place ∧ segments[place]? = some segment ∧ member? segment = none
  /-- the characters of a string are the integers in an array, named by their places -/
  characters : ∀ values, originAt? text path = some (.characters values) → w.kind = .aggregate .array ∧
    ∀ (place : Nat) (m : Variable), w.members[place]? = some m →
      m.kind = .scalar .integer ∧ m.name = toString place
  /-- what a leaf holds is a piece of the text, unless it is such a character -/
  leaf : ∀ name kind piece, w = .scalar name kind piece → piece.toList <:+: text ∨
    ∃ string place values, path = string ++ [place] ∧ originAt? text string = some (.characters values)

/-- The characters of a string have no origin of their own. -/
theorem isWellFormed_character {string : List Nat} (value : Nat)
    (hnone : originAt? text (string ++ [place]) = none)
    (hvalues : originAt? text string = some (.characters values)) :
    IsWellFormed text (string ++ [place]) (.scalar (toString place) .integer (toString value)) where
  listed := isSome_memberList?_iff _
  printed := by rintro ⟨⟩
  named := fun segments hsegments => nomatch hnone.symm.trans hsegments
  placed := fun segments hsegments => nomatch hnone.symm.trans hsegments
  characters := fun values hvalues => nomatch hnone.symm.trans hvalues
  leaf := fun _ _ _ _ => .inr ⟨string, place, values, rfl, hvalues⟩

theorem named_of_buildAll (h : buildAll 0 segments = .ok vs) (hshape : Draft.shapeOf segments = .object)
    (hm : vs[place]? = some m) :
    ∃ segment value, segments[place]? = some segment ∧ member? segment = some (m.name, value) := by
  have hall : ∀ s ∈ segments, (member? s).isSome = true := by
    unfold Draft.shapeOf at hshape
    split at hshape
    · next hall => exact List.all_eq_true.1 hall
    · cases hshape
  obtain ⟨segment, hsegment, hbuild⟩ := getElem?_of_buildAll h hm
  obtain ⟨⟨memberName, value⟩, hmember⟩ :=
    Option.isSome_iff_exists.1 (hall segment (List.mem_of_getElem? hsegment))
  have hname := name_of_build hbuild
  rw [nameAndValue, hmember, Option.getD_some] at hname
  exact ⟨segment, value, hsegment, by rw [hmember, hname]⟩

theorem placed_of_buildAll (h : buildAll 0 segments = .ok vs) (hshape : Draft.shapeOf segments = .array) :
    ∃ (place : Nat) (m : Variable) (segment : List Char), vs[place]? = some m ∧
      m.name = toString place ∧ segments[place]? = some segment ∧ member? segment = none := by
  have hex : ∃ s ∈ segments, member? s = none := by
    rw [← Draft.shapeOf_eq] at hshape
    split at hshape
    · assumption
    · cases hshape
  obtain ⟨segment, hmem, hnone⟩ := hex
  obtain ⟨place, hsegment⟩ := List.getElem?_of_mem hmem
  obtain ⟨m, hm⟩ := exists_of_buildAll h hsegment
  obtain ⟨segment', hsegment', hbuild⟩ := getElem?_of_buildAll h hm
  obtain rfl : segment' = segment := Option.some.inj (hsegment'.symm.trans hsegment)
  have hname := name_of_build hbuild
  rw [nameAndValue, hnone, Option.getD_none, Nat.zero_add] at hname
  exact ⟨place, m, segment', hm, hname, hsegment, hnone⟩

/-- A node that is decoded from its own text. -/
theorem isWellFormed_of_build (hpiece : textAt? text path = some piece) (h : build name piece = .ok w) :
    IsWellFormed text path w := by
  obtain ⟨origin, horigin, hmade⟩ := exists_origin h
  have horiginAt : originAt? text path = some origin := by rw [originAt?, hpiece, Option.bind_some, horigin]
  cases hmade with
  | leaf kind leaf =>
    have hleaf := (infix_of_leaf horigin).trans (infix_of_textAt? hpiece)
    refine ⟨isSome_memberList?_iff _, by rintro ⟨⟩, ?_, ?_, ?_, ?_⟩
    · exact fun _ hsegments => nomatch horiginAt.symm.trans hsegments
    · exact fun _ hsegments => nomatch horiginAt.symm.trans hsegments
    · exact fun _ hvalues => nomatch horiginAt.symm.trans hvalues
    · rintro _ _ _ ⟨⟩
      exact .inl (by rwa [String.toList_ofList])
  | characters values =>
    refine ⟨isSome_memberList?_iff _, fun _ => .inr ⟨values, horiginAt⟩, ?_, ?_, ?_, ?_⟩
    · exact fun _ hsegments => nomatch horiginAt.symm.trans hsegments
    · exact fun _ hsegments => nomatch horiginAt.symm.trans hsegments
    · refine fun _ _ => ⟨rfl, fun place m hm => ?_⟩
      obtain ⟨value, -, rfl⟩ := getElem?_byteMembers hm
      exact ⟨rfl, rfl⟩
    · rintro _ _ _ ⟨⟩
  | @segments segments vs hvs =>
    refine ⟨isSome_memberList?_iff _, fun _ => .inl ⟨segments, horiginAt⟩, ?_, ?_, ?_, ?_⟩
    · intro segments' hsegments hkind place m hm
      cases horiginAt.symm.trans hsegments
      exact named_of_buildAll hvs (Kind.aggregate.inj hkind) hm
    · intro segments' hsegments hkind
      cases horiginAt.symm.trans hsegments
      exact placed_of_buildAll hvs (Kind.aggregate.inj hkind)
    · exact fun _ hvalues => nomatch horiginAt.symm.trans hvalues
    · rintro _ _ _ ⟨⟩

theorem build_of_decode (h : decode name text = .ok v) : build name text = .ok v := by
  rw [← Malformed.toOption_eq_some_iff, ← toOption_decode, h]
  rfl

/-- Whatever text is decoded, the tree is well formed at each of its nodes. -/
theorem isWellFormed_of_decode (h : decode name text = .ok v) (hw : v.at? path = some w) :
    IsWellFormed text path w := by
  obtain ⟨piece, hpiece, hbuilt⟩ | ⟨hnone, string, place, values, value, rfl, hvalues, -, rfl⟩ :=
    at?_cases (build_of_decode h) hw
  · exact isWellFormed_of_build hpiece hbuilt
  · exact isWellFormed_character value hnone hvalues

/-- A structure with one member, and a string with an escape. -/
theorem isWellFormed_of_decode_nested :
    let text := "\x7bn = \x7ba = 7\x7d, \"\\001b\"\x7d".toList
    let leaf : Variable := .scalar "a" .integer "7"
    let character : Variable := .scalar "1" .integer "98"
    let string : Variable := .aggregate "1" .array [.scalar "0" .integer "1", character]
    let v : Variable := .aggregate "v" .array [.aggregate "n" .object [leaf], string]
    decode "v" text = .ok v ∧ v.at? [0, 0] = some leaf ∧ v.at? [1, 1] = some character ∧
      IsWellFormed text [] v ∧ IsWellFormed text [0, 0] leaf ∧ IsWellFormed text [1, 1] character := by
  intro text leaf character string v
  have hdraft : Draft.ofText "v" text =
      .ok (.unopened "v" "n = \x7ba = 7\x7d, \"\\001b\"".toList) := rfl
  have hopen : Draft.openBody "v" "n = \x7ba = 7\x7d, \"\\001b\"".toList =
      .ok ⟨"v", .array, [.ready string, .unopened "n" "a = 7".toList], []⟩ := rfl
  have hinner : Draft.openBody "n" "a = 7".toList = .ok ⟨"n", .object, [.ready leaf], []⟩ := rfl
  have hdecode : decode "v" text = .ok v := by
    rw [Compressed.decode_of_openBody hdraft hopen, Printed.expand_ready, Printed.expand_unopened _ hinner,
      Printed.expand_ready, Printed.expand_close]
    exact Printed.expand_last "v" _
  exact ⟨hdecode, rfl, rfl, isWellFormed_of_decode hdecode rfl, isWellFormed_of_decode hdecode rfl,
    isWellFormed_of_decode hdecode rfl⟩

end Variable

end DebugConsole
