import MediaProxy.Json.Typed
import MediaProxy.Proofs.Json.Number
import MediaProxy.Proofs.Json.Skip

/-!
This module contains what is read of a record that is spelled as an object. Its members are taken one after
the other: those that are not fields are passed over, whatever they are, and the first field that was there
before or that has a value of another form is the end of it.
-/

namespace MediaProxy

def FieldType.Fits : FieldType → Prop
  | .text => True
  | .natural bound => bound ≤ UInt64.size

instance (type : FieldType) : Decidable type.Fits :=
  match type with
  | .text => inferInstanceAs (Decidable True)
  | .natural bound => inferInstanceAs (Decidable (bound ≤ UInt64.size))

namespace Json

section
variable {fields : List Field} {found : Members} {required first : Bool} {blanks : List Blank}
  {c : Char} {input rest after : Symbols}

/-!
## Values
-/

theorem readText_quote (h : skipBlank input = some '"' :: rest)
    : readText input = (scanString rest).map fun (cs, rest) => (String.ofList cs, rest) := by
  unfold readText
  rw [h]
  rfl

theorem readText_of_ne (h : ∀ after, skipBlank input ≠ some '"' :: after)
    : (readText input).toOption = none := by
  unfold readText
  split
  . rename_i heq
    exact absurd heq (h _)
  . rfl

theorem readText_tree (tree : Tree) (blanks : List Blank) (rest : Symbols)
    : (readText ((Blank.text blanks).map some ++ (tree.text.map some ++ rest))).toOption =
        tree.string?.map (·, rest) := by
  have hblank := skipBlank_text_tree blanks tree rest
  cases tree with
  | string pieces =>
    rw [Tree.text, quoted_append] at hblank ⊢
    unfold Tree.string?
    rw [readText_quote hblank, toOption_map, scanString_body, Option.map_map, Option.map_map]
    rfl
  | number literal =>
    apply readText_of_ne
    obtain ⟨c, cs, htext, -, -, hother⟩ := literal.text_eq_cons
    intro after hafter
    rw [hblank, Tree.text, htext] at hafter
    cases hafter
    exact absurd (by decide) hother
  | bool b =>
    apply readText_of_ne
    rw [hblank]
    intro after hafter
    cases b <;> cases hafter
  | _ =>
    apply readText_of_ne
    rw [hblank]
    intro after hafter
    cases hafter

theorem readNatural_of_not (h : ∀ c after, skipBlank input = some c :: after →
      ¬(c = '-' ∨ (digit? (some c)).isSome))
    {bound : Nat} : (readNatural bound input).toOption = none := by
  unfold readNatural
  split
  . rename_i c after heq
    rw [if_neg (h c after heq)]
    rfl
  . rfl

theorem readNatural_literal {bound : Nat} (hbound : bound ≤ UInt64.size) (literal : Literal)
    (h : Ends rest) (hblank : skipBlank input = literal.text.map some ++ rest)
    : (readNatural bound input).toOption =
        (literal.natural?.filter (· < bound)).map (·, rest) := by
  obtain ⟨c, cs, htext, hfirst, -⟩ := literal.text_eq_cons
  have hscan := scanNumeral_text .truncated literal h
  rw [htext, List.map_cons, List.cons_append] at hscan hblank
  unfold readNatural
  simp only [hblank, if_pos hfirst, hscan]
  -- A number with more than digits, or with too many, is read as another kind of number, if at all.
  by_cases hfits : ∃ n, literal.natural? = some n ∧ n < UInt64.size
  . obtain ⟨n, hn⟩ := hfits
    rw [Literal.number_numeral_eq_natural_iff.2 hn, hn.1, Option.filter_some]
    by_cases hlt : n < bound <;> simp [hlt, Except.toOption]
  . have hnone : literal.natural?.filter (· < bound) = none := by
      rw [Option.filter_eq_none_iff]
      intro n hn hlt
      exact hfits ⟨n, hn, Nat.lt_of_lt_of_le (of_decide_eq_true hlt) hbound⟩
    rw [hnone]
    split
    . rfl
    . rename_i n hnumber
      exact absurd ⟨n, Literal.number_numeral_eq_natural_iff.1 hnumber⟩ hfits
    . rfl

theorem readNatural_tree {bound : Nat} (hbound : bound ≤ UInt64.size) (tree : Tree)
    (blanks : List Blank) (h : Ends rest)
    : (readNatural bound ((Blank.text blanks).map some ++ (tree.text.map some ++ rest))).toOption =
        (tree.natural?.filter (· < bound)).map (·, rest) := by
  have hblank := skipBlank_text_tree blanks tree rest
  cases tree with
  | number literal => exact readNatural_literal hbound literal h hblank
  | bool b =>
    apply readNatural_of_not
    rw [hblank]
    intro c after hafter
    cases b <;> cases hafter <;> decide
  | _ =>
    apply readNatural_of_not
    rw [hblank]
    intro c after hafter
    cases hafter
    decide

theorem readDatum_tree {type : FieldType} (htype : type.Fits) (tree : Tree) (blanks : List Blank)
    (h : Ends rest)
    : (readDatum type ((Blank.text blanks).map some ++ (tree.text.map some ++ rest))).toOption =
        (tree.datum? type).map (·, rest) := by
  cases type with
  | text =>
    unfold readDatum Tree.datum?
    dsimp only
    rw [toOption_map, readText_tree, Option.map_map, Option.map_map]
    rfl
  | natural bound =>
    unfold readDatum Tree.datum?
    dsimp only
    rw [toOption_map, readNatural_tree htype tree blanks h, Option.map_map, Option.map_map]
    rfl

/-!
## Members
-/

def Member.join? (fields : List Field) (found : Members) (member : Member Tree) : Option Members :=
  member.name?.bind fun name =>
    match fields.find? (·.name = name) with
    | none => some found
    | some field =>
      if (found.lookup name).isSome then none
      else (member.value.datum? field.type).map fun datum => (name, datum) :: found

def joinAll? (fields : List Field) (found : Members) : List (Member Tree) → Option Members
  | [] => some found
  | member :: members => (member.join? fields found).bind (joinAll? fields · members)

section
variable {member : Member Tree} {name : String} (hname : member.name? = some name)
include hname

theorem Member.join?_other (h : fields.find? (·.name = name) = none)
    : member.join? fields found = some found := by
  unfold join?
  rw [hname, Option.bind_some, h]

theorem Member.join?_field {field : Field} (h : fields.find? (·.name = name) = some field)
    : member.join? fields found =
        if (found.lookup name).isSome then none
        else (member.value.datum? field.type).map fun datum => (name, datum) :: found := by
  unfold join?
  rw [hname, Option.bind_some, h]

end

theorem skipColon_text (blanks : List Blank) (rest : Symbols)
    : skipColon ((Blank.text blanks).map some ++ some ':' :: rest) = .ok rest := by
  unfold skipColon
  rw [skipBlank_text_cons _ rfl]
  rfl

section
variable {name : List Char}
  (hname : scanString input = .ok (name, (Blank.text blanks).map some ++ some ':' :: rest))
include hname

theorem readMember_other (h : fields.find? (·.name = String.ofList name) = none)
    : readMember fields found (some '"' :: input) = (skipValue rest).map fun rest => (found, rest) := by
  unfold readMember
  simp only [hname, h, skipColon_text]

theorem readMember_field {field : Field}
    (h : fields.find? (·.name = String.ofList name) = some field)
    : readMember fields found (some '"' :: input) =
        if (found.lookup (String.ofList name)).isSome then .error .mismatch
        else (readDatum field.type rest).map fun (datum, rest) =>
          ((String.ofList name, datum) :: found, rest) := by
  unfold readMember
  simp only [hname, h, skipColon_text]

end

theorem readMember_of_error {problem : Problem} (h : scanString input = .error problem)
    : readMember fields found (some '"' :: input) = .error problem := by
  unfold readMember
  simp only [h]

theorem readMember_memberBody (hfields : ∀ field ∈ fields, field.type.Fits) (member : Member Tree)
    (h : Ends rest)
    : (readMember fields found (some '"' :: memberBody member rest)).toOption =
        (member.join? fields found).map (·, (Blank.text member.behind).map some ++ rest) := by
  have hends := h.text member.behind
  have hname := scanString_body member.name ((Blank.text member.beforeColon).map some ++ some ':' ::
    ((Blank.text member.beforeValue).map some ++
      (member.value.text.map some ++ ((Blank.text member.behind).map some ++ rest))))
  unfold memberBody
  cases hchars : Piece.chars? member.name with
  | none =>
    obtain ⟨problem, hscan⟩ := eq_error_of_toOption (hchars ▸ hname)
    unfold Member.join? Member.name?
    rw [readMember_of_error hscan, hchars]
    rfl
  | some cs =>
    have hscan := eq_ok_of_toOption (hchars ▸ hname)
    have hname : member.name? = some (String.ofList cs) := congrArg (Option.map String.ofList) hchars
    cases hfind : fields.find? (·.name = String.ofList cs) with
    | none =>
      rw [readMember_other hscan hfind, Member.join?_other hname hfind, toOption_map,
        skipValue_tree _ _ hends]
      rfl
    | some field =>
      have hfield := hfields field (List.mem_of_find?_eq_some hfind)
      rw [readMember_field hscan hfind, Member.join?_field hname hfind]
      split
      . rfl
      . rw [toOption_map, readDatum_tree hfield _ _ hends, Option.map_map, Option.map_map]
        rfl

theorem afterComma_memberSymbols (member : Member Tree) (rest : Symbols)
    : afterComma false (some ',' :: memberSymbols member rest) =
        .ok (some '"' :: memberBody member rest) :=
  congrArg Except.ok (skipBlank_text_cons _ rfl _)

/-!
## Objects
-/

def complete (fields : List Field) (required : Bool) (found : Members) : Bool :=
  !(required && fields.any fun field => (found.lookup field.name).isNone)

theorem readMembers_close (h : skipBlank input = some '\x7d' :: rest)
    : (readMembers fields required found first input).toOption =
        ((some found).filter (complete fields required)).map (·, rest) := by
  rw [readMembers]
  split
  . rename_i heq
    cases h.symm.trans heq
    rw [Option.filter_some]
    unfold complete
    cases required && fields.any fun field => (found.lookup field.name).isNone <;> rfl
  . rename_i heq
    exact absurd h (heq _)

theorem readMembers_cons (h : skipBlank input = some c :: rest) (hc : c ≠ '\x7d')
    (hcomma : afterComma first (some c :: rest) = .ok after)
    : (readMembers fields required found first input).toOption =
        (readMember fields found after).toOption.bind fun (found, rest) =>
          (readMembers fields required found false rest).toOption := by
  rw [readMembers]
  split
  . rename_i heq
    cases h.symm.trans heq
    exact absurd rfl hc
  . rw [h]
    split
    . rename_i hafter
      cases hcomma.symm.trans hafter
    . rename_i hafter
      cases hcomma.symm.trans hafter
      cases readMember fields found after <;> rfl

theorem readMembers_otherMembers (hfields : ∀ field ∈ fields, field.type.Fits)
    (members : List (Member Tree)) (blanks : List Blank) (rest : Symbols)
    : (readMembers fields required found false
        ((Blank.text blanks).map some ++ otherMembers members rest)).toOption =
        ((joinAll? fields found members).filter (complete fields required)).map (·, rest) := by
  induction members generalizing found blanks with
  | nil => exact readMembers_close (skipBlank_text_cons _ rfl rest)
  | cons member members ih =>
    have hends := ends_otherMembers members rest
    rw [otherMembers_cons, readMembers_cons (skipBlank_text_cons _ rfl _)
      (by decide) (afterComma_memberSymbols member _), readMember_memberBody hfields member hends]
    unfold joinAll?
    cases member.join? fields found with
    | none => rfl
    | some found => exact ih member.behind

theorem readRecord_object (hfields : ∀ field ∈ fields, field.type.Fits) (required : Bool)
    (inner : List Blank) (members : List (Member Tree))
    (h : skipBlank input = (Tree.object inner members).text.map some ++ rest)
    : (readRecord fields required input).toOption =
        ((joinAll? fields [] members).filter (complete fields required)).map (·, rest) := by
  cases members with
  | nil =>
    rw [text_object_nil] at h
    unfold readRecord
    simp only [h]
    exact readMembers_close (skipBlank_text_cons _ rfl rest)
  | cons member members =>
    rw [text_object_cons] at h
    have hends := ends_otherMembers members rest
    have hfirst : skipBlank ((Blank.text inner).map some ++
        memberSymbols member (otherMembers members rest)) =
        some '"' :: memberBody member (otherMembers members rest) :=
      (skipBlank_text ..).trans (skipBlank_text_cons _ rfl _)
    unfold readRecord
    simp only [h]
    rw [readMembers_cons hfirst (by decide) rfl, readMember_memberBody hfields member hends]
    unfold joinAll?
    cases member.join? fields [] with
    | none => rfl
    | some found => exact readMembers_otherMembers hfields members member.behind rest

theorem readRecord_document (hfields : ∀ field ∈ fields, field.type.Fits) (required : Bool)
    (text : Document)
    : (document (readRecord fields required) (.ofText text.text)).toOption =
        (joinAll? fields [] text.members).filter (complete fields required) := by
  obtain ⟨before, inner, members, behind⟩ := text
  have hblank : skipBlank (.ofText (Document.text ⟨before, inner, members, behind⟩)) =
      (Tree.object inner members).text.map some ++ ((Blank.text behind).map some ++ []) := by
    unfold Symbols.ofText Document.text
    rw [String.toList_ofList, ← List.append_nil (List.map some _), itemText_append, itemSymbols,
      skipBlank_text_tree]
  have hrecord := readRecord_object hfields required inner members hblank
  unfold document
  cases hfound : (joinAll? fields [] members).filter (complete fields required) with
  | none =>
    rw [hfound] at hrecord
    obtain ⟨problem, hread⟩ := eq_error_of_toOption hrecord
    rw [hread]
    rfl
  | some found =>
    rw [hfound] at hrecord
    rw [eq_ok_of_toOption hrecord]
    dsimp only
    -- Only blanks stand behind the object.
    rw [skipBlank_text]
    rfl

end

end Json

end MediaProxy
