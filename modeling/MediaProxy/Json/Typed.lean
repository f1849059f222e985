import MediaProxy.Field
import MediaProxy.Json.Number
import MediaProxy.Json.Skip

/-!
This module contains the readers of values of a known form: texts, natural numbers, lists of texts
and records. A record is an object with its fields as members, in any order and among others, or a
list of the values of its fields.
-/

namespace MediaProxy.Json

/--
The problem of a value that is not of the wanted form: a scalar is read to its end first.
-/
def misfit (input : Symbols) : Problem :=
  match input with
  | [] => .truncated
  | none :: _ => .malformed
  | some c :: rest =>
    if c = '[' ∨ c = '{' then .mismatch
    else
      let scanned : Except Problem Unit :=
        if c = 'n' then (scanWord ['u', 'l', 'l'] rest).map fun _ => ()
        else if c = 't' then (scanWord ['r', 'u', 'e'] rest).map fun _ => ()
        else if c = 'f' then (scanWord ['a', 'l', 's', 'e'] rest).map fun _ => ()
        else if c = '"' then (scanString rest).map fun _ => ()
        else if c = '-' ∨ (digit? (some c)).isSome then
          (scanNumeral .truncated input).bind fun (numeral, _) => numeral.number.map fun _ => ()
        else .error .malformed
      match scanned with
      | .error problem => problem
      | .ok () => .mismatch

def readText (input : Symbols) : Except Problem (String × Symbols) :=
  match skipBlank input with
  | some '"' :: rest => (scanString rest).map fun (cs, rest) => (String.ofList cs, rest)
  | rest => .error (misfit rest)

theorem readText_length_lt {input rest : Symbols} {text : String}
    (h : readText input = .ok (text, rest)) : rest.length < input.length := by
  unfold readText at h
  split at h
  . rename_i rest₁ hblank
    have := length_lt_of_skipBlank_eq_cons hblank
    match hs : scanString rest₁ with
    | .error problem => simp [hs, Except.map] at h
    | .ok (cs, rest₂) =>
      have := scanString_length_lt hs
      simp only [hs, Except.map] at h
      cases h
      omega
  . simp at h

def readNatural (bound : Nat) (input : Symbols) : Except Problem (Nat × Symbols) :=
  match skipBlank input with
  | some c :: rest =>
    if c = '-' ∨ (digit? (some c)).isSome then
      match scanNumeral .truncated (some c :: rest) with
      | .error problem => .error problem
      | .ok (numeral, rest) =>
        match numeral.number with
        | .error problem => .error problem
        | .ok (.natural n) => if n < bound then .ok (n, rest) else .error .mismatch
        | .ok _ => .error .mismatch
    else .error (misfit (some c :: rest))
  | rest => .error (misfit rest)

theorem readNatural_length_lt {bound n : Nat} {input rest : Symbols}
    (h : readNatural bound input = .ok (n, rest)) : rest.length < input.length := by
  unfold readNatural at h
  split at h
  . rename_i c rest₁ hblank
    have := skipBlank_length_le input
    rw [hblank] at this
    split at h
    . split at h
      . simp at h
      . rename_i hnumeral
        have := scanNumeral_length_lt hnumeral
        split at h
        . simp at h
        . split at h
          . cases h
            omega
          . simp at h
        . simp at h
    . simp at h
  . simp at h

def nextItem (first : Bool) (input : Symbols) : Except Problem (Option Symbols) :=
  match skipBlank input with
  | [] => .error .truncated
  | some ']' :: _ => .ok none
  | some ',' :: rest =>
    if first then .ok (some (some ',' :: rest))
    else match skipBlank rest with
      | [] => .error .truncated
      | some ']' :: _ => .error .malformed
      | rest => .ok (some rest)
  | rest => if first then .ok (some rest) else .error .malformed

theorem nextItem_length_le {first : Bool} {input rest : Symbols}
    (h : nextItem first input = .ok (some rest)) : rest.length ≤ input.length := by
  have := skipBlank_length_le input
  unfold nextItem at h
  split at h
  . simp at h
  . simp at h
  . rename_i rest₁ hblank
    have hrest := length_lt_of_skipBlank_eq_cons hblank
    rw [hblank] at this
    split at h
    . cases h
      assumption
    . have := skipBlank_length_le rest₁
      split at h
      . simp at h
      . simp at h
      . cases h
        omega
  . split at h
    . cases h
      assumption
    . simp at h

def closeList (input : Symbols) : Except Problem Symbols :=
  match skipBlank input with
  | some ']' :: rest => .ok rest
  | rest => .error (unexpected rest)

def readItems (first : Bool) (input : Symbols) : Except Problem (List String × Symbols) :=
  match _h : nextItem first input with
  | .error problem => .error problem
  | .ok none => (closeList input).map fun rest => ([], rest)
  | .ok (some rest) =>
    match _h' : readText rest with
    | .error problem => .error problem
    | .ok (text, rest) => (readItems false rest).map fun (texts, rest) => (text :: texts, rest)
termination_by input.length
decreasing_by
  have := nextItem_length_le _h
  have := readText_length_lt _h'
  omega

def readTexts (input : Symbols) : Except Problem (List String × Symbols) :=
  match skipBlank input with
  | some '[' :: rest => readItems true rest
  | rest => .error (misfit rest)

/-!
## Records
-/

def readDatum (type : FieldType) (input : Symbols) : Except Problem (Datum × Symbols) :=
  match type with
  | .text => (readText input).map fun (text, rest) => (.text text, rest)
  | .natural bound => (readNatural bound input).map fun (n, rest) => (.natural n, rest)

theorem readDatum_length_lt {type : FieldType} {input rest : Symbols} {datum : Datum}
    (h : readDatum type input = .ok (datum, rest)) : rest.length < input.length := by
  unfold readDatum at h
  split at h
  . match hs : readText input with
    | .error problem => simp [hs, Except.map] at h
    | .ok (text, rest₁) =>
      have := readText_length_lt hs
      simp only [hs, Except.map] at h
      cases h
      exact this
  . rename_i bound
    match hs : readNatural bound input with
    | .error problem => simp [hs, Except.map] at h
    | .ok (n, rest₁) =>
      have := readNatural_length_lt hs
      simp only [hs, Except.map] at h
      cases h
      exact this

def skipColon (input : Symbols) : Except Problem Symbols :=
  match skipBlank input with
  | some ':' :: rest => .ok rest
  | rest => .error (unexpected rest)

theorem skipColon_length_lt {input rest : Symbols} (h : skipColon input = .ok rest) :
    rest.length < input.length := by
  unfold skipColon at h
  split at h
  . rename_i hblank
    cases h
    exact length_lt_of_skipBlank_eq_cons hblank
  . simp at h

/--
A member of an object, from its opening quote. The value of a field joins those found so far; a
member that is not a field is passed over. A field may be given once: its second name is wrong,
whatever follows it.
-/
def readMember (fields : List Field) (found : Members) (input : Symbols) :
    Except Problem (Members × Symbols) :=
  match input with
  | some '"' :: rest =>
    match scanString rest with
    | .error problem => .error problem
    | .ok (name, rest) =>
      let name := String.ofList name
      match fields.find? (·.name = name) with
      | none =>
        match skipColon rest with
        | .error problem => .error problem
        | .ok rest => (skipValue rest).map fun rest => (found, rest)
      | some field =>
        if (found.lookup name).isSome then .error .mismatch
        else match skipColon rest with
          | .error problem => .error problem
          | .ok rest =>
            (readDatum field.type rest).map fun (datum, rest) => ((name, datum) :: found, rest)
  | rest => .error (unexpected rest)

theorem readMember_length_lt {fields : List Field} {found found' : Members}
    {input rest : Symbols} (h : readMember fields found input = .ok (found', rest)) :
    rest.length < input.length := by
  unfold readMember at h
  split at h
  . simp only [List.length_cons]
    split at h
    . simp at h
    . rename_i hname
      have := scanString_length_lt hname
      simp only at h
      split at h
      . split at h
        . simp at h
        . rename_i rest₁ hcolon
          have := skipColon_length_lt hcolon
          match hs : skipValue rest₁ with
          | .error problem => simp [hs, Except.map] at h
          | .ok rest₂ =>
            have := skipValue_length_lt hs
            simp only [hs, Except.map] at h
            cases h
            omega
      . split at h
        . simp at h
        . split at h
          . simp at h
          . rename_i field _ _ _ rest₁ hcolon
            have := skipColon_length_lt hcolon
            match hs : readDatum field.type rest₁ with
            | .error problem => simp [hs, Except.map] at h
            | .ok (datum, rest₂) =>
              have := readDatum_length_lt hs
              simp only [hs, Except.map] at h
              cases h
              omega
  . simp at h

def afterComma (first : Bool) (input : Symbols) : Except Problem Symbols :=
  if first then .ok input
  else match input with
    | some ',' :: rest => .ok (skipBlank rest)
    | rest => .error (unexpected rest)

theorem afterComma_length_le {first : Bool} {input rest : Symbols}
    (h : afterComma first input = .ok rest) : rest.length ≤ input.length := by
  unfold afterComma at h
  split at h
  . cases h
    exact Nat.le_refl _
  . split at h
    . rename_i rest'
      cases h
      have := skipBlank_length_le rest'
      simp only [List.length_cons]
      omega
    . simp at h

def readMembers (fields : List Field) (required : Bool) (found : Members) (first : Bool)
    (input : Symbols) : Except Problem (Members × Symbols) :=
  match _h : skipBlank input with
  | some '}' :: rest =>
    if required && fields.any (fun field => (found.lookup field.name).isNone) then
      .error .mismatch
    else .ok (found, rest)
  | rest =>
    match _h' : afterComma first rest with
    | .error problem => .error problem
    | .ok rest' =>
      match _h'' : readMember fields found rest' with
      | .error problem => .error problem
      | .ok (found, rest) => readMembers fields required found false rest
termination_by input.length
decreasing_by
  have := skipBlank_length_le input
  have := readMember_length_lt _h''
  have := afterComma_length_le _h'
  rw [_h] at *
  omega

/--
The fields among the items of a list, from behind its opening bracket. They stand in the order of
their declaration; fields at the end may be left out if none is required.
-/
def readPositions (required : Bool) (found : Members) (first : Bool) (input : Symbols) :
    List Field → Except Problem (Members × Symbols)
  | [] => (closeList input).map fun rest => (found, rest)
  | field :: fields =>
    match nextItem first input with
    | .error problem => .error problem
    | .ok none =>
      if required then .error .mismatch
      else (closeList input).map fun rest => (found, rest)
    | .ok (some rest) =>
      match readDatum field.type rest with
      | .error problem => .error problem
      | .ok (datum, rest) =>
        readPositions required ((field.name, datum) :: found) false rest fields

def readRecord (fields : List Field) (required : Bool) (input : Symbols) :
    Except Problem (Members × Symbols) :=
  match skipBlank input with
  | some '{' :: rest => readMembers fields required [] true rest
  | some '[' :: rest => readPositions required [] true rest fields
  | rest => .error (misfit rest)

/-!
## Documents
-/

def document (read : Symbols → Except Problem (α × Symbols)) (input : Symbols) :
    Except Problem α :=
  match read input with
  | .error problem => .error problem
  | .ok (a, rest) => if (skipBlank rest).isEmpty then .ok a else .error .malformed

end MediaProxy.Json
