import MediaProxy.Json.Lexeme

/-!
This module contains the reader of values that do not matter. It knows the grammar of JSON alone:
values may be nested to any depth, and numbers may have any size.
-/

namespace MediaProxy.Json

inductive Frame where
  | list
  | object
  deriving DecidableEq, Repr

def skipKey (input : Symbols) : Except Problem Symbols :=
  match skipBlank input with
  | some '"' :: rest =>
    match skipString rest with
    | .error problem => .error problem
    | .ok rest =>
      match skipBlank rest with
      | some ':' :: rest => .ok rest
      | rest => .error (unexpected rest)
  | rest => .error (unexpected rest)

theorem skipKey_length_lt {input rest : Symbols} (h : skipKey input = .ok rest) :
    rest.length < input.length := by
  unfold skipKey at h
  split at h
  . rename_i rest₁ heq
    have := length_lt_of_skipBlank_eq_cons heq
    split at h
    . simp at h
    . rename_i rest₂ hstring
      have := skipString_length_lt hstring
      split at h
      . rename_i heq'
        have := length_lt_of_skipBlank_eq_cons heq'
        cases h
        omega
      . simp at h
  . simp at h

def skipScalar (input : Symbols) : Except Problem Symbols :=
  match input with
  | [] => .error .truncated
  | none :: _ => .error .malformed
  | some c :: rest =>
    if c = 'n' then scanWord ['u', 'l', 'l'] rest
    else if c = 't' then scanWord ['r', 'u', 'e'] rest
    else if c = 'f' then scanWord ['a', 'l', 's', 'e'] rest
    else if c = '"' then skipString rest
    else if c = '-' ∨ (digit? (some c)).isSome then
      (scanNumeral .malformed (some c :: rest)).map (·.2)
    else .error .malformed

theorem skipScalar_length_lt {input rest : Symbols} (h : skipScalar input = .ok rest) :
    rest.length < input.length := by
  unfold skipScalar at h
  split at h
  . simp at h
  . simp at h
  . rename_i c rest'
    simp only [List.length_cons]
    split at h
    . have := scanWord_length_le h
      omega
    . split at h
      . have := scanWord_length_le h
        omega
      . split at h
        . have := scanWord_length_le h
          omega
        . split at h
          . have := skipString_length_lt h
            omega
          . split at h
            . cases hnum : scanNumeral .malformed (some c :: rest') with
              | error problem => simp [hnum, Except.map] at h
              | ok result =>
                have := scanNumeral_length_lt hnum
                simp only [hnum, Except.map] at h
                cases h
                simpa using this
            . simp at h

mutual

/--
The symbols behind a value that stands inside the unfinished values `frames`, innermost first, and
behind what is left of those.
-/
def skipInside (frames : List Frame) (input : Symbols) : Except Problem Symbols :=
  match _h : skipBlank input with
  | some '[' :: rest =>
    match _h' : skipBlank rest with
    | some ']' :: rest => skipClosing frames rest
    | _ => skipInside (.list :: frames) rest
  | some '{' :: rest =>
    match _h' : skipBlank rest with
    | some '}' :: rest => skipClosing frames rest
    | _ =>
      match _h'' : skipKey rest with
      | .error problem => .error problem
      | .ok rest => skipInside (.object :: frames) rest
  | rest =>
    match _h' : skipScalar rest with
    | .error problem => .error problem
    | .ok rest => skipClosing frames rest
termination_by input.length
decreasing_by
  . have := length_lt_of_skipBlank_eq_cons _h
    have := length_lt_of_skipBlank_eq_cons _h'
    omega
  . exact length_lt_of_skipBlank_eq_cons _h
  . have := length_lt_of_skipBlank_eq_cons _h
    have := length_lt_of_skipBlank_eq_cons _h'
    omega
  . have := length_lt_of_skipBlank_eq_cons _h
    have := skipKey_length_lt _h''
    omega
  . have := skipBlank_length_le input
    have := skipScalar_length_lt _h'
    simp only [_h] at *
    omega

def skipClosing (frames : List Frame) (input : Symbols) : Except Problem Symbols :=
  match frames with
  | [] => .ok input
  | frame :: frames =>
    match _h : skipBlank input with
    | some ',' :: rest =>
      match frame with
      | .list => skipInside (.list :: frames) rest
      | .object =>
        match _h' : skipKey rest with
        | .error problem => .error problem
        | .ok rest => skipInside (.object :: frames) rest
    | some ']' :: rest => if frame = .list then skipClosing frames rest else .error .malformed
    | some '}' :: rest => if frame = .object then skipClosing frames rest else .error .malformed
    | rest => .error (unexpected rest)
termination_by input.length
decreasing_by
  . exact length_lt_of_skipBlank_eq_cons _h
  . have := length_lt_of_skipBlank_eq_cons _h
    have := skipKey_length_lt _h'
    omega
  . exact length_lt_of_skipBlank_eq_cons _h
  . exact length_lt_of_skipBlank_eq_cons _h

end

theorem skip_length {frames : List Frame} {input rest : Symbols} :
    (skipInside frames input = .ok rest → rest.length < input.length) ∧
    (skipClosing frames input = .ok rest → rest.length ≤ input.length) := by
  induction hn : input.length using Nat.strongRecOn generalizing frames input with
  | ind n ih =>
    have inside : ∀ {frames' : List Frame} {input' : Symbols}, input'.length < n →
        skipInside frames' input' = .ok rest → rest.length < n := by
      intro frames' input' hlt h
      have := (ih _ hlt rfl).1 h
      omega
    have closing : ∀ {frames' : List Frame} {input' : Symbols}, input'.length < n →
        skipClosing frames' input' = .ok rest → rest.length < n := by
      intro frames' input' hlt h
      have := (ih _ hlt rfl).2 h
      omega
    constructor
    . intro h
      rw [skipInside] at h
      split at h
      . rename_i hblank
        have := length_lt_of_skipBlank_eq_cons hblank
        split at h
        . rename_i hblank'
          have := length_lt_of_skipBlank_eq_cons hblank'
          exact closing (by omega) h
        . exact inside (by omega) h
      . rename_i hblank
        have := length_lt_of_skipBlank_eq_cons hblank
        split at h
        . rename_i hblank'
          have := length_lt_of_skipBlank_eq_cons hblank'
          exact closing (by omega) h
        . split at h
          . simp at h
          . rename_i hkey
            have := skipKey_length_lt hkey
            exact inside (by omega) h
      . have := skipBlank_length_le input
        split at h
        . simp at h
        . rename_i hscalar
          have := skipScalar_length_lt hscalar
          exact closing (by omega) h
    . intro h
      rw [skipClosing.eq_def] at h
      split at h
      . cases h
        omega
      . split at h
        . rename_i hblank
          have := length_lt_of_skipBlank_eq_cons hblank
          split at h
          . exact Nat.le_of_lt (inside (by omega) h)
          . split at h
            . simp at h
            . rename_i hkey
              have := skipKey_length_lt hkey
              exact Nat.le_of_lt (inside (by omega) h)
        . rename_i hblank
          have := length_lt_of_skipBlank_eq_cons hblank
          split at h
          . exact Nat.le_of_lt (closing (by omega) h)
          . simp at h
        . rename_i hblank
          have := length_lt_of_skipBlank_eq_cons hblank
          split at h
          . exact Nat.le_of_lt (closing (by omega) h)
          . simp at h
        . simp at h

def skipValue (input : Symbols) : Except Problem Symbols :=
  skipInside [] input

theorem skipValue_length_lt {input rest : Symbols} (h : skipValue input = .ok rest) :
    rest.length < input.length :=
  skip_length.1 h

end MediaProxy.Json
