import MediaProxy.Json.Symbols

/-!
This module contains the lexemes of JSON: fixed words, strings and numerals. A scanner takes one
lexeme from the front of the input and answers with the symbols behind it, which are always fewer.
-/

namespace MediaProxy.Json

def scanWord : List Char → Symbols → Except Problem Symbols
  | [], input => .ok input
  | letter :: letters, input =>
    match input with
    | [] => .error .truncated
    | symbol :: rest => if symbol = some letter then scanWord letters rest else .error .malformed

theorem scanWord_length_le {letters : List Char} {input rest : Symbols}
    (h : scanWord letters input = .ok rest) : rest.length ≤ input.length := by
  fun_induction scanWord letters input with
  | case1 input => simp_all
  | case2 => simp at h
  | case3 letters symbol rest' ih =>
    have := ih h
    simp only [List.length_cons]
    omega
  | case4 => simp at h

/-!
## Strings
-/

def scanCodeUnit (input : Symbols) : Except Problem (Nat × Symbols) :=
  match (input.take 4).mapM (·.bind Bytes.hexValue?) with
  | some [a, b, c, d] => .ok (((a * 16 + b) * 16 + c) * 16 + d, input.drop 4)
  | _ => .error (if 4 ≤ byteSize (input.take 4) then .malformed else .truncated)

theorem scanCodeUnit_length_le {input rest : Symbols} {unit : Nat}
    (h : scanCodeUnit input = .ok (unit, rest)) : rest.length ≤ input.length := by
  unfold scanCodeUnit at h
  split at h
  . cases h
    simp
  . simp at h

def scanCodeUnits (input : Symbols) : Except Problem (Char × Symbols) :=
  match scanCodeUnit input with
  | .error problem => .error problem
  | .ok (unit, rest) =>
    if 0xdc00 ≤ unit ∧ unit ≤ 0xdfff then .error .malformed
    else if unit < 0xd800 ∨ 0xdbff < unit then .ok (Char.ofNat unit, rest)
    else match rest with
      | some '\\' :: some 'u' :: rest =>
        match scanCodeUnit rest with
        | .error problem => .error problem
        | .ok (trailing, rest) =>
          if 0xdc00 ≤ trailing ∧ trailing ≤ 0xdfff then
            .ok (Char.ofNat (0x10000 + (unit - 0xd800) * 0x400 + (trailing - 0xdc00)), rest)
          else .error .malformed
      | [] | [some '\\'] => .error .truncated
      | _ => .error .malformed

theorem scanCodeUnits_length_le {input rest : Symbols} {c : Char}
    (h : scanCodeUnits input = .ok (c, rest)) : rest.length ≤ input.length := by
  unfold scanCodeUnits at h
  split at h
  . simp at h
  . rename_i unit rest₁ h₁
    have := scanCodeUnit_length_le h₁
    split at h
    . simp at h
    . split at h
      . cases h
        assumption
      . split at h
        . split at h
          . simp at h
          . rename_i h₂
            have := scanCodeUnit_length_le h₂
            split at h
            . simp only [Except.ok.injEq, Prod.mk.injEq] at h
              obtain ⟨-, rfl⟩ := h
              simp only [List.length_cons] at *
              omega
            . simp at h
        . simp at h
        . simp at h
        . simp at h

def escaped? : Char → Option Char
  | '"' => some '"'
  | '\\' => some '\\'
  | '/' => some '/'
  | 'b' => some '\x08'
  | 'f' => some '\x0c'
  | 'n' => some '\n'
  | 'r' => some '\r'
  | 't' => some '\t'
  | _ => none

def scanEscape : Symbols → Except Problem (Char × Symbols)
  | [] => .error .truncated
  | none :: _ => .error .malformed
  | some letter :: rest =>
    if letter = 'u' then scanCodeUnits rest
    else match escaped? letter with
      | some c => .ok (c, rest)
      | none => .error .malformed

theorem scanEscape_length_lt {input rest : Symbols} {c : Char}
    (h : scanEscape input = .ok (c, rest)) : rest.length < input.length := by
  unfold scanEscape at h
  split at h
  . simp at h
  . simp at h
  . split at h
    . have := scanCodeUnits_length_le h
      simp only [List.length_cons]
      omega
    . split at h
      . simp only [Except.ok.injEq, Prod.mk.injEq] at h
        simp [← h.2]
      . simp at h

/--
The characters of a string, from behind its opening quote to its closing one. A byte that belongs to
no character is found wrong only at the end of the string.
-/
def scanString (input : Symbols) : Except Problem (List Char × Symbols) :=
  match input with
  | [] => .error .truncated
  | none :: rest =>
    match scanString rest with
    | .error problem => .error problem
    | .ok _ => .error .malformed
  | some c :: rest =>
    if c = '"' then .ok ([], rest)
    else if c = '\\' then
      match _h : scanEscape rest with
      | .error problem => .error problem
      | .ok (c, rest) => (scanString rest).map fun (cs, rest) => (c :: cs, rest)
    else if c < ' ' then .error .malformed
    else (scanString rest).map fun (cs, rest) => (c :: cs, rest)
termination_by input.length
decreasing_by
  . simp
  . have := scanEscape_length_lt _h
    simp only [List.length_cons]
    omega
  . simp

/--
The problem of the escape in a string whose value does not matter: code units need not form a
character.
-/
def skipEscape : Symbols → Except Problem Symbols
  | [] => .error .truncated
  | none :: _ => .error .malformed
  | some letter :: rest =>
    if letter = 'u' then (scanCodeUnit rest).map (·.2)
    else if (escaped? letter).isSome then .ok rest
    else .error .malformed

theorem skipEscape_length_lt {input rest : Symbols} (h : skipEscape input = .ok rest) :
    rest.length < input.length := by
  unfold skipEscape at h
  split at h
  . simp at h
  . simp at h
  . rename_i letter rest'
    split at h
    . match hunit : scanCodeUnit rest' with
      | .error problem => simp [hunit, Except.map] at h
      | .ok (unit, rest₁) =>
        have := scanCodeUnit_length_le hunit
        simp only [hunit, Except.map, Except.ok.injEq] at h
        subst h
        simp only [List.length_cons]
        omega
    . split at h
      . simp only [Except.ok.injEq] at h
        simp [← h]
      . simp at h

def skipString (input : Symbols) : Except Problem Symbols :=
  match input with
  | [] => .error .truncated
  | none :: rest => skipString rest
  | some c :: rest =>
    if c = '"' then .ok rest
    else if c = '\\' then
      match _h : skipEscape rest with
      | .error problem => .error problem
      | .ok rest => skipString rest
    else if c < ' ' then .error .malformed
    else skipString rest
termination_by input.length
decreasing_by
  . simp
  . have := skipEscape_length_lt _h
    simp only [List.length_cons]
    omega
  . simp

theorem scanString_length_lt {input rest : Symbols} {cs : List Char}
    (h : scanString input = .ok (cs, rest)) : rest.length < input.length := by
  fun_induction scanString input generalizing cs rest with
  | case1 => simp at h
  | case2 => simp at h
  | case3 => simp at h
  | case4 => simp_all
  | case5 => simp at h
  | case6 rest' c rest₁ he _ ih =>
    have := scanEscape_length_lt he
    match hs : scanString rest₁ with
    | .error problem => simp [hs, Except.map] at h
    | .ok (cs', rest₂) =>
      have := ih hs
      simp only [hs, Except.map] at h
      cases h
      simp only [List.length_cons]
      omega
  | case7 => simp at h
  | case8 c rest' _ _ _ ih =>
    match hs : scanString rest' with
    | .error problem => simp [hs, Except.map] at h
    | .ok (cs', rest₂) =>
      have := ih hs
      simp only [hs, Except.map] at h
      cases h
      simp only [List.length_cons]
      omega

theorem skipString_length_lt {input rest : Symbols} (h : skipString input = .ok rest) :
    rest.length < input.length := by
  fun_induction skipString input with
  | case1 => simp at h
  | case2 rest' ih =>
    have := ih h
    simp only [List.length_cons]
    omega
  | case3 => simp_all
  | case4 => simp at h
  | case5 rest' rest₁ he _ ih =>
    have := skipEscape_length_lt he
    have := ih h
    simp only [List.length_cons]
    omega
  | case6 => simp at h
  | case7 c rest' _ _ _ ih =>
    have := ih h
    simp only [List.length_cons]
    omega

/-!
## Numerals
-/

structure Numeral where
  negative : Bool
  whole : List Nat
  fraction : Option (List Nat)
  exponent : Option (Bool × List Nat)
  deriving DecidableEq, Repr

def digit? : Option Char → Option Nat
  | some c => if '0' ≤ c ∧ c ≤ '9' then some (c.toNat - '0'.toNat) else none
  | none => none

def scanDigits : Symbols → List Nat × Symbols
  | [] => ([], [])
  | symbol :: rest =>
    match digit? symbol with
    | some d => let (ds, rest) := scanDigits rest; (d :: ds, rest)
    | none => ([], symbol :: rest)

theorem scanDigits_length_le (input : Symbols) :
    (scanDigits input).2.length ≤ input.length := by
  fun_induction scanDigits input with
  | case1 => simp
  | case2 symbol rest d hd ds rest' heq ih =>
    simp only [heq, List.length_cons] at ih ⊢
    omega
  | case3 => simp

def scanSomeDigits (short : Problem) (input : Symbols) : Except Problem (List Nat × Symbols) :=
  match scanDigits input with
  | ([], []) => .error short
  | ([], _ :: _) => .error .malformed
  | (ds, rest) => .ok (ds, rest)

theorem scanSomeDigits_length_le {short : Problem} {input rest : Symbols} {ds : List Nat}
    (h : scanSomeDigits short input = .ok (ds, rest)) : rest.length ≤ input.length := by
  have := scanDigits_length_le input
  unfold scanSomeDigits at h
  split at h
  . simp at h
  . simp at h
  . rename_i heq
    simp only [Except.ok.injEq, Prod.mk.injEq] at h
    simp only [heq] at this
    rw [← h.2]
    exact this

def scanWhole (short : Problem) (input : Symbols) : Except Problem (List Nat × Symbols) :=
  match input with
  | [] => .error short
  | symbol :: rest =>
    match digit? symbol with
    | none => .error .malformed
    | some 0 =>
      if (rest.head?.bind digit?).isSome then .error .malformed else .ok ([0], rest)
    | some d => let (ds, rest) := scanDigits rest; .ok (d :: ds, rest)

theorem scanWhole_length_lt {short : Problem} {input rest : Symbols} {ds : List Nat}
    (h : scanWhole short input = .ok (ds, rest)) : rest.length < input.length := by
  unfold scanWhole at h
  split at h
  . simp at h
  . rename_i symbol rest'
    have := scanDigits_length_le rest'
    split at h
    . simp at h
    . split at h
      . simp at h
      . simp only [Except.ok.injEq, Prod.mk.injEq] at h
        simp [← h.2]
    . simp only [Except.ok.injEq, Prod.mk.injEq] at h
      simp only [List.length_cons, ← h.2]
      omega

def scanFraction (short : Problem) (input : Symbols) :
    Except Problem (Option (List Nat) × Symbols) :=
  match input with
  | some '.' :: rest => (scanSomeDigits short rest).map fun (ds, rest) => (some ds, rest)
  | input => .ok (none, input)

theorem scanFraction_length_le {short : Problem} {input rest : Symbols}
    {fraction : Option (List Nat)} (h : scanFraction short input = .ok (fraction, rest)) :
    rest.length ≤ input.length := by
  unfold scanFraction at h
  split at h
  . rename_i rest'
    match hs : scanSomeDigits short rest' with
    | .error problem => simp [hs, Except.map] at h
    | .ok (ds, rest₁) =>
      have := scanSomeDigits_length_le hs
      simp only [hs, Except.map, Except.ok.injEq, Prod.mk.injEq] at h
      simp only [List.length_cons, ← h.2]
      omega
  . simp only [Except.ok.injEq, Prod.mk.injEq] at h
    simp [← h.2]

def scanExponent (short : Problem) (input : Symbols) :
    Except Problem (Option (Bool × List Nat) × Symbols) :=
  match input with
  | some c :: rest =>
    if c = 'e' ∨ c = 'E' then
      match rest with
      | some '-' :: rest => digits true rest
      | some '+' :: rest => digits false rest
      | rest => digits false rest
    else .ok (none, some c :: rest)
  | input => .ok (none, input)
where
  digits (negative : Bool) (input : Symbols) :
      Except Problem (Option (Bool × List Nat) × Symbols) :=
    (scanSomeDigits short input).map fun (ds, rest) => (some (negative, ds), rest)

theorem scanExponent.digits_length_le {short : Problem} {negative : Bool} {input rest : Symbols}
    {exponent : Option (Bool × List Nat)}
    (h : scanExponent.digits short negative input = .ok (exponent, rest)) :
    rest.length ≤ input.length := by
  unfold scanExponent.digits at h
  match hs : scanSomeDigits short input with
  | .error problem => simp [hs, Except.map] at h
  | .ok (ds, rest₁) =>
    have := scanSomeDigits_length_le hs
    simp only [hs, Except.map, Except.ok.injEq, Prod.mk.injEq] at h
    rw [← h.2]
    exact this

theorem scanExponent_length_le {short : Problem} {input rest : Symbols}
    {exponent : Option (Bool × List Nat)} (h : scanExponent short input = .ok (exponent, rest)) :
    rest.length ≤ input.length := by
  unfold scanExponent at h
  split at h
  . split at h
    . split at h <;>
        have := scanExponent.digits_length_le h <;>
        simp only [List.length_cons] at * <;>
        omega
    . simp only [Except.ok.injEq, Prod.mk.injEq] at h
      simp [← h.2]
  . simp only [Except.ok.injEq, Prod.mk.injEq] at h
    simp [← h.2]

def scanNumeral (short : Problem) (input : Symbols) : Except Problem (Numeral × Symbols) :=
  match input with
  | some '-' :: rest => unsigned true rest
  | input => unsigned false input
where
  unsigned (negative : Bool) (input : Symbols) : Except Problem (Numeral × Symbols) :=
    match scanWhole short input with
    | .error problem => .error problem
    | .ok (whole, rest) =>
      match scanFraction short rest with
      | .error problem => .error problem
      | .ok (fraction, rest) =>
        match scanExponent short rest with
        | .error problem => .error problem
        | .ok (exponent, rest) => .ok (⟨negative, whole, fraction, exponent⟩, rest)

theorem scanNumeral.unsigned_length_lt {short : Problem} {negative : Bool} {input rest : Symbols}
    {numeral : Numeral} (h : scanNumeral.unsigned short negative input = .ok (numeral, rest)) :
    rest.length < input.length := by
  unfold scanNumeral.unsigned at h
  split at h
  . simp at h
  . rename_i hwhole
    have := scanWhole_length_lt hwhole
    split at h
    . simp at h
    . rename_i hfraction
      have := scanFraction_length_le hfraction
      split at h
      . simp at h
      . rename_i hexponent
        have := scanExponent_length_le hexponent
        cases h
        omega

theorem scanNumeral_length_lt {short : Problem} {input rest : Symbols} {numeral : Numeral}
    (h : scanNumeral short input = .ok (numeral, rest)) : rest.length < input.length := by
  unfold scanNumeral at h
  split at h
  . have := scanNumeral.unsigned_length_lt h
    simp only [List.length_cons]
    omega
  . exact scanNumeral.unsigned_length_lt h

end MediaProxy.Json
