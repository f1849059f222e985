import MediaProxy.Bytes

/-!
This module contains the lexemes of TOML: blanks and comments, keys, strings, numbers and dates. A
scanner takes one lexeme from the front of the input and answers with the characters behind it, or
with nothing if the input does not start with one.
-/

namespace MediaProxy.Toml

/-!
## Blanks and comments
-/

def blank (c : Char) : Bool :=
  c == ' ' || c == '\t'

def skipBlank (input : List Char) : List Char :=
  input.dropWhile blank

def newline? : List Char → Option (List Char)
  | '\n' :: rest => some rest
  | '\r' :: '\n' :: rest => some rest
  | _ => none

def printed (c : Char) : Bool :=
  c == '\t' || (' ' ≤ c && c != '\x7f')

def skipComment (input : List Char) : List Char :=
  match input with
  | '#' :: rest => rest.dropWhile printed
  | input => input

def lineEnd? (input : List Char) : Option (List Char) :=
  match skipComment (skipBlank input) with
  | [] => some []
  | rest => newline? rest

def skipLines (comment : Bool) : List Char → List Char
  | [] => []
  | '\n' :: rest => skipLines false rest
  | '\r' :: '\n' :: rest => skipLines false rest
  | c :: rest =>
    if comment then if printed c then skipLines true rest else c :: rest
    else if blank c then skipLines false rest
    else if c = '#' then skipLines true rest
    else c :: rest

/-!
## Strings
-/

def ofCodePoint? (digits : List Char) : Option Char := do
  let values ← digits.mapM Bytes.hexValue?
  let code := values.foldl (fun n d => 16 * n + d) 0
  if code < 0xd800 ∨ (0xdfff < code ∧ code < 0x110000) then some (Char.ofNat code) else none

def escaped? : Char → Option Char
  | 'b' => some '\x08'
  | 't' => some '\t'
  | 'n' => some '\n'
  | 'f' => some '\x0c'
  | 'r' => some '\r'
  | '"' => some '"'
  | '\\' => some '\\'
  | _ => none

def scanEscape? : List Char → Option (Char × List Char)
  | 'u' :: rest => codePoint 4 rest
  | 'U' :: rest => codePoint 8 rest
  | letter :: rest => (escaped? letter).map fun c => (c, rest)
  | [] => none
where
  codePoint (places : Nat) (input : List Char) : Option (Char × List Char) :=
    if (input.take places).length = places then
      (ofCodePoint? (input.take places)).map fun c => (c, input.drop places)
    else none

theorem scanEscape?_length_lt {input rest : List Char} {c : Char}
    (h : scanEscape? input = some (c, rest)) : rest.length < input.length := by
  have codePoint {places : Nat} {input : List Char}
      (h : scanEscape?.codePoint places input = some (c, rest)) :
      rest.length ≤ input.length := by
    unfold scanEscape?.codePoint at h
    split at h
    . simp only [Option.map_eq_some_iff, Prod.mk.injEq] at h
      obtain ⟨_, _, _, rfl⟩ := h
      simp
    . simp at h
  unfold scanEscape? at h
  split at h
  . have := codePoint h
    simp only [List.length_cons]
    omega
  . have := codePoint h
    simp only [List.length_cons]
    omega
  . simp only [Option.map_eq_some_iff, Prod.mk.injEq] at h
    obtain ⟨_, _, _, rfl⟩ := h
    simp
  . simp at h

def scanBasic? (input : List Char) : Option (List Char × List Char) :=
  match input with
  | [] => none
  | c :: rest =>
    if c = '"' then some ([], rest)
    else if c = '\\' then
      match _h : scanEscape? rest with
      | none => none
      | some (c, rest) => (scanBasic? rest).map fun (cs, rest) => (c :: cs, rest)
    else if printed c then (scanBasic? rest).map fun (cs, rest) => (c :: cs, rest)
    else none
termination_by input.length
decreasing_by
  . have := scanEscape?_length_lt _h
    simp only [List.length_cons]
    omega
  . simp

def scanLiteral? : List Char → Option (List Char × List Char)
  | [] => none
  | c :: rest =>
    if c = '\'' then some ([], rest)
    else if printed c then (scanLiteral? rest).map fun (cs, rest) => (c :: cs, rest)
    else none

/--
The end of a string of many lines: three quotes, which up to two more that belong to the string may
precede. Fewer than three quotes do not end it.
-/
def scanClosing? (quote : Char) (input : List Char) : Option (List Char × List Char) :=
  let quotes := (input.takeWhile (· = quote)).length
  if quotes < 3 then none
  else some (List.replicate (min (quotes - 3) 2) quote, input.drop (min (quotes - 3) 2 + 3))

def skipBlankLines : List Char → List Char
  | [] => []
  | '\n' :: rest => skipBlankLines rest
  | '\r' :: '\n' :: rest => skipBlankLines rest
  | c :: rest => if blank c then skipBlankLines rest else c :: rest

def scanContinuation? (input : List Char) : Option (List Char) :=
  (newline? (skipBlank input)).map skipBlankLines

/--
The characters of a string of many lines, from behind its opening quotes. `escapes` says whether a
backslash starts an escape; one at the end of a line joins the line with the next text.
-/
def scanLines? (quote : Char) (escapes : Bool) (input : List Char) :
    Option (List Char × List Char) :=
  match scanClosing? quote input with
  | some closing => some closing
  | none =>
    match input with
    | [] => none
    | c :: rest =>
      let step : Option (List Char × List Char) :=
        if escapes && c == '\\' then
          match scanContinuation? rest with
          | some rest => some ([], rest)
          | none => (scanEscape? rest).map fun (c, rest) => ([c], rest)
        else if printed c then some ([c], rest)
        else (newline? (c :: rest)).map fun rest => (['\n'], rest)
      match step with
      | none => none
      | some (cs, rest') =>
        if _h : rest'.length < rest.length + 1 then
          (scanLines? quote escapes rest').map fun (cs', rest) => (cs ++ cs', rest)
        else none
termination_by input.length

def scanString? : List Char → Option (String × List Char)
  | '"' :: '"' :: '"' :: rest => text (scanLines? '"' true (afterNewline rest))
  | '\'' :: '\'' :: '\'' :: rest => text (scanLines? '\'' false (afterNewline rest))
  | '"' :: rest => text (scanBasic? rest)
  | '\'' :: rest => text (scanLiteral? rest)
  | _ => none
where
  afterNewline (input : List Char) : List Char := (newline? input).getD input
  text (scanned : Option (List Char × List Char)) : Option (String × List Char) :=
    scanned.map fun (cs, rest) => (String.ofList cs, rest)

/-!
## Keys
-/

def bare (c : Char) : Bool :=
  c.isAlphanum || c == '-' || c == '_'

def scanPart? (input : List Char) : Option (String × List Char) :=
  match input with
  | '"' :: rest => (scanBasic? rest).map fun (cs, rest) => (String.ofList cs, rest)
  | '\'' :: rest => (scanLiteral? rest).map fun (cs, rest) => (String.ofList cs, rest)
  | input =>
    match input.takeWhile bare with
    | [] => none
    | cs => some (String.ofList cs, input.dropWhile bare)

def scanParts? (input : List Char) : Option (List String × List Char) :=
  match scanPart? (skipBlank input) with
  | none => none
  | some (part, rest) =>
    match skipBlank rest with
    | '.' :: rest =>
      if _h : rest.length < input.length then
        (scanParts? rest).map fun (parts, rest) => (part :: parts, rest)
      else none
    | rest => some ([part], rest)
termination_by input.length

def scanKey? (input : List Char) : Option (List String × List Char) :=
  match scanParts? input with
  | some (parts, rest) => if parts.length < 80 then some (parts, rest) else none
  | none => none

/-!
## Numbers
-/

def scanDigits? (digit : Char → Bool) : List Char → Option (List Char × List Char)
  | [] => none
  | c :: rest => if digit c then (more rest).map fun (cs, rest) => (c :: cs, rest) else none
where
  more : List Char → Option (List Char × List Char)
    | '_' :: c :: rest =>
      if digit c then (more rest).map fun (cs, rest) => (c :: cs, rest) else none
    | c :: rest =>
      if digit c then (more rest).map fun (cs, rest) => (c :: cs, rest) else some ([], c :: rest)
    | [] => some ([], [])

def ofDigits (base : Nat) (digits : List Char) : Nat :=
  digits.foldl (fun n c => base * n + (Bytes.hexValue? c).getD 0) 0

def scanWhole? : List Char → Option (List Char × List Char)
  | '0' :: rest => some (['0'], rest)
  | input => scanDigits? Char.isDigit input

structure Decimal where
  whole : List Char
  fraction : List Char
  power : Int
  deriving DecidableEq, Repr

namespace Decimal

def isInfinite (x : Decimal) : Bool :=
  let digits := (x.whole ++ x.fraction).dropWhile (· = '0')
  let power := x.power - x.fraction.length
  let magnitude := digits.length + power
  if digits.isEmpty || magnitude < 309 then false
  else if 310 < magnitude then true
  else
    let bound := Nat.pow 2 1024 - Nat.pow 2 970
    bound * Nat.pow 10 (-power).toNat ≤ ofDigits 10 digits * Nat.pow 10 power.toNat

end Decimal

def scanPower? (input : List Char) : Option (Int × List Char) :=
  match input with
  | c :: rest =>
    if c = 'e' ∨ c = 'E' then
      match rest with
      | '-' :: rest =>
        (scanDigits? Char.isDigit rest).map fun (ds, rest) => (-(ofDigits 10 ds : Int), rest)
      | '+' :: rest =>
        (scanDigits? Char.isDigit rest).map fun (ds, rest) => ((ofDigits 10 ds : Int), rest)
      | rest =>
        (scanDigits? Char.isDigit rest).map fun (ds, rest) => ((ofDigits 10 ds : Int), rest)
    else none
  | [] => none

def scanDecimal? (input : List Char) : Option (Decimal × List Char) := do
  let (whole, rest) ← scanWhole? input
  match rest with
  | '.' :: rest =>
    let (fraction, rest) ← scanDigits? Char.isDigit rest
    match rest with
    | [] => return (⟨whole, fraction, 0⟩, [])
    | c :: after =>
      if c = 'e' ∨ c = 'E' then
        let (power, rest) ← scanPower? (c :: after)
        return (⟨whole, fraction, power⟩, rest)
      else return (⟨whole, fraction, 0⟩, c :: after)
  | rest =>
    let (power, rest) ← scanPower? rest
    return (⟨whole, [], power⟩, rest)

/--
A whole number within 64 bits. A base other than ten is given in front of it and has no sign.
-/
def scanInteger? (input : List Char) : Option (Int × List Char) :=
  match input with
  | '0' :: 'x' :: rest => based 16 (fun c => (Bytes.hexValue? c).isSome) rest
  | '0' :: 'o' :: rest => based 8 (fun c => '0' ≤ c && c ≤ '7') rest
  | '0' :: 'b' :: rest => based 2 (fun c => c == '0' || c == '1') rest
  | '-' :: rest => signed (-1) rest
  | '+' :: rest => signed 1 rest
  | rest => signed 1 rest
where
  fitting (n : Int) (rest : List Char) : Option (Int × List Char) :=
    if Int64.minValue.toInt ≤ n ∧ n ≤ Int64.maxValue.toInt then some (n, rest) else none
  based (base : Nat) (digit : Char → Bool) (input : List Char) : Option (Int × List Char) :=
    (scanDigits? digit input).bind fun (ds, rest) => fitting (ofDigits base ds) rest
  signed (sign : Int) (input : List Char) : Option (Int × List Char) :=
    (scanWhole? input).bind fun (ds, rest) => fitting (sign * ofDigits 10 ds) rest

/-!
## Dates and times
-/

def scanPlaces? (places low high : Nat) (input : List Char) : Option (Nat × List Char) :=
  let digits := input.take places
  if digits.length = places ∧ digits.all Char.isDigit then
    let n := ofDigits 10 digits
    if low ≤ n ∧ n ≤ high then some (n, input.drop places) else none
  else none

def expect? (c : Char) : List Char → Option (List Char)
  | d :: rest => if d = c then some rest else none
  | [] => none

def scanDate? (input : List Char) : Option (List Char) := do
  let (year, rest) ← scanPlaces? 4 0 9999 input
  let rest ← expect? '-' rest
  let (month, rest) ← scanPlaces? 2 1 12 rest
  let rest ← expect? '-' rest
  let (day, rest) ← scanPlaces? 2 1 31 rest
  let leap := year % 4 = 0 ∧ (year % 100 ≠ 0 ∨ year % 400 = 0)
  let days :=
    if month = 2 then if leap then 29 else 28
    else if month ∈ [4, 6, 9, 11] then 30
    else 31
  if day ≤ days then return rest else none

def scanTime? (input : List Char) : Option (List Char) := do
  let (_, rest) ← scanPlaces? 2 0 23 input
  let rest ← expect? ':' rest
  let (_, rest) ← scanPlaces? 2 0 59 rest
  let rest ← expect? ':' rest
  let (_, rest) ← scanPlaces? 2 0 60 rest
  match rest with
  | '.' :: c :: after => if c.isDigit then return after.dropWhile Char.isDigit else none
  | ['.'] => none
  | rest => return rest

def scanOffset? (input : List Char) : Option (List Char) :=
  match input with
  | [] => none
  | sign :: rest =>
    if sign = 'Z' ∨ sign = 'z' then some rest
    else if sign = '+' ∨ sign = '-' then do
      let (_, rest) ← scanPlaces? 2 0 23 rest
      let rest ← expect? ':' rest
      let (_, rest) ← scanPlaces? 2 0 59 rest
      return rest
    else none

def scanDateTime? (input : List Char) : Option (List Char) :=
  match scanDate? input with
  | none => scanTime? input
  | some rest =>
    match rest with
    | [] => some rest
    | c :: after =>
      if c = 'T' ∨ c = 't' ∨ c = ' ' then
        match scanTime? after with
        | none => some rest
        | some rest => some ((scanOffset? rest).getD rest)
      else some rest

end MediaProxy.Toml
