import MediaProxy.Json.Lexeme
import MediaProxy.Proofs.Json.Tree

/-!
This module contains what the scanners find in the spelling of blanks, strings and numbers, and the symbols
of lists and objects behind one of their items. Each statement is about any symbols behind the lexeme, as far
as they do not make it a longer one.
-/

namespace MediaProxy

theorem toOption_map (f : α → β) (result : Except ε α)
    : (result.map f).toOption = result.toOption.map f := by
  cases result <;> rfl

theorem eq_ok_of_toOption {result : Except ε α} {a : α} (h : result.toOption = some a)
    : result = .ok a := by
  cases result with
  | error e => cases h
  | ok b =>
    cases h
    rfl

theorem eq_error_of_toOption {result : Except ε α} (h : result.toOption = none)
    : ∃ e, result = .error e := by
  cases result with
  | error e => exact ⟨e, rfl⟩
  | ok a => cases h

namespace Json

section
variable {input rest : Symbols} {c : Char}

theorem skipBlank_text (blanks : List Blank) (rest : Symbols)
    : skipBlank ((Blank.text blanks).map some ++ rest) = skipBlank rest := by
  induction blanks with
  | nil => rfl
  | cons blank blanks ih => cases blank <;> exact ih

theorem text_append (blanks others : List Blank) (rest : Symbols)
    : (Blank.text (blanks ++ others)).map some ++ rest =
        (Blank.text blanks).map some ++ ((Blank.text others).map some ++ rest) := by
  simp [Blank.text]

theorem skipBlank_cons {symbol : Option Char} (h : blank symbol = false) (rest : Symbols)
    : skipBlank (symbol :: rest) = symbol :: rest :=
  List.dropWhile_cons_of_neg (Bool.eq_false_iff.1 h)

theorem skipBlank_text_cons (blanks : List Blank) {symbol : Option Char} (h : blank symbol = false)
    (rest : Symbols)
    : skipBlank ((Blank.text blanks).map some ++ symbol :: rest) = symbol :: rest :=
  (skipBlank_text blanks _).trans (skipBlank_cons h rest)

/-!
## Strings
-/

theorem HexDigit.hexValue?_char (digit : HexDigit)
    : Bytes.hexValue? digit.char = some digit.value.val := by
  obtain ⟨value, capital⟩ := digit
  revert value capital
  decide

theorem scanCodeUnit_text (unit : CodeUnit) (rest : Symbols)
    : scanCodeUnit (unit.text.map some ++ rest) = .ok (unit.value, rest) := by
  simp [scanCodeUnit, CodeUnit.text, CodeUnit.value, HexDigit.hexValue?_char]

theorem scanCodeUnits_text {unit : CodeUnit} (htrails : ¬unit.Trails) (hleads : ¬unit.Leads)
    (rest : Symbols) : scanCodeUnits (unit.text.map some ++ rest) = .ok (unit.char, rest) := by
  unfold CodeUnit.Trails at htrails
  unfold CodeUnit.Leads at hleads
  unfold scanCodeUnits
  rw [scanCodeUnit_text]
  dsimp only
  rw [if_neg htrails, if_pos (by omega)]
  rfl

theorem scanCodeUnits_of_trails {unit : CodeUnit} (h : unit.Trails) (rest : Symbols)
    : scanCodeUnits (unit.text.map some ++ rest) = .error .malformed := by
  unfold scanCodeUnits
  rw [scanCodeUnit_text]
  exact if_pos h

theorem scanCodeUnits_pair {leading trailing : CodeUnit} (hleads : leading.Leads)
    (htrails : trailing.Trails) (rest : Symbols)
    : scanCodeUnits (leading.text.map some ++ some '\\' :: some 'u' :: (trailing.text.map some ++ rest)) =
        .ok (leading.charWith trailing, rest) := by
  unfold CodeUnit.Leads at hleads
  unfold scanCodeUnits
  rw [scanCodeUnit_text]
  dsimp only
  rw [if_neg (by omega), if_neg (by omega)]
  simp only [scanCodeUnit_text]
  exact if_pos htrails

theorem scanCodeUnits_unpaired {leading other : CodeUnit} (hleads : leading.Leads)
    (hother : ¬other.Trails) (rest : Symbols)
    : scanCodeUnits (leading.text.map some ++ some '\\' :: some 'u' :: (other.text.map some ++ rest)) =
        .error .malformed := by
  unfold CodeUnit.Leads at hleads
  unfold scanCodeUnits
  rw [scanCodeUnit_text]
  dsimp only
  rw [if_neg (by omega), if_neg (by omega)]
  simp only [scanCodeUnit_text]
  exact if_neg hother

theorem scanCodeUnits_alone {leading : CodeUnit} (hleads : leading.Leads)
    (hrest : ∀ after, rest ≠ some '\\' :: some 'u' :: after)
    : (scanCodeUnits (leading.text.map some ++ rest)).toOption = none := by
  unfold CodeUnit.Leads at hleads
  unfold scanCodeUnits
  rw [scanCodeUnit_text]
  dsimp only
  rw [if_neg (by omega), if_neg (by omega)]
  split
  . exact absurd rfl (hrest _)
  . rfl
  . rfl
  . rfl

theorem scanEscape_letter (escape : Escape) (rest : Symbols)
    : scanEscape (some escape.letter :: rest) = .ok (escape.char, rest) := by
  cases escape <;> rfl

theorem scanString_quote (rest : Symbols) : scanString (some '"' :: rest) = .ok ([], rest) := by
  rw [scanString]
  rfl

theorem scanString_plain (h : ' ' ≤ c ∧ c ≠ '"' ∧ c ≠ '\\') (rest : Symbols)
    : scanString (some c :: rest) = (scanString rest).map fun (cs, rest) => (c :: cs, rest) := by
  rw [scanString, if_neg h.2.1, if_neg h.2.2, if_neg (Char.not_lt.2 h.1)]

theorem scanString_escape (h : scanEscape input = .ok (c, rest))
    : scanString (some '\\' :: input) = (scanString rest).map fun (cs, rest) => (c :: cs, rest) := by
  rw [scanString, if_neg (by decide), if_pos rfl]
  split
  . rename_i hscan
    cases h.symm.trans hscan
  . rename_i hscan
    cases h.symm.trans hscan
    rfl

theorem scanString_escape_none (h : (scanEscape input).toOption = none)
    : (scanString (some '\\' :: input)).toOption = none := by
  rw [scanString, if_neg (by decide), if_pos rfl]
  split
  . rfl
  . rename_i hscan
    rw [hscan] at h
    cases h

theorem toOption_scanString_cons {found : Option (List Char)} {behind : Symbols}
    (hfirst : scanString input =
      (scanString rest).map fun (cs, rest) => (c :: cs, rest))
    (hrest : (scanString rest).toOption = found.map (·, behind))
    : (scanString input).toOption = (found.map (c :: ·)).map (·, behind) := by
  rw [hfirst, toOption_map, hrest, Option.map_map, Option.map_map]
  rfl

def body (pieces : List Piece) (rest : Symbols) : Symbols :=
  (pieces.flatMap Piece.text).map some ++ some '"' :: rest

theorem body_cons (piece : Piece) (pieces : List Piece) (rest : Symbols)
    : body (piece :: pieces) rest = piece.text.map some ++ body pieces rest := by
  simp only [body, List.flatMap_cons, List.map_append, List.append_assoc]

theorem quoted_append (pieces : List Piece) (rest : Symbols)
    : (quoted pieces).map some ++ rest = some '"' :: body pieces rest := by
  simp [quoted, body]

theorem scanString_body (pieces : List Piece) (rest : Symbols)
    : (scanString (body pieces rest)).toOption = (Piece.chars? pieces).map (·, rest) := by
  -- A leading unit takes the one behind it along, so the cases are those of the characters, not of the list.
  fun_induction Piece.chars? pieces with
  | case1 =>
    change (scanString (some '"' :: rest)).toOption = some ([], rest)
    rw [scanString_quote]
    rfl
  | case2 c h pieces ih =>
    rw [body_cons]
    exact toOption_scanString_cons (scanString_plain h _) ih
  | case3 escape pieces ih =>
    rw [body_cons]
    exact toOption_scanString_cons (scanString_escape (scanEscape_letter escape _)) ih
  | case4 unit pieces htrails =>
    rw [body_cons]
    apply scanString_escape_none
    change (scanCodeUnits (unit.text.map some ++ _)).toOption = none
    rw [scanCodeUnits_of_trails htrails]
    rfl
  | case5 leading hleading hleads trailing pieces htrails ih =>
    rw [body_cons, body_cons]
    exact toOption_scanString_cons (scanString_escape (scanCodeUnits_pair hleads htrails _)) ih
  | case6 leading hleading hleads other pieces hother =>
    rw [body_cons, body_cons]
    apply scanString_escape_none
    change (scanCodeUnits (leading.text.map some ++ some '\\' :: some 'u' ::
      (other.text.map some ++ _))).toOption = none
    rw [scanCodeUnits_unpaired hleads hother]
    rfl
  | case7 leading pieces hleading hleads halone =>
    rw [body_cons]
    apply scanString_escape_none
    refine scanCodeUnits_alone hleads ?_
    intro after hbody
    cases pieces with
    | nil => cases hbody
    | cons piece pieces =>
      rw [body_cons] at hbody
      cases piece with
      | plain c h => exact h.2.2 (Option.some.inj (List.cons.inj hbody).1)
      | escaped escape => cases escape <;> cases hbody
      | coded unit => exact halone _ _ rfl
  | case8 unit pieces htrails hleads ih =>
    rw [body_cons]
    exact toOption_scanString_cons (scanString_escape (scanCodeUnits_text htrails hleads _)) ih

theorem skipEscape_letter (escape : Escape) (rest : Symbols)
    : skipEscape (some escape.letter :: rest) = .ok rest := by
  cases escape <;> rfl

theorem skipEscape_unit (unit : CodeUnit) (rest : Symbols)
    : skipEscape (some 'u' :: (unit.text.map some ++ rest)) = .ok rest := by
  change (scanCodeUnit (unit.text.map some ++ rest)).map (·.2) = .ok rest
  rw [scanCodeUnit_text]
  rfl

theorem skipString_escape (h : skipEscape input = .ok rest)
    : skipString (some '\\' :: input) = skipString rest := by
  rw [skipString, if_neg (by decide), if_pos rfl]
  split
  . rename_i hskip
    cases h.symm.trans hskip
  . rename_i hskip
    cases h.symm.trans hskip
    rfl

theorem skipString_body (pieces : List Piece) (rest : Symbols)
    : skipString (body pieces rest) = .ok rest := by
  induction pieces with
  | nil =>
    change skipString (some '"' :: rest) = .ok rest
    rw [skipString]
    rfl
  | cons piece pieces ih =>
    rw [body_cons]
    cases piece with
    | plain c h =>
      change skipString (some c :: body pieces rest) = .ok rest
      rw [skipString, if_neg h.2.1, if_neg h.2.2, if_neg (Char.not_lt.2 h.1)]
      exact ih
    | escaped escape => exact (skipString_escape (skipEscape_letter escape _)).trans ih
    | coded unit => exact (skipString_escape (skipEscape_unit unit _)).trans ih

/-!
## Numbers
-/

def Ends : Symbols → Prop
  | [] => True
  | symbol :: _ =>
    digit? symbol = none ∧ symbol ≠ some '.' ∧ symbol ≠ some 'e' ∧ symbol ≠ some 'E'

theorem Digit.digit?_char (digit : Digit) : digit? (some digit.char) = some digit.val := by
  revert digit
  decide

theorem Digit.char_ne (digit : Digit) : digit.char ≠ '-' ∧ digit.char ≠ '+' := by
  revert digit
  decide

theorem Digit.char_not_mem (digit : Digit)
    : blank (some digit.char) = false ∧ digit.char ∉ ['n', 't', 'f', '"', '[', ']', '\x7b'] := by
  revert digit
  decide

theorem scanDigits_text (digits : List Digit) (h : rest.head?.bind digit? = none)
    : scanDigits ((digits.map Digit.char).map some ++ rest) = (digits.map Fin.val, rest) := by
  induction digits with
  | nil =>
    cases rest with
    | nil => rfl
    | cons symbol rest =>
      change scanDigits (symbol :: rest) = ([], symbol :: rest)
      rw [scanDigits, show digit? symbol = none from h]
  | cons digit digits ih =>
    change scanDigits (some digit.char :: ((digits.map Digit.char).map some ++ rest)) = _
    rw [scanDigits, digit.digit?_char]
    dsimp only
    rw [ih]
    rfl

theorem scanSomeDigits_text (short : Problem) (digits : Digits) (h : rest.head?.bind digit? = none)
    : scanSomeDigits short (digits.text.map some ++ rest) =
        .ok (digits.toList.map Fin.val, rest) := by
  unfold scanSomeDigits Digits.text
  rw [scanDigits_text digits.toList h]
  rfl

theorem Ends.head?_eq (h : Ends rest) : rest.head?.bind digit? = none := by
  cases rest with
  | nil => rfl
  | cons symbol rest => exact h.1

def Literal.numeral (literal : Literal) : Numeral where
  negative := literal.negative
  whole := literal.whole.toList.map Fin.val
  fraction := literal.fraction.map (·.toList.map Fin.val)
  exponent := literal.exponent.map fun exponent =>
    (exponent.sign = some .minus, exponent.digits.toList.map Fin.val)

theorem scanExponent_digits (short : Problem) (negative : Bool) (digits : Digits)
    (h : rest.head?.bind digit? = none)
    : scanExponent.digits short negative (digits.text.map some ++ rest) =
        .ok (some (negative, digits.toList.map Fin.val), rest) := by
  unfold scanExponent.digits
  rw [scanSomeDigits_text short digits h]
  rfl

theorem scanExponent_text (short : Problem) (exponent : Exponent)
    (h : rest.head?.bind digit? = none)
    : scanExponent short (exponent.text.map some ++ rest) =
        .ok (some (exponent.sign = some .minus, exponent.digits.toList.map Fin.val), rest) := by
  obtain ⟨capital, sign, digits⟩ := exponent
  have hletter : (if capital then 'E' else 'e') = 'e' ∨ (if capital then 'E' else 'e') = 'E' := by
    cases capital
    . exact .inl rfl
    . exact .inr rfl
  unfold Exponent.text scanExponent
  simp only [List.map_cons, List.cons_append, if_pos hletter]
  cases sign with
  | none =>
    have hne := digits.first.char_ne
    split
    . rename_i hhead
      exact absurd (Option.some.inj (List.cons.inj hhead).1) hne.1
    . rename_i hhead
      exact absurd (Option.some.inj (List.cons.inj hhead).1) hne.2
    . exact scanExponent_digits short false digits h
  | some sign =>
    cases sign with
    | plus => exact scanExponent_digits short false digits h
    | minus => exact scanExponent_digits short true digits h

theorem scanExponent_power (short : Problem) (literal : Literal) (h : Ends rest)
    : scanExponent short (literal.power.map some ++ rest) =
        .ok (literal.numeral.exponent, rest) := by
  obtain ⟨negative, whole, fraction, exponent⟩ := literal
  cases exponent with
  | none =>
    change scanExponent short rest = .ok (none, rest)
    unfold scanExponent
    split
    . rename_i c rest
      rw [if_neg]
      rintro (rfl | rfl)
      . exact h.2.2.1 rfl
      . exact h.2.2.2 rfl
    . rfl
  | some exponent => exact scanExponent_text short exponent h.head?_eq

theorem head?_power (literal : Literal) (h : Ends rest)
    : (literal.power.map some ++ rest).head?.bind digit? = none := by
  obtain ⟨negative, whole, fraction, exponent⟩ := literal
  cases exponent with
  | none => exact h.head?_eq
  | some exponent =>
    obtain ⟨capital, sign, digits⟩ := exponent
    cases capital <;> rfl

theorem scanFraction_point (short : Problem) (literal : Literal) (h : Ends rest)
    : scanFraction short (literal.point.map some ++ (literal.power.map some ++ rest)) =
        .ok (literal.numeral.fraction, literal.power.map some ++ rest) := by
  have hpower := head?_power literal h
  obtain ⟨negative, whole, fraction, exponent⟩ := literal
  cases fraction with
  | none =>
    change scanFraction short (_ ++ rest) = _
    unfold scanFraction
    split
    . rename_i after hpoint
      cases exponent with
      | none =>
        change rest = some '.' :: after at hpoint
        subst hpoint
        exact absurd rfl h.2.1
      | some exponent =>
        obtain ⟨capital, sign, digits⟩ := exponent
        cases capital <;> cases hpoint
    . rfl
  | some digits =>
    change (scanSomeDigits short (digits.text.map some ++ _)).map _ = _
    rw [scanSomeDigits_text short digits hpower]
    rfl

theorem head?_point (literal : Literal) (h : Ends rest)
    : (literal.point.map some ++ (literal.power.map some ++ rest)).head?.bind digit? = none := by
  have hpower := head?_power literal h
  obtain ⟨negative, whole, fraction, exponent⟩ := literal
  cases fraction with
  | none => exact hpower
  | some digits => rfl

theorem scanWhole_text (short : Problem) (whole : Whole) (h : rest.head?.bind digit? = none)
    : scanWhole short (whole.text.map some ++ rest) = .ok (whole.toList.map Fin.val, rest) := by
  cases whole with
  | zero =>
    change (if (rest.head?.bind digit?).isSome then _ else _) = _
    rw [h]
    rfl
  | positive digits hpositive =>
    change scanWhole short (some digits.first.char :: ((digits.rest.map Digit.char).map some ++ rest)) = _
    unfold scanWhole
    simp only [digits.first.digit?_char, scanDigits_text digits.rest h]
    split
    . rename_i hdigit
      cases hdigit
    . rename_i hdigit
      exact absurd (Fin.ext (Option.some.inj hdigit)) hpositive
    . rename_i hdigit
      cases hdigit
      rfl

theorem Whole.text_eq_cons (whole : Whole)
    : ∃ (digit : Digit) (rest : List Char), whole.text = digit.char :: rest := by
  cases whole with
  | zero => exact ⟨0, [], rfl⟩
  | positive digits _ => exact ⟨digits.first, _, rfl⟩

theorem scanNumeral_text (short : Problem) (literal : Literal) (h : Ends rest)
    : scanNumeral short (literal.text.map some ++ rest) = .ok (literal.numeral, rest) := by
  have hunsigned : scanNumeral.unsigned short literal.negative
      (literal.whole.text.map some ++ (literal.point.map some ++ (literal.power.map some ++ rest))) =
        .ok (literal.numeral, rest) := by
    unfold scanNumeral.unsigned
    rw [scanWhole_text short literal.whole (head?_point literal h)]
    dsimp only
    rw [scanFraction_point short literal h]
    dsimp only
    rw [scanExponent_power short literal h]
    rfl
  unfold Literal.text Literal.sign
  simp only [List.map_append, List.append_assoc]
  cases hnegative : literal.negative with
  | true =>
    rw [hnegative] at hunsigned
    exact hunsigned
  | false =>
    rw [hnegative] at hunsigned
    unfold scanNumeral
    split
    . rename_i after hhead
      obtain ⟨digit, digits, hwhole⟩ := literal.whole.text_eq_cons
      rw [hwhole] at hhead
      exact absurd (Option.some.inj (List.cons.inj hhead).1) digit.char_ne.1
    . exact hunsigned

/-!
## Lists and objects
-/

theorem Ends.text (blanks : List Blank) (h : Ends rest)
    : Ends ((Blank.text blanks).map some ++ rest) := by
  cases blanks with
  | nil => exact h
  | cons blank blanks => cases blank <;> exact ⟨rfl, nofun, nofun, nofun⟩

theorem intercalate_cons (separator first : List Char) (others : List (List Char))
    : separator.intercalate (first :: others) = first ++ others.flatMap (separator ++ ·) := by
  induction others generalizing first with
  | nil => simp [List.intercalate]
  | cons second others ih =>
    rw [List.intercalate_cons_cons, ih, List.flatMap_cons]
    simp only [List.append_assoc]

def otherItems (items : List (Item Tree)) (rest : Symbols) : Symbols :=
  ((Tree.itemTexts items).flatMap (',' :: ·)).map some ++ some ']' :: rest

def otherMembers (members : List (Member Tree)) (rest : Symbols) : Symbols :=
  ((Tree.memberTexts members).flatMap (',' :: ·)).map some ++ some '\x7d' :: rest

def itemSymbols (item : Item Tree) (rest : Symbols) : Symbols :=
  (Blank.text item.before).map some ++
    (item.value.text.map some ++ ((Blank.text item.behind).map some ++ rest))

def memberBody (member : Member Tree) (rest : Symbols) : Symbols :=
  body member.name ((Blank.text member.beforeColon).map some ++ some ':' ::
    ((Blank.text member.beforeValue).map some ++
      (member.value.text.map some ++ ((Blank.text member.behind).map some ++ rest))))

def memberSymbols (member : Member Tree) (rest : Symbols) : Symbols :=
  (Blank.text member.before).map some ++ some '"' :: memberBody member rest

theorem itemText_append (item : Item Tree) (rest : Symbols)
    : (Tree.itemText item).map some ++ rest = itemSymbols item rest := by
  obtain ⟨before, value, behind⟩ := item
  simp [Tree.itemText, itemSymbols]

theorem memberText_append (member : Member Tree) (rest : Symbols)
    : (Tree.memberText member).map some ++ rest = memberSymbols member rest := by
  obtain ⟨before, name, beforeColon, beforeValue, value, behind⟩ := member
  simp [Tree.memberText, memberSymbols, memberBody, body, quoted]

theorem otherItems_cons (item : Item Tree) (items : List (Item Tree)) (rest : Symbols)
    : otherItems (item :: items) rest = some ',' :: itemSymbols item (otherItems items rest) := by
  rw [← itemText_append]
  simp [otherItems, Tree.itemTexts]

theorem otherMembers_cons (member : Member Tree) (members : List (Member Tree)) (rest : Symbols)
    : otherMembers (member :: members) rest =
        some ',' :: memberSymbols member (otherMembers members rest) := by
  rw [← memberText_append]
  simp [otherMembers, Tree.memberTexts]

theorem text_list_nil (inner : List Blank) (rest : Symbols)
    : (Tree.list inner []).text.map some ++ rest =
        some '[' :: ((Blank.text inner).map some ++ some ']' :: rest) := by
  simp [Tree.text, Tree.itemTexts, List.intercalate]

theorem text_list_cons (inner : List Blank) (item : Item Tree) (items : List (Item Tree))
    (rest : Symbols)
    : (Tree.list inner (item :: items)).text.map some ++ rest =
        some '[' :: ((Blank.text inner).map some ++ itemSymbols item (otherItems items rest)) := by
  rw [← itemText_append]
  simp [Tree.text, Tree.itemTexts, intercalate_cons, otherItems]

theorem text_object_nil (inner : List Blank) (rest : Symbols)
    : (Tree.object inner []).text.map some ++ rest =
        some '\x7b' :: ((Blank.text inner).map some ++ some '\x7d' :: rest) := by
  simp [Tree.text, Tree.memberTexts, List.intercalate]

theorem text_object_cons (inner : List Blank) (member : Member Tree)
    (members : List (Member Tree)) (rest : Symbols)
    : (Tree.object inner (member :: members)).text.map some ++ rest =
        some '\x7b' :: ((Blank.text inner).map some ++
          memberSymbols member (otherMembers members rest)) := by
  rw [← memberText_append]
  simp [Tree.text, Tree.memberTexts, intercalate_cons, otherMembers]

theorem ends_otherItems (items : List (Item Tree)) (rest : Symbols)
    : Ends (otherItems items rest) := by
  cases items with
  | nil => exact ⟨rfl, nofun, nofun, nofun⟩
  | cons item items =>
    rw [otherItems_cons]
    exact ⟨rfl, nofun, nofun, nofun⟩

theorem ends_otherMembers (members : List (Member Tree)) (rest : Symbols)
    : Ends (otherMembers members rest) := by
  cases members with
  | nil => exact ⟨rfl, nofun, nofun, nofun⟩
  | cons member members =>
    rw [otherMembers_cons]
    exact ⟨rfl, nofun, nofun, nofun⟩

theorem Literal.text_eq_cons (literal : Literal)
    : ∃ c rest, literal.text = c :: rest ∧ (c = '-' ∨ (digit? (some c)).isSome) ∧
        blank (some c) = false ∧ c ∉ ['n', 't', 'f', '"', '[', ']', '\x7b'] := by
  obtain ⟨digit, digits, hwhole⟩ := literal.whole.text_eq_cons
  unfold text sign
  rw [hwhole]
  cases literal.negative with
  | true => exact ⟨'-', _, rfl, .inl rfl, rfl, by decide⟩
  | false =>
    refine ⟨digit.char, _, rfl, .inr ?_, ?_⟩
    . rw [digit.digit?_char]
      rfl
    . exact digit.char_not_mem

theorem Tree.text_eq_cons (tree : Tree)
    : ∃ c rest, tree.text = c :: rest ∧ blank (some c) = false ∧ c ≠ ']' := by
  cases tree with
  | null => exact ⟨_, _, rfl, rfl, by decide⟩
  | bool b => cases b <;> exact ⟨_, _, rfl, rfl, by decide⟩
  | number literal =>
    obtain ⟨c, rest, htext, -, hblank, hother⟩ := literal.text_eq_cons
    refine ⟨c, rest, htext, hblank, ?_⟩
    rintro rfl
    exact absurd (by decide) hother
  | string pieces => exact ⟨_, _, rfl, rfl, by decide⟩
  | list inner items => exact ⟨_, _, rfl, rfl, by decide⟩
  | object inner members => exact ⟨_, _, rfl, rfl, by decide⟩

theorem skipBlank_tree (tree : Tree) (rest : Symbols)
    : skipBlank (tree.text.map some ++ rest) = tree.text.map some ++ rest := by
  obtain ⟨c, cs, htext, hblank, -⟩ := tree.text_eq_cons
  rw [htext]
  exact skipBlank_cons hblank _

theorem skipBlank_text_tree (blanks : List Blank) (tree : Tree) (rest : Symbols)
    : skipBlank ((Blank.text blanks).map some ++ (tree.text.map some ++ rest)) =
        tree.text.map some ++ rest :=
  (skipBlank_text blanks _).trans (skipBlank_tree tree rest)

end

end Json

end MediaProxy
