import MediaProxy.Field
import Mathlib.Data.Nat.Digits.Defs

/-!
This module contains the grammar of JSON, as trees that say how a text is spelled: which blanks stand
between its tokens, which characters of a string are escaped and how, and in which form a number is given.
Every text of JSON is the text of a tree. What strings and numbers mean is said beside their spelling.
-/

namespace MediaProxy.Json

/-!
## Blanks
-/

inductive Blank where
  | space
  | tab
  | newline
  | carriageReturn
  deriving DecidableEq, Repr

namespace Blank

def char : Blank → Char
  | space => ' '
  | tab => '\t'
  | newline => '\n'
  | carriageReturn => '\r'

def text (blanks : List Blank) : List Char :=
  blanks.map char

end Blank

/-!
## Strings
-/

structure HexDigit where
  value : Fin 16
  capital : Bool := false
  deriving DecidableEq, Repr

def HexDigit.char (digit : HexDigit) : Char :=
  if digit.capital then (Nat.digitChar digit.value).toUpper else Nat.digitChar digit.value

structure CodeUnit where
  first : HexDigit
  second : HexDigit
  third : HexDigit
  fourth : HexDigit
  deriving DecidableEq, Repr

namespace CodeUnit

def text (unit : CodeUnit) : List Char :=
  [unit.first.char, unit.second.char, unit.third.char, unit.fourth.char]

def value (unit : CodeUnit) : Nat :=
  ((unit.first.value * 16 + unit.second.value) * 16 + unit.third.value) * 16 + unit.fourth.value

def Leads (unit : CodeUnit) : Prop :=
  0xd800 ≤ unit.value ∧ unit.value ≤ 0xdbff

def Trails (unit : CodeUnit) : Prop :=
  0xdc00 ≤ unit.value ∧ unit.value ≤ 0xdfff

instance (unit : CodeUnit) : Decidable unit.Leads :=
  inferInstanceAs (Decidable (_ ∧ _))

instance (unit : CodeUnit) : Decidable unit.Trails :=
  inferInstanceAs (Decidable (_ ∧ _))

def char (unit : CodeUnit) : Char :=
  Char.ofNat unit.value

def charWith (leading trailing : CodeUnit) : Char :=
  Char.ofNat (0x10000 + (leading.value - 0xd800) * 0x400 + (trailing.value - 0xdc00))

end CodeUnit

inductive Escape where
  | quote
  | backslash
  | slash
  | backspace
  | formFeed
  | newline
  | carriageReturn
  | tab
  deriving DecidableEq, Repr

namespace Escape

def letter : Escape → Char
  | quote => '"'
  | backslash => '\\'
  | slash => '/'
  | backspace => 'b'
  | formFeed => 'f'
  | newline => 'n'
  | carriageReturn => 'r'
  | tab => 't'

def char : Escape → Char
  | quote => '"'
  | backslash => '\\'
  | slash => '/'
  | backspace => '\x08'
  | formFeed => '\x0c'
  | newline => '\n'
  | carriageReturn => '\r'
  | tab => '\t'

end Escape

inductive Piece where
  | plain (c : Char) (h : ' ' ≤ c ∧ c ≠ '"' ∧ c ≠ '\\')
  | escaped (escape : Escape)
  | coded (unit : CodeUnit)
  deriving DecidableEq, Repr

namespace Piece

def text : Piece → List Char
  | plain c _ => [c]
  | escaped escape => ['\\', escape.letter]
  | coded unit => '\\' :: 'u' :: unit.text

/--
The characters of a string. There are none if it has a half of a character that stands alone.
-/
def chars? : List Piece → Option (List Char)
  | [] => some []
  | plain c _ :: pieces => (chars? pieces).map (c :: ·)
  | escaped escape :: pieces => (chars? pieces).map (escape.char :: ·)
  | coded leading :: pieces =>
    if leading.Trails then none
    else if leading.Leads then
      match pieces with
      | coded trailing :: pieces =>
        if trailing.Trails then (chars? pieces).map (leading.charWith trailing :: ·) else none
      | _ => none
    else (chars? pieces).map (leading.char :: ·)

end Piece

def quoted (pieces : List Piece) : List Char :=
  '"' :: pieces.flatMap Piece.text ++ ['"']

/-!
## Numbers
-/

abbrev Digit := Fin 10

def Digit.char (digit : Digit) : Char :=
  Nat.digitChar digit

structure Digits where
  first : Digit
  rest : List Digit
  deriving DecidableEq, Repr

namespace Digits

def toList (digits : Digits) : List Digit :=
  digits.first :: digits.rest

def text (digits : Digits) : List Char :=
  digits.toList.map Digit.char

end Digits

inductive Whole where
  | zero
  | positive (digits : Digits) (h : digits.first ≠ 0)
  deriving DecidableEq, Repr

namespace Whole

def toList : Whole → List Digit
  | zero => [0]
  | positive digits _ => digits.toList

def text (whole : Whole) : List Char :=
  whole.toList.map Digit.char

def value (whole : Whole) : Nat :=
  Nat.ofDigits 10 (whole.toList.reverse.map Fin.val)

def push (whole : Whole) (digit : Digit) : Whole :=
  match whole with
  | zero => if h : digit = 0 then zero else positive ⟨digit, []⟩ h
  | positive digits h => positive ⟨digits.first, digits.rest ++ [digit]⟩ h

def ofNat (n : Nat) : Whole :=
  if n = 0 then zero else (ofNat (n / 10)).push (Fin.ofNat 10 n)

end Whole

inductive Sign where
  | plus
  | minus
  deriving DecidableEq, Repr

def Sign.char : Sign → Char
  | plus => '+'
  | minus => '-'

structure Exponent where
  capital : Bool := false
  sign : Option Sign := none
  digits : Digits
  deriving DecidableEq, Repr

def Exponent.text (exponent : Exponent) : List Char :=
  (if exponent.capital then 'E' else 'e') ::
    (exponent.sign.toList.map Sign.char ++ exponent.digits.text)

structure Literal where
  negative : Bool := false
  whole : Whole
  fraction : Option Digits := none
  exponent : Option Exponent := none
  deriving DecidableEq, Repr

namespace Literal

def sign (literal : Literal) : List Char :=
  if literal.negative then ['-'] else []

def point (literal : Literal) : List Char :=
  literal.fraction.elim [] ('.' :: ·.text)

def power (literal : Literal) : List Char :=
  literal.exponent.elim [] Exponent.text

def text (literal : Literal) : List Char :=
  literal.sign ++ literal.whole.text ++ literal.point ++ literal.power

def natural? (literal : Literal) : Option Nat :=
  if literal.negative = false ∧ literal.fraction = none ∧ literal.exponent = none then
    some literal.whole.value
  else none

end Literal

/-!
## Values
-/

structure Item (α : Type) where
  before : List Blank := []
  value : α
  behind : List Blank := []

structure Member (α : Type) where
  before : List Blank := []
  name : List Piece
  beforeColon : List Blank := []
  beforeValue : List Blank := []
  value : α
  behind : List Blank := []

/--
The spelling of a value. An empty list or object has nothing but the blanks `inner` in it.
-/
inductive Tree where
  | null
  | bool (b : Bool)
  | number (literal : Literal)
  | string (pieces : List Piece)
  | list (inner : List Blank) (items : List (Item Tree))
  | object (inner : List Blank) (members : List (Member Tree))

namespace Tree

mutual

def text : Tree → List Char
  | null => ['n', 'u', 'l', 'l']
  | bool b => if b then ['t', 'r', 'u', 'e'] else ['f', 'a', 'l', 's', 'e']
  | number literal => literal.text
  | string pieces => quoted pieces
  | list inner items =>
    '[' :: (Blank.text inner ++ [','].intercalate (itemTexts items) ++ [']'])
  | object inner members =>
    '\x7b' :: (Blank.text inner ++ [','].intercalate (memberTexts members) ++ ['\x7d'])

def itemTexts : List (Item Tree) → List (List Char)
  | [] => []
  | item :: items => itemText item :: itemTexts items

def itemText : Item Tree → List Char
  | ⟨before, value, behind⟩ => Blank.text before ++ value.text ++ Blank.text behind

def memberTexts : List (Member Tree) → List (List Char)
  | [] => []
  | member :: members => memberText member :: memberTexts members

def memberText : Member Tree → List Char
  | ⟨before, name, beforeColon, beforeValue, value, behind⟩ =>
    Blank.text before ++ quoted name ++ Blank.text beforeColon ++ ':' :: Blank.text beforeValue ++
      value.text ++ Blank.text behind

end

def string? : Tree → Option String
  | string pieces => (Piece.chars? pieces).map String.ofList
  | _ => none

def natural? : Tree → Option Nat
  | number literal => literal.natural?
  | _ => none

def datum? (type : FieldType) (tree : Tree) : Option Datum :=
  match type with
  | .text => tree.string?.map .text
  | .natural bound => (tree.natural?.filter (· < bound)).map .natural

end Tree

def Member.name? (member : Member Tree) : Option String :=
  (Piece.chars? member.name).map String.ofList

structure Document where
  before : List Blank := []
  inner : List Blank := []
  members : List (Member Tree)
  behind : List Blank := []

def Document.text (document : Document) : String :=
  String.ofList (Tree.itemText ⟨document.before, .object document.inner document.members, document.behind⟩)

end MediaProxy.Json
