import MediaProxy.Json.Value
import MediaProxy.Proofs.Json.Tree

/-!
This module contains the compact spelling of an object whose members are texts and natural numbers. It is
the one that is written, and it says the same as the values that it was made from.
-/

namespace MediaProxy.Json

/-!
## Strings
-/

def CodeUnit.ofNat (n : Nat) : CodeUnit :=
  ⟨⟨Fin.ofNat 16 (n / 0x1000), false⟩, ⟨Fin.ofNat 16 (n / 0x100), false⟩,
    ⟨Fin.ofNat 16 (n / 0x10), false⟩, ⟨Fin.ofNat 16 n, false⟩⟩

theorem CodeUnit.value_ofNat {n : Nat} (h : n < 0x10000) : (CodeUnit.ofNat n).value = n := by
  simp only [CodeUnit.ofNat, CodeUnit.value, Fin.ofNat]
  omega

theorem CodeUnit.text_ofNat_control
    : ∀ n < 0x20, (CodeUnit.ofNat n).text = '0' :: '0' :: Bytes.hexPair (UInt8.ofNat n) := by
  decide

def Piece.ofChar (c : Char) : Piece :=
  if hquote : c = '"' then .escaped .quote
  else if hbackslash : c = '\\' then .escaped .backslash
  else if c = '\x08' then .escaped .backspace
  else if c = '\x0c' then .escaped .formFeed
  else if c = '\n' then .escaped .newline
  else if c = '\r' then .escaped .carriageReturn
  else if c = '\t' then .escaped .tab
  else if hcontrol : c < ' ' then .coded (.ofNat c.toNat)
  else .plain c ⟨Char.not_lt.1 hcontrol, hquote, hbackslash⟩

def Piece.Writes (c : Char) : Piece → Prop
  | plain c' _ => c' = c ∧ escape c = [c]
  | escaped e => e.char = c ∧ escape c = ['\\', e.letter]
  | coded unit => unit.value = c.toNat ∧ c < ' ' ∧ escape c = '\\' :: 'u' :: unit.text

theorem Piece.writes_ofChar (c : Char) : (Piece.ofChar c).Writes c := by
  unfold Piece.ofChar
  split_ifs with hquote hbackslash hbackspace hformFeed hnewline hreturn htab hcontrol
  -- A character that has an escape of its own is one of seven.
  any_goals
    subst c
    exact ⟨rfl, rfl⟩
  . have hlt : c.toNat < 0x20 := hcontrol
    refine ⟨CodeUnit.value_ofNat (by omega), hcontrol, ?_⟩
    rw [CodeUnit.text_ofNat_control c.toNat hlt]
    simp only [escape, hquote, hbackslash, hbackspace, hformFeed, hnewline, hreturn, htab, hcontrol, if_false,
      if_true]
  . refine ⟨rfl, ?_⟩
    simp only [escape, hquote, hbackslash, hbackspace, hformFeed, hnewline, hreturn, htab, hcontrol, if_false]

theorem Piece.Writes.text_eq {piece : Piece} {c : Char} (h : piece.Writes c) : piece.text = escape c := by
  cases piece with
  | plain c' hplain =>
    obtain ⟨rfl, hescape⟩ := h
    exact hescape.symm
  | escaped e => exact h.2.symm
  | coded unit => exact h.2.2.symm

theorem Piece.Writes.chars?_cons {piece : Piece} {c : Char} (h : piece.Writes c) (pieces : List Piece)
    : chars? (piece :: pieces) = (chars? pieces).map (c :: ·) := by
  cases piece with
  | plain c' hplain =>
    obtain ⟨rfl, -⟩ := h
    rw [chars?]
  | escaped e =>
    obtain ⟨rfl, -⟩ := h
    rw [chars?]
  | coded unit =>
    obtain ⟨hvalue, hcontrol, -⟩ := h
    have hlt : c.toNat < 0x20 := hcontrol
    -- A control character is no half of another one.
    have hleads : ¬unit.Leads := by
      unfold CodeUnit.Leads
      omega
    have htrails : ¬unit.Trails := by
      unfold CodeUnit.Trails
      omega
    rw [chars?.eq_def]
    dsimp only
    rw [if_neg htrails, if_neg hleads, CodeUnit.char, hvalue, Char.ofNat_toNat]

def pieces (text : String) : List Piece :=
  text.toList.map Piece.ofChar

theorem Piece.chars?_pieces (text : String) : Piece.chars? (pieces text) = some text.toList := by
  unfold pieces
  induction text.toList with
  | nil => rfl
  | cons c cs ih =>
    rw [List.map_cons, (Piece.writes_ofChar c).chars?_cons, ih]
    rfl

theorem quoted_pieces (text : String) : quoted (pieces text) = (string text).toList := by
  unfold quoted pieces string
  rw [String.toList_ofList, List.flatMap_map]
  simp only [(Piece.writes_ofChar _).text_eq]

/-!
## Numbers
-/

theorem Whole.push_zero (digit : Digit)
    : Whole.zero.push digit = if h : digit = 0 then .zero else .positive ⟨digit, []⟩ h :=
  rfl

theorem Whole.toList_push_zero (digit : Digit) : (Whole.zero.push digit).toList = [digit] := by
  rw [Whole.push_zero]
  split
  . rename_i h
    rw [h]
    rfl
  . rfl

theorem Whole.toList_push {whole : Whole} (h : whole ≠ .zero) (digit : Digit)
    : (whole.push digit).toList = whole.toList ++ [digit] := by
  cases whole with
  | zero => exact absurd rfl h
  | positive digits _ => rfl

theorem Whole.value_push (whole : Whole) (digit : Digit)
    : (whole.push digit).value = digit + 10 * whole.value := by
  unfold Whole.value
  by_cases hzero : whole = .zero
  . rw [hzero, Whole.toList_push_zero]
    exact Nat.ofDigits_singleton
  . rw [Whole.toList_push hzero, List.reverse_append, List.map_append]
    exact Nat.ofDigits_cons

theorem Whole.value_ofNat (n : Nat) : (Whole.ofNat n).value = n := by
  fun_induction Whole.ofNat n with
  | case1 => rfl
  | case2 n hn ih =>
    rw [Whole.value_push, ih]
    exact Nat.mod_add_div n 10

theorem Whole.ofNat_ne_zero {n : Nat} (h : n ≠ 0) : Whole.ofNat n ≠ .zero := by
  intro hzero
  have hvalue := Whole.value_ofNat n
  rw [hzero] at hvalue
  exact h hvalue.symm

theorem Whole.text_ofNat (n : Nat) : (Whole.ofNat n).text = (toString n).toList := by
  rw [Nat.toString_eq_repr, Nat.toList_repr]
  unfold Whole.text
  fun_induction Whole.ofNat n with
  | case1 => rfl
  | case2 n hn ih =>
    -- The first digit takes the place of the zero in front of it.
    by_cases hsmall : n < 10
    . rw [Nat.div_eq_of_lt hsmall, Whole.ofNat, if_pos rfl, Whole.toList_push_zero,
        Nat.toDigits_of_lt_base hsmall]
      exact congrArg (fun d => [Nat.digitChar d]) (Nat.mod_eq_of_lt hsmall)
    . have htens : n / 10 ≠ 0 := by omega
      rw [Whole.toList_push (Whole.ofNat_ne_zero htens), List.map_append, ih,
        Nat.toDigits_of_base_le (by decide) (Nat.not_lt.1 hsmall)]
      rfl

/-!
## Objects
-/

def Value.ofDatum : Datum → Value
  | .text content => .text content
  | .natural n => .natural n

def Tree.ofDatum : Datum → Tree
  | .text content => .string (pieces content)
  | .natural n => .number { whole := .ofNat n }

def Member.ofDatum (name : String) (datum : Datum) : Member Tree where
  name := pieces name
  value := .ofDatum datum

def Document.ofMembers (members : Members) : Document where
  members := members.map fun (name, datum) => .ofDatum name datum

theorem Member.name?_ofDatum (name : String) (datum : Datum)
    : (Member.ofDatum name datum).name? = some name := by
  unfold Member.name? Member.ofDatum
  rw [Piece.chars?_pieces, Option.map_some, String.ofList_toList]

theorem Tree.string?_ofDatum (text : String) : (Tree.ofDatum (.text text)).string? = some text := by
  unfold Tree.ofDatum Tree.string?
  dsimp only
  rw [Piece.chars?_pieces, Option.map_some, String.ofList_toList]

theorem Tree.natural?_ofDatum (n : Nat) : (Tree.ofDatum (.natural n)).natural? = some n := by
  unfold Tree.ofDatum Tree.natural? Literal.natural?
  dsimp only
  rw [if_pos ⟨rfl, rfl, rfl⟩, Whole.value_ofNat]

theorem Tree.text_ofDatum (datum : Datum)
    : (Tree.ofDatum datum).text = (Value.ofDatum datum).compact.toList := by
  cases datum with
  | text text => exact quoted_pieces text
  | natural n =>
    change [] ++ (Whole.ofNat n).text ++ [] ++ [] = (toString n).toList
    simp only [Whole.text_ofNat, List.nil_append, List.append_nil]

theorem Tree.memberText_ofDatum (name : String) (datum : Datum)
    : Tree.memberText (.ofDatum name datum) =
        (Json.string name ++ ":" ++ (Value.ofDatum datum).compact).toList := by
  unfold Member.ofDatum Tree.memberText
  simp [quoted_pieces, Tree.text_ofDatum, Blank.text]

theorem Tree.memberTexts_ofDatum (members : Members)
    : Tree.memberTexts (members.map fun (name, datum) => .ofDatum name datum) =
        (Value.compactMembers (members.map fun (name, datum) => (name, .ofDatum datum))).map
          String.toList := by
  induction members with
  | nil => rfl
  | cons member members ih =>
    obtain ⟨name, datum⟩ := member
    simp only [List.map_cons, Tree.memberTexts, Value.compactMembers, ih, Tree.memberText_ofDatum]

theorem Document.text_ofMembers (members : Members)
    : (Document.ofMembers members).text =
        (Value.object (members.map fun (name, datum) => (name, .ofDatum datum))).compact := by
  unfold Document.text Document.ofMembers Tree.itemText Tree.text Value.compact
  rw [Tree.memberTexts_ofDatum, ← String.toList_inj]
  simp [Blank.text, String.toList_intercalate]

end MediaProxy.Json
