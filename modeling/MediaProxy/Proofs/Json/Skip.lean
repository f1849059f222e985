import MediaProxy.Json.Skip
import MediaProxy.Proofs.Json.Lexeme

/-!
This module contains what is passed over. A value that does not matter is passed over as a whole, however it
is spelled and however deep it is nested.
-/

namespace MediaProxy.Json

section
variable {frames : List Frame} {input rest after : Symbols}

/-!
## Steps
-/

theorem skipInside_emptyList (h : skipBlank input = some '[' :: rest)
    (h' : skipBlank rest = some ']' :: after)
    : skipInside frames input = skipClosing frames after := by
  rw [skipInside]
  grind

theorem skipInside_list (h : skipBlank input = some '[' :: rest)
    (h' : ∀ after, skipBlank rest ≠ some ']' :: after)
    : skipInside frames input = skipInside (.list :: frames) rest := by
  rw [skipInside]
  grind

theorem skipInside_emptyObject (h : skipBlank input = some '\x7b' :: rest)
    (h' : skipBlank rest = some '\x7d' :: after)
    : skipInside frames input = skipClosing frames after := by
  rw [skipInside]
  grind

theorem skipInside_object (h : skipBlank input = some '\x7b' :: rest)
    (h' : ∀ after, skipBlank rest ≠ some '\x7d' :: after) (hkey : skipKey rest = .ok after)
    : skipInside frames input = skipInside (.object :: frames) after := by
  rw [skipInside]
  grind

theorem skipInside_scalar (hlist : ∀ rest, skipBlank input ≠ some '[' :: rest)
    (hobject : ∀ rest, skipBlank input ≠ some '\x7b' :: rest)
    (hscalar : skipScalar (skipBlank input) = .ok after)
    : skipInside frames input = skipClosing frames after := by
  rw [skipInside]
  grind

theorem skipClosing_nil (input : Symbols) : skipClosing [] input = .ok input := by
  rw [skipClosing.eq_def]

theorem skipClosing_item (h : skipBlank input = some ',' :: rest)
    : skipClosing (.list :: frames) input = skipInside (.list :: frames) rest := by
  rw [skipClosing.eq_def]
  grind

theorem skipClosing_member (h : skipBlank input = some ',' :: rest)
    (hkey : skipKey rest = .ok after)
    : skipClosing (.object :: frames) input = skipInside (.object :: frames) after := by
  rw [skipClosing.eq_def]
  grind

theorem skipClosing_list (h : skipBlank input = some ']' :: rest)
    : skipClosing (.list :: frames) input = skipClosing frames rest := by
  rw [skipClosing.eq_def]
  grind

theorem skipClosing_object (h : skipBlank input = some '\x7d' :: rest)
    : skipClosing (.object :: frames) input = skipClosing frames rest := by
  rw [skipClosing.eq_def]
  grind

/-!
## Spellings
-/

theorem skipKey_text (blanks : List Blank) (input : Symbols)
    : skipKey ((Blank.text blanks).map some ++ input) = skipKey input := by
  unfold skipKey
  rw [skipBlank_text]

theorem skipKey_memberSymbols (member : Member Tree) (rest : Symbols)
    : skipKey (memberSymbols member rest) =
        .ok ((Blank.text member.beforeValue).map some ++
          (member.value.text.map some ++ ((Blank.text member.behind).map some ++ rest))) := by
  unfold skipKey memberSymbols memberBody
  rw [skipBlank_text_cons _ rfl]
  simp only [skipString_body]
  rw [skipBlank_text_cons _ rfl]
  rfl

theorem skipInside_scalarTree (tree : Tree) {blanks : List Blank}
    (hlist : ∀ after, tree.text.map some ++ rest ≠ some '[' :: after)
    (hobject : ∀ after, tree.text.map some ++ rest ≠ some '\x7b' :: after)
    (hscalar : skipScalar (tree.text.map some ++ rest) = .ok rest)
    : skipInside frames ((Blank.text blanks).map some ++ (tree.text.map some ++ rest)) =
        skipClosing frames rest := by
  have hblank := skipBlank_text_tree blanks tree rest
  rw [← hblank] at hlist hobject hscalar
  exact skipInside_scalar hlist hobject hscalar

theorem skipInside_literal (literal : Literal) (blanks : List Blank) (h : Ends rest)
    : skipInside frames ((Blank.text blanks).map some ++ (literal.text.map some ++ rest)) =
        skipClosing frames rest := by
  obtain ⟨c, cs, htext, hfirst, -, hother⟩ := literal.text_eq_cons
  have hscan := scanNumeral_text .malformed literal h
  rw [htext] at hscan
  change scanNumeral .malformed (some c :: (cs.map some ++ rest)) = _ at hscan
  simp only [List.mem_cons, List.not_mem_nil, or_false, not_or] at hother
  obtain ⟨hn, ht, hf, hquote, hlist, -, hobject⟩ := hother
  apply skipInside_scalarTree (.number literal)
  . intro after hafter
    rw [Tree.text, htext] at hafter
    exact hlist (Option.some.inj (List.cons.inj hafter).1)
  . intro after hafter
    rw [Tree.text, htext] at hafter
    exact hobject (Option.some.inj (List.cons.inj hafter).1)
  . rw [Tree.text, htext, List.map_cons, List.cons_append]
    simp only [skipScalar, if_neg hn, if_neg ht, if_neg hf, if_neg hquote, if_pos hfirst, hscan]
    rfl

theorem skipInside_string (pieces : List Piece) (blanks : List Blank) (rest : Symbols)
    : skipInside frames ((Blank.text blanks).map some ++ ((quoted pieces).map some ++ rest)) =
        skipClosing frames rest := by
  apply skipInside_scalarTree (.string pieces)
  . nofun
  . nofun
  . rw [Tree.text, quoted_append]
    exact skipString_body pieces rest

mutual

theorem skipInside_tree (tree : Tree) (blanks : List Blank) {rest : Symbols} (h : Ends rest)
    (frames : List Frame)
    : skipInside frames ((Blank.text blanks).map some ++ (tree.text.map some ++ rest)) =
        skipClosing frames rest := by
  have hblank := skipBlank_text_tree blanks tree rest
  match tree with
  | .null => exact skipInside_scalarTree _ nofun nofun rfl
  | .bool true => exact skipInside_scalarTree _ nofun nofun rfl
  | .bool false => exact skipInside_scalarTree _ nofun nofun rfl
  | .number literal => exact skipInside_literal literal blanks h
  | .string pieces => exact skipInside_string pieces blanks rest
  | .list inner [] =>
    rw [text_list_nil] at hblank ⊢
    exact skipInside_emptyList hblank (skipBlank_text_cons _ rfl rest)
  | .list inner (⟨before, value, behind⟩ :: items) =>
    rw [text_list_cons] at hblank ⊢
    unfold itemSymbols at hblank ⊢
    dsimp only at hblank ⊢
    rw [← text_append inner before] at hblank ⊢
    have hopen := skipBlank_text_tree (inner ++ before) value
      ((Blank.text behind).map some ++ otherItems items rest)
    refine (skipInside_list hblank ?_).trans ?_
    . intro after hafter
      obtain ⟨c, cs, htext, -, hclose⟩ := value.text_eq_cons
      rw [hopen, htext] at hafter
      exact hclose (Option.some.inj (List.cons.inj hafter).1)
    . refine (skipInside_tree value (inner ++ before) ((ends_otherItems items rest).text behind) _).trans ?_
      exact skipClosing_otherItems items behind rest frames
  | .object inner [] =>
    rw [text_object_nil] at hblank ⊢
    exact skipInside_emptyObject hblank (skipBlank_text_cons _ rfl rest)
  | .object inner (⟨before, name, beforeColon, beforeValue, value, behind⟩ :: members) =>
    rw [text_object_cons] at hblank ⊢
    refine (skipInside_object hblank ?_
      ((skipKey_text inner _).trans (skipKey_memberSymbols _ _))).trans ?_
    . intro after hafter
      rw [skipBlank_text, memberSymbols, skipBlank_text_cons _ rfl] at hafter
      cases hafter
    . refine (skipInside_tree value beforeValue
        ((ends_otherMembers members rest).text behind) _).trans ?_
      exact skipClosing_otherMembers members behind rest frames

theorem skipClosing_otherItems (items : List (Item Tree)) (blanks : List Blank) (rest : Symbols)
    (frames : List Frame)
    : skipClosing (.list :: frames) ((Blank.text blanks).map some ++ otherItems items rest) =
        skipClosing frames rest := by
  match items with
  | [] =>
    apply skipClosing_list
    exact skipBlank_text_cons _ rfl rest
  | ⟨before, value, behind⟩ :: items =>
    rw [otherItems_cons]
    refine (skipClosing_item (skipBlank_text_cons _ rfl _)).trans ?_
    refine (skipInside_tree value before ((ends_otherItems items rest).text behind) _).trans ?_
    exact skipClosing_otherItems items behind rest frames

theorem skipClosing_otherMembers (members : List (Member Tree)) (blanks : List Blank)
    (rest : Symbols) (frames : List Frame)
    : skipClosing (.object :: frames) ((Blank.text blanks).map some ++ otherMembers members rest) =
        skipClosing frames rest := by
  match members with
  | [] =>
    apply skipClosing_object
    exact skipBlank_text_cons _ rfl rest
  | ⟨before, name, beforeColon, beforeValue, value, behind⟩ :: members =>
    rw [otherMembers_cons]
    refine (skipClosing_member (skipBlank_text_cons _ rfl _)
      (skipKey_memberSymbols _ _)).trans ?_
    refine (skipInside_tree value beforeValue ((ends_otherMembers members rest).text behind) _).trans ?_
    exact skipClosing_otherMembers members behind rest frames

end

theorem skipValue_tree (tree : Tree) (blanks : List Blank) (h : Ends rest)
    : skipValue ((Blank.text blanks).map some ++ (tree.text.map some ++ rest)) = .ok rest :=
  (skipInside_tree tree blanks h []).trans (skipClosing_nil rest)

end

end MediaProxy.Json
