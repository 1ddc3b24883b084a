import SourceFlags.Proofs.Text.Trim
import SourceFlags.Proofs.Text.Word
import SourceFlags.Toolchain.MacroDump

namespace SourceFlags.MacroDump

open Text

abbrev isIdentifier : Chars → Bool :=
  isWord isNameStart isWordChar

inductive IsName : Chars → Prop
  | plain {identifier : Chars} (h : isIdentifier identifier = true) : IsName identifier
  | function (identifier inside : Chars) (h : isIdentifier identifier = true)
      (hi : inside.all (fun c => c != ')' && !isLineBreak c) = true) :
      IsName (identifier ++ '(' :: inside ++ [')'])

-- The lines that define some macros. An empty last line stands for a final new line.
inductive AreLines : List (String × String) → List Chars → Prop
  | nil : AreLines [] []
  | bare {name : String} {macros : List (String × String)} {ls : List Chars}
      (hn : IsName name.toList) (h : AreLines macros ls) :
      AreLines ((name, "") :: macros) ((define ++ ' ' :: name.toList) :: ls)
  | valued {name value : String} {macros : List (String × String)} {ls : List Chars}
      (hn : IsName name.toList) (ht : trim value.toList = value.toList)
      (hb : value.toList.any isLineBreak = false) (h : AreLines macros ls) :
      AreLines ((name, value) :: macros)
        ((define ++ ' ' :: name.toList ++ ' ' :: value.toList) :: ls)
  | other {macros : List (String × String)} {ls : List Chars} (line : Chars)
      (hd : ¬define <+: line) (hb : line.any isLineBreak = false) (h : AreLines macros ls) :
      AreLines macros (line :: ls)

variable {identifier inside name line rest : Chars} {macros : List (String × String)}
  {ls : List Chars}

theorem isWordChar_of_isIdentifier (h : isIdentifier identifier = true) :
    ∀ c ∈ identifier, isWordChar c = true := by
  obtain ⟨c, cs, rfl, hc, hcs⟩ := isWord_iff.mp h
  exact List.forall_mem_cons.mpr ⟨isWordChar_of_isNameStart hc, hcs⟩

theorem isPlain_iff {c : Char} : (c != ')' && !isLineBreak c) = true ↔
    c ≠ ')' ∧ isLineBreak c = false := by
  simp

theorem parameters_of_closed (h : ∀ c ∈ inside, c ≠ ')') (rest : Chars) :
    parameters ('(' :: (inside ++ ')' :: rest)) = '(' :: inside ++ [')'] := by
  have hp : ∀ c ∈ inside, (c != ')') = true := by simpa using h
  simp [parameters, List.takeWhile_append_of_pos hp]

theorem parameters_of_blank (h : rest.head?.all isBlank = true) : parameters rest = [] := by
  unfold parameters
  split
  case h_1 => exact absurd h (by simp; decide)
  case h_2 => rfl

theorem name?_append (h : isIdentifier identifier = true) (rest : Chars)
    (hr : rest.head?.all (!isWordChar ·) = true) :
    name? (identifier ++ rest) =
      some (identifier ++ parameters rest, rest.drop (parameters rest).length) := by
  obtain ⟨c, cs, rfl, hc, hcs⟩ := isWord_iff.mp h
  have ⟨ht, hd⟩ := takeWhile_append_of_head? hcs hr
  simp [name?, hc, ht, hd]

namespace IsName

theorem read (h : IsName name) (hr : rest.head?.all isBlank = true) :
    name? (name ++ rest) = some (name, rest) := by
  cases h
  case plain h =>
    have hw : rest.head?.all (!isWordChar ·) = true := by
      cases rest
      case nil       => rfl
      case cons c cs =>
        have hb : isBlank c = true := hr
        refine Bool.not_eq_true' _ |>.mpr <| Bool.eq_false_iff.mpr fun hw => ?_
        simp [isBlank_eq_false_of_isWordChar hw] at hb
    rw [name?_append h rest hw, parameters_of_blank hr]
    simp
  case function identifier inside h hi =>
    have hc : ∀ c ∈ inside, c ≠ ')' :=
      fun c hc => (isPlain_iff.mp <| List.all_eq_true.mp hi c hc).left
    have hn := name?_append h ('(' :: (inside ++ ')' :: rest)) rfl
    rw [parameters_of_closed hc rest] at hn
    simpa using hn

theorem begins (h : IsName name) : ∃ c cs, name = c :: cs ∧ isBlank c = false := by
  have hi {identifier : Chars} (h : isIdentifier identifier = true) :
      ∃ c cs, identifier = c :: cs ∧ isBlank c = false := by
    have ⟨c, cs, he, hc, _⟩ := isWord_iff.mp h
    exact ⟨c, cs, he, isBlank_eq_false_of_isWordChar (isWordChar_of_isNameStart hc)⟩
  cases h
  case plain h      => exact hi h
  case function h _ =>
    obtain ⟨c, cs, rfl, hc⟩ := hi h
    exact ⟨c, _, rfl, hc⟩

theorem no_break (h : IsName name) : ∀ c ∈ name, isLineBreak c = false := by
  have hi {identifier : Chars} (h : isIdentifier identifier = true) :
      ∀ c ∈ identifier, isLineBreak c = false := fun c hc =>
    isLineBreak_eq_false_of_isWordChar (isWordChar_of_isIdentifier h c hc)
  cases h
  case plain h => exact hi h
  case function h hb =>
    simp only [List.forall_mem_append, List.forall_mem_cons]
    have hb := fun c hc => (isPlain_iff.mp <| List.all_eq_true.mp hb c hc).right
    exact ⟨⟨hi h, by decide, hb⟩, by decide, by simp⟩

theorem definition (h : IsName name) (rest : Chars) (hr : rest.head?.all isBlank = true) :
    definition? (define ++ ' ' :: (name ++ rest)) =
      some (String.ofList name, String.ofList (trim rest)) := by
  have ha : after? define (define ++ ' ' :: (name ++ rest)) = some (' ' :: (name ++ rest)) :=
    after?_eq_some_iff.mpr rfl
  have hs : isBlank ' ' = true := by decide
  have ht : trimStart (' ' :: (name ++ rest)) = name ++ rest := by
    obtain ⟨c, cs, rfl, hc⟩ := h.begins
    simp [trimStart, hs, hc]
  simp [definition?, ha, hs, ht, h.read hr, hr]

end IsName

theorem definition?_eq_none (h : ¬define <+: line) : definition? line = none := by
  simp only [definition?, after?_eq_none_iff.mpr h]

theorem AreLines.no_break (h : AreLines macros ls) :
    ∀ line ∈ ls, ∀ c ∈ line, isLineBreak c = false := by
  have hd : ∀ c ∈ define, isLineBreak c = false := by
    simpa using (by decide : define.any isLineBreak = false)
  induction h
  case nil => simp
  case bare hn _ hi =>
    refine List.forall_mem_cons.mpr ⟨?_, hi⟩
    simp only [List.forall_mem_append, List.forall_mem_cons]
    exact ⟨hd, by decide, hn.no_break⟩
  case valued hn _ hb _ hi =>
    refine List.forall_mem_cons.mpr ⟨?_, hi⟩
    simp only [List.forall_mem_append, List.forall_mem_cons]
    exact ⟨⟨hd, by decide, hn.no_break⟩, by decide, by simpa using hb⟩
  case other hb _ hi => exact List.forall_mem_cons.mpr ⟨by simpa using hb, hi⟩

theorem AreLines.definitions (h : AreLines macros ls) : ls.filterMap definition? = macros := by
  induction h
  case nil => rfl
  case bare hn _ hi =>
    have hd := hn.definition [] rfl
    rw [List.append_nil] at hd
    rw [List.filterMap_cons, hd, hi, String.ofList_toList]
    rfl
  case valued value _ _ hn ht _ _ hi =>
    have hd := hn.definition (' ' :: value.toList) rfl
    rw [trim_cons_of_blank (by decide), ht] at hd
    rw [List.append_assoc, List.cons_append, List.filterMap_cons, hd, hi, String.ofList_toList,
      String.ofList_toList]
  case other hd _ _ hi => rw [List.filterMap_cons, definition?_eq_none hd, hi]

theorem read_definitions (h : AreLines macros ls) :
    read (String.ofList (join ['\n'] ls)) = macros := by
  rw [read, String.toList_ofList, filterMap_lines_join rfl h.no_break, h.definitions]

theorem read_definitions_between :
    read "# 1 \"x\"\n#define A (1)\n#define F(a, b) a (b)\n #define A 2\n#define A\n#define G()\n" =
      [("A", "(1)"), ("F(a, b)", "a (b)"), ("A", ""), ("G()", "")] := by
  have hf : IsName "F(a, b)".toList := .function ['F'] "a, b".toList (by decide) (by decide)
  have h : AreLines [("A", "(1)"), ("F(a, b)", "a (b)"), ("A", ""), ("G()", "")] _ :=
    .other "# 1 \"x\"".toList (by decide) (by decide) <|
    .valued (.plain (by decide)) (by decide) (by decide) <|
    .valued hf (by decide) (by decide) <|
    .other " #define A 2".toList (by decide) (by decide) <|
    .bare (.plain (by decide)) <|
    .bare (.function ['G'] [] (by decide) (by decide)) <|
    .other [] (by decide) (by decide) .nil
  exact (congrArg read (by cbv)).trans (read_definitions h)

end SourceFlags.MacroDump
