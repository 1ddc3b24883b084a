import SourceFlags.Text.Blank

namespace SourceFlags.Text

abbrev Chars := List Char

def splitWhere (p : Char → Bool) : Chars → List Chars
  | [] => [[]]
  | c :: cs =>
    if p c then [] :: splitWhere p cs
    else
      match splitWhere p cs with
      | [] => [[c]]
      | l :: ls => (c :: l) :: ls

def splitOn (sep : Char) (cs : Chars) : List Chars :=
  splitWhere (· == sep) cs

-- The lines that new lines alone separate; a final new line is followed by an empty line.
def feedLines (cs : Chars) : List Chars :=
  splitOn '\n' cs

-- The lines that any line break ends; nothing follows the last break.
def lines : Chars → List Chars
  | [] => []
  | '\r' :: '\n' :: cs => [] :: lines cs
  | c :: cs =>
    if isLineBreak c then [] :: lines cs
    else
      match lines cs with
      | [] => [[c]]
      | l :: ls => (c :: l) :: ls

def words (cs : Chars) : List Chars :=
  (splitWhere isBlank cs).filter (!·.isEmpty)

def trimStart (cs : Chars) : Chars :=
  cs.dropWhile isBlank

def trimEnd (cs : Chars) : Chars :=
  (cs.reverse.dropWhile isBlank).reverse

def trim (cs : Chars) : Chars :=
  trimEnd (trimStart cs)

def trimWhere (p : Char → Bool) (cs : Chars) : Chars :=
  ((cs.dropWhile p).reverse.dropWhile p).reverse

theorem trimWhere_isBlank (cs : Chars) : trimWhere isBlank cs = trim cs := rfl

def join (sep : Chars) : List Chars → Chars
  | [] => []
  | [l] => l
  | l :: ls => l ++ sep ++ join sep ls

def occursIn (needle : Chars) : Chars → Bool
  | [] => needle.isEmpty
  | c :: cs => needle.isPrefixOf (c :: cs) || occursIn needle cs

def after? (start : Chars) (cs : Chars) : Option Chars :=
  if start.isPrefixOf cs then some (cs.drop start.length) else none

def afterFirst? (needle : Chars) : Chars → Option Chars
  | [] => if needle.isEmpty then some [] else none
  | c :: cs =>
    match after? needle (c :: cs) with
    | some rest => some rest
    | none => afterFirst? needle cs

theorem splitWhere_ne_nil {p : Char → Bool} (cs : Chars) : splitWhere p cs ≠ [] := by
  cases cs with
  | nil => simp [splitWhere]
  | cons c cs =>
    unfold splitWhere
    split
    · simp
    · split <;> simp

theorem after?_eq_some_iff {start cs rest : Chars} :
    after? start cs = some rest ↔ cs = start ++ rest := by
  simp only [after?]
  split
  next h =>
    obtain ⟨t, rfl⟩ := List.isPrefixOf_iff_prefix.mp h
    simp
  next h =>
    simp only [reduceCtorEq, false_iff]
    rintro rfl
    exact h (List.isPrefixOf_iff_prefix.mpr (List.prefix_append ..))

theorem after?_eq_none_iff {start cs : Chars} : after? start cs = none ↔ ¬start <+: cs := by
  simp [after?]

theorem occursIn_nil (cs : Chars) : occursIn [] cs = true := by
  cases cs <;> simp [occursIn]

theorem occursIn_iff {needle cs : Chars} : occursIn needle cs = true ↔ needle <:+: cs := by
  induction cs with
  | nil => cases needle <;> simp [occursIn]
  | cons c cs ih =>
    simp only [occursIn, Bool.or_eq_true, List.isPrefixOf_iff_prefix, ih, List.infix_cons_iff]

end SourceFlags.Text
