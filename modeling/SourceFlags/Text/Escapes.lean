import SourceFlags.Text.Lines

namespace SourceFlags.Text

def isParameter (c : Char) : Bool :=
  c.isDigit || c == ';' || c == '?'

def escapeLength : Chars → Nat
  | '\x1b' :: '[' :: cs =>
    match cs.dropWhile isParameter with
    | [] => 0
    | c :: _ => if c.isAlpha then (cs.takeWhile isParameter).length + 3 else 0
  | _ => 0

-- Leaves out as many characters as are still to be skipped, and sequences after that.
def dropEscapes : (skipped : Nat) → Chars → Chars
  | _, [] => []
  | skipped + 1, _ :: cs => dropEscapes skipped cs
  | 0, c :: cs =>
    match escapeLength (c :: cs) with
    | 0 => c :: dropEscapes 0 cs
    | length + 1 => dropEscapes length cs

def withoutEscapes (cs : Chars) : Chars :=
  dropEscapes 0 cs

theorem dropEscapes_sublist (skipped : Nat) (cs : Chars) :
    (dropEscapes skipped cs).Sublist cs := by
  induction cs generalizing skipped with
  | nil => cases skipped <;> exact .slnil
  | cons c cs ih =>
    cases skipped with
    | succ skipped => exact .cons _ (ih skipped)
    | zero =>
      unfold dropEscapes
      split
      · exact .cons_cons _ (ih 0)
      · exact .cons _ (ih _)

theorem withoutEscapes_eq_self {cs : Chars} (h : '\x1b' ∉ cs) : withoutEscapes cs = cs := by
  induction cs with
  | nil => rfl
  | cons c cs ih =>
    have hc : c ≠ '\x1b' := fun e => h (by simp [e])
    have hl : escapeLength (c :: cs) = 0 := by
      unfold escapeLength
      split
      next heq => cases heq; exact absurd rfl hc
      next => rfl
    have ih := ih fun m => h (List.mem_cons_of_mem _ m)
    simp only [withoutEscapes, dropEscapes, hl] at ih ⊢
    rw [ih]

example : withoutEscapes "\x1b[1mx\x1b[?25;0H\x1b[m\x1b[1:2m\x1b]0m\x1b[".toList =
    "x\x1b[1:2m\x1b]0m\x1b[".toList := by
  decide +kernel

end SourceFlags.Text
