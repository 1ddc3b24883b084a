import SourceFlags.Text.Lines

namespace SourceFlags.Text.Utf8

def size (cs : Chars) : Nat :=
  cs.foldl (· + ·.utf8Size) 0

def replacement : Char := '\ufffd'

-- A character under way: the bits so far, how many octets are owed, and the bounds of the next.
structure Pending where
  bits : Nat
  owed : Nat
  low : Nat
  high : Nat

inductive First
  | whole (c : Char)
  | opened (p : Pending)
  | stray

def first (b : Nat) : First :=
  if b < 0x80 then .whole (Char.ofNat b)
  else if b < 0xc2 then .stray
  else if b < 0xe0 then .opened ⟨b - 0xc0, 1, 0x80, 0xbf⟩
  else if b = 0xe0 then .opened ⟨0, 2, 0xa0, 0xbf⟩
  else if b = 0xed then .opened ⟨0xd, 2, 0x80, 0x9f⟩
  else if b < 0xf0 then .opened ⟨b - 0xe0, 2, 0x80, 0xbf⟩
  else if b = 0xf0 then .opened ⟨0, 3, 0x90, 0xbf⟩
  else if b < 0xf4 then .opened ⟨b - 0xf0, 3, 0x80, 0xbf⟩
  else if b = 0xf4 then .opened ⟨4, 3, 0x80, 0x8f⟩
  else .stray

def start (b : Nat) : Chars × Option Pending :=
  match first b with
  | .whole c => ([c], none)
  | .opened p => ([], some p)
  | .stray => ([replacement], none)

-- An octet that cannot go on breaks the character off and is looked at afresh.
def step : Option Pending → Nat → Chars × Option Pending
  | none, b => start b
  | some p, b =>
    if p.low ≤ b && b ≤ p.high then
      let bits := 64 * p.bits + (b - 0x80)
      if p.owed ≤ 1 then ([Char.ofNat bits], none)
      else ([], some ⟨bits, p.owed - 1, 0x80, 0xbf⟩)
    else
      let (cs, q) := start b
      (replacement :: cs, q)

def decodeFrom : Option Pending → List UInt8 → Chars
  | none, [] => []
  | some _, [] => [replacement]
  | p, b :: bs =>
    let (cs, q) := step p b.toNat
    cs ++ decodeFrom q bs

def decode (bs : List UInt8) : String :=
  String.ofList (decodeFrom none bs)

end SourceFlags.Text.Utf8

namespace SourceFlags.Text

-- Carriage returns, alone or before a new line, are read as new lines.
def foldNewlines : Chars → Chars
  | [] => []
  | '\r' :: '\n' :: cs => '\n' :: foldNewlines cs
  | c :: cs => (if c = '\r' then '\n' else c) :: foldNewlines cs

theorem foldNewlines_eq_self {cs : Chars} (h : '\r' ∉ cs) : foldNewlines cs = cs := by
  fun_induction foldNewlines cs with
  | case1 => rfl
  | case2 => simp at h
  | case3 c cs _ ih =>
    simp only [List.mem_cons, not_or] at h
    rw [ih h.2, if_neg (Ne.symm h.1)]

end SourceFlags.Text
