import SourceFlags.Text.Lines

namespace SourceFlags

open Text

abbrev Part := Chars

@[ext]
structure Path where
  lead : Nat
  parts : List Part
  deriving DecidableEq, Repr, Inhabited

namespace Path

-- Exactly two slashes at the start are kept; three or more are one.
def leadOf : Chars → Nat
  | '/' :: '/' :: '/' :: _ => 1
  | '/' :: '/' :: _ => 2
  | '/' :: _ => 1
  | _ => 0

def here : Part := ['.']

def up : Part := ['.', '.']

def names (part : Part) : Bool :=
  !part.isEmpty && part != here

def ofChars (cs : Chars) : Path :=
  ⟨leadOf cs, (splitOn '/' cs).filter names⟩

def ofText (s : String) : Path :=
  ofChars s.toList

def chars (p : Path) : Chars :=
  let body := List.replicate p.lead '/' ++ join ['/'] p.parts
  if body.isEmpty then here else body

def text (p : Path) : String :=
  String.ofList p.chars

-- One part is put on a stack of parts; above a root there is nothing to go up to.
def push (rooted : Bool) (stack : List Part) (part : Part) : List Part :=
  if part = up then
    match stack with
    | [] => if rooted then [] else [up]
    | top :: rest => if top = up then up :: top :: rest else rest
  else part :: stack

def normal (p : Path) : Path :=
  ⟨p.lead, (p.parts.foldl (push (p.lead != 0)) []).reverse⟩

def normalText (s : String) : String :=
  (ofText s).normal.text

def isAbsolute (s : String) : Bool :=
  s.toList.head? == some '/'

-- The second path as seen from the first: an absolute one stands for itself.
def joinText (a b : String) : String :=
  if isAbsolute b then b
  else if a.toList.getLast?.all (· == '/') then a ++ b
  else a ++ "/" ++ b

def absolute (cwd s : String) : Path :=
  (ofText (joinText cwd s)).normal

def absoluteText (cwd s : String) : String :=
  (absolute cwd s).text

def append (p : Path) (s : String) : Path :=
  let q := ofText s
  if q.lead = 0 then ⟨p.lead, p.parts ++ q.parts⟩ else q

def child (p : Path) (part : Part) : Path :=
  ⟨p.lead, p.parts ++ [part]⟩

def parent (p : Path) : Path :=
  ⟨p.lead, p.parts.dropLast⟩

def name (p : Path) : Part :=
  p.parts.getLast?.getD []

def beginnings {α : Type} : List α → List (List α)
  | [] => []
  | a :: l => (beginnings l).map (a :: ·) ++ [[]]

def ancestors (p : Path) : List Path :=
  (beginnings p.parts).map fun parts => ⟨p.lead, parts⟩

def asDirectory (cwd s : String) : String :=
  joinText (absoluteText cwd s) ""

def afterCommon : List Part → List Part → List Part × List Part
  | a :: as, b :: bs => if a = b then afterCommon as bs else (a :: as, b :: bs)
  | as, bs => (as, bs)

def relative (start goal : Path) : Path :=
  let (back, forth) := afterCommon start.parts goal.parts
  ⟨0, List.replicate back.length up ++ forth⟩

-- The last dot of a name and what follows it, unless the dot is at one of the ends.
def suffix (name : Part) : Chars :=
  let tail := name.reverse.takeWhile (· != '.')
  if tail.isEmpty || name.length ≤ tail.length + 1 then [] else '.' :: tail.reverse

@[simp]
theorem normal_lead (p : Path) : p.normal.lead = p.lead := rfl

@[simp]
theorem beginnings_length {α : Type} (l : List α) : (beginnings l).length = l.length := by
  induction l with
  | nil => rfl
  | cons a l ih => simp [beginnings, ih]

theorem mem_beginnings_iff {α : Type} {b l : List α} :
    b ∈ beginnings l ↔ b <+: l ∧ b ≠ l := by
  induction l generalizing b with
  | nil => simp [beginnings]
  | cons a l ih =>
    cases b with
    | nil => simp [beginnings]
    | cons c b =>
      simp only [beginnings, List.mem_append, List.mem_map, List.cons.injEq, List.mem_singleton,
        reduceCtorEq, or_false, List.cons_prefix_cons, ih, ne_eq, not_and]
      constructor
      · rintro ⟨_, ⟨hp, hn⟩, rfl, rfl⟩
        exact ⟨⟨rfl, hp⟩, fun _ => hn⟩
      · rintro ⟨⟨rfl, hp⟩, hn⟩
        exact ⟨b, ⟨hp, hn rfl⟩, rfl, rfl⟩

example : normalText "/a/./b//../c/" = "/a/c" ∧ normalText "../x/.." = ".." ∧
    normalText "//a/../.." = "//" ∧ normalText "" = "." := by
  decide +kernel

end Path
end SourceFlags
