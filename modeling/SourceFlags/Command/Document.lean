import SourceFlags.Text.Quoted

namespace SourceFlags.Command

open Text

inductive Document
  | null
  | text (s : String)
  | list (ds : List Document)
  | record (fields : List (String × Document))
  deriving Repr

namespace Document

def unit (n : Nat) : Chars :=
  '\\' :: 'u' :: hex 4 n

def escapeChar (c : Char) : Chars :=
  if c == '"' || c == '\\' then ['\\', c]
  else if c == '\n' then ['\\', 'n']
  else if c == '\r' then ['\\', 'r']
  else if c == '\t' then ['\\', 't']
  else if c == '\x0c' then ['\\', 'f']
  else if c == '\x08' then ['\\', 'b']
  else if 0x20 ≤ c.toNat && c.toNat ≤ 0x7e then [c]
  else if c.toNat < 0x10000 then unit c.toNat
  else
    let n := c.toNat - 0x10000
    unit (0xd800 + n / 0x400) ++ unit (0xdc00 + n % 0x400)

def escape (s : String) : Chars :=
  '"' :: s.toList.flatMap escapeChar ++ ['"']

def newLine (level : Nat) : Chars :=
  '\n' :: List.replicate (2 * level) ' '

-- Entries between an opening and a closing sign; without entries the signs stand together.
def block (opening closing : Char) (level : Nat) (entries : List Chars) : Chars :=
  if entries.isEmpty then [opening, closing]
  else
    opening :: newLine (level + 1) ++ join (',' :: newLine (level + 1)) entries ++ newLine level ++
      [closing]

mutual

def render (level : Nat) : Document → Chars
  | .null => "null".toList
  | .text s => escape s
  | .list ds => block '[' ']' level (renderItems (level + 1) ds)
  | .record fields => block '\x7b' '\x7d' level (renderFields (level + 1) fields)

def renderItems (level : Nat) : List Document → List Chars
  | [] => []
  | d :: ds => render level d :: renderItems level ds

def renderFields (level : Nat) : List (String × Document) → List Chars
  | [] => []
  | (name, d) :: fs => (escape name ++ ": ".toList ++ render level d) :: renderFields level fs

end

def written (d : Document) : String :=
  String.ofList (render 0 d)

end Document
end SourceFlags.Command
