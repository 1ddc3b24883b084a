import SourceFlags.Text.Digit
import SourceFlags.Text.Quoted

namespace SourceFlags.SExpr

open Text

inductive Token
  | opening
  | closing
  | quote
  | str (s : String)
  | atom (s : String)
  deriving DecidableEq, Repr

inductive ReadError
  | unreadable (offset : Nat) (excerpt : String)
  | readerMacro (offset : Nat)
  | unbalanced
  | unterminated
  | danglingQuote
  | integerTooLong
  deriving DecidableEq, Repr

def ReadError.message : ReadError → String
  | .unreadable offset excerpt =>
    "Unreadable input at offset " ++ toString offset ++ ": " ++ quoted excerpt
  | .readerMacro offset => "Reader macro at offset " ++ toString offset ++ " is not supported"
  | .unbalanced => "Unbalanced ')'"
  | .unterminated => "Unterminated list"
  | .danglingQuote => "Quote at end of input"
  | .integerTooLong => "Integer with too many digits"

namespace Token

def isDelimiter (c : Char) : Bool :=
  isBlank c || ['(', ')', '\'', '"', ';'].contains c

-- What is being read; the characters of a token under way come last first.
inductive Mode
  | between
  | comment
  | atom (acc : Chars)
  | str (start : Nat) (acc : Chars)
  | escape (start : Nat) (acc : Chars)

def start (offset : Nat) (c : Char) : Except ReadError (List Token × Mode) :=
  if isBlank c then .ok ([], .between)
  else if c = ';' then .ok ([], .comment)
  else if c = '(' then .ok ([.opening], .between)
  else if c = ')' then .ok ([.closing], .between)
  else if c = '\'' then .ok ([.quote], .between)
  else if c = '"' then .ok ([], .str offset [])
  else if c = '#' then .error (.readerMacro offset)
  else .ok ([], .atom [c])

def step (offset : Nat) (mode : Mode) (c : Char) : Except ReadError (List Token × Mode) :=
  match mode with
  | .between => start offset c
  | .comment => .ok ([], if c = '\n' then .between else .comment)
  | .atom acc =>
    if isDelimiter c then
      (start offset c).map fun (ts, m) => (.atom (String.ofList acc.reverse) :: ts, m)
    else .ok ([], .atom (c :: acc))
  | .str first acc =>
    if c = '"' then .ok ([.str (String.ofList acc.reverse)], .between)
    else if c = '\\' then .ok ([], .escape first acc)
    else .ok ([], .str first (c :: acc))
  | .escape first acc => .ok ([], .str first (c :: acc))

def excerptLength : Nat := 20

-- The end of the input ends an atom but no string.
def finish (input : Chars) : Mode → Except ReadError (List Token)
  | .between => .ok []
  | .comment => .ok []
  | .atom acc => .ok [.atom (String.ofList acc.reverse)]
  | .str first _ => .error (.unreadable first (excerpt first))
  | .escape first _ => .error (.unreadable first (excerpt first))
where
  excerpt (offset : Nat) : String :=
    String.ofList ((input.drop offset).take excerptLength)

def scanFrom (input : Chars) : Nat → Mode → Chars → Except ReadError (List Token)
  | _, mode, [] => finish input mode
  | offset, mode, c :: cs =>
    match step offset mode c with
    | .error e => .error e
    | .ok (ts, mode) =>
      match scanFrom input (offset + 1) mode cs with
      | .error e => .error e
      | .ok rest => .ok (ts ++ rest)

def scan (input : Chars) : Except ReadError (List Token) :=
  scanFrom input 0 .between input

end Token
end SourceFlags.SExpr
