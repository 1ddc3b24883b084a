import Mathlib.Data.List.Infix
import SourceFlags.SExpr.Token

namespace SourceFlags.SExpr

open Text Token

inductive Kind
  | blanks
  | comment
  | opening
  | closing
  | quote
  | str
  | atom
  deriving DecidableEq

def Kind.of (c : Char) : Kind :=
  if isBlank c then .blanks
  else if c = ';' then .comment
  else if c = '(' then .opening
  else if c = ')' then .closing
  else if c = '\'' then .quote
  else if c = '"' then .str
  else .atom

def Kind.sign? : Kind → Option Char
  | .comment => some ';'
  | .opening => some '('
  | .closing => some ')'
  | .quote   => some '\''
  | .str     => some '"'
  | .blanks  => none
  | .atom    => none

-- What may stand between double quotes. A backslash and any character stand for the character.
inductive IsBody : Chars → Prop
  | nil : IsBody []
  | plain {c : Char} {cs : Chars} (hq : c ≠ '"') (hb : c ≠ '\\') (h : IsBody cs) : IsBody (c :: cs)
  | escaped {c : Char} {cs : Chars} (h : IsBody cs) : IsBody ('\\' :: c :: cs)

def unescape : Chars → Chars
  | '\\' :: c :: cs => c :: unescape cs
  | c :: cs => c :: unescape cs
  | [] => []

-- A comment goes without its semicolon, a string without its double quotes.
inductive Lexeme
  | blanks (cs : Chars)
  | comment (cs : Chars)
  | opening
  | closing
  | quote
  | str (cs : Chars)
  | atom (cs : Chars)

namespace Lexeme

def kind : Lexeme → Kind
  | blanks _  => .blanks
  | comment _ => .comment
  | opening   => .opening
  | closing   => .closing
  | quote     => .quote
  | str _     => .str
  | atom _    => .atom

def chars : Lexeme → Chars
  | blanks cs  => cs
  | comment cs => ';' :: cs
  | opening    => ['(']
  | closing    => [')']
  | quote      => ['\'']
  | str cs     => '"' :: (cs ++ ['"'])
  | atom cs    => cs

def IsFormed : Lexeme → Prop
  | blanks cs  => cs ≠ [] ∧ ∀ c ∈ cs, isBlank c = true
  | comment cs => '\n' ∉ cs
  | str cs     => IsBody cs
  | atom cs    => cs ≠ [] ∧ ∀ c ∈ cs, isDelimiter c = false
  | _          => True

def token? : Lexeme → Option Token
  | blanks _  => none
  | comment _ => none
  | opening   => some .opening
  | closing   => some .closing
  | quote     => some .quote
  | str cs    => some (.str (String.ofList (unescape cs)))
  | atom cs   => some (.atom (String.ofList cs))

def IsLongest (l : Lexeme) (rest : Chars) : Prop :=
  ∀ m : Lexeme, m.IsFormed → m.chars <+: l.chars ++ rest → m.chars.length ≤ l.chars.length

def goesOn : Lexeme → Char → Bool
  | blanks _, c  => isBlank c
  | comment _, c => c != '\n'
  | atom _, c    => !isDelimiter c
  | _, _         => false

def extend : Lexeme → Char → Lexeme
  | blanks cs, c  => blanks (cs ++ [c])
  | comment cs, c => comment (cs ++ [c])
  | atom cs, c    => atom (cs ++ [c])
  | l, _          => l

def EndsBefore (l : Lexeme) (rest : Chars) : Prop :=
  ∀ c ∈ rest.head?, l.goesOn c = false

end Lexeme

inductive Splits : Chars → List Lexeme → Prop
  | nil : Splits [] []
  | cons {l : Lexeme} {rest : Chars} {ls : List Lexeme} (formed : l.IsFormed)
    (longest : l.IsLongest rest) (h : Splits rest ls) : Splits (l.chars ++ rest) (l :: ls)

variable {l m : Lexeme} {c : Char} {cs rest : Chars} {ls : List Lexeme}

namespace IsBody

theorem eq_of_append {a b r s : Chars} (ha : IsBody a) (hb : IsBody b)
    (h : a ++ '"' :: r = b ++ '"' :: s) : a = b ∧ r = s := by
  induction ha generalizing b
  case nil =>
    cases hb
    case nil                => simpa using h
    case plain hq _ _       => exact absurd (List.cons.inj h).left.symm hq
    case escaped            => simp at h
  case plain hq hb' _ hi =>
    cases hb
    case nil                => exact absurd (List.cons.inj h).left hq
    case plain hb           =>
      have ⟨he, ht⟩ := List.cons.inj h
      exact (hi hb ht).imp_left (congrArg₂ _ he)
    case escaped            => exact absurd (List.cons.inj h).left hb'
  case escaped hi =>
    cases hb
    case nil                => simp at h
    case plain hb _         => exact absurd (List.cons.inj h).left.symm hb
    case escaped hb         =>
      have ⟨he, ht⟩ := List.cons.inj (List.cons.inj h).right
      exact (hi hb ht).imp_left fun ht => by rw [he, ht]

end IsBody

theorem isDelimiter_eq_false_iff : isDelimiter c = false ↔ Kind.of c = .atom := by
  simp only [isDelimiter, Kind.of, Bool.or_eq_false_iff]
  grind

theorem isBlank_iff : isBlank c = true ↔ Kind.of c = .blanks := by
  simp only [Kind.of]
  grind

theorem Kind.eq_sign {k : Kind} {d : Char} (h : Kind.of c = k) (hs : k.sign? = some d) :
    c = d := by
  simp only [Kind.of] at h
  grind [Kind.sign?]

namespace Lexeme

theorem kind_of_head (h : l.IsFormed) : ∃ c cs, l.chars = c :: cs ∧ Kind.of c = l.kind := by
  cases l
  case blanks cs =>
    have ⟨c, cs', hc⟩ := List.exists_cons_of_ne_nil h.left
    exact ⟨c, cs', hc, isBlank_iff.mp <| h.right c (hc ▸ List.mem_cons_self)⟩
  case atom cs =>
    have ⟨c, cs', hc⟩ := List.exists_cons_of_ne_nil h.left
    exact ⟨c, cs', hc, isDelimiter_eq_false_iff.mp <| h.right c (hc ▸ List.mem_cons_self)⟩
  case comment => exact ⟨_, _, rfl, by simp only [kind]; decide⟩
  case str     => exact ⟨_, _, rfl, by simp only [kind]; decide⟩
  all_goals exact ⟨_, _, rfl, by decide⟩

theorem chars_ne_nil (h : l.IsFormed) : l.chars ≠ [] := by
  have ⟨_, _, he, _⟩ := kind_of_head h
  simp [he]

theorem kind_eq {r s : Chars} (hl : l.IsFormed) (hm : m.IsFormed)
    (h : l.chars ++ r = m.chars ++ s) : l.kind = m.kind := by
  have ⟨c, _, hc, hk⟩ := kind_of_head hl
  have ⟨d, _, hd, hk'⟩ := kind_of_head hm
  rw [hc, hd] at h
  rw [← hk, ← hk', (List.cons.inj h).left]

theorem eq_of_chars (hl : l.IsFormed) (hm : m.IsFormed) (h : l.chars = m.chars) : l = m := by
  have hk := kind_eq (r := []) (s := []) hl hm (by rw [h])
  cases l <;> cases m <;> first | contradiction | simp_all [chars]

theorem extend_chars (h : l.goesOn c = true) : (l.extend c).chars = l.chars ++ [c] := by
  cases l
  case blanks  => rfl
  case comment => rfl
  case atom    => rfl
  all_goals contradiction

theorem extend_formed (hl : l.IsFormed) (h : l.goesOn c = true) : (l.extend c).IsFormed := by
  cases l
  case blanks  => exact ⟨by simp, List.forall_mem_append.mpr ⟨hl.right, by simpa [goesOn] using h⟩⟩
  case comment =>
    have hc : c ≠ '\n' := bne_iff_ne.mp h
    simpa [extend, IsFormed, hc.symm] using hl
  case atom    =>
    exact ⟨by simp, List.forall_mem_append.mpr ⟨hl.right, by simpa [goesOn] using h⟩⟩
  all_goals contradiction

theorem length_le_of_run {p : Char → Bool} {run a : Chars} (hp : ∀ c ∈ run, p c = true)
    (hr : ∀ c ∈ rest.head?, p c = false) (h : run <+: a ++ rest) : run.length ≤ a.length := by
  cases List.prefix_or_prefix_of_prefix h (List.prefix_append a rest)
  case inl ha => exact ha.length_le
  case inr ha =>
    have ⟨b, hb⟩ := ha
    subst hb
    cases b
    case nil => simp
    case cons c b =>
      have ⟨_, hc⟩ := (List.prefix_append_right_inj a).mp h
      have hf := hr c (by simp [← hc])
      simp [hp c (by simp)] at hf

theorem isLongest_iff (hl : l.IsFormed) : l.IsLongest rest ↔ l.EndsBefore rest := by
  constructor
  case mp =>
    intro h c hc
    -- If the lexeme could go on, it would be longer with the next character.
    refine Bool.eq_false_iff.mpr fun hg => ?_
    have ⟨cs, hcs⟩ := List.head?_eq_some_iff.mp hc
    have hp : (l.extend c).chars <+: l.chars ++ rest := by
      simp [extend_chars hg, hcs]
    have hn := h _ (extend_formed hl hg) hp
    rw [extend_chars hg, List.length_append] at hn
    exact Nat.not_succ_le_self _ hn
  case mpr =>
    intro h m hm ⟨s, hp⟩
    -- Two lexemes that begin the same text are of one kind.
    have hk := kind_eq hm hl hp
    cases l <;> cases m <;> first | contradiction | skip
    case blanks.blanks => exact length_le_of_run hm.right h ⟨s, hp⟩
    case atom.atom     =>
      exact length_le_of_run (p := (!isDelimiter ·)) (fun c hc => by simp [hm.right c hc]) h ⟨s, hp⟩
    case comment.comment cs cs' =>
      have hp := (List.cons.inj hp).right
      refine Nat.succ_le_succ <| length_le_of_run (p := (· != '\n')) ?_ h ⟨s, hp⟩
      exact fun c hc => bne_iff_ne.mpr fun he => hm (he ▸ hc)
    case str.str cs cs' =>
      have hp := (List.cons.inj hp).right
      have he : cs' ++ '"' :: s = cs ++ '"' :: rest := by simpa using hp
      simp [chars, (IsBody.eq_of_append hm hl he).left]
    all_goals exact Nat.le_refl _

end Lexeme

namespace Splits

theorem formed (h : Splits cs ls) (hl : l ∈ ls) : l.IsFormed := by
  induction h
  case nil             => contradiction
  case cons hf _ _ hi =>
    cases List.mem_cons.mp hl
    case inl he => exact he ▸ hf
    case inr hm => exact hi hm

theorem unique {ls' : List Lexeme} (h : Splits cs ls) (h' : Splits cs ls') : ls = ls' := by
  induction h generalizing ls'
  case nil =>
    generalize hn : [] = cs at h'
    cases h'
    case nil       => rfl
    case cons hf _ _ => simp [Lexeme.chars_ne_nil hf] at hn
  case cons l rest ls hf hl _ hi =>
    generalize ht : l.chars ++ rest = cs at h'
    cases h'
    case nil => simp [Lexeme.chars_ne_nil hf] at ht
    case cons l' rest' ls' hf' hl' hs' =>
      have hle := hl' l hf ⟨rest, ht⟩
      have hge := hl l' hf' ⟨rest', ht.symm⟩
      have ⟨hc, hr⟩ := List.append_inj ht (Nat.le_antisymm hle hge)
      rw [Lexeme.eq_of_chars hf hf' hc, hi (hr ▸ hs')]

end Splits

theorem exists_run (p : Char → Bool) (cs : Chars) :
    ∃ run rest, cs = run ++ rest ∧ (∀ c ∈ run, p c = true) ∧ ∀ c ∈ rest.head?, p c = false := by
  refine ⟨cs.takeWhile p, cs.dropWhile p, List.takeWhile_append_dropWhile.symm,
    List.all_eq_true.mp List.all_takeWhile, fun c hc => ?_⟩
  have hd := List.head?_dropWhile_not p cs
  rw [Option.mem_def] at hc
  simpa [hc] using hd

-- A text that begins with no lexeme begins with a string that does not end.
theorem exists_lexeme (c : Char) (cs : Chars) :
    (∃ l rest, l.IsFormed ∧ l.EndsBefore rest ∧ c :: cs = Lexeme.chars l ++ rest) ∨
    c = '"' ∧ ∀ body later, IsBody body → cs ≠ body ++ '"' :: later := by
  cases hk : Kind.of c
  case blanks =>
    have ⟨run, rest, he, hr, hn⟩ := exists_run isBlank cs
    have hf : ∀ d ∈ c :: run, isBlank d = true :=
      List.forall_mem_cons.mpr ⟨isBlank_iff.mpr hk, hr⟩
    exact .inl ⟨.blanks (c :: run), rest, ⟨by simp, hf⟩, hn, by rw [he]; rfl⟩
  case atom =>
    have ⟨run, rest, he, hr, hn⟩ := exists_run (!isDelimiter ·) cs
    have hf : ∀ d ∈ c :: run, isDelimiter d = false :=
      List.forall_mem_cons.mpr ⟨isDelimiter_eq_false_iff.mpr hk, by simpa using hr⟩
    exact .inl ⟨.atom (c :: run), rest, ⟨by simp, hf⟩, hn, by rw [he]; rfl⟩
  all_goals cases Kind.eq_sign hk rfl
  case comment =>
    have ⟨run, rest, he, hr, hn⟩ := exists_run (· != '\n') cs
    exact .inl ⟨.comment run, rest, fun hm => absurd (hr _ hm) (by simp), hn, by rw [he]; rfl⟩
  case str =>
    by_cases hb : ∃ body later, IsBody body ∧ cs = body ++ '"' :: later
    case neg => exact .inr ⟨rfl, fun body later h he => hb ⟨body, later, h, he⟩⟩
    case pos =>
      have ⟨body, later, hb, he⟩ := hb
      exact .inl ⟨.str body, later, hb, fun _ _ => rfl, by simp [he, Lexeme.chars]⟩
  case opening => exact .inl ⟨.opening, cs, trivial, fun _ _ => rfl, rfl⟩
  case closing => exact .inl ⟨.closing, cs, trivial, fun _ _ => rfl, rfl⟩
  case quote   => exact .inl ⟨.quote, cs, trivial, fun _ _ => rfl, rfl⟩

end SourceFlags.SExpr
