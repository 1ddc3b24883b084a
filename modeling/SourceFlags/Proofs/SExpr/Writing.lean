import SourceFlags.Proofs.SExpr.Scan
import SourceFlags.Proofs.SExpr.Tree

namespace SourceFlags.SExpr

open Text

def escape : Chars → Chars
  | []      => []
  | c :: cs => if c = '"' ∨ c = '\\' then '\\' :: c :: escape cs else c :: escape cs

structure IsAtom (s : String) : Prop where
  formed : (Lexeme.atom s.toList).IsFormed
  data   : ¬(Lexeme.atom s.toList).IsMacro
  short  : IsShort s

namespace Tree

mutual

def written : Tree → Chars
  | quote t => '\'' :: t.written
  | str s   => '"' :: (escape s.toList ++ ['"'])
  | atom s  => s.toList
  | list ts => '(' :: (writtenItems ts ++ [')'])

def writtenItems : List Tree → Chars
  | []           => []
  | [t]          => t.written
  | t :: u :: ts => t.written ++ ' ' :: writtenItems (u :: ts)

end

end Tree

variable {c : Char} {cs rest : Chars} {l : Lexeme} {tokens : List Token} {t : Tree}
variable {ts : List Tree}

def isName (s : String) : Bool :=
  let cs := s.toList
  !cs.isEmpty && cs.all (!Token.isDelimiter ·) && cs.head? != some '#' && (integerParts? cs).isNone

theorem isAtom_of_isName {s : String} (h : isName s = true) : IsAtom s := by
  simp only [isName, Bool.and_eq_true, List.all_eq_true, bne_iff_ne, Option.isNone_iff_eq_none] at h
  have ⟨⟨⟨he, hd⟩, hm⟩, hi⟩ := h
  have hf : s.toList ≠ [] ∧ ∀ c ∈ s.toList, Token.isDelimiter c = false := by
    simpa using And.intro he hd
  exact ⟨hf, hm, fun _ _ hp => nomatch hi ▸ hp⟩

theorem isBody_escape (cs : Chars) : IsBody (escape cs) := by
  induction cs
  case nil => exact .nil
  case cons c cs hi =>
    simp only [escape]
    split
    case isTrue    => exact hi.escaped
    case isFalse h => exact hi.plain (fun hq => h (.inl hq)) (fun hb => h (.inr hb))

theorem unescape_escape (cs : Chars) : unescape (escape cs) = cs := by
  induction cs
  case nil => rfl
  case cons c cs hi =>
    simp only [escape]
    split
    case isTrue    => rw [unescape, hi]
    case isFalse h =>
      have hb : c ≠ '\\' := fun hb => h (.inr hb)
      simp [unescape, hb, hi]

theorem mem_escape (h : c ∈ escape cs) : c = '\\' ∨ c ∈ cs := by
  induction cs
  case nil => contradiction
  case cons d cs hi =>
    simp only [escape] at h
    grind

namespace Token

theorem scanFrom_of_scan {input : Chars} {off : Nat} (h : scan cs = .ok tokens) :
    scanFrom input off .between cs = .ok tokens := by
  have ⟨ls, hs, hm, ht⟩ := scan_eq_ok_iff.mp h
  rw [scanFrom_of_splits hs hm, ht]

theorem scan_lexeme (hl : l.IsFormed) (hr : l.EndsBefore rest) (hm : ¬l.IsMacro)
    (h : scan rest = .ok tokens) : scan (l.chars ++ rest) = .ok (l.token?.toList ++ tokens) := by
  rw [scan, scanFrom_lexeme hl hr hm, scanFrom_of_scan h]
  rfl

theorem scan_sign (hl : l.IsFormed) (hk : l.kind ≠ .atom) (hr : ∀ c, l.goesOn c = false)
    (h : scan rest = .ok tokens) : scan (l.chars ++ rest) = .ok (l.token?.toList ++ tokens) :=
  scan_lexeme hl (fun c _ => hr c) (Lexeme.not_isMacro hl hk) h

theorem scan_blank (hc : isBlank c = true) (h : scan cs = .ok tokens) :
    scan (c :: cs) = .ok tokens := by
  rw [scan, scanFrom_skip .between (by simp [step, start, hc]), scanFrom_of_scan h]

end Token

def Separates (rest : Chars) : Prop :=
  ∀ c ∈ rest.head?, Token.isDelimiter c = true

namespace Tree

open Token

mutual

theorem scan_written (t : Tree) (rest : Chars) (tokens : List Token)
    (ha : ∀ s, .atom s ∈ t.word → IsAtom s) (hr : Separates rest) (h : scan rest = .ok tokens) :
    scan (t.written ++ rest) = .ok (t.word ++ tokens) := by
  cases t
  case quote t =>
    have ht := scan_written t rest tokens (fun s hs => ha s <| List.mem_cons_of_mem _ hs) hr h
    exact scan_sign (l := .quote) trivial nofun (fun _ => rfl) ht
  case str s =>
    have hs := scan_sign (l := .str _) (isBody_escape s.toList) nofun (fun _ => rfl) h
    simpa [Lexeme.chars, Lexeme.token?, unescape_escape, written, word] using hs
  case atom s =>
    have hs := ha s List.mem_cons_self
    have he : (Lexeme.atom s.toList).EndsBefore rest := fun c hc => by
      simp [Lexeme.goesOn, hr c hc]
    have ht := scan_lexeme hs.formed he hs.data h
    simpa [Lexeme.chars, Lexeme.token?, written, word] using ht
  case list ts =>
    have hc := scan_sign (l := .closing) trivial nofun (fun _ => rfl) h
    have hi := scan_writtenItems ts (')' :: rest) (.closing :: tokens)
      (fun s hs => ha s (by simp [word, hs])) (by simp [Separates, isDelimiter]) hc
    have ho := scan_sign (l := .opening) trivial nofun (fun _ => rfl) hi
    simpa [Lexeme.chars, Lexeme.token?, written, word] using ho

theorem scan_writtenItems (ts : List Tree) (rest : Chars) (tokens : List Token)
    (ha : ∀ s, .atom s ∈ words ts → IsAtom s) (hr : Separates rest) (h : scan rest = .ok tokens) :
    scan (writtenItems ts ++ rest) = .ok (words ts ++ tokens) := by
  cases ts
  case nil => exact h
  case cons t ts =>
    have ht : ∀ s, .atom s ∈ t.word → IsAtom s := fun s hs => ha s <| List.mem_append_left _ hs
    have hts : ∀ s, .atom s ∈ words ts → IsAtom s := fun s hs => ha s <| List.mem_append_right _ hs
    cases hn : ts
    case nil => simpa [words, writtenItems] using scan_written t rest tokens ht hr h
    case cons u us =>
      have hs := scan_blank (c := ' ') (by decide) (scan_writtenItems ts rest tokens hts hr h)
      have hw := scan_written t _ _ ht (by simp [Separates, isDelimiter]; decide) hs
      simpa [hn, words, writtenItems] using hw

end

theorem read_writtenItems (ts : List Tree) (h : ∀ s, .atom s ∈ words ts → IsAtom s) :
    read (String.ofList (writtenItems ts)) = .ok (values ts) := by
  have hs := scan_writtenItems ts [] [] h (by simp [Separates]) rfl
  simp only [List.append_nil] at hs
  rw [read, String.toList_ofList, hs]
  exact (run_eq_ok_iff fun s hm => (h s hm).short).mpr ⟨ts, rfl, rfl⟩

theorem read_written (h : ∀ s, .atom s ∈ t.word → IsAtom s) :
    read (String.ofList t.written) = .ok [t.value] :=
  read_writtenItems [t] (by simpa [words] using h)

theorem mem_words {token : Token} : token ∈ words ts ↔ ∃ t ∈ ts, token ∈ t.word := by
  induction ts
  case nil => simp [words]
  case cons t ts hi => simp [words, hi]

-- The strings of a tree are of one sort, and its atoms of another.
def Uses (strs atoms : String → Prop) (t : Tree) : Prop :=
  (∀ s, .str s ∈ t.word → strs s) ∧ ∀ s, .atom s ∈ t.word → atoms s

section

variable {strs atoms : String → Prop} {s : String}

@[simp]
theorem uses_quote : (quote t).Uses strs atoms ↔ t.Uses strs atoms := by
  simp [Uses, word]

@[simp]
theorem uses_str : (str s).Uses strs atoms ↔ strs s := by
  simp [Uses, word]

@[simp]
theorem uses_atom : (atom s).Uses strs atoms ↔ atoms s := by
  simp [Uses, word]

@[simp]
theorem uses_list : (list ts).Uses strs atoms ↔ ∀ t ∈ ts, t.Uses strs atoms := by
  simp only [Uses, word, List.mem_cons, List.mem_append, mem_words]
  grind

end

def marks : Chars :=
  ['\'', '"', '\\', '(', ')', ' ']

variable (hm : c ∉ marks)

include hm

mutual

theorem not_mem_written (t : Tree) (h : t.Uses (c ∉ ·.toList) (c ∉ ·.toList)) :
    c ∉ t.written := by
  simp only [marks, List.mem_cons, not_or] at hm
  cases t
  case atom s   => exact uses_atom.mp h
  case quote t  =>
    have ht := not_mem_written t (uses_quote.mp h)
    simp [written, hm, ht]
  case str s    =>
    have hs : c ∉ escape s.toList := fun hc =>
      (mem_escape hc).elim hm.right.right.left (uses_str.mp h)
    simp [written, hm, hs]
  case list ts =>
    have hts := not_mem_writtenItems ts (uses_list.mp h)
    simp [written, hm, hts]

theorem not_mem_writtenItems (ts : List Tree)
    (h : ∀ t ∈ ts, t.Uses (c ∉ ·.toList) (c ∉ ·.toList)) : c ∉ writtenItems ts := by
  cases ts
  case nil => exact List.not_mem_nil
  case cons t ts =>
    have ⟨ht, hts⟩ := List.forall_mem_cons.mp h
    have ht := not_mem_written t ht
    have hts := not_mem_writtenItems ts hts
    cases ts
    case nil => exact ht
    case cons =>
      simp only [marks, List.mem_cons, not_or] at hm
      simp [writtenItems, ht, hm, hts]

end

end Tree

end SourceFlags.SExpr
