import SourceFlags.Error
import SourceFlags.Proofs.SExpr.Scan
import SourceFlags.Proofs.SExpr.Tree

namespace SourceFlags.SExpr

open Text

-- The lexemes of a text, none of them a reader macro, and the trees that derive their tokens.
structure Derives (s : String) (ls : List Lexeme) (ts : List Tree) : Prop where
  splits : Splits s.toList ls
  data   : ∀ l ∈ ls, ¬l.IsMacro
  words  : ls.filterMap Lexeme.token? = Tree.words ts

def HasShortIntegers (s : String) : Prop :=
  ∀ ls, Splits s.toList ls → ∀ cs, .atom cs ∈ ls → IsShort (String.ofList cs)

variable {s : String} {cs digits : Chars} {sign : Bool} {l : Lexeme} {ls : List Lexeme}

theorem Splits.length_le (h : Splits cs ls) (hl : l ∈ ls) : l.chars.length ≤ cs.length := by
  induction h
  case nil => contradiction
  case cons hi =>
    rw [List.length_append]
    cases List.mem_cons.mp hl
    case inl he => rw [he]; omega
    case inr hm => have := hi hm; omega

theorem length_le_of_integerParts? (h : integerParts? cs = some (sign, digits)) :
    digits.length ≤ cs.length := by
  simp only [integerParts?] at h
  grind

theorem hasShortIntegers_of_length (h : s.length ≤ maxDigits) : HasShortIntegers s := by
  intro ls hs cs hc sign digits hp
  have hd := length_le_of_integerParts? hp
  have hl := hs.length_le hc
  simp only [String.toList_ofList, Lexeme.chars, String.length_toList] at hd hl
  omega

theorem HasShortIntegers.scan {tokens : List Token} (h : HasShortIntegers s)
    (hs : Token.scan s.toList = .ok tokens) : ∀ a, .atom a ∈ tokens → IsShort a := by
  intro a ha
  have ⟨ls, hls, _, ht⟩ := Token.scan_eq_ok_iff.mp hs
  have ⟨l, hl, hla⟩ := List.mem_filterMap.mp (ht ▸ ha)
  cases l <;> cases hla
  exact h ls hls _ hl

theorem Derives.unique {ls' : List Lexeme} {ts ts' : List Tree} (h : Derives s ls ts)
    (h' : Derives s ls' ts') : ls = ls' ∧ ts = ts' := by
  have hl := h.splits.unique h'.splits
  have hw : Tree.words ts ++ [] = Tree.words ts' ++ [] := by
    rw [← h.words, ← h'.words, hl]
  have hs : Stops [] := by simp [Stops]
  exact ⟨hl, (Tree.words_unique ts ts' [] [] hs hs hw).left⟩

theorem read_eq_ok_iff (h : HasShortIntegers s) {fs : List Form} :
    read s = .ok fs ↔ ∃ ls ts, Derives s ls ts ∧ fs = ts.map Tree.value := by
  constructor
  case mp =>
    intro hr
    simp only [read] at hr
    split at hr
    case h_2 => contradiction
    case h_1 tokens hs =>
      have ⟨ts, ht, hv⟩ := (Tree.run_eq_ok_iff (h.scan hs)).mp hr
      have ⟨ls, hls, hm, hw⟩ := Token.scan_eq_ok_iff.mp hs
      exact ⟨ls, ts, ⟨hls, hm, hw ▸ ht⟩, hv.trans (Tree.values_eq_map ts)⟩
  case mpr =>
    intro ⟨ls, ts, ⟨hls, hm, hw⟩, hv⟩
    have hs := Token.scan_eq_ok_iff.mpr ⟨ls, hls, hm, rfl⟩
    rw [read, hs]
    exact (Tree.run_eq_ok_iff (h.scan hs)).mpr ⟨ts, hw, hv.trans (Tree.values_eq_map ts).symm⟩

theorem read_error (h : HasShortIntegers s) {e : ReadError} (hr : read s = .error e) :
    (Error.form e).isProjectFile = true := by
  refine bne_iff_ne.mpr ?_
  simp only [read] at hr
  split at hr
  case h_1 hs => exact Tree.run_error (h.scan hs) hr
  case h_2 hs => exact Token.scanFrom_error (Except.error.inj hr ▸ hs)

theorem read_follows_grammar (h : HasShortIntegers s) :
    (∀ fs, read s = .ok fs ↔ ∃ ls ts, Derives s ls ts ∧ fs = ts.map Tree.value) ∧
    (∀ ls ls' ts ts', Derives s ls ts → Derives s ls' ts' → ls = ls' ∧ ts = ts') ∧
    ((¬∃ ls ts, Derives s ls ts) →
      ∃ e, read s = .error e ∧ (Error.form e).isProjectFile = true) := by
  refine ⟨fun _ => read_eq_ok_iff h, fun _ _ _ _ => Derives.unique, fun hn => ?_⟩
  cases hr : read s
  case error e => exact ⟨e, rfl, read_error h hr⟩
  case ok fs =>
    have ⟨ls, ts, hd, _⟩ := (read_eq_ok_iff h).mp hr
    exact absurd ⟨ls, ts, hd⟩ hn

theorem read_quoted_pair :
    let s := "'(a . \"\\\"\") ;#\n1#"
    HasShortIntegers s ∧ ∃ ls ts, Derives s ls ts ∧
      [.pair (.sym "a") (.str "\""), .sym "1#"] = ts.map Tree.value := by
  intro s
  have h : HasShortIntegers s := hasShortIntegers_of_length (by decide)
  have hs : Token.scan s.toList = .ok [.quote, .opening, .atom "a", .atom ".", .str "\"", .closing,
    .atom "1#"] := by decide
  have hr : read s = .ok [.pair (.sym "a") (.str "\""), .sym "1#"] := by
    rw [read, hs]
    rfl
  exact ⟨h, ((read_follows_grammar h).left _).mp hr⟩

end SourceFlags.SExpr
