import SourceFlags.Proofs.SExpr.Grammar
import SourceFlags.Proofs.SExpr.Writing
import SourceFlags.Proofs.Text.Digit
import SourceFlags.Proofs.Text.Word

namespace SourceFlags.SExpr

open Text

mutual

def Form.tree : Form → Tree
  | .nil      => .atom "nil"
  | .t        => .atom "t"
  | .int i    => .atom (toString i)
  | .str s    => .str s
  | .sym s    => .atom s
  | .pair a b => .list [a.tree, .atom ".", b.tree]
  | .list fs  => .list (trees fs)

def trees : List Form → List Tree
  | []      => []
  | f :: fs => f.tree :: trees fs

end

def print (fs : List Form) : String :=
  String.ofList (Tree.writtenItems (trees fs))

-- Symbols that are no other atoms, integers that are not too long, and no list that is a pair.
inductive Form.IsReadable : Form → Prop
  | nil : IsReadable .nil
  | t : IsReadable .t
  | int {i : Int} (h : i.natAbs < Nat.pow 10 maxDigits) : IsReadable (.int i)
  | str (s : String) : IsReadable (.str s)
  | sym {s : String} (h : IsAtom s) (hv : atomValue s = .sym s) : IsReadable (.sym s)
  | pair {a b : Form} (ha : IsReadable a) (hb : IsReadable b) : IsReadable (.pair a b)
  | list {fs : List Form} (h : ∀ f ∈ fs, IsReadable f) (hl : ofItems fs = .list fs) :
    IsReadable (.list fs)

variable {s : String} {c : Char} {cs : Chars} {f : Form} {fs : List Form} {t : Tree}
variable {ts : List Tree} {tokens : List Token} {r : Reader} {n : Nat} {i : Int}

theorem trees_eq_map (fs : List Form) : trees fs = fs.map Form.tree := by
  induction fs
  case nil           => rfl
  case cons f fs hi => rw [trees, hi, List.map_cons]

theorem isBlank_of_isDigit (h : c.isDigit = true) : isBlank c = false := by
  have ha : c.isAlphanum = true := by rw [Char.isAlphanum, h, Bool.or_true]
  exact isBlank_eq_false_of_isWordChar (isWordChar_of_isAlphanum ha)

theorem isDelimiter_of_isDigit (h : c.isDigit = true) : Token.isDelimiter c = false := by
  have hn : ['(', ')', '\'', '"', ';'].contains c = false := by
    refine Bool.eq_false_iff.mpr fun hc => ?_
    have hs : ∀ d ∈ ['(', ')', '\'', '"', ';'], d.isDigit = false := by simp
    exact nomatch h.symm.trans <| hs c (List.contains_iff_mem.mp hc)
  rw [Token.isDelimiter, isBlank_of_isDigit h, hn, Bool.or_false]

theorem toList_toString (i : Int) :
    (toString i).toList = (if i < 0 then ['-'] else []) ++ Nat.toDigits 10 i.natAbs := by
  cases i
  case ofNat n   => exact Nat.toList_repr
  case negSucc n =>
    rw [if_pos (Int.negSucc_lt_zero n), Int.natAbs_negSucc, Int.toString_eq_repr, Int.repr,
      String.toList_append, Nat.toList_repr]
    rfl

theorem integerParts?_of_digits (h : ∀ c ∈ cs, c.isDigit = true) (hn : cs ≠ []) :
    integerParts? cs = some (false, cs) ∧ integerParts? ('-' :: cs) = some (true, cs) := by
  have ha : cs.all isDigit = true := List.all_eq_true.mpr fun c hc => isDigit_of_ascii (h c hc)
  have he : cs.isEmpty = false := List.isEmpty_eq_false_iff.mpr hn
  refine ⟨?_, by simp [integerParts?, ha, he]⟩
  simp only [integerParts?]
  split
  case h_3 => simp [ha, he]
  case h_1 => exact absurd (h '-' List.mem_cons_self) (by decide)
  case h_2 => exact absurd (h '+' List.mem_cons_self) (by decide)

theorem integerParts?_toString (i : Int) :
    integerParts? (toString i).toList = some (decide (i < 0), Nat.toDigits 10 i.natAbs) := by
  have hd : ∀ c ∈ Nat.toDigits 10 i.natAbs, c.isDigit = true := fun _ => isDigit_of_mem_toDigits
  have ⟨hp, hm⟩ := integerParts?_of_digits hd Nat.toDigits_ne_nil
  rw [toList_toString]
  by_cases h : i < 0
  case pos => simpa [h] using hm
  case neg => simpa [h] using hp

theorem atomValue_toString (i : Int) : atomValue (toString i) = .int i := by
  rw [atomValue, integerParts?_toString]
  by_cases h : i < 0
  case pos =>
    simp only [h, decide_true, digitsValue_toDigits]
    congr 1
    omega
  case neg =>
    simp only [h, decide_false, digitsValue_toDigits]
    congr 1
    omega

theorem isAtom_toString (h : i.natAbs < Nat.pow 10 maxDigits) : IsAtom (toString i) where
  formed := by
    rw [toList_toString]
    refine ⟨by simp, fun c hc => ?_⟩
    cases List.mem_append.mp hc
    case inr hc => exact isDelimiter_of_isDigit <| isDigit_of_mem_toDigits hc
    case inl hc =>
      have : c = '-' := by grind
      exact this ▸ by decide
  data hm := by
    have hd : '#' ∈ (toString i).toList := List.mem_of_head? hm
    rw [toList_toString] at hd
    cases List.mem_append.mp hd
    case inl hd => grind
    case inr hd => exact nomatch isDigit_of_mem_toDigits hd
  short sign digits hp := by
    rw [integerParts?_toString] at hp
    have hd : Nat.toDigits 10 i.natAbs = digits := (Prod.mk.inj (Option.some.inj hp)).right
    exact hd ▸ length_toDigits_le (by decide) h

theorem Form.IsReadable.tree (h : f.IsReadable) :
    f.tree.value = f ∧ f.tree.Uses (fun _ => True) IsAtom := by
  induction h
  case nil      => exact ⟨rfl, Tree.uses_atom.mpr <| isAtom_of_isName (by decide)⟩
  case t        => exact ⟨rfl, Tree.uses_atom.mpr <| isAtom_of_isName (by decide)⟩
  case int i h  => exact ⟨atomValue_toString i, Tree.uses_atom.mpr <| isAtom_toString h⟩
  case str s    => exact ⟨rfl, Tree.uses_str.mpr trivial⟩
  case sym h hv => exact ⟨hv, Tree.uses_atom.mpr h⟩
  case pair a b _ _ ha hb =>
    have hd : IsAtom "." := isAtom_of_isName (by decide)
    refine ⟨?_, by simp [Form.tree, ha.right, hb.right, hd]⟩
    simp only [Form.tree, Tree.value, Tree.values, ha.left, hb.left]
    rfl
  case list fs _ hl hi =>
    rw [Form.tree, trees_eq_map]
    refine ⟨?_, by simpa using fun f hf => (hi f hf).right⟩
    have hv : (fs.map Form.tree).map Tree.value = fs := by
      rw [List.map_map]
      exact (List.map_congr_left fun f hf => (hi f hf).left).trans (List.map_id fs)
    rw [Tree.value, Tree.values_eq_map, hv, hl]

theorem isReadable_atomValue (h : IsAtom s) : (atomValue s).IsReadable := by
  cases hp : integerParts? s.toList
  case some p =>
    have ⟨sign, digits⟩ := p
    have hl := digitsValue_lt (h.short sign digits hp)
    simp only [atomValue, hp]
    cases sign
    case false => exact .int hl
    case true  => exact .int <| (Int.natAbs_neg _).symm ▸ hl
  case none =>
    have hv : s ≠ "nil" → s ≠ "t" → atomValue s = .sym s := by
      intro hn ht
      simp [atomValue, hp, hn, ht]
    by_cases hn : s = "nil"
    case pos => exact hn ▸ .nil
    case neg =>
      by_cases ht : s = "t"
      case pos => exact ht ▸ .t
      case neg => exact hv hn ht ▸ .sym h (hv hn ht)

theorem isReadable_ofItems (h : ∀ f ∈ fs, f.IsReadable) : (Form.ofItems fs).IsReadable := by
  unfold Form.ofItems
  split
  case h_1 a b    => exact .pair (h a (by simp)) (h b (by simp))
  case h_2 fs' hn => exact .list h (by rw [Form.ofItems]; exact hn)

mutual

theorem Tree.isReadable_value (t : Tree) (h : t.Uses (fun _ => True) IsAtom) :
    t.value.IsReadable := by
  cases t
  case quote t => exact isReadable_value t (uses_quote.mp h)
  case str s   => exact .str s
  case atom s  => exact isReadable_atomValue (uses_atom.mp h)
  case list ts => exact isReadable_ofItems <| isReadable_values ts (uses_list.mp h)

theorem Tree.isReadable_values (ts : List Tree) (h : ∀ t ∈ ts, t.Uses (fun _ => True) IsAtom) :
    ∀ f ∈ Tree.values ts, f.IsReadable := by
  cases ts
  case nil       => exact fun _ hf => nomatch hf
  case cons t ts =>
    have ⟨ht, hts⟩ := List.forall_mem_cons.mp h
    exact List.forall_mem_cons.mpr ⟨isReadable_value t ht, isReadable_values ts hts⟩

end

theorem isAtom_of_scan (h : Token.scan cs = .ok tokens) (hs : .atom s ∈ tokens) (hi : IsShort s) :
    IsAtom s := by
  have ⟨ls, hls, hm, ht⟩ := Token.scan_eq_ok_iff.mp h
  have ⟨l, hl, hv⟩ := List.mem_filterMap.mp (ht ▸ hs)
  cases l <;> cases hv
  case atom cs =>
    exact ⟨by simpa using hls.formed hl, by simpa using hm _ hl, hi⟩

theorem isReadable_of_read (h : read s = .ok fs) : ∀ f ∈ fs, f.IsReadable := by
  simp only [read] at h
  split at h
  case h_2             => contradiction
  case h_1 tokens hs =>
    have hi : ∀ a, .atom a ∈ tokens → IsShort a := fun _ ha => Tree.isShort_of_run h ha
    obtain ⟨ts, ht, hv⟩ := (Tree.run_eq_ok_iff hi).mp h
    refine hv ▸ Tree.isReadable_values ts fun t hm => ⟨fun _ _ => trivial, fun a ha => ?_⟩
    have ha : .atom a ∈ tokens := ht ▸ Tree.mem_words.mpr ⟨t, hm, ha⟩
    exact isAtom_of_scan hs ha (hi a ha)

theorem read_print_of_isReadable (h : ∀ f ∈ fs, f.IsReadable) : read (print fs) = .ok fs := by
  have hv : Tree.values (trees fs) = fs := by
    rw [trees_eq_map, Tree.values_eq_map, List.map_map]
    exact (List.map_congr_left fun f hf => (h f hf).tree.left).trans (List.map_id fs)
  have ha : ∀ s, .atom s ∈ Tree.words (trees fs) → IsAtom s := by
    intro s hs
    have ⟨t, ht, hs⟩ := Tree.mem_words.mp hs
    have ⟨f, hf, he⟩ := List.mem_map.mp (trees_eq_map fs ▸ ht)
    exact (h f hf).tree.right.right s (he ▸ hs)
  rw [print, Tree.read_writtenItems _ ha, hv]

-- The forms that any text can have are the readable ones, just these come back when they are
-- printed, and printing what has been read changes no reading.
theorem read_print :
    (∀ fs, (∃ s, read s = .ok fs) ↔ ∀ f ∈ fs, f.IsReadable) ∧
    (∀ fs, read (print fs) = .ok fs ↔ ∀ f ∈ fs, f.IsReadable) ∧
    ∀ s, ((read s).bind fun fs => read (print fs)) = read s := by
  refine ⟨fun fs => ⟨?readable, ?printed⟩,
    fun fs => ⟨isReadable_of_read, read_print_of_isReadable⟩, fun s => ?again⟩
  case readable => exact fun ⟨_, h⟩ => isReadable_of_read h
  case printed  => exact fun h => ⟨print fs, read_print_of_isReadable h⟩
  case again    =>
    cases h : read s
    case error => rfl
    case ok fs => exact read_print_of_isReadable <| isReadable_of_read h

example :
    print [.list [.nil, .pair (.sym ":a") (.int (-7)), .t], .str "\\\""] =
      "(nil (:a . -7) t) \"\\\\\\\"\"" := by
  decide

end SourceFlags.SExpr
