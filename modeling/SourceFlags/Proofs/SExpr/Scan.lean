import SourceFlags.Proofs.Except
import SourceFlags.Proofs.SExpr.Lexeme

namespace SourceFlags.SExpr

open Text

def Lexeme.IsMacro (l : Lexeme) : Prop :=
  l.chars.head? = some '#'

theorem Lexeme.not_isMacro {l : Lexeme} (hf : l.IsFormed) (hk : l.kind ≠ .atom) : ¬l.IsMacro := by
  intro hm
  have ⟨c, cs, hc, ho⟩ := kind_of_head hf
  rw [IsMacro, hc, List.head?_cons, Option.some.injEq] at hm
  exact hk <| ho ▸ hm ▸ by decide

namespace Token

variable {l : Lexeme} {c : Char} {cs rest input acc : Chars} {off first : Nat} {mode mode' : Mode}
variable {ts : List Token} {ls : List Lexeme} {e : ReadError}

theorem offset_cons (off : Nat) (c : Char) (cs : Chars) :
    off + 1 + cs.length = off + (c :: cs).length := by
  simp only [List.length_cons]
  omega

theorem scanFrom_cons (h : step off mode c = .ok (ts, mode')) :
    scanFrom input off mode (c :: cs) =
      (scanFrom input (off + 1) mode' cs).map (ts ++ ·) := by
  simp only [scanFrom, h]
  cases scanFrom input (off + 1) mode' cs <;> rfl

theorem scanFrom_skip (next : Mode) (h : step off mode c = .ok ([], next)) :
    scanFrom input off mode (c :: cs) = scanFrom input (off + 1) next cs := by
  rw [scanFrom_cons h]
  cases scanFrom input (off + 1) next cs <;> rfl

theorem scanFrom_blanks (h : ∀ c ∈ cs, isBlank c = true) :
    scanFrom input off .between (cs ++ rest) = scanFrom input (off + cs.length) .between rest := by
  induction cs generalizing off
  case nil => rfl
  case cons c cs hi =>
    have ⟨hc, hcs⟩ := List.forall_mem_cons.mp h
    rw [List.cons_append, scanFrom_skip .between (by simp [step, start, hc]), hi hcs,
      offset_cons]

theorem scanFrom_comment (h : '\n' ∉ cs) :
    scanFrom input off .comment (cs ++ rest) = scanFrom input (off + cs.length) .comment rest := by
  induction cs generalizing off
  case nil => rfl
  case cons c cs hi =>
    have ⟨hc, hcs⟩ := not_or.mp <| mt List.mem_cons.mpr h
    rw [List.cons_append, scanFrom_skip .comment (by simp [step, Ne.symm hc]), hi hcs,
      offset_cons]

theorem scanFrom_comment_end (h : ∀ c ∈ rest.head?, c = '\n') :
    scanFrom input off .comment rest = scanFrom input off .between rest := by
  cases rest
  case nil => rfl
  case cons c rest =>
    have hc : c = '\n' := h c rfl
    have hb : isBlank '\n' = true := by decide
    rw [scanFrom_skip .between (by simp [step, hc]),
      scanFrom_skip .between (by simp [step, start, hc, hb])]

theorem scanFrom_atom (h : ∀ c ∈ cs, isDelimiter c = false) :
    scanFrom input off (.atom acc) (cs ++ rest) =
      scanFrom input (off + cs.length) (.atom (cs.reverse ++ acc)) rest := by
  induction cs generalizing off acc
  case nil => rfl
  case cons c cs hi =>
    have ⟨hc, hcs⟩ := List.forall_mem_cons.mp h
    rw [List.cons_append, scanFrom_skip (.atom (c :: acc)) (by simp [step, hc]), hi hcs,
      offset_cons, List.reverse_cons, List.append_assoc]
    rfl

-- What ends an atom is read as if nothing were before it.
theorem scanFrom_atom_end (h : ∀ c ∈ rest.head?, isDelimiter c = true) :
    scanFrom input off (.atom acc) rest =
      (scanFrom input off .between rest).map (.atom (String.ofList acc.reverse) :: ·) := by
  cases rest
  case nil => rfl
  case cons c rest =>
    have hc : isDelimiter c = true := h c rfl
    simp only [scanFrom, step, hc, if_true]
    cases start off c
    case error => rfl
    case ok s =>
      simp only [Except.map]
      cases scanFrom input (off + 1) s.2 rest <;> rfl

theorem scanFrom_str (h : IsBody cs) :
    scanFrom input off (.str first acc) (cs ++ '"' :: rest) =
      (scanFrom input (off + cs.length + 1) .between rest).map
        (.str (String.ofList (acc.reverse ++ unescape cs)) :: ·) := by
  induction h generalizing off acc
  case nil =>
    have hs : step off (.str first acc) '"' = .ok ([.str (String.ofList acc.reverse)], .between) :=
      rfl
    rw [List.nil_append, scanFrom_cons hs, unescape, List.append_nil]
    rfl
  case plain c cs hq hb _ hi =>
    have hu : unescape (c :: cs) = c :: unescape cs := by
      simp [unescape, hb]
    rw [List.cons_append, scanFrom_skip (.str first (c :: acc)) (by simp [step, hq, hb]),
      hi, offset_cons, hu, List.reverse_cons, List.append_assoc]
    rfl
  case escaped c cs _ hi =>
    rw [List.cons_append, List.cons_append, scanFrom_skip (.escape first acc) rfl,
      scanFrom_skip (.str first (c :: acc)) rfl, hi, offset_cons, offset_cons, unescape,
      List.reverse_cons, List.append_assoc]
    rfl

theorem start_atom (hd : isDelimiter c = false) (hm : c ≠ '#') :
    start off c = .ok ([], .atom [c]) := by
  have hk := isDelimiter_eq_false_iff.mp hd
  simp only [Kind.of] at hk
  simp only [start, hm, if_false]
  grind

-- The scanner reads a lexeme as a whole and goes on after it.
theorem scanFrom_lexeme (h : l.IsFormed) (hr : l.EndsBefore rest) (hm : ¬l.IsMacro) :
    scanFrom input off .between (l.chars ++ rest) =
      (scanFrom input (off + l.chars.length) .between rest).map (l.token?.toList ++ ·) := by
  cases l
  case opening => exact scanFrom_cons rfl
  case closing => exact scanFrom_cons rfl
  case quote   => exact scanFrom_cons rfl
  case blanks cs => exact (scanFrom_blanks h.right).trans (map_nil_append _).symm
  case comment cs =>
    have he : ∀ c ∈ rest.head?, c = '\n' := fun c hc => by simpa [Lexeme.goesOn] using hr c hc
    have hs : step off .between ';' = .ok ([], .comment) := rfl
    simp only [Lexeme.chars, Lexeme.token?, List.cons_append]
    rw [scanFrom_skip _ hs, scanFrom_comment h, scanFrom_comment_end he, offset_cons]
    exact (map_nil_append _).symm
  case str cs =>
    have hs : step off .between '"' = .ok ([], .str off []) := rfl
    simp only [Lexeme.chars, Lexeme.token?, List.cons_append, List.append_assoc, List.nil_append]
    rw [scanFrom_skip _ hs, scanFrom_str h, offset_cons off '"']
    simp [Nat.add_assoc]
  case atom cs =>
    obtain ⟨c, cs', hc⟩ := List.exists_cons_of_ne_nil h.left
    obtain ⟨hd, hds⟩ := List.forall_mem_cons.mp (hc ▸ h.right)
    have he : ∀ c ∈ rest.head?, isDelimiter c = true := fun c hc => by
      simpa [Lexeme.goesOn] using hr c hc
    have hs : step off .between c = .ok ([], .atom [c]) :=
      start_atom hd fun hh => hm <| by simp [Lexeme.IsMacro, Lexeme.chars, hc, hh]
    simp only [Lexeme.chars, Lexeme.token?, hc, List.cons_append]
    rw [scanFrom_skip _ hs, scanFrom_atom hds, scanFrom_atom_end he, offset_cons off c]
    simp

theorem scanFrom_str_endless (input : Chars) (off first : Nat) (acc : Chars)
    (h : ∀ body later, IsBody body → cs ≠ body ++ '"' :: later) :
    ∃ e, scanFrom input off (.str first acc) cs = .error e := by
  induction cs using unescape.induct generalizing off acc
  case case3 => exact ⟨_, rfl⟩
  case case1 c cs hi =>
    rw [scanFrom_skip (.escape first acc) rfl,
      scanFrom_skip (.str first (c :: acc)) rfl]
    exact hi _ _ fun body later hb he => h _ later hb.escaped (by rw [he]; rfl)
  case case2 c cs hn hi =>
    have hq : c ≠ '"' := fun hc => h [] cs .nil (by rw [hc]; rfl)
    by_cases hb : c = '\\'
    case pos =>
      cases cs
      case nil       => exact ⟨_, by rw [hb]; rfl⟩
      case cons d cs => exact absurd rfl (hn d cs hb)
    case neg =>
      rw [scanFrom_skip (.str first (c :: acc)) (by simp [step, hq, hb])]
      exact hi _ _ fun body later hs he => h _ later (hs.plain hq hb) (by rw [he]; rfl)

theorem scanFrom_macro (input : Chars) (off : Nat) (rest : Chars) (h : l.IsMacro) :
    ∃ e, scanFrom input off .between (l.chars ++ rest) = .error e := by
  have ⟨cs, hc⟩ := List.head?_eq_some_iff.mp h
  exact ⟨.readerMacro off, by rw [hc]; rfl⟩

theorem scanFrom_of_splits (h : Splits cs ls) (hm : ∀ l ∈ ls, ¬l.IsMacro) :
    scanFrom input off .between cs = .ok (ls.filterMap Lexeme.token?) := by
  induction h generalizing off
  case nil => rfl
  case cons l rest ls hf hl _ hi =>
    have ⟨hn, hns⟩ := List.forall_mem_cons.mp hm
    rw [scanFrom_lexeme hf ((Lexeme.isLongest_iff hf).mp hl) hn, hi hns, List.filterMap_cons]
    cases l.token? <;> rfl

theorem splits_of_scanFrom (h : scanFrom input off .between cs = .ok ts) :
    ∃ ls, Splits cs ls ∧ (∀ l ∈ ls, ¬l.IsMacro) ∧ ts = ls.filterMap Lexeme.token? := by
  -- By the length of the text: each lexeme leaves a shorter one.
  induction hn : cs.length using Nat.strongRecOn generalizing cs off ts
  case ind n hi =>
    cases cs
    case nil => exact ⟨[], .nil, by simp, Except.ok.inj h.symm⟩
    case cons c cs =>
      cases exists_lexeme c cs
      case inr he =>
        have ⟨_, hf⟩ := scanFrom_str_endless input (off + 1) off [] he.right
        rw [he.left, scanFrom_skip (.str off []) rfl, hf] at h
        contradiction
      case inl hl =>
        have ⟨l, rest, hf, hr, he⟩ := hl
        rw [he] at h hn ⊢
        by_cases hm : l.IsMacro
        case pos =>
          have ⟨_, hs⟩ := scanFrom_macro input off rest hm
          rw [hs] at h
          contradiction
        case neg =>
          rw [scanFrom_lexeme hf hr hm] at h
          have ⟨us, hu, ht⟩ := exists_of_map_eq_ok h
          have hp : 0 < l.chars.length := List.length_pos_iff.mpr <| Lexeme.chars_ne_nil hf
          have hlt : rest.length < n := by
            rw [← hn, List.length_append]
            omega
          have ⟨ls, hs, hms, hus⟩ := hi rest.length hlt hu rfl
          have hl := (Lexeme.isLongest_iff hf).mpr hr
          refine ⟨l :: ls, .cons hf hl hs, List.forall_mem_cons.mpr ⟨hm, hms⟩, ?_⟩
          rw [List.filterMap_cons, ← ht, hus]
          cases l.token? <;> rfl

theorem scan_eq_ok_iff :
    scan cs = .ok ts ↔
      ∃ ls, Splits cs ls ∧ (∀ l ∈ ls, ¬l.IsMacro) ∧ ts = ls.filterMap Lexeme.token? := by
  constructor
  case mp  => exact splits_of_scanFrom
  case mpr =>
    intro ⟨ls, hs, hm, ht⟩
    rw [scan, scanFrom_of_splits hs hm, ht]

theorem start_error (h : start off c = .error e) : e = .readerMacro off := by
  simp only [start] at h
  grind

theorem step_error (h : step off mode c = .error e) : e = .readerMacro off := by
  cases mode
  case between => exact start_error h
  case comment => contradiction
  case escape  => contradiction
  case str =>
    simp only [step] at h
    split at h
    case isTrue  => contradiction
    case isFalse => split at h <;> contradiction
  case atom =>
    simp only [step] at h
    split at h
    case isFalse => contradiction
    case isTrue  =>
      cases hs : start off c
      case ok      => simp [hs, Except.map] at h
      case error e' =>
        have he : e' = e := by simpa [hs, Except.map] using h
        exact he ▸ start_error hs

theorem scanFrom_error (h : scanFrom input off mode cs = .error e) : e ≠ .integerTooLong := by
  induction cs generalizing off mode
  case nil =>
    cases mode
    case str    => exact fun he => nomatch he ▸ h
    case escape => exact fun he => nomatch he ▸ h
    all_goals contradiction
  case cons c cs hi =>
    simp only [scanFrom] at h
    split at h
    case h_1 hs =>
      rw [← Except.error.inj h, step_error hs]
      exact fun he => nomatch he
    case h_2 ts mode' hs =>
      split at h
      case h_1 hr => exact hi (Except.error.inj h ▸ hr)
      case h_2    => contradiction

end Token
end SourceFlags.SExpr
