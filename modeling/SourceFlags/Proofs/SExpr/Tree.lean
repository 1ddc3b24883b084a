import SourceFlags.SExpr.Reader

namespace SourceFlags.SExpr

open Text

inductive Tree
  | quote (t : Tree)
  | str (s : String)
  | atom (s : String)
  | list (ts : List Tree)

def IsShort (s : String) : Prop :=
  ∀ sign digits, integerParts? s.toList = some (sign, digits) → digits.length ≤ maxDigits

def atomValue (s : String) : Form :=
  match integerParts? s.toList with
  | some (true, digits)  => .int (-digitsValue digits)
  | some (false, digits) => .int (digitsValue digits)
  | none                 => if s = "nil" then .nil else if s = "t" then .t else .sym s

namespace Tree

mutual

def word : Tree → List Token
  | quote t => .quote :: t.word
  | str s   => [.str s]
  | atom s  => [.atom s]
  | list ts => .opening :: (words ts ++ [.closing])

def words : List Tree → List Token
  | []      => []
  | t :: ts => t.word ++ words ts

end

mutual

def value : Tree → Form
  | quote t => t.value
  | str s   => .str s
  | atom s  => atomValue s
  | list ts => .ofItems (values ts)

def values : List Tree → List Form
  | []      => []
  | t :: ts => t.value :: values ts

end

end Tree

def Stops (tokens : List Token) : Prop :=
  ∀ token ∈ tokens.head?, token = .closing

variable {s : String} {f : Form} {fs : List Form} {r : Reader} {tokens rest rest' : List Token}

theorem ofAtom_of_short (h : IsShort s) : ofAtom s = .ok (atomValue s) := by
  simp only [ofAtom, atomValue]
  cases hp : integerParts? s.toList
  case none => rfl
  case some p =>
    have ⟨sign, digits⟩ := p
    simp only [if_neg <| Nat.not_lt.mpr <| h sign digits hp]
    cases sign <;> rfl

theorem isShort_of_ofAtom (h : ofAtom s = .ok f) : IsShort s := by
  intro sign digits hp
  simp only [ofAtom, hp] at h
  split at h
  case isTrue     => contradiction
  case isFalse hl => exact Nat.not_lt.mp hl

theorem eq_atomValue_of_ofAtom (h : ofAtom s = .ok f) : f = atomValue s :=
  Except.ok.inj <| h.symm.trans <| ofAtom_of_short <| isShort_of_ofAtom h

namespace Reader

def addAll (r : Reader) (fs : List Form) : Reader :=
  fs.foldl add r

theorem addAll_in_list (l : List Form) (ls : List (List Form)) (forms fs : List Form) :
    addAll ⟨l :: ls, forms, false⟩ fs = ⟨(fs.reverse ++ l) :: ls, forms, false⟩ := by
  induction fs generalizing l
  case nil => rfl
  case cons f fs hi =>
    have ha : addAll ⟨l :: ls, forms, false⟩ (f :: fs) = addAll ⟨(f :: l) :: ls, forms, false⟩ fs :=
      rfl
    rw [ha, hi, List.reverse_cons, List.append_assoc]
    rfl

theorem addAll_outside (forms fs : List Form) :
    addAll ⟨[], forms, false⟩ fs = ⟨[], fs.reverse ++ forms, false⟩ := by
  induction fs generalizing forms
  case nil => rfl
  case cons f fs hi =>
    have ha : addAll ⟨[], forms, false⟩ (f :: fs) = addAll ⟨[], f :: forms, false⟩ fs := rfl
    rw [ha, hi, List.reverse_cons, List.append_assoc]
    rfl

end Reader

namespace Tree

theorem values_eq_map (ts : List Tree) : values ts = ts.map value := by
  induction ts
  case nil => rfl
  case cons t ts hi => rw [values, hi, List.map_cons]

theorem list_value {ts : List Tree} (h : ts.length ≠ 3) :
    (list ts).value = .list (ts.map value) := by
  rw [value, values_eq_map, ofItems_of_length_ne_three (by rwa [List.length_map])]

theorem list_value_of_ne_dot {ts : List Tree} (h : ∀ t ∈ ts, t.value ≠ .sym ".") :
    (list ts).value = .list (ts.map value) := by
  rw [value, values_eq_map, Form.ofItems]
  intro a b he
  have hd : .sym "." ∈ ts.map value := by simp [he]
  have ⟨t, ht, hv⟩ := List.mem_map.mp hd
  exact h t ht hv

open Reader

mutual

theorem run_word (t : Tree) (r : Reader) (rest : List Token)
    (h : ∀ s, .atom s ∈ t.word → IsShort s) :
    r.run (t.word ++ rest) = (r.add t.value).run rest := by
  cases t
  case str s  => rfl
  case atom s =>
    have hs := ofAtom_of_short <| h s List.mem_cons_self
    simp [word, run, step, hs, value, Except.map]
  case quote t =>
    exact run_word t { r with quoted := true } rest fun s hs => h s <| List.mem_cons_of_mem _ hs
  case list ts =>
    have hs : ∀ s, .atom s ∈ words ts → IsShort s := fun s hs => h s (by simp [word, hs])
    have ho : r.run ((list ts).word ++ rest) =
      run ⟨[] :: r.lists, r.forms, false⟩ (words ts ++ .closing :: rest) := by
      simp [word, run, step]
    rw [ho, run_words ts _ _ hs, addAll_in_list]
    simp only [run, step, close, List.append_nil, List.reverse_reverse]
    rfl

theorem run_words (ts : List Tree) (r : Reader) (rest : List Token)
    (h : ∀ s, .atom s ∈ words ts → IsShort s) :
    r.run (words ts ++ rest) = (r.addAll (values ts)).run rest := by
  cases ts
  case nil => rfl
  case cons t ts =>
    have hh : ∀ s, .atom s ∈ t.word → IsShort s := fun s hs => h s <| List.mem_append_left _ hs
    have ht : ∀ s, .atom s ∈ words ts → IsShort s := fun s hs => h s <| List.mem_append_right _ hs
    rw [words, List.append_assoc, run_word t r _ hh, run_words ts _ rest ht]
    rfl

end

-- Tokens are the words of trees up to where a list may end, and the reader goes on there.
def Parses (r : Reader) (tokens : List Token) (fs : List Form) : Prop :=
  ∃ ts rest, tokens = words ts ++ rest ∧ Stops rest ∧ (r.addAll (values ts)).run rest = .ok fs

theorem Parses.cons (t : Tree) (h : Parses (r.add t.value) tokens fs) :
    Parses r (t.word ++ tokens) fs := by
  have ⟨ts, rest, he, hs, hr⟩ := h
  exact ⟨t :: ts, rest, by rw [he, words, List.append_assoc], hs, hr⟩

theorem not_run_of_quoted (hq : r.quoted = true) (hs : Stops rest) : r.run rest ≠ .ok fs := by
  cases rest
  case nil => simp [run, finish, hq]
  case cons token rest =>
    cases hs token rfl
    simp [run, step, close, hq]

theorem parses_quote (h : Parses { r with quoted := true } tokens fs) :
    Parses r (.quote :: tokens) fs := by
  have ⟨ts, rest, he, hs, hr⟩ := h
  cases ts
  case nil       => exact absurd hr <| not_run_of_quoted rfl hs
  case cons t ts => exact ⟨t.quote :: ts, rest, by rw [he]; rfl, hs, hr⟩

theorem list_of_run {ts : List Tree} (hs : Stops rest)
    (h : (addAll ⟨[] :: r.lists, r.forms, false⟩ (values ts)).run rest = .ok fs) :
    ∃ later, rest = .closing :: later ∧ (r.add (list ts).value).run later = .ok fs := by
  rw [addAll_in_list] at h
  cases rest
  case nil => simp [run, finish] at h
  case cons token later =>
    cases hs token rfl
    simp only [run, step, close, List.append_nil, List.reverse_reverse] at h
    exact ⟨later, rfl, h⟩

theorem parses_of_run (h : r.run tokens = .ok fs) : Parses r tokens fs := by
  -- By the number of tokens: after an opening come those of a list, and those after the list.
  induction hn : tokens.length using Nat.strongRecOn generalizing r tokens
  case ind n hi =>
    cases tokens
    case nil => exact ⟨[], [], rfl, by simp [Stops], h⟩
    case cons token tokens =>
      have hl : tokens.length < n := by simp [← hn]
      cases token
      case closing => exact ⟨[], _, rfl, by simp [Stops], h⟩
      case str s   => exact .cons (.str s) <| hi _ hl h rfl
      case quote   => exact parses_quote <| hi _ hl h rfl
      case atom s =>
        cases hs : ofAtom s
        case error => simp [run, step, hs, Except.map] at h
        case ok f =>
          refine .cons (.atom s) <| hi _ hl ?_ rfl
          simpa [run, step, hs, Except.map, value, ← eq_atomValue_of_ofAtom hs] using h
      case opening =>
        have ⟨ts, rest, he, hs, hr⟩ := hi _ hl (r := ⟨[] :: r.lists, r.forms, false⟩) h rfl
        have ⟨later, hc, hr⟩ := list_of_run hs hr
        have hll : later.length < n := by
          simp only [he, hc, List.length_append, List.length_cons] at hl
          omega
        have hw : .opening :: tokens = (list ts).word ++ later := by
          simp [word, he, hc]
        exact hw ▸ .cons (list ts) (hi _ hll hr rfl)

-- The reader accepts just the words of trees.
theorem run_eq_ok_iff (h : ∀ s, .atom s ∈ tokens → IsShort s) :
    Reader.empty.run tokens = .ok fs ↔ ∃ ts, tokens = words ts ∧ fs = values ts := by
  have hf : ∀ ts : List Tree, (Reader.empty.addAll (values ts)).run [] = .ok (values ts) := by
    intro ts
    simp [Reader.empty, addAll_outside, run, finish]
  constructor
  case mp =>
    intro hr
    have ⟨ts, rest, he, hs, hr⟩ := parses_of_run hr
    cases rest
    case nil => exact ⟨ts, by rw [he, List.append_nil], Except.ok.inj <| hr.symm.trans (hf ts)⟩
    case cons token rest =>
      cases hs token rfl
      simp [Reader.empty, addAll_outside, run, step, close] at hr
  case mpr =>
    intro ⟨ts, ht, hv⟩
    subst ht
    have hr := run_words ts .empty [] h
    rw [List.append_nil] at hr
    rw [hr, hf, hv]

theorem isShort_of_run (h : r.run tokens = .ok fs) (hs : .atom s ∈ tokens) : IsShort s := by
  induction tokens generalizing r
  case nil => contradiction
  case cons token tokens hi =>
    simp only [run] at h
    split at h
    case h_2 => contradiction
    case h_1 r' hr =>
      cases List.mem_cons.mp hs
      case inr hs => exact hi h hs
      case inl he =>
        subst he
        simp only [step] at hr
        cases ha : ofAtom s
        case ok      => exact isShort_of_ofAtom ha
        case error e => exact nomatch ha ▸ hr

theorem run_error {e : ReadError} (h : ∀ s, .atom s ∈ tokens → IsShort s)
    (hr : r.run tokens = .error e) : e ≠ .integerTooLong := by
  induction tokens generalizing r
  case nil =>
    simp only [run, finish] at hr
    grind
  case cons token tokens hi =>
    simp only [run] at hr
    split at hr
    case h_1 => exact hi (fun s hs => h s <| List.mem_cons_of_mem _ hs) hr
    case h_2 he =>
      cases token
      case atom s =>
        have hs := ofAtom_of_short <| h s List.mem_cons_self
        simp [step, hs, Except.map] at he
      case closing =>
        simp only [step, close] at he
        grind
      all_goals simp [step] at he

theorem head_word (t : Tree) : ∃ token tokens, t.word = token :: tokens ∧ token ≠ .closing := by
  cases t
  all_goals exact ⟨_, _, rfl, nofun⟩

theorem not_stops_words (t : Tree) (ts : List Tree) : ¬Stops (words (t :: ts) ++ rest) := by
  have ⟨token, tokens, he, hn⟩ := t.head_word
  intro h
  exact hn <| h token (by simp [words, he])

mutual

theorem word_unique (t t' : Tree) (rest rest' : List Token)
    (h : t.word ++ rest = t'.word ++ rest') : t = t' ∧ rest = rest' := by
  cases t <;> cases t'
  all_goals simp only [word, List.cons_append, List.nil_append, List.append_assoc] at h
  case quote.quote t t' =>
    have ⟨ht, hr⟩ := word_unique t t' rest rest' (List.cons.inj h).right
    exact ⟨ht ▸ rfl, hr⟩
  case list.list ts ts' =>
    have ⟨ht, hr⟩ := words_unique ts ts' (.closing :: rest) (.closing :: rest') (by simp [Stops])
      (by simp [Stops]) (List.cons.inj h).right
    exact ⟨ht ▸ rfl, (List.cons.inj hr).right⟩
  all_goals simp_all

theorem words_unique (ts ts' : List Tree) (rest rest' : List Token) (hr : Stops rest)
    (hr' : Stops rest') (h : words ts ++ rest = words ts' ++ rest') : ts = ts' ∧ rest = rest' := by
  cases ts
  case nil =>
    cases ts'
    case nil => exact ⟨rfl, h⟩
    case cons t' ts' =>
      have he : rest = words (t' :: ts') ++ rest' := h
      exact absurd (he ▸ hr) (not_stops_words t' ts')
  case cons t ts =>
    cases ts'
    case nil =>
      have he : words (t :: ts) ++ rest = rest' := h
      exact absurd (he ▸ hr') (not_stops_words t ts)
    case cons t' ts' =>
      rw [words, words, List.append_assoc, List.append_assoc] at h
      have ⟨ht, hs⟩ := word_unique t t' _ _ h
      have ⟨hts, he⟩ := words_unique ts ts' rest rest' hr hr' hs
      exact ⟨ht ▸ hts ▸ rfl, he⟩

end

end Tree

end SourceFlags.SExpr
