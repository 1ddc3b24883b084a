import SourceFlags.Automake.Bindings

namespace SourceFlags.Automake

open Text

-- How a line may be written. Any single blank in it may be a break, with any blanks around.
inductive IsWriting : (line written : Chars) → Prop
  | whole (line : Chars) : IsWriting line line
  | broken (start before after : Chars) {line written : Chars} {c d : Char}
      (hc : isSpaceOrTab c = false) (hd : isSpaceOrTab d = false)
      (hb : before.all isSpaceOrTab = true) (ha : after.all isSpaceOrTab = true)
      (h : IsWriting (d :: line) written) :
      IsWriting (start ++ c :: ' ' :: d :: line)
        (start ++ c :: before ++ '\\' :: '\n' :: after ++ written)

variable {line written cs rest : Chars} {c d : Char}

theorem joinFrom_cons (h : c = '\\' → cs.head? ≠ some '\n') (held : Chars) (skipping : Bool) :
    joinFrom held skipping (c :: cs) =
      if isSpaceOrTab c then
        if skipping then joinFrom [] true cs else joinFrom (c :: held) false cs
      else held.reverse ++ c :: joinFrom [] false cs := by
  rw [joinFrom.eq_3]
  case x_3 =>
    rintro ds hc rfl
    exact h hc rfl

-- A break takes the blanks before it away, so nothing may follow that could begin a break.
theorem joinFrom_append (hn : '\n' ∉ cs) (he : cs.getLast? = some '\\' → rest.head? ≠ some '\n')
    (hr : ∀ c ∈ rest.head?, isSpaceOrTab c = false ∧ c ≠ '\\') (held : Chars) :
    joinFrom held false (cs ++ rest) = held.reverse ++ cs ++ joinFrom [] false rest := by
  induction cs generalizing held
  case nil =>
    cases rest
    case nil => simp [joinFrom]
    case cons c rest =>
      have ⟨hc, hb⟩ := hr c rfl
      simp [joinFrom_cons (absurd · hb), hc]
  case cons c cs hi =>
    have ⟨hc, hcs⟩ := List.ne_and_not_mem_of_not_mem_cons hn
    have hl : cs.getLast? = some '\\' → rest.head? ≠ some '\n' :=
      fun h => he (by rw [List.getLast?_cons, h, Option.getD_some])
    have hh : c = '\\' → (cs ++ rest).head? ≠ some '\n' := by
      intro hb
      cases cs
      case nil       => exact he (hb ▸ rfl)
      case cons d cs => simpa using (List.ne_of_not_mem_cons hcs).symm
    rw [List.cons_append, joinFrom_cons hh]
    split
    case isTrue  => simp [hi hcs hl]
    case isFalse => simp [hi hcs hl]

theorem joinFrom_break (h : ∀ b ∈ cs, isSpaceOrTab b = true) (held rest : Chars) :
    joinFrom held false (cs ++ '\\' :: '\n' :: rest) = ' ' :: joinFrom [] true rest := by
  induction cs generalizing held
  case nil => rw [List.nil_append, joinFrom]
  case cons c cs hi =>
    have ⟨hc, hcs⟩ := List.forall_mem_cons.mp h
    have hb : c ≠ '\\' := fun he => absurd (he ▸ hc) (by decide)
    rw [List.cons_append, joinFrom_cons (absurd · hb), if_pos hc]
    exact hi hcs _

theorem joinFrom_skip (h : ∀ b ∈ cs, isSpaceOrTab b = true) (hd : isSpaceOrTab d = false)
    (rest : Chars) : joinFrom [] true (cs ++ d :: rest) = joinFrom [] false (d :: rest) := by
  induction cs
  case nil =>
    by_cases hb : d = '\\' → rest.head? ≠ some '\n'
    case pos => simp [joinFrom_cons hb, hd]
    case neg =>
      obtain ⟨rfl, hh⟩ := Classical.not_imp.mp hb
      have ⟨ds, he⟩ := List.head?_eq_some_iff.mp (Classical.not_not.mp hh)
      simp [he, joinFrom]
  case cons c cs hi =>
    have ⟨hc, hcs⟩ := List.forall_mem_cons.mp h
    have hb : c ≠ '\\' := fun he => absurd (he ▸ hc) (by decide)
    rw [List.cons_append, joinFrom_cons (absurd · hb), if_pos hc]
    exact hi hcs

theorem IsWriting.head? (h : IsWriting line written) : written.head? = line.head? := by
  cases h
  case whole  => rfl
  case broken => simp

theorem IsWriting.joined (h : IsWriting line written) (hp : ∀ c ∈ line, c ≠ '\\' ∧ c ≠ '\n')
    (hr : ∀ c ∈ rest.head?, c = '\n') :
    joinContinued (written ++ rest) = line ++ joinContinued rest := by
  have hl : ∀ {cs : Chars}, (∀ c ∈ cs, c ≠ '\\' ∧ c ≠ '\n') →
      '\n' ∉ cs ∧ cs.getLast? ≠ some '\\' := fun h =>
    ⟨fun hm => (h _ hm).right rfl, fun hm => (h _ (List.mem_of_getLast? hm)).left rfl⟩
  induction h
  case whole line =>
    have ⟨hn, he⟩ := hl hp
    exact joinFrom_append hn (absurd · he) (fun c hc => hr c hc ▸ by decide) []
  case broken start before after line written c d hc hd hb ha hw hi =>
    obtain ⟨hs, hcl, -, hdl⟩ : (∀ x ∈ start, x ≠ '\\' ∧ x ≠ '\n') ∧ (c ≠ '\\' ∧ c ≠ '\n') ∧
        (' ' ≠ '\\' ∧ ' ' ≠ '\n') ∧ ∀ x ∈ d :: line, x ≠ '\\' ∧ x ≠ '\n' := by
      simpa only [List.forall_mem_append, List.forall_mem_cons] using hp
    have ⟨hn, he⟩ := hl hs
    have hw' : ∃ ds, written = d :: ds := List.head?_eq_some_iff.mp hw.head?
    have ⟨ds, hds⟩ := hw'
    let following := after ++ (written ++ rest)
    -- Blanks are held back up to the break, which puts one blank in the place of all.
    calc
      joinContinued (start ++ c :: before ++ '\\' :: '\n' :: after ++ written ++ rest)
      _ = joinFrom [] false (start ++ c :: (before ++ '\\' :: '\n' :: following)) := by
        simp [joinContinued, following]
      _ = start ++ c :: joinFrom [] false (before ++ '\\' :: '\n' :: following) := by
        rw [joinFrom_append hn (absurd · he) (by simp [hc, hcl]), joinFrom_cons (absurd · hcl.left)]
        simp [hc]
      _ = start ++ c :: ' ' :: joinFrom [] true following := by
        rw [joinFrom_break (List.all_eq_true.mp hb)]
      _ = start ++ c :: ' ' :: joinContinued (written ++ rest) := by
        have hskip := joinFrom_skip (List.all_eq_true.mp ha) hd
        simp only [following, hds, List.cons_append, hskip, joinContinued]
      _ = start ++ c :: ' ' :: d :: line ++ joinContinued rest := by
        rw [hi hdl]
        simp

end SourceFlags.Automake
