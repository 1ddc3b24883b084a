import SourceFlags.Proofs.Text.Split
import SourceFlags.Proofs.Text.Word

namespace SourceFlags.Text

variable {c : Char} {cs : Chars}

theorem words_append_of_blank (h : isBlank c = true) (cs ds : Chars) :
    words (cs ++ c :: ds) = words cs ++ words ds := by
  rw [words, splitWhere_append_of_pos h, List.filter_append]
  rfl

theorem words_of_unblank (h : ∀ c ∈ cs, isBlank c = false) (hn : cs ≠ []) : words cs = [cs] := by
  rw [words, splitWhere_of_neg h]
  simp [hn]

theorem words_append_of_blanks (h : ∀ c ∈ cs, isBlank c = true) (ds : Chars) :
    words (cs ++ ds) = words ds := by
  induction cs
  case nil => rfl
  case cons c cs hi =>
    have ⟨hc, hcs⟩ := List.forall_mem_cons.mp h
    exact (words_append_of_blank hc [] (cs ++ ds)).trans (hi hcs)

theorem words_append_of_unblank (h : ∀ c ∈ cs, isBlank c = false) (hn : cs ≠ []) (ds : Chars) :
    words (cs ++ ds) =
      (cs ++ ds.takeWhile (!isBlank ·)) :: words (ds.dropWhile (!isBlank ·)) := by
  have hw : ∀ c ∈ cs ++ ds.takeWhile (!isBlank ·), isBlank c = false :=
    List.forall_mem_append.mpr ⟨h, fun c hc => by simpa using List.mem_takeWhile_imp hc⟩
  have hf := words_of_unblank hw (List.append_ne_nil_of_left_ne_nil hn _)
  have hd := List.takeWhile_append_dropWhile (p := (!isBlank ·)) (l := ds)
  cases hr : ds.dropWhile (!isBlank ·)
  case nil =>
    rw [hr, List.append_nil] at hd
    rw [hd] at hf ⊢
    exact hf
  case cons b rest =>
    have hb : ∀ c ∈ [b], isBlank c = true := by
      have := all_head?_dropWhile (!isBlank ·) ds
      rw [hr] at this
      simpa using this
    have he : cs ++ ds = cs ++ ds.takeWhile (!isBlank ·) ++ b :: rest := by
      rw [List.append_assoc, ← hr, hd]
    have hw := words_append_of_blanks hb rest
    rw [List.singleton_append] at hw
    rw [he, words_append_of_blank (hb b List.mem_cons_self), hf, hw, List.singleton_append]

theorem words_join (ls : List Chars) : words (join [' '] ls) = ls.flatMap words := by
  induction ls
  case nil => rfl
  case cons l ls hi =>
    by_cases hn : ls = []
    case pos => simp [hn, join]
    case neg =>
      rw [join_cons _ l hn, List.append_assoc, List.singleton_append,
        words_append_of_blank (by decide), hi, List.flatMap_cons]

end SourceFlags.Text
