import Mathlib.Data.List.DropRight
import Mathlib.Data.List.Infix
import SourceFlags.Proofs.Text.Split

namespace SourceFlags.Text

variable {c : Char} {cs ds : Chars} {ls : List Chars}

theorem trimEnd_append_cons (h : isBlank c = false) (cs ds : Chars) :
    trimEnd (cs ++ c :: ds) = cs ++ c :: trimEnd ds := by
  simp only [trimEnd, List.reverse_append, List.reverse_cons, List.append_assoc,
    List.singleton_append, List.dropWhile_append, List.dropWhile_cons, h]
  split
  case isTrue he  => simp [List.isEmpty_iff.mp he]
  case isFalse he => simp

theorem trimEnd_append_of_blank (h : ∀ d ∈ ds, isBlank d = true) (cs : Chars) :
    trimEnd (cs ++ ds) = trimEnd cs := by
  simp only [trimEnd, List.reverse_append]
  rw [List.dropWhile_append_of_pos (by simpa using h)]

theorem trim_cons_of_blank (h : isBlank c = true) (cs : Chars) : trim (c :: cs) = trim cs := by
  simp [trim, trimStart, h]

theorem trim_append_of_blank (h : ∀ d ∈ ds, isBlank d = true) (cs : Chars) :
    trim (cs ++ ds) = trim cs := by
  simp only [trim, trimStart, List.dropWhile_append]
  split
  case isTrue he  => rw [List.isEmpty_iff.mp he, List.dropWhile_eq_nil_iff.mpr h]
  case isFalse he => exact trimEnd_append_of_blank h _

theorem trim_trimEnd (cs : Chars) : trim (trimEnd cs) = trim cs := by
  have he : trim (cs.rdropWhile isBlank ++ cs.rtakeWhile isBlank) = trim (trimEnd cs) :=
    trim_append_of_blank (fun d hd => List.mem_rtakeWhile_imp hd) _
  rw [← he, List.rdropWhile_append_rtakeWhile]

theorem trimEnd_of_getLast (h : cs.getLast?.all (!isBlank ·) = true) : trimEnd cs = cs := by
  refine List.rdropWhile_eq_self_iff.mpr fun hn => ?_
  rw [List.getLast?_eq_some_getLast hn] at h
  simpa using h

theorem trimStart_of_trim (h : trim cs = cs) : trimStart cs = cs := by
  refine (List.dropWhile_suffix isBlank).eq_of_length_le ?_
  calc
    cs.length = (trim cs).length      := by rw [h]
    _         ≤ (trimStart cs).length := (List.rdropWhile_prefix isBlank _).length_le

theorem trimEnd_of_trim (h : trim cs = cs) : trimEnd cs = cs := by
  rw [trim, trimStart_of_trim h] at h
  exact h

theorem trimStart_append (h : trim cs = cs) (hn : cs ≠ []) (ds : Chars) :
    trimStart (cs ++ ds) = cs ++ ds := by
  have hs := trimStart_of_trim h
  simp only [trimStart] at hs ⊢
  rw [List.dropWhile_append, hs, if_neg (by simpa using hn)]

theorem trimEnd_append (h : trim ds = ds) (hn : ds ≠ []) (cs : Chars) :
    trimEnd (cs ++ ds) = cs ++ ds := by
  have ⟨init, c, hc⟩ := (List.eq_nil_or_concat ds).resolve_left hn
  have hl := List.rdropWhile_eq_self_iff.mp (trimEnd_of_trim h) hn
  simp only [hc, List.concat_eq_append, List.getLast_concat, Bool.not_eq_true] at hl
  rw [hc, List.concat_eq_append, ← List.append_assoc, trimEnd_append_cons hl]
  rfl

theorem trim_append (hc : trim cs = cs) (hd : trim ds = ds) (hcn : cs ≠ []) (hdn : ds ≠ [])
    (ms : Chars) : trim (cs ++ ms ++ ds) = cs ++ ms ++ ds := by
  rw [trim, List.append_assoc, trimStart_append hc hcn, ← List.append_assoc, trimEnd_append hd hdn]

theorem trim_join (sep : Chars) (h : ∀ l ∈ ls, trim l = l) (hn : ∀ l ∈ ls, l ≠ []) :
    trim (join sep ls) = join sep ls := by
  induction ls
  case nil => rfl
  case cons l ls hi =>
    have ⟨hl, hls⟩ := List.forall_mem_cons.mp h
    have ⟨hln, hlsn⟩ := List.forall_mem_cons.mp hn
    by_cases he : ls = []
    case pos => simpa [he, join] using hl
    case neg => rw [join_cons sep l he, trim_append hl (hi hls hlsn) hln (join_ne_nil sep hlsn he)]

theorem trim_join_concat (h : ∀ l ∈ ls, trim l = l) (hn : ∀ l ∈ ls, l ≠ []) (hc : trim cs = cs) :
    trim (join [' '] ls ++ ' ' :: cs) = join [' '] (ls ++ [cs].filter (!·.isEmpty)) := by
  have hb : isBlank ' ' = true := by decide
  by_cases he : cs = []
  case pos =>
    have hs : ∀ d ∈ [' '], isBlank d = true := by simpa using hb
    simp [he, trim_append_of_blank hs, trim_join [' '] h hn]
  case neg =>
    have hf : [cs].filter (!·.isEmpty) = [cs] := by simp [he]
    rw [hf]
    by_cases hl : ls = []
    case pos => rw [hl, join, List.nil_append, trim_cons_of_blank hb, hc]; rfl
    case neg =>
      rw [join_append [' '] hl (List.cons_ne_nil cs []), List.append_cons]
      exact trim_append (trim_join [' '] h hn) hc (join_ne_nil [' '] hn hl) he [' ']

end SourceFlags.Text
