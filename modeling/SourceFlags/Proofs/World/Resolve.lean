import SourceFlags.Proofs.Path.Normal
import SourceFlags.Proofs.World.Places

namespace SourceFlags

open Text SourceFlags.Path

namespace FileTree

inductive IsPlain (t : FileTree) : Trail → Prop
  | nil : IsPlain t []
  | cons {trail : Trail} {part : Part} (h : IsPlain t trail) (hp : IsPart part) (hu : part ≠ up)
    (hl : ∀ goal, (t.atEnd trail).child? part ≠ some (.link goal)) :
    IsPlain t ((part, ((t.atEnd trail).child? part).getD empty) :: trail)

variable {t : FileTree} {depth : Nat} {known known' : Known} {trail trail' : Trail} {part : Part}
variable {parts rest : List Part}

theorem resolve?_skip (hn : names part = false) :
    t.resolve? depth known trail (part :: rest) = t.resolve? depth known trail rest := by
  rw [resolve?]
  simp [hn]

theorem resolve?_name (hn : names part = true) (hu : part ≠ up)
    (hl : ∀ goal, (t.atEnd trail).child? part ≠ some (.link goal)) :
    t.resolve? depth known trail (part :: rest) =
      t.resolve? depth known ((part, ((t.atEnd trail).child? part).getD empty) :: trail) rest := by
  rw [resolve?]
  simp only [hn, hu, Bool.not_true, Bool.false_eq_true, if_false]

theorem IsPlain.tail (h : t.IsPlain trail) : t.IsPlain trail.tail := by
  cases h
  case nil         => exact .nil
  case cons h _ _ _ => exact h

theorem IsPlain.goalStart (h : t.IsPlain trail) (goal : String) :
    t.IsPlain (goalStart trail goal) := by
  unfold FileTree.goalStart
  split
  case isTrue  => exact .nil
  case isFalse => exact h

theorem no_slash_of_goal {goal : String} (h : part ∈ goalParts goal) : '/' ∉ part :=
  not_mem_of_mem_splitOn h

theorem resolve?_isPlain (h : t.resolve? depth known trail parts = some (trail', known'))
    (hs : ∀ part ∈ parts, '/' ∉ part) (ht : t.IsPlain trail) (hk : ∀ k ∈ known, t.IsPlain k.2) :
    t.IsPlain trail' ∧ ∀ k ∈ known', t.IsPlain k.2 := by
  -- What is known of links has to be plain too: a link that is met again is replaced by it.
  induction depth, known, trail, parts using resolve?.induct t generalizing trail' known'
  case case1 =>
    rw [resolve?] at h
    cases h
    exact ⟨ht, hk⟩
  all_goals
    have ⟨hp, hr⟩ := List.forall_mem_cons.mp hs
    rw [resolve?] at h
  case case2 hn hi => exact hi (by simpa [hn] using h) hr ht hk
  case case3 hn hi => exact hi (by simpa [hn] using h) hr ht.tail hk
  case case4 hn hu goal hc place goalTrail hl hi =>
    have ⟨_, _, hm, _⟩ := List.lookup_eq_some_iff.mp hl
    have ht' : t.IsPlain goalTrail := hk (place, goalTrail) (by simp [hm])
    exact hi (by simpa [hn, hu, hc, place, hl] using h) hr ht' hk
  case case5 hn hu goal hc place hl => simp [hn, hu, hc, place, hl] at h
  case case6 hn hu goal hc place hl links goalTrail goalKnown hg hi hj =>
    have ⟨ht', hk'⟩ := hi hg (fun _ => no_slash_of_goal) (ht.goalStart goal) hk
    refine hj (by simpa [hn, hu, hc, place, hl, hg] using h) hr ht' ?_
    exact List.forall_mem_cons.mpr ⟨ht', hk'⟩
  case case7 hn hu goal hc place hl links hg hi => simp [hn, hu, hc, place, hl, hg] at h
  case case8 part rest hn hu hl hi =>
    have hn : names part = true := by simpa using hn
    exact hi (by simpa [hn, hu] using h) hr (ht.cons ⟨hn, hp⟩ hu hl) hk

theorem resolve?_filter (t : FileTree) (depth : Nat) (known : Known) (trail : Trail)
    (parts : List Part) :
    t.resolve? depth known trail (parts.filter names) = t.resolve? depth known trail parts := by
  induction parts generalizing depth known trail
  case nil => rfl
  case cons part rest hi =>
    cases hn : names part
    case false => rw [List.filter_cons_of_neg (by simp [hn]), hi, resolve?_skip hn]
    case true  =>
      rw [List.filter_cons_of_pos hn, resolve?, resolve?]
      simp only [hi]

theorem placeOf_cons (part : Part) (u : FileTree) (trail : Trail) :
    placeOf ((part, u) :: trail) = placeOf trail ++ [part] := by
  simp [placeOf]

theorem IsPlain.resolve?_append (h : t.IsPlain trail) (depth : Nat) (known : Known)
    (rest : List Part) :
    t.resolve? depth known [] (placeOf trail ++ rest) = t.resolve? depth known trail rest := by
  induction h generalizing rest
  case nil => rfl
  case cons trail part h hp hu hl hi =>
    rw [placeOf_cons, List.append_assoc, List.singleton_append, hi, resolve?_name hp.names hu hl]

theorem IsPlain.isPart (h : t.IsPlain trail) : ∀ part ∈ placeOf trail, IsPart part := by
  induction h
  case nil => exact fun _ hp => nomatch hp
  case cons hp _ _ hi =>
    rw [placeOf_cons]
    exact List.forall_mem_append.mpr ⟨hi, by simpa using hp⟩

theorem resolve_isPart (hs : ∀ part ∈ parts, '/' ∉ part) :
    ∀ part ∈ t.resolve parts, IsPart part := by
  unfold resolve
  split
  case h_1 trail _ h => exact (resolve?_isPlain h hs .nil (by simp)).left.isPart
  case h_2 =>
    intro part hp
    obtain ⟨hm, hn⟩ := List.mem_filter.mp hp
    exact ⟨hn, hs part hm⟩

theorem resolve_resolve (hs : ∀ part ∈ parts, '/' ∉ part) :
    t.resolve (t.resolve parts) = t.resolve parts := by
  cases h : t.resolve? t.countLinks [] [] parts
  case none =>
    have hf : t.resolve? t.countLinks [] [] (parts.filter names) = none :=
      (resolve?_filter ..).trans h
    simp [resolve, h, hf]
  case some found =>
    obtain ⟨trail, known⟩ := found
    have ht := (resolve?_isPlain h hs .nil (by simp)).left
    have hr := ht.resolve?_append t.countLinks [] []
    rw [List.append_nil, resolve?] at hr
    simp only [resolve, h, hr]

theorem resolve_filter (t : FileTree) (parts : List Part) :
    t.resolve (parts.filter names) = t.resolve parts := by
  simp only [resolve, resolve?_filter, List.filter_filter, Bool.and_self]

-- Below a directory without links a place is where it seems to be, also where nothing is.
theorem resolve?_leadsDown {place : Place} (depth : Nat) (known : Known) (trail : Trail)
    (hp : leadsDown place = true) (hl : (t.atEnd trail).countLinks = 0) :
    ∃ trail', t.resolve? depth known trail place = some (trail', known) ∧
      placeOf trail' = placeOf trail ++ place := by
  induction place generalizing trail
  case nil =>
    rw [resolve?]
    exact ⟨trail, rfl, (List.append_nil _).symm⟩
  case cons part place hi =>
    obtain ⟨⟨hn, hu⟩, hp⟩ : (names part = true ∧ part ≠ up) ∧ leadsDown place = true := by
      simpa [leadsDown] using hp
    have hc : ∀ u, (t.atEnd trail).child? part = some u → u.countLinks = 0 :=
      fun _ h => countLinks_of_child? h hl
    have hg : ∀ goal, (t.atEnd trail).child? part ≠ some (.link goal) :=
      fun _ h => Nat.one_ne_zero (hc _ h)
    have he : (((t.atEnd trail).child? part).getD empty).countLinks = 0 := by
      cases h : (t.atEnd trail).child? part
      case none   => rfl
      case some u => exact hc u h
    have ⟨trail', hr, ht⟩ := hi ((part, _) :: trail) hp he
    refine ⟨trail', (resolve?_name hn hu hg).trans hr, ?_⟩
    rw [ht, placeOf_cons, List.append_assoc, List.singleton_append]

theorem resolve_leadsDown {place : Place} (hp : leadsDown place = true) (hl : t.countLinks = 0) :
    t.resolve ([] :: place) = place := by
  have ⟨trail, hr, ht⟩ := resolve?_leadsDown (t := t) t.countLinks [] [] hp hl
  rw [resolve, resolve?_skip rfl, hr]
  exact ht

end FileTree

namespace World

variable {w : World}

theorem no_slash_of_partsOf {path : String} {part : Part} (h : part ∈ w.partsOf path) :
    '/' ∉ part := by
  unfold partsOf at h
  extract_lets parts at h
  split at h
  case isTrue  => exact not_mem_of_mem_splitOn h
  case isFalse =>
    cases List.mem_append.mp h
    case inl h => exact ((ofChars_clean _).parts part h).no_slash
    case inr h => exact not_mem_of_mem_splitOn h

theorem resolve_clean (w : World) (path : String) : (w.resolve path).Clean where
  lead_le := Nat.le_succ 1
  parts   := FileTree.resolve_isPart fun _ => no_slash_of_partsOf

theorem filter_names_partsOf {p : Path} (h : p.Clean) (hl : p.lead ≠ 0) :
    (w.partsOf p.text).filter names = p.parts := by
  rw [partsOf, if_pos (h.isAbsolute_text hl)]
  exact congrArg Path.parts (ofText_text h)

theorem resolve_resolve (w : World) (path : String) :
    w.resolve (w.resolve path).text = w.resolve path := by
  have hp := w.filter_names_partsOf (w.resolve_clean path) Nat.one_ne_zero
  have hr : w.files.resolve (w.partsOf (w.resolve path).text) = (w.resolve path).parts := by
    rw [← FileTree.resolve_filter, hp]
    exact FileTree.resolve_resolve fun _ => no_slash_of_partsOf
  exact Path.ext rfl hr

theorem eq_of_resolved {path : String} {p : Path} (h : w.resolved path = .ok p) :
    p = w.resolve path := by
  unfold resolved about at h
  split at h
  case isFalse => cases h
  case isTrue  =>
    split at h
    case h_1 => cases h
    case h_2 => exact (Except.ok.inj h).symm

theorem resolve_top (w : World) : w.resolve "/" = ⟨1, []⟩ := by
  have hp : w.partsOf "/" = [[], []] := rfl
  rw [resolve, hp, FileTree.resolve, FileTree.resolve?_skip rfl, FileTree.resolve?_skip rfl,
    FileTree.resolve?]
  rfl

theorem resolved_top (w : World) : w.resolved "/" = .ok ⟨1, []⟩ := by
  have ht : (⟨1, []⟩ : Path).text = "/" := rfl
  rw [resolved, about_of_reaches (by simp [reaches, isAbsolute]), resolve_top, ht, locate_top]

theorem resolve_eq {path : String} {place : Place} (he : w.partsOf path = [] :: place)
    (hp : FileTree.leadsDown place = true) (hl : w.files.countLinks = 0) :
    w.resolve path = ⟨1, place⟩ := by
  rw [resolve, he, FileTree.resolve_leadsDown hp hl]

end World
end SourceFlags
