import SourceFlags.Proofs.Registry.Consulted
import SourceFlags.Proofs.Registry.Roots

namespace SourceFlags.ProjectType

open SourceFlags.Path Registry

structure Climbs (w : World) (t : ProjectType) : Prop where
  marker  : t.marker ≠ none
  inner   : t.rootOnly = false
  finder  : ∀ find, t.rootFinder = some find → ∀ directory, isAbsolute directory = true →
    find w directory = .ok none ∨ find w directory = .ok (some "")
  answers : t.Answers w

-- The type is found in each directory from the parent of the path up to the root, and not in the
-- parent of the root. What is in the path itself does not matter.
structure IsUppermost (w : World) (t : ProjectType) (p root : Path) : Prop where
  leadsTo : root.LeadsTo p
  found   : ∀ a : Path, a.IsAbove p → root.LeadsTo a → t.IsFound w a.text
  limit   : root.parts = [] ∨ ¬t.IsFound w root.parent.text

variable {w : World} {t : ProjectType} {p r s : Path} {directory : String}

namespace IsUppermost

theorem of_parent (hp : p.parts ≠ []) (hf : t.IsFound w p.parent.text)
    (h : t.IsUppermost w p.parent r) : t.IsUppermost w p r where
  leadsTo := h.leadsTo.trans (parent_leadsTo p)
  limit   := h.limit
  found   := by
    intro a ha hr
    cases ((isAbove_iff hp).mp ha).eq_or_isAbove
    case inl he => exact he ▸ hf
    case inr hu => exact h.found a hu hr

theorem of_limit (h : p.parts = [] ∨ ¬t.IsFound w p.parent.text) : t.IsUppermost w p p where
  leadsTo := .refl p
  limit   := h
  found   := fun _ ha hp => absurd rfl (hp.isAbove ha).ne

theorem not_above (hr : t.IsUppermost w p r) (hs : t.IsUppermost w p s) : ¬r.IsAbove s := by
  intro h
  have hn := h.parts_ne_nil
  have hu : s.parent.IsAbove p := (parent_isAbove hn).trans_leadsTo hs.leadsTo
  exact hs.limit.elim hn <| absurd <| hr.found s.parent hu ((isAbove_iff hn).mp h)

theorem unique (hr : t.IsUppermost w p r) (hs : t.IsUppermost w p s) : r = s := by
  have hl : r.lead = s.lead := hr.leadsTo.left.trans hs.leadsTo.left.symm
  cases List.prefix_or_prefix_of_prefix hr.leadsTo.right hs.leadsTo.right
  case inl h => exact (LeadsTo.eq_or_isAbove ⟨hl, h⟩).resolve_right (hr.not_above hs)
  case inr h => exact ((LeadsTo.eq_or_isAbove ⟨hl.symm, h⟩).resolve_right (hs.not_above hr)).symm

theorem isFound (h : t.IsUppermost w p r) (hp : t.IsFound w p.text) : t.IsFound w r.text := by
  cases h.leadsTo.eq_or_isAbove
  case inl he => exact he ▸ hp
  case inr ha => exact h.found r ha (.refl r)

end IsUppermost

theorem rise_isUppermost {p : Path} (ha : t.Answers w) (hp : p.Settled) :
    ∃ r, t.rise w p.text (p.ancestors.map Path.text) = .ok r.text ∧ t.IsUppermost w p r := by
  by_cases hn : p.parts = []
  case pos => exact ⟨p, by simp [ancestors, hn, beginnings, rise], .of_limit (.inl hn)⟩
  case neg =>
    have hs : p.parent.Settled := (parent_leadsTo p).settled hp
    obtain ⟨found, hf⟩ := ha p.parent.text (World.reaches_text hs)
    rw [ancestors_eq_cons hn, List.map_cons, rise, hf]
    cases found
    case false => exact ⟨p, rfl, .of_limit <| .inr <| by simp [IsFound, hf]⟩
    case true  =>
      obtain ⟨r, hr, hu⟩ := rise_isUppermost ha hs
      exact ⟨r, hr, hu.of_parent hn hf⟩
termination_by p.parts.length
decreasing_by exact (parent_isAbove hn).length_lt

namespace Climbs

theorem rootOf_eq_rise (h : t.Climbs w) (hp : p.Settled) :
    t.rootOf w p.text = t.rise w p.text (p.ancestors.map Path.text) := by
  have ha : w.absolute p.text = p := hp.absolute_text w.cwd
  have hm : t.markedRoot w p.text = t.rise w p.text (p.ancestors.map Path.text) := by
    simp [markedRoot, above, h.inner, h.marker, ha]
  rw [rootOf, World.about_of_reaches (World.reaches_text hp), World.absoluteText_text hp, ← hm]
  cases hf : t.rootFinder
  case none      => rfl
  case some find => cases h.finder find hf p.text hp.isAbsolute_text <;> simp [*]

theorem rootOf_isUppermost (h : t.Climbs w) (hp : p.Settled) :
    ∃ r, t.rootOf w p.text = .ok r.text ∧ t.IsUppermost w p r := by
  rw [h.rootOf_eq_rise hp]
  exact rise_isUppermost h.answers hp

theorem rootOf_root (h : t.Climbs w) (hp : p.Settled) (hr : t.IsUppermost w p r) :
    t.rootOf w r.text = .ok r.text := by
  have ⟨s, hs, hu⟩ := h.rootOf_isUppermost (hr.leadsTo.settled hp)
  rw [hs, hu.unique (.of_limit hr.limit)]

end Climbs

theorem rootOf_uppermost (hw : isAbsolute w.cwd = true) (hd : w.reaches directory = true)
    (h : t.Climbs w) :
    ∃ r : Path, t.rootOf w directory = .ok r.text ∧
      (∀ s, t.IsUppermost w (w.absolute directory) s ↔ s = r) ∧
      (t.IsFound w directory → t.IsFound w r.text) ∧
      t.rootOf w r.text = .ok r.text ∧ (t.consulted w).rootOf w r.text = .ok r.text := by
  have hp : (w.absolute directory).Settled := absolute_settled hw directory
  have ⟨r, hr, hu⟩ := h.rootOf_isUppermost hp
  have hroot := h.rootOf_root hp hu
  refine ⟨r, ?root, fun s => ⟨fun hs => hs.unique hu, fun hs => hs ▸ hu⟩, fun hf => ?found, hroot,
    ?consulted⟩
  case root      => rw [← hr, ← rootOf_absoluteText hw hd]; rfl
  case consulted => rw [consulted_rootOf, hroot]
  case found =>
    rw [IsFound, ← detects_absoluteText hw hd] at hf
    exact hu.isFound hf

def nestedRepositories : World :=
  { World.bare with
    files := .directory .full
      [(['o'], .directory .full
        [(['G'], .directory .full []),
         (['i'], .directory .full [(['G'], .directory .full []), (['d'], .directory .full [])])])] }

def innerRepository : ProjectType :=
  marked "git" "G" false (Recipe.nothing.load [])

theorem rootOf_in_nestedRepositories :
    isAbsolute nestedRepositories.cwd = true ∧ nestedRepositories.reaches "/o/i/d" = true ∧
    innerRepository.Climbs nestedRepositories ∧
    innerRepository.detects nestedRepositories "/o/i/d" = .ok false ∧
    innerRepository.rootOf nestedRepositories "/o/i/d" = .ok "/o" := by
  have hw : isAbsolute nestedRepositories.cwd = true := by decide
  have hd : nestedRepositories.reaches "/o/i/d" = true := by decide
  have hc : innerRepository.Climbs nestedRepositories :=
    ⟨nofun, rfl, nofun, answers_of_file rfl rfl⟩
  have top : innerRepository.detects nestedRepositories "/" = .ok false :=
    detects_of_place [['G']] rfl rfl rfl rfl rfl rfl (by decide) (by decide)
      (by decide)
  have outer : innerRepository.detects nestedRepositories "/o" = .ok true :=
    detects_of_place [['o'], ['G']] rfl rfl rfl rfl rfl rfl (by decide) (by decide)
      (by decide)
  have inner : innerRepository.detects nestedRepositories "/o/i" = .ok true :=
    detects_of_place [['o'], ['i'], ['G']] rfl rfl rfl rfl rfl rfl (by decide) (by decide)
      (by decide)
  have below : innerRepository.detects nestedRepositories "/o/i/d" = .ok false :=
    detects_of_place [['o'], ['i'], ['d'], ['G']] rfl rfl rfl rfl rfl rfl (by decide) (by decide)
      (by decide)
  have hu : innerRepository.IsUppermost nestedRepositories
      (nestedRepositories.absolute "/o/i/d") ⟨1, [['o']]⟩ := by
    have hi : innerRepository.IsUppermost nestedRepositories ⟨1, [['o'], ['i']]⟩ ⟨1, [['o']]⟩ :=
      .of_parent (by simp) outer <| .of_limit <| .inr fun h => nomatch top.symm.trans h
    exact .of_parent (p := ⟨1, [['o'], ['i'], ['d']]⟩) (by simp) inner hi
  have ⟨r, hr, hs, _⟩ := rootOf_uppermost hw hd hc
  rw [← (hs _).mp hu] at hr
  exact ⟨hw, hd, hc, below, hr⟩

end SourceFlags.ProjectType
