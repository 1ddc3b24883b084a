import SourceFlags.Proofs.Registry.Newcomer
import SourceFlags.Registry.Builtin

namespace SourceFlags.Registry

variable {r r' : Registry} {t old : ProjectType} {p : Priority} {ts : List ProjectType}

def others (t : ProjectType) (ts : List ProjectType) : List ProjectType :=
  ts.filter (·.name != t.name)

-- The type `t` has been registered in `r`, and `r'` has it as `u` now. The two types differ at most
-- in whether they count as generic, and all other types stay as they are.
structure Enters (r : Registry) (t : ProjectType) (p : Priority) (r' : Registry) (u : ProjectType) :
    Prop where
  found    : r'.get? t.name = some u
  same     : u = { t with isGeneric := u.isGeneric }
  replaced : ∀ old, r.get? t.name = some old → u.isGeneric = old.isGeneric
  generic  : t.name ∉ r.names → p = .generic → u.isGeneric = true
  leading  : t.name ∉ r.names → p ≠ .generic → u.isGeneric = t.isGeneric
  others   : others t r'.types = others t r.types
  seeded   : r'.isSeeded = r.isSeeded

theorem get?_eq_none_iff : r.get? t.name = none ↔ t.name ∉ r.names := by
  rw [← get?_isNone_iff, Option.isNone_iff_eq_none]

theorem mem_names_of_get? (ho : r.get? t.name = some old) : t.name ∈ r.names := by
  by_contra hn
  exact nomatch ho.symm.trans (get?_eq_none_iff.mpr hn)

theorem types_of_replacing (ho : r.get? t.name = some old) (hp : r.register t p = .ok r') :
    r'.types = replace t r.types := by
  have ha : r.types.any (·.name == t.name) = true := any_name_iff.mpr (mem_names_of_get? ho)
  rw [eq_of_register hp, place, if_pos ha]

theorem find_replace (h : ts.find? (·.name == t.name) = some old) :
    (replace t ts).find? (·.name == t.name) = some { t with isGeneric := old.isGeneric } := by
  induction ts
  case nil => exact nomatch h
  case cons u us hi =>
    by_cases hu : u.name = t.name
    case pos =>
      have ho : u = old := by simpa [hu] using h
      subst ho
      simp [replace, hu]
    case neg =>
      have ho : us.find? (·.name == t.name) = some old := by simpa [hu] using h
      simp [replace, hu, hi ho]

theorem others_replace (t : ProjectType) (ts : List ProjectType) :
    others t (replace t ts) = others t ts := by
  induction ts
  case nil => rfl
  case cons u us hi =>
    rw [others] at hi ⊢
    by_cases hu : u.name = t.name
    case pos => simp [replace, others, hu]
    case neg => simp [replace, others, hu, hi]

theorem find_insert (hn : t.name ∉ ts.map (·.name)) (p : Priority) :
    (insert t p ts).find? (·.name == t.name) = some (inserted t p) := by
  have ⟨before, after, hs, hi⟩ := insert_eq t p ts
  have hb : before.find? (·.name == t.name) = none := by
    rw [List.find?_eq_none]
    intro u hu he
    exact hn <| hs ▸ List.mem_map.mpr ⟨u, List.mem_append_left _ hu, eq_of_beq he⟩
  simp [hi, List.find?_append, hb, inserted]

theorem others_insert (t : ProjectType) (p : Priority) (ts : List ProjectType) :
    others t (insert t p ts) = others t ts := by
  have ⟨before, after, hs, hi⟩ := insert_eq t p ts
  rw [hi, hs]
  simp [others, inserted]

theorem enters_of_replacing (ho : r.get? t.name = some old) (hp : r.register t p = .ok r') :
    r.Enters t p r' { t with isGeneric := old.isGeneric } := by
  have hs := types_of_replacing ho hp
  have hn := mem_names_of_get? ho
  constructor
  case found    => rw [get?, hs, find_replace ho]
  case same     => rfl
  case replaced =>
    exact fun _ hu => congrArg (·.isGeneric) <| Option.some.inj <| ho.symm.trans hu
  case generic  => exact fun hc => absurd hn hc
  case leading  => exact fun hc => absurd hn hc
  case others   => rw [hs, others_replace]
  case seeded   => exact congrArg (·.isSeeded) (eq_of_register hp)

theorem enters_of_inserting (hn : t.name ∉ r.names) (hp : r.register t p = .ok r') :
    r.Enters t p r' (inserted t p) := by
  have hs := types_of_register hn hp
  constructor
  case found    => rw [get?, hs, find_insert hn]
  case same     => rfl
  case replaced => exact fun _ ho => absurd (mem_names_of_get? ho) hn
  case generic  => exact fun _ hg => by simp [inserted, hg]
  case leading  => exact fun _ hg => by simp [inserted, hg]
  case others   => rw [hs, others_insert]
  case seeded   => exact congrArg (·.isSeeded) (eq_of_register hp)

-- Generic types still come last, unless a new unique type counts as generic and there are types
-- that do not.
theorem register_in_tiers (h : GenericLast r.types) (hp : r.register t p = .ok r') :
    (GenericLast r'.types ↔
      (p = .unique → t.name ∉ r.names → t.isGeneric = true →
        ∀ u ∈ r.types, u.isGeneric = true)) ∧
    ∃ u, r.Enters t p r' u := by
  cases ho : r.get? t.name
  case some old =>
    have hs := types_of_replacing ho hp
    have hn := mem_names_of_get? ho
    refine ⟨iff_of_true (hs ▸ replace_genericLast t h) ?_, _, enters_of_replacing ho hp⟩
    exact fun _ hc => absurd hn hc
  case none =>
    have hn := get?_eq_none_iff.mp ho
    refine ⟨?_, _, enters_of_inserting hn hp⟩
    rw [types_of_register hn hp, insert_genericLast_iff p h]
    exact ⟨fun ha hp _ => ha hp, fun ha hp => ha hp hn⟩

def gitRepository : ProjectType :=
  { marked "generic-git" ".git" true (Recipe.generic.load [("project_type", .text "generic-git")])
    with isGeneric := true }

theorem register_gitRepository_in_front :
    let r := empty.seed specificTypes
    ∃ r' u, builtin.get? "generic-git" = some gitRepository ∧ GenericLast r.types ∧
      r.register gitRepository .unique = .ok r' ∧ gitRepository.name ∉ r.names ∧
      r.Enters gitRepository .unique r' u ∧ u.isGeneric = true ∧ ¬GenericLast r'.types := by
  intro r
  have hg : GenericLast r.types := genericLast_iff.mpr <| by decide
  have hn : gitRepository.name ∉ r.names := by decide
  have hp : r.register gitRepository .unique = .ok ⟨gitRepository :: r.types, true⟩ := rfl
  have ⟨hl, u, hu⟩ := register_in_tiers hg hp
  have hug : u.isGeneric = true := hu.leading hn (by decide)
  refine ⟨_, u, rfl, hg, hp, hn, hu, hug, fun hl' => ?_⟩
  have ha : ∀ u ∈ r.types, u.isGeneric = true := hl.mp hl' rfl hn rfl
  exact absurd ha (by decide)

end SourceFlags.Registry
