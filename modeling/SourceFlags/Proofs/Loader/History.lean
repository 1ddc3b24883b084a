import SourceFlags.Proofs.Loader.Calls
import SourceFlags.Proofs.Registry.Consulted
import SourceFlags.Proofs.World.Steady
import SourceFlags.Registry.Builtin

namespace SourceFlags.Loader

def resolve (w : World) (trust : Trust) (r : Registry) (directory : String) :
    Except Error (Option Project) :=
  if w.reaches directory then
    match r.owner w directory with
    | .error e     => .error e
    | .ok none     => .ok none
    | .ok (some o) =>
      if w.reaches o.root then (make w trust o.type (w.absoluteText o.root)).map some
      else .error .cwdGone
  else .error .cwdGone

def outcome (w : World) (l : Loader) (directory : String) : Except Error (Option Project) :=
  (l.loadFor w directory).1.map (·.map (·.project))

-- Loaders that only differ in what their matchers remember, and in what has been run.
structure Akin (w : World) (l l' : Loader) : Prop where
  trust    : l'.trust = l.trust
  projects : l'.projects = l.projects
  registry : l'.registry.consulted w = l.registry.consulted w

variable {w : World} {l l₁ l₂ : Loader} {r : Registry} {trust : Trust} {t : ProjectType}
variable {directory : String} {m : Loaded} {x : Except Error (Option Project)}

theorem Akin.trans (h₁ : l.Akin w l₁) (h₂ : l₁.Akin w l₂) : l.Akin w l₂ where
  trust    := h₂.trust.trans h₁.trust
  projects := h₂.projects.trans h₁.projects
  registry := h₂.registry.trans h₁.registry

theorem tried_akin (w : World) (l : Loader) (t : ProjectType) (directory : String) :
    l.Akin w (l.tried w t directory) :=
  have ⟨ht, hp, hr⟩ := tried_preserves w l t directory
  ⟨ht, hp, hr ▸ rfl⟩

theorem resolve_consulted (w : World) (trust : Trust) (r : Registry) (directory : String) :
    resolve w trust (r.consulted w) directory = resolve w trust r directory := by
  simp only [resolve, r.owner_consulted]
  cases r.owner w directory
  case error    => rfl
  case ok owner => cases owner <;> rfl

theorem loadFor_of_found (hr : w.reaches directory = true)
    (hf : l.projects.find w.cwd directory = some m) :
    l.loadFor w directory = (.ok (some m), l) := by
  simp only [loadFor, hr, hf, if_true]

theorem loadFor_of_found_preserves (hf : l.projects.find w.cwd directory = some m) :
    (l.loadFor w directory).2 = l := by
  simp only [loadFor, hf]
  split <;> rfl

theorem loadFor_of_not_found (hf : l.projects.find w.cwd directory = none) :
    ∃ l', l.Akin w l' ∧
      l.loadFor w directory = l'.enter (resolve w l.trust l.registry directory) := by
  by_cases hr : w.reaches directory = true
  case neg => exact ⟨l, ⟨rfl, rfl, rfl⟩, by simp only [loadFor, resolve, if_neg hr]; rfl⟩
  case pos =>
    let asked : Loader := { l with registry := l.registry.afterOwner w directory }
    have ha : l.Akin w asked := ⟨rfl, rfl, l.registry.consult_consulted ..⟩
    simp only [loadFor, resolve, hf, if_pos hr]
    cases l.registry.owner w directory
    case error => exact ⟨asked, ha, rfl⟩
    case ok owner =>
      cases owner
      case none => exact ⟨asked, ha, rfl⟩
      case some o =>
        by_cases ho : w.reaches o.root = true
        case neg => exact ⟨asked, ha, by simp only [load, if_neg ho]; rfl⟩
        case pos =>
          refine ⟨asked.tried w o.type (w.absoluteText o.root), ha.trans (tried_akin ..), ?_⟩
          simp only [load, if_pos ho]
          exact loadAt_eq w asked o.type (w.absoluteText o.root)

theorem outcome_of_not_found (hf : l.projects.find w.cwd directory = none) :
    outcome w l directory =
      (resolve w l.trust l.registry directory).map (·.map l.projects.standIn) := by
  have ⟨l', ha, he⟩ := loadFor_of_not_found hf
  rw [outcome, he, enter_outcome, ha.projects]

theorem outcome_fresh (w : World) (r : Registry) (trust : Trust) (directory : String) :
    outcome w (ofRegistry r trust) directory = resolve w trust r directory := by
  rw [outcome_of_not_found (l := ofRegistry r trust) rfl]
  cases h : resolve w trust r directory
  case error    => simp [ofRegistry, h, Except.map]
  case ok found => cases found <;> simp [ofRegistry, h, Except.map]

def runFor (w : World) (l : Loader) (ds : List String) : Loader :=
  l.run (ds.map fun d => ⟨w, .loadFor d⟩)

structure Follows (w : World) (r : Registry) (trust : Trust) (ds : List String) (l : Loader) :
    Prop where
  trust_eq    : l.trust = trust
  registry_eq : l.registry.consulted w = r.consulted w
  projects    : ∀ m ∈ l.projects, ∃ d ∈ ds, resolve w trust r d = .ok (some m.project)

namespace Follows

variable {ds : List String}

theorem resolve_eq (h : Follows w r trust ds l) (directory : String) :
    resolve w l.trust l.registry directory = resolve w trust r directory := by
  rw [← resolve_consulted, h.registry_eq, h.trust_eq, resolve_consulted]

theorem snoc (h : Follows w r trust ds l) (d : String) : Follows w r trust (ds ++ [d]) l where
  trust_eq    := h.trust_eq
  registry_eq := h.registry_eq
  projects    := fun m hm =>
    have ⟨d', hd', hp⟩ := h.projects m hm
    ⟨d', List.mem_append_left _ hd', hp⟩

theorem loadFor (h : Follows w r trust ds l) (d : String) :
    Follows w r trust (ds ++ [d]) (l.loadFor w d).2 := by
  cases hf : l.projects.find w.cwd d
  case some m => exact (loadFor_of_found_preserves hf).symm ▸ h.snoc d
  case none =>
    have ⟨l', ha, he⟩ := loadFor_of_not_found hf
    rw [he, h.resolve_eq]
    constructor
    case trust_eq    => rw [enter_trust, ha.trust, h.trust_eq]
    case registry_eq => rw [enter_registry, ha.registry, h.registry_eq]
    case projects =>
      intro m hm
      cases mem_enter hm
      case inl hm => exact (h.snoc d).projects m (ha.projects ▸ hm)
      case inr hm => exact ⟨d, by simp, hm⟩

theorem runFor {ds' : List String} (h : Follows w r trust ds l) :
    Follows w r trust (ds ++ ds') (l.runFor w ds') := by
  induction ds' generalizing ds l
  case nil => exact ds.append_nil.symm ▸ h
  case cons d ds' hi =>
    rw [← List.singleton_append, ← List.append_assoc]
    exact hi (h.loadFor d)

end Follows

theorem outcome_runFor (r : Registry) (trust : Trust) (w : World) (ds : List String) (d : String) :
    let fresh := ofRegistry r trust
    let l := fresh.runFor w ds
    (∀ m ∈ l.projects, ∃ d' ∈ ds, outcome w fresh d' = .ok (some m.project)) ∧
    (w.reaches d = true → (∃ m ∈ l.projects, m.project.contains w.cwd d = true) →
      ∃ m, l.projects.IsDeepest w.cwd d m ∧ outcome w l d = .ok (some m.project)) ∧
    ((∀ m ∈ l.projects, m.project.contains w.cwd d = false) →
      outcome w l d = (outcome w fresh d).map (·.map l.projects.standIn)) ∧
    (w.reaches d = false → outcome w l d = outcome w fresh d) ∧
    outcome w (ofRegistry l.registry trust) d = outcome w fresh d := by
  intro fresh l
  have start : Follows w r trust [] fresh := ⟨rfl, rfl, fun _ hm => absurd hm List.not_mem_nil⟩
  have h : Follows w r trust ds l := start.runFor
  refine ⟨?projects, ?found, ?resolved, ?unreached, ?shared⟩
  case projects =>
    intro m hm
    have ⟨d', hd', hp⟩ := h.projects m hm
    exact ⟨d', hd', outcome_fresh w r trust d' ▸ hp⟩
  case found =>
    intro hr ⟨m, hm, hc⟩
    have ⟨n, hn⟩ := ProjectList.find_isSome hm hc
    refine ⟨n, ProjectList.find_isDeepest hn, ?_⟩
    rw [outcome, loadFor_of_found hr hn]
    rfl
  case resolved =>
    intro hc
    rw [outcome_of_not_found (ProjectList.find_eq_none_iff.mpr hc), h.resolve_eq, outcome_fresh]
  case unreached =>
    intro hr
    simp only [outcome, Loader.loadFor, hr]
    rfl
  case shared => rw [outcome_fresh, outcome_fresh, ← h.resolve_eq, h.trust_eq]

def nested : Registry :=
  let placed := fun name place => { Registry.marked name "" true (Recipe.generic.load []) with
    marker := none
    matcher := some (.literal place) }
  let strayed := { placed "strayed" "/s/" with
    rootFinder := some fun _ _ => .ok (some "/a")
    load := Recipe.rooted.load [] }
  Registry.empty.seed [placed "inner" "/a/b/", placed "outer" "/a/", strayed]

def kindAndRoot (x : Except Error (Option Project)) : Option (Option (String × String)) :=
  x.toOption.map (·.map fun p => (p.kind, p.root))

-- Once the outer project has been resolved, it stands for the inner one, and for the one that is
-- rooted where it is.
theorem outcome_depends_on_history :
    let fresh := ofRegistry nested ⟨[], fun _ => true⟩
    let later := fresh.runFor .bare ["/a"]
    (∀ d, fresh.trust.isTrusted World.bare.cwd d = true) ∧
    kindAndRoot (outcome .bare fresh "/a/b") = some (some ("GenericProject", "/a/b")) ∧
    kindAndRoot (outcome .bare later "/a/b") = some (some ("GenericProject", "/a")) ∧
    kindAndRoot (outcome .bare fresh "/s") = some (some ("CppRootProject", "/a")) ∧
    kindAndRoot (outcome .bare later "/s") = some (some ("GenericProject", "/a")) := by
  intro fresh later
  refine ⟨fun d => ?trusts, ?freshInner, ?laterInner, ?freshStrayed, ?laterStrayed⟩
  case trusts => simp [fresh, ofRegistry, Trust.isTrusted]
  all_goals decide

end SourceFlags.Loader
