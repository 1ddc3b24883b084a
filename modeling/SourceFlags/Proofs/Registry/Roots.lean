import SourceFlags.Proofs.Automake.Walk
import SourceFlags.Proofs.Project.Contains
import SourceFlags.Proofs.Registry.Ownership
import SourceFlags.Registry.Builtin

namespace SourceFlags

open SourceFlags.Path

namespace World

variable {w : World} {p : Path}

theorem absoluteText_text (h : p.Settled) : w.absoluteText p.text = p.text :=
  congrArg Path.text (h.absolute_text w.cwd)

theorem reaches_text (h : p.Settled) : w.reaches p.text = true := by
  simp [reaches, h.isAbsolute_text]

end World

theorem Project.rootOf_absoluteText {cwd : String} (h : isAbsolute cwd = true) (s : String) :
    rootOf cwd (absoluteText cwd s) = rootOf cwd s := by
  rw [rootOf, absoluteText_absoluteText h, rootOf]

theorem Project.ofRoot_root (cwd root : String) (variant : Variant) :
    (ofRoot cwd root variant).root = rootOf cwd root :=
  settle_root ..

theorem Kernel.root_of_load {w : World} {root : String} {architecture build : Option String}
    {p : Project} (hw : isAbsolute w.cwd = true)
    (h : load w root architecture build = .ok p) : p.root = Project.rootOf w.cwd root := by
  simp only [load, World.about] at h
  split at h
  case isFalse => cases h
  case isTrue =>
    obtain ⟨_, _, h⟩ := exists_of_bind_eq_ok h
    split at h
    case isFalse => cases h
    case isTrue =>
      rw [← Except.ok.inj h, project, Project.settle_root]
      exact Project.rootOf_absoluteText hw root

namespace BuildDescription

variable {cwd root content : String} {p : Project}

theorem root_of_project {fs : List SExpr.Form} (h : project cwd root fs = .ok p) :
    p.root = Project.rootOf cwd root := by
  unfold project at h
  extract_lets at h
  split at h
  case h_1 => rw [← Except.ok.inj h, Project.settle_root]; rfl
  all_goals cases h

theorem root_of_ofText (h : ofText cwd root content = .ok p) :
    p.root = Project.rootOf cwd root := by
  unfold ofText at h
  split at h
  case h_1 => cases h
  case h_2 =>
    split at h
    case h_1 => cases h
    case h_2 => exact root_of_project h

theorem root_of_load {w : World} (h : load w root = .ok p) :
    p.root = Project.rootOf w.cwd root := by
  unfold load at h
  extract_lets at h
  split at h
  case h_1 => cases h
  case h_2 => exact root_of_ofText h

end BuildDescription

namespace Recipe

-- Makefiles alone are looked for where links lead.
theorem root_of_load {r : Recipe} {arguments : Arguments} {w : World} {root : String} {p : Project}
    (hw : isAbsolute w.cwd = true) (hr : r ≠ .fixed)
    (h : r.load arguments w root = .ok (some p)) :
    p.root = Project.rootOf w.cwd (if r = .automake then (w.resolve root).text else root) := by
  simp only [load] at h
  split at h
  case h_1 => cases h
  case h_2 =>
    have made : ∀ q : Project, Except.ok (ε := Error) (some q) = .ok (some p) → p.root = q.root :=
      fun q hq => congrArg Project.root (Option.some.inj (Except.ok.inj hq)).symm
    cases r
    case fixed    => contradiction
    case nothing  => cases h
    case generic  => exact (made _ h).trans (Project.ofRoot_root ..)
    case automake =>
      obtain ⟨q, hq, h⟩ := exists_of_map_eq_ok h
      obtain ⟨all, _, rfl⟩ := Automake.exists_of_load hq
      exact (made _ (congrArg Except.ok h)).trans (Project.settle_root ..)
    case sketch   => exact (made _ h).trans (Project.ofRoot_root ..)
    case rooted   => exact (made _ h).trans (Project.settle_root ..)
    case buildDescription =>
      cases hb : BuildDescription.load w root
      case error => rw [make, hb] at h; cases h
      case ok q =>
        rw [make, hb] at h
        exact (made q h).trans (BuildDescription.root_of_load hb)
    case kernel =>
      cases ha : text? arguments "arch" <;> cases hd : text? arguments "build_dir" <;>
        simp only [make, ha, hd, bind, Except.bind] at h
      case ok.ok architecture build =>
        cases hk : Kernel.load w root architecture build
        case error => rw [hk] at h; cases h
        case ok q =>
          rw [hk] at h
          exact (made q h).trans (Kernel.root_of_load hw hk)
      all_goals cases h

end Recipe

namespace ProjectType

variable {w : World} {t : ProjectType} {a p : Path} {directory root : String}

theorem rise_mem {current : String} {ds : List String} (h : t.rise w current ds = .ok root) :
    root ∈ current :: ds := by
  induction ds generalizing current
  case nil => exact Except.ok.inj h ▸ List.mem_singleton_self _
  case cons d ds hi =>
    rw [rise] at h
    split at h
    case h_1 => cases h
    case h_2 => exact Except.ok.inj h ▸ List.mem_cons_self
    case h_3 => exact List.mem_cons_of_mem _ (hi h)

theorem mem_above (ha : a.Settled) (h : root ∈ above w a.text) :
    ∃ b : Path, b.IsAbove a ∧ root = b.text := by
  obtain ⟨b, hb, hr⟩ := List.mem_map.mp h
  have hp : w.absolute a.text = a := ha.absolute_text w.cwd
  rw [hp] at hb
  exact ⟨b, mem_ancestors_iff.mp hb, hr.symm⟩

theorem markedRoot_leadsTo (ha : a.Settled) (h : t.markedRoot w a.text = .ok root) :
    ∃ b : Path, b.LeadsTo a ∧ root = b.text := by
  unfold markedRoot at h
  split at h
  case isTrue  => exact ⟨a, .refl a, (Except.ok.inj h).symm⟩
  case isFalse =>
    cases rise_mem h
    case head   => exact ⟨a, .refl a, rfl⟩
    case tail h => exact (mem_above ha h).imp fun _ => And.imp_left IsAbove.leadsTo

-- The places at and above a path are where their texts resolve to.
def NoLinks (w : World) (p : Path) : Prop :=
  ∀ a : Path, a.LeadsTo p → w.resolve a.text = a

def FindsSketches (t : ProjectType) : Prop :=
  t.rootFinder = some Sketch.root?

theorem sketch_leadsTo {directory : String} (h : Sketch.root? w directory = .ok (some root)) :
    ∃ b : Path, b.LeadsTo (w.resolve directory) ∧ root = b.text := by
  obtain ⟨start, hs, h⟩ := exists_of_bind_eq_ok h
  obtain ⟨found, hf, h⟩ := exists_of_bind_eq_ok h
  obtain ⟨b, rfl, hr⟩ := Option.map_eq_some_iff.mp (Except.ok.inj h)
  exact ⟨b, World.eq_of_resolved hs ▸ leadsTo_of_mem (mem_of_findM? hf), hr.symm⟩

theorem rootOf_leadsTo (ha : a.Settled)
    (hf : t.rootFinder = none ∨ t.FindsSketches ∧ w.resolve a.text = a)
    (h : t.rootOf w a.text = .ok root) : ∃ b : Path, b.LeadsTo a ∧ root = b.text := by
  rw [rootOf, World.about_of_reaches (World.reaches_text ha), World.absoluteText_text ha] at h
  cases hf
  case inl hf =>
    simp only [hf] at h
    exact markedRoot_leadsTo ha h
  case inr hf =>
    obtain ⟨hf, hw⟩ := hf
    rw [FindsSketches] at hf
    simp only [hf] at h
    split at h
    case h_1 => contradiction
    case h_3 => exact markedRoot_leadsTo ha h
    case h_2 s hs =>
      split at h
      case isTrue => exact markedRoot_leadsTo ha h
      case isFalse =>
        obtain ⟨b, hb, hs⟩ := sketch_leadsTo hs
        rw [hw] at hb
        have hbs := hb.settled ha
        rw [hs, World.about_of_reaches (World.reaches_text hbs), World.absoluteText_text hbs] at h
        exact ⟨b, hb, (Except.ok.inj h).symm⟩

end ProjectType

namespace Registry

open ProjectType

variable {r : Registry} {w : World} {t : ProjectType} {ts : List ProjectType} {o : Owner}
variable {directory : String}

theorem mem_of_firstIn (h : firstIn w directory ts = .ok (some t)) : t ∈ ts := by
  induction ts
  case nil => cases h
  case cons u ts hi =>
    rw [firstIn] at h
    split at h
    case h_1 => cases h
    case h_2 => exact Option.some.inj (Except.ok.inj h) ▸ List.mem_cons_self
    case h_3 => exact List.mem_cons_of_mem u (hi h)

theorem mem_of_firstAmong {ds : List String} (h : firstAmong w ts ds = .ok (some (t, directory))) :
    t ∈ ts ∧ directory ∈ ds := by
  induction ds
  case nil => cases h
  case cons d ds hi =>
    rw [firstAmong] at h
    split at h
    case h_1 => cases h
    case h_2 u hu =>
      obtain ⟨ht, hd⟩ := Prod.mk.inj <| Option.some.inj (Except.ok.inj h)
      exact ⟨ht ▸ mem_of_firstIn hu, hd ▸ List.mem_cons_self⟩
    case h_3 => exact (hi h).imp_right (List.mem_cons_of_mem d)

theorem mem_of_detect (h : r.detect w directory = .ok (some t)) : t ∈ r.types := by
  rw [detect, World.about] at h
  split at h
  case isTrue  => exact mem_of_firstIn h
  case isFalse => cases h

def OwnedFrom (r : Registry) (w : World) (p : Path) (o : Owner) : Prop :=
  o.type ∈ r.types ∧ ∃ a : Path, a.LeadsTo p ∧ o.type.rootOf w a.text = .ok o.root

theorem ownedFrom_of_ownedBy {a p : Path} (ht : t ∈ r.types) (ha : a.LeadsTo p)
    (h : ownedBy w t a.text = .ok (some o)) : r.OwnedFrom w p o := by
  rw [ownedBy] at h
  cases hr : t.rootOf w a.text
  case error => rw [hr] at h; cases h
  case ok root =>
    rw [hr] at h
    exact Option.some.inj (Except.ok.inj h) ▸ ⟨ht, a, ha, hr⟩

theorem ownedFrom_of_ownerAbove {p : Path} (hp : p.Settled) {here : Option ProjectType}
    (hh : ∀ t, here = some t → t ∈ r.types) (h : r.ownerAbove w p.text here = .ok (some o)) :
    r.OwnedFrom w p o := by
  unfold ownerAbove at h
  split at h
  case h_1 => cases h
  case h_2 t d hf =>
    obtain ⟨ht, hd⟩ := mem_of_firstAmong hf
    obtain ⟨b, hb, he⟩ := mem_above hp hd
    rw [he] at h
    exact ownedFrom_of_ownedBy (List.mem_of_mem_filter ht) hb.leadsTo h
  case h_3 =>
    cases here
    case none   => cases h
    case some t => exact ownedFrom_of_ownedBy (hh t rfl) (.refl p) h

theorem owner_ownedFrom (hw : isAbsolute w.cwd = true)
    (h : r.owner w directory = .ok (some o)) : r.OwnedFrom w (w.absolute directory) o := by
  have hp : (w.absolute directory).Settled := absolute_settled hw directory
  have ha : w.absoluteText directory = (w.absolute directory).text := rfl
  rw [owner, World.about] at h
  split at h
  case isFalse => cases h
  case isTrue =>
    rw [ha] at h
    unfold ownerOf at h
    split at h
    case h_1 => cases h
    case h_2 t hd =>
      have ht := mem_of_detect hd
      split at h
      case isTrue  => exact ownedFrom_of_ownerAbove hp (by simpa using ht) h
      case isFalse => exact ownedFrom_of_ownedBy ht (.refl _) h
    case h_3 => exact ownedFrom_of_ownerAbove hp (by simp) h

structure IsKnown (t : ProjectType) : Prop where
  finder : t.rootFinder = none ∨ t.FindsSketches ∧ t.name = "arduino"
  recipe : ∃ (r : Recipe) (arguments : Recipe.Arguments), t.load = r.load arguments ∧ r ≠ .fixed ∧
    (r = .automake → t.name = "automake")

theorem builtin_types :
    builtin.types = specificTypes ++ genericTypes.map fun t => { t with isGeneric := true } :=
  rfl

theorem marked_isKnown {name : String} {r : Recipe} (hr : r ≠ .fixed)
    (hn : r = .automake → name = "automake") (marker : String) (rootOnly : Bool)
    (arguments : Recipe.Arguments) : IsKnown (marked name marker rootOnly (r.load arguments)) :=
  ⟨.inl rfl, r, arguments, rfl, hr, hn⟩

theorem IsKnown.change (h : IsKnown t) (marker : Option Marker) (isSafe isChoice isGeneric : Bool) :
    IsKnown { t with marker, isSafe, isChoice, isGeneric } :=
  ⟨h.finder, h.recipe⟩

theorem isKnown_of_specific (h : t ∈ specificTypes) : IsKnown t := by
  have described_isKnown : ∀ name marker makefile, IsKnown (described name marker makefile) :=
    fun name _ makefile => (marked_isKnown (r := .buildDescription) (by decide) (by simp) ""
      false [("makefile_type", .text makefile)]).change ..
  simp only [specificTypes, List.mem_cons, List.not_mem_nil, or_false] at h
  obtain rfl | rfl | rfl | rfl | rfl := h
  case inl             => exact described_isKnown ..
  case inr.inl         => exact described_isKnown ..
  case inr.inr.inl     => exact marked_isKnown (by decide) (fun _ => rfl) ..
  case inr.inr.inr.inl => exact marked_isKnown (r := .kernel) (by decide) (by simp) ..
  case inr.inr.inr.inr => exact ⟨.inr ⟨rfl, rfl⟩, .sketch, [], rfl, by decide, by decide⟩

theorem isKnown_of_generic (h : t ∈ genericTypes) : IsKnown t := by
  obtain ⟨⟨label, marker, rootOnly⟩, _, ht⟩ := List.mem_map.mp h
  exact ht ▸ marked_isKnown (r := .generic) (by decide) (by simp) marker rootOnly
    [("project_type", .text label)]

theorem isKnown_of_builtin (h : t ∈ builtin.types) : IsKnown t := by
  rw [builtin_types] at h
  cases List.mem_append.mp h
  case inl h => exact isKnown_of_specific h
  case inr h =>
    obtain ⟨u, hu, ht⟩ := List.mem_map.mp h
    exact ht ▸ (isKnown_of_generic hu).change ..

def FollowsLinks (t : ProjectType) : Prop :=
  t.name = "automake" ∨ t.name = "arduino"

-- A directory is in the project that is loaded for it, unless links have been followed.
theorem contains_of_builtin {p : Project} (hw : isAbsolute w.cwd = true)
    (ho : builtin.owner w directory = .ok (some o))
    (hp : o.type.load w (w.absoluteText o.root) = .ok (some p))
    (hl : FollowsLinks o.type → NoLinks w (w.absolute directory)) :
    p.contains w.cwd directory = true := by
  have hd : (w.absolute directory).Settled := absolute_settled hw directory
  obtain ⟨ht, a, ha, hr⟩ := owner_ownedFrom hw ho
  obtain ⟨hf, r, arguments, hload, hfix, hm⟩ := isKnown_of_builtin ht
  have hf : o.type.rootFinder = none ∨ o.type.FindsSketches ∧ w.resolve a.text = a :=
    hf.imp_right <| .imp_right fun hn => hl (.inr hn) a ha
  obtain ⟨b, hb, hroot⟩ := rootOf_leadsTo (ha.settled hd) hf hr
  have hb := hb.trans ha
  rw [hload, hroot, World.absoluteText_text (hb.settled hd)] at hp
  have hpr := Recipe.root_of_load hw hfix hp
  refine Project.contains_of_leadsTo hw hb ?_
  rw [hpr]
  split
  case isTrue h  => rw [hl (.inl (hm h)) b hb]
  case isFalse   => rfl

end Registry

end SourceFlags
