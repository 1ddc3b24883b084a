import SourceFlags.Proofs.Loader.History
import SourceFlags.Proofs.Registry.Roots
import SourceFlags.Proofs.World.Places
import SourceFlags.Proofs.World.Steady

namespace SourceFlags

namespace Owner

variable {w : World} {o o' : Owner}

theorem root_eq_of_consulted (h : o.consulted w = o'.consulted w) : o.root = o'.root :=
  (congrArg Owner.root h :)

theorem name_eq_of_consulted (h : o.consulted w = o'.consulted w) : o.type.name = o'.type.name :=
  (congrArg (·.type.name) h :)

theorem make_eq_of_consulted (h : o.consulted w = o'.consulted w) (trust : Trust)
    (directory : String) :
    Loader.make w trust o.type directory = Loader.make w trust o'.type directory := by
  have hl : o.type.load = o'.type.load := (congrArg (·.type.load) h :)
  have hs : o.type.isSafe = o'.type.isSafe := (congrArg (·.type.isSafe) h :)
  simp only [Loader.make, hl, hs, name_eq_of_consulted h]

end Owner

namespace Registry

variable {w : World} {r : Registry} {directory : String} {o : Owner}

theorem owner_afterOwner (h : r.owner w directory = .ok (some o)) :
    ∃ o', (r.afterOwner w directory).owner w directory = .ok (some o') ∧
      o'.consulted w = o.consulted w := by
  have ha := (r.afterOwner w directory).owner_consulted w directory
  have hr := r.owner_consulted w directory
  have hc : (r.afterOwner w directory).consulted w = r.consulted w := r.consult_consulted ..
  rw [hc, hr, h] at ha
  cases ho : (r.afterOwner w directory).owner w directory
  case error e => rw [ho] at ha; cases ha
  case ok found =>
    cases found
    case none    => rw [ho] at ha; cases ha
    case some o' =>
      rw [ho] at ha
      exact ⟨o', rfl, (Option.some.inj (Except.ok.inj ha)).symm⟩

end Registry

namespace Loader

variable {w : World} {r : Registry} {trust : Trust} {l : Loader} {m : Loaded} {directory : String}

structure Owned (w : World) (r : Registry) (trust : Trust) (directory : String) (o : Owner)
    (p : Project) : Prop where
  reaches     : w.reaches directory = true
  owner       : r.owner w directory = .ok (some o)
  reachesRoot : w.reaches o.root = true
  made        : make w trust o.type (w.absoluteText o.root) = .ok p

theorem owned_of_resolve {p : Project} (h : resolve w trust r directory = .ok (some p)) :
    ∃ o, Owned w r trust directory o p := by
  unfold resolve at h
  split at h
  case isFalse => cases h
  case isTrue hr =>
    split at h
    case h_1 => cases h
    case h_2 => cases h
    case h_3 o ho =>
      split at h
      case isFalse => cases h
      case isTrue hs =>
        cases hm : make w trust o.type (w.absoluteText o.root)
        case error => rw [hm] at h; cases h
        case ok q =>
          rw [hm] at h
          exact ⟨o, hr, ho, hs, Option.some.inj (Except.ok.inj h) ▸ hm⟩

def ranFor (w : World) (l : Loader) (directory : String) (o : Owner) : Loader :=
  { l with registry := l.registry.afterOwner w directory }.ran o.type (w.absoluteText o.root)

theorem Owned.loadFor_eq {o : Owner} {p : Project}
    (h : Owned w l.registry l.trust directory o p)
    (hf : l.projects.find w.cwd directory = none) :
    l.loadFor w directory =
      (.ok (some ((l.ranFor w directory o).keep p).1), ((l.ranFor w directory o).keep p).2) := by
  have ha : l.allows w o.type (w.absoluteText o.root) = true := by
    by_contra hn
    have hm := h.made
    rw [make_of_not_allows (Bool.eq_false_iff.mpr hn)] at hm
    cases hm
  let asked := { l with registry := l.registry.afterOwner w directory }
  have hl := loadAt_eq w asked o.type (w.absoluteText o.root)
  have ht : asked.tried w o.type (w.absoluteText o.root) = asked.ran o.type _ :=
    tried_of_allows ha
  rw [ht, h.made] at hl
  simp only [loadFor, h.reaches, hf, h.owner, load, h.reachesRoot, if_true]
  exact hl

theorem Owned.again {o : Owner} {p : Project} (h : Owned w r trust directory o p) :
    ∃ o', Owned w (r.afterOwner w directory) trust directory o' p ∧
      o'.consulted w = o.consulted w := by
  obtain ⟨o', ho, hc⟩ := Registry.owner_afterOwner h.owner
  have hr := Owner.root_eq_of_consulted hc
  refine ⟨o', ⟨h.reaches, ho, hr ▸ h.reachesRoot, ?_⟩, hc⟩
  rw [hr, Owner.make_eq_of_consulted hc]
  exact h.made

theorem find_singleton (hc : m.project.contains w.cwd directory = true) :
    ProjectList.find w.cwd [m] directory = some m := by
  obtain ⟨n, hn⟩ := ProjectList.find_isSome (List.mem_singleton_self m) hc
  have hm := List.mem_singleton.mp (ProjectList.find_isDeepest hn).mem
  rw [hm] at hn
  exact hn

theorem find_singleton_eq_none (hc : m.project.contains w.cwd directory = false) :
    ProjectList.find w.cwd [m] directory = none :=
  ProjectList.find_eq_none_iff.mpr <| by simpa using hc

theorem keep_of_kept (h : l.projects = [m]) :
    (l.keep m.project).1 = m ∧ (l.keep m.project).2.runs = l.runs := by
  have ha : ProjectList.add [m] ⟨l.made, m.project⟩ = (m, [m]) := by
    simp [ProjectList.add, ProjectList.ofRoot?]
  simp only [keep, h, ha, and_self]

-- The same project is answered again, but only if it contains the directory it is found without
-- being made.
theorem loadFor_again (h : (ofRegistry r trust).loadFor w directory = (.ok (some m), l)) :
    (l.loadFor w directory).1 = .ok (some m) ∧
    (m.project.contains w.cwd directory = true → (l.loadFor w directory).2 = l) ∧
    ∃ o, Owned w r trust directory o m.project ∧
      (m.project.contains w.cwd directory = false →
        ∃ run : LoaderRun, (l.loadFor w directory).2.runs = l.runs ++ [run] ∧
          run.type.name = o.type.name ∧ run.directory = w.absoluteText o.root) := by
  have hres : resolve w trust r directory = .ok (some m.project) := by
    rw [← outcome_fresh, outcome, h]
    rfl
  obtain ⟨o, ho⟩ := owned_of_resolve hres
  obtain ⟨hm, hl⟩ := Prod.mk.inj <| h.symm.trans (ho.loadFor_eq (l := ofRegistry r trust) rfl)
  have hm : m = ⟨0, m.project⟩ := Option.some.inj (Except.ok.inj hm)
  have hp : l.projects = [m] := by rw [hl, hm]; rfl
  have hr : l.registry = r.afterOwner w directory ∧ l.trust = trust := by rw [hl]; exact ⟨rfl, rfl⟩
  cases hc : m.project.contains w.cwd directory
  case true =>
    -- The list has the project, so no type is asked.
    have hf := loadFor_of_found ho.reaches (hp ▸ find_singleton hc)
    rw [hf]
    exact ⟨rfl, fun _ => rfl, o, ho, by simp⟩
  case false =>
    -- The same type is found and run again, but the list keeps what it has for that root.
    obtain ⟨o', ho', hs⟩ := ho.again
    rw [← hr.left, ← hr.right] at ho'
    obtain ⟨hk, hruns⟩ := keep_of_kept (l := l.ranFor w directory o') hp
    rw [ho'.loadFor_eq (hp ▸ find_singleton_eq_none hc), hk]
    refine ⟨rfl, by simp, o, ho, fun _ => ⟨⟨o'.type, w.absoluteText o'.root⟩, hruns, ?_, ?_⟩⟩
    case refine_1 => exact Owner.name_eq_of_consulted hs
    case refine_2 => exact congrArg w.absoluteText (Owner.root_eq_of_consulted hs)

theorem load_of_make {t : ProjectType} {root : String} {p : Project}
    (h : make w trust t root = .ok p) : t.load w root = .ok (some p) := by
  unfold make at h
  split at h
  case isFalse => cases h
  case isTrue =>
    split at h
    case h_1 => cases h
    case h_2 => cases h
    case h_3 hl => exact Except.ok.inj h ▸ hl

-- Among the types that are known from the start, only one that follows links can make a project
-- that does not contain the directory, and only for a directory that links lead away from.
theorem loadFor_builtin_again (hw : Path.isAbsolute w.cwd = true)
    (h : (ofRegistry .builtin trust).loadFor w directory = (.ok (some m), l)) :
    let again := l.loadFor w directory
    again.1 = .ok (some m) ∧
    (m.project.contains w.cwd directory = true → again.2 = l) ∧
    ∃ o, Owned w .builtin trust directory o m.project ∧
      ((Registry.FollowsLinks o.type → ProjectType.NoLinks w (w.absolute directory)) →
        m.project.contains w.cwd directory = true) ∧
      (m.project.contains w.cwd directory = false →
        ∃ run : LoaderRun, again.2.runs = l.runs ++ [run] ∧ run.type.name = o.type.name ∧
          run.directory = w.absoluteText o.root) := by
  obtain ⟨hm, hc, o, ho, hr⟩ := loadFor_again h
  exact ⟨hm, hc, o, ho, Registry.contains_of_builtin hw ho.owner (load_of_make ho.made), hr⟩

open FileTree ProjectType Registry

def built : FileTree :=
  .directory .full [(Automake.fileName.toList, .file (.text "") false)]

def linked : World :=
  { World.bare with files := .directory .full [(['r'], built), (['l'], .link "r")] }

def trusting : Trust :=
  ⟨[], fun _ => true⟩

abbrev automake : ProjectType :=
  Registry.marked "automake" Automake.fileName false (Recipe.automake.load [])

theorem reaches_linked (s : String) : linked.reaches s = true :=
  World.reaches_of_hasCwd rfl s

theorem names_linked :
    (Path.names ['l'] = true ∧ ['l'] ≠ Path.up) ∧ Path.names ['r'] = true ∧ ['r'] ≠ Path.up := by
  decide

theorem children_linked :
    (linked.files.atEnd []).child? ['l'] = some (.link "r") ∧
    (linked.files.atEnd []).child? ['r'] = some built :=
  ⟨rfl, rfl⟩

theorem goal_linked : goalStart [] "r" = [] ∧ goalParts "r" = [['r']] :=
  ⟨rfl, by decide⟩

theorem follow_linked (place : Place) :
    linked.files.follow maxLinks [] (['l'] :: place) =
      linked.files.follow 39 [(['r'], built)] place := by
  have ⟨⟨hl, hlu⟩, hr, hru⟩ := names_linked
  have ⟨hlc, hrc⟩ := children_linked
  have ⟨hs, hg⟩ := goal_linked
  have hm : maxLinks = 39 + 1 := rfl
  rw [hm, follow_link hl hlu hlc, hs, hg, List.singleton_append, follow_directory hr hru hrc, built]

theorem resolve_linked : linked.resolve "/l" = ⟨1, [['r']]⟩ := by
  have hp : linked.partsOf "/l" = [[], ['l']] := by decide
  have hc : linked.files.countLinks = 1 := rfl
  have hn : Path.names [] = false := rfl
  simp [World.resolve, hp, FileTree.resolve, hc, resolve?, hn, names_linked, children_linked,
    goal_linked, built, placeOf]

theorem toOption_locate_linked {path : String} {place : Place} (h : path.isEmpty = false)
    (ht : World.isTooLong path = false) (hp : linked.partsOf path = [] :: ['l'] :: place)
    (hd : leadsDown place = true) :
    (linked.locate path).toOption = built.find? place := by
  refine Option.ext fun t => ?_
  have hf : (linked.files.follow 39 [(['r'], built)] place).map linked.files.atEnd = .ok t ↔
      built.find? place = some t := follow_eq_ok_iff hd rfl
  rw [← hf]
  have hl : linked.locate path = linked.files.locate (linked.partsOf path) := by
    simp [World.locate, h, ht, reaches_linked]
  rw [hl, hp, FileTree.locate, follow_empty, follow_linked]
  cases linked.files.follow 39 [(['r'], built)] place <;> simp [Except.map, Except.toOption]

theorem detects_linked {t : ProjectType} {name : String} (place : Place)
    (hm : t.marker = some (.file name)) (hn : t.matcher = none) (hf : name.isEmpty = false)
    (ht : World.isTooLong ("/l/" ++ name) = false)
    (hp : linked.partsOf ("/l/" ++ name) = [] :: ['l'] :: place) (hd : leadsDown place = true) :
    t.detects linked "/l" = .ok (built.find? place).isSome := by
  have hs : Path.asDirectory linked.cwd "/l" = "/l/" := by decide
  have he : ("/l/" ++ name).isEmpty = false := by simp [String.isEmpty_eq_false_iff]
  rw [detects_of_file hm hn (reaches_linked _), hf, hs, World.isThere_eq_isSome,
    toOption_locate_linked he ht hp hd]
  rfl

theorem detects_linked_above : automake.detects linked "/" = .ok false := by
  have hp : linked.partsOf "/Makefile.am" = [[], Automake.fileName.toList] := by decide
  have hn : Path.names Automake.fileName.toList = true := by decide
  have hl : linked.locate "/Makefile.am" = .error .noEntry := by
    rw [World.locate_of_isAbsolute rfl (by decide), hp, FileTree.locate, follow_empty,
      follow_absent hn (by decide) rfl rfl]
    rfl
  have ht : linked.isThere "/Makefile.am" = false := by rw [World.isThere, hl]
  rw [detects_of_file rfl rfl (reaches_linked _)]
  exact congrArg (fun b => Except.ok (_ && b)) ht

theorem automakeMarker_linked : BuildDescription.automakeMarker linked "/l/" = none := by
  have hp : (BuildDescription.path "/l/").text = "/l/Project.ede" := by decide
  have hl : linked.partsOf "/l/Project.ede" = [[], ['l'], "Project.ede".toList] := by
    decide
  have h := toOption_locate_linked (by decide) (by decide) hl (by decide)
  cases ht : linked.locate "/l/Project.ede"
  case ok      => rw [ht] at h; cases h
  case error e =>
    delta BuildDescription.automakeMarker
    rw [hp, World.read, ht]

theorem detect_linked : Registry.builtin.detect linked "/l" = .ok (some automake) := by
  have hs : Path.asDirectory linked.cwd "/l" = "/l/" := by decide
  have hf : (described "edeproject-automake"
      (.found fun w directory => .ok (.ofText? (BuildDescription.automakeMarker w directory)))
      "Makefile.am").detects linked "/l" = .ok false := by
    rw [detects, World.about_of_reaches (reaches_linked _), hs]
    simp only [isIn, isPlaced, isMarked, markerName, described, marked, automakeMarker_linked]
    rfl
  have hb : (described "edeproject-makefile" (.file BuildDescription.fileName)
      "Makefile").detects linked "/l" = .ok false :=
    detects_linked [BuildDescription.fileName.toList] rfl rfl (by decide) (by decide)
      (by decide) (by decide)
  have ha : automake.detects linked "/l" = .ok true :=
    detects_linked [Automake.fileName.toList] rfl rfl (by decide) (by decide)
      (by decide) (by decide)
  rw [detect, World.about_of_reaches (reaches_linked _), builtin_types, specificTypes]
  simp only [List.cons_append, firstIn, hf, hb, ha]

theorem owner_linked : Registry.builtin.owner linked "/l" = .ok (some ⟨automake, "/l"⟩) := by
  have ha : linked.absoluteText "/l" = "/l" := by decide
  have hab : above linked "/l" = ["/"] := by decide
  have hr : automake.rootOf linked "/l" = .ok "/l" := by
    rw [rootOf, World.about_of_reaches (reaches_linked _), ha]
    have hm : automake.markedRoot linked "/l" = automake.rise linked "/l" ["/"] := hab ▸ rfl
    have hf : automake.rootFinder = none := rfl
    simp only [hf, hm, rise, detects_linked_above]
  have hg : automake.isGeneric = false := rfl
  rw [owner, World.about_of_reaches (reaches_linked _), ha, ownerOf, detect_linked]
  simp only [hg, ownedBy, hr]
  rfl

theorem locate_linked {path : String} {place : Place} {t : FileTree}
    (ha : Path.isAbsolute path = true) (ht : World.isTooLong path = false)
    (hp : linked.partsOf path = [] :: ['r'] :: place) (hd : leadsDown place = true)
    (hf : built.find? place = some t) : linked.locate path = .ok t := by
  have ⟨_, hr, hru⟩ := names_linked
  rw [World.locate_of_isAbsolute ha ht, hp, FileTree.locate, follow_empty,
    follow_directory hr hru children_linked.right]
  exact (follow_eq_ok_iff hd rfl).mpr hf

def silent : Automake.Makefile :=
  ⟨⟨1, [['r']]⟩, ⟨1, [['r']]⟩, Automake.bindings ""⟩

def found : Project :=
  Automake.project linked.cwd ⟨1, [['r']]⟩ [silent]

theorem load_linked : Automake.load linked "/l" = .ok found := by
  have ht : (⟨1, [['r']]⟩ : Path).text = "/r" := by decide
  have hr : linked.resolved "/l" = .ok ⟨1, [['r']]⟩ := by
    have hl : linked.locate "/r" = .ok built := locate_linked rfl (by decide) rfl rfl rfl
    rw [World.resolved, World.about_of_reaches (reaches_linked _), resolve_linked, ht, hl]
  have hm : Automake.makefiles linked ⟨1, [['r']]⟩ = .ok [silent] := by
    have hp : ((⟨1, [['r']]⟩ : Path).append Automake.fileName).text = "/r/Makefile.am" := by
      decide
    have hl : linked.locate "/r/Makefile.am" = .ok (.file (.text "") false) :=
      have hp : linked.partsOf "/r/Makefile.am" = [[], ['r'], Automake.fileName.toList] := by
        decide
      locate_linked (by decide) (by decide) hp (by decide) rfl
    have hread : Automake.Makefile.read? linked ⟨1, [['r']]⟩ ⟨1, [['r']]⟩ = some silent := by
      rw [Automake.Makefile.read?, hp, World.read_of_file hl (by decide), silent]
    have hn : silent.visits 1 = [] := by
      have hw : silent.subdirectories = [] := by decide
      rw [Automake.Makefile.visits, hw]
      rfl
    rw [Automake.makefiles, hread]
    simp only [hn, Automake.walk]
    rfl
  have hl : (Automake.makefiles linked ⟨1, [['r']]⟩).map
      (Automake.project linked.cwd ⟨1, [['r']]⟩) = .ok found :=
    congrArg (Except.map _) hm
  rw [Automake.load, hr]
  exact hl

theorem owned_linked : Owned linked .builtin trusting "/l" ⟨automake, "/l"⟩ found where
  reaches     := reaches_linked _
  owner       := owner_linked
  reachesRoot := reaches_linked _
  made        := by
    have ha : linked.absoluteText "/l" = "/l" := by decide
    have hl : automake.load linked "/l" = .ok (some found) :=
      congrArg (Except.map some) load_linked
    rw [ha, make, hl]
    rfl

-- The makefile is looked for where the link leads, so the project is found in vain.
theorem loadFor_linked :
    ∃ m l, (ofRegistry .builtin trusting).loadFor linked "/l" = (.ok (some m), l) ∧
      (l.loadFor linked "/l").1 = .ok (some m) ∧ m.project.root = "/r" ∧
      m.project.contains linked.cwd "/l" = false ∧ (l.loadFor linked "/l").2 ≠ l := by
  have h := owned_linked.loadFor_eq (l := ofRegistry .builtin trusting) rfl
  obtain ⟨hm, _, o, ho, _, hr⟩ := loadFor_builtin_again (by decide) h
  have hroot : found.root = "/r" := by
    rw [found, Automake.project, Project.settle_root]
    decide
  have hc : found.contains linked.cwd "/l" = false := by
    rw [Project.contains, hroot]
    decide
  obtain ⟨run, hruns, _⟩ := hr hc
  refine ⟨_, _, h, hm, hroot, hc, fun he => ?_⟩
  rw [he] at hruns
  exact List.cons_ne_nil run [] (List.append_right_eq_self.mp hruns.symm)

end Loader
end SourceFlags
