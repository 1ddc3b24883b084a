import SourceFlags.Proofs.Automake.Walk
import SourceFlags.Proofs.Project.Contains
import SourceFlags.Proofs.Project.Operands
import SourceFlags.Proofs.World.Steady

namespace SourceFlags

open Text SourceFlags.Path Project

namespace Path

theorem exists_normalText {a : String} (h : isAbsolute a = true) (s : String) :
    ∃ p : Path, p.Settled ∧ normalText (joinText a s) = p.text :=
  ⟨_, absolute_settled h s, rfl⟩

theorem Settled.text_isEmpty {p : Path} (h : p.Settled) : p.text.isEmpty = false := by
  refine Bool.eq_false_iff.mpr fun he => ?_
  have ha := h.isAbsolute_text
  rw [String.isEmpty_iff.mp he] at ha
  contradiction

end Path

namespace Project

theorem rootOf_text {p : Path} (h : p.Settled) (hl : p.lead = 1) (cwd : String) :
    rootOf cwd p.text = p.text := by
  have hc : rootOf cwd p.text = rootOf "/" p.text := by
    simp only [rootOf, absoluteText, h.absolute_text]
  rw [hc, rootOf_eq (by decide), place, h.absolute_text]
  split
  case isFalse   => rfl
  case isTrue hn => exact congrArg Path.text <| Path.ext hl.symm hn.symm

end Project

namespace Automake

def Makefile.Names (m : Makefile) (t : Target) (file : String) : Prop :=
  ∃ s ∈ t.sources, normalText (joinText m.directory.text s) = file

def definitions (ms : List Makefile) : List (Makefile × Target) :=
  ms.flatMap fun m => m.targets.map (m, ·)

def IsFirstFor (ms : List Makefile) (file : String) (x : Makefile × Target) : Prop :=
  x.1.Names x.2 file ∧ ∃ before after, definitions ms = before ++ x :: after ∧
    ∀ y ∈ before, ¬y.1.Names y.2 file

def Makefile.flags (m : Makefile) (names : List String) : List String :=
  (names.flatMap m.wordsOf).filter fun word =>
    "-I".toList.isPrefixOf word.toList || "-D".toList.isPrefixOf word.toList

variable {w : World} {root : Path} {m : Makefile} {ms : List Makefile} {t : Target}
variable {x : Makefile × Target} {names : List String} {name file path : String}

theorem Makefile.flags_cons (m : Makefile) (name : String) (names : List String) :
    m.flags (name :: names) = flagWords ((m.value? name).getD "") ++ m.flags names := by
  rw [flagWords_eq, flags, List.flatMap_cons, List.filter_append]
  rfl

theorem Makefile.flatMap_valuesOf (m : Makefile) (names : List String) :
    (m.valuesOf names).flatMap (fun (_, value) => flagWords value) = m.flags names := by
  induction names
  case nil => rfl
  case cons name names hi =>
    have he : flagWords "" = [] := by decide
    rw [flags_cons, ← hi, valuesOf, List.filterMap_cons]
    cases m.value? name
    case none       => rw [Option.getD_none, he]; rfl
    case some value => rfl

theorem Makefile.ofText_place (hd : m.directory.Clean) :
    ofText m.place = relative m.root m.directory := by
  unfold place
  extract_lets way
  split
  case isFalse   => exact ofText_text (relative_clean hd m.root)
  case isTrue hn => exact Path.ext rfl (List.isEmpty_iff.mp hn).symm

theorem Makefile.place_eq_empty_iff (hd : m.directory.Clean)
    (hl : m.root.lead = m.directory.lead) : m.place = "" ↔ m.directory = m.root := by
  have hp := relative_parts_eq_nil_iff (p := m.root) (q := m.directory)
  constructor
  case mp =>
    intro h
    have ht := ofText_place hd
    rw [h] at ht
    exact Path.ext hl.symm (hp.mp <| congrArg Path.parts ht.symm).symm
  case mpr =>
    intro h
    have hn := hp.mpr <| congrArg Path.parts h.symm
    simp [place, hn]

theorem names_iff (hd : m.directory.Settled) (hr : m.root.Settled)
    (hl : m.root.lead = m.directory.lead) (hp : t.path = m.place) :
    t.names m.root.text file = true ↔ m.Names t file := by
  have hs : ∀ s, normalText (joinText (joinText m.root.text t.path) s) =
      normalText (joinText m.directory.text s) := fun s =>
    normalText_relative hr hd hl (hp ▸ Makefile.ofText_place hd.toClean)
  simp only [Target.names, Target.files, hs, List.contains_iff_mem, List.mem_map]
  rfl

theorem map_definitions (ms : List Makefile) :
    (definitions ms).map (·.2) = ms.flatMap Makefile.targets := by
  simp [definitions, List.map_flatMap, Function.comp_def]

theorem mem_definitions : x ∈ definitions ms ↔ x.1 ∈ ms ∧ x.2 ∈ x.1.targets := by
  obtain ⟨m, t⟩ := x
  simp only [definitions, List.mem_flatMap, List.mem_map]
  constructor
  case mp =>
    rintro ⟨_, hm, _, ht, he⟩
    cases he
    exact ⟨hm, ht⟩
  case mpr => exact fun ⟨hm, ht⟩ => ⟨m, hm, t, ht, rfl⟩

-- Where targets name what the project takes them to name, it finds the first that names a file.
theorem exists_isFirstFor (hx : x ∈ definitions ms) (hf : x.1.Names x.2 file)
    (h : ∀ y ∈ definitions ms, y.2.names root.text file = true ↔ y.1.Names y.2 file) :
    ∃ y, IsFirstFor ms file y ∧
      (ms.flatMap Makefile.targets).find? (·.names root.text file) = some y.2 := by
  rw [← map_definitions, List.find?_map]
  cases hy : (definitions ms).find? ((·.names root.text file) ∘ (·.2))
  case none   => exact absurd ((h x hx).mpr hf) (List.find?_eq_none.mp hy x hx)
  case some y =>
    have ⟨hn, before, after, hs, hb⟩ := List.find?_eq_some_iff_append.mp hy
    have hm : ∀ z ∈ before ++ y :: after, z ∈ definitions ms := hs ▸ fun _ hz => hz
    refine ⟨y, ⟨(h y <| hm y (by simp)).mp hn, before, after, hs, fun z hz hc => ?_⟩, rfl⟩
    have hf := (h z <| hm z (by simp [hz])).mpr hc
    simpa [hf] using hb z hz

theorem path_of_mem_targets (h : t ∈ m.targets) : t.path = m.place := by
  have ⟨_, _, ht⟩ := List.mem_map.mp h
  exact ht ▸ rfl

theorem root_project (hr : root.Settled) (hl : root.lead = 1) (cwd : String)
    (all : List Makefile) : (project cwd root all).root = root.text := by
  rw [project, settle_root]
  exact rootOf_text hr hl cwd

theorem targetFor_project {p : Path} (hr : root.Settled) (hl : root.lead = 1) (hp : p.Settled)
    (cwd : String) (all : List Makefile) :
    (project cwd root all).targetFor cwd p.text =
      .ok ((all.flatMap Makefile.targets).find? (·.names root.text p.text)) := by
  have ht : (project cwd root all).targets = .known (all.flatMap Makefile.targets) := rfl
  rw [targetFor, ht, root_project hr hl, absoluteText, hp.absolute_text]
  rfl

theorem arguments_described {p : Project} {cwd : String} {own : Bindings} {cs : Configurations}
    {configuration : String} {target : Option Target}
    (hv : p.variant = .described own cs configuration) (hf : file.isEmpty = false)
    (ht : p.targetFor cwd file = .ok target) :
    p.arguments cwd .bySource (some file) =
      .ok (p.describedArguments own cs configuration target) := by
  have hs : (some file).filter (!·.isEmpty) = some file := by simp [hf]
  have hc : Choice.bySource.target cwd p (some file) = .ok target := ht
  simp only [arguments, hs, hv, hc]
  rfl

theorem arguments_project {first : Makefile} {cwd : String} (hr : root.Settled)
    (hl : root.lead = 1) (hh : ms.head? = some first) (hm : t ∈ m.targets)
    (hf : file.isEmpty = false)
    (hp : (project cwd root ms).targetFor cwd file = .ok (some t)) :
    (project cwd root ms).arguments cwd .bySource (some file) =
      .ok (includeFlag root.text ::
        (first.flags Makefile.directoryFlagNames ++
          (if m.place = "" then [] else m.flags Makefile.directoryFlagNames) ++
          m.flags (Makefile.targetFlagSuffixes.map (canonicalName t.name ++ ·)))) := by
  have hv : (project cwd root ms).variant =
      .described first.directoryFlags [] configuration := by
    have hp : (project cwd root ms).variant =
        .described ((ms.head?.map Makefile.directoryFlags).getD []) [] configuration := rfl
    rw [hp, hh]
    rfl
  have hc : t.configurations.bindings configuration = m.sharedFlags ++ m.targetFlags t.name := by
    have ⟨_, _, ht⟩ := List.mem_map.mp hm
    simp [← ht, Makefile.target, Configurations.bindings, Table.get?]
  have hn : Configurations.bindings [] configuration = [] := rfl
  have hs : m.sharedFlags.flatMap (fun (_, value) => flagWords value) =
      if m.place = "" then [] else m.flags Makefile.directoryFlagNames := by
    by_cases hp : m.place = ""
    case pos => simp [Makefile.sharedFlags, hp]
    case neg => simp only [Makefile.sharedFlags, String.isEmpty_iff, if_neg hp,
      Makefile.directoryFlags, Makefile.flatMap_valuesOf]
  rw [arguments_described hv hf hp, describedArguments, root_project hr hl]
  simp only [Option.map_some, Option.getD_some, hc, hn, List.append_nil, List.flatMap_append,
    hs, Makefile.directoryFlags, Makefile.targetFlags, Makefile.flatMap_valuesOf, List.append_assoc]

-- All targets of a project that is made of a tree are found by their files, the first before the
-- others. No directory of a real tree is named by two dots.
theorem load_flags {p : Project} (hn : ∀ place ∈ w.files.directories, up ∉ place)
    (h : load w path = .ok p) :
    let root := w.resolve path
    ∃ all, makefiles w root = .ok all ∧
    p.targets = .known ((definitions all).map (·.2)) ∧
    ∀ m ∈ all, ∀ t ∈ m.targets, ∀ s ∈ t.sources,
      let file := normalText (joinText m.directory.text s)
      (∃ x, IsFirstFor all file x ∧ p.targetFor w.cwd file = .ok (some x.2)) ∧
      (p.targetFor w.cwd file = .ok (some t) →
        ∃ first, Makefile.read? w root root = some first ∧
          p.arguments w.cwd .bySource (some file) = .ok (includeFlag root.text ::
            (first.flags Makefile.directoryFlagNames ++
              (if m.directory = root then [] else m.flags Makefile.directoryFlagNames) ++
              m.flags (Makefile.targetFlagSuffixes.map (canonicalName t.name ++ ·))))) := by
  intro root
  obtain ⟨all, hall, rfl⟩ := exists_of_load h
  have hp : w.resolve root.text = root := w.resolve_resolve path
  refine ⟨all, hall, congrArg Targets.known (map_definitions all).symm, ?_⟩
  intro m hm t ht s hs file
  have ⟨first, hh, hread, hd⟩ := head?_makefiles hp hall hm
  have hr : root.Settled := ⟨w.resolve_clean path, Nat.one_ne_zero, hn _ hd⟩
  have ⟨he, hmd, hl⟩ := settled_of_mem_makefiles hp hn hall hm
  have hnames : m.Names t file := ⟨s, hs, rfl⟩
  obtain ⟨q, hq, hfile⟩ := exists_normalText hmd.isAbsolute_text s
  have hfile : file = q.text := hfile
  clear_value file
  subst hfile
  refine ⟨?found, fun hp => ⟨first, hread, ?flags⟩⟩
  case found =>
    -- The project looks for sources by paths as seen from the root; they mean the same files.
    have hi : ∀ y ∈ definitions all,
        y.2.names root.text q.text = true ↔ y.1.Names y.2 q.text := by
      intro y hy
      have ⟨hy₁, hy₂⟩ := mem_definitions.mp hy
      have ⟨he, hd, hl⟩ := settled_of_mem_makefiles hp hn hall hy₁
      exact he ▸ names_iff hd (he ▸ hr) hl (path_of_mem_targets hy₂)
    have ⟨x, hx, hf⟩ := exists_isFirstFor (x := (m, t)) (mem_definitions.mpr ⟨hm, ht⟩) hnames hi
    exact ⟨x, hx, (targetFor_project hr rfl hq w.cwd all).trans (congrArg _ hf)⟩
  case flags =>
    have hc := Makefile.place_eq_empty_iff hmd.toClean hl
    rw [he] at hc
    refine (arguments_project hr rfl hh ht hq.text_isEmpty hp).trans ?_
    simp only [hc]

def topText : String :=
  "SUBDIRS = s\nAM_CFLAGS = -It -O\n"

def subText : String :=
  "bin_PROGRAMS = p\np_SOURCES = ../x.c\nDEFS = -Ds\np_CPPFLAGS = -Ip\n"

def nested : World :=
  { World.bare with
    files := .directory .full
      [(fileName.toList, .file (.text topText) false),
       (['s'], .directory .full [(fileName.toList, .file (.text subText) false)])] }

def topMakefile : Makefile :=
  ⟨⟨1, []⟩, ⟨1, []⟩, bindings topText⟩

def subMakefile : Makefile :=
  ⟨⟨1, []⟩, ⟨1, [['s']]⟩, bindings subText⟩

def program : Target :=
  ⟨"p", "s", ["../x.c"], [(configuration, [("DEFS", "-Ds"), ("p_CPPFLAGS", "-Ip")])]⟩

theorem locate_nested {path : String} {place : Place} {u : FileTree} (h : isAbsolute path = true)
    (ht : World.isTooLong path = false) (he : nested.partsOf path = [] :: place)
    (hp : FileTree.leadsDown place = true) (hf : nested.files.find? place = some u) : nested.locate path = .ok u :=
  (World.locate_eq_ok_iff h ht he hp (by decide)).mpr hf

theorem read?_nested :
    Makefile.read? nested ⟨1, []⟩ ⟨1, []⟩ = some topMakefile ∧
    Makefile.read? nested ⟨1, []⟩ ⟨1, [['s']]⟩ = some subMakefile := by
  constructor
  case left =>
    have hp : nested.partsOf "/Makefile.am" = [[], fileName.toList] := rfl
    have hl : nested.locate "/Makefile.am" = .ok (.file (.text topText) false) :=
      locate_nested (by decide) (by decide) hp (by decide) rfl
    have ht : ((⟨1, []⟩ : Path).append fileName).text = "/Makefile.am" := by decide
    rw [Makefile.read?, ht, World.read_of_file hl (by decide)]
    rfl
  case right =>
    have hp : nested.partsOf "/s/Makefile.am" = [[], ['s'], fileName.toList] := rfl
    have hl : nested.locate "/s/Makefile.am" = .ok (.file (.text subText) false) :=
      locate_nested (by decide) (by decide) hp (by decide) rfl
    have ht : ((⟨1, [['s']]⟩ : Path).append fileName).text = "/s/Makefile.am" := by decide
    rw [Makefile.read?, ht, World.read_of_file hl (by decide)]
    rfl

theorem resolve_nested : nested.resolve (⟨1, [['s']]⟩ : Path).text = ⟨1, [['s']]⟩ := by
  have hp : nested.partsOf (⟨1, [['s']]⟩ : Path).text = [[], ['s']] := rfl
  exact World.resolve_eq hp (by decide) (by decide)

theorem checkFile_nested : nested.checkFile "/s/Makefile.am" = .ok true := by
  have hp : nested.partsOf "/s/Makefile.am" = [[], ['s'], fileName.toList] := rfl
  rw [World.checkFile_eq_true_iff,
    World.isFile_eq (by decide) (by decide) hp (by decide) (by decide)]
  rfl

theorem makefiles_nested : makefiles nested ⟨1, []⟩ = .ok [topMakefile, subMakefile] := by
  have ⟨htop, hsub⟩ := read?_nested
  have hd : topMakefile.visits 1 = [⟨⟨1, [['s']]⟩, 1⟩] := by
    have hw : topMakefile.subdirectories = [⟨1, [['s']]⟩] := by decide
    rw [Makefile.visits, hw]
    rfl
  have hn : subMakefile.visits 2 = [] := by
    have hw : subMakefile.subdirectories = [] := by decide
    rw [Makefile.visits, hw]
    rfl
  have he : Visit.enter nested ⟨⟨1, [['s']]⟩, 1⟩ = .ok (some ⟨1, [['s']]⟩) := by
    have hc : (⟨1, [['s']]⟩ : Path).Clean := resolve_nested ▸ nested.resolve_clean _
    have ht : ((⟨1, [['s']]⟩ : Path).append fileName).text = "/s/Makefile.am" := by decide
    rw [Visit.enter_of_isThere hc (by decide) (ht ▸ checkFile_nested) (by decide), resolve_nested]
  rw [makefiles, htop]
  simp only [hd]
  rw [walk_read he (by decide) hsub, hn, List.append_nil, walk_nil]
  rfl

theorem load_nested :
    load nested "/" = .ok (project nested.cwd ⟨1, []⟩ [topMakefile, subMakefile]) := by
  have hm : (makefiles nested ⟨1, []⟩).map (project nested.cwd ⟨1, []⟩) = _ :=
    congrArg (Except.map _) makefiles_nested
  rw [load, nested.resolved_top]
  exact hm

theorem load_flags_nested :
    (∀ place ∈ nested.files.directories, up ∉ place) ∧
    ∃ p, load nested "/" = .ok p ∧
      p.targetFor nested.cwd "/x.c" = .ok (some program) ∧
      p.arguments nested.cwd .bySource (some "/x.c") = .ok ["-I/", "-It", "-Ds", "-Ip"] := by
  have hn : ∀ place ∈ nested.files.directories, up ∉ place := by decide
  have ht : topMakefile.targets = [] := by decide
  have hs : subMakefile.targets = [program] := by decide
  have hf : normalText (joinText subMakefile.directory.text "../x.c") = "/x.c" := by decide
  obtain ⟨all, hall, _, h⟩ := @load_flags nested "/" _ hn load_nested
  rw [nested.resolve_top] at hall h
  cases makefiles_nested.symm.trans hall
  have ⟨⟨x, hx, hp⟩, hg⟩ :=
    h subMakefile (by simp) program (by simp [hs]) "../x.c" (by simp [program])
  rw [hf] at hp hg
  have hx : x = (subMakefile, program) := by
    have ⟨_, _, _, hd, _⟩ := hx
    have hd : x ∈ definitions [topMakefile, subMakefile] := by simp [hd]
    simpa [definitions, ht, hs] using hd
  rw [hx] at hp
  have ⟨first, hfirst, hg⟩ := hg hp
  have hfirst : first = topMakefile := Option.some.inj (hfirst.symm.trans read?_nested.left)
  refine ⟨hn, _, load_nested, hp, hg.trans ?_⟩
  rw [hfirst]
  decide

end Automake
end SourceFlags
