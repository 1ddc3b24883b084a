import SourceFlags.Proofs.Path.Above
import SourceFlags.Proofs.Registry.Tiers
import SourceFlags.Proofs.World.Places
import SourceFlags.Proofs.World.Steady
import SourceFlags.Registry.Owner

namespace SourceFlags

open SourceFlags.Path

namespace World

variable {w : World}

theorem reaches_absoluteText (h : isAbsolute w.cwd = true) (s : String) :
    w.reaches (w.absoluteText s) = true := by
  have ha : isAbsolute (w.absoluteText s) = true := (absolute_settled h s).isAbsolute_text
  simp [reaches, ha]

end World

namespace ProjectType

variable {w : World} {t : ProjectType} {ts : List ProjectType} {directory : String}

def Answers (w : World) (t : ProjectType) : Prop :=
  ∀ directory, w.reaches directory = true → ∃ found, t.detects w directory = .ok found

def FindsRoots (w : World) (t : ProjectType) : Prop :=
  ∀ find, t.rootFinder = some find → ∀ directory,
    ∃ root, find w directory = .ok root ∧ ∀ s, root = some s → w.reaches s = true

def IsFound (w : World) (directory : String) (t : ProjectType) : Prop :=
  t.detects w directory = .ok true

def NoneIn (w : World) (directory : String) (ts : List ProjectType) : Prop :=
  ∀ t ∈ ts, ¬t.IsFound w directory

def FirstIn (w : World) (directory : String) (ts : List ProjectType) (t : ProjectType) : Prop :=
  t.IsFound w directory ∧ ∃ before after, ts = before ++ t :: after ∧ NoneIn w directory before

def isFound (w : World) (directory : String) (t : ProjectType) : Bool :=
  match t.detects w directory with
  | .ok found => found
  | .error _  => false

def find (w : World) (directory : String) (ts : List ProjectType) : Option ProjectType :=
  ts.find? (·.isFound w directory)

theorem isFound_iff : t.isFound w directory = true ↔ t.IsFound w directory := by
  unfold isFound IsFound
  split <;> simp_all

theorem FirstIn.mem (h : FirstIn w directory ts t) : t ∈ ts := by
  have ⟨_, before, after, hs, _⟩ := h
  simp [hs]

theorem find_eq_none_iff : find w directory ts = none ↔ NoneIn w directory ts := by
  simp [find, NoneIn, ← isFound_iff]

theorem find_eq_some_iff : find w directory ts = some t ↔ FirstIn w directory ts t := by
  simp [find, FirstIn, NoneIn, ← isFound_iff, List.find?_eq_some_iff_append]

theorem firstIn_eq_find (ha : ∀ t ∈ ts, t.Answers w) (hd : w.reaches directory = true) :
    Registry.firstIn w directory ts = .ok (find w directory ts) := by
  induction ts
  case nil => rfl
  case cons t ts hi =>
    have ⟨ht, hts⟩ := List.forall_mem_cons.mp ha
    have ⟨found, hf⟩ := ht directory hd
    cases found
    case true  => simp [Registry.firstIn, find, isFound, hf]
    case false =>
      rw [Registry.firstIn, hf, hi hts]
      simp [find, isFound, hf]

theorem firstAmong_eq_findSome (ha : ∀ t ∈ ts, t.Answers w) {ds : List String}
    (hd : ∀ d ∈ ds, w.reaches d = true) :
    Registry.firstAmong w ts ds = .ok (ds.findSome? fun d => (find w d ts).map (·, d)) := by
  induction ds
  case nil => rfl
  case cons d ds hi =>
    have ⟨hd, hds⟩ := List.forall_mem_cons.mp hd
    rw [Registry.firstAmong, firstIn_eq_find ha hd, hi hds]
    cases h : find w d ts <;> simp [h]

theorem find_of_generic_last
    (h : ts.Pairwise fun t u => t.isGeneric = true → u.isGeneric = true) :
    find w directory ts =
      (find w directory (ts.filter (!·.isGeneric))).or
        (find w directory (ts.filter (·.isGeneric))) := by
  induction ts
  case nil => rfl
  case cons t ts hi =>
    have ⟨ht, hts⟩ := List.pairwise_cons.mp h
    cases hg : t.isGeneric
    case true =>
      have hs : ts.filter (!·.isGeneric) = [] := by simpa using fun u hu => ht u hu hg
      have hk : ts.filter (·.isGeneric) = ts := List.filter_eq_self.mpr fun u hu => ht u hu hg
      simp [hg, hs, hk, find]
    case false =>
      cases hf : t.isFound w directory
      case true  => simp [find, hg, hf]
      case false => simpa [find, hg, hf] using hi hts

theorem detects_absoluteText (hw : isAbsolute w.cwd = true) (hd : w.reaches directory = true) :
    t.detects w (w.absoluteText directory) = t.detects w directory := by
  rw [detects, detects, World.about_of_reaches hd,
    World.about_of_reaches (World.reaches_absoluteText hw directory)]
  exact congrArg (t.isIn w) <| asDirectory_absoluteText hw directory

theorem find_absoluteText (hw : isAbsolute w.cwd = true) (hd : w.reaches directory = true) :
    find w (w.absoluteText directory) ts = find w directory ts := by
  simp only [find, isFound, detects_absoluteText hw hd]

theorem rootOf_absoluteText (hw : isAbsolute w.cwd = true) (hd : w.reaches directory = true) :
    t.rootOf w (w.absoluteText directory) = t.rootOf w directory := by
  have ha : w.absoluteText (w.absoluteText directory) = w.absoluteText directory :=
    absoluteText_absoluteText hw directory
  rw [rootOf, rootOf, World.about_of_reaches hd,
    World.about_of_reaches (World.reaches_absoluteText hw directory), ha]

theorem reaches_above (hw : isAbsolute w.cwd = true) {d : String} (h : d ∈ above w directory) :
    w.reaches d = true := by
  have ⟨a, hm, hd⟩ := List.mem_map.mp h
  have hs := (mem_ancestors_iff.mp hm).settled (absolute_settled hw directory)
  simp [World.reaches, ← hd, hs.isAbsolute_text]

theorem rise_ok (ha : t.Answers w) {ds : List String} (hd : ∀ d ∈ ds, w.reaches d = true)
    (current : String) : ∃ root, t.rise w current ds = .ok root := by
  induction ds generalizing current
  case nil => exact ⟨current, rfl⟩
  case cons d ds hi =>
    have ⟨hd, hds⟩ := List.forall_mem_cons.mp hd
    have ⟨found, hf⟩ := ha d hd
    cases found
    case false => exact ⟨current, by rw [rise, hf]⟩
    case true =>
      have ⟨root, hr⟩ := hi hds d
      exact ⟨root, by rw [rise, hf, hr]⟩

theorem rootOf_ok (hw : isAbsolute w.cwd = true) (hd : w.reaches directory = true)
    (ha : t.Answers w) (hr : t.FindsRoots w) : ∃ root, t.rootOf w directory = .ok root := by
  have hm : ∃ root, t.markedRoot w (w.absoluteText directory) = .ok root := by
    unfold markedRoot
    split
    case isTrue  => exact ⟨_, rfl⟩
    case isFalse => exact rise_ok ha (fun _ => reaches_above hw) _
  rw [rootOf, World.about_of_reaches hd]
  cases hf : t.rootFinder
  case none => exact hm
  case some find =>
    have ⟨root, hs, hreach⟩ := hr find hf (w.absoluteText directory)
    cases root
    case none => simpa [hs] using hm
    case some s =>
      by_cases he : s.isEmpty
      case pos => simpa [hs, he] using hm
      case neg => simp [hs, he, World.about_of_reaches (hreach s rfl)]

end ProjectType

namespace Registry

open ProjectType

def specific (r : Registry) : List ProjectType :=
  r.types.filter (!·.isGeneric)

def generic (r : Registry) : List ProjectType :=
  r.types.filter (·.isGeneric)

structure Nearest (r : Registry) (w : World) (directory : String) (t : ProjectType) (a : Path) :
    Prop where
  above   : a.IsAbove (w.absolute directory)
  nearest : ∀ b : Path, b.IsAbove (w.absolute directory) → a.IsAbove b → NoneIn w b.text r.rooted
  first   : FirstIn w a.text r.rooted t

def NoneAbove (r : Registry) (w : World) (directory : String) : Prop :=
  ∀ a : Path, a.IsAbove (w.absolute directory) → NoneIn w a.text r.rooted

-- The type that owns a directory, and the directory where it is found. Each rule only applies where
-- the ones before it do not.
inductive Assigns (r : Registry) (w : World) (directory : String) :
    Option (ProjectType × String) → Prop
  | specific {t : ProjectType} (h : FirstIn w directory r.specific t) :
    Assigns r w directory (some (t, directory))
  | rooted {t : ProjectType} {a : Path} (hs : NoneIn w directory r.specific)
      (h : r.Nearest w directory t a) : Assigns r w directory (some (t, a.text))
  | generic {t : ProjectType} (hs : NoneIn w directory r.specific) (ha : r.NoneAbove w directory)
      (h : FirstIn w directory r.generic t) : Assigns r w directory (some (t, directory))
  | nothing (hs : NoneIn w directory r.specific) (ha : r.NoneAbove w directory)
      (hg : NoneIn w directory r.generic) : Assigns r w directory none

variable {r : Registry} {w : World} {t : ProjectType} {a : Path} {directory : String}

def nearest? (r : Registry) (w : World) (directory : String) : Option (ProjectType × Path) :=
  (w.absolute directory).ancestors.findSome? fun a => (find w a.text r.rooted).map (·, a)

theorem nearest?_eq_none_iff : r.nearest? w directory = none ↔ r.NoneAbove w directory := by
  simp [nearest?, NoneAbove, find_eq_none_iff, mem_ancestors_iff]

theorem nearest?_eq_some_iff :
    r.nearest? w directory = some (t, a) ↔ r.Nearest w directory t a := by
  have ho := ancestors_nearest_first (w.absolute directory)
  constructor
  case mp =>
    intro h
    have ⟨before, b, after, hs, hb, hn⟩ := List.findSome?_eq_some_iff.mp h
    obtain ⟨u, hu, he⟩ := Option.map_eq_some_iff.mp hb
    cases he
    rw [hs] at ho
    have ⟨_, ha, hbefore⟩ := List.pairwise_append.mp ho
    refine ⟨mem_ancestors_iff.mp (by simp [hs]), fun c hc hac => ?_, find_eq_some_iff.mp hu⟩
    -- What lies above the found directory is searched after it.
    have hm : c ∈ before ++ a :: after := hs ▸ mem_ancestors_iff.mpr hc
    cases List.mem_append.mp hm
    case inl hm => exact find_eq_none_iff.mp <| Option.map_eq_none_iff.mp (hn c hm)
    case inr hm =>
      cases hm
      case head   => exact absurd rfl hac.ne
      case tail hm => exact absurd hac <| ((List.pairwise_cons.mp ha).left c hm).not_above
  case mpr =>
    intro h
    have ⟨before, after, hs⟩ := List.append_of_mem <| mem_ancestors_iff.mpr h.above
    rw [hs] at ho
    refine List.findSome?_eq_some_iff.mpr ⟨before, a, after, hs, ?_, fun b hb => ?_⟩
    case refine_1 => rw [find_eq_some_iff.mpr h.first, Option.map_some]
    case refine_2 =>
      have hm : b.IsAbove (w.absolute directory) := mem_ancestors_iff.mp (by simp [hs, hb])
      have hab := (List.pairwise_append.mp ho).right.right b hb a List.mem_cons_self
      rw [find_eq_none_iff.mpr (h.nearest b hm hab), Option.map_none]

def award (w : World) : Option (ProjectType × String) → Except Error (Option Owner)
  | some (t, directory) => (t.rootOf w directory).map fun root => some ⟨t, root⟩
  | none                => .ok none

theorem firstAmong_above (directory : String) (hw : isAbsolute w.cwd = true)
    (ha : ∀ t ∈ r.types, t.Answers w) :
    firstAmong w r.rooted (above w (w.absoluteText directory)) =
      .ok ((r.nearest? w directory).map fun (t, a) => (t, a.text)) := by
  have hp : w.absolute (w.absoluteText directory) = w.absolute directory :=
    absolute_absoluteText hw directory
  have hd : ∀ d ∈ above w directory, w.reaches d = true := fun _ => reaches_above hw
  have hr : ∀ t ∈ r.rooted, t.Answers w := fun t ht => ha t (List.mem_of_mem_filter ht)
  rw [above, hp]
  rw [above] at hd
  rw [firstAmong_eq_findSome hr hd, nearest?, List.findSome?_map, List.map_findSome?]
  simp [Function.comp_def]

theorem detect_absoluteText (hw : isAbsolute w.cwd = true) (hd : w.reaches directory = true)
    (ha : ∀ t ∈ r.types, t.Answers w)
    (hl : r.types.Pairwise fun t u => t.isGeneric = true → u.isGeneric = true) :
    r.detect w (w.absoluteText directory) =
      .ok ((find w directory r.specific).or (find w directory r.generic)) := by
  have hr := World.reaches_absoluteText hw directory
  rw [detect, World.about_of_reaches hr, firstIn_eq_find ha hr, find_absoluteText hw hd,
    find_of_generic_last hl]
  rfl

theorem ownedBy_absoluteText (hw : isAbsolute w.cwd = true) (hd : w.reaches directory = true)
    (t : ProjectType) :
    ownedBy w t (w.absoluteText directory) = award w (some (t, directory)) := by
  rw [ownedBy, rootOf_absoluteText hw hd]
  rfl

theorem isGeneric_of_specific (h : FirstIn w directory r.specific t) : t.isGeneric = false := by
  simpa using List.of_mem_filter h.mem

theorem isGeneric_of_rooted (h : FirstIn w directory r.rooted t) : t.isGeneric = false := by
  have hp := List.of_mem_filter h.mem
  simp only [Bool.and_eq_true, Bool.not_eq_true'] at hp
  exact hp.right

theorem isGeneric_of_generic (h : FirstIn w directory r.generic t) : t.isGeneric = true := by
  simpa using List.of_mem_filter h.mem

theorem owner_of_assigns (hw : isAbsolute w.cwd = true) (hd : w.reaches directory = true)
    (ha : ∀ t ∈ r.types, t.Answers w)
    (hl : r.types.Pairwise fun t u => t.isGeneric = true → u.isGeneric = true)
    {x : Option (ProjectType × String)} (h : r.Assigns w directory x) :
    r.owner w directory = award w x := by
  have hdetect := detect_absoluteText hw hd ha hl
  have habove := firstAmong_above directory hw ha
  have howned := ownedBy_absoluteText hw hd
  rw [owner, World.about_of_reaches hd, ownerOf, hdetect]
  cases h
  case specific t h => simp [find_eq_some_iff.mpr h, isGeneric_of_specific h, howned]
  case rooted t a hs h =>
    -- A generic type in the directory itself gives way to a specific one above.
    have hn := nearest?_eq_some_iff.mpr h
    rw [find_eq_none_iff.mpr hs, Option.none_or]
    cases hg : find w directory r.generic
    case none => simp [ownerAbove, habove, hn, ownedBy, award]
    case some u =>
      simp [isGeneric_of_generic (find_eq_some_iff.mp hg), ownerAbove, habove, hn, ownedBy, award]
  case generic t hs hn h =>
    rw [find_eq_none_iff.mpr hs, Option.none_or, find_eq_some_iff.mpr h]
    simp [isGeneric_of_generic h, ownerAbove, habove, nearest?_eq_none_iff.mpr hn, howned]
  case nothing hs hn hg =>
    rw [find_eq_none_iff.mpr hs, Option.none_or, find_eq_none_iff.mpr hg]
    simp [ownerAbove, habove, nearest?_eq_none_iff.mpr hn, award]

-- One of the rules always applies.
theorem exists_assigns (r : Registry) (w : World) (directory : String) :
    ∃ x, r.Assigns w directory x := by
  cases hs : find w directory r.specific
  case some t => exact ⟨_, .specific <| find_eq_some_iff.mp hs⟩
  case none =>
    rw [find_eq_none_iff] at hs
    cases hn : r.nearest? w directory
    case some x => exact ⟨_, .rooted hs <| nearest?_eq_some_iff.mp hn⟩
    case none =>
      rw [nearest?_eq_none_iff] at hn
      cases hg : find w directory r.generic
      case some t => exact ⟨_, .generic hs hn <| find_eq_some_iff.mp hg⟩
      case none   => exact ⟨_, .nothing hs hn <| find_eq_none_iff.mp hg⟩

theorem mem_of_assigns {x : ProjectType × String} (h : r.Assigns w directory (some x)) :
    x.1 ∈ r.types ∧
      (x.2 = directory ∨ ∃ a : Path, a.IsAbove (w.absolute directory) ∧ x.2 = a.text) := by
  cases h
  case specific h  => exact ⟨List.mem_of_mem_filter h.mem, .inl rfl⟩
  case rooted h    => exact ⟨List.mem_of_mem_filter h.first.mem, .inr ⟨_, h.above, rfl⟩⟩
  case generic h   => exact ⟨List.mem_of_mem_filter h.mem, .inl rfl⟩

theorem reaches_of_assigns (hw : isAbsolute w.cwd = true) (hd : w.reaches directory = true)
    {x : ProjectType × String} (h : r.Assigns w directory (some x)) : w.reaches x.2 = true := by
  have ⟨_, hx⟩ := mem_of_assigns h
  cases hx
  case inl hx => exact hx ▸ hd
  case inr hx =>
    have ⟨a, hab, hx⟩ := hx
    exact reaches_above hw <| List.mem_map.mpr ⟨a, mem_ancestors_iff.mpr hab, hx.symm⟩

theorem award_some_ok (hw : isAbsolute w.cwd = true) (hd : w.reaches directory = true)
    {x : ProjectType × String} (ha : x.1.Answers w) (hr : x.1.FindsRoots w)
    (h : r.Assigns w directory (some x)) : ∃ root, award w (some x) = .ok (some ⟨x.1, root⟩) := by
  have ⟨root, ho⟩ := rootOf_ok hw (reaches_of_assigns hw hd h) ha hr
  exact ⟨root, by simp [award, ho, Except.map]⟩

theorem award_ok (hw : isAbsolute w.cwd = true) (hd : w.reaches directory = true)
    (ha : ∀ t ∈ r.types, t.Answers w) (hr : ∀ t ∈ r.types, t.FindsRoots w)
    {x : Option (ProjectType × String)} (h : r.Assigns w directory x) :
    ∃ found, award w x = .ok found := by
  cases x
  case none => exact ⟨none, rfl⟩
  case some x =>
    have ⟨hm, _⟩ := mem_of_assigns h
    have ⟨root, ho⟩ := award_some_ok hw hd (ha _ hm) (hr _ hm) h
    exact ⟨_, ho⟩

theorem type_of_award {x : ProjectType × String} {o : Owner} (h : award w (some x) = .ok (some o)) :
    o.type = x.1 := by
  simp only [award] at h
  cases hr : x.1.rootOf w x.2 <;> simp_all [Except.map]
  exact h ▸ rfl

theorem owner_follows_rules {cs : List Call} {w : World} {directory : String}
    (hf : ∀ c ∈ cs, c.IsFresh) (hw : isAbsolute w.cwd = true) (hd : w.reaches directory = true)
    (ha : ∀ t ∈ (empty.run cs).types, t.Answers w) :
    let r := empty.run cs
    (∃ x, r.Assigns w directory x) ∧
    (∀ x, r.Assigns w directory x → r.owner w directory = award w x) ∧
    ((∀ t ∈ r.types, t.FindsRoots w) → ∃ found, r.owner w directory = .ok found) ∧
    ∀ o, r.owner w directory = .ok (some o) → o.type.isGeneric = true →
      NoneIn w directory r.specific ∧ r.NoneAbove w directory := by
  intro r
  have m := Matches.empty.run hf
  have hl : r.types.Pairwise fun t u => t.isGeneric = true → u.isGeneric = true :=
    m.types ▸ Registrations.listing_generic_last _
  have hx := fun x => owner_of_assigns (x := x) hw hd ha hl
  have ⟨x, h⟩ := r.exists_assigns w directory
  refine ⟨⟨x, h⟩, hx, fun hr => hx x h ▸ award_ok hw hd ha hr h, fun o ho hg => ?_⟩
  rw [hx x h] at ho
  cases h
  case specific h       => simp [type_of_award ho, isGeneric_of_specific h] at hg
  case rooted _ h       => simp [type_of_award ho, isGeneric_of_rooted h.first] at hg
  case generic hs hn h => exact ⟨hs, hn⟩
  case nothing          => simp [award] at ho

theorem detects_of_file {name : String} (hm : t.marker = some (.file name))
    (hn : t.matcher = none) (hd : w.reaches directory = true) :
    t.detects w directory =
      .ok (!name.isEmpty && w.isThere (asDirectory w.cwd directory ++ name)) := by
  simp [detects, World.about, hd, isIn, isPlaced, isMarked, markerName, hm, hn]

theorem answers_of_file {name : String} (hm : t.marker = some (.file name))
    (hn : t.matcher = none) : t.Answers w :=
  fun _ hd => ⟨_, detects_of_file hm hn hd⟩

theorem detects_of_place {name : String} (place : Place) (hm : t.marker = some (.file name))
    (hn : t.matcher = none) (hd : w.reaches directory = true) (hl : w.files.countLinks = 0)
    (he : w.partsOf (asDirectory w.cwd directory ++ name) = [] :: place)
    (ha : isAbsolute (asDirectory w.cwd directory ++ name) = true)
    (ht : World.isTooLong (asDirectory w.cwd directory ++ name) = false)
    (hp : FileTree.leadsDown place = true) (hf : name.isEmpty = false) :
    t.detects w directory = .ok (w.files.find? place).isSome := by
  rw [detects_of_file hm hn hd, hf, World.isThere_eq ha ht he hp hl]
  rfl

def kernel : ProjectType :=
  marked "kernel" "K" true (Recipe.nothing.load [])

def repository : ProjectType :=
  marked "git" "G" true (Recipe.nothing.load [])

def kernelCalls : List Call :=
  [.register repository .generic, .seed [kernel]]

def kernelTree : World :=
  { World.bare with
    files := .directory .full
      [(['k'], .directory .full
        [(['K'], .file (.text "") false),
         (['n'], .directory .full [(['G'], .directory .full [])])])] }

theorem owner_in_kernelTree :
    (∀ c ∈ kernelCalls, c.IsFresh) ∧ isAbsolute kernelTree.cwd = true ∧
    kernelTree.reaches "/k/n" = true ∧ (∀ t ∈ (empty.run kernelCalls).types, t.Answers kernelTree) ∧
    (empty.run kernelCalls).detect kernelTree "/k/n" =
      .ok (some { repository with isGeneric := true }) ∧
    (empty.run kernelCalls).owner kernelTree "/k/n" = .ok (some ⟨kernel, "/k"⟩) := by
  have hf : ∀ c ∈ kernelCalls, c.IsFresh := by
    simp [kernelCalls, Call.IsFresh, Call.types, kernel, repository, marked]
  have hw : isAbsolute kernelTree.cwd = true := by decide
  have hd : kernelTree.reaches "/k/n" = true := by decide
  have ht : (empty.run kernelCalls).types = [kernel, { repository with isGeneric := true }] := rfl
  have ha : ∀ t ∈ (empty.run kernelCalls).types, t.Answers kernelTree := by
    simpa [ht] using ⟨answers_of_file rfl rfl, answers_of_file rfl rfl⟩
  have here : kernel.detects kernelTree "/k/n" = .ok false :=
    detects_of_place [['k'], ['n'], ['K']] rfl rfl hd rfl rfl rfl (by decide) (by decide)
      (by decide)
  have above : kernel.detects kernelTree "/k" = .ok true :=
    detects_of_place [['k'], ['K']] rfl rfl hd rfl rfl rfl (by decide) (by decide)
      (by decide)
  have git : ProjectType.detects kernelTree { repository with isGeneric := true } "/k/n" =
    .ok true :=
    detects_of_place [['k'], ['n'], ['G']] rfl rfl hd rfl rfl rfl (by decide) (by decide)
      (by decide)
  have hs : NoneIn kernelTree "/k/n" (empty.run kernelCalls).specific := by
    have hk : (empty.run kernelCalls).specific = [kernel] := rfl
    simp [NoneIn, IsFound, hk, here]
  have hn : (empty.run kernelCalls).Nearest kernelTree "/k/n" kernel ⟨1, [['k']]⟩ := by
    refine ⟨⟨rfl, by decide, by decide⟩, fun b hb hab => ?_, above, [], [], rfl, by simp [NoneIn]⟩
    have hl : b.parts.length < 2 := hb.length_lt
    have hg : 1 < b.parts.length := hab.length_lt
    omega
  have ho := (owner_follows_rules hf hw hd ha).right.left
  refine ⟨hf, hw, hd, ha, ?_, ho _ (.rooted hs hn)⟩
  rw [detect, ht]
  simp [World.about_of_reaches hd, firstIn, here, git]

end Registry

end SourceFlags
