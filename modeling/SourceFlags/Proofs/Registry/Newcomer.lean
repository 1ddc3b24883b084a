import SourceFlags.Proofs.Registry.Ownership

namespace SourceFlags

open SourceFlags.Path

namespace ProjectType

variable {w : World} {t u : ProjectType} {ts us : List ProjectType} {directory : String}

def Adds (t : ProjectType) (ts us : List ProjectType) : Prop :=
  ∃ before after, ts = before ++ after ∧ (us = before ++ t :: after ∨ us = ts)

theorem Adds.filter (h : Adds t ts us) (p : ProjectType → Bool) :
    Adds t (ts.filter p) (us.filter p) := by
  have ⟨before, after, hs, hu⟩ := h
  refine ⟨before.filter p, after.filter p, by rw [hs, List.filter_append], ?_⟩
  cases hu
  case inr hu => exact .inr <| hu ▸ rfl
  case inl hu =>
    cases hp : p t
    case true  => exact .inl <| by simp [hu, hp]
    case false => exact .inr <| by simp [hu, hs, hp]

theorem Adds.mem (h : Adds t ts us) (hu : u ∈ us) : u = t ∨ u ∈ ts := by
  have ⟨before, after, hs, ho⟩ := h
  cases ho
  case inr ho => exact .inr <| ho ▸ hu
  case inl ho =>
    rw [ho, List.mem_append, List.mem_cons] at hu
    rw [hs, List.mem_append]
    tauto

theorem Adds.find (h : Adds t ts us) (w : World) (directory : String) :
    find w directory us = some t ∨ find w directory us = find w directory ts := by
  have ⟨before, after, hs, hu⟩ := h
  cases hu
  case inr hu => exact .inr <| hu ▸ rfl
  case inl hu =>
    rw [hu, hs, ProjectType.find, ProjectType.find, List.find?_append, List.find?_append,
      List.find?_cons]
    cases before.find? (·.isFound w directory)
    case some => exact .inr rfl
    case none =>
      cases t.isFound w directory
      case true  => exact .inl rfl
      case false => exact .inr rfl

theorem Adds.firstIn (h : Adds t ts us) (hf : FirstIn w directory us u) :
    u = t ∨ FirstIn w directory ts u := by
  rw [← find_eq_some_iff] at hf ⊢
  refine (h.find w directory).imp (fun hn => ?_) (fun ho => ho.symm.trans hf)
  exact Option.some.inj <| hf.symm.trans hn

theorem Adds.noneIn (h : Adds t ts us) (hn : NoneIn w directory us) : NoneIn w directory ts := by
  rw [← find_eq_none_iff] at hn ⊢
  cases h.find w directory
  case inl hf => exact nomatch hf.symm.trans hn
  case inr hf => exact hf.symm.trans hn

end ProjectType

namespace Registry

open ProjectType

variable {r r' : Registry} {w : World} {t : ProjectType} {p : Priority} {ts : List ProjectType}
variable {directory : String}

def GenericLast (ts : List ProjectType) : Prop :=
  ts.Pairwise fun t u => t.isGeneric = true → u.isGeneric = true

def entered (t : ProjectType) (p : Priority) : ProjectType :=
  { t with isGeneric := p == .generic }

theorem entered_eq_self (hf : t.isGeneric = false) (hp : p ≠ .generic) : entered t p = t := by
  rw [entered, beq_false_of_ne hp, ← hf]

-- A type as it is inserted. What already counts as generic goes on to count as generic.
def inserted (t : ProjectType) (p : Priority) : ProjectType :=
  { t with isGeneric := p == .generic || t.isGeneric }

theorem inserted_eq_entered (hf : t.isGeneric = false) (p : Priority) :
    inserted t p = entered t p := by
  simp [inserted, entered, hf]

theorem insert_eq (t : ProjectType) (p : Priority) (ts : List ProjectType) :
    ∃ before after, ts = before ++ after ∧ insert t p ts = before ++ inserted t p :: after := by
  cases p
  case unique   => exact ⟨[], ts, rfl, rfl⟩
  case specific => exact ⟨_, _, List.takeWhile_append_dropWhile.symm, rfl⟩
  case generic  => exact ⟨ts, [], (List.append_nil ts).symm, rfl⟩

theorem insert_adds (hf : t.isGeneric = false) (p : Priority) (ts : List ProjectType) :
    Adds (entered t p) ts (insert t p ts) := by
  have ⟨before, after, hs, hi⟩ := insert_eq t p ts
  exact ⟨before, after, hs, .inl <| inserted_eq_entered hf p ▸ hi⟩

theorem isGeneric_of_dropWhile (h : GenericLast ts) :
    ∀ u ∈ ts.dropWhile (!·.isGeneric), u.isGeneric = true := by
  induction ts
  case nil => simp
  case cons t ts hi =>
    have ⟨ht, hts⟩ := List.pairwise_cons.mp h
    cases hg : t.isGeneric
    case false => simpa [hg] using hi hts
    case true  => simpa [hg] using fun u hu => ht u hu hg

theorem isGeneric_replace (t : ProjectType) (ts : List ProjectType) :
    (replace t ts).map (·.isGeneric) = ts.map (·.isGeneric) := by
  induction ts
  case nil => rfl
  case cons old ts hi =>
    simp only [replace]
    split
    case isTrue  => rfl
    case isFalse => rw [List.map_cons, hi, List.map_cons]

theorem genericLast_iff :
    GenericLast ts ↔ (ts.map (·.isGeneric)).Pairwise fun b c => b = true → c = true := by
  rw [GenericLast, List.pairwise_map]

theorem isGeneric_of_takeWhile : ∀ u ∈ ts.takeWhile (!·.isGeneric), u.isGeneric = false := by
  simpa using List.all_eq_true.mp (List.all_takeWhile (p := (!·.isGeneric)) (l := ts))

-- Only in front of all others does it matter whether a type counts as generic already.
theorem insert_genericLast_iff (p : Priority) (h : GenericLast ts) :
    GenericLast (insert t p ts) ↔
      (p = .unique → t.isGeneric = true → ∀ u ∈ ts, u.isGeneric = true) := by
  cases p
  case unique =>
    rw [insert, GenericLast, List.pairwise_cons]
    exact ⟨fun hp _ hg u hu => hp.left u hu hg, fun ha => ⟨fun u hu hg => ha rfl hg u hu, h⟩⟩
  case generic =>
    refine iff_of_true ?_ (absurd · (by decide))
    refine List.pairwise_append.mpr ⟨h, List.pairwise_singleton .., fun _ _ u hu _ => ?_⟩
    rw [List.mem_singleton.mp hu]
  case specific =>
    refine iff_of_true (List.pairwise_append.mpr ⟨?before, ?after, ?across⟩) (absurd · (by decide))
    case before => exact h.sublist <| List.takeWhile_sublist _
    case across =>
      exact fun u hu _ _ hg => absurd hg (Bool.eq_false_iff.mp <| isGeneric_of_takeWhile u hu)
    case after  =>
      refine List.pairwise_cons.mpr ⟨fun u hu _ => isGeneric_of_dropWhile h u hu, ?_⟩
      exact h.sublist <| List.dropWhile_sublist _

theorem insert_genericLast (hf : t.isGeneric = false) (p : Priority) (h : GenericLast ts) :
    GenericLast (insert t p ts) :=
  (insert_genericLast_iff p h).mpr fun _ hg => nomatch hf.symm.trans hg

theorem replace_genericLast (t : ProjectType) (h : GenericLast ts) :
    GenericLast (replace t ts) :=
  genericLast_iff.mpr <| isGeneric_replace t ts ▸ genericLast_iff.mp h

theorem place_genericLast (hf : t.isGeneric = false) (p : Priority) (h : GenericLast ts) :
    GenericLast (place t p ts) := by
  simp only [place]
  split
  case isFalse => exact insert_genericLast hf p h
  case isTrue  => exact replace_genericLast t h

-- Registries that come of calls with types that have just been declared. Between the calls types
-- may be asked about directories, in other worlds each time.
inductive IsReached : Registry → Prop
  | empty : IsReached empty
  | call {r : Registry} {c : Call} (hf : c.IsFresh) (h : IsReached r) : IsReached (r.after c)
  | asked {r : Registry} (w : World) (directory : String) (ts : List ProjectType)
    (h : IsReached r) : IsReached (r.consult w directory ts)

theorem after_genericLast {c : Call} (hf : c.IsFresh) (h : GenericLast r.types) :
    GenericLast (r.after c).types := by
  cases c
  case seed ts =>
    refine List.foldlRecOn ts _ h fun us hu t ht => place_genericLast (hf t ht) .specific hu
  case register t p =>
    by_cases hr : r.Refuses t p
    case pos => simpa only [after, answer, register_eq_error hr] using h
    case neg =>
      simp only [after, answer, register_eq_ok hr]
      exact place_genericLast (hf t List.mem_cons_self) p h

theorem consult_genericLast (w : World) (directory : String) (asked : List ProjectType)
    (h : GenericLast r.types) : GenericLast (r.consult w directory asked).types := by
  unfold consult
  split
  case isFalse => exact h
  case isTrue  =>
    refine List.pairwise_map.mpr <| h.imp fun {t u} hg => ?_
    split <;> split <;> exact hg

theorem IsReached.genericLast (h : r.IsReached) : GenericLast r.types := by
  induction h
  case empty         => exact .nil
  case call hf _ hi  => exact after_genericLast hf hi
  case asked hi      => exact consult_genericLast _ _ _ hi

theorem IsReached.run {cs : List Call} (hf : ∀ c ∈ cs, c.IsFresh) (h : r.IsReached) :
    (r.run cs).IsReached :=
  List.foldlRecOn cs _ h fun _ hr c hc => hr.call (hf c hc)

theorem assigns_of_adds (h : Adds t r.types r'.types) {x : Option (ProjectType × String)}
    (hx : r'.Assigns w directory x) : (∃ a, x = some (t, a)) ∨ r.Assigns w directory x := by
  have hs : Adds t r.specific r'.specific := h.filter _
  have hr : Adds t r.rooted r'.rooted := h.filter _
  have hg : Adds t r.generic r'.generic := h.filter _
  have above (ha : r'.NoneAbove w directory) : r.NoneAbove w directory :=
    fun a hd => hr.noneIn (ha a hd)
  -- Without the new type the same rule applies, and those before it still do not.
  cases hx
  case specific u hf =>
    cases hs.firstIn hf
    case inl hu => exact .inl ⟨directory, hu ▸ rfl⟩
    case inr hf => exact .inr <| .specific hf
  case rooted u a hn hf =>
    cases hr.firstIn hf.first
    case inl hu => exact .inl ⟨a.text, hu ▸ rfl⟩
    case inr hu =>
      have nearest b hb hab := hr.noneIn (hf.nearest b hb hab)
      exact .inr <| .rooted (hs.noneIn hn) ⟨hf.above, nearest, hu⟩
  case generic u hn ha hf =>
    cases hg.firstIn hf
    case inl hu => exact .inl ⟨directory, hu ▸ rfl⟩
    case inr hf => exact .inr <| .generic (hs.noneIn hn) (above ha) hf
  case nothing hn ha hf => exact .inr <| .nothing (hs.noneIn hn) (above ha) (hg.noneIn hf)

theorem eq_of_register (hp : r.register t p = .ok r') :
    r' = { r with types := place t p r.types } := by
  have hr : ¬r.Refuses t p := fun hc => nomatch (register_eq_error hc).symm.trans hp
  exact Except.ok.inj <| hp.symm.trans (register_eq_ok hr)

theorem types_of_register (hn : t.name ∉ r.names) (hp : r.register t p = .ok r') :
    r'.types = insert t p r.types := by
  have ha : ¬r.types.any (·.name == t.name) = true := mt any_name_iff.mp hn
  rw [eq_of_register hp, place, if_neg ha]

theorem answers_entered (h : t.Answers w) : (entered t p).Answers w :=
  h

theorem register_takes_for_itself (hr : r.IsReached) (hf : t.isGeneric = false)
    (hn : t.name ∉ r.names) (hp : r.register t p = .ok r') (hw : isAbsolute w.cwd = true)
    (ha : ∀ u ∈ t :: r.types, u.Answers w) (directory : String) :
    (r'.detect w directory = r.detect w directory ∨
      r'.detect w directory = .ok (some (entered t p))) ∧
    (r'.owner w directory = r.owner w directory ∨
      ∃ a, r'.owner w directory = award w (some (entered t p, a)) ∧
        (t.FindsRoots w → ∃ root, r'.owner w directory = .ok (some ⟨entered t p, root⟩))) := by
  have ⟨ht, ha⟩ := List.forall_mem_cons.mp ha
  have hs := types_of_register hn hp
  have hadds : Adds (entered t p) r.types r'.types := hs ▸ insert_adds hf p r.types
  have ha' : ∀ u ∈ r'.types, u.Answers w := fun u hu =>
    (hadds.mem hu).elim (fun he => he ▸ answers_entered ht) (ha u)
  have hl' : GenericLast r'.types := hs ▸ insert_genericLast hf p hr.genericLast
  cases hd : w.reaches directory
  case false =>
    have gone (r : Registry) : r.detect w directory = .error .cwdGone ∧
        r.owner w directory = .error .cwdGone := by
      simp [detect, owner, World.about, hd]
    simp [gone]
  case true =>
    constructor
    case left =>
      rw [detect, detect, World.about_of_reaches hd, World.about_of_reaches hd,
        firstIn_eq_find ha' hd, firstIn_eq_find ha hd]
      exact (hadds.find w directory).symm.imp (congrArg Except.ok) (congrArg Except.ok)
    case right =>
      -- Some rule gives the directory to the new type, or to whom it was given before.
      obtain ⟨x, hx⟩ := r'.exists_assigns w directory
      have ho := owner_of_assigns hw hd ha' hl' hx
      cases assigns_of_adds hadds hx
      case inr hold =>
        exact .inl <| ho.trans (owner_of_assigns hw hd ha hr.genericLast hold).symm
      case inl hnew =>
        obtain ⟨a, he⟩ := hnew
        refine .inr ⟨a, he ▸ ho, fun hroot => ?_⟩
        rw [he] at hx ho
        obtain ⟨root, hroot⟩ := award_some_ok hw hd (answers_entered (p := p) ht) hroot hx
        exact ⟨root, ho.trans hroot⟩

def submodule : ProjectType :=
  marked "submodule" "G" true (Recipe.nothing.load [])

theorem register_takes_in_kernelTree :
    let r := empty.run kernelCalls
    ∃ r', r.IsReached ∧ submodule.isGeneric = false ∧ submodule.name ∉ r.names ∧
      r.register submodule .unique = .ok r' ∧ isAbsolute kernelTree.cwd = true ∧
      (∀ u ∈ submodule :: r.types, u.Answers kernelTree) ∧
      r.detect kernelTree "/k/n" = .ok (some { repository with isGeneric := true }) ∧
      r'.detect kernelTree "/k/n" = .ok (some submodule) ∧
      (r'.owner kernelTree "/k/n" = r.owner kernelTree "/k/n" ∨
        ∃ a, r'.owner kernelTree "/k/n" = award kernelTree (some (submodule, a))) := by
  intro r
  have hf : ∀ c ∈ kernelCalls, c.IsFresh := by
    simp [kernelCalls, Call.IsFresh, Call.types, kernel, repository, marked]
  have hr : r.IsReached := IsReached.empty.run hf
  have ht : r.types = [kernel, { repository with isGeneric := true }] := rfl
  have hn : submodule.name ∉ r.names := by simp [names, ht, submodule, kernel, repository, marked]
  have ha : ∀ u ∈ submodule :: r.types, u.Answers kernelTree := by
    simpa [ht] using ⟨answers_of_file rfl rfl, answers_of_file rfl rfl, answers_of_file rfl rfl⟩
  have hd : kernelTree.reaches "/k/n" = true := by decide
  have here : kernel.detects kernelTree "/k/n" = .ok false :=
    detects_of_place [['k'], ['n'], ['K']] rfl rfl hd rfl rfl rfl (by decide) (by decide)
      (by decide)
  have git : ProjectType.detects kernelTree { repository with isGeneric := true } "/k/n" =
    .ok true :=
    detects_of_place [['k'], ['n'], ['G']] rfl rfl hd rfl rfl rfl (by decide) (by decide)
      (by decide)
  have sub : submodule.detects kernelTree "/k/n" = .ok true :=
    detects_of_place [['k'], ['n'], ['G']] rfl rfl hd rfl rfl rfl (by decide) (by decide)
      (by decide)
  have hp : r.register submodule .unique = .ok ⟨submodule :: r.types, true⟩ := rfl
  have he : entered submodule .unique = submodule := entered_eq_self rfl (by decide)
  have ho := (register_takes_for_itself hr rfl hn hp (by decide) ha "/k/n").right
  rw [he] at ho
  refine ⟨_, hr, rfl, hn, hp, by decide, ha, ?before, ?after, ?owner⟩
  case owner  => exact ho.imp_right <| Exists.imp fun _ => And.left
  case before => simp [detect, World.about_of_reaches hd, ht, firstIn, here, git]
  case after  => simp [detect, World.about_of_reaches hd, firstIn, sub]

end Registry
end SourceFlags
