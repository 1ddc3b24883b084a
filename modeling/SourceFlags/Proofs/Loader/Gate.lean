import SourceFlags.Proofs.Loader.Calls
import SourceFlags.Proofs.Path.Within
import SourceFlags.Proofs.World.Steady
import SourceFlags.Registry.Builtin

namespace SourceFlags

namespace Trust

def Reaches (t : Trust) (directory : String) : Prop :=
  (∃ d ∈ t.directories, (Path.ofText directory).IsWithin (Path.ofText d)) ∨
    t.accepts directory = true

instance (t : Trust) (directory : String) : Decidable (t.Reaches directory) :=
  inferInstanceAs <| Decidable
    ((∃ d ∈ t.directories, (Path.ofText directory).IsWithin (Path.ofText d)) ∨
      t.accepts directory = true)

def Settled (t : Trust) : Prop :=
  ∀ d ∈ t.directories, ∃ p : Path, p.Settled ∧ d = p.text

variable {w : World} {t : Trust}

theorem directory_settled (h : Path.isAbsolute w.cwd = true) (s : String) :
    ∃ p : Path, p.Settled ∧ directory w s = p.text :=
  ⟨_, Path.absolute_settled h _, rfl⟩

theorem ofDirectories_settled (h : Path.isAbsolute w.cwd = true) (ds : List String) :
    (ofDirectories w ds).Settled := by
  intro d hd
  have ⟨s, _, hs⟩ := List.mem_map.mp hd
  exact hs ▸ directory_settled h s

theorem Settled.add (ht : t.Settled) (h : Path.isAbsolute w.cwd = true) (s : String) :
    (Trust.add w t s).Settled := by
  simp only [Trust.add]
  split
  case isTrue => exact ht
  case isFalse =>
    intro d hd
    cases List.mem_append.mp hd
    case inl hd => exact ht d hd
    case inr hd => exact List.mem_singleton.mp hd ▸ directory_settled h s

theorem isTrusted_iff {p : Path} (ht : t.Settled) (hp : p.Settled) (cwd : String) :
    t.isTrusted cwd p.text = true ↔ t.Reaches p.text := by
  simp only [isTrusted, Reaches, Path.absoluteText, hp.absolute_text, Bool.or_eq_true,
    List.any_eq_true, Path.ofText_text hp.toClean]
  refine or_congr (exists_congr fun d => and_congr_right fun hd => ?_) Iff.rfl
  have ⟨q, hq, he⟩ := ht d hd
  rw [he, Path.ofText_text hq.toClean, Path.covers_iff hq hp]

end Trust

namespace Loader

variable {l : Loader} {e : Event} {t : ProjectType} {directory : String}

theorem aim_eq_text (ha : l.aim? e = some (t, directory)) :
    ∃ s, directory = e.world.absoluteText s := by
  simp only [aim?] at ha
  split at ha
  case h_1 => contradiction
  case h_2 =>
    split at ha <;> cases ha
    exact ⟨_, rfl⟩
  case h_3 =>
    split at ha <;> try contradiction
    split at ha <;> try contradiction
    split at ha <;> cases ha
    exact ⟨_, rfl⟩

theorem after_settled (ht : l.trust.Settled) (h : Path.isAbsolute e.world.cwd = true) :
    (l.after e).trust.Settled := by
  cases ha : l.aim? e
  case none =>
    cases answer_of_no_aim ha
    case inl hl => exact hl.left ▸ ht
    case inr hl =>
      obtain ⟨d, _, hd⟩ := hl
      rw [after, hd]
      exact ht.add h d
  case some a =>
    obtain ⟨l', hl, he⟩ := answer_of_aim ha
    rw [after, he, enter_trust, (tried_preserves ..).left, hl.left]
    exact ht

theorem run_settled {es : List Event} (ht : l.trust.Settled)
    (h : ∀ e ∈ es, Path.isAbsolute e.world.cwd = true) : (l.run es).trust.Settled := by
  induction es generalizing l
  case nil => exact ht
  case cons e es hi =>
    have ⟨he, hes⟩ := List.forall_mem_cons.mp h
    exact hi (after_settled ht he) hes

-- What may be loaded from an absolute directory.
theorem allows_iff {p : Path} (ht : l.trust.Settled) (hp : p.Settled) (w : World) :
    l.allows w t p.text = true ↔ t.isSafe = true ∨ l.trust.Reaches p.text := by
  rw [allows, Bool.or_eq_true, Trust.isTrusted_iff ht hp]

structure Ready (l : Loader) (e : Event) : Prop where
  trust : l.trust.Settled
  cwd   : Path.isAbsolute e.world.cwd = true

namespace Ready

theorem aim_settled (hr : l.Ready e) (ha : l.aim? e = some (t, directory)) :
    ∃ p : Path, p.Settled ∧ directory = p.text :=
  have ⟨s, hs⟩ := aim_eq_text ha
  ⟨_, Path.absolute_settled hr.cwd s, hs⟩

theorem runs_of_allowed (hr : l.Ready e) (ha : l.aim? e = some (t, directory))
    (h : t.isSafe = true ∨ l.trust.Reaches directory) :
    (l.after e).runs = l.runs ++ [⟨t, directory⟩] := by
  have ⟨p, hp, hd⟩ := hr.aim_settled ha
  have ⟨l', ⟨ht, _, hl⟩, he⟩ := answer_of_aim ha
  subst hd
  have hl' := (allows_iff (ht ▸ hr.trust) hp e.world).mpr (ht ▸ h)
  rw [after, he, enter_runs, tried_of_allows hl']
  exact congrArg (· ++ [_]) hl

theorem refused (hr : l.Ready e) (ha : l.aim? e = some (t, directory))
    (h : ¬(t.isSafe = true ∨ l.trust.Reaches directory)) :
    (l.answer e).1 = .error (.untrusted t.name directory) ∧ (l.after e).runs = l.runs := by
  have ⟨p, hp, hd⟩ := hr.aim_settled ha
  have ⟨l', ⟨ht, _, hl⟩, he⟩ := answer_of_aim ha
  subst hd
  have hn := mt (allows_iff (l := l') (ht ▸ hr.trust) hp e.world).mp (ht ▸ h)
  have hl' := Bool.eq_false_iff.mpr hn
  rw [after, he, tried_of_not_allows hl', make_of_not_allows hl']
  exact ⟨rfl, hl⟩

theorem new_runs (hr : l.Ready e) :
    ∃ rs, (l.after e).runs = l.runs ++ rs ∧ ∀ run ∈ rs, Path.isAbsolute run.directory = true ∧
      (run.type.isSafe = true ∨ l.trust.Reaches run.directory) := by
  cases ha : l.aim? e
  case none =>
    refine ⟨[], ?_, by simp⟩
    rw [List.append_nil]
    cases answer_of_no_aim ha
    case inl hl => exact hl.right.right
    case inr hl =>
      obtain ⟨_, _, hd⟩ := hl
      rw [after, hd]
      rfl
  case some a =>
    obtain ⟨t, directory⟩ := a
    by_cases h : t.isSafe = true ∨ l.trust.Reaches directory
    case pos =>
      refine ⟨[⟨t, directory⟩], hr.runs_of_allowed ha h, fun run hm => ?_⟩
      obtain ⟨p, hp, hd⟩ := hr.aim_settled ha
      cases List.mem_singleton.mp hm
      exact ⟨hd ▸ hp.isAbsolute_text, h⟩
    case neg => exact ⟨[], by simp [hr.refused ha h], by simp⟩

end Ready

theorem failed_preserves {x : Error} (h : (l.answer e).1 = .error x) :
    (l.after e).projects = l.projects ∧ (l.after e).trust = l.trust := by
  cases ha : l.aim? e
  case none =>
    cases answer_of_no_aim ha
    case inl hl => exact ⟨hl.right.left, hl.left⟩
    case inr hl =>
      have ⟨_, _, hd⟩ := hl
      simp [hd] at h
  case some a =>
    have ⟨l', ⟨ht, hp, _⟩, he⟩ := answer_of_aim ha
    rw [he] at h
    have ⟨ht', hp', _⟩ := tried_preserves e.world l' a.1 a.2
    rw [after, he, enter_of_error h]
    exact ⟨hp'.trans hp, ht'.trans ht⟩

def fresh (r : Registry) (w : World) (trusted : List String) (accepts : String → Bool) : Loader :=
  .ofRegistry r { Trust.ofDirectories w trusted with accepts }

theorem loaders_run_where_trusted {r : Registry} {w : World} {trusted : List String}
    {accepts : String → Bool} {es : List Event} {e : Event}
    (hw : Path.isAbsolute w.cwd = true) (hes : ∀ e ∈ es, Path.isAbsolute e.world.cwd = true)
    (he : Path.isAbsolute e.world.cwd = true) :
    let l := (fresh r w trusted accepts).run es
    (∃ rs, (l.after e).runs = l.runs ++ rs ∧ ∀ run ∈ rs, Path.isAbsolute run.directory = true ∧
      (run.type.isSafe = true ∨ l.trust.Reaches run.directory)) ∧
    (∀ t directory, l.aim? e = some (t, directory) →
      (t.isSafe = true ∨ l.trust.Reaches directory →
        (l.after e).runs = l.runs ++ [⟨t, directory⟩]) ∧
      (¬(t.isSafe = true ∨ l.trust.Reaches directory) →
        (l.answer e).1 = .error (.untrusted t.name directory) ∧ (l.after e).runs = l.runs)) ∧
    ∀ x, (l.answer e).1 = .error x →
      (l.after e).projects = l.projects ∧ (l.after e).trust.directories = l.trust.directories := by
  intro l
  have hr : l.Ready e := ⟨run_settled (Trust.ofDirectories_settled hw trusted) hes, he⟩
  refine ⟨hr.new_runs, fun t directory ha => ⟨hr.runs_of_allowed ha, hr.refused ha⟩, ?_⟩
  intro x hx
  have ⟨hp, ht⟩ := failed_preserves hx
  exact ⟨hp, congrArg Trust.directories ht⟩

def scripted : ProjectType :=
  { Registry.marked "ede" "Project.ede" false (Recipe.generic.load []) with isSafe := false }

-- A directory whose name only begins like that of a trusted one is not below it.
theorem loaders_run_below_trusted :
    let l := (fresh .empty .bare [] fun _ => false).run [⟨.bare, .trust "/b"⟩]
    Path.isAbsolute World.bare.cwd = true ∧
    (l.after ⟨.bare, .load scripted "/b/c"⟩).runs = [⟨scripted, "/b/c"⟩] ∧
    (l.answer ⟨.bare, .load scripted "/bc"⟩).1 = .error (.untrusted "ede" "/bc") ∧
    (l.after ⟨.bare, .load scripted "/bc"⟩).projects = l.projects := by
  intro l
  have hw : Path.isAbsolute World.bare.cwd = true := by decide
  have gate := fun d => @loaders_run_where_trusted .empty .bare [] (fun _ => false)
    [⟨.bare, .trust "/b"⟩] ⟨.bare, .load scripted d⟩ hw (by simpa) hw
  have below := ((gate "/b/c").right.left scripted "/b/c" rfl).left (by decide)
  have beside := ((gate "/bc").right.left scripted "/bc" rfl).right (by decide)
  exact ⟨hw, below, beside.left, ((gate "/bc").right.right _ beside.left).left⟩

end Loader
end SourceFlags
