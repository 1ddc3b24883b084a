import SourceFlags.Proofs.Path.Normal
import SourceFlags.Proofs.Toolchain.Contained
import SourceFlags.Proofs.Toolchain.Journal
import SourceFlags.Proofs.Toolchain.Learning
import SourceFlags.Session

namespace SourceFlags

namespace Session

theorem addFlags_eq (arguments flags : List String) :
    addFlags arguments flags = arguments ++ (flags.filter (· ∉ arguments)).eraseDups := by
  induction flags generalizing arguments
  case nil => simp [addFlags]
  case cons flag flags hi =>
    have hf : addFlags arguments (flag :: flags) =
      addFlags (if arguments.contains flag then arguments else arguments ++ [flag]) flags := rfl
    by_cases hm : flag ∈ arguments
    case pos => simp [hf, hi, hm]
    case neg =>
      have hp : flags.filter (· ∉ arguments ++ [flag]) =
          (flags.filter (· ∉ arguments)).filter fun other => !other == flag := by
        rw [List.filter_filter]
        exact List.filter_congr fun other _ => Bool.eq_iff_iff.mpr (by simp [and_comm])
      rw [hf, if_neg (by simpa using hm), hi, hp, List.filter_cons_of_pos (by simpa using hm),
        List.eraseDups_cons, List.append_assoc, List.singleton_append]

theorem nodup_eraseDups : ∀ l : List String, l.eraseDups.Nodup
  | []     => List.nodup_nil
  | a :: l => by
    have := List.length_filter_le (fun b => !b == a) l
    rw [List.eraseDups_cons, List.nodup_cons]
    exact ⟨by simp, nodup_eraseDups _⟩
termination_by l => l.length

theorem eraseDups_of_nodup {l : List String} (h : l.Nodup) : l.eraseDups = l := by
  induction l
  case nil => rfl
  case cons a l hi =>
    have ⟨ha, hl⟩ := List.nodup_cons.mp h
    have hf : (l.filter fun b => !b == a) = l :=
      List.filter_eq_self.mpr fun b hb => by simpa using fun hc : b = a => ha (hc ▸ hb)
    rw [List.eraseDups_cons, hf, hi hl]

theorem addFlags_of_nodup {flags : List String} (h : flags.Nodup) (arguments : List String) :
    addFlags arguments flags = arguments ++ flags.filter (· ∉ arguments) := by
  rw [addFlags_eq, eraseDups_of_nodup (h.filter _)]

theorem addFlags_nil (flags : List String) : addFlags [] flags = flags.eraseDups := by
  rw [addFlags_eq]
  simp

end Session

namespace Facts

variable {w : World}

theorem paths_foldl {step : Facts → String → Facts} {language : String}
    (h : ∀ f path other, (step f path).paths other =
      if other = language then Session.addFlags (f.paths other) [path] else f.paths other)
    (f : Facts) (ps : List String) (other : String) :
    (ps.foldl step f).paths other =
      if other = language then Session.addFlags (f.paths other) ps else f.paths other := by
  induction ps generalizing f
  case nil => rw [List.foldl_nil]; split <;> rfl
  case cons path ps hi =>
    rw [List.foldl_cons, hi, h]
    split <;> rfl

theorem paths_addIncludePath_eq (language : String) (f : Facts) (path other : String) :
    (f.addIncludePath language path).2.paths other =
      if other = language then Session.addFlags (f.paths other) [path] else f.paths other := by
  rw [paths_addIncludePath]
  by_cases ho : other = language
  case pos =>
    by_cases hp : path ∈ f.paths language <;> simp [ho, hp, Session.addFlags]
  case neg => simp [ho]

theorem paths_addCxxPath (f : Facts) (path other : String) :
    (Toolchain.addCxxPath w f path).paths other =
      if other = Language.cxx.name then Session.addFlags (f.paths other) [path]
      else f.paths other := by
  rw [← paths_addIncludePath_eq]
  exact List.foldlRecOn
    (motive := fun g : Facts => g.paths other = (f.addIncludePath _ path).2.paths other) _ _ rfl
    fun g hg file _ => (congrFun (g.paths_addSymbolFile file) other).trans hg

end Facts

namespace Probe

def Guess.of (g : Guess) : Language → List String
  | .c   => g.c
  | .cxx => g.cxx

end Probe

namespace Toolchain

open Probe Probing

variable {w : World} {t : Toolchain} {c : Cache} {language : Language}

theorem paths_addPaths (f : Facts) (lists : Guess) (language : Language) :
    (addPaths w f lists).paths language.name =
      Session.addFlags (f.paths language.name) (lists.of language) := by
  rw [addPaths, Facts.paths_foldl Facts.paths_addCxxPath, Facts.addIncludePaths,
    Facts.paths_foldl (Facts.paths_addIncludePath_eq _)]
  cases language <;> rfl

theorem Answers.lists_of_listed {a : Answers} (h : listOf w (a.search language) ≠ [])
    (compiler : String) (f : Facts) :
    (a.lists w compiler f).of language = listOf w (a.search language) := by
  simp only [lists, chosen]
  cases language <;> split <;> simp_all [Guess.of]

end Toolchain

namespace SearchList

theorem isAbsolute_host (path : String) : Platform.host.isAbsolute path = Path.isAbsolute path := by
  have hd : Platform.host.usesDrives = false := by decide +kernel
  rw [Platform.isAbsolute, hd]
  rfl

theorem settled_of_mem_read {output directory : String} (h : directory ∈ read .host output) :
    ∃ p : Path, p.Settled ∧ directory = p.text := by
  have ⟨line, _, hl⟩ := List.mem_filterMap.mp h
  have ⟨entry, _, he⟩ := Option.bind_eq_some_iff.mp hl
  simp only at he
  split at he
  case isFalse => exact nomatch he
  case isTrue ha =>
    rw [isAbsolute_host] at ha
    refine ⟨_, Path.normal_settled (Path.ofChars_clean _) fun hn => ?_, (Option.some.inj he).symm⟩
    exact absurd (ha.symm.trans <| (Path.lead_ofText_eq_zero_iff _).mp hn) (by decide)

end SearchList

def World.searchable (w : World) (output : Option String) : List String :=
  (SearchList.read Platform.host (output.getD "")).filter w.isSearchable

theorem World.mem_searchable {w : World} {output : Option String} {directory : String}
    (h : directory ∈ w.searchable output) :
    w.absoluteText directory = directory ∧ w.isSearchable directory = true := by
  have ⟨hm, hs⟩ := List.mem_filter.mp h
  have ⟨p, hp, hd⟩ := SearchList.settled_of_mem_read hm
  exact ⟨hd ▸ congrArg Path.text (hp.absolute_text w.cwd), hs⟩

namespace Toolchain

open Probe Probing

variable {w : World} {t : Toolchain} {c : Cache} {language : Language}

-- The directories that are found for a language: none twice, and those that its compiler lists if
-- any of them can be searched.
structure Finds (w : World) (s : Settings) (language : Language) (paths : List String)
    (j : Journal) : Prop where
  nodup  : paths.Nodup
  listed : ∃ o, j.lastOf (searchCommand s language) = some o ∧
    ∀ output, o = .exited 0 output → w.searchable output ≠ [] →
      paths = (w.searchable output).eraseDups

theorem Finds.append {s : Settings} {paths : List String} {j j' : Journal}
    (h : Finds w s language paths j) (hj : j'.lastOf (searchCommand s language) = none) :
    Finds w s language paths (j ++ j') where
  nodup  := h.nodup
  listed := by
    rw [Journal.lastOf_append, hj]
    exact h.listed

theorem listOf_exited (w : World) (program : String) (arguments : List String)
    (output : Option String) :
    listOf w (.ofOutcome program arguments (.exited 0 output)) = w.searchable output :=
  rfl

theorem paths_addTo (w : World) (t : Toolchain) (a : Answers) (language : Language) :
    ∃ f, (a.addTo w t (t.bare w)).paths language.name =
      ((a.lists w t.settings.compiler f).of language).eraseDups := by
  let reported := (t.bare w).addReport (fieldsOf a.version)
  let ms := a.macrosOn t.platform
  have hn : (reported.addMacros ms).paths language.name = [] :=
    congrFun (reported.addMacros_beside ms).left _
  exact ⟨_, by rw [Answers.addTo, paths_addPaths, hn, Session.addFlags_nil]⟩

theorem populate_logs (w : World) (t : Toolchain) (language : Language) :
    (t.populate w (t.bare w)).Logs w fun f =>
      Finds w t.settings language (f.paths language.name) := by
  rw [populate_eq]
  refine .map (ask_logs w t.settings language) fun a j ⟨o, ha, hj⟩ => ?_
  have ⟨f, hf⟩ := paths_addTo w t a language
  rw [hf]
  refine ⟨Session.nodup_eraseDups _, o, hj, fun output ho hs => ?_⟩
  have hl : listOf w (a.search language) = w.searchable output := by
    rw [ha, ho, listOf_exited]
  rw [Answers.lists_of_listed (hl ▸ hs), hl]

theorem setup_logs (hc : c.get? (t.key w) = none) (language : Language) :
    (t.setup w c).Logs w fun x =>
      Finds w t.settings language (x.1.facts.paths language.name) := by
  simp only [setup, hc]
  refine .bind (populate_logs w t language) fun f j hf => .pure ?_
  rwa [Cache.keep_facts, List.append_nil]

theorem macrosOfFile_spares (w : World) (t : Toolchain) (file : String) (extra : List String)
    (language : Language) :
    (t.macrosOfFile w file extra).Spares w (searchCommand t.settings language) := by
  simp only [macrosOfFile]
  split
  case h_1 => exact .pure _
  case h_2 => exact .bind (sourceMacros_spares w t.settings language _ _ _ _) fun _ => .pure _

end Toolchain

namespace Session

open Probe Probing

variable {w : World} {s : Session}

theorem projectFor_beside (w : World) (s : Session) (source : String) :
    (s.projectFor w source).2.toolchain = s.toolchain ∧
    (s.projectFor w source).2.cache = s.cache := by
  simp only [projectFor]
  split
  case isFalse => exact ⟨rfl, rfl⟩
  case isTrue  => split <;> exact ⟨rfl, rfl⟩

theorem macrosFor_spares (w : World) (s : Session) (wanted : Bool) (facts : Facts)
    (source : String) (arguments : List String) (language : Language) :
    (s.macrosFor w wanted facts source arguments).Spares w
      (searchCommand s.toolchain.settings language) := by
  simp only [macrosFor]
  cases wanted
  case false => exact .pure _
  case true =>
    exact .bind (s.toolchain.macrosOfFile_spares w source arguments language) fun _ => .pure _

-- What is told of a source, once the arguments of its project are known.
structure Completes (w : World) (settings : Settings) (own : List String) (r : Resolved)
    (j : Journal) : Prop where
  finds     : Toolchain.Finds w settings r.language (r.facts.facts.paths r.language.name) j
  arguments : r.arguments = addFlags own (r.facts.facts.includeFlags r.language.name)
  language  : r.language = Language.ofFile r.source

theorem complete_logs (hc : s.cache.get? (s.toolchain.key w) = none) (project : Option Loaded)
    (source : String) (own : List String) (fileMacros : Bool) :
    (s.complete w project source own fileMacros).Logs w fun x j =>
      Completes w s.toolchain.settings own x.1 j ∧ x.1.project = project ∧ x.1.source = source := by
  refine .bind (Toolchain.setup_logs hc (Language.ofFile source)) fun ⟨entry, cache⟩ j hf => ?_
  refine .bind (macrosFor_spares w s fileMacros _ source _ (Language.ofFile source))
    fun ⟨macros, toolchain⟩ j' hm => .pure ?_
  rw [List.append_nil]
  dsimp only at hf ⊢
  refine ⟨⟨?finds, ?arguments, ?language⟩, rfl, rfl⟩
  case finds     => dsimp only; exact hf.append hm
  case arguments => dsimp only
  case language  => dsimp only

theorem resolve_ok {project : Option Loaded} {s' : Session} {own : List String} {source : String}
    {target : Option String} (hp : s.projectFor w source = (.ok project, s'))
    (ho : ownArguments w project (w.absoluteText source) target = .ok own) (fileMacros : Bool) :
    s.resolve w source target fileMacros =
      (fun x => (.ok x.1, x.2)) <$>
        s'.complete w project (w.absoluteText source) own fileMacros := by
  simp only [resolve, hp, ho]
  rfl

theorem includeFlag_injective : Function.Injective Project.includeFlag := by
  intro a b h
  simpa [Project.includeFlag] using h

theorem resolve_arguments (hc : s.cache.get? (s.toolchain.key w) = none) (source : String)
    (target : Option String) (fileMacros : Bool) :
    (s.resolve w source target fileMacros).Logs w fun x j => ∀ r, x.1 = .ok r →
      let flags := r.facts.facts.includeFlags r.language.name
      ∃ own,
        r.source = w.absoluteText source ∧ r.language = Language.ofFile r.source ∧
        (s.projectFor w source).1 = .ok r.project ∧
        (∀ respond, ownArguments { w with respond } r.project r.source target = .ok own) ∧
        r.arguments = own ++ flags.filter (· ∉ own) ∧ flags.Nodup ∧ flags ⊆ r.arguments ∧
        ∃ o, j.lastOf (searchCommand s.toolchain.settings r.language) = some o ∧
          ∀ output, o = .exited 0 output →
            let listed := w.searchable output
            (∀ d ∈ listed, w.absoluteText d = d ∧ w.isSearchable d = true) ∧
            (listed ≠ [] → flags = listed.eraseDups.map Project.includeFlag) := by
  have ⟨ht, hk⟩ := projectFor_beside w s source
  cases hp : s.projectFor w source
  case mk found s' =>
    rw [hp] at ht hk
    cases found
    case error e =>
      simp only [resolve, hp]
      exact .pure fun r hr => absurd hr (by simp)
    case ok project =>
      cases ho : ownArguments w project (w.absoluteText source) target
      case error e =>
        simp only [resolve, hp, ho]
        exact .pure fun r hr => absurd hr (by simp)
      case ok own =>
        -- No program has been started up to here.
        rw [resolve_ok hp ho]
        have hc' : s'.cache.get? (s'.toolchain.key w) = none := ht ▸ hk ▸ hc
        refine .map (complete_logs hc' project (w.absoluteText source) own fileMacros) ?_
        rintro ⟨r, _⟩ j ⟨hr, rfl, hs⟩ _ ⟨⟩
        dsimp only at hr hs ⊢
        have hn : (r.facts.facts.includeFlags r.language.name).Nodup :=
          hr.finds.nodup.map includeFlag_injective
        have ha := hr.arguments.trans <| addFlags_of_nodup hn own
        have ⟨o, hj, hl⟩ := hr.finds.listed
        refine ⟨own, hs, hr.language, rfl, fun _ => hs ▸ ho, ha, hn, fun flag hf => ?_, o, ht ▸ hj,
          fun output he => ⟨fun d hd => World.mem_searchable hd, fun hd => ?_⟩⟩
        case refine_1 =>
          rw [ha]
          by_cases hm : flag ∈ own <;> simp [hm, hf]
        case refine_2 => rw [← hl output he hd, Facts.includeFlags]

def listing : World :=
  { World.ruled [⟨"gcc", some (searchArguments .c), [], none, none, .exited 0 (some
      ("#include <...> search starts here:\n /b\n /a\n /a/../b\nEnd of search list.\n"))⟩] with
    systemDirectories := ["/a", "/b"] }

def rooted : Session :=
  let project := { Project.bare "/p" .rooted with systemIncludePaths := .list [.text "/a"] }
  ((start listing .standard none .empty).addProject project).2

theorem resolve_arguments_rooted :
    let answer := rooted.resolve listing "/p/x.c" none false []
    ∃ r, answer.1.1 = .ok r ∧ r.language = .c ∧ r.arguments = ["-I/a", "-I/p", "-I/b"] ∧
      r.facts.facts.includeFlags r.language.name = ["-I/b", "-I/a"] ∧
      ∃ own, r.arguments = own ++ ["-I/b", "-I/a"].filter (· ∉ own) := by
  intro answer
  have hc : rooted.cache.get? (rooted.toolchain.key listing) = none := rfl
  have ⟨_, _, h⟩ := resolve_arguments hc "/p/x.c" none false []
  have he : answer.1.1.toOption.map
      (fun r => (r.language, r.arguments, r.facts.facts.includeFlags r.language.name)) =
        some (.c, ["-I/a", "-I/p", "-I/b"], ["-I/b", "-I/a"]) := by decide +kernel
  have ⟨r, hr, hv⟩ := Option.map_eq_some_iff.mp he
  have ⟨hl, hv⟩ := Prod.mk.inj hv
  have ⟨ha, hf⟩ := Prod.mk.inj hv
  have hr : answer.1.1 = .ok r := by
    cases ho : answer.1.1 <;> simp_all [Except.toOption]
  have ⟨own, _, _, _, _, hs, _⟩ := h r hr
  exact ⟨r, hr, hl, ha, hf, own, hf ▸ hs⟩

end Session
end SourceFlags
