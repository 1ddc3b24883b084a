import Mathlib.Data.List.Nodup
import SourceFlags.Proofs.Table
import SourceFlags.Proofs.Toolchain.ReportPattern

namespace SourceFlags.VersionReport

open Text

inductive Kind
  | configured
  | version
  | target
  | threadModel
  | installedDir
  deriving DecidableEq

namespace Kind

def earlier : Kind → List Kind
  | configured   => []
  | version      => [configured]
  | target       => [configured, version]
  | threadModel  => [configured, version, target]
  | installedDir => [configured, version, target, threadModel]

def field? : Kind → Option String
  | configured   => none
  | version      => some "version"
  | target       => some "target"
  | threadModel  => some "thread_model"
  | installedDir => some "installed_dir"

def Fits : (k : Kind) → (line value : Chars) → Prop
  | configured   => FoundFirst fun _ after value => after = VersionReport.configured ++ value
  | version      => FoundFirst (IsVersion false)
  | target       => IsLabelled "Target:".toList
  | threadModel  => IsLabelled "Thread model:".toList
  | installedDir => IsTitled "InstalledDir:".toList

def find? : Kind → Chars → Option String
  | configured,   line => (afterFirst? VersionReport.configured line).map String.ofList
  | version,      line => versionFrom false line
  | target,       line => labelled? "Target:".toList line
  | threadModel,  line => labelled? "Thread model:".toList line
  | installedDir, line => rest? "InstalledDir:".toList line

-- A line is of the first kind that it fits.
def Tells (k : Kind) (line value : Chars) : Prop :=
  k.Fits line value ∧ ∀ k' ∈ k.earlier, ∀ value', ¬k'.Fits line value'

end Kind

def TellOnce (ls : List Chars) : Prop :=
  ls.Pairwise fun l l' => ∀ k value value', Kind.Tells k l value → ¬Kind.Tells k l' value'

variable {line value : Chars} {s : String}

namespace Kind

variable {k k' : Kind} {name : String}

theorem find?_eq_some_iff : k.find? line = some s ↔ k.Fits line s.toList := by
  cases k
  case version      => exact versionFrom_eq_some_iff false
  case target       => exact labelled?_eq_some_iff
  case threadModel  => exact labelled?_eq_some_iff
  case installedDir => exact rest?_eq_some_iff
  case configured =>
    have hn : VersionReport.configured ≠ [] := by decide
    simp only [find?, Fits, ← afterFirst?_eq_some_iff hn, Option.map_eq_some_iff]
    constructor
    case mp =>
      rintro ⟨rest, h, rfl⟩
      rwa [String.toList_ofList]
    case mpr => exact fun h => ⟨_, h, String.ofList_toList⟩

theorem fits_iff : k.Fits line value ↔ k.find? line = some (String.ofList value) := by
  rw [find?_eq_some_iff, String.toList_ofList]

theorem not_fits_iff : (∀ value, ¬k.Fits line value) ↔ k.find? line = none := by
  simp only [fits_iff, Option.eq_none_iff_forall_ne_some]
  exact ⟨fun h s => by simpa using h s.toList, fun h value => h _⟩

theorem tells_iff : k.Tells line value ↔
    k.find? line = some (String.ofList value) ∧ ∀ k' ∈ k.earlier, k'.find? line = none := by
  simp only [Tells, fits_iff, ← not_fits_iff]

theorem earlier_total (k k' : Kind) : k = k' ∨ k ∈ k'.earlier ∨ k' ∈ k.earlier := by
  cases k <;> cases k' <;> decide

theorem earlier_length_lt (h : k' ∈ k.earlier) : k'.earlier.length < k.earlier.length := by
  cases k <;> cases k' <;> revert h <;> decide

theorem Tells.unique {value' : Chars} (h : k.Tells line value) (h' : k'.Tells line value') :
    k = k' ∧ value = value' := by
  rcases earlier_total k k' with rfl | hk | hk
  case inl =>
    have hs := (fits_iff.mp h.left).symm.trans (fits_iff.mp h'.left)
    exact ⟨rfl, String.ofList_inj.mp (Option.some.inj hs)⟩
  case inr.inl => exact absurd h.left (h'.right k hk value)
  case inr.inr => exact absurd h'.left (h.right k' hk value')

theorem exists_tells {k : Kind} {value : Chars} (h : k.Fits line value) :
    ∃ k' value', Tells k' line value' := by
  by_cases he : ∀ k' ∈ k.earlier, ∀ value', ¬k'.Fits line value'
  case pos => exact ⟨k, value, h, he⟩
  case neg =>
    simp only [not_forall, not_not] at he
    have ⟨k', hk, value', h'⟩ := he
    exact exists_tells h'
termination_by k.earlier.length
decreasing_by exact earlier_length_lt hk

theorem classify_of_tells (h : k.Tells line value) :
    classify line = match k.field? with
      | none      => .options (options value)
      | some name => .field name (String.ofList value) := by
  have ⟨hf, he⟩ := tells_iff.mp h
  cases k
  case configured =>
    have ⟨rest, hr, hv⟩ := Option.map_eq_some_iff.mp hf
    rw [classify, hr, String.ofList_inj.mp hv]
    rfl
  all_goals
    simp only [earlier, List.forall_mem_cons, find?, Option.map_eq_none_iff] at hf he
    simp only [classify, hf, he]
    rfl

theorem exists_tells_or_other (line : Chars) :
    (∃ k value, Tells k line value) ∨ classify line = .other := by
  refine or_iff_not_imp_left.mpr fun h => ?_
  have hn (k : Kind) : k.find? line = none := not_fits_iff.mp fun value hf => h (exists_tells hf)
  have hc := Option.map_eq_none_iff.mp (hn configured)
  have hv : versionFrom false line = none := hn version
  have ht : labelled? "Target:".toList line = none := hn target
  have hm : labelled? "Thread model:".toList line = none := hn threadModel
  have hi : rest? "InstalledDir:".toList line = none := hn installedDir
  simp only [classify, hc, hv, ht, hm, hi]

theorem field?_injective (h : k.field? = k'.field?) : k = k' := by
  cases k <;> cases k' <;> revert h <;> decide

end Kind

-- What sets apart the lines that tell something: the field, if it is not the options.
def Line.heading? : Line → Option (Option String)
  | .options _    => some none
  | .field name _ => some (some name)
  | .other        => none

theorem heading?_eq_some_iff {field? : Option String} :
    (classify line).heading? = some field? ↔
      ∃ k value, Kind.Tells k line value ∧ k.field? = field? := by
  constructor
  case mp =>
    intro h
    rcases Kind.exists_tells_or_other line with ⟨k, value, ht⟩ | hc
    case inr =>
      rw [hc] at h
      contradiction
    case inl =>
      rw [Kind.classify_of_tells ht] at h
      refine ⟨k, value, ht, ?_⟩
      split at h <;> simp_all [Line.heading?]
  case mpr =>
    rintro ⟨k, value, ht, rfl⟩
    rw [Kind.classify_of_tells ht]
    split <;> simp_all [Line.heading?]

variable {ls : List Chars} {found : List Line}

theorem tellOnce_iff : TellOnce ls ↔ ((ls.map classify).filterMap Line.heading?).Nodup := by
  rw [List.filterMap_map, List.Nodup, List.pairwise_filterMap, TellOnce]
  refine iff_of_eq <| congrArg (List.Pairwise · ls) <| funext₂ fun l l' => propext ?_
  simp only [Function.comp_apply, heading?_eq_some_iff]
  constructor
  case mp =>
    rintro h _ ⟨k, value, ht, rfl⟩ _ ⟨k', value', ht', rfl⟩ hk
    exact h k value value' ht (Kind.field?_injective hk ▸ ht')
  case mpr =>
    exact fun h k value value' ht ht' => h _ ⟨k, value, ht, rfl⟩ _ ⟨k, value', ht', rfl⟩ rfl

instance (ls : List Chars) : Decidable (TellOnce ls) :=
  decidable_of_iff _ tellOnce_iff.symm

theorem names_flatMap_nodup {entries : Line → Fields} (h : (found.filterMap Line.heading?).Nodup)
    (hn : ∀ l ∈ found, (entries l).names.Nodup)
    (hh : ∀ l l', ∀ name ∈ (entries l).names, name ∈ (entries l').names →
      ∃ heading, l.heading? = some heading ∧ l'.heading? = some heading) :
    (Table.names (found.flatMap entries)).Nodup := by
  rw [Table.names, List.map_flatMap, List.nodup_flatMap]
  refine ⟨hn, (List.pairwise_filterMap.mp h).imp fun {l l'} hd name hm hm' => ?_⟩
  obtain ⟨heading, hl, hl'⟩ := hh l l' name hm hm'
  exact hd heading hl heading hl' rfl

theorem names_fields_nodup (h : (found.filterMap Line.heading?).Nodup) :
    (Table.names (found.flatMap fieldOf)).Nodup := by
  refine names_flatMap_nodup h (fun l _ => ?_) (fun l l' name hm hm' => ?_)
  case refine_1 => cases l <;> simp [fieldOf, Table.names]
  case refine_2 => cases l <;> cases l' <;> simp_all [fieldOf, Table.names, Line.heading?]

theorem names_optionsOf_nodup (line : Chars) : (optionsOf (classify line)).names.Nodup := by
  cases hc : classify line
  case field => exact List.nodup_nil
  case other => exact List.nodup_nil
  case options fs =>
    have ⟨k, value, ht, hk⟩ := heading?_eq_some_iff.mp (congrArg Line.heading? hc)
    rw [Kind.classify_of_tells ht, hk] at hc
    cases hc
    exact Table.names_overlay_nodup (t := []) List.nodup_nil _

theorem names_options_nodup (h : ((ls.map classify).filterMap Line.heading?).Nodup) :
    (Table.names ((ls.map classify).flatMap optionsOf)).Nodup := by
  refine names_flatMap_nodup h (fun l hl => ?_) (fun l l' name hm hm' => ?_)
  case refine_1 =>
    have ⟨line, _, hl⟩ := List.mem_map.mp hl
    exact hl ▸ names_optionsOf_nodup line
  case refine_2 => cases l <;> cases l' <;> simp_all [optionsOf, Table.names, Line.heading?]

theorem names_read_nodup (output : String) : (read output).names.Nodup :=
  Table.names_overlay_nodup (Table.names_overlay_nodup (t := []) List.nodup_nil _) _

-- Where no two lines tell the same, nothing that they tell is written over by another line.
theorem get?_read {output : String} (h : TellOnce (lines output.toList)) (name : String) :
    let found := (lines output.toList).map classify
    (read output).get? name =
      (Table.get? (found.flatMap fieldOf) name).or (Table.get? (found.flatMap optionsOf) name) := by
  have hn := tellOnce_iff.mp h
  have hf := Table.ofPairs_of_nodup (names_fields_nodup hn)
  have ho := Table.ofPairs_of_nodup (names_options_nodup hn)
  simp only [read, Table.get?_overlay, hf, ho]

theorem TellOnce.perm {ls' : List Chars} (hp : ls.Perm ls') (h : TellOnce ls) : TellOnce ls' :=
  tellOnce_iff.mpr <| (hp.map classify |>.filterMap Line.heading?).nodup_iff.mp <| tellOnce_iff.mp h

theorem mem_fields_iff {name : String} {field : Option String} :
    (name, field) ∈ (ls.map classify).flatMap fieldOf ↔
      ∃ line ∈ ls, ∃ k value, Kind.Tells k line value ∧ k.field? = some name ∧
        field = some (String.ofList value) := by
  rw [List.flatMap_map, List.mem_flatMap]
  refine exists_congr fun line => and_congr_right fun _ => ?_
  constructor
  case mp =>
    intro h
    rcases Kind.exists_tells_or_other line with ⟨k, value, ht⟩ | hc
    case inr =>
      rw [hc] at h
      contradiction
    case inl =>
      rw [Kind.classify_of_tells ht] at h
      refine ⟨k, value, ht, ?_⟩
      split at h <;> simp_all [fieldOf]
  case mpr =>
    rintro ⟨k, value, ht, hk, rfl⟩
    rw [Kind.classify_of_tells ht, hk]
    exact List.mem_singleton_self _

theorem optionsOf_eq_nil (h : ∀ value, ¬Kind.Tells .configured line value) :
    optionsOf (classify line) = [] := by
  rcases Kind.exists_tells_or_other line with ⟨k, value, ht⟩ | hc
  case inr => rw [hc]; rfl
  case inl =>
    rw [Kind.classify_of_tells ht]
    cases k
    case configured => exact absurd ht (h value)
    all_goals rfl

theorem options_eq (h : TellOnce ls) (hm : line ∈ ls) (ht : Kind.Tells .configured line value) :
    (ls.map classify).flatMap optionsOf = options value := by
  obtain ⟨before, after, rfl⟩ := List.append_of_mem hm
  have ⟨_, ha, hb⟩ := List.pairwise_append.mp h
  have hb : before.flatMap (optionsOf ∘ classify) = [] :=
    List.flatMap_eq_nil_iff.mpr fun l hl => optionsOf_eq_nil fun value' ht' =>
      hb l hl line List.mem_cons_self _ value' value ht' ht
  have ha : after.flatMap (optionsOf ∘ classify) = [] :=
    List.flatMap_eq_nil_iff.mpr fun l hl => optionsOf_eq_nil fun value' ht' =>
      (List.pairwise_cons.mp ha).left l hl _ value value' ht ht'
  have hl : optionsOf (classify line) = options value := by
    rw [Kind.classify_of_tells ht]
    rfl
  rw [List.flatMap_map]
  change (before ++ line :: after).flatMap (optionsOf ∘ classify) = options value
  rw [List.flatMap_append, List.flatMap_cons, hb, ha, List.append_nil]
  exact hl

theorem read_perm {output other : String}
    (hp : (lines output.toList).Perm (lines other.toList)) (h : TellOnce (lines output.toList)) :
    ((read output).Perm (read other) ∧ ∀ name, (read output).get? name = (read other).get? name) ∧
    (∀ line ∈ lines output.toList, ∀ k name value, k.field? = some name → Kind.Tells k line value →
      (read output).get? name = some (some (String.ofList value))) ∧
    (∀ name, (∀ line ∈ lines output.toList, ∀ k value, Kind.Tells k line value →
        k.field? ≠ some name) →
      ∀ line ∈ lines output.toList, ∀ value, Kind.Tells .configured line value →
        (read output).get? name = (options value).get? name) := by
  have hn := tellOnce_iff.mp h
  have hf := names_fields_nodup hn
  have ho := names_options_nodup hn
  -- Both texts tell the same fields and options, only in another order.
  have hg (name : String) : (read output).get? name = (read other).get? name := by
    have hpf := hp.map classify |>.flatMap_right fieldOf
    have hpo := hp.map classify |>.flatMap_right optionsOf
    rw [get?_read h, get?_read (h.perm hp), Table.get?_of_perm hpf hf, Table.get?_of_perm hpo ho]
  refine ⟨⟨Table.perm_of_get? (names_read_nodup _) (names_read_nodup _) hg, hg⟩, ?field, ?option⟩
  case field =>
    intro line hm k name value hk ht
    have hm := mem_fields_iff.mpr ⟨line, hm, k, value, ht, hk, rfl⟩
    rw [get?_read h, (Table.get?_eq_some_iff hf).mpr hm, Option.some_or]
  case option =>
    intro name ha line hm value ht
    have hn : name ∉ Table.names (((lines output.toList).map classify).flatMap fieldOf) := by
      intro hc
      obtain ⟨⟨_, field⟩, hm, rfl⟩ := List.mem_map.mp hc
      have ⟨line, hl, k, value, ht, hk, _⟩ := mem_fields_iff.mp hm
      exact ha line hl k value ht hk
    rw [get?_read h, Table.get?_of_not_mem hn, Option.none_or, options_eq h hm ht]

theorem read_perm_shuffled :
    let target := "Target: arm"
    let configured := "Configured with: --target=x86 --prefix=/usr"
    let version := "gcc version 13.2.0 (Target: x)"
    let output := "\n".intercalate [target, "cc1", configured, version]
    let other := "\r\n".intercalate [version, configured, "cc1", target]
    (lines output.toList).Perm (lines other.toList) ∧ TellOnce (lines output.toList) ∧
    (read output).Perm (read other) ∧
    (read output).get? "target" = some (some "arm") ∧
    (read output).get? "version" = some (some "13.2.0") ∧
    (read output).get? "prefix" = some (some "/usr") := by
  intro target configured version output other
  have hl : lines output.toList = [target, "cc1", configured, version].map String.toList := by
    decide +kernel
  have hl' : lines other.toList = [version, configured, "cc1", target].map String.toList := by
    decide +kernel
  have hp : (lines output.toList).Perm (lines other.toList) := by
    rw [hl, hl']
    decide +kernel
  have ho : TellOnce (lines output.toList) := by
    rw [hl]
    decide +kernel
  have ⟨hr, hf, hc⟩ := read_perm hp ho
  have ht : Kind.Tells .target target.toList "arm".toList :=
    Kind.tells_iff.mpr (by decide +kernel)
  have hv : Kind.Tells .version version.toList "13.2.0".toList :=
    Kind.tells_iff.mpr (by decide +kernel)
  have hs : Kind.Tells .configured configured.toList " --target=x86 --prefix=/usr".toList :=
    Kind.tells_iff.mpr (by decide +kernel)
  have hm : ∀ line ∈ [target, configured, version], line.toList ∈ lines output.toList := by
    rw [hl]
    decide +kernel
  have hn (k : Kind) : k.field? ≠ some "prefix" := by cases k <;> decide
  refine ⟨hp, ho, hr.left, ?_, ?_, ?_⟩
  · simpa using hf _ (hm target (by simp)) _ "target" _ rfl ht
  · simpa using hf _ (hm version (by simp)) _ "version" _ rfl hv
  · rw [hc "prefix" (fun _ _ k _ _ => hn k) _ (hm configured (by simp)) _ hs]
    decide +kernel

end SourceFlags.VersionReport
