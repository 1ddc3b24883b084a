import Mathlib.Data.List.Basic
import SourceFlags.Project.Arguments

namespace SourceFlags.Project

open Text

def wordsOf (value : String) : List String :=
  (words value.toList).map String.ofList

def IsBare (word : String) : Prop :=
  word = "-I" ∨ word = "-D"

instance (word : String) : Decidable (IsBare word) :=
  inferInstanceAs <| Decidable (word = "-I" ∨ word = "-D")

def isFlag (word : String) : Bool :=
  "-I".toList.isPrefixOf word.toList || "-D".toList.isPrefixOf word.toList

def attached? (word : String) : Option (String × String) :=
  match word.toList with
  | '-' :: 'I' :: c :: cs => some ("-I", String.ofList (c :: cs))
  | '-' :: 'D' :: c :: cs => some ("-D", String.ofList (c :: cs))
  | _                     => none

def operands : List String → List (String × String)
  | []                   => []
  | [word]               => (attached? word).toList
  | word :: next :: rest =>
    if IsBare word then (word, next) :: operands rest
    else (attached? word).toList ++ operands (next :: rest)

def flagValues (own : Bindings) (configurations : Configurations) (configuration : String)
    (target : Option Target) : List String :=
  (own ++ configurations.bindings configuration ++
    (target.map (·.configurations.bindings configuration)).getD []).map (·.2)

variable {value word flag operand : String} {values ws : List String}

theorem flagWords_eq (value : String) : flagWords value = (wordsOf value).filter isFlag := by
  simp only [flagWords, wordsOf, List.filter_map]
  congr 1
  exact List.filter_congr fun w _ => by simp [isFlag]

theorem describedArguments_eq (p : Project) (own : Bindings) (configurations : Configurations)
    (configuration : String) (target : Option Target) :
    p.describedArguments own configurations configuration target =
      includeFlag p.root ::
        (flagValues own configurations configuration target).flatMap flagWords := by
  simp only [describedArguments, flagValues, List.flatMap_map]

theorem isFlag_of_isBare (h : IsBare word) : isFlag word = true := by
  rcases h with rfl | rfl <;> decide

theorem isFlag_of_attached? (h : (attached? word).isSome) : isFlag word = true := by
  unfold attached? at h
  split at h
  case h_1 hw => simp [isFlag, hw]
  case h_2 hw => simp [isFlag, hw]
  case h_3    => contradiction

theorem mem_flagWords_iff : word ∈ flagWords value ↔ word ∈ wordsOf value ∧ isFlag word = true := by
  rw [flagWords_eq, List.mem_filter]

theorem isBare_includeFlag_iff (root : String) : IsBare (includeFlag root) ↔ root = "" := by
  simp only [IsBare, includeFlag, ← String.toList_inj, String.toList_append]
  simp

theorem attached?_includeFlag {root : String} (h : root ≠ "") :
    attached? (includeFlag root) = some ("-I", root) := by
  have hs : (includeFlag root).toList = '-' :: 'I' :: root.toList := by simp [includeFlag]
  cases hr : root.toList
  case nil       => exact absurd (String.toList_inj.mp hr) h
  case cons c cs =>
    simp only [attached?, hs, hr]
    rw [← hr, String.ofList_toList]

theorem operands_cons (h : ¬IsBare word) (ws : List String) :
    operands (word :: ws) = (attached? word).toList ++ operands ws := by
  cases ws
  case nil  => simp [operands]
  case cons => rw [operands, if_neg h]

theorem operands_of_none_bare (h : ∀ word ∈ ws, ¬IsBare word) :
    operands ws = ws.filterMap attached? := by
  induction ws
  case nil => rfl
  case cons word ws hi =>
    have ⟨hw, hs⟩ := List.forall_mem_cons.mp h
    rw [operands_cons hw, hi hs, List.filterMap_cons]
    cases attached? word <;> rfl

theorem filterMap_flagWords (value : String) :
    (flagWords value).filterMap attached? = (wordsOf value).filterMap attached? := by
  rw [flagWords_eq, List.filterMap_filter]
  congr 1
  funext word
  cases h : attached? word
  case none   => simp
  case some x => simp [isFlag_of_attached? (h.symm ▸ rfl : (attached? word).isSome)]

theorem none_bare_iff {root : String} :
    (∀ word ∈ includeFlag root :: values.flatMap flagWords, ¬IsBare word) ↔
      root ≠ "" ∧ ∀ value ∈ values, ∀ word ∈ wordsOf value, ¬IsBare word := by
  simp only [List.forall_mem_cons, isBare_includeFlag_iff, List.mem_flatMap, mem_flagWords_iff]
  constructor
  case mp =>
    rintro ⟨hr, hw⟩
    exact ⟨hr, fun value hv word hm hb => hw word ⟨value, hv, hm, isFlag_of_isBare hb⟩ hb⟩
  case mpr =>
    rintro ⟨hr, hw⟩
    exact ⟨hr, fun word ⟨value, hv, hm, _⟩ => hw value hv word hm⟩

theorem isFlag_append (h : IsBare flag) (operand : String) : isFlag (flag ++ operand) = true := by
  rcases h with rfl | rfl <;> simp [isFlag]

theorem isFlag_of_mem {root : String} (h : word ∈ includeFlag root :: values.flatMap flagWords) :
    isFlag word = true := by
  simp only [List.mem_cons, List.mem_flatMap, mem_flagWords_iff] at h
  rcases h with rfl | ⟨_, _, _, h⟩
  · exact isFlag_append (.inl rfl) root
  · exact h

-- Where all flags of the values are attached, the arguments have no bare flag, and a compiler finds
-- the root and what it would find in the values. A bare flag is passed on without its operand, so
-- that operand is only found if the flag stands somewhere else with it attached.
theorem describedArguments_operands (p : Project) (own : Bindings) (configurations : Configurations)
    (configuration : String) (target : Option Target) :
    let values := flagValues own configurations configuration target
    let arguments := p.describedArguments own configurations configuration target
    ((∀ word ∈ arguments, ¬IsBare word) ↔
      p.root ≠ "" ∧ ∀ value ∈ values, ∀ word ∈ wordsOf value, ¬IsBare word) ∧
    ((∀ word ∈ arguments, ¬IsBare word) →
      operands arguments = ("-I", p.root) :: values.flatMap fun value => operands (wordsOf value)) ∧
    ∀ flag operand, IsBare flag → isFlag operand = false →
      (flag ++ operand ∈ arguments ∨ [flag, operand] <:+: arguments ↔
        flag ++ operand = includeFlag p.root ∨
          ∃ value ∈ values, flag ++ operand ∈ wordsOf value) := by
  intro values arguments
  have heq : arguments = includeFlag p.root :: values.flatMap flagWords :=
    describedArguments_eq p own configurations configuration target
  clear_value arguments values
  subst heq
  refine ⟨none_bare_iff, fun h => ?attached, fun flag operand hf ho => ?apart⟩
  case attached =>
    have ⟨hr, hw⟩ := none_bare_iff.mp h
    rw [operands_of_none_bare h, List.filterMap_cons, attached?_includeFlag hr]
    simp only [List.filterMap_flatMap, filterMap_flagWords]
    congr 1
    exact List.flatMap_congr fun value hv => (operands_of_none_bare (hw value hv)).symm
  case apart =>
    -- All arguments are flags, so an operand cannot stand among them by itself.
    have hapart : ¬[flag, operand] <:+: includeFlag p.root :: values.flatMap flagWords := by
      intro h
      have hm := isFlag_of_mem (h.subset (List.mem_cons_of_mem _ (List.mem_singleton.mpr rfl)))
      rw [ho] at hm
      contradiction
    simp [hapart, mem_flagWords_iff, isFlag_append hf]

-- With attached operands all is found. A bare flag takes the next flag for its operand, and its own
-- operand is lost.
theorem describedArguments_operands_attached_and_apart :
    let arguments := fun value =>
      (bare "/p" .plain).describedArguments [("CPPFLAGS", value)] [] "" none
    (∀ word ∈ arguments "-O -Ia -DB", ¬IsBare word) ∧
    operands (arguments "-O -Ia -DB") = [("-I", "/p"), ("-I", "a"), ("-D", "B")] ∧
    ¬(∀ word ∈ arguments "-I a -DB", ¬IsBare word) ∧
    ¬("-Ia" ∈ arguments "-I a -DB" ∨ ["-I", "a"] <:+: arguments "-I a -DB") ∧
    operands (arguments "-I a -DB") = [("-I", "/p"), ("-I", "-DB")] := by
  intro arguments
  have hvalues (value) : flagValues [("CPPFLAGS", value)] [] "" none = [value] := rfl
  have ⟨hattached, hfound, _⟩ :=
    describedArguments_operands (bare "/p" .plain) [("CPPFLAGS", "-O -Ia -DB")] [] "" none
  have ⟨hbare, _, hapart⟩ :=
    describedArguments_operands (bare "/p" .plain) [("CPPFLAGS", "-I a -DB")] [] "" none
  have hwords : wordsOf "-O -Ia -DB" = ["-O", "-Ia", "-DB"] := by decide
  have hwords' : wordsOf "-I a -DB" = ["-I", "a", "-DB"] := by decide
  have hlost := hapart "-I" "a" (by decide) (by decide)
  simp only [hvalues, List.mem_singleton, forall_eq, exists_eq_left, hwords, hwords']
    at hattached hbare hlost
  have hnone := hattached.mpr (by decide)
  refine ⟨hnone, (hfound hnone).trans ?_, hbare.not.mpr (by decide), hlost.not.mpr (by decide), ?_⟩
  · rw [hvalues, List.flatMap_singleton, hwords]
    rfl
  · decide

end SourceFlags.Project
