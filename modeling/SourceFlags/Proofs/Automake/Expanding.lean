import SourceFlags.Proofs.Automake.Reference

namespace SourceFlags.Automake

open Text

-- What pieces stand for that are found in the value of the last of `depth` nested variables. A
-- builtin is taken as it is, and the value of a variable is filled in by itself. Variables beyond the
-- limit, if there is one, stand for nothing, like names that nothing is known of.
inductive Expands (bindings builtins : Table String) (limit : Option Nat) :
    (depth : Nat) → List Piece → Chars → Prop
  | nil {depth : Nat} : Expands bindings builtins limit depth [] []
  | char {depth : Nat} {ps : List Piece} {text : Chars} (c : Char)
      (h : Expands bindings builtins limit depth ps text) :
      Expands bindings builtins limit depth (.char c :: ps) (c :: text)
  | builtin {depth : Nat} {name known : String} {ps : List Piece} {text : Chars}
      (hb : builtins.get? name = some known) (h : Expands bindings builtins limit depth ps text) :
      Expands bindings builtins limit depth (.reference name :: ps) (known.toList ++ text)
  | binding {depth : Nat} {name value : String} {ps qs : List Piece} {inner text : Chars}
      (hb : builtins.get? name = none) (hv : bindings.get? name = some value)
      (hl : ∀ l ∈ limit, depth < l) (hr : Reads value.toList qs)
      (hi : Expands bindings builtins limit (depth + 1) qs inner)
      (h : Expands bindings builtins limit depth ps text) :
      Expands bindings builtins limit depth (.reference name :: ps) (inner ++ text)
  | missing {depth : Nat} {name : String} {ps : List Piece} {text : Chars}
      (hb : builtins.get? name = none)
      (hv : bindings.get? name = none ∨ ∃ l ∈ limit, l ≤ depth)
      (h : Expands bindings builtins limit depth ps text) :
      Expands bindings builtins limit depth (.reference name :: ps) text

def StandsFor (bindings builtins : Table String) (limit : Option Nat) (value text : String) : Prop :=
  ∃ ps, Reads value.toList ps ∧ Expands bindings builtins limit 0 ps text.toList

-- Variables of which the first is referred to in a text, and each other one in the value of the one
-- before it. Variables that refer to each other in a circle have chains of every length.
inductive IsChain (bindings builtins : Table String) : (cs : Chars) → List String → Prop
  | nil {cs : Chars} : IsChain bindings builtins cs []
  | cons {cs : Chars} {ps : List Piece} {name value : String} {names : List String}
      (hr : Reads cs ps) (hm : .reference name ∈ ps) (hb : builtins.get? name = none)
      (hv : bindings.get? name = some value)
      (h : IsChain bindings builtins value.toList names) :
      IsChain bindings builtins cs (name :: names)

def valueOf? (bindings builtins : Table String) : Piece → Option String
  | .char _         => none
  | .reference name => if (builtins.get? name).isSome then none else bindings.get? name

def nestsWithin (bindings builtins : Table String) : (depth : Nat) → Chars → Bool
  | 0, cs         => (pieces cs).all fun p => (valueOf? bindings builtins p).isNone
  | depth + 1, cs => (pieces cs).all fun p =>
    (valueOf? bindings builtins p).all fun value => nestsWithin bindings builtins depth value.toList

variable {bindings builtins : Table String} {limit : Option Nat} {depth nested : Nat}
  {name value : String} {names : List String} {cs text : Chars} {ps : List Piece}
  {inner : Chars → Chars}

theorem fill_builtin {known : String} (h : builtins.get? name = some known) :
    fill bindings builtins inner (.reference name) = known.toList := by
  simp only [fill, h]

theorem fill_binding (hb : builtins.get? name = none) (hv : bindings.get? name = some value) :
    fill bindings builtins inner (.reference name) = inner value.toList := by
  simp only [fill, hb, hv]

theorem fill_unknown (hb : builtins.get? name = none) (hv : bindings.get? name = none) :
    fill bindings builtins inner (.reference name) = [] := by
  simp only [fill, hb, hv]

-- Under a limit the rules have a result for every text: in the value of a variable fewer variables
-- are still allowed.
theorem expands_fill (bindings builtins : Table String) {limit depth nested : Nat}
    (h : depth + nested = limit) (ps : List Piece) :
    Expands bindings builtins (some limit) depth ps
      (ps.flatMap (fill bindings builtins (expandChars bindings builtins nested))) := by
  match ps with
  | [] => exact .nil
  | .char c :: ps => exact .char c (expands_fill bindings builtins h ps)
  | .reference name :: ps =>
    have hp := expands_fill bindings builtins h ps
    rw [List.flatMap_cons]
    cases hb : builtins.get? name
    case some known => exact fill_builtin hb ▸ .builtin hb hp
    case none =>
      cases hv : bindings.get? name
      case none       => exact fill_unknown hb hv ▸ .missing hb (.inl hv) hp
      case some value =>
        rw [fill_binding hb hv]
        match nested with
        | 0          => exact .missing hb (.inr ⟨limit, rfl, h.ge⟩) hp
        | nested + 1 =>
          have hl : ∀ l ∈ some limit, depth < l := fun l hm => by cases hm; omega
          have hd : depth + 1 + nested = limit := by omega
          have hi := expands_fill bindings builtins hd (pieces value.toList)
          exact .binding hb hv hl (reads_pieces value.toList) hi hp
termination_by (nested, ps.length)

theorem Expands.fill_eq {limit : Nat} (h : Expands bindings builtins (some limit) depth ps text)
    (hn : depth + nested = limit) :
    ps.flatMap (fill bindings builtins (expandChars bindings builtins nested)) = text := by
  induction h generalizing nested
  case nil               => rfl
  case char hi           => rw [List.flatMap_cons, hi hn]; rfl
  case builtin hb _ hi   => rw [List.flatMap_cons, fill_builtin hb, hi hn]
  case binding hb hv hl hr _ _ hq hi =>
    have hl := hl limit rfl
    have ⟨m, he⟩ := Nat.exists_eq_succ_of_ne_zero (n := nested) (by omega)
    rw [List.flatMap_cons, fill_binding hb hv, hi hn, he, expandChars, hr.pieces_eq, hq (by omega)]
  case missing hb hv _ hi =>
    rw [List.flatMap_cons, hi hn]
    cases hu : bindings.get? _
    case none => rw [fill_unknown hb hu, List.nil_append]
    case some =>
      have ⟨l, hl, hd⟩ := hv.resolve_left (by simp [hu])
      have hz : nested = 0 := by cases hl; omega
      rw [fill_binding hb hu, hz, expandChars, List.nil_append]

def ChainsWithin (bindings builtins : Table String) (length : Nat) (ps : List Piece) : Prop :=
  ∀ name value names, .reference name ∈ ps → builtins.get? name = none →
    bindings.get? name = some value → IsChain bindings builtins value.toList names →
    names.length < length

theorem ChainsWithin.tail {p : Piece} (h : ChainsWithin bindings builtins nested (p :: ps)) :
    ChainsWithin bindings builtins nested ps :=
  fun name value names hm => h name value names (List.mem_cons_of_mem p hm)

theorem Expands.of_chainsWithin {limit' : Option Nat}
    (h : Expands bindings builtins limit depth ps text)
    (hs : ChainsWithin bindings builtins nested ps) (hl : ∀ l ∈ limit, depth + nested ≤ l)
    (hl' : ∀ l ∈ limit', depth + nested ≤ l) : Expands bindings builtins limit' depth ps text := by
  induction h generalizing nested
  case nil             => exact .nil
  case char c _ hi     => exact .char c (hi hs.tail hl hl')
  case builtin hb _ hi => exact .builtin hb (hi hs.tail hl hl')
  case binding name value ps qs _ _ hb hv _ hr _ _ hq hi =>
    have hd := hs name value [] List.mem_cons_self hb hv .nil
    have ⟨m, he⟩ := Nat.exists_eq_succ_of_ne_zero hd.ne'
    have hqs : ChainsWithin bindings builtins m qs := fun inner _ names hm hb' hv' hc => by
      have := hs name value (inner :: names) List.mem_cons_self hb hv (.cons hr hm hb' hv' hc)
      exact Nat.lt_of_succ_lt_succ (he ▸ this)
    have hq := hq hqs (fun l hm => by have := hl l hm; omega) fun l hm => by
      have := hl' l hm; omega
    exact .binding hb hv (fun l hm => by have := hl' l hm; omega) hr hq (hi hs.tail hl hl')
  case missing name ps _ hb hv _ hi =>
    -- A variable that the first limit forbids would be a chain of one, which is too long.
    refine .missing hb (.inl ?_) (hi hs.tail hl hl')
    refine hv.elim id fun ⟨l, hm, hd⟩ => Option.eq_none_iff_forall_ne_some.mpr fun value hv => ?_
    have := hs name value [] List.mem_cons_self hb hv .nil
    have := hl l hm
    omega

theorem length_le_of_nestsWithin (h : nestsWithin bindings builtins depth cs = true)
    (hc : IsChain bindings builtins cs names) : names.length ≤ depth := by
  induction hc generalizing depth
  case nil => exact Nat.zero_le _
  case cons name value names hr hm hb hv _ hi =>
    have hp : valueOf? bindings builtins (.reference name) = some value := by simp [valueOf?, hb, hv]
    rw [← hr.pieces_eq] at hm
    cases depth
    case zero =>
      have h := List.all_eq_true.mp h _ hm
      rw [hp] at h
      contradiction
    case succ =>
      have h := List.all_eq_true.mp h _ hm
      rw [hp] at h
      exact Nat.succ_le_succ (hi h)

theorem standsFor_limit_iff {text : String} {limit : Nat} :
    StandsFor bindings builtins (some limit) value text ↔
      expandChars bindings builtins (limit + 1) value.toList = text.toList := by
  constructor
  case mp =>
    rintro ⟨ps, hr, h⟩
    rw [expandChars, hr.pieces_eq]
    exact h.fill_eq (Nat.zero_add limit)
  case mpr =>
    intro h
    exact ⟨_, reads_pieces _, h ▸ expands_fill bindings builtins (Nat.zero_add limit) _⟩

theorem standsFor_iff_of_chains {text : String} {limit : Nat}
    (h : ∀ names, IsChain bindings builtins value.toList names → names.length ≤ limit) :
    StandsFor bindings builtins none value text ↔
      StandsFor bindings builtins (some limit) value text := by
  refine exists_congr fun ps => and_congr_right fun hr => ?_
  have hs : ChainsWithin bindings builtins limit ps :=
    fun name _ names hm hb hv hc => h (name :: names) (.cons hr hm hb hv hc)
  have hl : ∀ l ∈ some limit, 0 + limit ≤ l := fun l hm => by cases hm; omega
  exact ⟨(·.of_chainsWithin hs nofun hl), (·.of_chainsWithin hs hl nofun)⟩

-- Filling in always ends, with one text, also where variables refer to each other in a circle. It
-- gives what a text stands for without a limit if no chain of variables is longer than the limit.
theorem expand_standsFor (bindings builtins : Table String) (value : String) :
    (∀ text, StandsFor bindings builtins (some maxDepth) value text ↔
      text = expand bindings builtins value) ∧
    ((∀ names, IsChain bindings builtins value.toList names → names.length ≤ maxDepth) →
      ∀ text, StandsFor bindings builtins none value text ↔
        text = expand bindings builtins value) := by
  have hlimit (text : String) : StandsFor bindings builtins (some maxDepth) value text ↔
      text = expand bindings builtins value := by
    rw [standsFor_limit_iff, expand, ← String.toList_inj, String.toList_ofList, eq_comm]
  exact ⟨hlimit, fun h text => (standsFor_iff_of_chains h).trans (hlimit text)⟩

theorem expand_standsFor_nested :
    let bindings := [("a", "-I$(b)"), ("b", "${c}"), ("c", "@d@/"), ("d", "$(e)"), ("e", "$(f)$(x)"),
      ("f", "$(g)$(1)"), ("g", "$(h)"), ("h", "$(top)/@i"), ("top", "$(top)")]
    let builtins := [("top", "$(a)")]
    (∀ names, IsChain bindings builtins "$(a)".toList names → names.length ≤ maxDepth) ∧
    StandsFor bindings builtins none "$(a)" "-I$(a)/@i$(1)/" ∧
    StandsFor [("a", "x$(a)")] [] (some maxDepth) "$(a)" "xxxxxxxx" := by
  intro bindings builtins
  have hn : nestsWithin bindings builtins maxDepth "$(a)".toList = true := by decide
  have hc : ∀ names, IsChain bindings builtins "$(a)".toList names → names.length ≤ maxDepth :=
    fun _ => length_le_of_nestsWithin hn
  exact ⟨hc, ((expand_standsFor bindings builtins "$(a)").right hc _).mpr (by decide),
    ((expand_standsFor [("a", "x$(a)")] [] "$(a)").left _).mpr (by decide)⟩

end SourceFlags.Automake
