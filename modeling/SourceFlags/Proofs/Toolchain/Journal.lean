import SourceFlags.Proofs.Toolchain.Asking

namespace SourceFlags

abbrev Journal := List (Run × Outcome)

namespace Journal

def lastOf (j : Journal) (command : List String) : Option Outcome :=
  ((j.filter (·.1.command == command)).getLast?).map (·.2)

@[simp]
theorem lastOf_nil (command : List String) : lastOf [] command = none :=
  rfl

theorem lastOf_append (j j' : Journal) (command : List String) :
    lastOf (j ++ j') command = (lastOf j' command).or (lastOf j command) := by
  simp only [lastOf, List.filter_append, List.getLast?_append]
  cases (j'.filter (·.1.command == command)).getLast? <;> rfl

end Journal

def World.journal (w : World) (past : History) : List Run → Journal
  | []          => []
  | run :: runs => (run, w.respond past run) :: w.journal (past ++ [run]) runs

theorem World.journal_append (w : World) (past : History) (runs later : List Run) :
    w.journal past (runs ++ later) = w.journal past runs ++ w.journal (past ++ runs) later := by
  induction runs generalizing past
  case nil => simp [journal]
  case cons run runs hi => simp [journal, hi]

namespace Probing

variable {α β : Type} {w : World} {x : Probing α} {f : α → Probing β}
variable {P P' : α → Journal → Prop} {Q : β → Journal → Prop}

-- What a step tells fits the journal of its own runs, whatever has run before.
def Logs (w : World) (x : Probing α) (P : α → Journal → Prop) : Prop :=
  ∀ past, ∃ runs, (x past).2 = past ++ runs ∧ P (x past).1 (w.journal past runs)

namespace Logs

theorem pure {a : α} (h : P a []) : Logs w (Pure.pure a) P :=
  fun past => ⟨[], (List.append_nil past).symm, h⟩

theorem bind (hx : x.Logs w P) (hf : ∀ a j, P a j → (f a).Logs w fun b j' => Q b (j ++ j')) :
    Logs w (x >>= f) Q := by
  intro past
  have ⟨runs, hr, hp⟩ := hx past
  have ⟨later, hl, hq⟩ := hf _ _ hp (x past).2
  refine ⟨runs ++ later, ?_, ?_⟩
  case refine_1 => rw [← List.append_assoc, ← hr]; exact hl
  case refine_2 => rw [World.journal_append, ← hr]; exact hq

theorem map {g : α → β} (hx : x.Logs w P) (h : ∀ a j, P a j → Q (g a) j) : Logs w (g <$> x) Q :=
  fun past => (hx past).imp fun _ ⟨hr, hp⟩ => ⟨hr, h _ _ hp⟩

theorem imp (hx : x.Logs w P) (h : ∀ a j, P a j → P' a j) : x.Logs w P' :=
  hx.map (g := id) h

theorem ite {c : Prop} [Decidable c] {x y : Probing α} (hx : c → x.Logs w P)
    (hy : ¬c → y.Logs w P) : Logs w (if c then x else y) P := by
  split
  case isTrue h  => exact hx h
  case isFalse h => exact hy h

end Logs

def Spares (w : World) (command : List String) (x : Probing α) : Prop :=
  x.Logs w fun _ j => j.lastOf command = none

namespace Spares

variable {command : List String}

theorem pure (a : α) : Spares w command (Pure.pure a) :=
  Logs.pure rfl

theorem bind (hx : x.Spares w command) (hf : ∀ a, (f a).Spares w command) :
    Spares w command (x >>= f) :=
  Logs.bind hx fun a j hj => (hf a).imp fun _ j' hj' => by rw [Journal.lastOf_append, hj', hj]; rfl

end Spares
end Probing

namespace Probe

variable {w : World} {s : Settings} {program : String} {arguments command : List String}

theorem start_logs (w : World) (run : Run) :
    (start w run).Logs w fun o j => j = [(run, o)] :=
  fun _ => ⟨[run], rfl, rfl⟩

-- An answer is made from the last run, be it the first one or the one from the home directory.
theorem query_logs (w : World) (program : String) (arguments : List String)
    (input : Option String) :
    (query w program arguments input).Logs w fun a j =>
      ∃ o, a = .ofOutcome program arguments o ∧
        ∀ command, j.lastOf command = if command = program :: arguments then some o else none := by
  refine .bind (start_logs w _) fun first j hj => ?_
  have hl : ∀ run : Run, run.command = program :: arguments → ∀ (o : Outcome) command,
      Journal.lastOf [(run, o)] command =
        if command = program :: arguments then some o else none := by
    intro run hr o command
    by_cases hc : command = program :: arguments
    case pos => simp [Journal.lastOf, hr, hc]
    case neg => simp [Journal.lastOf, hr, hc, Ne.symm hc]
  cases first
  case notLaunched reason =>
    refine .bind (start_logs w _) fun o j' hj' => .pure ⟨o, rfl, fun command => ?_⟩
    rw [hj, hj', List.append_nil, Journal.lastOf_append, hl _ rfl, hl _ rfl]
    split <;> rfl
  all_goals exact .pure ⟨_, rfl, fun command => by rw [hj, List.append_nil, hl _ rfl]⟩

theorem query_spares (h : command ≠ program :: arguments) (input : Option String) :
    (query w program arguments input).Spares w command :=
  (query_logs w program arguments input).imp fun _ _ ⟨_, _, hj⟩ => by rw [hj, if_neg h]

def searchCommand (s : Settings) (language : Language) : List String :=
  programFor s language.name :: searchArguments language

theorem search_logs (w : World) (s : Settings) (language : Language) :
    (search w s language).Logs w fun a j => ∃ o,
      a = .ofOutcome (programFor s language.name) (searchArguments language) o ∧
        ∀ command, j.lastOf command = if command = searchCommand s language then some o else none :=
  query_logs w _ _ none

theorem searchCommand_ne {language : Language} (h : arguments ≠ searchArguments language) :
    searchCommand s language ≠ program :: arguments :=
  fun hc => h (List.cons.inj hc).right.symm

theorem macros_spares (w : World) (s : Settings) (language : Language) (name program : String) :
    (macros w s name program).Spares w (searchCommand s language) := by
  refine .bind (query_spares (searchCommand_ne fun hc => ?_) none) fun _ => .pure _
  simp [searchArguments] at hc

theorem sourceMacros_spares (w : World) (s : Settings) (language : Language)
    (directives : List String) (name : String) (extra : List String) (program : String) :
    (sourceMacros w s directives name extra program).Spares w (searchCommand s language) := by
  refine .bind (query_spares (searchCommand_ne fun hc => ?_) _) fun _ => .pure _
  have hl := congrArg List.getLast? hc
  simp [searchArguments, nullFile] at hl

end Probe

namespace Toolchain

open Probe Probing

variable {w : World} {s : Settings}

theorem predefined_spares (w : World) (s : Settings) (language : Language) :
    (predefined w s).Spares w (searchCommand s language) := by
  refine .bind (macros_spares w s language _ _) fun found => ?_
  cases found
  case some => exact .pure _
  case none => exact macros_spares w s language _ _

-- What is taken for the search list of a language is what the last run has told that asks for it.
theorem ask_logs (w : World) (s : Settings) (language : Language) :
    (ask w s).Logs w fun answers j => ∃ o,
      answers.search language =
        .ofOutcome (programFor s language.name) (searchArguments language) o ∧
      j.lastOf (searchCommand s language) = some o := by
  have hv : (query w s.compiler ["-v"] none).Spares w (searchCommand s language) :=
    query_spares (searchCommand_ne (by simp [searchArguments])) none
  refine .bind hv fun version j _ => ?_
  refine .bind (predefined_spares w s language) fun ms j₁ hm => ?_
  refine .bind (search_logs w s .c) fun c j₂ ⟨oc, hc, hcj⟩ => ?_
  refine .bind (search_logs w s .cxx) fun cxx j₃ ⟨ox, hx, hxj⟩ => .pure ?_
  have hn : searchCommand s .c ≠ searchCommand s .cxx :=
    searchCommand_ne (by decide)
  cases language
  case c =>
    refine ⟨oc, hc, ?_⟩
    simp [Journal.lastOf_append, hcj, hxj, hn]
  case cxx =>
    refine ⟨ox, hx, ?_⟩
    simp [Journal.lastOf_append, hxj]

end Toolchain
end SourceFlags
