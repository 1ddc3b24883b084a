import SourceFlags.Text.Quoted

namespace SourceFlags

open Text

structure Run where
  command : List String
  input : Option String
  fromHome : Bool
  locale : String
  deriving DecidableEq, Repr

inductive Outcome
  | exited (code : Int) (output : Option String)
  | timedOut
  | notLaunched (reason : String)
  deriving DecidableEq, Repr

abbrev History := List Run

abbrev Responder := History → Run → Outcome

structure Rule where
  program : String
  arguments : Option (List String)
  having : List String
  fromHome : Option Bool
  times : Option Nat
  outcome : Outcome
  deriving DecidableEq, Repr

namespace Rule

def fits (r : Rule) (run : Run) : Bool :=
  run.command.head? == some r.program
    && r.arguments.all (· == run.command.tail)
    && r.having.all (run.command.tail.contains ·)
    && r.fromHome.all (· == run.fromHome)

def applies (r : Rule) (run : Run) : Bool :=
  r.fits run && r.times != some 0

def spend : List Rule → Run → List Rule
  | [], _ => []
  | r :: rs, run =>
    if r.applies run then { r with times := r.times.map (· - 1) } :: rs
    else r :: spend rs run

def missing (program : String) : Outcome :=
  .notLaunched ("[Errno 2] No such file or directory: " ++ quoted program)

-- The first rule that applies answers; with none, the program is not there.
def respond (rules : List Rule) (past : History) (run : Run) : Outcome :=
  match (past.foldl spend rules).find? (·.applies run) with
  | some r => r.outcome
  | none => missing (run.command.headD "")

theorem spend_of_unlimited {rules : List Rule} (h : ∀ r ∈ rules, r.times = none) (run : Run) :
    spend rules run = rules := by
  induction rules with
  | nil => rfl
  | cons r rs ih =>
    simp only [spend]
    split
    · have : r.times = none := h r (by simp)
      cases r
      simp_all
    · rw [ih fun r hr => h r (by simp [hr])]

theorem respond_of_unlimited {rules : List Rule} (h : ∀ r ∈ rules, r.times = none)
    (past : History) (run : Run) : respond rules past run = respond rules [] run := by
  have : past.foldl spend rules = rules := by
    induction past with
    | nil => rfl
    | cons p past ih => simpa [spend_of_unlimited h] using ih
  simp [respond, this]

end Rule
end SourceFlags
