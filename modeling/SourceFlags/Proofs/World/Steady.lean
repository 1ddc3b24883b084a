import SourceFlags.World.Basic

namespace SourceFlags.World

def IsSteady (w : World) : Prop :=
  ∀ past past' run, w.respond past run = w.respond past' run

def ruled (rules : List Rule) : World where
  files             := .empty
  cwd               := "/"
  hasCwd            := true
  environment       := [("PATH", "")]
  machine           := ""
  systemDirectories := []
  nesting           := 900
  respond           := Rule.respond rules

def bare : World :=
  ruled []

theorem ruled_isSteady {rules : List Rule} (h : ∀ r ∈ rules, r.times = none) :
    (ruled rules).IsSteady := by
  intro past past' run
  simp only [ruled]
  rw [Rule.respond_of_unlimited h past, Rule.respond_of_unlimited h past']

end SourceFlags.World
