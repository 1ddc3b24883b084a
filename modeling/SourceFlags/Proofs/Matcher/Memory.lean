import Mathlib.Data.List.Induction
import SourceFlags.Proofs.Matcher.Reading

namespace SourceFlags.FileMatcher

structure Event where
  world  : World
  source : Source
  path   : String

def asOf (m : FileMatcher) (e : Event) : FileMatcher :=
  { m with source := e.source }

def answer (m : FileMatcher) (e : Event) : Except Error Bool :=
  (m.asOf e).accepts e.world e.path

def after (m : FileMatcher) (es : List Event) : FileMatcher :=
  es.foldl (fun m e => (m.asOf e).consulted e.world) m

variable {w : World} {m : FileMatcher} {es : List Event} {e : Event} {v : String}

theorem after_snoc (m : FileMatcher) (es : List Event) (e : Event) :
    m.after (es ++ [e]) = ((m.after es).asOf e).consulted e.world := by
  simp [after]

-- The source knows no file at first. Then the file lacks the pattern, has it, is written over, and
-- is removed.
def unknown : Event :=
  ⟨holding "sketchbook.path=/t\n", saying .null, "/s/x/"⟩

def set : Event :=
  ⟨holding "font=M\nsketchbook.path= /s \n", saying (.text "/p"), "/s/x/"⟩

def changed : Event :=
  ⟨holding "sketchbook.path=/t\n", saying (.text "/p"), "/s/x/"⟩

end SourceFlags.FileMatcher
