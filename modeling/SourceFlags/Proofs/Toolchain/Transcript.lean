import SourceFlags.Proofs.Toolchain.Calls
import SourceFlags.Proofs.Toolchain.Exchange

namespace SourceFlags.Toolchain

open Probing

inductive Request
  | act (a : Action)
  | macros (file : String) (extra : List String)
  | forget (file : String)

inductive Reply
  | facts (e : Cached)
  | macros (ms : Table String)
  | done

def Request.path? : Request → Option String
  | .act _         => none
  | .macros file _ => some file
  | .forget file   => some file

structure Turn where
  world   : World
  request : Request

structure Station where
  toolchain : Toolchain
  cache     : Cache

namespace Turn

def IsLost (t : Turn) : Prop :=
  t.world.hasCwd = false ∧ t.request.path?.any (!Path.isAbsolute ·) = true

def serve (t : Turn) (s : Station) : Probing (Except Error Reply × Station) :=
  match t.request with
  | .act a => do
    let (entry, cache) ← Use.perform t.world ⟨s.toolchain, a⟩ s.cache
    return (.ok (.facts entry), { s with cache })
  | .macros file extra => do
    let (found, toolchain) ← s.toolchain.macrosAt t.world file extra
    return (found.map .macros, { s with toolchain })
  | .forget file =>
    let (forgotten, toolchain) := s.toolchain.forgetAt t.world file
    return (forgotten.map fun _ => .done, { s with toolchain })

end Turn

structure Served where
  turn  : Turn
  past  : History
  reply : Except Error Reply
  later : History

def Served.journal (r : Served) : Journal :=
  r.turn.world.journal r.past (r.later.drop r.past.length)

variable {w : World} {t : Turn} {s : Station} {past : History}

structure Served.IsSound (r : Served) : Prop where
  lost     : r.turn.IsLost → r.reply = .error .cwdGone ∧ r.journal = []
  answered : ¬r.turn.IsLost → ∃ reply, r.reply = .ok reply
  later    : r.later = r.past ++ r.journal.map (·.1)
  asked    : ∃ qs, r.journal = (r.turn.world.exchanges r.past qs).flatMap (·.attempts) ∧
    ∀ x ∈ r.turn.world.exchanges r.past qs, x.IsSettled

end SourceFlags.Toolchain
