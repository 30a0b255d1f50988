import Folio.Report
/-!
# Sessions

A session is what changes while the files of a run are rendered: the channel that collects reports, and the state that
the engine keeps from one page to the next.
-/
namespace Folio

/-- The channel of a run together with an engine's own state. -/
structure Session (ε : Type) where
  channel : Channel
  engine : ε
deriving DecidableEq

namespace Session

variable {ε : Type}

def report (s : Session ε) (r : Report) : Session ε := { s with channel := s.channel.report r }

def drain (s : Session ε) : List Report × Session ε := (s.channel.drain.1, { s with channel := s.channel.drain.2 })

end Session

end Folio
