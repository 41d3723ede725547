import HeapAudit.Recording.Station

/-!
# Drainers that keep a journal

The simplest consumers of full logs: they note the events of the log and then
reset it, flip it, leave it as it is, or give up.
-/

namespace HeapAudit

set_option autoImplicit false

/-- What a drainer does to a log after noting its events. -/
inductive DrainAction where
  | reset
  | flip
  | leave
  | fail
  deriving DecidableEq

/-- A drain: the log and its segments as they were found; a closed log has none. -/
structure DrainNote where
  log : LogId
  isClosed : Bool
  segments : List (List Event)
  deriving DecidableEq

/-- The drains so far, in order. -/
abbrev Journal := List DrainNote

namespace Journal

/-- Notes the segments of a log and then acts on it. -/
def drainer (action : DrainAction) : Drainer Journal := fun id => do
  let log ← Station.log id
  modify fun station =>
    { station with consumer := station.consumer ++ [⟨id, log.isClosed, log.segments⟩] }
  match action with
  | .reset => Station.modifyLog id Log.reset
  | .flip => Station.modifyLog id Log.flip
  | .leave => pure ()
  | .fail => throw (.refusal .drainFailed)

end Journal

end HeapAudit
