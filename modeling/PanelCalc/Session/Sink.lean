/-!
# Sinks

Where a session writes to. A sink may have limited room; a write that does not fit is kept as far
as it fits.
-/

namespace PanelCalc

/-- What has been written, and how many further bytes are taken: any number if `room` is `none`. -/
structure Sink where
  written : Array UInt8 := #[]
  room : Option Nat := none
  deriving DecidableEq, Repr

namespace Sink

/-- The message of a sink without room. -/
def full : String := "sink is full"

/-- Writes as many bytes as there is room for. Answers whether all of them have been written. -/
def write (sink : Sink) (bytes : List UInt8) : Bool × Sink :=
  match sink.room with
  | none => (true, { sink with written := sink.written ++ bytes })
  | some room =>
      (bytes.length ≤ room,
        { written := sink.written ++ bytes.take room, room := some (room - bytes.length) })

end Sink
end PanelCalc
