/-!
# Sinks for bytes

A sink takes as many bytes as it has room for and then fails; what it has taken
by then it keeps.  It may also refuse the flush that ends the writing.
-/

namespace DeclCheck

/-- How a sink can fail. -/
inductive SinkError where
  | full
  | flushRefused
  deriving DecidableEq, Repr

namespace SinkError

def message : SinkError → String
  | full => "sink is full"
  | flushRefused => "flush refused"

def report (error : SinkError) : String :=
  s!"IO error: {error.message}"

end SinkError

/-- The bytes of a text in UTF-8. -/
def textBytes (text : String) : List UInt8 :=
  text.toUTF8.data.toList

/-- A sink: the number of bytes it still takes, those it has taken, and how often it
has been told to flush. -/
structure Sink where
  room : Nat
  refusesFlush : Bool := false
  written : List UInt8 := []
  flushes : Nat := 0
  deriving DecidableEq, Repr

/-- Something that writes into a sink and may fail.  The sink is kept when it
does. -/
abbrev SinkM := EStateM SinkError Sink

namespace Sink

/-- Writes a text.  If there is not enough room for it, the part that fits is
written. -/
def write (text : String) : SinkM Unit := fun sink =>
  let bytes := textBytes text
  let after := { sink with
    room := sink.room - bytes.length
    written := sink.written ++ bytes.take sink.room }
  if bytes.length ≤ sink.room then .ok () after else .error .full after

/-- Ends the writing. -/
def flush : SinkM Unit := fun sink =>
  let told := { sink with flushes := sink.flushes + 1 }
  if sink.refusesFlush then .error .flushRefused told else .ok () told

/-- Writes some texts, one after the other, and flushes. -/
def writeAll (texts : List String) : SinkM Unit := do
  texts.forM write
  flush

end Sink

end DeclCheck
