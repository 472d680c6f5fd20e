/-
  The current connection of a link to a device.

  Commands take the connection that is current when they start and keep it, so replacing it affects
  later commands only. Each function is one atomic step. A closed link stays closed and has no
  connection: one that is offered later is refused, and whoever offered it closes it.
-/
namespace Reimage

/-- An open connection to a device. -/
structure Connection where
  id : Nat
  address : String
  deriving DecidableEq, Repr, Inhabited

/-- What is current on a link. -/
structure Current where
  connection : Option Connection := none
  closed : Bool := false
  deriving DecidableEq, Repr, Inhabited

namespace Current

/-- Makes `c` the current connection, and tells whether that was possible. -/
def install (s : Current) (c : Connection) : Current × Bool :=
  if s.closed then (s, false) else ({ s with connection := some c }, true)

/-- Closes the link for good and takes its connection out. -/
def close (s : Current) : Current × Option Connection :=
  ({ connection := none, closed := true }, s.connection)

end Current

end Reimage
