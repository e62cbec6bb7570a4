import LiveTables.Report
import LiveTables.Text.Quoted

namespace LiveTables

/-- Told when a reload pass has ended. Its number is its identity; names can repeat. -/
structure Listener where
  number : Nat
  name : String
deriving DecidableEq, Inhabited, Repr

/-- The listeners to notify, each of them once, in the order they joined. -/
structure Hub where
  listeners : List Listener := []
deriving Inhabited, Repr

namespace Hub

/-- Whether the same listener has joined, under whatever name. -/
def holds (h : Hub) (l : Listener) : Bool := h.listeners.any (·.number = l.number)

/-- Lets a listener join at the end, unless it has joined already. -/
def register (h : Hub) (l : Listener) : Hub :=
  if h.holds l then h else ⟨h.listeners ++ [l]⟩

/-- Whoever has joined stays in place. -/
theorem listeners_register (h : Hub) (l : Listener) :
    (h.register l).listeners = if h.holds l then h.listeners else h.listeners ++ [l] := by
  unfold register
  split <;> rfl

def names (h : Hub) : List String := h.listeners.map Listener.name

def describe (h : Hub) : String :=
  "ListenerHub \x7b listeners: " ++ Text.quoteList h.names ++ " \x7d"

end Hub

end LiveTables
