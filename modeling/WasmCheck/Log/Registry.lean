import WasmCheck.Log.Basic

/-!
# Log registries

A registry passes records on to two places: the log facade, which always listens, and a handler, if
one is registered. Records below the least level go nowhere. What it means to receive a record is
up to the monad.
-/

namespace WasmCheck

structure LogRegistry (m : Type → Type) where
  minLevel : LogLevel := .trace
  handler : Option (LogRecord → m Unit) := none

namespace LogRegistry

variable {m : Type → Type}

def enabled (g : LogRegistry m) (l : LogLevel) : Bool := g.minLevel ≤ l

def hasHandler (g : LogRegistry m) : Bool := g.handler.isSome

def withMinLevel (g : LogRegistry m) (l : LogLevel) : LogRegistry m := { g with minLevel := l }

/-- Registers a handler, which takes the place of an earlier one. -/
def register (g : LogRegistry m) (handler : LogRecord → m Unit) : LogRegistry m :=
  { g with handler := some handler }

/-- Passes a record on to the facade and then to the handler. -/
def handle [Monad m] (g : LogRegistry m) (facade : LogRecord → m Unit) (r : LogRecord) :
    m Unit := do
  if g.enabled r.level then
    facade r
    if let some handler := g.handler then
      handler r

def text (g : LogRegistry m) : String :=
  s!"LogRegistry \x7b has_handler: {g.hasHandler}, min_level: {g.minLevel.name.capitalize} \x7d"

end LogRegistry

end WasmCheck
