/-!
# Log records

What a check has to say about its progress: a level, the function it is about, and a message. Levels
are ordered by severity.
-/

namespace WasmCheck

inductive LogLevel where
  | trace
  | debug
  | info
  | warn
  | error
  | critical
deriving DecidableEq, Repr, Inhabited

namespace LogLevel

def name : LogLevel → String
  | trace => "trace"
  | debug => "debug"
  | info => "info"
  | warn => "warn"
  | error => "error"
  | critical => "critical"

def rank : LogLevel → Nat
  | trace => 0
  | debug => 1
  | info => 2
  | warn => 3
  | error => 4
  | critical => 5

instance : LE LogLevel := ⟨fun a b => a.rank ≤ b.rank⟩

instance (a b : LogLevel) : Decidable (a ≤ b) := inferInstanceAs (Decidable (a.rank ≤ b.rank))

instance : Ord LogLevel := ⟨fun a b => compare a.rank b.rank⟩

/-- The level under a name of the log facade, which knows no level above an error. -/
def facadeName : LogLevel → String
  | trace => "TRACE"
  | debug => "DEBUG"
  | info => "INFO"
  | warn => "WARN"
  | error | critical => "ERROR"

def names : List (String × LogLevel) :=
  [("trace", trace), ("debug", debug), ("info", info), ("warn", warn), ("warning", warn),
    ("error", error), ("err", error), ("critical", critical), ("fatal", critical)]

/-- The level of a name. The case of the letters `a` to `z` does not matter. -/
def ofName (s : String) : Except String LogLevel :=
  match names.lookup s.toLower with
  | some l => .ok l
  | none => .error ("Invalid log level: " ++ s)

end LogLevel

structure LogRecord where
  level : LogLevel
  /-- The index of the function that the record is about, if it is about one. -/
  function : Option UInt32
  message : String
deriving DecidableEq, Repr

def LogRecord.line (r : LogRecord) : String :=
  match r.function with
  | some i => s!"func[{i}]: " ++ r.message
  | none => r.message

end WasmCheck
