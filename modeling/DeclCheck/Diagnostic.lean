import DeclCheck.Position

/-!
# Diagnostics and their log

A log keeps what was recorded, in order.  Each entry gets the next number as its
identity, and no number is ever given twice: neither `clear` nor `keepOnly` sets
the count back.
-/

namespace DeclCheck

/-- The three groups under which diagnostics are reported. -/
inductive Stage where
  | lexical
  | syntactic
  | semantic
  deriving DecidableEq, Repr

namespace Stage

def shown : Stage → String
  | lexical => "lexical error"
  | syntactic => "syntax error"
  | semantic => "semantic error"

end Stage

/-- What a diagnostic complains about. -/
inductive DiagnosticKind where
  | lexicalError
  | syntaxError
  | duplicateGlobal
  | duplicateFunction
  | duplicateLocal
  | shadowedParameter
  | typeMismatch
  | undefinedCall
  deriving DecidableEq, Repr

namespace DiagnosticKind

def all : List DiagnosticKind :=
  [lexicalError, syntaxError, duplicateGlobal, duplicateFunction, duplicateLocal,
    shadowedParameter, typeMismatch, undefinedCall]

def stage : DiagnosticKind → Stage
  | lexicalError => .lexical
  | syntaxError => .syntactic
  | _ => .semantic

def shown : DiagnosticKind → String
  | lexicalError => "lexical error"
  | syntaxError => "syntax error"
  | duplicateGlobal => "duplicate global variable"
  | duplicateFunction => "duplicate function signature"
  | duplicateLocal => "duplicate local variable"
  | shadowedParameter => "parameter shadowing"
  | typeMismatch => "type mismatch"
  | undefinedCall => "undefined function call"

end DiagnosticKind

/-- One complaint.  The line is known even where the exact region is not. -/
structure Diagnostic where
  id : Nat
  kind : DiagnosticKind
  message : String
  line : Nat
  span : Option Span
  deriving DecidableEq, Repr

namespace Diagnostic

/-- What a diagnostic is about: the line and, for complaints about the form of the
text that have a span, the column. -/
def place (diagnostic : Diagnostic) : String :=
  match diagnostic.span with
  | some span =>
      if diagnostic.kind.stage = Stage.semantic then s!"line {diagnostic.line}"
      else s!"line {diagnostic.line}, column {span.column}"
  | none => s!"line {diagnostic.line}"

/-- The stage, the place and the message. -/
def text (diagnostic : Diagnostic) : String :=
  s!"[{diagnostic.kind.stage.shown}] {diagnostic.place}: {diagnostic.message}"

end Diagnostic

/-- The diagnostics recorded so far and the number that the next one gets. -/
structure DiagnosticLog where
  entries : List Diagnostic := []
  nextId : Nat := 0
  deriving DecidableEq, Repr

namespace DiagnosticLog

/-- Records a diagnostic under the next number. -/
def add (log : DiagnosticLog) (kind : DiagnosticKind) (message : String)
    (line : Nat) (span : Option Span) : DiagnosticLog where
  entries := log.entries ++
    [{ id := log.nextId, kind := kind, message := message, line := line,
       span := span }]
  nextId := log.nextId + 1

/-- Records a diagnostic of which only the line is known. -/
def addOnLine (log : DiagnosticLog) (kind : DiagnosticKind) (message : String)
    (line : Nat) : DiagnosticLog :=
  log.add kind message line none

/-- Records a diagnostic about a region of the source. -/
def addAt (log : DiagnosticLog) (kind : DiagnosticKind)
    (message : String) (span : Span) : DiagnosticLog :=
  log.add kind message span.line (some span)

/-- The diagnostic recorded under a number, if it is still there. -/
def get? (log : DiagnosticLog) (id : Nat) : Option Diagnostic :=
  log.entries.find? (·.id = id)

/-- The number of diagnostics of a kind. -/
def count (log : DiagnosticLog) (kind : DiagnosticKind) : Nat :=
  log.entries.countP (·.kind = kind)

/-- Drops every entry. -/
def clear (log : DiagnosticLog) : DiagnosticLog :=
  { log with entries := [] }

/-- Drops every entry but the one recorded under the given number. -/
def keepOnly (log : DiagnosticLog) (id : Nat) : DiagnosticLog :=
  { log with entries := log.entries.filter (·.id = id) }

end DiagnosticLog

end DeclCheck
