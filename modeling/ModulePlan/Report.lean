/-
Results with what was told on the way.

A report is a value or a fault, together with the notes written and the targets given to
javap up to that point.  Doing one thing after another puts their notes one after another; a
fault ends the sequence and keeps what was told before it.
-/

import ModulePlan.Fault

namespace ModulePlan

inductive Level where
  | debug
  | info
  | warning
  | error
deriving DecidableEq

def Level.word : Level → String
  | .debug => "DEBUG"
  | .info => "INFO"
  | .warning => "WARNING"
  | .error => "ERROR"

structure Note where
  level : Level
  text : String
deriving DecidableEq

/-- Only warnings and errors are shown unless more is asked for. -/
def Note.isShown (verbose : Bool) (note : Note) : Bool :=
  match note.level with
  | .warning | .error => true
  | .debug | .info => verbose

def Note.line (note : Note) : String :=
  note.level.word ++ ": " ++ note.text

/-- The notes written and the targets given to javap, in order. -/
structure Trace where
  notes : List Note := []
  targets : List String := []
deriving DecidableEq

def Trace.lines (trace : Trace) (verbose : Bool) : List String :=
  (trace.notes.filter (·.isShown verbose)).map (·.line)

def Trace.append (earlier later : Trace) : Trace :=
  ⟨earlier.notes ++ later.notes, earlier.targets ++ later.targets⟩

structure Report (α : Type) where
  trace : Trace
  result : Except Fault α

namespace Report

variable {α β : Type}

protected def pure (value : α) : Report α :=
  ⟨{}, .ok value⟩

protected def bind (report : Report α) (next : α → Report β) : Report β :=
  match report.result with
  | .error fault => ⟨report.trace, .error fault⟩
  | .ok value => ⟨report.trace.append (next value).trace, (next value).result⟩

instance : Monad Report where
  pure := Report.pure
  bind := Report.bind

def fail (fault : Fault) : Report α :=
  ⟨{}, .error fault⟩

def ofExcept (result : Except Fault α) : Report α :=
  ⟨{}, result⟩

def tell (level : Level) (text : String) : Report Unit :=
  ⟨{ notes := [⟨level, text⟩] }, .ok ()⟩

def debug (text : String) : Report Unit :=
  tell .debug text

def noteTarget (target : String) : Report Unit :=
  ⟨{ targets := [target] }, .ok ()⟩

def after (trace : Trace) (report : Report α) : Report α :=
  ⟨trace.append report.trace, report.result⟩

end Report

end ModulePlan
