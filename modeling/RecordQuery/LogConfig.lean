import RecordQuery.LogFilter

/-!
Log configurations: a level filter, where events go and how they look.
-/

namespace RecordQuery

inductive LogOutput where
  | standard
  | file (path : String)
  | both (path : String)
  deriving DecidableEq

inductive LogFormat where
  | pretty
  | compact
  deriving DecidableEq

structure LogConfig where
  level : String
  output : LogOutput
  format : LogFormat

namespace LogConfig

def standard : LogConfig := ⟨"info", .standard, .pretty⟩

def info : LogConfig := { standard with level := "info" }

def debug : LogConfig := { standard with level := "debug" }

def pipelineTrace : LogConfig := { standard with level := "jsonquery_core=trace,jsonquery=debug,info" }

def withFile (c : LogConfig) (path : String) : LogConfig := { c with output := .file path }

def withBoth (c : LogConfig) (path : String) : LogConfig := { c with output := .both path }

def withFormat (c : LogConfig) (format : LogFormat) : LogConfig := { c with format }

def withLevel (c : LogConfig) (level : String) : LogConfig := { c with level }

def check (c : LogConfig) : Except Error Unit :=
  match LogFilter.fault? c.level with
  | none => .ok ()
  | some fault => .error (.badLevelFilter c.level fault)

end RecordQuery.LogConfig
