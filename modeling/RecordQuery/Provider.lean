import RecordQuery.Plan
import RecordQuery.Limits
import RecordQuery.Schema.Outline

/-!
Providers: a registry behind limits. A request is checked against the limits first and then compiled; a
compiled plan runs on what it was compiled for, whatever is registered later.
-/

namespace RecordQuery

def version : String := "0.3.0"

structure Provider where
  registry : Registry
  limits : Limits

namespace Provider

def new : Provider := ⟨.empty .reject, .standard⟩

def withConfig (policy : DuplicatePolicy) (limits : Limits) : Except Error Provider := do
  limits.check
  return ⟨.empty policy, limits⟩

def addSource (p : Provider) (name : String) (schema : Schema) (elements : List Record) : Except Error Provider :=
  (p.registry.register ⟨name, schema, elements⟩).map fun registry => { p with registry }

def addUnderSchemaName (p : Provider) (schema : Schema) (elements : List Record) : Except Error Provider :=
  p.addSource schema.name schema elements

def removeSource (p : Provider) (name : String) : Provider := { p with registry := p.registry.remove name }

def unregister (p : Provider) (name : String) : Bool × Provider :=
  ((p.registry.unregister name).1, p.removeSource name)

def sources (p : Provider) : List String := p.registry.names

def prepare (p : Provider) (request : Request) : Except Error Plan := do
  p.limits.checkRequest request
  p.registry.plan request

def executePlan (_ : Provider) (plan : Plan) : Table := plan.run

def executeQuery (p : Provider) (request : Request) : Except Error Table := (p.prepare request).map p.executePlan

def explain (p : Provider) (request : Request) : Except Error String := (p.prepare request).map Plan.display

def outline (p : Provider) (name : String) : Except Error Outline := (p.registry.get name).map (·.schema.outline)

end RecordQuery.Provider
