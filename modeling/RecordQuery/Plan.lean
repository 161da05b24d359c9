import RecordQuery.Condition
import RecordQuery.SortOrder
import RecordQuery.Window
import RecordQuery.Projection
import RecordQuery.Registry

/-!
Plans: requests compiled against a registry. A plan holds the elements it was compiled for; running it
filters, sorts, cuts the window and projects, in this order.
-/

namespace RecordQuery

inductive PlanStage where
  | resolveSource
  | filter
  | sort
  | paginate
  | project
  | materialize
  deriving DecidableEq

def PlanStage.name : PlanStage → String
  | .resolveSource => "ResolveSource"
  | .filter => "Filter"
  | .sort => "Sort"
  | .paginate => "Paginate"
  | .project => "Project"
  | .materialize => "Materialize"

structure Plan where
  source : String
  elements : List Record
  filter : Option Predicate
  order : Option SortOrder
  window : Option Window
  projection : Projection

namespace Plan

def stages (p : Plan) : List PlanStage :=
  [.resolveSource] ++ (p.filter.map fun _ => .filter).toList ++ (p.order.map fun _ => .sort).toList
    ++ (p.window.map fun _ => .paginate).toList ++ [.project, .materialize]

def display (p : Plan) : String :=
  let stage (name : String) (detail : Option String) : List String :=
    detail.toList.map fun d => name ++ "(" ++ d ++ ")"
  " -> ".intercalate (stage "Project" (some p.projection.display)
    ++ stage "Paginate" (p.window.map (·.display))
    ++ stage "Sort" (p.order.map (·.display))
    ++ stage "Filter" (p.filter.map (·.display))
    ++ stage "Scan" (some p.source))

def selected (p : Plan) : List Record :=
  let kept := match p.filter with
    | none => p.elements
    | some predicate => p.elements.filter predicate.accepts
  let ordered := match p.order with
    | none => kept
    | some order => order.sort kept
  match p.window with
  | none => ordered
  | some window => window.apply ordered

def run (p : Plan) : Table := ⟨p.projection.columns, p.selected.map p.projection.row⟩

end Plan

def nonempty? {α : Type} (xs : List α) : Option (List α) := if xs.isEmpty then none else some xs

namespace Registry

/-- Compiles a request. The checks come in a fixed order, and the first that fails gives the error. -/
def plan (r : Registry) (request : Request) : Except Error Plan :=
  if request.select.isEmpty then .error .selectEmpty
  else if (Text.trim request.source).isEmpty then .error .sourceRequired
  else do
    let window ← request.limit.mapM Window.ofLimit
    let source ← r.get request.source
    let filter ← (nonempty? request.filters).mapM source.schema.compileFilters
    let order ← (nonempty? request.order).mapM source.schema.compileOrder
    let projection ← source.schema.compileSelect request.select
    return ⟨source.name, source.elements, filter, order, window, projection⟩

def execute (r : Registry) (request : Request) : Except Error Table := (r.plan request).map Plan.run

end RecordQuery.Registry
