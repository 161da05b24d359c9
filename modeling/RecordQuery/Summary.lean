import RecordQuery.Plan
import RecordQuery.Text.Quoted

/-!
One-line summaries of schemas, selectors and plans, in which names are quoted.
-/

namespace RecordQuery

def summaryText (typeName : String) (parts : List (String × String)) : String :=
  typeName ++ " \x7b " ++ ", ".intercalate (parts.map fun (name, text) => name ++ ": " ++ text) ++ " \x7d"

def Schema.summary (s : Schema) : String :=
  summaryText "Schema" [("name", Text.quoted s.name), ("nodes", (Numeral.ofNat s.nodes.length).text)]

def Selector.summary (s : Selector) : String :=
  summaryText "ResolvedSelector"
    [("path", Text.quoted s.path), ("depth", (Numeral.ofNat s.depth).text), ("kind", s.kind.name)]

def Plan.summary (p : Plan) : String :=
  summaryText "QueryPlan"
    [("source", Text.quoted p.source), ("stages", "[" ++ ", ".intercalate (p.stages.map (·.name)) ++ "]")]

end RecordQuery
