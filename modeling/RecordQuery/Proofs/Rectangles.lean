import RecordQuery.Proofs.Answers
import RecordQuery.Proofs.Nesting

/-! Results are rectangles. Every row has one cell for each column, the cells of a column are null or of one
kind, and a record of a type that the accessors were not made for is null throughout, because every field
of a schema's own table keeps to the record type of its builder. -/

namespace RecordQuery

def FieldShape.KeepsTo (recordType : String) : FieldShape → Prop
  | .value _ read => ∀ r, r.typeName ≠ recordType → read r = none
  | .nested _ child => ∀ r, r.typeName ≠ recordType → child r = none

namespace SchemaBuilder

variable {b : SchemaBuilder}

def KeepsToType (b : SchemaBuilder) : Prop := ∀ f ∈ b.schema.root.fields, f.shape.KeepsTo b.recordType

theorem keepsToType_push (hb : b.KeepsToType) {name : String} {shape : FieldShape}
    (hshape : shape.KeepsTo b.recordType) : (b.push name shape).KeepsToType := by
  intro f hf
  rcases List.mem_append.1 hf with hf | hf
  · exact hb f hf
  · rw [List.mem_singleton.1 hf]
    exact hshape

theorem keepsTo_guarded_value (recordType : String) {kind : Kind} (read : Record → Option kind.Carrier) :
    (FieldShape.value kind (guarded recordType read)).KeepsTo recordType := fun _ hr => if_neg hr

theorem keepsTo_guarded_nested (recordType : String) (node : Nat) (child : Record → Option Record) :
    (FieldShape.nested node (guarded recordType child)).KeepsTo recordType := fun _ hr => if_neg hr

theorem keepsToType_nestedOpt (hb : b.KeepsToType) (name : String) (schema : Schema)
    (child : Record → Option Record) : (b.nestedOpt name schema child).KeepsToType :=
  keepsToType_push (b := ⟨b.recordType, _⟩) hb (keepsTo_guarded_nested b.recordType _ child)

theorem Made.keepsToType (h : Made b) : b.KeepsToType := by
  induction h with
  | new recordType => exact List.forall_mem_nil _
  | named name _ ih => exact ih
  | field name type read _ ih => exact keepsToType_push ih (keepsTo_guarded_value _ _)
  | fieldOpt name type read _ ih => exact keepsToType_push ih (keepsTo_guarded_value _ _)
  | nested name child _ _ ih _ => exact keepsToType_nestedOpt ih name _ _
  | nestedOpt name child _ _ ih _ => exact keepsToType_nestedOpt ih name _ child
  | recursive name child _ ih => exact keepsToType_push ih (keepsTo_guarded_nested _ 0 child)

end SchemaBuilder

theorem Value.kind?_eq_none {v : Value} : v.kind? = none ↔ v = .null := by
  cases v with
  | null => exact iff_of_true rfl rfl
  | _ => exact iff_of_false (nomatch ·) (nomatch ·)

theorem Selector.read_of_typeName_ne {s : Schema} {recordType path : String} {selector : Selector}
    (hs : ∀ f ∈ s.root.fields, f.shape.KeepsTo recordType) (h : s.resolve path = .ok selector)
    {r : Record} (hr : r.typeName ≠ recordType) : selector.read r = .null := by
  have hfollow := mapError_eq_ok.1 h
  cases hpieces : Text.pieces '.' path with
  | nil => exact absurd hpieces (Text.pieces_ne_nil '.' path)
  | cons segment rest =>
    rw [hpieces] at hfollow
    obtain ⟨-, f, hfield, hshape⟩ := Schema.follow_cons_eq_ok.1 hfollow
    have hkeeps := hs f (SchemaNode.mem_of_field? hfield)
    rcases hshape with ⟨kind, read, hshape, -, rfl⟩ | ⟨child, step, t, hshape, -, rfl⟩
    · rw [hshape] at hkeeps
      exact congrArg (Value.ofOption kind) (hkeeps r hr)
    · rw [hshape] at hkeeps
      have hread := t.read_prepend step t.path r
      rw [hkeeps r hr] at hread
      exact hread

namespace Table

variable {t : Table} {name : String} {i : Nat}

def IsFirstColumn (t : Table) (name : String) (i : Nat) : Prop :=
  (∃ c : Column, t.columns[i]? = some c ∧ c.name = name) ∧
    ∀ j < i, ∀ c : Column, t.columns[j]? = some c → c.name ≠ name

theorem columnIndex?_eq_some_iff : t.columnIndex? name = some i ↔ t.IsFirstColumn name i := by
  rw [columnIndex?, List.findIdx?_eq_some_iff_getElem]
  simp only [decide_eq_true_eq]
  constructor
  · rintro ⟨hi, hname, hfirst⟩
    refine ⟨⟨_, List.getElem?_eq_getElem hi, hname⟩, fun j hj c hc => ?_⟩
    obtain ⟨_, rfl⟩ := List.getElem?_eq_some_iff.1 hc
    exact hfirst j hj
  · rintro ⟨⟨c, hc, hname⟩, hfirst⟩
    obtain ⟨hi, rfl⟩ := List.getElem?_eq_some_iff.1 hc
    exact ⟨hi, hname, fun j hj => hfirst j hj _ (List.getElem?_eq_getElem (hj.trans hi))⟩

theorem isSome_columnValues?_iff :
    (t.columnValues? name).isSome = true ↔ ∃ c ∈ t.columns, c.name = name := by
  rw [columnValues?, Option.isSome_map, columnIndex?, List.findIdx?_isSome, List.any_eq_true]
  simp only [decide_eq_true_eq]

theorem forall₂_filterMap_getElem? {rows : List Row} (h : ∀ row ∈ rows, i < row.length) :
    List.Forall₂ (fun row v => row[i]? = some v) rows (rows.filterMap (·[i]?)) := by
  induction rows with
  | nil => exact .nil
  | cons row rows ih =>
    obtain ⟨hrow, hrows⟩ := List.forall_mem_cons.1 h
    have hcell : row[i]? = some row[i] := List.getElem?_eq_getElem hrow
    have hcons : (row :: rows).filterMap (·[i]?) = row[i] :: rows.filterMap (·[i]?) :=
      List.filterMap_cons_some hcell
    rw [hcons]
    exact .cons hcell (ih hrows)

theorem columnValues?_eq_some (hrows : ∀ row ∈ t.rows, row.length = t.columns.length) {vs : List Value}
    (h : t.columnValues? name = some vs) :
    ∃ i, t.IsFirstColumn name i ∧ List.Forall₂ (fun row v => row[i]? = some v) t.rows vs := by
  obtain ⟨i, hi, rfl⟩ := Option.map_eq_some_iff.1 h
  have hfirst := columnIndex?_eq_some_iff.1 hi
  obtain ⟨c, hc, -⟩ := hfirst.1
  refine ⟨i, hfirst, forall₂_filterMap_getElem? fun row hrow => ?_⟩
  rw [hrows row hrow]
  exact (List.getElem?_eq_some_iff.1 hc).1

/-- A table of the columns that items select, each of one kind. A name finds the values of its first
column, one from each row. -/
structure Rectangular (t : Table) (s : Schema) (items : List SelectItem) : Prop where
  columns_length : t.columns.length = items.length
  row_length : ∀ row ∈ t.rows, row.length = t.columns.length
  kinds : ∀ (i : Nat) (item : SelectItem), items[i]? = some item →
    ∃ selector, s.resolve item.selector = .ok selector ∧
      ∀ row ∈ t.rows, ∃ v, row[i]? = some v ∧ (v = .null ∨ v.kind? = some selector.kind)
  column_found_iff : ∀ name, (t.columnValues? name).isSome = true ↔ ∃ c ∈ t.columns, c.name = name
  column_values : ∀ name vs, t.columnValues? name = some vs →
    ∃ i, t.IsFirstColumn name i ∧ List.Forall₂ (fun row v => row[i]? = some v) t.rows vs

end Table

theorem Projection.length_row (p : Projection) (element : Record) :
    (p.row element).length = p.columns.length := by
  rw [row, columns, List.length_map, List.length_map]

theorem Plan.length_row (plan : Plan) : ∀ row ∈ plan.run.rows, row.length = plan.run.columns.length := by
  intro row hrow
  obtain ⟨element, -, rfl⟩ := List.mem_map.1 hrow
  exact plan.projection.length_row element

namespace Registry.Compiles

variable {r : Registry} {request : Request} {source : Source} {plan : Plan}

theorem length_columns (h : r.Compiles request source plan) :
    plan.projection.columns.length = request.select.length := by
  rw [Projection.columns, List.length_map, h.entries.length_eq]

theorem rectangular (h : r.Compiles request source plan) :
    plan.run.Rectangular source.schema request.select where
  columns_length := h.length_columns
  row_length := plan.length_row
  kinds i item hitem := by
    obtain ⟨e, he, hresolve, -⟩ := forall₂_getElem? h.entries hitem
    refine ⟨e.selector, hresolve, fun row hrow => ?_⟩
    obtain ⟨element, -, rfl⟩ := List.mem_map.1 hrow
    refine ⟨e.selector.read element, ?_, (e.selector.kind?_read element).imp_left Value.kind?_eq_none.1⟩
    rw [Projection.row, List.getElem?_map, he]
    rfl
  column_found_iff _ := Table.isSome_columnValues?_iff
  column_values _ _ := Table.columnValues?_eq_some plan.length_row

theorem row_of_typeName_ne (h : r.Compiles request source plan) {recordType : String}
    (hs : ∀ f ∈ source.schema.root.fields, f.shape.KeepsTo recordType) {element : Record}
    (helement : element.typeName ≠ recordType) :
    plan.projection.row element = List.replicate request.select.length .null := by
  refine List.eq_replicate_iff.2 ⟨?_, fun v hv => ?_⟩
  · rw [plan.projection.length_row, h.length_columns]
  · obtain ⟨e, he, rfl⟩ := List.mem_map.1 hv
    obtain ⟨item, -, hresolve, -⟩ := forall₂_mem_right h.entries he
    exact Selector.read_of_typeName_ne hs hresolve helement

end Registry.Compiles

/-- The result of a request is a rectangle over its select items, whatever records the source holds. The
row of a record whose type is not the schema's is null in every column. -/
theorem Provider.executeQuery_rectangular {p : Provider} {request : Request} {plan : Plan}
    (h : p.prepare request = .ok plan) {source : Source}
    (hsource : p.registry.get request.source = .ok source) {b : SchemaBuilder} (hb : b.Made)
    (hschema : source.schema = b.build) :
    ∃ t, p.executeQuery request = .ok t ∧ t.Rectangular source.schema request.select ∧
      List.Forall₂ (fun element row => element.typeName ≠ b.recordType →
        row = List.replicate request.select.length .null) plan.selected t.rows := by
  obtain ⟨-, source', hcompiles⟩ := prepare_eq_ok.1 h
  cases hsource.symm.trans hcompiles.get_source
  have hkeeps : ∀ f ∈ source.schema.root.fields, f.shape.KeepsTo b.recordType := by
    rw [hschema]
    exact hb.keepsToType
  refine ⟨plan.run, ?_, hcompiles.rectangular, ?_⟩
  · rw [executeQuery, h]
    rfl
  · rw [Plan.run, List.forall₂_map_right_iff, List.forall₂_same]
    exact fun element _ => hcompiles.row_of_typeName_ne hkeeps

def mixedOrders : List Record :=
  [⟨"Order", [.value .int32 1, .record "Node" [.record "Tag" [.value .text "x"], .absent]]⟩,
    ⟨"Order", [.value .int32 2, .record "Tag" [.value .text "y"]]⟩,
    ⟨"Invoice", [.value .int32 3, .record "Node" [.record "Tag" [.value .text "z"], .absent]]⟩]

def orderProvider : Provider :=
  ⟨⟨.reject, [⟨"orders", nodeOrderBuilder.build, mixedOrders⟩]⟩, .standard⟩

def labelledOrders : Request :=
  ⟨[⟨"Node.Tag.Label", some "n"⟩, ⟨"Id", some "n"⟩], "orders", [], [], none⟩

theorem labelledOrders_rectangular : SchemaBuilder.Made nodeOrderBuilder ∧
    ∃ plan t, orderProvider.prepare labelledOrders = .ok plan ∧
      orderProvider.executeQuery labelledOrders = .ok t ∧
      t.Rectangular nodeOrderBuilder.build labelledOrders.select ∧
      t.rows = [[.text "x", .integer 1], [.null, .integer 2], [.null, .null]] ∧
      t.columnValues? "n" = some [.text "x", .null, .null] := by
  have h : orderProvider.prepare labelledOrders = .ok _ := rfl
  obtain ⟨t, ht, hrectangular, -⟩ := Provider.executeQuery_rectangular h rfl made_nodeOrderBuilder rfl
  refine ⟨made_nodeOrderBuilder, _, t, h, ht, hrectangular, ?_⟩
  cases ht
  exact ⟨rfl, rfl⟩

end RecordQuery
