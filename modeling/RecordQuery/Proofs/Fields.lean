import RecordQuery.Json.Fields
import RecordQuery.Proofs.Traversal

/-! Objects written field by field. A field has one of its names and may be left out where it says so;
the members stand in any order, with members of other names among them. Reading finds every field
again. -/

namespace RecordQuery.Json

structure FieldForm where
  names : List String
  mayOmit : Prop
  value : Json → Prop

inductive Written : List FieldForm → List (StringContent × Json) → Prop
  | nil : Written [] []
  | cons {f : FieldForm} {fs : List FieldForm} {name : String} {v : Json}
      {members : List (StringContent × Json)} (hname : name ∈ f.names) (hv : f.value v)
      (h : Written fs members) : Written (f :: fs) ((some name, v) :: members)
  | omitted {f : FieldForm} {fs : List FieldForm} {members : List (StringContent × Json)}
      (homit : f.mayOmit) (h : Written fs members) : Written (f :: fs) members

/-- An object of the fields in any order, among members of other names with values from `added`. -/
inductive Spells (added : Json → Prop) (fields : List FieldForm) : Json → Prop
  | intro {known extra members : List (StringContent × Json)} (hknown : Written fields known)
      (hextra : ∀ m ∈ extra, (∃ name, m.1 = some name ∧ ∀ f ∈ fields, name ∉ f.names) ∧ added m.2)
      (hperm : members.Perm (known ++ extra)) : Spells added fields (.object members)

def FieldForm.required {α : Type} (names : List String) (renders : α → Json → Prop) (a : α) : FieldForm :=
  ⟨names, False, renders a⟩

def FieldForm.defaulted {α : Type} (names : List String) (default : α) (renders : α → Json → Prop)
    (a : α) : FieldForm := ⟨names, a = default, renders a⟩

def FieldForm.Found (f : FieldForm) : Option Json → Prop
  | none => f.mayOmit
  | some v => f.value v

def goesBy (names : List String) (m : StringContent × Json) : Bool := m.1.any names.contains

def Others (names : List String) (members : List (StringContent × Json)) : Prop :=
  ∀ m ∈ members, ∃ name, m.1 = some name ∧ name ∉ names

theorem goesBy_of_mem {names : List String} {name : String} (h : name ∈ names) (v : Json) :
    goesBy names (some name, v) = true := List.contains_iff_mem.2 h

theorem goesBy_of_notMem {names : List String} {name : String} (h : name ∉ names) (v : Json) :
    ¬ goesBy names (some name, v) = true := fun hgoes => h (List.contains_iff_mem.1 hgoes)

theorem member?_perm (names : List String) {members members' : List (StringContent × Json)}
    (h : members.Perm members') : member? names members = member? names members' := by
  have hfilter := h.filter fun m => m.1.any names.contains
  unfold member?
  generalize members.filter _ = found at hfilter
  generalize members'.filter _ = found' at hfilter
  cases found with
  | nil => rw [hfilter.nil_eq]
  | cons m rest =>
    cases rest with
    | nil => rw [← hfilter.singleton_eq]
    | cons _ rest =>
      cases found' with
      | nil => exact absurd hfilter.length_eq (Nat.succ_ne_zero _)
      | cons _ rest' =>
        cases rest' with
        | nil => exact absurd (Nat.succ.inj hfilter.length_eq) (Nat.succ_ne_zero _)
        | cons _ _ => rfl

theorem member?_congr {names : List String} {members members' : List (StringContent × Json)}
    (h : members.filter (goesBy names) = members'.filter (goesBy names)) :
    member? names members = member? names members' := by
  change members.filter (fun m => m.1.any names.contains) =
    members'.filter fun m => m.1.any names.contains at h
  rw [member?, member?, h]

theorem Others.filter_eq_nil {names : List String} {members : List (StringContent × Json)}
    (h : Others names members) : members.filter (goesBy names) = [] := by
  refine List.filter_eq_nil_iff.2 fun m hm => ?_
  obtain ⟨name, hname, hnot⟩ := h m hm
  obtain ⟨content, v⟩ := m
  obtain rfl : content = some name := hname
  exact goesBy_of_notMem hnot v

theorem member?_append_of_others {names : List String} (members : List (StringContent × Json))
    {others : List (StringContent × Json)} (h : Others names others) :
    member? names (members ++ others) = member? names members :=
  member?_congr (by rw [List.filter_append, h.filter_eq_nil, List.append_nil])

theorem member?_of_others {names : List String} {others : List (StringContent × Json)}
    (h : Others names others) : member? names others = some none :=
  member?_append_of_others [] h

theorem member?_cons_of_mem {names : List String} {name : String} (hname : name ∈ names) (v : Json)
    {others : List (StringContent × Json)} (h : Others names others) :
    member? names ((some name, v) :: others) = some (some v) := by
  have hfilter : [(some name, v)].filter (goesBy names) = [(some name, v)] :=
    List.filter_cons_of_pos (goesBy_of_mem hname v)
  have hone : member? names [(some name, v)] = some (some v) := by
    change [(some name, v)].filter (fun m => m.1.any names.contains) = _ at hfilter
    rw [member?, hfilter]
  exact (member?_append_of_others [(some name, v)] h).trans hone

theorem member?_cons_of_notMem {names : List String} {name : String} (hname : name ∉ names) (v : Json)
    (members : List (StringContent × Json)) :
    member? names ((some name, v) :: members) = member? names members :=
  member?_congr (List.filter_cons_of_neg (goesBy_of_notMem hname v))

theorem Written.mem {fields : List FieldForm} {members : List (StringContent × Json)}
    (h : Written fields members) : ∀ m ∈ members, ∃ f ∈ fields, ∃ name ∈ f.names,
      m.1 = some name ∧ f.value m.2 := by
  induction h with
  | nil => exact List.forall_mem_nil _
  | cons hname hv _ ih =>
    intro m hm
    rcases List.mem_cons.1 hm with rfl | hm
    · exact ⟨_, List.mem_cons_self, _, hname, rfl, hv⟩
    · obtain ⟨f, hf, hm⟩ := ih m hm
      exact ⟨f, List.mem_cons_of_mem _ hf, hm⟩
  | omitted _ _ ih =>
    intro m hm
    obtain ⟨f, hf, hm⟩ := ih m hm
    exact ⟨f, List.mem_cons_of_mem _ hf, hm⟩

theorem Written.others {fields : List FieldForm} {members : List (StringContent × Json)}
    (h : Written fields members) {names : List String}
    (hdisjoint : ∀ name ∈ names, name ∉ fields.flatMap (·.names)) : Others names members := by
  intro m hm
  obtain ⟨f, hf, name, hname, hm, -⟩ := h.mem m hm
  exact ⟨name, hm, fun hmem => hdisjoint name hmem (List.mem_flatMap.2 ⟨f, hf, hname⟩)⟩

theorem Written.exists_found {fields : List FieldForm} {members : List (StringContent × Json)}
    (h : Written fields members) (hnames : (fields.flatMap (·.names)).Nodup) :
    ∀ f ∈ fields, ∃ field, member? f.names members = some field ∧ f.Found field := by
  induction h with
  | nil => exact List.forall_mem_nil _
  | @cons f fs name v members hname hv hrest ih =>
    obtain ⟨-, hfs, hdisjoint⟩ := List.nodup_append.1 hnames
    have hapart : ∀ name ∈ f.names, name ∉ fs.flatMap (·.names) := fun name hname hmem =>
      hdisjoint name hname name hmem rfl
    intro g hg
    rcases List.mem_cons.1 hg with rfl | hg
    · exact ⟨some v, member?_cons_of_mem hname v (hrest.others hapart), hv⟩
    · obtain ⟨field, hfield, hfound⟩ := ih hfs g hg
      -- names are distinct, so the member in front belongs to no later field
      have hnot : name ∉ g.names := fun hmem => hapart name hname (List.mem_flatMap.2 ⟨g, hg, hmem⟩)
      exact ⟨field, (member?_cons_of_notMem hnot v members).trans hfield, hfound⟩
  | @omitted f fs members homit hrest ih =>
    obtain ⟨-, hfs, hdisjoint⟩ := List.nodup_append.1 hnames
    have hapart : ∀ name ∈ f.names, name ∉ fs.flatMap (·.names) := fun name hname hmem =>
      hdisjoint name hname name hmem rfl
    intro g hg
    rcases List.mem_cons.1 hg with rfl | hg
    · exact ⟨none, member?_of_others (hrest.others hapart), homit⟩
    · exact ih hfs g hg

theorem Spells.exists_members {added : Json → Prop} {fields : List FieldForm} {j : Json}
    (h : Spells added fields j) : ∃ members, j = .object members := by
  obtain @⟨_, _, members, _, _, _⟩ := h
  exact ⟨members, rfl⟩

theorem Spells.mem {added : Json → Prop} {fields : List FieldForm}
    {members : List (StringContent × Json)} (h : Spells added fields (.object members)) :
    ∀ m ∈ members, m.1.isSome = true ∧ (added m.2 ∨ ∃ f ∈ fields, f.value m.2) := by
  obtain ⟨hknown, hextra, hperm⟩ := h
  intro m hm
  rcases List.mem_append.1 (hperm.mem_iff.1 hm) with hm | hm
  · obtain ⟨f, hf, name, -, hname, hv⟩ := hknown.mem m hm
    exact ⟨Option.isSome_iff_exists.2 ⟨name, hname⟩, .inr ⟨f, hf, hv⟩⟩
  · obtain ⟨⟨name, hname, -⟩, hadded⟩ := hextra m hm
    exact ⟨Option.isSome_iff_exists.2 ⟨name, hname⟩, .inl hadded⟩

theorem Spells.exists_found {added : Json → Prop} {fields : List FieldForm}
    {members : List (StringContent × Json)} (h : Spells added fields (.object members))
    (hnames : (fields.flatMap (·.names)).Nodup) :
    ∀ f ∈ fields, ∃ field, member? f.names members = some field ∧ f.Found field := by
  obtain @⟨known, extra, _, hknown, hextra, hperm⟩ := h
  intro f hf
  have hothers : Others f.names extra := by
    intro m hm
    obtain ⟨⟨name, hname, hnot⟩, -⟩ := hextra m hm
    exact ⟨name, hname, hnot f hf⟩
  obtain ⟨field, hfield, hfound⟩ := hknown.exists_found hnames f hf
  refine ⟨field, ?_, hfound⟩
  rw [member?_perm f.names hperm, member?_append_of_others known hothers, hfield]

theorem Spells.fields? {added : Json → Prop} {fields : List FieldForm} {j : Json}
    (h : Spells added fields j) (hnames : (fields.flatMap (·.names)).Nodup) :
    ∃ found, j.fields? (fields.map (·.names)) = some found ∧
      List.Forall₂ FieldForm.Found fields found := by
  obtain ⟨members, rfl⟩ := h.exists_members
  have hnamed : members.all (·.1.isSome) = true := List.all_eq_true.2 fun m hm => (h.mem m hm).1
  obtain ⟨found, hfound⟩ := exists_forall₂ (h.exists_found hnames)
  refine ⟨found, ?_, hfound.imp fun _ _ h => h.2⟩
  rw [Json.fields?, if_pos hnamed, mapM_eq_some, List.forall₂_map_left_iff]
  exact hfound.imp fun _ _ h => h.1

def Reads {α : Type} (read? : Json → Option α) (renders : α → Json → Prop) : Prop :=
  ∀ a j, renders a j → read? j = some a

section

variable {α : Type} {read? : Json → Option α} {renders : α → Json → Prop} {names : List String} {a : α}
  {field : Option Json}

theorem Reads.required? (h : Reads read? renders) (hfound : (FieldForm.required names renders a).Found field) :
    required? read? field = some a := by
  cases field with
  | none => exact hfound.elim
  | some v => exact h a v hfound

theorem Reads.defaulted? (h : Reads read? renders) {default : α}
    (hfound : (FieldForm.defaulted names default renders a).Found field) :
    defaulted? default read? field = some a := by
  cases field with
  | none => exact congrArg some (Eq.symm hfound)
  | some v => exact h a v hfound

def RendersText (s : String) (j : Json) : Prop := j = .text s

def RendersInt64 (n : Int64) (j : Json) : Prop := j = .int n.toInt

def RendersList (renders : α → Json → Prop) (xs : List α) (j : Json) : Prop :=
  ∃ items, j = .array items ∧ List.Forall₂ renders xs items

def RendersOption (renders : α → Json → Prop) : Option α → Json → Prop
  | none, j => j = .null
  | some a, j => renders a j

theorem reads_text : Reads text? RendersText := by
  rintro s _ rfl
  rfl

theorem reads_int64 : Reads int64? RendersInt64 := by
  rintro n _ rfl
  have hint : (Json.int n.toInt).int? = some n.toInt := Numeral.toInt?_ofInt n.toInt
  have hrange : Int64.minValue.toInt ≤ n.toInt ∧ n.toInt ≤ Int64.maxValue.toInt :=
    ⟨Int64.le_iff_toInt_le.1 n.minValue_le, Int64.le_iff_toInt_le.1 n.le_maxValue⟩
  rw [int64?, hint]
  change (if _ then some (Int64.ofInt n.toInt) else none) = _
  rw [if_pos hrange, Int64.ofInt_toInt]

theorem Reads.list (h : Reads read? renders) : Reads (list? read?) (RendersList renders) := by
  rintro xs _ ⟨items, rfl, hitems⟩
  exact mapM_eq_some.2 (List.Forall₂.flip (hitems.imp h))

theorem Reads.option (h : Reads read? renders) (hnull : read? .null = none) :
    Reads (nullable? read?) (RendersOption renders) := by
  intro x j hj
  cases x with
  | none =>
    obtain rfl : j = .null := hj
    rfl
  | some a =>
    have hread : read? j = some a := h a j hj
    have hne : j ≠ .null := by
      rintro rfl
      exact nomatch hnull.symm.trans hread
    rw [nullable?, hread]
    · rfl
    · exact hne

end

end RecordQuery.Json
