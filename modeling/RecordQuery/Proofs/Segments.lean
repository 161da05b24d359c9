import RecordQuery.Text.Segments

/-! The segments of a dotted path. They are the only texts without a dot that make the path again when they
are joined, and there is one more of them than there are dots. -/

namespace RecordQuery.Text

variable {mark : Char}

theorem cutAt_of_notMem {cs : List Char} (h : mark ∉ cs) : cutAt mark cs = [cs] := by
  induction cs with
  | nil => rfl
  | cons c cs ih =>
    obtain ⟨hc, hcs⟩ := not_or.1 (mt List.mem_cons.2 h)
    rw [cutAt, if_neg (Ne.symm hc), ih hcs]

theorem cutAt_append {cs : List Char} (h : mark ∉ cs) (rest : List Char) :
    cutAt mark (cs ++ mark :: rest) = cs :: cutAt mark rest := by
  induction cs with
  | nil => rw [List.nil_append, cutAt, if_pos rfl]
  | cons c cs ih =>
    obtain ⟨hc, hcs⟩ := not_or.1 (mt List.mem_cons.2 h)
    rw [List.cons_append, cutAt, if_neg (Ne.symm hc), ih hcs]

theorem notMem_of_mem_cutAt {cs piece : List Char} (h : piece ∈ cutAt mark cs) : mark ∉ piece := by
  induction cs generalizing piece with
  | nil =>
    rw [List.mem_singleton.1 h]
    exact List.not_mem_nil
  | cons c cs ih =>
    rw [cutAt] at h
    split at h
    · rcases List.mem_cons.1 h with rfl | h
      · exact List.not_mem_nil
      · exact ih h
    · next hc =>
      cases hcut : cutAt mark cs with
      | nil => exact absurd hcut (cutAt_ne_nil mark cs)
      | cons first pieces =>
        rw [hcut] at h ih
        rcases List.mem_cons.1 h with rfl | h
        · exact List.not_mem_cons_of_ne_of_not_mem (Ne.symm hc) (ih List.mem_cons_self)
        · exact ih (List.mem_cons_of_mem _ h)

theorem length_cutAt (mark : Char) (cs : List Char) : (cutAt mark cs).length = cs.count mark + 1 := by
  induction cs with
  | nil => rfl
  | cons c cs ih =>
    rw [cutAt]
    split
    · next h => rw [h, List.count_cons_self, List.length_cons, ih]
    · next h =>
      rw [List.count_cons_of_ne h, ← ih]
      cases hcut : cutAt mark cs with
      | nil => exact absurd hcut (cutAt_ne_nil mark cs)
      | cons piece pieces => rfl

theorem length_pieces (mark : Char) (s : String) : (pieces mark s).length = s.toList.count mark + 1 := by
  rw [pieces, List.length_map, length_cutAt]

theorem pieces_ne_nil (mark : Char) (s : String) : pieces mark s ≠ [] := by
  rw [pieces, ne_eq, List.map_eq_nil_iff]
  exact cutAt_ne_nil mark s.toList

theorem pieces_of_not_mem {name : String} (hdot : '.' ∉ name.toList) : pieces '.' name = [name] := by
  rw [pieces, cutAt_of_notMem hdot, List.map_singleton, String.ofList_toList]

theorem pieces_behind {name : String} (hdot : '.' ∉ name.toList) (path : String) :
    pieces '.' (name ++ "." ++ path) = name :: pieces '.' path := by
  have hlist : (name ++ "." ++ path).toList = name.toList ++ '.' :: path.toList := by
    rw [String.toList_append, String.toList_append, List.append_assoc]
    rfl
  rw [pieces, hlist, cutAt_append hdot, List.map_cons, String.ofList_toList]
  rfl

theorem intercalate_pieces (path : String) : ".".intercalate (pieces '.' path) = path := by
  have hid : String.toList ∘ String.ofList = id := funext fun _ => String.toList_ofList
  rw [← String.toList_inj, String.toList_intercalate, pieces, List.map_map, hid, List.map_id]
  exact intercalate_cutAt '.' path.toList

theorem pieces_intercalate {names : List String} (hne : names ≠ [])
    (hdot : ∀ name ∈ names, '.' ∉ name.toList) : pieces '.' (".".intercalate names) = names := by
  induction names with
  | nil => exact absurd rfl hne
  | cons name names ih =>
    obtain ⟨hname, hnames⟩ := List.forall_mem_cons.1 hdot
    cases names with
    | nil => rw [String.intercalate_singleton, pieces_of_not_mem hname]
    | cons next names =>
      rw [String.intercalate_cons_cons, pieces_behind hname, ih (List.cons_ne_nil _ _) hnames]

structure Segments (path : String) (segments : List String) : Prop where
  ne_nil : segments ≠ []
  dotFree : ∀ segment ∈ segments, '.' ∉ segment.toList
  joined : ".".intercalate segments = path

theorem segments_pieces (path : String) : Segments path (pieces '.' path) where
  ne_nil := pieces_ne_nil '.' path
  dotFree segment hsegment := by
    obtain ⟨piece, hpiece, rfl⟩ := List.mem_map.1 hsegment
    rw [String.toList_ofList]
    exact notMem_of_mem_cutAt hpiece
  joined := intercalate_pieces path

theorem segments_iff {path : String} {segments : List String} :
    Segments path segments ↔ pieces '.' path = segments := by
  constructor
  · rintro ⟨hne, hdot, rfl⟩
    exact pieces_intercalate hne hdot
  · rintro rfl
    exact segments_pieces path

end RecordQuery.Text
