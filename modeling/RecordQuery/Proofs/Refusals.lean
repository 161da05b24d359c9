import Mathlib.Data.Nat.Digits.Defs
import RecordQuery.Proofs.Excerpts
import RecordQuery.Proofs.FirstFault
import RecordQuery.Proofs.RequestSizes
import RecordQuery.Proofs.Tokens

/-! Requests that limits refuse. Every refusal names one thing that is wrong, and what is said about it is
short and without control characters, whatever the request holds: numbers are shown in full, texts only as
excerpts. -/

namespace RecordQuery

def Request.counts (r : Request) : CountedPart → List Nat
  | .select => [r.select.length]
  | .filters => [r.filters.length]
  | .order => [r.order.length]
  | .values => r.filters.filterMap fun clause => clause.values.map (·.length)

theorem Request.Countable.lt_of_mem_counts {r : Request} (h : r.Countable) {part : CountedPart} {count : Nat}
    (hcount : count ∈ r.counts part) : count < 2 ^ 64 := by
  cases part with
  | select => exact List.mem_singleton.1 hcount ▸ h.select
  | filters => exact List.mem_singleton.1 hcount ▸ h.filters
  | order => exact List.mem_singleton.1 hcount ▸ h.order
  | values =>
    obtain ⟨clause, hclause, hvalues⟩ := List.mem_filterMap.1 hcount
    obtain ⟨entries, hentries, rfl⟩ := Option.map_eq_some_iff.1 hvalues
    exact h.values clause hclause entries hentries

namespace Limits

def maxCount (l : Limits) : CountedPart → Nat
  | .select => l.maxSelect
  | .filters => l.maxFilters
  | .order => l.maxOrder
  | .values => l.maxValues

/-- What limits can have against a request: the name of its source, a list or a selector. -/
inductive Refuses (l : Limits) (r : Request) : Error → Prop
  | blankSource (h : (Text.trim r.source).isEmpty = true) : Refuses l r .sourceRequired
  | longSource (h : maxSourceNameLength < r.source.utf8ByteSize) :
    Refuses l r (.sourceNameTooLong r.source.utf8ByteSize maxSourceNameLength)
  | sourceControl (h : r.source.toList.any Text.isControl = true) : Refuses l r (.sourceNameControl r.source)
  | tooMany {part : CountedPart} {count : Nat} (hcount : count ∈ r.counts part) (h : l.maxCount part < count) :
    Refuses l r (.tooMany part count (l.maxCount part))
  | longSelector {text : String} (htext : text ∈ r.selectorTexts)
    (h : l.maxSelectorLength < text.utf8ByteSize) :
    Refuses l r (.selectorTooLong text text.utf8ByteSize l.maxSelectorLength)
  | deepSelector {text : String} (htext : text ∈ r.selectorTexts)
    (h : l.maxSelectorDepth < (Text.pieces '.' text).length) :
    Refuses l r (.selectorTooDeep text (Text.pieces '.' text).length l.maxSelectorDepth)

variable {l : Limits} {r : Request} {e : Error}

theorem refuses_of_checkSourceName (h : checkSourceName r.source = .error e) : l.Refuses r e := by
  unfold checkSourceName at h
  split at h
  · next hblank => exact Except.error.inj h ▸ .blankSource hblank
  split at h
  · next hlong => exact Except.error.inj h ▸ .longSource hlong
  split at h
  · next hcontrol => exact Except.error.inj h ▸ .sourceControl hcontrol
  · exact nomatch h

theorem refuses_of_checkCount (part : CountedPart) {count : Nat} (hcount : count ∈ r.counts part)
    (h : checkCount part count (l.maxCount part) = .error e) : l.Refuses r e := by
  unfold checkCount at h
  split at h
  · next hmany => exact Except.error.inj h ▸ .tooMany hcount hmany
  · exact nomatch h

theorem refuses_of_checkSelector {text : String} (htext : text ∈ r.selectorTexts)
    (h : l.checkSelector text = .error e) : l.Refuses r e := by
  simp only [checkSelector] at h
  split at h
  · next hlong => exact Except.error.inj h ▸ .longSelector htext hlong
  split at h
  · next hdeep => exact Except.error.inj h ▸ .deepSelector htext hdeep
  · exact nomatch h

theorem refuses_of_checkClause {clause : FilterClause} (hclause : clause ∈ r.filters)
    (h : l.checkClause clause = .error e) : l.Refuses r e := by
  have htext {text : String} (ht : text ∈ clause.selectorTexts) : text ∈ r.selectorTexts :=
    List.mem_append_left _ (List.mem_append_right _ (List.mem_flatMap.2 ⟨clause, hclause, ht⟩))
  rcases seq_eq_error h with hleft | h
  · exact refuses_of_checkSelector (htext List.mem_cons_self) hleft
  rcases seq_eq_error h with hother | hset
  · obtain ⟨text, ht, hother⟩ := option_forM_eq_error hother
    exact refuses_of_checkSelector (htext (List.mem_cons_of_mem _ (Option.mem_toList.2 ht))) hother
  · obtain ⟨entries, hentries, hset⟩ := option_forM_eq_error hset
    have hcount : entries.length ∈ r.counts .values :=
      List.mem_filterMap.2 ⟨clause, hclause, hentries ▸ rfl⟩
    exact refuses_of_checkCount .values hcount hset

theorem refuses_of_checkRequest (h : l.checkRequest r = .error e) : l.Refuses r e := by
  rcases seq_eq_error h with hsource | h
  · exact refuses_of_checkSourceName hsource
  rcases seq_eq_error h with hselect | h
  · exact refuses_of_checkCount .select List.mem_cons_self hselect
  rcases seq_eq_error h with hfilters | h
  · exact refuses_of_checkCount .filters List.mem_cons_self hfilters
  rcases seq_eq_error h with horder | h
  · exact refuses_of_checkCount .order List.mem_cons_self horder
  rcases seq_eq_error h with hitems | h
  · obtain ⟨item, hitem, hitems⟩ := forM_eq_error hitems
    exact refuses_of_checkSelector
      (List.mem_append_left _ (List.mem_append_left _ (List.mem_map_of_mem hitem))) hitems
  rcases seq_eq_error h with hclauses | hkeys
  · obtain ⟨clause, hclause, hclauses⟩ := forM_eq_error hclauses
    exact refuses_of_checkClause hclause hclauses
  · obtain ⟨key, hkey, hkeys⟩ := forM_eq_error hkeys
    exact refuses_of_checkSelector (List.mem_append_right _ (List.mem_map_of_mem hkey)) hkeys

end Limits

open Text (Printable printable_append)

theorem Text.isControl_of_isDigit {c : Char} (h : c.isDigit = true) : isControl c = false := by
  simp only [Char.isDigit, Bool.and_eq_true, decide_eq_true_eq] at h
  have hlow : 48 ≤ c.toNat := h.1
  have hhigh : c.toNat ≤ 57 := h.2
  refine Bool.eq_false_iff.2 fun hcontrol => ?_
  simp only [isControl, Bool.or_eq_true, Bool.and_eq_true, decide_eq_true_eq] at hcontrol
  omega

namespace Error

theorem length_append_le {s t : String} {m n : Nat} (hs : s.length ≤ m) (ht : t.length ≤ n) :
    (s ++ t).length ≤ m + n := by
  rw [String.length_append]
  exact Nat.add_le_add hs ht

theorem toList_number (n : Nat) : (number n).toList = Nat.toDigits 10 n := by
  simp [number, Numeral.text, Numeral.chars, Numeral.ofNat]

theorem printable_number (n : Nat) : Printable (number n) := by
  intro c hc
  rw [toList_number] at hc
  exact Text.isControl_of_isDigit (List.all_eq_true.1 (Numeral.isDigit_toDigits n) c hc)

theorem length_number_le {n : Nat} (h : n < 2 ^ 64) : (number n).length ≤ 20 := by
  rw [← String.length_toList, toList_number]
  exact Nat.toDigits_length 10 n 20 (by decide) (h.trans (by decide))

theorem printable_excerpt (s : String) : Printable (excerpt s) := Text.printable_excerpt excerptLength s

theorem length_excerpt_le (s : String) : (excerpt s).length ≤ 79 := Text.length_excerpt_le excerptLength s

theorem printable_exceeds {subject : String} (h : Printable subject) (count max : Nat) :
    Printable (subject ++ number count ++ " exceeds maximum " ++ number max) :=
  have hcount := printable_append.2 ⟨h, printable_number count⟩
  printable_append.2 ⟨printable_append.2 ⟨hcount, by decide⟩, printable_number max⟩

theorem length_exceeds_le (subject : String) {count max : Nat} (h : max < count) (hcount : count < 2 ^ 64) :
    (subject ++ number count ++ " exceeds maximum " ++ number max).length ≤ subject.length + 20 + 17 + 20 :=
  have hexceeds : " exceeds maximum ".length ≤ 17 := by decide
  length_append_le (length_append_le (length_append_le le_rfl (length_number_le hcount)) hexceeds)
    (length_number_le (h.trans hcount))

theorem printable_around_excerpt {before after : String} (hbefore : Printable before)
    (hafter : Printable after) (text : String) : Printable (before ++ excerpt text ++ after) :=
  printable_append.2 ⟨printable_append.2 ⟨hbefore, printable_excerpt text⟩, hafter⟩

theorem length_around_excerpt_le (before after text : String) :
    (before ++ excerpt text ++ after).length ≤ before.length + 79 + after.length :=
  length_append_le (length_append_le le_rfl (length_excerpt_le text)) le_rfl

theorem printable_tooMany (part : CountedPart) (count max : Nat) :
    Printable (tooMany part count max).validationText :=
  have hpart : Printable (part.name ++ " has ") := by cases part <;> decide
  have hcount := printable_append.2 ⟨hpart, printable_number count⟩
  printable_append.2 ⟨printable_append.2 ⟨hcount, by decide⟩, printable_number max⟩

theorem length_tooMany_le (part : CountedPart) {count max : Nat} (h : max < count) (hcount : count < 2 ^ 64) :
    (tooMany part count max).validationText.length ≤ 13 + 20 + 21 + 20 :=
  have hpart : (part.name ++ " has ").length ≤ 13 := by cases part <;> decide
  have hentries : " entries, maximum is ".length ≤ 21 := by decide
  length_append_le (length_append_le (length_append_le hpart (length_number_le hcount)) hentries)
    (length_number_le (h.trans hcount))

theorem message_eq {e : Error} (h : e.kind = .validation) :
    e.message = "Validation error: " ++ e.validationText := by
  cases e <;> first | rfl | exact nomatch h

end Error

namespace Limits

open Error

variable {l : Limits} {r : Request} {e : Error}

theorem Refuses.kind (h : l.Refuses r e) : e.kind = .validation := by
  cases h <;> rfl

theorem Refuses.printable_validationText (h : l.Refuses r e) : Printable e.validationText := by
  cases h with
  | blankSource => exact (by decide : Printable "From is required")
  | longSource => exact printable_exceeds (by decide) _ _
  | sourceControl => exact printable_around_excerpt (by decide) (by decide) r.source
  | @tooMany part count => exact printable_tooMany part count _
  | longSelector => exact printable_exceeds (printable_around_excerpt (by decide) (by decide) _) _ _
  | deepSelector => exact printable_exceeds (printable_around_excerpt (by decide) (by decide) _) _ _

theorem Refuses.length_validationText_le (h : l.Refuses r e) (hr : r.Countable) :
    e.validationText.length ≤ 155 := by
  cases h with
  | blankSource => exact (by decide : "From is required".length ≤ 155)
  | longSource h => exact (length_exceeds_le "Source name length " h hr.source).trans (by decide)
  | sourceControl =>
    exact (length_around_excerpt_le "Source name '" "' contains control characters" r.source).trans (by decide)
  | @tooMany part count hcount h =>
    exact (length_tooMany_le part h (hr.lt_of_mem_counts hcount)).trans (by decide)
  | @longSelector text htext h =>
    have hsubject : ("Selector '" ++ excerpt text ++ "' length ").length ≤ 98 :=
      length_around_excerpt_le _ _ text
    exact (length_exceeds_le _ h (hr.selectors text htext)).trans (Nat.add_le_add_right hsubject 57)
  | @deepSelector text htext h =>
    have hsubject : ("Selector '" ++ excerpt text ++ "' depth ").length ≤ 97 :=
      length_around_excerpt_le _ _ text
    exact (length_exceeds_le _ h (hr.segments text htext)).trans
      ((Nat.add_le_add_right hsubject 57).trans (by decide))

/-- What is said of a request that limits refuse can be written to a log as it is: it is a validation error in
one short line. -/
theorem checkRequest_error_loggable (h : l.checkRequest r = .error e) :
    e.kind = .validation ∧ Printable e.message ∧ (r.Countable → e.message.length ≤ 200) := by
  have hrefuses := refuses_of_checkRequest h
  rw [message_eq hrefuses.kind]
  refine ⟨hrefuses.kind, printable_append.2 ⟨by decide, hrefuses.printable_validationText⟩, fun hr => ?_⟩
  have hstart : "Validation error: ".length ≤ 18 := by decide
  exact (length_append_le hstart (hrefuses.length_validationText_le hr)).trans (by decide)

end Limits

def forgedLine : Request := (Request.ofSource "orders").addColumn "Id\r\nINFO: passed"

theorem countable_forgedLine : forgedLine.Countable where
  select := by decide
  filters := by decide
  order := by decide
  values := nofun
  source := by decide
  selectors := by decide
  segments := by decide

theorem forgedLine_loggable : ∃ e, narrowLimits.checkRequest forgedLine = .error e ∧
    e.message = "Validation error: Selector 'IdINFO: passed' length 16 exceeds maximum 13" ∧
      e.kind = .validation ∧ Printable e.message ∧ e.message.length ≤ 200 := by
  have h : narrowLimits.checkRequest forgedLine = .error (.selectorTooLong "Id\r\nINFO: passed" 16 13) := rfl
  obtain ⟨hkind, hprintable, hlength⟩ := Limits.checkRequest_error_loggable h
  exact ⟨_, h, by decide, hkind, hprintable, hlength countable_forgedLine⟩

end RecordQuery
