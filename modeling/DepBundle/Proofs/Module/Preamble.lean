import DepBundle.Proofs.Module.Records
import DepBundle.Proofs.Module.Rewriting
import DepBundle.Proofs.Text.Segment
import Mathlib.Data.List.Nodup
import Mathlib.Data.List.Range
/-!
# Modules — what the preamble declares

The preamble has a line for each statement that names another module. The line of
a record declares the variable of that record and of no other
(`eq_of_declaresRecord_importLine`), unless nothing is read from the target or the
record points nowhere. A record whose variable is mentioned is neither: where a name
it binds is referred to, where an export reads it, and where all exports of its
target are passed on (`Mentions.declaredOnce`).
-/

namespace DepBundle.Module

open Syntax

variable {source : String} {program : Program} {treeshake : Bool} {node : Node} {name : String}
  {i r : ℕ} {isReferenced : String → Bool} {declared : List Declared} {d : Declared}
  {imported : ImportedName} {record : Record} {scan : Scan} {destination : Destination}
  {destinations : List Destination}

/-! ## Records that something is read from -/

/-- From a record something is read where a name that it binds is referred to. -/
theorem isPlain_of_binding (h : declared? isReferenced node = some d)
    (hbinding : (name, imported) ∈ d.bindings) (hname : isReferenced name) :
    d.record.isPlain = false := by
  rw [declared?] at h
  split at h
  · obtain rfl := Option.some.inj h
    obtain ⟨item, hitem, heq⟩ := List.mem_map.1 hbinding
    cases heq
    refine List.all_eq_false.2 ⟨item, hitem, ?_⟩
    obtain ⟨specifier, -, hspecifier⟩ := List.mem_filterMap.1 hitem
    have hreferenced : item.referenced = isReferenced item.localName := by
      dsimp only at hspecifier
      split at hspecifier
      all_goals cases hspecifier
      all_goals rfl
    rw [hreferenced, hname]
    decide
  all_goals cases h
  all_goals cases hbinding

/-- From a record something is read where it passes on a name. -/
theorem isPlain_of_export (h : declared? isReferenced node = some d)
    (hexport : (name, imported) ∈ d.exports) : d.record.isPlain = false := by
  rw [declared?] at h
  split at h
  · cases h
    cases hexport
  · cases h
    rfl
  · cases h
    rfl
  · obtain rfl := Option.some.inj h
    obtain ⟨item, hitem, -⟩ := List.mem_map.1 hexport
    exact List.isEmpty_eq_false_iff.2 (List.ne_nil_of_mem hitem)
  · cases h

/-- From a record something is read where it passes on all names. -/
theorem isPlain_of_star (h : declared? isReferenced node = some d)
    (hstar : d.record.form = .star) : d.record.isPlain = false := by
  rw [declared?] at h
  split at h
  all_goals cases h
  all_goals first | rfl | cases hstar

/-! ## What names are bound to -/

/-- A bound name is bound by the statement of its record. -/
theorem exists_declared_of_lookup
    (h : (boundNames declared).lookup name = some (r, imported)) :
    ∃ d, declared[r]? = some d ∧ (name, imported) ∈ d.bindings := by
  obtain ⟨before, after, hsplit, -⟩ := List.lookup_eq_some_iff.1 h
  have hmem : (name, r, imported) ∈ boundNames declared := by
    rw [hsplit]
    exact List.mem_append_right _ (List.mem_cons_self ..)
  obtain ⟨⟨d, index⟩, hd, hbinding⟩ := List.mem_flatMap.1 (List.mem_reverse.1 hmem)
  obtain ⟨⟨_, _⟩, hbinding, heq⟩ := List.mem_map.1 hbinding
  cases heq
  exact ⟨d, List.mem_zipIdx_iff_getElem?.1 hd, hbinding⟩

/-- The statement of a record. -/
theorem exists_statement_of_declaredIn (h : (declaredIn program treeshake)[r]? = some d) :
    ∃ node ∈ statementsOf program, declared? (refersTo program treeshake) node = some d := by
  rw [declaredIn_eq] at h
  obtain ⟨node, hnode, hdeclared⟩ := List.mem_filterMap.1 (List.mem_of_getElem? h)
  exact ⟨node, hnode, hdeclared⟩

theorem getElem?_records (h : (declaredIn program treeshake)[r]? = some d) :
    (Scan.ofProgram source program treeshake).records[r]? = some d.record := by
  have hlength := (List.getElem?_eq_some_iff.1 h).1
  rw [records_ofProgram, List.getElem?_append_left (by simpa using hlength), List.getElem?_map, h]
  rfl

/-! ## The lines of the preamble -/

/-- The lines of the preamble that load what statements name. -/
def importLines (scan : Scan) (destinations : List Destination) : List String :=
  (scan.records.zip destinations).zipIdx.map fun ((record, destination), index) =>
    if record.kind = .statement then importLine index record destination else ""

/-- The lines of the preamble that pass on all exports of a target. -/
def reexportLines (scan : Scan) (destinations : List Destination) : List String :=
  (scan.records.zip destinations).zipIdx.map fun ((record, destination), index) =>
    reexportLine index record destination

/-- Whether a line declares the variable of a record. -/
def declaresRecord (record : ℕ) (line : String) : Bool :=
  ("var " ++ recordBinding record ++ " = ").toList.isPrefixOf line.toList

/-- **A declaration** is that of one record. -/
theorem declaresRecord_iff {value : String} :
    declaresRecord i ("var " ++ recordBinding r ++ (" = " ++ value)) ↔ i = r := by
  have hbinding : ∀ n, (recordBinding n).toList =
      "__trimpack_import_".toList ++ (toString n).toList := fun n => String.toList_append
  rw [declaresRecord, List.isPrefixOf_iff_prefix, String.toList_append, String.toList_append,
    String.toList_append, String.toList_append, hbinding, hbinding, List.append_assoc,
    List.append_assoc, List.append_assoc, List.append_assoc, List.prefix_append_right_inj,
    List.prefix_append_right_inj, String.toList_append]
  constructor
  · rintro ⟨rest, hrest⟩
    -- the number is what there is of digits
    have hdigits : ∀ (n : ℕ) (more : List Char),
        ((toString n).toList ++ (" = ".toList ++ more)).takeWhile Char.isDigit =
          (toString n).toList := fun n more => by
      rw [List.takeWhile_append_of_pos Text.isDigit_of_mem_toString]
      exact List.append_nil _
    rw [List.append_assoc] at hrest
    refine Text.toString_inj (String.toList_inj.1 ?_)
    rw [← hdigits i rest, hrest, hdigits]
  · rintro rfl
    rw [← List.append_assoc]
    exact List.prefix_append ..

/-- What begins otherwise declares nothing. -/
theorem declaresRecord_of_head {line : String} (h : line.toList.head? ≠ some 'v') :
    declaresRecord i line = false := by
  rw [← Bool.not_eq_true, declaresRecord, List.isPrefixOf_iff_prefix]
  rintro ⟨rest, hrest⟩
  rw [← hrest, String.toList_append, String.toList_append] at h
  exact h rfl

/-- The line of a record declares its variable or nothing. -/
theorem importLine_cases (r : ℕ) (record : Record) (destination : Destination) :
    ((record.isPlain ∨ destination = .dropped) ∧
        (importLine r record destination).toList.head? ≠ some 'v') ∨
      ∃ value, importLine r record destination = "var " ++ recordBinding r ++ (" = " ++ value) := by
  unfold importLine
  split
  · exact Or.inl ⟨Or.inr rfl, by decide⟩
  · rename_i key
    split_ifs with hplain
    · refine Or.inl ⟨Or.inl hplain, ?_⟩
      rw [String.toList_append, String.toList_append]
      exact fun h => by cases h
    · refine Or.inr ⟨"__trimpack_interop(__trimpack_require(" ++ Text.quoted key ++ "));\n", ?_⟩
      have hopen : " = __trimpack_interop(__trimpack_require(" =
          " = " ++ "__trimpack_interop(__trimpack_require(" := rfl
      rw [hopen]
      simp only [String.append_assoc]
  · rename_i specifier
    refine Or.inr ⟨"__trimpack_external(" ++ Text.quoted specifier ++ ");\n", ?_⟩
    have hopen : " = __trimpack_external(" = " = " ++ "__trimpack_external(" := rfl
    rw [hopen]
    simp only [String.append_assoc]

/-- **The line of a record** declares its variable and no other. -/
theorem eq_of_declaresRecord_importLine
    (h : declaresRecord i (importLine r record destination)) : i = r := by
  rcases importLine_cases r record destination with ⟨-, hhead⟩ | ⟨value, hline⟩
  · rw [declaresRecord_of_head hhead] at h
    cases h
  · rw [hline] at h
    exact declaresRecord_iff.1 h

/-- It does so where something is read from a target. -/
theorem declaresRecord_importLine (hplain : record.isPlain = false)
    (hdropped : destination ≠ .dropped) :
    declaresRecord r (importLine r record destination) := by
  rcases importLine_cases r record destination with ⟨hnone, -⟩ | ⟨value, hline⟩
  · rcases hnone with hnone | hnone
    · rw [hplain] at hnone
      cases hnone
    · exact absurd hnone hdropped
  · rw [hline]
    exact declaresRecord_iff.2 rfl

/-- **What is read from has one line.** A record of a statement has its variable
declared once where something is read from a target. -/
theorem countP_importLines (hrecord : scan.records[r]? = some record)
    (hkind : record.kind = .statement) (hplain : record.isPlain = false)
    (hdestination : destinations[r]? = some destination) (hdropped : destination ≠ .dropped) :
    (importLines scan destinations).countP (declaresRecord r) = 1 := by
  have hzip : (scan.records.zip destinations)[r]? = some (record, destination) :=
    List.getElem?_zip_eq_some.2 ⟨hrecord, hdestination⟩
  -- the lines are counted by the numbers of their records
  have hlines : (importLines scan destinations).countP (declaresRecord r) =
      (scan.records.zip destinations).zipIdx.countP fun line => line.2 == r := by
    rw [importLines, List.countP_map]
    refine List.countP_congr fun ⟨⟨record', destination'⟩, index⟩ hmem => ?_
    dsimp only [Function.comp]
    rw [beq_iff_eq]
    constructor
    · intro h
      split_ifs at h
      · exact (eq_of_declaresRecord_importLine h).symm
      · rw [declaresRecord_of_head (by decide)] at h
        cases h
    · rintro rfl
      have heq := (List.mem_zipIdx_iff_getElem?.1 hmem).symm.trans hzip
      cases heq
      rw [if_pos hkind]
      exact declaresRecord_importLine hplain hdropped
  have hnumbers := List.zipIdx_map_snd 0 (scan.records.zip destinations)
  have hlt : r < (scan.records.zip destinations).length := (List.getElem?_eq_some_iff.1 hzip).1
  have hcount : (List.range' 0 (scan.records.zip destinations).length).count r = 1 :=
    List.count_eq_one_of_mem (List.nodup_range' 1) (List.mem_range'_1.2 ⟨r.zero_le, by omega⟩)
  rw [hlines, ← hcount, ← hnumbers, List.count_eq_countP, List.countP_map]
  rfl

/-- Whether records point somewhere unless nothing is read from their targets. -/
structure PointWhereRead (scan : Scan) (destinations : List Destination) : Prop where
  length : destinations.length = scan.records.length
  plain : ∀ (r : ℕ) (record : Record), scan.records[r]? = some record →
    destinations[r]? = some Destination.dropped → record.isPlain

theorem PointWhereRead.of_undropped (hlength : destinations.length = scan.records.length)
    (h : Destination.dropped ∉ destinations) : PointWhereRead scan destinations :=
  ⟨hlength, fun _ _ _ hdropped => absurd (List.mem_of_getElem? hdropped) h⟩

/-- **A record that is declared once:** something is read from its target, it points
somewhere, and one line of the preamble declares its variable. -/
structure DeclaredOnce (scan : Scan) (destinations : List Destination) (r : ℕ) : Prop where
  read : ∃ record, scan.records[r]? = some record ∧ record.isPlain = false
  placed : ∃ destination, destinations[r]? = some destination ∧ destination ≠ .dropped
  once : (importLines scan destinations).countP (declaresRecord r) = 1

theorem PointWhereRead.exists_destination (h : PointWhereRead scan destinations)
    (hrecord : scan.records[r]? = some record) (hplain : record.isPlain = false) :
    ∃ destination, destinations[r]? = some destination ∧ destination ≠ .dropped := by
  have hlt : r < destinations.length := by
    rw [h.length]
    exact (List.getElem?_eq_some_iff.1 hrecord).1
  refine ⟨destinations[r], List.getElem?_eq_getElem hlt, fun hdropped => ?_⟩
  have htrue := h.plain r record hrecord (by rw [List.getElem?_eq_getElem hlt, hdropped])
  rw [hplain] at htrue
  cases htrue

theorem PointWhereRead.declaredOnce (h : PointWhereRead scan destinations)
    (hrecord : scan.records[r]? = some record) (hkind : record.kind = .statement)
    (hplain : record.isPlain = false) : DeclaredOnce scan destinations r := by
  obtain ⟨destination, hdestination, hdropped⟩ := h.exists_destination hrecord hplain
  exact ⟨⟨record, hrecord, hplain⟩, ⟨destination, hdestination, hdropped⟩,
    countP_importLines hrecord hkind hplain hdestination hdropped⟩

end DepBundle.Module
