import DepBundle.Module.Id
import DepBundle.Proofs.Path.Normal
/-!
# Modules — keys

A key names one module: files have different ways to them, and the mark of
a module served from memory stands in no way (`stableKey_inj`).
-/

namespace DepBundle.Module

variable {current base : Path} {id id' : String}

/-- The ids of the modules that a program can be made of: of one served
from memory, or the path of a file without components that cancel. -/
inductive IsProper (id : String) : Prop where
  | served (h : isVirtual id)
  | file (h : (Path.mk id).IsNormal) (hmark : '\x00' ∉ id.toList)

theorem isProper_iff : IsProper id ↔ isVirtual id ∨ (Path.mk id).IsNormal ∧ '\x00' ∉ id.toList := by
  constructor
  · rintro (h | ⟨h, hmark⟩)
    · exact Or.inl h
    · exact Or.inr ⟨h, hmark⟩
  · rintro (h | ⟨h, hmark⟩)
    · exact .served h
    · exact .file h hmark

instance : Decidable (IsProper id) := decidable_of_iff _ isProper_iff.symm

/-- The id of a module served from memory begins with the mark. -/
theorem exists_of_isVirtual (h : isVirtual id) : ∃ rest, id.toList = '\x00' :: rest := by
  rw [isVirtual, Text.dropPrefix?, Option.isSome_map] at h
  have hmark : virtualMark.toList = '\x00' :: "virtual:".toList := by decide
  rw [hmark] at h
  cases hid : id.toList with
  | nil => simp [hid, Text.after?] at h
  | cons c cs =>
    rw [hid, Text.after?] at h
    split at h
    · rename_i hc
      exact ⟨cs, by rw [hc]⟩
    · exact absurd h (by decide)

theorem isVirtual_virtualId (name : String) : isVirtual (virtualId name) := by
  rw [isVirtual, Text.dropPrefix?_isSome_iff, virtualId, String.toList_append]
  exact ⟨name.toList, rfl⟩

theorem not_isAbsolute_of_isVirtual (h : isVirtual id) : (Path.mk id).isAbsolute = false := by
  obtain ⟨rest, hid⟩ := exists_of_isVirtual h
  rw [Path.isAbsolute, hid]
  rfl

/-- What is served from memory goes by its id. -/
theorem stableKey_of_isVirtual (h : isVirtual id) : stableKey current base id = id := by
  rw [stableKey, not_isAbsolute_of_isVirtual h]
  rfl

theorem stableKey_of_isNormal (h : (Path.mk id).IsNormal) :
    stableKey current base id = Path.relative current base ⟨id⟩ := by
  rw [stableKey, if_pos h.absolute]

/-- The mark does not stand in the way to a file. -/
theorem not_mem_stableKey (current : Path) (hbase : base.isAbsolute) (h : (Path.mk id).IsNormal)
    (hmark : '\x00' ∉ id.toList) : '\x00' ∉ (stableKey current base id).toList := by
  obtain ⟨from', hfrom, hnorm⟩ := Path.normalize_of_isAbsolute hbase
  obtain ⟨names, hnames, hid⟩ := h.exists_eq_under
  have hat : (Path.absolutize current base).components = Path.below from' := by
    rw [Path.absolutize_of_isAbsolute current hbase, hnorm, Path.components_under hfrom]
  have htarget : (Path.absolutize current ⟨id⟩).components = Path.below names := by
    rw [Path.absolutize_of_isAbsolute current h.absolute, h.normalize_eq, hid,
      Path.components_under hnames]
  obtain ⟨shared, up, down, -, hsplit, hway⟩ := Path.relative_under hat htarget
  rw [stableKey_of_isNormal h, hway]
  -- a step up has no mark, and a step down is an entry of the path
  intro hmem
  rcases Text.mem_intercalate hmem with hsep | ⟨step, hstep, hc⟩
  · exact absurd hsep (by decide)
  · rcases List.mem_append.1 hstep with hstep | hstep
    · rw [List.eq_of_mem_replicate hstep] at hc
      exact absurd hc (by decide)
    · have htext : id = "/" ++ "/".intercalate names := (congrArg Path.text hid).trans Path.text_under
      rw [htext, String.toList_append] at hmark
      refine hmark (List.mem_append_right _ (Text.mem_intercalate_of_mem ?_ hc))
      rw [hsplit]
      exact List.mem_append_right _ hstep

/-- **Different modules have different keys.** -/
theorem stableKey_inj (hbase : base.isAbsolute) (h : IsProper id) (h' : IsProper id')
    (heq : stableKey current base id = stableKey current base id') : id = id' := by
  cases h with
  | served h =>
    cases h' with
    | served h' => rwa [stableKey_of_isVirtual h, stableKey_of_isVirtual h'] at heq
    | file h' hmark' =>
      obtain ⟨rest, hid⟩ := exists_of_isVirtual h
      refine absurd ?_ (not_mem_stableKey current hbase h' hmark')
      rw [← heq, stableKey_of_isVirtual h, hid]
      exact List.mem_cons_self ..
  | file h hmark =>
    cases h' with
    | served h' =>
      obtain ⟨rest, hid⟩ := exists_of_isVirtual h'
      refine absurd ?_ (not_mem_stableKey current hbase h hmark)
      rw [heq, stableKey_of_isVirtual h', hid]
      exact List.mem_cons_self ..
    | file h' hmark' =>
      rw [stableKey_of_isNormal h, stableKey_of_isNormal h'] at heq
      exact congrArg Path.text (Path.relative_inj hbase h h' heq)

end DepBundle.Module
