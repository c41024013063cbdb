import Mathlib.Data.List.Basic

/-!
# Texts of segments

A text is put together from segments with a separator between them. It is told
apart by its segments, when none of them holds the separator.

* `segments_append`, `segments_append_of_notMem`: the cuts of a text put together.
* `notMem_of_mem_segments`: no segment holds the separator.
-/

namespace Prequest.Lib

variable {sep : Char} {s t : String}

/-- The texts between the separators. -/
def segments (sep : Char) (s : String) : List String :=
  (s.toList.splitOn sep).map String.ofList

theorem segments_ne_nil (sep : Char) (s : String) : segments sep s ≠ [] := by
  unfold segments
  rw [Ne, List.map_eq_nil_iff]
  exact List.splitOn_ne_nil sep s.toList

theorem segments_of_notMem (h : sep ∉ s.toList) : segments sep s = [s] := by
  unfold segments
  rw [List.splitOn_eq_singleton h]
  simp

theorem segments_append (sep : Char) (s t : String) :
    segments sep (s ++ String.singleton sep ++ t) = segments sep s ++ segments sep t := by
  unfold segments
  rw [String.toList_append, String.toList_append, String.toList_singleton, List.append_assoc,
    List.singleton_append, List.splitOn_append_cons_self, List.map_append]

theorem segments_append_of_notMem (s : String) (h : sep ∉ t.toList) :
    segments sep (s ++ String.singleton sep ++ t) = segments sep s ++ [t] := by
  rw [segments_append, segments_of_notMem h]

theorem notMem_of_mem_splitOn {α : Type} [BEq α] [LawfulBEq α] {a : α} {xs ys : List α}
    (h : ys ∈ xs.splitOn a) : a ∉ ys := by
  induction xs generalizing ys with
  | nil =>
    rw [List.splitOn_nil, List.mem_singleton] at h
    rw [h]
    exact List.not_mem_nil
  | cons x xs ih =>
    rw [List.splitOn_cons_eq_if_modifyHead] at h
    split at h
    · rcases List.mem_cons.mp h with rfl | htail
      · exact List.not_mem_nil
      · exact ih htail
    · rename_i hne
      cases hsplit : xs.splitOn a with
      | nil => exact absurd hsplit (List.splitOn_ne_nil a xs)
      | cons z zs =>
        rw [hsplit, List.modifyHead_cons] at h
        rcases List.mem_cons.mp h with rfl | htail
        · intro hmem
          rcases List.mem_cons.mp hmem with rfl | hrest
          · exact hne BEq.rfl
          · exact ih (hsplit ▸ List.mem_cons_self) hrest
        · exact ih (hsplit ▸ List.mem_cons_of_mem z htail)

theorem notMem_of_mem_segments (h : t ∈ segments sep s) : sep ∉ t.toList := by
  obtain ⟨ys, hys, rfl⟩ := List.mem_map.mp h
  rw [String.toList_ofList]
  exact notMem_of_mem_splitOn hys

/-- Values as texts that tell them apart and hold no separator. -/
structure Printer (sep : Char) (α : Type) where
  text : α → String
  injective : Function.Injective text
  notMem : ∀ a, sep ∉ (text a).toList

namespace Printer

variable {α : Type} (p : Printer sep α) {a b : α}

theorem text_inj : p.text a = p.text b ↔ a = b := p.injective.eq_iff

end Printer

end Prequest.Lib
