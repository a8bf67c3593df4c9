import DocumentStore.Filter.Field
import Mathlib.Data.List.Basic

/-! The segments of a field that is a path into the metadata, and how a field is resolved by
them. -/
namespace DocumentStore.Field

/-- The segments of a path into the metadata, which stand between its points. -/
def segments? (s : String) : Option (List (List Char)) :=
  (s.toList.dropPrefix? "meta.".toList).map (·.splitOn '.')

theorem splitPoints_eq (cs : List Char) : splitPoints cs = cs.splitOn '.' := by
  induction cs with
  | nil => rfl
  | cons c cs ih =>
    rw [splitPoints, ih, List.splitOn_cons_eq_if_modifyHead]
    by_cases hc : c = '.'
    · simp [hc]
    · obtain ⟨t, ts, hsplit⟩ := List.exists_cons_of_ne_nil (List.splitOn_ne_nil '.' cs)
      simp [hc, hsplit]

theorem ofText_eq (s : String) :
    ofText s = match segments? s with
      | some segments =>
        match checkKeys segments with
        | .ok keys => .ok (.path keys)
        | .error fault => .error (.invalidMetaKey s fault)
      | none =>
        match Column.ofName? s with
        | some c => .ok (.column c)
        | none => .error (.unknownField s) := by
  rw [ofText, segments?]
  split
  · rename_i rest hs
    have hpath : s.toList.dropPrefix? "meta.".toList = some rest := by
      rw [hs]
      simp [List.dropPrefix?]
    rw [hpath, splitPoints_eq]
    rfl
  · rename_i hs
    have hpath : s.toList.dropPrefix? "meta.".toList = none := by
      rw [Option.eq_none_iff_forall_ne_some]
      intro rest hrest
      obtain ⟨front, hfront, heq⟩ := List.dropPrefix?_eq_some_iff.mp hrest
      obtain rfl : front = "meta.".toList := by simpa using heq
      exact hs rest hfront
    rw [hpath]
    rfl

theorem ofName?_eq_some {s : String} {c : Column} : Column.ofName? s = some c ↔ s = c.name := by
  constructor
  · intro h
    exact (by simpa using List.find?_some h : c.name = s).symm
  · rintro rfl
    exact Column.ofName?_name c

theorem ofName?_isSome {s : String} : (Column.ofName? s).isSome ↔ ∃ c : Column, s = c.name := by
  simp only [Option.isSome_iff_exists, ofName?_eq_some]

theorem segments?_name (c : Column) : segments? c.name = none := by
  cases c <;> decide

end DocumentStore.Field
