import PlaceWeather.Files
import PlaceWeather.Proofs.Text.Pieces

/-!
# Names in directories

Joining keeps the directory when the name that is joined does not begin at the root: the parts of the
directory are followed by those of the name.  So a name without a separator leads to a file in the
directory, and any other name leads to something else (`isChild_join_iff`).
-/

namespace PlaceWeather

/-! ## Where names lead -/

/-- A name that does not mean a directory is the last step of the way. -/
theorem Files.walk_concat {name : String} (hhere : name ≠ ".") (habove : name ≠ "..")
    (directory : List String) (names : List String) :
    (walk directory (names ++ [name])).1 = (walk directory names).1 ++ [name] := by
  -- The names before the last one are passed in the same way, whichever they are.
  fun_induction walk directory names with
  | case1 directory => simp [walk]
  | case2 directory rest ih => simpa [walk] using ih
  | case3 directory rest last passed hwalk ih => simpa [walk, hwalk] using ih
  | case4 directory first rest hfirst hfirst' last passed hwalk ih =>
      simpa [walk, hwalk, hfirst, hfirst'] using ih

namespace Path

variable {directory name path : String}

/-! ## Parts -/

theorem parts_empty : parts "" = [] := rfl

theorem parts_append_slash (directory name : String) :
    parts (directory ++ "/" ++ name) = parts directory ++ parts name := by
  have hchars : (directory ++ "/" ++ name).toList =
      directory.toList ++ '/' :: name.toList := by
    simp [String.toList_append]
  rw [parts, hchars, Text.split_append_cons, List.filter_append, List.map_append]
  rfl

theorem not_mem_of_mem_parts (h : name ∈ parts path) : '/' ∉ name.toList := by
  obtain ⟨piece, hpiece, rfl⟩ := List.mem_map.mp h
  rw [String.toList_ofList]
  exact Text.not_mem_of_mem_split (List.mem_filter.mp hpiece).1

theorem parts_of_not_mem (hname : name ≠ "") (hplain : '/' ∉ name.toList) :
    parts name = [name] := by
  have hchars : name.toList ≠ [] := fun hnil => hname (String.toList_inj.mp hnil)
  rw [parts, Text.split_of_not_mem hplain]
  simp [hchars]

/-! ## Joining -/

/-- A path that begins at the root, wherever it is used. -/
def IsAbsolute (path : String) : Prop := path.toList.head? = some '/'

theorem join_of_isAbsolute (h : IsAbsolute name) (directory : String) :
    join directory name = name := if_pos h

/-- A separator is put between a directory and a name unless the directory is empty or ends in
one. -/
theorem join_cases (h : ¬ IsAbsolute name) (directory : String) :
    (directory = "" ∧ join directory name = name) ∨
    (directory.toList.getLast? = some '/' ∧ join directory name = directory ++ name) ∨
    (directory ≠ "" ∧ join directory name = directory ++ "/" ++ name) := by
  have hjoin : join directory name =
      if directory.isEmpty || directory.toList.getLast? = some '/' then directory ++ name
      else directory ++ "/" ++ name := if_neg h
  by_cases hempty : directory = ""
  · exact .inl ⟨hempty, by rw [hjoin, hempty]; exact String.empty_append⟩
  · by_cases hslash : directory.toList.getLast? = some '/'
    · exact .inr (.inl ⟨hslash, by rw [hjoin, if_pos (by simp [hslash])]⟩)
    · exact .inr (.inr ⟨hempty, by rw [hjoin, if_neg (by simp [hempty, hslash])]⟩)

/-- A directory that ends in a separator has no part behind that. -/
theorem parts_append_of_getLast? (h : directory.toList.getLast? = some '/') (name : String) :
    parts (directory ++ name) = parts directory ++ parts name := by
  obtain ⟨cs, hcs⟩ := List.getLast?_eq_some_iff.mp h
  have hdirectory : directory = String.ofList cs ++ "/" := by
    rw [← String.toList_inj, hcs]
    simp [String.toList_append]
  -- The separator at the end does not change the parts of the directory itself.
  have hparts := parts_append_slash (String.ofList cs) ""
  rw [String.append_empty, ← hdirectory, parts_empty, List.append_nil] at hparts
  rw [hparts, hdirectory]
  exact parts_append_slash (String.ofList cs) name

theorem parts_join (h : ¬ IsAbsolute name) (directory : String) :
    parts (join directory name) = parts directory ++ parts name := by
  obtain ⟨hempty, hjoin⟩ | ⟨hslash, hjoin⟩ | ⟨-, hjoin⟩ := join_cases h directory
  · rw [hjoin, hempty, parts_empty, List.nil_append]
  · rw [hjoin]
    exact parts_append_of_getLast? hslash name
  · rw [hjoin]
    exact parts_append_slash directory name

theorem isAbsolute_append_iff (h : directory ≠ "") (name : String) :
    IsAbsolute (directory ++ name) ↔ IsAbsolute directory := by
  cases hchars : directory.toList with
  | nil => exact absurd (String.toList_inj.mp hchars) h
  | cons c cs =>
      rw [IsAbsolute, IsAbsolute, String.toList_append, hchars]
      exact Iff.rfl

theorem isAbsolute_join_iff (h : ¬ IsAbsolute name) (directory : String) :
    IsAbsolute (join directory name) ↔ IsAbsolute directory := by
  obtain ⟨hempty, hjoin⟩ | ⟨hslash, hjoin⟩ | ⟨hne, hjoin⟩ := join_cases h directory
  · rw [hjoin, hempty]
    exact iff_of_false h (by simp [IsAbsolute])
  · -- A directory that ends in a separator is not empty.
    have hne : directory ≠ "" := by
      rintro rfl
      cases hslash
    rw [hjoin]
    exact isAbsolute_append_iff hne name
  · rw [hjoin, String.append_assoc]
    exact isAbsolute_append_iff hne _

/-! ## Files in a directory -/

/-- A path leads to a name in a directory.  It begins at the root only if the directory does, it has
the name as its only part behind the directory, and it leads there from wherever it is used. -/
structure IsChild (directory name path : String) : Prop where
  absolute : IsAbsolute path ↔ IsAbsolute directory
  parts_eq : parts path = parts directory ++ [name]
  leads : ∀ here, (Files.walk here (parts path)).1 =
    (Files.walk here (parts directory)).1 ++ [name]

/-- A name that is not empty and does not mean a directory is joined as a name in the directory
exactly when it has no separator. -/
theorem isChild_join_iff (hname : name ∉ ["", ".", ".."]) :
    IsChild directory name (join directory name) ↔ '/' ∉ name.toList := by
  simp only [List.mem_cons, List.not_mem_nil, or_false, not_or] at hname
  obtain ⟨hempty, hhere, habove⟩ := hname
  constructor
  · -- The name is a part of the path, and no part has a separator.
    intro h
    apply not_mem_of_mem_parts
    rw [h.parts_eq]
    exact List.mem_append_right _ List.mem_cons_self
  · intro hplain
    have hrelative : ¬ IsAbsolute name := fun habsolute => hplain (List.mem_of_head? habsolute)
    have hparts : parts (join directory name) = parts directory ++ [name] := by
      rw [parts_join hrelative, parts_of_not_mem hempty hplain]
    refine ⟨isAbsolute_join_iff hrelative directory, hparts, ?_⟩
    intro here
    rw [hparts]
    exact Files.walk_concat hhere habove here (parts directory)

end Path

end PlaceWeather
