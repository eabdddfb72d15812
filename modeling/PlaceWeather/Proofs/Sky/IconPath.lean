import PlaceWeather.Feed.Reading
import PlaceWeather.Proofs.Files
import PlaceWeather.Sky.Icon

/-!
# The paths of icons

An icon is looked for in the custom directory and else taken from the bundled one.  The symbol comes
from a feed as it is, so its file stays in the chosen directory exactly when there is no separator
in it (`resolve_isChild_iff`).  A symbol that begins with one replaces the directory, and others lead
out of it or below it (`resolve_isChild_escapes`).
-/

namespace PlaceWeather.IconDirectories

variable {dirs : IconDirectories} {readable : String → Bool} {symbol directory : String}

/-- The directory from which an icon is taken: the custom one when the icon can be read there, and
else the bundled one. -/
inductive Chosen (dirs : IconDirectories) (readable : String → Bool) (symbol : String) :
    String → Prop
  | custom {directory : String} (hcustom : dirs.custom = some directory)
      (hreadable : readable (Path.join directory (fileName symbol)) = true) :
      Chosen dirs readable symbol directory
  | bundled (hnone : ∀ directory, dirs.custom = some directory →
        readable (Path.join directory (fileName symbol)) = false) :
      Chosen dirs readable symbol dirs.bundled

theorem chosen_of_resolve (dirs : IconDirectories) (readable : String → Bool) (symbol : String) :
    ∃ directory, dirs.Chosen readable symbol directory ∧
      dirs.resolve readable symbol = Path.join directory (fileName symbol) := by
  cases hcustom : dirs.custom with
  | none =>
      refine ⟨dirs.bundled, .bundled ?_, by rw [resolve, hcustom]⟩
      intro directory hsome
      cases hcustom.symm.trans hsome
  | some directory =>
      cases hreadable : readable (Path.join directory (fileName symbol)) with
      | true =>
          refine ⟨directory, .custom hcustom hreadable, ?_⟩
          simp only [resolve, hcustom, hreadable, if_true]
      | false =>
          refine ⟨dirs.bundled, .bundled ?_, ?_⟩
          · intro other hsome
            cases hcustom.symm.trans hsome
            exact hreadable
          · simp only [resolve, hcustom, hreadable, Bool.false_eq_true, if_false]

theorem toList_fileName (symbol : String) :
    (fileName symbol).toList = symbol.toList ++ ".png".toList := String.toList_append

/-- The ending makes a name of every symbol. -/
theorem fileName_not_mem (symbol : String) : fileName symbol ∉ ["", ".", ".."] := by
  have hshort : ∀ name ∈ ["", ".", ".."], name.toList.length ≤ 2 := by decide
  intro hmem
  have hlength := hshort _ hmem
  rw [toList_fileName, List.length_append] at hlength
  have hending : ".png".toList.length = 4 := rfl
  omega

theorem not_mem_fileName_iff : '/' ∉ (fileName symbol).toList ↔ '/' ∉ symbol.toList := by
  have hending : '/' ∉ ".png".toList := by decide
  rw [toList_fileName, List.mem_append, or_iff_left hending]

/-- Where the icon of a symbol is taken from, whatever the text in which a feed had the symbol, and
whichever paths lead to files that can be read.

One of the two directories is chosen, the custom one exactly when the icon can be read in it, and
the path is the file of the symbol joined to it.  That leads to the file in the directory exactly
when the symbol has no separator.  A symbol that begins with one takes the place of the directory. -/
theorem resolve_isChild_iff (dirs : IconDirectories) (readable : String → Bool) (text : String) :
    ∃ directory, dirs.Chosen readable (Feed.plainSymbol text) directory ∧
      dirs.resolve readable (Feed.plainSymbol text) =
        Path.join directory (fileName (Feed.plainSymbol text)) ∧
      (Path.IsChild directory (fileName (Feed.plainSymbol text))
          (dirs.resolve readable (Feed.plainSymbol text)) ↔
        '/' ∉ (Feed.plainSymbol text).toList) ∧
      (Path.IsAbsolute (Feed.plainSymbol text) →
        dirs.resolve readable (Feed.plainSymbol text) = fileName (Feed.plainSymbol text)) := by
  obtain ⟨directory, hchosen, hpath⟩ := chosen_of_resolve dirs readable (Feed.plainSymbol text)
  refine ⟨directory, hchosen, hpath, ?_, ?_⟩
  · rw [hpath, Path.isChild_join_iff (fileName_not_mem _)]
    exact not_mem_fileName_iff
  · intro habsolute
    rw [hpath]
    apply Path.join_of_isAbsolute
    rw [Path.IsAbsolute, toList_fileName, List.head?_append, habsolute]
    rfl

/-- Symbols that do not stay in the directory: one names a file at the root instead, and one climbs
out of it. -/
theorem resolve_isChild_escapes :
    Feed.plainSymbol "mf//ab.11" = "/ab" ∧
    (⟨some "custom", "images"⟩ : IconDirectories).resolve (fun _ => false) "/ab" = "/ab.png" ∧
    (∀ directory ∈ ["custom", "images"], ¬ Path.IsChild directory "/ab.png" "/ab.png") ∧
    Feed.plainSymbol "mf/../.11" = "../" ∧
    (⟨some "custom", "images"⟩ : IconDirectories).resolve (fun _ => false) "../" =
      "images/../.png" ∧
    (Files.walk [] (Path.parts "images/../.png")).1 = [".png"] := by
  refine ⟨by decide, by decide, ?_, by decide, by decide, by decide⟩
  intro directory _ hchild
  have hplain : '/' ∉ "/ab.png".toList := by
    apply Path.not_mem_of_mem_parts
    rw [hchild.parts_eq]
    exact List.mem_append_right _ List.mem_cons_self
  exact hplain (by decide)

end PlaceWeather.IconDirectories
