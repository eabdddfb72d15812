import Mathlib.Data.List.TakeWhile
import PlaceWeather.Address
import PlaceWeather.Proofs.Text.Percent

/-!
# The addresses of feeds

The address of a feed is its base without the slashes at its end, the encoded path of the place and
the file name of feeds.  The path can be read back from it, so below one base two places share a
feed exactly when they have the same path (`feed_encodes_path`).
-/

namespace PlaceWeather.Address

/-- Only slashes are taken off a base. -/
theorem exists_replicate_trimBase (base : String) :
    ∃ n, base.toList = (trimBase base).toList ++ List.replicate n '/' := by
  let taken : List Char := base.toList.reverse.takeWhile (· == '/')
  have htaken : taken = List.replicate taken.length '/' := by
    apply List.eq_replicate_of_mem
    intro c hc
    have hslash : (c == '/') = true := List.mem_takeWhile_imp (p := (· == '/')) hc
    exact eq_of_beq hslash
  have hreverse : base.toList.reverse = taken ++ base.toList.reverse.dropWhile (· == '/') :=
    List.takeWhile_append_dropWhile.symm
  refine ⟨taken.length, ?_⟩
  unfold trimBase
  rw [String.toList_ofList, ← List.reverse_replicate, ← htaken, ← List.reverse_append, ← hreverse,
    List.reverse_reverse]

/-- No slash is left at the end of a base. -/
theorem getLast?_trimBase (base : String) : (trimBase base).toList.getLast? ≠ some '/' := by
  unfold trimBase
  rw [String.toList_ofList, List.getLast?_reverse]
  intro hhead
  have hnot := List.head?_dropWhile_not (· == '/') base.toList.reverse
  rw [hhead] at hnot
  exact absurd hnot (by decide)

/-- Slashes at the end of a base do not count. -/
theorem trimBase_append_slashes {base : String} (h : base.toList.getLast? ≠ some '/') (n : Nat) :
    trimBase (base ++ String.ofList (List.replicate n '/')) = base := by
  have hslashes : ∀ c ∈ List.replicate n '/', (c == '/') = true := by
    intro c hc
    rw [List.eq_of_mem_replicate hc]
    rfl
  have hbase : base.toList.reverse.dropWhile (· == '/') = base.toList.reverse := by
    cases hreverse : base.toList.reverse with
    | nil => rfl
    | cons c cs =>
        have hc : c ≠ '/' := by
          rintro rfl
          exact h (by rw [← List.head?_reverse, hreverse]; rfl)
        exact List.dropWhile_cons_of_neg (by simpa using hc)
  rw [trimBase, String.toList_append, String.toList_ofList, List.reverse_append,
    List.reverse_replicate, List.dropWhile_append_of_pos hslashes, hbase, List.reverse_reverse,
    String.ofList_toList]

/-- Below one base the address of a feed determines the path of its place. -/
theorem feed_inj {base country link country' link' : String} :
    feed base country link = feed base country' link' ↔
      placePath country link = placePath country' link' := by
  unfold feed
  -- The base and the file name are the same on both sides.
  rw [String.append_left_inj, String.append_left_inj, String.append_right_inj, String.ofList_inj]
  exact Percent.encodePath_inj

/-- How the address of a feed is made.

What is taken off the base are slashes, all of those at its end.  Then there is a slash, the encoded
path, and `/forecast.xml`.  The encoded path consists of letters, digits, `-_.~`, slashes and escapes
with two upper-case digits, and it decodes to the country as it stands in addresses, a slash and the
link.  So below one base two places share a feed exactly when these texts are equal. -/
theorem feed_encodes_path (base country link : String) :
    (∃ n, base.toList = (trimBase base).toList ++ List.replicate n '/') ∧
    (trimBase base).toList.getLast? ≠ some '/' ∧
    (∃ encoded : List Char,
      feed base country link =
        trimBase base ++ "/" ++ String.ofList encoded ++ "/forecast.xml" ∧
      Percent.PathText encoded ∧
      Percent.decodeText? encoded = some (normalizeCountry country ++ "/" ++ link)) ∧
    ∀ country' link', feed base country link = feed base country' link' ↔
      normalizeCountry country ++ "/" ++ link = normalizeCountry country' ++ "/" ++ link' := by
  refine ⟨exists_replicate_trimBase base, getLast?_trimBase base, ?_, fun _ _ => feed_inj⟩
  refine ⟨Percent.encodePath (placePath country link).toList, ?_, ?_, ?_⟩
  · have hfile : "/" ++ feedFile = "/forecast.xml" := rfl
    unfold feed
    rw [String.append_assoc, hfile]
  · exact Percent.pathText_encodePath _
  · exact Percent.decodeText?_encodePath _

/-- A percent sign of the link is escaped itself, so what follows it is not taken for a slash. -/
example : feed "https://www.yr.no/place//" "Norway" "Oslo%2FTøyen" =
    "https://www.yr.no/place/Norway/Oslo%252FT%C3%B8yen/forecast.xml" := by decide +kernel

end PlaceWeather.Address
