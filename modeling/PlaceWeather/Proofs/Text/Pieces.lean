import PlaceWeather.Text.Pieces

/-!
# Taking texts apart

A separator between two texts separates their pieces, and a text without a separator is one piece.
So what stands before the first separator and what follows it are found again
(`eq_of_append_cons_eq`).  Trimming leaves the one text that neither begins nor ends with a blank and
has only blanks around it (`trims_trim`, `Trims.trim_eq`).
-/

namespace PlaceWeather.Text

variable {sep : Char} {cs ds : List Char}

theorem split_of_not_mem (h : sep ∉ cs) : split sep cs = [cs] := by
  induction cs with
  | nil => rfl
  | cons c cs ih =>
      rw [List.mem_cons, not_or] at h
      rw [split, if_neg (Ne.symm h.1), ih h.2]

/-- The separator stands in no piece. -/
theorem not_mem_of_mem_split {piece : List Char} (h : piece ∈ split sep cs) : sep ∉ piece := by
  induction cs generalizing piece with
  | nil =>
      rw [split, List.mem_singleton] at h
      rw [h]
      exact List.not_mem_nil
  | cons c cs ih =>
      rw [split] at h
      by_cases hc : c = sep
      · rw [if_pos hc] at h
        rcases List.mem_cons.mp h with rfl | h
        · exact List.not_mem_nil
        · exact ih h
      · rw [if_neg hc] at h
        cases hpieces : split sep cs with
        | nil => exact absurd hpieces (split_ne_nil sep cs)
        | cons first pieces =>
            rw [hpieces] at h ih
            -- Only the first piece has become longer.
            rcases List.mem_cons.mp h with rfl | h
            · exact List.not_mem_cons_of_ne_of_not_mem (Ne.symm hc) (ih List.mem_cons_self)
            · exact ih (List.mem_cons_of_mem first h)

theorem split_append_cons (sep : Char) (cs ds : List Char) :
    split sep (cs ++ sep :: ds) = split sep cs ++ split sep ds := by
  induction cs with
  | nil => simp [split]
  | cons c cs ih =>
      rw [List.cons_append, split, split, ih]
      by_cases hc : c = sep
      · rw [if_pos hc, if_pos hc, List.cons_append]
      · rw [if_neg hc, if_neg hc]
        -- The first piece of `cs` takes the character, so it must be there.
        cases hpieces : split sep cs with
        | nil => exact absurd hpieces (split_ne_nil sep cs)
        | cons piece pieces => rfl

/-- The first piece and the rest of a text are determined by the text. -/
theorem eq_of_append_cons_eq {cs' ds' : List Char} (h : sep ∉ cs) (h' : sep ∉ cs')
    (heq : cs ++ sep :: ds = cs' ++ sep :: ds') : cs = cs' ∧ ds = ds' := by
  have hpieces := congrArg (split sep) heq
  rw [split_append_cons, split_append_cons, split_of_not_mem h, split_of_not_mem h'] at hpieces
  obtain ⟨hfirst, hrest⟩ := List.cons.inj hpieces
  have hjoin : join sep (split sep ds) = join sep (split sep ds') := congrArg (join sep) hrest
  rw [join_split, join_split] at hjoin
  exact ⟨hfirst, hjoin⟩

/-- A text that ends in a separator has no other one, or something stands between the first and the
last. -/
theorem eq_of_getLast? (h : cs.getLast? = some sep) :
    (∃ first, sep ∉ first ∧ cs = first ++ [sep]) ∨
      ∃ first middle, sep ∉ first ∧ cs = first ++ sep :: (middle ++ [sep]) := by
  obtain ⟨first, tail, rfl, hfirst⟩ := List.eq_append_cons_of_mem (List.mem_of_getLast? h)
  rcases List.eq_nil_or_concat tail with rfl | ⟨middle, last, rfl⟩
  · exact .inl ⟨first, hfirst, rfl⟩
  · rw [List.concat_eq_append] at h ⊢
    rw [← List.cons_append, ← List.append_assoc, List.getLast?_concat] at h
    obtain rfl : last = sep := Option.some.inj h
    exact .inr ⟨first, middle, hfirst, rfl⟩

/-- What stands between the first separator and the last one. -/
theorem join_dropLast_split (hlast : sep ∉ ds) (cs : List Char) :
    join sep (split sep (cs ++ sep :: ds)).dropLast = cs := by
  rw [split_append_cons, split_of_not_mem hlast, List.dropLast_concat, join_split]

/-! ## Blanks at the ends -/

theorem dropWhile_isBlank_eq_self (h : ∀ c ∈ cs.head?, isBlank c = false) :
    cs.dropWhile isBlank = cs := by
  cases cs with
  | nil => rfl
  | cons c cs =>
      have hc : isBlank c = false := h c rfl
      exact List.dropWhile_cons_of_neg (by simp [hc])

/-- `ds` is `cs` with blanks around it, or without any. -/
def InBlanks (cs ds : List Char) : Prop :=
  ∃ before after, (∀ c ∈ before, isBlank c = true) ∧ (∀ c ∈ after, isBlank c = true) ∧
    ds = before ++ cs ++ after

/-- `cs` is what is left of `ds` without the blanks around it. -/
structure Trims (ds cs : List Char) : Prop where
  inBlanks : InBlanks cs ds
  head : ∀ c ∈ cs.head?, isBlank c = false
  last : ∀ c ∈ cs.getLast?, isBlank c = false

theorem Trims.trim_eq (h : Trims ds cs) : trim ds = cs := by
  obtain ⟨before, after, hbefore, hafter, rfl⟩ := h.inBlanks
  cases cs with
  | nil =>
      -- Without a text between them all blanks go at once.
      have hblank : ∀ c ∈ before ++ after, isBlank c = true := by
        intro c hc
        rcases List.mem_append.mp hc with hc | hc
        · exact hbefore c hc
        · exact hafter c hc
      have hnothing : trimStart (before ++ [] ++ after) = [] := by
        rw [trimStart, List.append_nil, ← List.append_nil (before ++ after)]
        exact List.dropWhile_append_of_pos hblank
      rw [trim, hnothing]
      rfl
  | cons c cs =>
      have hstart : trimStart (before ++ c :: cs ++ after) = c :: cs ++ after := by
        rw [trimStart, List.append_assoc, List.dropWhile_append_of_pos hbefore]
        exact dropWhile_isBlank_eq_self (fun d hd => h.head d hd)
      have hlast : ∀ d ∈ (c :: cs).reverse.head?, isBlank d = false := by
        rw [List.head?_reverse]
        exact h.last
      rw [trim, hstart, trimEnd, List.reverse_append,
        List.dropWhile_append_of_pos (by simpa using hafter), dropWhile_isBlank_eq_self hlast,
        List.reverse_reverse]

/-- A text without blanks is what is left of it when there are blanks around it. -/
theorem InBlanks.trim_eq (h : InBlanks cs ds) (hplain : ∀ c ∈ cs, isBlank c = false) :
    trim ds = cs := by
  have htrims : Trims ds cs :=
    { inBlanks := h
      head := fun c hc => hplain c (List.mem_of_head? hc)
      last := fun c hc => hplain c (List.mem_of_getLast? hc) }
  exact htrims.trim_eq

theorem trimStart_spec (cs : List Char) :
    (∃ before, (∀ c ∈ before, isBlank c = true) ∧ cs = before ++ trimStart cs) ∧
      ∀ c ∈ (trimStart cs).head?, isBlank c = false := by
  refine ⟨⟨cs.takeWhile isBlank, ?_, List.takeWhile_append_dropWhile.symm⟩, ?_⟩
  · intro c hc
    exact List.all_eq_true.mp List.all_takeWhile c hc
  · intro c hc
    have hnot := List.head?_dropWhile_not isBlank cs
    rw [← trimStart, hc] at hnot
    exact hnot

theorem trimEnd_spec (cs : List Char) :
    (∃ after, (∀ c ∈ after, isBlank c = true) ∧ cs = trimEnd cs ++ after) ∧
      ∀ c ∈ (trimEnd cs).getLast?, isBlank c = false := by
  -- What holds of the start of the reversed text holds of the end of the text.
  obtain ⟨⟨before, hbefore, hcs⟩, hhead⟩ := trimStart_spec cs.reverse
  have hend : trimEnd cs = (trimStart cs.reverse).reverse := rfl
  refine ⟨⟨before.reverse, by simpa using hbefore, ?_⟩, ?_⟩
  · rw [hend, ← List.reverse_append, ← hcs, List.reverse_reverse]
  · rw [hend, List.getLast?_reverse]
    exact hhead

theorem trims_trim (ds : List Char) : Trims ds (trim ds) := by
  obtain ⟨⟨before, hbefore, hds⟩, hhead⟩ := trimStart_spec ds
  obtain ⟨⟨after, hafter, hrest⟩, hlast⟩ := trimEnd_spec (trimStart ds)
  refine ⟨⟨before, after, hbefore, hafter, ?_⟩, ?_, hlast⟩
  · rw [List.append_assoc, trim, ← hrest, ← hds]
  · -- The first character stays the first when blanks go from the end.
    intro c hc
    apply hhead c
    rw [hrest, List.head?_append]
    exact Option.or_eq_some_iff.mpr (.inl hc)

theorem eq_map_iff {f : Char → Char} : cs = cs.map f ↔ ∀ c ∈ cs, c = f c := by
  have hmap := List.map_inj_left (l := cs) (f := id) (g := f)
  rw [List.map_id] at hmap
  exact hmap

theorem startsWith_append (lead cs : List Char) : startsWith lead (lead ++ cs) = true := by
  unfold startsWith
  rw [stripStart?_append]
  rfl

theorem startsWith_iff {lead : List Char} :
    startsWith lead cs = true ↔ ∃ rest, cs = lead ++ rest := by
  constructor
  · intro h
    obtain ⟨rest, hrest⟩ := Option.isSome_iff_exists.mp h
    exact ⟨rest, eq_append_of_stripStart? hrest⟩
  · rintro ⟨rest, rfl⟩
    exact startsWith_append lead rest

end PlaceWeather.Text
