import Mathlib.Data.List.TakeWhile
import PlaceWeather.Markup.Scope
import PlaceWeather.Proofs.Markup.Tokens

/-!
# Written tags

A written tag gives its name and what stands behind it as a token, and its attributes can be read
back from there.  None of them has a prefix, so they bind no short names and mark nothing as nil.
-/

namespace PlaceWeather.Markup

/-! ## Tags -/

/-- What a tag begins with behind its name. -/
theorem TagText.head_space {attributes : List (String × String)} {tag : List Char}
    (h : TagText attributes tag) : tag = [] ∨ ∃ c cs, tag = c :: cs ∧ isSpace c = true := by
  have hblanks : ∀ blanks cs : List Char, blanks ≠ [] → blanks.all isSpace = true →
      ∃ c ds, blanks ++ cs = c :: ds ∧ isSpace c = true := by
    intro blanks cs hne hall
    obtain ⟨c, rest, rfl⟩ := List.exists_cons_of_ne_nil hne
    rw [List.all_cons, Bool.and_eq_true] at hall
    exact ⟨c, rest ++ cs, rfl, hall.1⟩
  cases h with
  | nil hall =>
      by_cases hne : tag = []
      · exact .inl hne
      · obtain ⟨c, ds, heq, hc⟩ := hblanks tag [] hne hall
        rw [List.append_nil] at heq
        exact .inr ⟨c, ds, heq, hc⟩
  | cons hne hall => exact .inr (hblanks _ _ hne hall)

/-- No slash of its own stands at the end of a tag. -/
theorem TagText.getLast?_ne {attributes : List (String × String)} {tag : List Char}
    (h : TagText attributes tag) : tag.getLast? ≠ some '/' := by
  induction h with
  | nil hall =>
      intro hlast
      have hspace := List.all_eq_true.mp hall _ (List.mem_of_getLast? hlast)
      cases hspace
  | @cons blanks cs key value rest hne hall hkey hnew hrest ih =>
      -- What follows the closing quote decides, or the quote itself.
      have hsplit : blanks ++ (key.toList ++ ('=' :: '"' :: (Reference.escape value.toList ++
          '"' :: cs))) = (blanks ++ key.toList ++ '=' :: '"' :: Reference.escape value.toList) ++
            '"' :: cs := by simp
      rw [hsplit, List.getLast?_append]
      cases cs with
      | nil => simp
      | cons c cs =>
          rw [List.getLast?_cons_cons, List.getLast?_eq_some_getLast (List.cons_ne_nil c cs)] at *
          exact ih

namespace Mode

/-- Outside of quotes a tag goes on with every character but its end and a quote. -/
theorem run_tag {cs : List Char} (h : ∀ c ∈ cs, c ≠ '>' ∧ c ≠ '"' ∧ c ≠ '\'') (seen : List Char) :
    (tag none seen).run cs = (tag none (cs.reverse ++ seen), []) := by
  induction cs generalizing seen with
  | nil => rfl
  | cons c cs ih =>
      obtain ⟨hend, hdouble, hsingle⟩ := h c List.mem_cons_self
      have hstep : (tag none seen).step c = (tag none (c :: seen), []) := by
        simp [step, stepTag, quoteAfter, hend, hdouble, hsingle]
      rw [List.reverse_cons, List.append_assoc]
      exact run_cons_of hstep (ih (fun d hd => h d (List.mem_cons_of_mem _ hd)) (c :: seen))

/-- Inside quotes a tag goes on up to the same quote. -/
theorem run_tag_quoted {cs : List Char} (h : '"' ∉ cs) (seen : List Char) :
    (tag (some '"') seen).run cs = (tag (some '"') (cs.reverse ++ seen), []) := by
  induction cs generalizing seen with
  | nil => rfl
  | cons c cs ih =>
      rw [List.mem_cons, not_or] at h
      have hstep : (tag (some '"') seen).step c = (tag (some '"') (c :: seen), []) := by
        simp [step, stepTag, quoteAfter, Ne.symm h.1]
      rw [List.reverse_cons, List.append_assoc]
      exact run_cons_of hstep (ih h.2 (c :: seen))

theorem run_tag_of_letters {cs : List Char} (h : ∀ c ∈ cs, c.isAlpha = true) (seen : List Char) :
    (tag none seen).run cs = (tag none (cs.reverse ++ seen), []) := by
  refine run_tag (fun c hc => ⟨?_, ?_, ?_⟩) seen
  · exact ne_of_isAlpha (h c hc) rfl
  · exact ne_of_isAlpha (h c hc) rfl
  · exact ne_of_isAlpha (h c hc) rfl

theorem run_tag_of_blanks {cs : List Char} (h : cs.all isSpace = true) (seen : List Char) :
    (tag none seen).run cs = (tag none (cs.reverse ++ seen), []) := by
  refine run_tag (fun c hc => ⟨?_, ?_, ?_⟩) seen
  · exact ne_of_isSpace (List.all_eq_true.mp h c hc) rfl
  · exact ne_of_isSpace (List.all_eq_true.mp h c hc) rfl
  · exact ne_of_isSpace (List.all_eq_true.mp h c hc) rfl

theorem run_tagText {attributes : List (String × String)} {tagText : List Char}
    (h : TagText attributes tagText) (seen : List Char) :
    (tag none seen).run tagText = (tag none (tagText.reverse ++ seen), []) := by
  induction h generalizing seen with
  | nil hall => exact run_tag_of_blanks hall seen
  | @cons blanks cs key value rest hne hall hkey hnew hrest ih =>
      have hopen : ∀ seen, (tag none seen).run ['=', '"'] =
          (tag (some '"') ('"' :: '=' :: seen), []) := fun seen => rfl
      have hclose : ∀ seen, (tag (some '"') seen).run ['"'] = (tag none ('"' :: seen), []) :=
        fun seen => rfl
      have hvalue : '"' ∉ Reference.escape value.toList :=
        not_mem_escape (by decide) (by decide) value.toList
      -- The blanks, the key, the opening quote, the value, the closing quote, and what follows.
      have hrun := run_append_of (run_tag_of_blanks hall seen)
        (run_append_of (run_tag_of_letters hkey.letters _)
          (run_append_of (hopen _)
            (run_append_of (run_tag_quoted hvalue _)
              (run_append_of (hclose _) (ih _)))))
      simpa using hrun

/-! ### Whole tags -/

variable {name : String} {attributes : List (String × String)} {tagText : List Char}

/-- The name of a tag is what stands before its first white space. -/
theorem cut_name (hname : IsWord name) (htag : TagText attributes tagText) :
    (name.toList ++ tagText).takeWhile (!isSpace ·) = name.toList ∧
      (name.toList ++ tagText).dropWhile (!isSpace ·) = tagText := by
  have hletters : ∀ c ∈ name.toList, (!isSpace c) = true := by
    intro c hc
    rw [isSpace_eq_false_of_isAlpha (hname.letters c hc)]
    rfl
  rw [List.takeWhile_append_of_pos hletters, List.dropWhile_append_of_pos hletters]
  rcases htag.head_space with rfl | ⟨c, cs, rfl, hc⟩
  · simp
  · simp [hc]

theorem ofTag_startTag (hname : IsWord name) (htag : TagText attributes tagText) :
    ofTag (name.toList ++ tagText) = (text false, [.opening name.toList tagText]) := by
  have hlast : (name.toList ++ tagText).getLast? ≠ some '/' := by
    rw [List.getLast?_append]
    cases hend : tagText.getLast? with
    | some c =>
        rw [Option.some_or, ← hend]
        exact htag.getLast?_ne
    | none =>
        rw [Option.none_or]
        intro hslash
        exact ne_of_isAlpha (hname.letters _ (List.mem_of_getLast? hslash)) rfl rfl
  obtain ⟨htake, hdrop⟩ := cut_name hname htag
  simp only [ofTag, if_neg hlast, htake, hdrop]

theorem ofTag_soleTag (hname : IsWord name) (htag : TagText attributes tagText) :
    ofTag (name.toList ++ tagText ++ ['/']) =
      (text false, [.opening name.toList tagText, .closing name.toList]) := by
  have hlast : (name.toList ++ tagText ++ ['/']).getLast? = some '/' := List.getLast?_concat
  obtain ⟨htake, hdrop⟩ := cut_name hname htag
  simp only [ofTag, if_pos hlast, List.dropLast_concat, htake, hdrop]

/-- The beginning of a tag, up to what ends it. -/
theorem run_tagStart (hname : IsWord name) (htag : TagText attributes tagText)
    (afterReturn : Bool) :
    (text afterReturn).run ('<' :: (name.toList ++ tagText)) =
      (tag none (name.toList ++ tagText).reverse, []) := by
  obtain ⟨c, cs, hcons⟩ := List.exists_cons_of_ne_nil hname.ne_nil
  have hletters : ∀ d ∈ c :: cs, d.isAlpha = true := by
    rw [← hcons]
    exact hname.letters
  have hc := hletters c List.mem_cons_self
  have hopen : (text afterReturn).step '<' = (mark, []) := rfl
  have hfirst : mark.step c = (tag none [c], []) := by
    have hnot : c ≠ '!' ∧ c ≠ '/' ∧ c ≠ '?' ∧ c ≠ '>' ∧ c ≠ '"' ∧ c ≠ '\'' :=
      ⟨ne_of_isAlpha hc rfl, ne_of_isAlpha hc rfl, ne_of_isAlpha hc rfl, ne_of_isAlpha hc rfl,
        ne_of_isAlpha hc rfl, ne_of_isAlpha hc rfl⟩
    simp [step, stepTag, quoteAfter, hnot]
  have hname := run_tag_of_letters (fun d hd => hletters d (List.mem_cons_of_mem c hd)) [c]
  have hrun := run_cons_of hopen (run_cons_of hfirst (run_append_of hname (run_tagText htag _)))
  rw [hcons]
  simpa using hrun

/-- A start tag gives its name and its attributes. -/
theorem run_startTag (hname : IsWord name) (htag : TagText attributes tagText)
    (afterReturn : Bool) :
    (text afterReturn).run (startTag name tagText) =
      (text false, [.opening name.toList tagText]) := by
  have hstep : (tag none (name.toList ++ tagText).reverse).step '>' =
      (text false, [.opening name.toList tagText]) := by
    simp only [step, stepTag, Option.isNone_none, and_self, if_true, List.reverse_reverse]
    exact ofTag_startTag hname htag
  have hrun := run_append_of (run_tagStart hname htag afterReturn)
    (run_cons_of hstep (run_nil _))
  simpa [startTag] using hrun

/-- A tag that opens and closes an element gives both of its tags. -/
theorem run_soleTag (hname : IsWord name) (htag : TagText attributes tagText)
    (afterReturn : Bool) :
    (text afterReturn).run (soleTag name tagText) =
      (text false, [.opening name.toList tagText, .closing name.toList]) := by
  have hslash : (tag none (name.toList ++ tagText).reverse).step '/' =
      (tag none (name.toList ++ tagText ++ ['/']).reverse, []) := by
    simp [step, stepTag, quoteAfter]
  have hstep : (tag none (name.toList ++ tagText ++ ['/']).reverse).step '>' =
      (text false, [.opening name.toList tagText, .closing name.toList]) := by
    simp only [step, stepTag, Option.isNone_none, and_self, if_true, List.reverse_reverse]
    exact ofTag_soleTag hname htag
  have hrun := run_append_of (run_tagStart hname htag afterReturn)
    (run_cons_of hslash (run_cons_of hstep (run_nil _)))
  simpa [soleTag] using hrun

theorem run_endTag_of_letters {cs : List Char} (h : ∀ c ∈ cs, c.isAlpha = true)
    (seen : List Char) :
    (Mode.endTag none seen).run cs = (Mode.endTag none (cs.reverse ++ seen), []) := by
  induction cs generalizing seen with
  | nil => rfl
  | cons c cs ih =>
      have hc := h c List.mem_cons_self
      have hnot : c ≠ '>' ∧ c ≠ '"' ∧ c ≠ '\'' :=
        ⟨ne_of_isAlpha hc rfl, ne_of_isAlpha hc rfl, ne_of_isAlpha hc rfl⟩
      have hstep : (Mode.endTag none seen).step c = (Mode.endTag none (c :: seen), []) := by
        simp [step, stepEndTag, quoteAfter, hnot]
      rw [List.reverse_cons, List.append_assoc]
      exact run_cons_of hstep (ih (fun d hd => h d (List.mem_cons_of_mem _ hd)) (c :: seen))

/-- No blank stands at the end of a word, so an end tag keeps all of it. -/
theorem endName_reverse (hname : IsWord name) : endName name.toList.reverse = name.toList := by
  obtain ⟨c, cs, hcons⟩ := List.exists_cons_of_ne_nil (List.reverse_ne_nil_iff.mpr hname.ne_nil)
  have hc : c.isAlpha = true := by
    apply hname.letters
    rw [← List.mem_reverse, hcons]
    exact List.mem_cons_self
  unfold endName
  rw [hcons, List.dropWhile_cons_of_neg (by simp [isSpace_eq_false_of_isAlpha hc])]
  dsimp only
  rw [← hcons, List.reverse_reverse]

/-- An end tag gives its name. -/
theorem run_endTag (hname : IsWord name) (afterReturn : Bool) :
    (text afterReturn).run (Markup.endTag name) = (text false, [.closing name.toList]) := by
  have hopen : (text afterReturn).run ['<', '/'] = (Mode.endTag none [], []) := rfl
  have hclose : (Mode.endTag none (name.toList.reverse ++ [])).step '>' =
      (text false, [.closing name.toList]) := by
    simp [step, stepEndTag, endName_reverse hname]
  have hrun := run_append_of hopen (run_append_of (run_endTag_of_letters hname.letters [])
    (run_cons_of hclose (run_nil _)))
  simpa [Markup.endTag] using hrun

end Mode

/-! ## Attributes -/

/-- Every key of a tag is a word, and occurs once. -/
theorem TagText.keys {attributes : List (String × String)} {tag : List Char}
    (h : TagText attributes tag) :
    (∀ a ∈ attributes, IsWord a.1) ∧ (attributes.map Prod.fst).Nodup := by
  induction h with
  | nil => exact ⟨by simp, List.nodup_nil⟩
  | cons hne hall hkey hnew hrest ih =>
      refine ⟨?_, List.nodup_cons.mpr ⟨hnew, ih.2⟩⟩
      intro a ha
      rcases List.mem_cons.mp ha with rfl | ha
      · exact hkey
      · exact ih.1 a ha

namespace Attribute

/-- An attribute as it stands in a tag. -/
def ofPair (a : String × String) : Attribute := ⟨a.1.toList, Reference.escape a.2.toList⟩

theorem splitName?_of_isWord {s : String} (h : IsWord s) : splitName? s.toList = none := by
  have hnone : s.toList.dropWhile (· != ':') = [] := by
    rw [List.dropWhile_eq_nil_iff]
    intro c hc
    exact bne_iff_ne.mpr (ne_of_isAlpha (h.letters c hc) rfl)
  unfold splitName?
  rw [hnone]

theorem localName_of_isWord {s : String} (h : IsWord s) : localName s.toList = s.toList := by
  unfold localName
  rw [splitName?_of_isWord h]
  rfl

/-- Reading an attribute stops behind its closing quote. -/
theorem read_written {key value : String} {names : List (List Char)} {first : Char}
    {others cs : List Char} (distinct : Bool) (hkey : IsWord key)
    (hcons : key.toList = first :: others) (hnew : key.toList ∉ names) :
    read distinct names first
        (others ++ ('=' :: '"' :: (Reference.escape value.toList ++ '"' :: cs))) =
      ⟨some (ofPair (key, value)), key.toList :: names, cs⟩ := by
  have hinName : ∀ c ∈ others, (c != '=' && !isSpace c) = true := by
    intro c hc
    have hletter := hkey.letters c (hcons ▸ List.mem_cons_of_mem first hc)
    rw [isSpace_eq_false_of_isAlpha hletter, bne_iff_ne.mpr (ne_of_isAlpha hletter rfl)]
    rfl
  have hvalue : ∀ c ∈ Reference.escape value.toList, (c != '"') = true := by
    intro c hc
    refine bne_iff_ne.mpr ?_
    rintro rfl
    exact not_mem_escape (by decide) (by decide) value.toList hc
  generalize hescaped : Reference.escape value.toList = escaped at hvalue
  have hname : ('=' :: '"' :: (escaped ++ '"' :: cs)).takeWhile
      (fun c => c != '=' && !isSpace c) = [] := rfl
  have hequals : (('=' :: '"' :: (escaped ++ '"' :: cs)).dropWhile
      (fun c => c != '=' && !isSpace c)).dropWhile isSpace = '=' :: '"' :: (escaped ++ '"' :: cs) :=
    rfl
  have hquote : ('"' :: (escaped ++ '"' :: cs)).dropWhile isSpace = '"' :: (escaped ++ '"' :: cs) :=
    rfl
  have hrest : (escaped ++ '"' :: cs).dropWhile (· != '"') = '"' :: cs := by
    rw [List.dropWhile_append_of_pos hvalue]
    rfl
  have hraw : (escaped ++ '"' :: cs).takeWhile (· != '"') = escaped := by
    rw [List.takeWhile_append_of_pos hvalue]
    exact List.append_nil escaped
  have hfirst : (distinct && names.contains key.toList) = false := by
    simp [hnew]
  simp only [read, List.takeWhile_append_of_pos hinName, List.dropWhile_append_of_pos hinName,
    hname, hequals, List.append_nil, ← hcons, hfirst, Bool.false_eq_true, if_false, hquote,
    true_or, if_true, hrest, hraw, ofPair, hescaped]

theorem scanFrom_tagText {attributes : List (String × String)} {tag : List Char}
    (h : TagText attributes tag) (distinct : Bool) {fuel : Nat} (hfuel : tag.length ≤ fuel)
    {names : List (List Char)} (hnew : ∀ a ∈ attributes, a.1.toList ∉ names) :
    scanFrom distinct fuel names tag = attributes.map fun a => some (ofPair a) := by
  induction h generalizing fuel names with
  | @nil blanks hall =>
      have hend : blanks.dropWhile isSpace = [] :=
        List.dropWhile_eq_nil_iff.mpr (List.all_eq_true.mp hall)
      cases fuel with
      | zero => rfl
      | succ fuel => rw [scanFrom, hend, List.map_nil]
  | @cons blanks cs key value rest hne hall hkey hfresh hrest ih =>
      obtain ⟨first, others, hcons⟩ := List.exists_cons_of_ne_nil hkey.ne_nil
      have hfirst : isSpace first = false := by
        refine isSpace_eq_false_of_isAlpha (hkey.letters first ?_)
        rw [hcons]
        exact List.mem_cons_self
      cases fuel with
      | zero => simp at hfuel
      | succ fuel =>
          have hblanks : (blanks ++ (key.toList ++ ('=' :: '"' ::
              (Reference.escape value.toList ++ '"' :: cs)))).dropWhile isSpace =
                first :: (others ++ ('=' :: '"' ::
                  (Reference.escape value.toList ++ '"' :: cs))) := by
            rw [List.dropWhile_append_of_pos (List.all_eq_true.mp hall), hcons, List.cons_append,
              List.dropWhile_cons_of_neg (by simp [hfirst])]
          have hread : read distinct names first (others ++ ('=' :: '"' ::
              (Reference.escape value.toList ++ '"' :: cs))) =
                ⟨some (ofPair (key, value)), key.toList :: names, cs⟩ :=
            read_written distinct hkey hcons (hnew (key, value) List.mem_cons_self)
          have hlength : cs.length ≤ fuel := by
            simp only [List.length_append, List.length_cons] at hfuel
            omega
          rw [scanFrom, hblanks]
          dsimp only
          rw [hread, List.map_cons, ih hlength]
          intro a ha
          -- A later key is none of the names seen so far, this one included.
          rw [List.mem_cons, not_or]
          refine ⟨fun heq => hfresh ?_, hnew a (List.mem_cons_of_mem _ ha)⟩
          rw [← String.toList_injective heq]
          exact List.mem_map_of_mem ha

/-- The attributes of a written tag are read one by one. -/
theorem scan_tagText {attributes : List (String × String)} {tag : List Char}
    (h : TagText attributes tag) (distinct : Bool) :
    scan distinct tag = attributes.map fun a => some (ofPair a) :=
  scanFrom_tagText h distinct (Nat.le_refl _) fun _ _ => List.not_mem_nil

theorem ofTag?_tagText {attributes : List (String × String)} {tag : List Char}
    (h : TagText attributes tag) : ofTag? tag = some (attributes.map ofPair) := by
  have hall : ∀ as : List (String × String),
      (as.map fun a => some (ofPair a)).mapM id = some (as.map ofPair) := by
    intro as
    induction as with
    | nil => rfl
    | cons a rest ih =>
        rw [List.map_cons, List.mapM_cons, ih]
        rfl
  unfold ofTag?
  rw [scan_tagText h, hall]

theorem knownName_ofPair {a : String × String} (h : IsWord a.1) :
    (ofPair a).knownName = a.1.toList := by
  unfold knownName
  rw [show (ofPair a).name = a.1.toList from rfl, splitName?_of_isWord h]
  exact localName_of_isWord h

/-- The value of an attribute is the one that was written for its key. -/
theorem value?_written {attributes : List (String × String)}
    (hkeys : ∀ a ∈ attributes, IsWord a.1) (hdistinct : (attributes.map Prod.fst).Nodup)
    (key : String) :
    value? (attributes.map ofPair) key =
      some ((attributes.find? (·.1 == key)).map (·.2.toList)) := by
  have hfilter : (attributes.map ofPair).filter (·.knownName == key.toList) =
      ((attributes.find? (·.1 == key)).map ofPair).toList := by
    induction attributes with
    | nil => rfl
    | cons a rest ih =>
        rw [List.map_cons, List.nodup_cons] at hdistinct
        have hrest := ih (fun b hb => hkeys b (List.mem_cons_of_mem _ hb)) hdistinct.2
        have hname := knownName_ofPair (hkeys a List.mem_cons_self)
        rw [List.map_cons, List.filter_cons, List.find?_cons, hname, hrest]
        by_cases hkey : a.1 = key
        · -- No later attribute has the key.
          have hnone : rest.find? (·.1 == key) = none := by
            rw [List.find?_eq_none]
            intro b hb hsame
            rw [beq_iff_eq, ← hkey] at hsame
            exact hdistinct.1 (hsame ▸ List.mem_map_of_mem hb)
          rw [if_pos (by simp [hkey]), hnone]
          simp [hkey]
        · have hne : (a.1.toList == key.toList) = false :=
            beq_eq_false_iff_ne.mpr fun heq => hkey (String.toList_injective heq)
          rw [if_neg (by simp [hne]), beq_eq_false_iff_ne.mpr hkey]
  unfold value?
  rw [hfilter]
  cases attributes.find? (·.1 == key) with
  | none => rfl
  | some a =>
      have hexpand : Reference.expand (ofPair a).raw = some a.2.toList :=
        Reference.expand_escape a.2.toList
      simp only [Option.map_some, Option.toList_some, hexpand]

end Attribute

/-! ## Scopes -/

namespace Scope

theorem bind?_ofPair {a : String × String} (h : IsWord a.1) (scope : Scope) :
    scope.bind? (Attribute.ofPair a) = some scope := by
  unfold bind?
  rw [show (Attribute.ofPair a).name = a.1.toList from rfl, Attribute.splitName?_of_isWord h]

theorem foldlM_bind?_ofPair {attributes : List (String × String)}
    (h : ∀ a ∈ attributes, IsWord a.1) (scope : Scope) :
    (attributes.map Attribute.ofPair).foldlM bind? scope = some scope := by
  induction attributes with
  | nil => rfl
  | cons a rest ih =>
      rw [List.map_cons, List.foldlM_cons, bind?_ofPair (h a List.mem_cons_self)]
      exact ih fun b hb => h b (List.mem_cons_of_mem _ hb)

theorem isNil_ofPair {a : String × String} (h : IsWord a.1) (scope : Scope) :
    scope.isNil (Attribute.ofPair a) = false := by
  unfold isNil
  rw [show (Attribute.ofPair a).name = a.1.toList from rfl, Attribute.splitName?_of_isWord h]

theorem reduceOption_written (attributes : List (String × String)) :
    (attributes.map fun a => some (Attribute.ofPair a)).reduceOption =
      attributes.map Attribute.ofPair := by
  unfold List.reduceOption
  rw [List.filterMap_map]
  exact congrFun List.filterMap_eq_map attributes

/-- A written tag binds no short name. -/
theorem enter?_tagText {attributes : List (String × String)} {tag : List Char}
    (h : TagText attributes tag) (scope : Scope) :
    scope.enter? tag = some { scope with depth := scope.depth + 1 } := by
  have hall : (attributes.map fun a => some (Attribute.ofPair a)).takeWhile Option.isSome =
      attributes.map fun a => some (Attribute.ofPair a) := by
    rw [List.takeWhile_eq_self_iff]
    intro a ha
    obtain ⟨pair, -, rfl⟩ := List.mem_map.mp ha
    rfl
  unfold enter?
  rw [Attribute.scan_tagText h, hall, reduceOption_written]
  exact foldlM_bind?_ofPair h.keys.1 _

/-- A written tag does not say that its element is nil. -/
theorem marksNil_tagText {attributes : List (String × String)} {tag : List Char}
    (h : TagText attributes tag) (scope : Scope) : scope.marksNil tag = false := by
  unfold marksNil
  rw [Attribute.scan_tagText h, reduceOption_written, List.any_eq_false]
  intro a ha
  obtain ⟨pair, hpair, rfl⟩ := List.mem_map.mp ha
  rw [isNil_ofPair (h.keys.1 pair hpair)]
  exact Bool.false_ne_true

end Scope

end PlaceWeather.Markup
