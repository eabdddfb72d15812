import PlaceWeather.Proofs.Markup.Items

/-!
# Children and attributes of written elements

The children of a node that was read from a written element are looked up by name as the items of
that element are, and its attributes have the values that were written.
-/

namespace PlaceWeather.Markup

theorem exists_left_of_mem {α β : Type} {R : α → β → Prop} {as : List α} {bs : List β}
    (h : List.Forall₂ R as bs) {b : β} (hb : b ∈ bs) : ∃ a ∈ as, R a b := by
  induction h with
  | nil => cases hb
  | cons hfirst _ ih =>
      rcases List.mem_cons.mp hb with rfl | hb
      · exact ⟨_, List.mem_cons_self, hfirst⟩
      · obtain ⟨a, ha, hab⟩ := ih hb
        exact ⟨a, List.mem_cons_of_mem _ ha, hab⟩

theorem Item.Becomes.isNamed {item : Item} {node : Node} (h : item.Becomes node) (name : String) :
    node.isNamed name = (item.name == name) := by
  have hlocal : ∀ s : String, IsWord s → (localName s.toList == name.toList) = (s == name) := by
    intro s hs
    rw [Attribute.localName_of_isWord hs, Bool.eq_iff_iff, beq_iff_eq, beq_iff_eq]
    exact ⟨fun heq => String.toList_injective heq, congrArg String.toList⟩
  cases h with
  | element hname | textual hname => exact hlocal _ hname

theorem Item.Becomes.fullName? {item : Item} {node : Node} (h : item.Becomes node) :
    node.fullName? = some item.name.toList := by
  cases h <;> rfl

theorem Node.isSpace_of_isNamed {node : Node} {name : String} (h : node.isNamed name = true) :
    node.isSpace = false := by
  cases node with
  | text => cases h
  | element | passed => rfl

/-- The children with a name are read from the items with that name. -/
theorem forall₂_named {items : List Item} {nodes : List Node}
    (h : List.Forall₂ Item.Becomes items nodes) (name : String) :
    List.Forall₂ Item.Becomes (items.filter (·.name == name)) (nodes.filter (·.isNamed name)) := by
  induction h with
  | nil => exact .nil
  | @cons item node items nodes hfirst _ ih =>
      rw [List.filter_cons, List.filter_cons, hfirst.isNamed]
      split
      · exact .cons hfirst ih
      · exact ih

namespace Item.Becomes

variable {name : String} {attributes : List (String × String)} {items : List Item} {node : Node}

theorem named_children (h : (Item.element name attributes items).Becomes node) (key : String) :
    List.Forall₂ Item.Becomes (items.filter (·.name == key))
      (node.children.filter (·.isNamed key)) := by
  cases h with
  | @element _ _ _ _ nodes _ _ hchildren =>
      have hnamed := forall₂_named hchildren key
      -- No blank text has a name.
      have hsolid : (nodes.filter (!·.isSpace)).filter (·.isNamed key) =
          nodes.filter (·.isNamed key) := by
        rw [List.filter_filter]
        refine List.filter_congr fun n _ => ?_
        cases hn : n.isNamed key with
        | false => rfl
        | true => rw [Node.isSpace_of_isNamed hn]; rfl
      rw [hsolid] at hnamed
      exact hnamed

/-- The only child with a name is found. -/
theorem child?_eq_some (h : (Item.element name attributes items).Becomes node) {item : Item}
    {key : String} (hkey : items.filter (·.name == key) = [item]) :
    ∃ child, node.child? key = some (some child) ∧ item.Becomes child := by
  have hnamed := h.named_children key
  rw [hkey] at hnamed
  generalize hnodes : node.children.filter (·.isNamed key) = nodes at hnamed
  cases hnamed with
  | @cons _ child _ rest hitem hrest =>
      cases hrest
      refine ⟨child, ?_, hitem⟩
      unfold Node.child?
      rw [show node.children.filter (Node.isNamed key) = [child] from hnodes]
      cases hitem <;> rfl

theorem child?_eq_none (h : (Item.element name attributes items).Becomes node) {key : String}
    (hkey : items.filter (·.name == key) = []) : node.child? key = some none := by
  have hnamed := h.named_children key
  rw [hkey] at hnamed
  unfold Node.child?
  rw [show node.children.filter (Node.isNamed key) = [] from List.forall₂_nil_left_iff.mp hnamed]

/-- The attributes of an element have the values that were written. -/
theorem attributes?_eq (h : (Item.element name attributes items).Becomes node) :
    ∃ as, node.attributes? = some as ∧ ∀ key, Attribute.value? as key =
      some ((attributes.find? (·.1 == key)).map (·.2.toList)) := by
  cases h with
  | element hname htag hchildren =>
      exact ⟨_, Attribute.ofTag?_tagText htag,
        Attribute.value?_written htag.keys.1 htag.keys.2⟩

end Item.Becomes

end PlaceWeather.Markup
