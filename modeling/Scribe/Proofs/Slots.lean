import Scribe.Tree.Slots
import Scribe.Tree.View

/-!
# What stands in a tree

`Value.Inside`: what stands in a tree at any depth, and `Value.slot_induction`: what holds of a tree
if it holds of its slots.
-/

namespace Scribe

namespace Value

/-- Whether `v` stands in `w`, at any depth. -/
inductive Inside : Value → Value → Prop
  | refl (v : Value) : Inside v v
  | slot {u v w : Value} : Inside u v → v ∈ w.slots → Inside u w

theorem Inside.trans {u v w : Value} (h : Inside u v) (h' : Inside v w) : Inside u w := by
  induction h' with
  | refl => exact h
  | slot _ hin ih => exact ih.slot hin

/-- What holds at all depths holds of the tree itself, and at all depths of its slots. -/
theorem forall_inside_iff {P : Value → Prop} {v : Value} :
    (∀ u, Inside u v → P u) ↔ P v ∧ ∀ w ∈ v.slots, ∀ u, Inside u w → P u := by
  constructor
  · intro h
    exact ⟨h v (.refl v), fun w hw u hu => h u (hu.slot hw)⟩
  · rintro ⟨hv, hs⟩ u hu
    cases hu with
    | refl => exact hv
    | slot hin hslot => exact hs _ hslot u hin

/-- The items of a slot stand in it, or are the parts of a scalar. -/
theorem mem_items {u v : Value} {items : List Value} (h : v.items = .ok items) (hu : u ∈ items) :
    u ∈ v.slots ∨ ∃ s, u = .scalar s := by
  unfold Value.items at h
  split at h
  · cases h
    exact .inl hu
  · cases h
    obtain ⟨c, -, rfl⟩ := List.mem_map.1 hu
    exact .inr ⟨_, rfl⟩
  · cases h
    obtain ⟨n, -, rfl⟩ := List.mem_map.1 hu
    exact .inr ⟨_, rfl⟩
  · cases h

/-- What follows for a tree from its slots holds of all trees. -/
theorem slot_induction {motive : Value → Prop}
    (slots : ∀ v : Value, (∀ u ∈ v.slots, motive u) → motive v) (v : Value) : motive v := by
  -- The recursion of the trees, with the slots of a tree in place of the tree itself.
  apply @Value.rec motive (fun t => ∀ u ∈ t.slots, motive u) (fun e => ∀ u ∈ e.slots, motive u)
    (fun s => ∀ u ∈ s.slots, motive u) (fun c => ∀ u ∈ c.slots, motive u)
    (fun l => ∀ u ∈ l, motive u)
  case scalar | entity => exact fun _ => slots _ (List.forall_mem_nil _)
  case list | type | expr | stmt | clause => exact fun _ h => slots _ h
  case nil => exact List.forall_mem_nil _
  case cons => exact fun _ _ h h' => List.forall_mem_cons.2 ⟨h, h'⟩
  case bounds => exact fun _ _ => slots _ (List.forall_mem_nil _)
  case «attribute» =>
    intro a b ha hb
    exact slots _ (List.forall_mem_cons.2 ⟨ha, List.forall_mem_singleton.2 hb⟩)
  all_goals
    simp only [TypeTree.slots, Expr.slots, Stmt.slots, Clause.slots, List.forall_mem_cons,
      List.not_mem_nil, false_implies, implies_true, and_true]
  all_goals
    intros
    simp only [and_self, *]

end Value

end Scribe
